import ForthFrontend.Proofs.Yaml.Scalar
import ForthFrontend.Proofs.Yaml.Token.Cursor

/-!
# Reading plain scalars

A text that may be written without quotes consists of words with spaces between them: no word ends
with a colon and no word after a space begins with a hash. Reading takes one word after another and
ends at the line break, or in front of the colon behind a key.

## Main definitions

* `Yaml.PlainWord`: a piece of a plain scalar without blanks.
* `Yaml.PlainWords`: words with spaces between them.

## Main results

* `Yaml.Scalar.plainWords`: a text that may be written without quotes consists of words.
* `Yaml.readPlain_key`: reading a key.
* `Yaml.readPlain_line`: reading a text up to the end of its line.
-/

namespace ForthFrontend.Yaml

/-- A piece of a plain scalar without blanks. -/
structure PlainWord (w : List Nat) : Prop where
  nonempty : w ≠ []
  solid : ∀ v ∈ w, isBlank v = false ∧ isBreak v = false
  /-- A colon at the end would be the mark of a value. -/
  closed : w.getLast? ≠ some 0x3A

/-- Words with spaces between them, none of which looks like a comment. -/
inductive PlainWords : List Nat → Prop where
  | last {w : List Nat} : PlainWord w → PlainWords w
  | cons {w : List Nat} {n v : Nat} {vs : List Nat} : PlainWord w → 0 < n → v ≠ 0x20 → v ≠ 0x23 →
      PlainWords (v :: vs) → PlainWords (w ++ (List.replicate n 0x20 ++ v :: vs))

theorem PlainWords.stops {vs : List Nat} (h : PlainWords vs) : Stops vs := by
  have hword : ∀ {w r : List Nat}, PlainWord w → Stops (w ++ r) := by
    intro w r hw
    cases w with
    | nil => exact absurd rfl hw.nonempty
    | cons v w => exact stops_cons.2 (hw.solid v (by simp))
  cases h with
  | last hw => simpa using hword hw (r := [])
  | cons hw => exact hword hw

/-! ### The words of a text -/

namespace Scalar

theorem badInside_of_anyBadInside {inFlow : Bool} {vs a b : List Nat} {prev v : Nat}
    (h : anyBadInside inFlow vs = false) (heq : vs = a ++ prev :: v :: b) :
    badInside inFlow prev v b.head? = false := by
  induction a generalizing vs with
  | nil =>
    subst heq
    exact (Bool.or_eq_false_iff.1 h).1
  | cons u a ih =>
    subst heq
    cases a with
    | nil => exact ih (Bool.or_eq_false_iff.1 h).2 rfl
    | cons w a => exact ih (Bool.or_eq_false_iff.1 h).2 rfl

/-- What a text without quotes is made of. -/
structure IsPlain (vs : List Nat) : Prop where
  solid : ∀ v ∈ vs, isBreak v = false ∧ v ≠ 0x09
  head : vs.head? ≠ some 0x20
  last : vs.getLast? ≠ some 0x20
  colon : ∀ a b, vs = a ++ 0x3A :: b → endsWord b.head? = false
  hash : ∀ a b, vs ≠ a ++ 0x20 :: 0x23 :: b

theorem isPlain_of_plainAllowed {vs : List Nat} (h : plainAllowed false vs = true) :
    IsPlain vs := by
  simp only [plainAllowed, Bool.not_eq_true', Bool.or_eq_false_iff] at h
  obtain ⟨⟨⟨⟨hloose, hany⟩, -⟩, hstart⟩, hinside⟩ := h
  have hends : ∀ v ∈ [vs.head?, vs.getLast?], v ≠ some 0x20 := by
    rintro v hv rfl
    have := List.any_eq_false.1 hloose _ hv
    simp at this
  refine ⟨fun v hv => ?_, hends _ (by simp), hends _ (by simp), ?_, ?_⟩
  · have := List.any_eq_false.1 hany v hv
    simp only [Bool.or_eq_true, not_or, Bool.not_eq_true, beq_eq_false_iff_ne] at this
    exact this.1
  · rintro a b rfl
    rcases List.eq_nil_or_concat a with rfl | ⟨a, prev, rfl⟩
    · simpa [badStart] using (Bool.or_eq_false_iff.1 (Bool.or_eq_false_iff.1 hstart).1).2
    · have hbad : badInside false prev 0x3A b.head? = false :=
        badInside_of_anyBadInside hinside (a := a) (by simp)
      simp only [badInside, Bool.or_eq_false_iff] at hbad
      simpa using hbad.1.2
  · rintro a b rfl
    have hbad : badInside false 0x20 0x23 b.head? = false :=
      badInside_of_anyBadInside hinside (a := a) rfl
    simp [badInside, isBlank] at hbad

theorem IsPlain.tail {a vs : List Nat} {v : Nat} (h : IsPlain (a ++ v :: vs)) (hv : v ≠ 0x20) :
    IsPlain (v :: vs) where
  solid := fun w hw => h.solid w (List.mem_append_right a hw)
  head := by simpa using hv
  last := by simpa [List.getLast?_append] using h.last
  colon := fun b c heq => h.colon (a ++ b) c (by rw [heq, List.append_assoc])
  hash := fun b c heq => h.hash (a ++ b) c (by rw [heq, List.append_assoc])

/-- **The words of a text** that may be written without quotes. -/
theorem IsPlain.words {vs : List Nat} (h : IsPlain vs) (hne : vs ≠ []) : PlainWords vs := by
  induction hn : vs.length using Nat.strongRecOn generalizing vs with
  | ind n ih =>
    obtain ⟨w, rest, rfl, hw, hrest⟩ := exists_run (· != 0x20) vs
    have hword : PlainWord w := by
      refine ⟨?_, fun v hv => ?_, fun hlast => ?_⟩
      · rintro rfl
        cases rest with
        | nil => exact hne rfl
        | cons v rest =>
          have hv : v = 0x20 := by simpa using hrest v rfl
          exact h.head (by simp [hv])
      · obtain ⟨hbreak, htab⟩ := h.solid v (List.mem_append_left rest hv)
        have hspace : v ≠ 0x20 := by simpa using hw v hv
        exact ⟨by simp [isBlank, htab, hspace], hbreak⟩
      · obtain ⟨a, rfl⟩ := List.getLast?_eq_some_iff.1 hlast
        have hcolon := h.colon a rest (by simp)
        cases rest with
        | nil => cases hcolon
        | cons v rest =>
          have hv : v = 0x20 := by simpa using hrest v rfl
          subst hv
          cases hcolon
    obtain ⟨m, tail, rfl, htail⟩ := exists_spaces rest
    cases tail with
    | nil =>
      -- the text does not end with a space
      cases m with
      | zero => simpa using PlainWords.last hword
      | succ m => exact absurd (by simp [List.replicate_succ', List.getLast?_append]) h.last
    | cons v tail =>
      have hv : v ≠ 0x20 := htail v rfl
      have hpos : 0 < m := by
        cases m with
        | zero => exact absurd (by simpa using hrest v rfl) hv
        | succ m => simp
      have hhash : v ≠ 0x23 := by
        rintro rfl
        refine h.hash (w ++ List.replicate (m - 1) 0x20) tail ?_
        obtain ⟨k, rfl⟩ : ∃ k, m = k + 1 := ⟨m - 1, by omega⟩
        simp [List.replicate_succ']
      have hlt : (v :: tail).length < n := by
        simp only [List.length_append, List.length_replicate] at hn
        omega
      have hrec : PlainWords (v :: tail) := by
        rw [← List.append_assoc] at h
        exact ih _ hlt (h.tail hv) (by simp) rfl
      exact .cons hword hpos hv hhash hrec

theorem plainWords {vs : List Nat} (h : plainAllowed false vs = true) (hne : vs ≠ []) :
    PlainWords vs :=
  (isPlain_of_plainAllowed h).words hne

end Scalar

/-! ### Reading words -/

/-- Does a plain word end in front of the text? -/
def EndsPlain (r : List Nat) : Prop :=
  ∃ v rest, r = v :: rest ∧ (isBlank v = true ∨ isBreak v = true ∨
    v = 0x3A ∧ ∀ w ∈ rest.head?, isBlank w = true ∨ isBreak w = true)

/-- A word is read up to its end. -/
theorem plainLength_word {w r : List Nat} (hsolid : ∀ v ∈ w, isBlank v = false ∧ isBreak v = false)
    (hclosed : w.getLast? ≠ some 0x3A) (hr : EndsPlain r) (n : Nat) :
    plainLength false n (w ++ r) = n + w.length := by
  induction w generalizing n with
  | nil =>
    obtain ⟨v, rest, rfl, h⟩ := hr
    simp only [List.nil_append, plainLength, Bool.false_and, Bool.or_false, List.length_nil,
      Nat.add_zero]
    refine if_pos ?_
    rcases h with h | h | ⟨rfl, h⟩
    · simp [h]
    · simp [h]
    · cases rest with
      | nil => rfl
      | cons w rest =>
        have hw := h w rfl
        simp [hw]
  | cons v w ih =>
    obtain ⟨hblank, hbreak⟩ := hsolid v (by simp)
    -- a colon inside a word is followed by a character of the word
    have hcolon : (v == 0x3A && (w ++ r).head?.all fun u => isBlank u || isBreak u) = false := by
      cases w with
      | nil =>
        have hv : v ≠ 0x3A := by simpa using hclosed
        simp [hv]
      | cons u w =>
        obtain ⟨hb, hk⟩ := hsolid u (by simp)
        simp [hb, hk]
    have hrest : w.getLast? ≠ some 0x3A := by
      cases w with
      | nil => simp
      | cons u w => simpa using hclosed
    rw [List.cons_append, plainLength, hblank, hbreak, hcolon, Bool.false_and, Bool.or_false,
      Bool.or_false, if_neg (by simp),
      ih (fun u hu => hsolid u (by simp [hu])) hrest, List.length_cons]
    omega

theorem atDocumentMark_of_column {c : Cursor} (h : c.mark.column ≠ 0) :
    c.atDocumentMark = false := by
  simp [Cursor.atDocumentMark, h]

section Words

variable {limit indent fuel : Nat} {began : Mark} {s : Scanned}

/-- What was read when a word was taken in. -/
def Scanned.addWord (s : Scanned) (w : List Nat) : Scanned where
  text := pushAll (pushAll s.text s.gap.text) w
  gap := {}
  cursor := s.cursor.advance w.length

section Word

variable {w r : List Nat} (hw : PlainWord w) (hr : EndsPlain r)
  (hc : s.cursor.rest = w ++ r) (hmark : s.cursor.atDocumentMark = false)
  (hhash : s.cursor.sees 0x23 = false)

include hw hr hc hmark hhash

/-- A word that neither a blank nor a line break follows is the last one. -/
theorem plainPieces_stop (hstop : Stops r) :
    plainPieces limit began false indent (fuel + 1) s = .ok (s.addWord w) := by
  have hlen : plainLength false 0 s.cursor.rest = w.length := by
    rw [hc, plainLength_word hw.solid hw.closed hr, Nat.zero_add]
  have hpos : (w.length == 0) = false := by simpa using hw.nonempty
  have htake : s.cursor.rest.take w.length = w := by rw [hc, List.take_left]
  have hrest : (s.cursor.advance w.length).rest = r := by
    rw [Cursor.rest_advance, hc, List.drop_left]
  have hblank := atBlank_of_stops (c := s.cursor.advance w.length) (hrest ▸ hstop)
  have hbreak := atBreak_of_stops (c := s.cursor.advance w.length) (hrest ▸ hstop)
  rw [plainPieces]
  simp only [hmark, hhash, hlen, hpos, htake, hblank, hbreak, Bool.or_self, Bool.false_eq_true,
    ↓reduceIte, Bool.not_false, Scanned.addWord]

/-- After a word and a gap reading goes on, unless the gap leads out of the block. -/
theorem plainPieces_gap {gap : Gap} {cursor : Cursor} (hgo : ¬ Stops r)
    (hgap : readGap began indent limit {} (s.cursor.advance w.length) = .ok (gap, cursor)) :
    plainPieces limit began false indent (fuel + 1) s =
      if cursor.mark.column < indent then
        .ok { s.addWord w with gap := gap, cursor := cursor }
      else
        plainPieces limit began false indent fuel
          { s.addWord w with gap := gap, cursor := cursor } := by
  have hlen : plainLength false 0 s.cursor.rest = w.length := by
    rw [hc, plainLength_word hw.solid hw.closed hr, Nat.zero_add]
  have hpos : (w.length == 0) = false := by simpa using hw.nonempty
  have htake : s.cursor.rest.take w.length = w := by rw [hc, List.take_left]
  have hrest : (s.cursor.advance w.length).rest = r := by
    rw [Cursor.rest_advance, hc, List.drop_left]
  have hgo' : ((s.cursor.advance w.length).atBlank ||
      (s.cursor.advance w.length).atBreak) = true := by
    rw [← hrest] at hgo
    exact atBlank_or_atBreak_of_not_stops hgo
  rw [plainPieces]
  simp only [hmark, hhash, hlen, hpos, htake, hgo', hgap, Bool.or_self, Bool.false_eq_true,
    ↓reduceIte, Bool.not_false, Bool.not_true, Bool.true_and, decide_eq_true_eq, Scanned.addWord]

end Word

/-- The last word of a line, and the indentation of the next line. -/
theorem plainPieces_last {w r : List Nat} {col : Nat} (hw : PlainWord w)
    (hc : s.cursor.rest = w ++ 0x0A :: (List.replicate col 0x20 ++ r)) (hr : Stops r)
    (hcol : col < indent) (hindent : indent ≤ s.cursor.mark.column)
    (hhash : s.cursor.sees 0x23 = false) (hlimit : s.cursor.rest.length ≤ limit) :
    ∃ t, plainPieces limit began false indent (fuel + 1) s = .ok t ∧
      t.text = w.reverse ++ pushAll s.text s.gap.text ∧ t.gap.multiline = true ∧
      t.cursor.rest = r ∧ t.cursor.mark.column = col := by
  have hends : EndsPlain (0x0A :: (List.replicate col 0x20 ++ r)) := ⟨_, _, rfl, .inr (.inl rfl)⟩
  have hgo : ¬ Stops (0x0A :: (List.replicate col 0x20 ++ r)) := by simp [stops_cons, isBreak]
  have hlen : col < limit := by
    rw [hc] at hlimit
    simp only [List.length_append, List.length_cons, List.length_replicate] at hlimit
    omega
  obtain ⟨c', hread, hrest, hcol'⟩ : ∃ c',
      readGap began indent limit {} (s.cursor.advance w.length) =
        .ok ({ first := [0x0A], more := [], multiline := true }, c') ∧
      c'.rest = r ∧ c'.mark.column = col :=
    readGap_breaks (by simp [hc]) (by simp [IsKept]) hr (by simpa using hlen)
  refine ⟨{ s.addWord w with
    gap := { first := [0x0A], more := [], multiline := true }
    cursor := c' }, ?_, rfl, rfl, hrest, hcol'⟩
  rw [plainPieces_gap hw hends hc (atDocumentMark_of_column (by omega)) hhash hgo hread,
    if_pos (by omega)]

/-- A word and the spaces behind it, when another word follows on the line. -/
theorem plainPieces_next {w rest : List Nat} {m : Nat} (hw : PlainWord w)
    (hc : s.cursor.rest = w ++ (List.replicate (m + 1) 0x20 ++ rest)) (hrest : Stops rest)
    (hpos : 0 < indent) (hindent : indent ≤ s.cursor.mark.column)
    (hhash : s.cursor.sees 0x23 = false) (hlimit : s.cursor.rest.length ≤ limit) :
    plainPieces limit began false indent (fuel + 1) s =
      plainPieces limit began false indent fuel { s.addWord w with
        gap := { blanks := List.replicate (m + 1) 0x20 }
        cursor := (s.cursor.advance w.length).advance (m + 1) } := by
  have hends : EndsPlain (List.replicate (m + 1) 0x20 ++ rest) := ⟨0x20, _, rfl, .inl rfl⟩
  have hgo : ¬ Stops (List.replicate (m + 1) 0x20 ++ rest) := by
    simp [List.replicate_succ, stops_cons, isBlank]
  have hlen : m + 1 < limit := by
    have := List.length_pos_iff.2 hw.nonempty
    rw [hc] at hlimit
    simp only [List.length_append, List.length_replicate] at hlimit
    omega
  have hread : readGap began indent limit {} (s.cursor.advance w.length) =
      .ok ({ blanks := List.replicate (m + 1) 0x20 },
        (s.cursor.advance w.length).advance (m + 1)) :=
    readGap_blanks (c := s.cursor.advance w.length) (n := m + 1) (g := {}) (by simp [hc]) hrest
      rfl (by omega)
  rw [plainPieces_gap hw hends hc (atDocumentMark_of_column (by omega)) hhash hgo hread,
    if_neg (by simp; omega)]

/-- Reading words up to the end of their line, and the indentation of the next line. -/
theorem plainPieces_words {vs r : List Nat} {col : Nat} (h : PlainWords vs)
    (hc : s.cursor.rest = vs ++ 0x0A :: (List.replicate col 0x20 ++ r)) (hr : Stops r)
    (hcol : col < indent) (hindent : indent ≤ s.cursor.mark.column)
    (hhash : s.cursor.sees 0x23 = false) (hlimit : s.cursor.rest.length ≤ limit)
    (hfuel : vs.length ≤ fuel) :
    ∃ t, plainPieces limit began false indent fuel s = .ok t ∧
      t.text = vs.reverse ++ pushAll s.text s.gap.text ∧ t.gap.multiline = true ∧
      t.cursor.rest = r ∧ t.cursor.mark.column = col := by
  induction h generalizing s fuel with
  | @last w hw =>
    have hpos := List.length_pos_iff.2 hw.nonempty
    obtain ⟨fuel, rfl⟩ : ∃ k, fuel = k + 1 := ⟨fuel - 1, by omega⟩
    exact plainPieces_last hw hc hr hcol hindent hhash hlimit
  | @cons w n v vs hw hpos hspace hv hwords ih =>
    have hne := List.length_pos_iff.2 hw.nonempty
    rw [List.length_append, List.length_append] at hfuel
    obtain ⟨fuel, rfl⟩ : ∃ k, fuel = k + 1 := ⟨fuel - 1, by omega⟩
    obtain ⟨m, rfl⟩ : ∃ m, n = m + 1 := ⟨n - 1, by omega⟩
    rw [List.append_assoc, List.append_assoc] at hc
    have hstops : Stops (v :: vs ++ 0x0A :: (List.replicate col 0x20 ++ r)) :=
      stops_cons.2 (stops_cons.1 hwords.stops)
    obtain ⟨t, ht, htext, hrest⟩ := ih
      (s := { s.addWord w with
        gap := { blanks := List.replicate (m + 1) 0x20 }
        cursor := (s.cursor.advance w.length).advance (m + 1) }) (by simp [hc])
      (by simp; omega) (by simp [Cursor.sees, Cursor.head?, hc, hv])
      (by simp only [Cursor.rest_advance, List.length_drop]; omega)
      (show (v :: vs).length ≤ fuel by omega)
    refine ⟨t, ?_, ?_, hrest⟩
    · rw [plainPieces_next hw hc hstops (by omega) hindent hhash hlimit, ht]
    · rw [htext]
      simp [pushAll, Gap.text, Scanned.addWord]

end Words

/-- **Reading a key**: a word in front of the colon of a value. -/
theorem readPlain_key {limit indent : Nat} {c : Cursor} {w r : List Nat} {v : Nat}
    (hw : PlainWord w) (hc : c.rest = w ++ 0x3A :: v :: r)
    (hv : isBlank v = true ∨ isBreak v = true) (hmark : c.atDocumentMark = false)
    (hhash : c.sees 0x23 = false) (hlimit : 0 < limit) :
    readPlain limit false indent c =
      .ok { text := w.reverse, gap := {}, cursor := c.advance w.length } := by
  obtain ⟨fuel, rfl⟩ : ∃ k, limit = k + 1 := ⟨limit - 1, by omega⟩
  have hends : EndsPlain (0x3A :: v :: r) := ⟨_, _, rfl, .inr (.inr ⟨rfl, by simpa using hv⟩)⟩
  rw [readPlain, plainPieces_stop hw hends hc hmark hhash (by simp [stops_cons, isBlank, isBreak])]
  simp [Scanned.addWord, pushAll, Gap.text]

/-- **Reading a text without quotes** up to the end of its line. -/
theorem readPlain_line {limit indent col : Nat} {c : Cursor} {vs r : List Nat}
    (h : PlainWords vs) (hc : c.rest = vs ++ 0x0A :: (List.replicate col 0x20 ++ r))
    (hr : Stops r) (hcol : col < indent) (hindent : indent ≤ c.mark.column)
    (hhash : c.sees 0x23 = false) (hlimit : c.rest.length ≤ limit) :
    ∃ t, readPlain limit false indent c = .ok t ∧ t.text.reverse = vs ∧
      t.gap.multiline = true ∧ t.cursor.rest = r ∧ t.cursor.mark.column = col := by
  have hfuel : vs.length ≤ limit := by
    rw [hc, List.length_append] at hlimit
    omega
  obtain ⟨t, ht, htext, hrest⟩ : ∃ t,
      plainPieces limit c.mark false indent limit { cursor := c } = .ok t ∧
      t.text = vs.reverse ++ pushAll [] (Gap.text {}) ∧ t.gap.multiline = true ∧
      t.cursor.rest = r ∧ t.cursor.mark.column = col :=
    plainPieces_words h hc hr hcol hindent hhash hlimit hfuel
  refine ⟨t, ht, ?_, hrest⟩
  rw [htext]
  simp [pushAll, Gap.text]

end ForthFrontend.Yaml
