import ForthFrontend.Proofs.Yaml.Token.Block
import ForthFrontend.Proofs.Yaml.Token.Lexer
import ForthFrontend.Proofs.Yaml.Token.Quoted

/-!
# The tokens of texts

A text is written as a scalar in one of several styles, and a text that is not valid UTF-8 as
letters with a tag. This module says which tokens the lexer makes of it.

Reading gives back what was written with two exceptions, both of literal blocks: a line break at the
beginning is lost, and a tab at the beginning is refused.

## Main definitions

* `Yaml.Scalar.isLiteral`: is a text written as a literal block?
* `Yaml.Scalar.isTabbed`: is it a literal block that begins with a tab?
* `Yaml.Scalar.readText`: what a text is read as.
* `Yaml.Scalar.shapes`: the tokens of a text.

## Main results

* `Yaml.Lexer.At.text`: the tokens of a text that does not begin a literal block with a tab.
* `Yaml.Lexer.At.text_tab`: the lexer fails at a literal block that begins with a tab.
-/

namespace ForthFrontend.Yaml

open Utf8 (IsScalar)

namespace Lexer

/-! ### Scalars without tags -/

/-- The lexer behind a token of a scalar. -/
def scanned (l : Lexer) (key : Option PendingKey) (shape : Token.Shape) (c : Cursor)
    (allowed : Bool) : Lexer :=
  { l with
    key := key
    queue := l.queue ++ [⟨shape, l.mark.line⟩]
    cursor := c
    keyAllowed := allowed }

section Scalars

variable {l : Lexer} {b column column' : Nat} {blocks : List Nat}
  {allowed allowed' allowed'' : Bool} {key : Option PendingKey} {shape : Token.Shape} {c : Cursor} {r r' : List Nat}

/-- A token inside a block. -/
theorem At.scanned (h : l.At (b :: blocks) allowed column r) (hb : b < column)
    (hfetch : l.fetch = .ok (l.approach.scanned key shape c allowed').finishLine)
    (hshape : shape ≠ .blockEntry) (hoptional : ∀ k ∈ key, k.required = false)
    (hrecent : ∀ k ∈ key, l.nextNumber + 1 ≤ k.token + if allowed'' then 2 else 1)
    (hleads : Leads c.mark.column c.rest allowed' allowed'' column' r')
    (hlen : r'.length ≤ r.length) :
    ∃ n, Makes l n ∧ n.shapes = l.shapes ++ [shape] ∧ n.At (b :: blocks) allowed'' column' r' ∧
      n.key = key := by
  have hm := h.facing_approach
  rw [around_of_le (Nat.le_of_lt hb)] at hm
  have hqueue : l.approach.queue = l.queue := by
    rw [h.queue_approach, closing_of_le (Nat.le_of_lt hb)]
    simp
  have hfinish : (l.approach.scanned key shape c allowed').finishLine =
      l.approach.scanned key shape c allowed' := by
    rw [finishLine, if_neg (by simpa [Lexer.scanned] using hshape), Lexer.scanned,
      skipLineComment_leads hleads]
  rw [hfinish] at hfetch
  refine ⟨_, h.makes hfetch rfl (by simp), ?_, ?_, rfl⟩
  · simp [shapes, Lexer.scanned, hqueue]
  · have hlimit := hm.limit
    refine at_of_leads hm.started hm.outerKeys hm.blocks_eq hm.shallow hleads ?_ hoptional ?_
    · simp only [Lexer.scanned]
      omega
    · intro k hk
      have hnumber : (l.approach.scanned key shape c allowed').nextNumber = l.nextNumber + 1 := by
        have htaken : l.approach.taken = l.taken := by rw [h.approach_eq]; rfl
        simp only [nextNumber, Lexer.scanned, hqueue, htaken, List.length_append,
          List.length_singleton]
        omega
      rw [hnumber]
      exact hrecent k hk

theorem At.nextNumber_approach (h : l.At (b :: blocks) allowed column r) (hb : b < column) :
    l.approach.nextNumber = l.nextNumber := by
  have htaken : l.approach.taken = l.taken := by rw [h.approach_eq]; rfl
  rw [nextNumber, nextNumber, htaken, h.queue_approach, closing_of_le (Nat.le_of_lt hb)]
  simp

/-- A key that begins inside a block does not have to be one. -/
theorem At.optional_notedKey (h : l.At (b :: blocks) allowed column r) (hb : b < column) :
    ∀ k ∈ l.approach.notedKey, k.required = false := by
  have hm := h.facing_approach
  unfold notedKey
  split
  · simp only [mark, hm.blocks_eq, hm.column_eq, around_of_le (Nat.le_of_lt hb), Option.mem_def,
      Option.some.injEq, forall_eq', List.head?_cons, beq_eq_false_iff_ne, ne_eq]
    omega
  · exact hm.optional

theorem At.recent_notedKey (h : l.At (b :: blocks) allowed column r) (hb : b < column) :
    ∀ k ∈ l.approach.notedKey, l.nextNumber + 1 ≤ k.token + if allowed then 1 else 2 := by
  have hm := h.facing_approach
  rw [notedKey, hm.allowed_eq]
  cases allowed with
  | true =>
    simp only [↓reduceIte, Option.mem_def, Option.some.injEq, forall_eq', h.nextNumber_approach hb]
    omega
  | false =>
    have hkey : l.approach.key = l.key := by rw [h.approach_eq]; rfl
    intro k hk
    have := h.recent k (hkey ▸ hk)
    simp only [Bool.false_eq_true, ↓reduceIte] at this ⊢
    omega

theorem BeginsPlain.append {v : Nat} {ws : List Nat} (h : BeginsPlain v ws) (r : List Nat) :
    BeginsPlain v (ws ++ r) where
  not_blank := h.not_blank
  not_break := h.not_break
  not_leading := h.not_leading
  inside hv := by
    obtain ⟨u, hu, hblank⟩ := h.inside hv
    exact ⟨u, by simp [List.head?_append, hu], hblank⟩

/-- A text without quotes. -/
theorem At.plain {col v : Nat} {ws : List Nat}
    (h : l.At (b :: blocks) allowed column (v :: ws ++ 0x0A :: (List.replicate col 0x20 ++ r)))
    (hb : b < column) (hwords : PlainWords (v :: ws)) (hbegins : BeginsPlain v ws)
    (hcol : col ≤ b) (hr : Sequel r) :
    ∃ n, Makes l n ∧ n.shapes = l.shapes ++ [.scalar (encodeAll (v :: ws)) .plain] ∧
      n.At (b :: blocks) true col r := by
  have hm := h.facing_approach
  rw [around_of_le (Nat.le_of_lt hb)] at hm
  have hrest : l.approach.cursor.rest = v :: (ws ++ 0x0A :: (List.replicate col 0x20 ++ r)) :=
    hm.rest_eq
  have hhash : l.approach.cursor.sees 0x23 = false := by
    refine sees_eq_false ?_
    rw [hrest]
    rintro u hu rfl
    cases hu
    exact hbegins.not_leading (by decide)
  have hlimit := hm.limit
  have hindent : l.approach.plainIndent = b + 1 := by
    rw [plainIndent, hm.blocks_eq]
    rfl
  obtain ⟨t, hread, htext, hmultiline, hrest', hcol'⟩ : ∃ t,
      readPlain l.approach.limit l.approach.inFlow l.approach.plainIndent l.approach.cursor =
        .ok t ∧
      t.text.reverse = v :: ws ∧ t.gap.multiline = true ∧ t.cursor.rest = r ∧
      t.cursor.mark.column = col := by
    rw [hm.inFlow_eq, hindent]
    exact readPlain_line hwords hm.rest_eq hr.stops (by omega) (by rw [hm.column_eq]; omega) hhash
      (by rw [hm.rest_eq]; omega)
  have hfetch : l.fetch = .ok (l.approach.scanned l.approach.notedKey
      (.scalar (encodeAll (v :: ws)) .plain) t.cursor true).finishLine := by
    rw [h.fetch_eq, fetchNext_eq hrest (.inl (by rw [hm.column_eq]; omega)),
      (hbegins.append _).fetchAt_eq hm.inFlow_eq hrest, fetchPlain_eq hm.noteKey_eq hread, ← htext,
      hmultiline]
    rfl
  obtain ⟨n, hmakes, hshapes, hat, -⟩ : ∃ n, Makes l n ∧
      n.shapes = l.shapes ++ [.scalar (encodeAll (v :: ws)) .plain] ∧
      n.At (b :: blocks) true col r ∧ n.key = l.approach.notedKey := by
    refine h.scanned hb hfetch (by simp) (h.optional_notedKey hb) (fun k hk => ?_) ?_ ?_
    · exact Nat.le_trans (h.recent_notedKey hb k hk) (by split <;> simp)
    · rw [hrest', ← hcol']
      exact .blanks 0 true hr
    · simp only [List.length_append, List.length_cons]
      omega
  exact ⟨n, hmakes, hshapes, hat⟩

/-- A text in quotes. -/
theorem At.quoted {col : Nat} (single : Bool) {tail vs : List Nat}
    (h : l.At (b :: blocks) allowed column ((if single then 0x27 else 0x22) :: tail))
    (hb : b < column) (hread : ∃ t, readQuoted l.approach.limit single l.approach.cursor = .ok t ∧
      t.text.reverse = vs ∧ t.cursor.rest = 0x0A :: (List.replicate col 0x20 ++ r))
    (hlen : r.length ≤ tail.length) (hr : Sequel r) :
    ∃ n, Makes l n ∧
      n.shapes = l.shapes ++ [.scalar (encodeAll vs) (if single then .single else .double)] ∧
      n.At (b :: blocks) true col r := by
  have hm := h.facing_approach
  obtain ⟨t, hread, rfl, hrest⟩ := hread
  have hat : l.approach.fetchAt (if single then 0x27 else 0x22) =
      l.approach.fetchQuoted single := by
    cases single <;> simp [fetchAt]
  have hfetch : l.fetch = .ok (l.approach.scanned l.approach.notedKey
      (.scalar (encodeAll t.text.reverse) (if single then .single else .double)) t.cursor
      false).finishLine := by
    rw [h.fetch_eq, fetchNext_eq hm.rest_eq (.inl (by rw [hm.column_eq]; omega)), hat, fetchQuoted,
      hm.noteKey_eq]
    simp only [bind, Except.bind, hread]
    rfl
  obtain ⟨n, hmakes, hshapes, hat, -⟩ : ∃ n, Makes l n ∧
      n.shapes = l.shapes ++
        [.scalar (encodeAll t.text.reverse) (if single then .single else .double)] ∧
      n.At (b :: blocks) true col r ∧ n.key = l.approach.notedKey := by
    refine h.scanned hb hfetch (by simp) (h.optional_notedKey hb) (fun k hk => ?_) ?_ ?_
    · exact Nat.le_trans (h.recent_notedKey hb k hk) (by split <;> simp)
    · rw [hrest]
      exact .line col false hr
    · rw [List.length_cons]
      omega
  exact ⟨n, hmakes, hshapes, hat⟩

section Literal

open Scalar (literalChars readBack)

variable {col : Nat} {vs : List Nat}
  (h : l.At (b :: blocks) allowed column
    (endChars (literalChars ⟨false, b + 2, 2⟩ vs) ++ (List.replicate col 0x20 ++ r)))
  (hb : b < column) (hne : vs ≠ []) (hkept : ∀ v ∈ vs, isBreak v = true → IsKept v)

include h hb hne

theorem At.fetch_literal : l.fetch = (l.approach.fetchBlockScalar false).map finishLine := by
  have hm := h.facing_approach
  obtain ⟨tail, htail⟩ : ∃ tail, endChars (literalChars ⟨false, b + 2, 2⟩ vs) = 0x7C :: tail :=
    ⟨_, Scalar.endChars_literalChars (b + 2) hne⟩
  have hrest := hm.rest_eq
  rw [htail, List.cons_append] at hrest
  have hat : l.approach.fetchAt 0x7C = l.approach.fetchBlockScalar false := by
    simp [fetchAt, hm.inFlow_eq]
  rw [h.fetch_eq, fetchNext_eq hrest (.inl (by rw [hm.column_eq]; omega)), hat]

include hkept

/-- A text as a literal block. -/
theorem At.literal (htab : vs.head? ≠ some 0x09) (hcol : col ≤ b) (hr : Sequel r) :
    ∃ n, Makes l n ∧ n.shapes = l.shapes ++ [.scalar (encodeAll (readBack vs)) .literal] ∧
      n.At (b :: blocks) true col r := by
  have hm := h.facing_approach
  rw [around_of_le (Nat.le_of_lt hb)] at hm
  have hlimit := hm.limit
  obtain ⟨t, hread, htext, hrest, hcolumn⟩ : ∃ t,
      readBlock l.approach.limit false l.approach.blocks.head? l.approach.cursor = .ok t ∧
      t.text.reverse = readBack vs ∧ t.cursor.rest = r ∧ t.cursor.mark.column = col := by
    rw [hm.blocks_eq]
    exact readBlock_literal hne hkept htab hm.rest_eq hcol hr.stops (by rw [hm.rest_eq]; omega)
  have hfetch : l.fetch = .ok (l.approach.scanned none
      (.scalar (encodeAll (readBack vs)) .literal) t.cursor true).finishLine := by
    rw [h.fetch_literal hb hne, fetchBlockScalar, dropKey_eq hm.optional]
    simp only [bind, Except.bind, hread, ← htext]
    rfl
  obtain ⟨n, hmakes, hshapes, hat, -⟩ : ∃ n, Makes l n ∧
      n.shapes = l.shapes ++ [.scalar (encodeAll (readBack vs)) .literal] ∧
      n.At (b :: blocks) true col r ∧ n.key = none := by
    refine h.scanned hb hfetch (by simp) (by simp) (by simp) ?_ ?_
    · rw [hrest, ← hcolumn]
      exact .blanks 0 true hr
    · simp only [List.length_append]
      omega
  exact ⟨n, hmakes, hshapes, hat⟩

/-- A tab at the beginning of a literal block is refused. -/
theorem At.literal_tab (htab : vs.head? = some 0x09) : ∃ e, l.fetch = .error e := by
  have hm := h.facing_approach
  rw [around_of_le (Nat.le_of_lt hb)] at hm
  have hlimit := hm.limit
  obtain ⟨e, he⟩ : ∃ e, readBlock l.approach.limit false l.approach.blocks.head?
      l.approach.cursor = .error e := by
    rw [hm.blocks_eq]
    exact readBlock_tab hne hkept hm.rest_eq (by rw [lookahead] at hlimit; omega) htab
  refine ⟨e, ?_⟩
  rw [h.fetch_literal hb hne, fetchBlockScalar, dropKey_eq hm.optional]
  simp only [bind, Except.bind, he]
  rfl

end Literal

end Scalars

end Lexer

/-! ### Tags -/

section Tag

variable {limit : Nat} {began : Mark} {c : Cursor} {w r : List Nat}

/-- The letters of a tag are read up to a blank. -/
theorem uriCharactersOf_letters (hw : ∀ v ∈ w, 0x61 ≤ v ∧ v ≤ 0x7A) (hc : c.rest = w ++ 0x20 :: r)
    {fuel : Nat} (hfuel : w.length < fuel) (text : Bytes) :
    uriCharactersOf began fuel text c = .ok (text ++ encodeAll w, c.advance w.length) := by
  induction w generalizing fuel text c with
  | nil =>
    obtain ⟨fuel, rfl⟩ : ∃ k, fuel = k + 1 := ⟨fuel - 1, by omega⟩
    have hhead : c.head? = some 0x20 := by
      rw [Cursor.head?, hc]
      rfl
    have huri : uriCharacters.contains 0x20 = false := by decide
    rw [uriCharactersOf]
    simp only [hhead, huri]
    simp [isNameCharacter, Cursor.advance_zero]
  | cons v w ih =>
    obtain ⟨fuel, rfl⟩ : ∃ k, fuel = k + 1 := ⟨fuel - 1, by omega⟩
    have hv := hw v (by simp)
    have hhead : c.head? = some v := by
      rw [Cursor.head?, hc]
      rfl
    have hname : isNameCharacter v = true := by simp [isNameCharacter, hv]
    have hescape : (v == 0x25) = false := by simp; omega
    rw [List.length_cons] at hfuel
    rw [uriCharactersOf]
    simp only [hhead, hname, hescape, Bool.true_or, Bool.false_eq_true, ↓reduceIte]
    rw [ih (fun u hu => hw u (by simp [hu])) (by simp [Cursor.skip, hc]) (by omega), Cursor.skip,
      Cursor.advance_advance]
    simp [Nat.add_comm]

/-- The letters of the tag of bytes. -/
def binaryName : List Nat := [0x62, 0x69, 0x6E, 0x61, 0x72, 0x79]

theorem ascii_binary : ascii Tag.binary.name = 0x21 :: 0x21 :: binaryName := by decide

/-- **Reading the tag of bytes.** -/
theorem readTag_binary (hc : c.rest = 0x21 :: 0x21 :: (binaryName ++ 0x20 :: r))
    (hlimit : c.rest.length ≤ limit) :
    readTag limit c = .ok (.tag [0x21, 0x21] (encodeAll binaryName), c.advance 8) := by
  have hletters : ∀ v ∈ binaryName, 0x61 ≤ v ∧ v ≤ 0x7A := by decide
  have hshort : (c.rest.tail.head? == some 0x3C) = false := by
    rw [hc]
    rfl
  have hhandle : readHandle false c.mark c = .ok ([0x21, 0x21], c.advance 2) := by
    have hmark : c.sees 0x21 = true := by simp [Cursor.sees, Cursor.head?, hc]
    have hname : takeWhile isNameCharacter c.skip = ([], c.skip) := by
      simp [takeWhile, Cursor.skipWhile, Cursor.skip, hc, isNameCharacter, Cursor.advance_zero]
    have hmark' : c.skip.sees 0x21 = true := by
      simp [Cursor.sees, Cursor.head?, Cursor.skip, hc]
    simp only [readHandle, hmark, hname, hmark', Bool.not_true, Bool.false_eq_true, ↓reduceIte]
    simp [Cursor.skip, Cursor.advance_advance]
  have huri : readUri limit c.mark [] (c.advance 2) =
      .ok (encodeAll binaryName, c.advance 8) := by
    have hrest : (c.advance 2).rest = binaryName ++ 0x20 :: r := by simp [hc]
    have hfuel : binaryName.length < limit := by
      rw [hc] at hlimit
      simp only [List.length_cons, List.length_append] at hlimit
      omega
    rw [readUri, List.drop_nil, uriCharactersOf_letters hletters hrest hfuel]
    simp [Cursor.advance_advance, binaryName]
  have hends : (c.advance 8).wordEndsAt 0 = true := by
    have hrest : (c.advance 8).rest = 0x20 :: r := by simp [hc, binaryName]
    rw [Cursor.wordEndsAt, hrest]
    rfl
  have hfull : isFullHandle [0x21, 0x21] = true := by decide
  simp only [readTag, tagParts, hshort, hhandle, hfull, huri, bind, Except.bind, pure, Except.pure,
    hends, Bool.false_eq_true, ↓reduceIte]

end Tag

/-! ### The styles of a text -/

namespace Scalar

theorem isKept_of_not_isSpecial {v : Nat} (h : isSpecial v = false) (hv : isBreak v = true) :
    IsKept v := by
  have hprint : isPrintable v = true := by
    rcases Bool.and_eq_false_iff.1 h with h | h
    · have : v = 0x09 := by simpa using h
      subst this
      cases hv
    · simpa using h
  rw [isPrintable_iff] at hprint
  simp only [isBreak, Bool.or_eq_true, beq_iff_eq] at hv
  unfold IsKept
  omega

theorem isKept_of_literalAllowed {vs : List Nat} (h : literalAllowed vs = true) :
    ∀ v ∈ vs, isBreak v = true → IsKept v := by
  simp only [literalAllowed, Bool.not_eq_true', Bool.or_eq_false_iff] at h
  intro v hv
  exact isKept_of_not_isSpecial (Bool.eq_false_iff.2 (List.any_eq_false.1 h.2 v hv))

theorem beginsPlain_of_plainAllowed {v : Nat} {ws : List Nat}
    (h : plainAllowed false (v :: ws) = true) : Lexer.BeginsPlain v ws := by
  have hplain := isPlain_of_plainAllowed h
  simp only [plainAllowed, Bool.not_eq_true', Bool.or_eq_false_iff] at h
  obtain ⟨⟨-, hstart⟩, -⟩ := h
  simp only [badStart, Bool.false_or, Bool.or_eq_false_iff] at hstart
  obtain ⟨⟨hleading, hmark⟩, hdash⟩ := hstart
  obtain ⟨hbreak, htab⟩ := hplain.solid v (by simp)
  have hspace : v ≠ 0x20 := by simpa using hplain.head
  refine ⟨by simp [isBlank, hspace, htab], hbreak, by simpa using hleading, fun hv => ?_⟩
  have hends : endsWord ws.head? = false := by
    rcases hv with rfl | rfl | rfl
    · simpa using hdash
    · simpa using hmark
    · simpa using hmark
  cases ws with
  | nil => cases hends
  | cons u ws => exact ⟨u, rfl, hends, (hplain.solid u (by simp)).1⟩

end Scalar

namespace Lexer

open Scalar (charsIn style readBack)

section Styled

variable {l : Lexer} {b column col : Nat} {blocks : List Nat} {allowed loose : Bool} {s : Bytes}
  {r : List Nat}

theorem endChars_quote (vs : List Nat) {v : Nat} (hv : isBreak v = false) :
    endChars (vs ++ [v]) = vs ++ [v, 0x0A] := by
  simp [endChars, hv]

/-- **A text in the style that it is written in.** -/
theorem At.styled (h : l.At (b :: blocks) allowed column
      (endChars (charsIn ⟨false, b + 2, 2⟩ (Utf8.scalars s) (style false loose s)) ++
        (List.replicate col 0x20 ++ r)))
    (hscalars : ∀ v ∈ Utf8.scalars s, IsScalar v)
    (hempty : style false loose s = .plain → Utf8.scalars s ≠ [])
    (htab : style false loose s = .literal → (Utf8.scalars s).head? ≠ some 0x09)
    (hb : b < column) (hcol : col ≤ b) (hr : Sequel r) :
    ∃ n, Makes l n ∧ n.shapes = l.shapes ++ [.scalar (encodeAll (if style false loose s = .literal
        then readBack (Utf8.scalars s) else Utf8.scalars s)) (style false loose s)] ∧
      n.At (b :: blocks) true col r := by
  rcases Scalar.style_cases false loose s with
    ⟨hst, hlf, -, hallowed⟩ | ⟨hst, -, -, hallowed⟩ | ⟨hst, hlf, hallowed⟩ | hst
  · rw [hst] at h htab ⊢
    have hne : Utf8.scalars s ≠ [] := List.ne_nil_of_mem hlf
    exact h.literal hb hne (Scalar.isKept_of_literalAllowed hallowed) (htab rfl) hcol hr
  · rw [hst] at h hempty ⊢
    have hwords := Scalar.plainWords hallowed (hempty rfl)
    obtain ⟨v, ws, hvs⟩ := List.exists_cons_of_ne_nil (hempty rfl)
    rw [hvs] at hwords hallowed h ⊢
    have hend : endChars (v :: ws) = v :: ws ++ [0x0A] := by
      rw [endChars, List.getLast?_eq_some_getLast (List.cons_ne_nil v ws)]
      have hlast := (Scalar.isPlain_of_plainAllowed hallowed).solid _
        (List.getLast_mem (List.cons_ne_nil v ws))
      simp [hlast.1]
    rw [charsIn, hend, List.append_assoc, List.singleton_append] at h
    exact h.plain hb hwords (Scalar.beginsPlain_of_plainAllowed hallowed) hcol hr
  · rw [hst] at h ⊢
    rw [charsIn, endChars_quote _ rfl, List.append_assoc, List.cons_append] at h
    have hm := h.facing_approach
    have hlimit := hm.limit
    refine h.quoted true hb (readQuoted_single (isSingle_of_singleAllowed hallowed hlf)
      (Nat.succ_pos _) (by simp) hm.rest_eq ?_) (by simp; omega) hr
    rw [hm.rest_eq]
    omega
  · have hchars : charsIn ⟨false, b + 2, 2⟩ (Utf8.scalars s) .double =
        0x22 :: (Utf8.scalars s).flatMap Scalar.doubleChars ++ [0x22] := rfl
    rw [hst] at h ⊢
    rw [hchars, endChars_quote _ rfl, List.append_assoc, List.cons_append] at h
    have hm := h.facing_approach
    have hlimit := hm.limit
    refine h.quoted false hb (readQuoted_double hscalars hm.rest_eq ?_) (by simp; omega) hr
    rw [hm.rest_eq]
    omega

end Styled

/-- The tag of bytes. -/
theorem At.tag {l : Lexer} {b column : Nat} {blocks : List Nat} {allowed : Bool} {r : List Nat}
    (h : l.At (b :: blocks) allowed column (0x21 :: 0x21 :: (binaryName ++ 0x20 :: r)))
    (hb : b < column) (hkey : allowed = true ∨ l.key = none) (hr : Sequel r) :
    ∃ n, Makes l n ∧ n.shapes = l.shapes ++ [.tag [0x21, 0x21] (encodeAll binaryName)] ∧
      n.At (b :: blocks) false (column + 9) r := by
  have hm := h.facing_approach
  have hlimit := hm.limit
  have hread : readTag l.approach.limit l.approach.cursor =
      .ok (.tag [0x21, 0x21] (encodeAll binaryName), l.approach.cursor.advance 8) :=
    readTag_binary hm.rest_eq (by rw [hm.rest_eq]; omega)
  have hat : l.approach.fetchAt 0x21 = l.approach.fetchTag := by simp [fetchAt]
  have hfetch : l.fetch = .ok (l.approach.scanned l.approach.notedKey
      (.tag [0x21, 0x21] (encodeAll binaryName)) (l.approach.cursor.advance 8)
      false).finishLine := by
    rw [h.fetch_eq, fetchNext_eq hm.rest_eq (.inl (by rw [hm.column_eq]; omega)), hat, fetchTag,
      hm.noteKey_eq]
    simp only [bind, Except.bind, hread]
    rfl
  have hrest : (l.approach.cursor.advance 8).rest = List.replicate 1 0x20 ++ r := by
    simp [hm.rest_eq, binaryName]
  have hcolumn : (l.approach.cursor.advance 8).mark.column = column + 8 := by
    simp [hm.column_eq]
  obtain ⟨n, hmakes, hshapes, hn, -⟩ : ∃ n, Makes l n ∧
      n.shapes = l.shapes ++ [.tag [0x21, 0x21] (encodeAll binaryName)] ∧
      n.At (b :: blocks) false (column + 8 + 1) r ∧ n.key = l.approach.notedKey := by
    refine h.scanned hb hfetch (by simp) (h.optional_notedKey hb) (fun k hk => ?_) ?_ ?_
    · cases allowed with
      | true => exact h.recent_notedKey hb k hk
      | false =>
        have hnone : l.approach.key = none := by
          rw [h.approach_eq]
          exact hkey.resolve_left (by simp)
        simp [notedKey, hm.allowed_eq, hnone] at hk
    · rw [hrest, hcolumn]
      exact .blanks 1 false hr
    · simp only [List.length_cons, List.length_append]
      omega
  exact ⟨n, hmakes, hshapes, hn⟩

end Lexer

namespace Scalar

/-- Is the text written as a literal block? -/
def isLiteral (s : Bytes) : Bool :=
  Utf8.isValid s && style false (!needsQuotes s) s == .literal

/-- Is the text written as a literal block that begins with a tab? -/
def isTabbed (s : Bytes) : Bool :=
  isLiteral s && (Utf8.scalars s).head? == some 0x09

/-- What a text is read as: a line break at the beginning of a literal block is lost. -/
def readText (s : Bytes) : Bytes :=
  if isLiteral s then encodeAll (readBack (Utf8.scalars s)) else s

/-- Is the text written as a literal block that begins with a line break? -/
def losesBreak (s : Bytes) : Bool :=
  isLiteral s && (Utf8.scalars s).head?.any isBreak

theorem encode_ne_nil (v : Nat) : Utf8.encode v ≠ [] := by
  unfold Utf8.encode
  split
  · simp
  · split
    · simp
    · split <;> simp

theorem encodeAll_readBack_eq_iff (vs : List Nat) :
    encodeAll (readBack vs) = encodeAll vs ↔ vs.head?.any isBreak = false := by
  unfold readBack
  cases vs with
  | nil => simp
  | cons v vs =>
    cases hv : isBreak v with
    | true => simp [hv, encode_ne_nil]
    | false => simp [hv]

/-- A text is read as it was written unless it loses a line break. -/
theorem readText_eq_self_iff (s : Bytes) : readText s = s ↔ losesBreak s = false := by
  unfold readText losesBreak
  cases hliteral : isLiteral s with
  | false => simp
  | true =>
    have hvalid : Utf8.isValid s = true := by
      unfold isLiteral at hliteral
      rw [Bool.and_eq_true] at hliteral
      exact hliteral.1
    have hs : encodeAll (Utf8.scalars s) = s := Utf8.encode_scalars hvalid
    have hiff := encodeAll_readBack_eq_iff (Utf8.scalars s)
    rw [hs] at hiff
    rw [if_pos rfl, Bool.true_and]
    exact hiff

/-- The tokens of a text. -/
def shapes (s : Bytes) : List Token.Shape :=
  if Utf8.isValid s then [.scalar (readText s) (style false (!needsQuotes s) s)]
  else [.tag [0x21, 0x21] (encodeAll binaryName),
    .scalar (binaryLetters s) (style false true (binaryLetters s))]

theorem charsIn_ne_nil {place : Place} {vs : List Nat} {st : Style} (h : st = .plain → vs ≠ []) :
    charsIn place vs st ≠ [] := by
  cases st with
  | plain => exact h rfl
  | _ => simp [charsIn, literalChars, headerChars]

theorem sequel_charsIn {loose : Bool} {s : Bytes} (place : Place)
    (hempty : style false loose s = .plain → Utf8.scalars s ≠ []) (r : List Nat) :
    Sequel (charsIn place (Utf8.scalars s) (style false loose s) ++ r) := by
  rcases style_cases false loose s with
    ⟨hst, -⟩ | ⟨hst, -, -, hallowed⟩ | ⟨hst, -⟩ | hst
  · rw [hst]
    exact sequel_cons.2 (by decide)
  · obtain ⟨v, ws, hvs⟩ := List.exists_cons_of_ne_nil (hempty hst)
    rw [hvs] at hallowed
    have hbegins := beginsPlain_of_plainAllowed hallowed
    rw [hst, hvs]
    refine sequel_cons.2 ⟨hbegins.not_blank, hbegins.not_break, ?_⟩
    rintro rfl
    exact hbegins.not_leading (by decide)
  · rw [hst]
    exact sequel_cons.2 (by decide)
  · rw [hst]
    exact sequel_cons.2 (by decide)

theorem scalars_ne_nil_of_plain {inFlow : Bool} {s : Bytes} (hvalid : Utf8.isValid s = true)
    (h : style inFlow (!needsQuotes s) s = .plain) : Utf8.scalars s ≠ [] := by
  intro hnil
  have hs : s = [] := by
    rw [← Utf8.encode_scalars hvalid, hnil]
    rfl
  subst hs
  have hempty : ∀ inFlow, style inFlow (!needsQuotes []) [] ≠ .plain := by decide +kernel
  exact hempty inFlow h

theorem binaryLetters_ne_nil {s : Bytes} (hvalid : Utf8.isValid s = false) :
    binaryLetters s ≠ [] := by
  intro hnil
  have hdecode := decode?_binaryLetters s
  rw [hnil] at hdecode
  have hs : s = [] := (Option.some.inj hdecode).symm
  subst hs
  have : Utf8.isValid [] = true := by decide +kernel
  rw [this] at hvalid
  cases hvalid

theorem head?_base64Lines (letters : Bytes) : (base64Lines letters).head? = letters.head? := by
  unfold base64Lines
  split
  · rfl
  · next hlong =>
    obtain ⟨b, rest, rfl⟩ := List.exists_cons_of_ne_nil (List.ne_nil_of_length_pos (l := letters)
      (by rw [base64Width] at hlong; omega))
    rw [pieces, dif_neg (by simp [base64Width])]
    simp [Bytes.unlines, base64Width]

/-- The letters that stand for bytes are read as they are. -/
theorem readBack_binaryLetters (s : Bytes) :
    (ascii (binaryLetters s)).head? ≠ some 0x09 ∧
      readBack (ascii (binaryLetters s)) = ascii (binaryLetters s) := by
  have hhead := head?_base64Lines (Base64.encode s)
  unfold binaryLetters
  cases hbase : base64Lines (Base64.encode s) with
  | nil => simp [readBack]
  | cons b rest =>
    rw [hbase] at hhead
    have hb := Base64.toNat_of_mem_encode (List.mem_of_head? hhead.symm)
    have hbreak : isBreak b.toNat = false := by
      simp only [isBreak, Bool.or_eq_false_iff, beq_eq_false_iff_ne]
      omega
    have htab : b.toNat ≠ 0x09 := by omega
    rw [ascii_cons, readBack_cons, if_neg (by simp [hbreak])]
    exact ⟨by simpa using htab, rfl⟩

theorem scalars_binaryLetters (s : Bytes) :
    Utf8.scalars (binaryLetters s) = ascii (binaryLetters s) :=
  scalars_of_ascii fun _ hc => binaryLetters_ascii hc

theorem scalars_binaryLetters_ne_nil {s : Bytes} (hvalid : Utf8.isValid s = false) :
    Utf8.scalars (binaryLetters s) ≠ [] := by
  rw [scalars_binaryLetters]
  simpa [ascii] using binaryLetters_ne_nil hvalid

/-- The characters of a text that is not valid UTF-8: a tag and letters. -/
theorem endChars_chars_of_not_isValid {s : Bytes} (hvalid : Utf8.isValid s = false) (indent : Nat) :
    endChars (chars ⟨false, indent, 2⟩ s) = 0x21 :: 0x21 :: (binaryName ++ 0x20 ::
      endChars (charsIn ⟨false, indent, 2⟩ (Utf8.scalars (binaryLetters s))
        (style false true (binaryLetters s)))) := by
  have hne : charsIn ⟨false, indent, 2⟩ (Utf8.scalars (binaryLetters s))
      (style false true (binaryLetters s)) ≠ [] :=
    charsIn_ne_nil fun _ => scalars_binaryLetters_ne_nil hvalid
  have happend := endChars_append hne (0x21 :: 0x21 :: binaryName ++ [0x20])
  rw [chars, if_neg (by simp [hvalid]), ← scalars_binaryLetters, ascii_binary]
  simpa using happend

theorem chars_ne_nil (s : Bytes) (indent : Nat) : chars ⟨false, indent, 2⟩ s ≠ [] := by
  cases hvalid : Utf8.isValid s with
  | true =>
    rw [chars, if_pos hvalid]
    exact charsIn_ne_nil (scalars_ne_nil_of_plain hvalid)
  | false =>
    rw [chars, if_neg (by simp [hvalid])]
    simp

theorem sequel_endChars {vs : List Nat} (h : ∀ r, Sequel (vs ++ r)) (r : List Nat) :
    Sequel (endChars vs ++ r) := by
  unfold endChars
  split
  · exact h r
  · rw [List.append_assoc]
    exact h ([0x0A] ++ r)

/-- A text begins neither with white space nor like a comment. -/
theorem sequel_chars (s : Bytes) (indent : Nat) (r : List Nat) :
    Sequel (endChars (chars ⟨false, indent, 2⟩ s) ++ r) := by
  cases hvalid : Utf8.isValid s with
  | true =>
    rw [chars, if_pos hvalid]
    exact sequel_endChars (sequel_charsIn _ (scalars_ne_nil_of_plain hvalid)) r
  | false =>
    rw [endChars_chars_of_not_isValid hvalid]
    exact sequel_cons.2 (by decide)

end Scalar

namespace Lexer

open Scalar (chars charsIn style isTabbed isLiteral readText binaryLetters)

section Text

variable {l : Lexer} {b column col : Nat} {blocks : List Nat} {allowed : Bool} {s : Bytes}
  {r : List Nat}
  (h : l.At (b :: blocks) allowed column
    (endChars (chars ⟨false, b + 2, 2⟩ s) ++ (List.replicate col 0x20 ++ r)))
  (hb : b < column)

include h hb

/-- **The tokens of a text.** -/
theorem At.text (hkey : allowed = true ∨ l.key = none) (htab : isTabbed s = false) (hcol : col ≤ b)
    (hr : Sequel r) : ∃ n, Fetches l n ∧ n.shapes = l.shapes ++ Scalar.shapes s ∧
      n.At (b :: blocks) true col r := by
  cases hvalid : Utf8.isValid s with
  | true =>
    rw [chars, if_pos hvalid] at h
    have htab' : style false (!Yaml.needsQuotes s) s = .literal →
        (Utf8.scalars s).head? ≠ some 0x09 := by
      intro hst
      simpa [isTabbed, isLiteral, hvalid, hst] using htab
    obtain ⟨n, hmakes, hshapes, hn⟩ := h.styled
      (fun v hv => Utf8.isScalar_of_mem_scalars hv) (Scalar.scalars_ne_nil_of_plain hvalid)
      htab' hb hcol hr
    refine ⟨n, .step hmakes (.refl n), ?_, hn⟩
    have htext : encodeAll (if style false (!Yaml.needsQuotes s) s = .literal then
        Scalar.readBack (Utf8.scalars s) else Utf8.scalars s) = readText s := by
      simp only [readText, isLiteral, hvalid, Bool.true_and, beq_iff_eq]
      split
      · rfl
      · exact Utf8.encode_scalars hvalid
    rw [hshapes, htext, Scalar.shapes, if_pos hvalid]
  | false =>
    have hascii : ∀ c ∈ binaryLetters s, c.toNat < 0x80 := fun c hc => Scalar.binaryLetters_ascii hc
    have hscalars := Scalar.scalars_binaryLetters s
    have hne := Scalar.scalars_binaryLetters_ne_nil hvalid
    rw [Scalar.endChars_chars_of_not_isValid hvalid] at h
    obtain ⟨htab', hback⟩ := Scalar.readBack_binaryLetters s
    rw [← hscalars] at htab' hback
    obtain ⟨m, hmakes, hshapes, hm⟩ : ∃ m, Makes l m ∧
        m.shapes = l.shapes ++ [.tag [0x21, 0x21] (encodeAll binaryName)] ∧
        m.At (b :: blocks) false (column + 9)
          (endChars (charsIn ⟨false, b + 2, 2⟩ (Utf8.scalars (binaryLetters s))
            (style false true (binaryLetters s))) ++ (List.replicate col 0x20 ++ r)) :=
      At.tag (by simpa using h) hb hkey
        (Scalar.sequel_endChars (Scalar.sequel_charsIn _ fun _ => hne) _)
    obtain ⟨n, hmakes', hshapes', hn⟩ := hm.styled
      (fun v hv => by
        rw [hscalars] at hv
        obtain ⟨c, hc, rfl⟩ := List.mem_map.1 hv
        have := hascii c hc
        unfold IsScalar
        omega)
      (fun _ => hne) (fun _ => htab') (by omega) hcol hr
    refine ⟨n, .step hmakes (.step hmakes' (.refl n)), ?_, hn⟩
    have htext : encodeAll (if style false true (binaryLetters s) = .literal then
        Scalar.readBack (Utf8.scalars (binaryLetters s)) else Utf8.scalars (binaryLetters s)) =
        binaryLetters s := by
      rw [hback, ite_self, hscalars, encodeAll_ascii hascii]
    rw [hshapes', htext, hshapes, Scalar.shapes, if_neg (by simp [hvalid])]
    simp

/-- **A literal block that begins with a tab** is refused. -/
theorem At.text_tab (htab : isTabbed s = true) : ∃ e, l.fetch = .error e := by
  simp only [isTabbed, isLiteral, Bool.and_eq_true, beq_iff_eq] at htab
  obtain ⟨⟨hvalid, hst⟩, htab⟩ := htab
  rw [chars, if_pos hvalid, hst] at h
  have hne : Utf8.scalars s ≠ [] := by
    intro hnil
    simp [hnil] at htab
  rcases Scalar.style_cases false (!Yaml.needsQuotes s) s with
    ⟨-, -, -, hallowed⟩ | ⟨hst', -⟩ | ⟨hst', -⟩ | hst'
  · exact h.literal_tab hb hne (Scalar.isKept_of_literalAllowed hallowed) htab
  all_goals
    rw [hst] at hst'
    cases hst'

end Text

end Lexer

end ForthFrontend.Yaml
