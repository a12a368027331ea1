import ForthFrontend.Proofs.Yaml.Scalar
import ForthFrontend.Proofs.Yaml.Token.Cursor
import ForthFrontend.Proofs.Yaml.Token.Plain
import Mathlib.Algebra.Group.Nat.Defs

/-!
# Reading quoted scalars

A quoted scalar is read in turns of a piece without white space and the gap after it. In double
quotes every value but the space belongs to a piece, because line breaks and tabs are escaped. In
single quotes line and paragraph separators stand for themselves, so a gap is either a run of spaces
or a run of separators and the indentation of the line after them.

## Main results

* `Yaml.readEscape_escape`: reading an escape gives the escaped value.
* `Yaml.readQuoted_double`: reading a text in double quotes.
* `Yaml.readQuoted_single`: reading a text in single quotes.
-/

namespace ForthFrontend.Yaml

open Utf8 (IsScalar)
open Scalar (doubleChars singleChars indentChars)

/-! ### Escapes -/

/-- The value of hexadecimal digits behind a value. -/
theorem foldl_upperHex (width n a : Nat) :
    (ascii (Scalar.upperHex width n)).foldl (fun n v => do return (← n) * 16 + (← hexValue? v))
      (some a) = some (a * 16 ^ width + n % 16 ^ width) := by
  have hdigit : ∀ d < 16,
      hexValue? (if 0x61 ≤ Decimal.digit d then Decimal.digit d - 32
        else Decimal.digit d).toNat = some d := by
    decide
  induction width generalizing n with
  | zero => simp [Scalar.upperHex, Decimal.hex, ascii, Nat.mod_one]
  | succ width ih =>
    have hsplit : ascii (Scalar.upperHex (width + 1) n) =
        ascii (Scalar.upperHex width (n / 16)) ++ [(if 0x61 ≤ Decimal.digit (n % 16) then
          Decimal.digit (n % 16) - 32 else Decimal.digit (n % 16)).toNat] := by
      simp [Scalar.upperHex, Decimal.hex, ascii]
    rw [hsplit, List.foldl_append, ih]
    simp only [List.foldl_cons, List.foldl_nil, hdigit _ (Nat.mod_lt n (by omega)),
      Option.bind_eq_bind, Option.bind_some, Option.pure_def]
    rw [Nat.pow_succ', Nat.mod_mul, Nat.add_mul]
    congr 1
    have : a * 16 ^ width * 16 = a * (16 * 16 ^ width) := by
      rw [Nat.mul_assoc, Nat.mul_comm (16 ^ width)]
    omega

theorem length_upperHex (width n : Nat) : (Scalar.upperHex width n).length = width := by
  have hhex : ∀ width n, (Decimal.hex width n).length = width := by
    intro width
    induction width with
    | zero => intro n; rfl
    | succ width ih => intro n; simp [Decimal.hex, ih]
  rw [Scalar.upperHex, List.length_map, hhex]

theorem hexNumber?_upperHex {width n : Nat} (h : n < 16 ^ width) (r : List Nat) :
    hexNumber? width (ascii (Scalar.upperHex width n) ++ r) = some n := by
  have hlen : (ascii (Scalar.upperHex width n)).length = width := by
    rw [length_ascii, length_upperHex]
  have htake : (ascii (Scalar.upperHex width n) ++ r).take width =
      ascii (Scalar.upperHex width n) := by
    rw [List.take_append_of_le_length (by omega), List.take_of_length_le (by omega)]
  rw [hexNumber?, if_neg (by simp [hlen]), htake, foldl_upperHex, Nat.mod_eq_of_lt h]
  simp

section Escape

variable {began : Mark} {c : Cursor} {v : Nat} {r : List Nat}

theorem readEscape_hex {letter : UInt8} {width : Nat} (hv : IsScalar v)
    (hletter : letterEscapes.lookup letter.toNat = none)
    (hwidth : escapeWidth? letter.toNat = some width) (hlt : v < 16 ^ width)
    (hc : c.rest = ascii (0x5C :: letter :: Scalar.upperHex width v) ++ r) :
    readEscape began c = .ok (v, c.advance (2 + width)) := by
  unfold readEscape
  rw [hc]
  simp only [ascii_cons, List.cons_append, List.tail_cons, List.head?_cons, hletter, hwidth,
    List.drop_succ_cons, List.drop_zero, hexNumber?_upperHex hlt, isNoScalar_eq_false hv,
    Bool.false_eq_true, ↓reduceIte]

/-- **Reading an escape** gives the escaped value. -/
theorem readEscape_escape (hv : IsScalar v) (hc : c.rest = ascii (Scalar.escape v) ++ r) :
    readEscape began c = .ok (v, c.advance (Scalar.escape v).length) := by
  have hletters : ∀ e ∈ Scalar.shortEscapes, letterEscapes.lookup e.2.toNat = some e.1 := by decide
  have hmax : v ≤ 0x10FFFF := by
    unfold IsScalar at hv
    omega
  unfold Scalar.escape at hc ⊢
  cases hl : Scalar.shortEscapes.lookup v with
  | some letter =>
    obtain ⟨l₁, l₂, heq, -⟩ := List.lookup_eq_some_iff.1 hl
    have hv' := hletters (v, letter) (by simp [heq])
    rw [hl] at hc
    simp only [readEscape, hc, ascii_cons, List.cons_append, List.tail_cons, List.head?_cons, hv',
      List.length_cons, List.length_nil]
  | none =>
    simp only [hl] at hc
    dsimp only
    split at hc
    · next h =>
      rw [if_pos h, readEscape_hex hv (by decide) (by decide) (by omega) hc]
      simp [length_upperHex, Nat.add_comm]
    · next h =>
      split at hc
      · next h' =>
        rw [if_neg h, if_pos h', readEscape_hex hv (by decide) (by decide) (by omega) hc]
        simp [length_upperHex, Nat.add_comm]
      · next h' =>
        rw [if_neg h, if_neg h', readEscape_hex hv (by decide) (by decide) (by omega) hc]
        simp [length_upperHex, Nat.add_comm]

end Escape

/-! ### Pieces -/

/-- Does a piece of a quoted scalar end in front of the text? -/
def EndsPiece (single : Bool) (r : List Nat) : Prop :=
  ∃ v rest, r = v :: rest ∧ (isBlank v = true ∨ isBreak v = true ∨
    single = true ∧ v = 0x27 ∧ rest.head? ≠ some 0x27 ∨ single = false ∧ v = 0x22)

section Piece

variable {began : Mark} {fuel : Nat} {s : Scanned} {r : List Nat}

theorem quotedPiece_stop {single : Bool} (hc : s.cursor.rest = r) (hr : EndsPiece single r) :
    quotedPiece began single fuel s = .ok s := by
  obtain ⟨v, rest, rfl, h⟩ := hr
  cases fuel with
  | zero => rfl
  | succ fuel =>
    simp only [quotedPiece, hc]
    rcases h with h | h | ⟨rfl, rfl, h⟩ | ⟨rfl, rfl⟩
    · rw [if_pos (by simp [h])]
    · rw [if_pos (by simp [h])]
    · rw [if_neg (by decide), if_pos (by decide), if_neg (by simpa using h)]
    · rw [if_neg (by decide), if_neg (by decide), if_pos (by decide)]

/-- An escape has a character behind its backslash, which is no line break. -/
theorem ascii_escape (v : Nat) :
    ∃ w rest, ascii (Scalar.escape v) = 0x5C :: w :: rest ∧ isBreak w = false := by
  have hcons : ∃ b bs, Scalar.escape v = 0x5C :: b :: bs := by
    unfold Scalar.escape
    split
    · exact ⟨_, _, rfl⟩
    · split
      · exact ⟨_, _, rfl⟩
      · split
        · exact ⟨_, _, rfl⟩
        · exact ⟨_, _, rfl⟩
  obtain ⟨b, bs, heq⟩ := hcons
  refine ⟨b.toNat, ascii bs, by rw [heq]; rfl, ?_⟩
  have := Scalar.escape_printable (v := v) (b := b) (by simp [heq])
  simp only [isBreak, Bool.or_eq_false_iff, beq_eq_false_iff_ne]
  omega

/-- What was read when the piece `run`, written as `chars`, was taken in. -/
def Scanned.addPiece (s : Scanned) (run chars : List Nat) : Scanned :=
  { s with text := run.reverse ++ s.text, cursor := s.cursor.advance chars.length }

/-- A piece of a text in double quotes. -/
theorem quotedPiece_double (began : Mark) {run : List Nat} (hrun : ∀ v ∈ run, IsScalar v ∧ v ≠ 0x20)
    (hc : s.cursor.rest = run.flatMap doubleChars ++ r) (hr : EndsPiece false r)
    (hfuel : run.length ≤ fuel) :
    quotedPiece began false fuel s = .ok (s.addPiece run (run.flatMap doubleChars)) := by
  induction run generalizing fuel s with
  | nil => exact quotedPiece_stop (by simpa using hc) hr
  | cons v run ih =>
    obtain ⟨fuel, rfl⟩ : ∃ k, fuel = k + 1 := ⟨fuel - 1, by simp at hfuel; omega⟩
    obtain ⟨hv, hspace⟩ := hrun v (by simp)
    rw [List.flatMap_cons, List.append_assoc] at hc
    have hnext : quotedPiece began false (fuel + 1) s = quotedPiece began false fuel { s with
        text := v :: s.text, cursor := s.cursor.advance (doubleChars v).length } := by
      unfold doubleChars at hc ⊢
      split at hc
      · next hesc =>
        obtain ⟨w, rest, hcons, hbreak⟩ := ascii_escape v
        have hc' := hc
        rw [hcons, List.cons_append, List.cons_append] at hc'
        rw [if_pos hesc]
        simp only [quotedPiece, hc']
        rw [if_neg (by decide), if_neg (by decide), if_neg (by decide), if_pos (by decide),
          if_neg (by simp [hbreak]), readEscape_escape hv hc, length_ascii]
      · next hraw =>
        simp only [Bool.or_eq_true, not_or, Bool.not_eq_true, Bool.not_eq_false',
          beq_eq_false_iff_ne] at hraw
        obtain ⟨⟨⟨hprint, hbreak⟩, hquote⟩, hback⟩ := hraw
        have hblank : isBlank v = false := by
          rw [Scalar.isPrintable_iff] at hprint
          simp only [isBlank, Bool.or_eq_false_iff, beq_eq_false_iff_ne]
          omega
        rw [List.singleton_append] at hc
        simp only [quotedPiece, hc]
        rw [if_neg (by simp [hblank, hbreak]), if_neg (by simp), if_neg (by simpa using hquote),
          if_neg (by simpa using hback)]
        simp [hprint, hbreak, hquote, hback, Cursor.skip]
    rw [hnext, ih (fun w hw => hrun w (by simp [hw])) (by simp [hc]) (by simpa using hfuel)]
    simp [Scanned.addPiece, Cursor.advance_advance]

/-- The character that ends a quoted scalar. -/
def closing (single : Bool) : Nat :=
  if single then 0x27 else 0x22

section Turn

variable {limit : Nat} {single : Bool} {run chars : List Nat}
  (hpiece : quotedPiece began single limit s = .ok (s.addPiece run chars))
  (hmark : s.cursor.atDocumentMark = false)

include hpiece hmark

/-- The closing quote behind a piece ends the reading. -/
theorem quotedPieces_close (hc : s.cursor.rest = chars ++ closing single :: r) :
    quotedPieces limit began single (fuel + 1) s =
      .ok { s.addPiece run chars with cursor := (s.cursor.advance chars.length).skip } := by
  have hempty : s.cursor.rest.isEmpty = false := by simp [hc]
  have hsees : (s.addPiece run chars).cursor.sees (if single then 0x27 else 0x22) = true := by
    simp [Scanned.addPiece, Cursor.sees, Cursor.head?, hc, closing]
  simp only [quotedPieces, hmark, hempty, hpiece, hsees, Bool.false_eq_true, ↓reduceIte]
  rfl

/-- A gap behind a piece stands for its text. -/
theorem quotedPieces_gap {gap : Gap} {cursor : Cursor} (hc : s.cursor.rest = chars ++ r)
    (hne : r ≠ []) (hopen : r.head? ≠ some (closing single))
    (hgap : readGap began 0 limit s.gap (s.cursor.advance chars.length) = .ok (gap, cursor)) :
    quotedPieces limit began single (fuel + 1) s =
      quotedPieces limit began single fuel
        { text := pushAll (run.reverse ++ s.text) gap.text, gap := {}, cursor := cursor } := by
  have hempty : s.cursor.rest.isEmpty = false := by simp [hc, hne]
  have hsees : (s.addPiece run chars).cursor.sees (if single then 0x27 else 0x22) = false := by
    simpa [Scanned.addPiece, Cursor.sees, Cursor.head?, hc, closing] using hopen
  have hread : readGap began 0 limit (s.addPiece run chars).gap (s.addPiece run chars).cursor =
      .ok (gap, cursor) := hgap
  simp only [quotedPieces, hmark, hempty, hpiece, hsees, hread, Bool.false_eq_true, ↓reduceIte]
  rfl

end Turn

end Piece

/-! ### Double quotes -/

theorem doubleChars_ne_nil (v : Nat) : doubleChars v ≠ [] := by
  unfold doubleChars
  split
  · obtain ⟨w, rest, heq, -⟩ := ascii_escape v
    simp [heq]
  · simp

theorem length_le_flatMap {f : Nat → List Nat} (hf : ∀ v, f v ≠ []) (vs : List Nat) :
    vs.length ≤ (vs.flatMap f).length := by
  induction vs with
  | nil => simp
  | cons v vs ih =>
    have := List.length_pos_iff.2 (hf v)
    rw [List.flatMap_cons, List.length_append, List.length_cons]
    omega

/-- In double quotes only spaces are white space. -/
theorem stops_doubleChars {v : Nat} (hv : v ≠ 0x20) (r : List Nat) :
    Stops (doubleChars v ++ r) := by
  unfold doubleChars
  split
  · obtain ⟨w, rest, heq, -⟩ := ascii_escape v
    rw [heq]
    exact stops_cons.2 ⟨rfl, rfl⟩
  · next hraw =>
    simp only [Bool.or_eq_true, not_or, Bool.not_eq_true, Bool.not_eq_false',
      beq_eq_false_iff_ne] at hraw
    obtain ⟨⟨⟨hprint, hbreak⟩, -⟩, -⟩ := hraw
    refine stops_cons.2 ⟨?_, hbreak⟩
    rw [Scalar.isPrintable_iff] at hprint
    simp only [isBlank, Bool.or_eq_false_iff, beq_eq_false_iff_ne]
    omega

theorem flatMap_doubleChars_replicate (n : Nat) :
    (List.replicate n 0x20).flatMap doubleChars = List.replicate n 0x20 := by
  have hspace : doubleChars 0x20 = [0x20] := rfl
  induction n with
  | zero => rfl
  | succ n ih => rw [List.replicate_succ, List.flatMap_cons, ih, hspace]; rfl

theorem stops_flatMap_doubleChars {vs : List Nat} (hvs : ∀ v ∈ vs.head?, v ≠ 0x20) (r : List Nat) :
    Stops (vs.flatMap doubleChars ++ 0x22 :: r) := by
  cases vs with
  | nil => exact stops_cons.2 ⟨rfl, rfl⟩
  | cons v vs =>
    rw [List.flatMap_cons, List.append_assoc]
    exact stops_doubleChars (hvs v rfl) _

theorem quotedPieces_double {limit fuel : Nat} {began : Mark} {s : Scanned} {vs r : List Nat}
    (hvs : ∀ v ∈ vs, IsScalar v) (hc : s.cursor.rest = vs.flatMap doubleChars ++ 0x22 :: r)
    (hgap : s.gap = {}) (hcol : s.cursor.mark.column ≠ 0) (hlimit : s.cursor.rest.length ≤ limit)
    (hfuel : vs.length < fuel) :
    ∃ c, quotedPieces limit began false fuel s =
        .ok { text := vs.reverse ++ s.text, gap := {}, cursor := c } ∧ c.rest = r := by
  -- a turn takes a piece and the spaces behind it
  induction hn : vs.length using Nat.strongRecOn generalizing vs s fuel with
  | ind n ih =>
    obtain ⟨fuel, rfl⟩ : ∃ k, fuel = k + 1 := ⟨fuel - 1, by omega⟩
    obtain ⟨run, rest, rfl, hrun, hrest⟩ := exists_run (· != 0x20) vs
    obtain ⟨m, tail, rfl, htail⟩ := exists_spaces rest
    have hmark := atDocumentMark_of_column hcol
    rw [List.flatMap_append, List.append_assoc, List.flatMap_append,
      flatMap_doubleChars_replicate, List.append_assoc] at hc
    have hsize : s.cursor.rest.length = (run.flatMap doubleChars).length +
        (m + (tail.flatMap doubleChars ++ 0x22 :: r).length) := by
      rw [hc, List.length_append, List.length_append, List.length_replicate]
    have hlen : run.length ≤ limit := by
      have := length_le_flatMap doubleChars_ne_nil run
      omega
    have hrun' : ∀ v ∈ run, IsScalar v ∧ v ≠ 0x20 := fun v hv =>
      ⟨hvs v (by simp [hv]), by simpa using hrun v hv⟩
    cases m with
    | zero =>
      -- nothing but the closing quote can follow a piece without a space behind it
      obtain rfl : tail = [] := by
        cases tail with
        | nil => rfl
        | cons v tail => exact absurd (by simpa using hrest v rfl) (htail v rfl)
      have hends : EndsPiece false (0x22 :: r) := ⟨_, _, rfl, .inr (.inr (.inr ⟨rfl, rfl⟩))⟩
      have hpiece := quotedPiece_double began hrun' hc hends hlen
      refine ⟨(s.cursor.advance (run.flatMap doubleChars).length).skip, ?_, ?_⟩
      · rw [quotedPieces_close hpiece hmark hc]
        simp [Scanned.addPiece, hgap]
      · simp [hc, Cursor.skip]
    | succ m =>
      have hends : EndsPiece false (List.replicate (m + 1) 0x20 ++
          (tail.flatMap doubleChars ++ 0x22 :: r)) := ⟨0x20, _, rfl, .inl rfl⟩
      have hpiece := quotedPiece_double began hrun' hc hends hlen
      have hread : readGap began 0 limit s.gap
          (s.cursor.advance (run.flatMap doubleChars).length) =
          .ok ({ blanks := List.replicate (m + 1) 0x20 },
            (s.cursor.advance (run.flatMap doubleChars).length).advance (m + 1)) := by
        rw [hgap]
        exact readGap_blanks (n := m + 1) (g := {}) (by simp [hc])
          (stops_flatMap_doubleChars htail r) rfl (by omega)
      have hfuel' : tail.length < fuel := by
        simp only [List.length_append, List.length_replicate] at hfuel
        omega
      obtain ⟨c, hquoted, hrest'⟩ := ih tail.length
        (by simp only [List.length_append, List.length_replicate] at hn; omega)
        (s := { text := pushAll (run.reverse ++ s.text) (List.replicate (m + 1) 0x20)
                gap := {}
                cursor := (s.cursor.advance (run.flatMap doubleChars).length).advance (m + 1) })
        (fun v hv => hvs v (by simp [hv])) (by simp [hc]) rfl (by simp) (by simp; omega) hfuel' rfl
      refine ⟨c, ?_, hrest'⟩
      rw [quotedPieces_gap hpiece hmark hc (by simp) (by simp [closing, List.replicate_succ]) hread]
      refine hquoted.trans ?_
      simp [pushAll]

/-- **Reading a text in double quotes.** -/
theorem readQuoted_double {limit : Nat} {c : Cursor} {vs r : List Nat} (hvs : ∀ v ∈ vs, IsScalar v)
    (hc : c.rest = 0x22 :: vs.flatMap doubleChars ++ 0x22 :: r) (hlimit : c.rest.length ≤ limit) :
    ∃ t, readQuoted limit false c = .ok t ∧ t.text.reverse = vs ∧ t.cursor.rest = r := by
  have hlen := length_le_flatMap doubleChars_ne_nil vs
  have hsize : (vs.flatMap doubleChars).length + 2 ≤ c.rest.length := by
    rw [hc]
    simp only [List.length_append, List.length_cons]
    omega
  obtain ⟨c', hquoted, hrest⟩ : ∃ c', quotedPieces limit c.mark false limit { cursor := c.skip } =
      .ok { text := vs.reverse ++ [], gap := {}, cursor := c' } ∧ c'.rest = r :=
    quotedPieces_double hvs (by simp [Cursor.skip, hc]) rfl (by simp [Cursor.skip])
      (by simp [Cursor.skip]; omega) (by omega)
  exact ⟨_, hquoted, by simp, hrest⟩

/-! ### Single quotes -/

/-- What a text in single quotes is made of: its line breaks are separators, and no space stands
next to one. -/
structure IsSingle (vs : List Nat) : Prop where
  noTab : ∀ v ∈ vs, v ≠ 0x09
  separator : ∀ v ∈ vs, isBreak v = true → v = 0x2028 ∨ v = 0x2029
  spaceBreak : ∀ a v b, vs = a ++ 0x20 :: v :: b → isBreak v = false
  breakSpace : ∀ a v b, vs = a ++ v :: 0x20 :: b → isBreak v = false

theorem IsSingle.tail {a vs : List Nat} (h : IsSingle (a ++ vs)) : IsSingle vs where
  noTab := fun v hv => h.noTab v (List.mem_append_right a hv)
  separator := fun v hv => h.separator v (List.mem_append_right a hv)
  spaceBreak := fun b v c heq => h.spaceBreak (a ++ b) v c (by rw [heq, List.append_assoc])
  breakSpace := fun b v c heq => h.breakSpace (a ++ b) v c (by rw [heq, List.append_assoc])

theorem mem_pairs (a b : List Nat) (u v : Nat) : (u, v) ∈ Scalar.pairs (a ++ u :: v :: b) := by
  have hpairs : ∀ x y l, Scalar.pairs (x :: y :: l) = (x, y) :: Scalar.pairs (y :: l) :=
    fun _ _ _ => rfl
  induction a with
  | nil =>
    rw [List.nil_append, hpairs]
    exact List.mem_cons_self
  | cons w a ih =>
    cases a with
    | nil =>
      rw [List.cons_append, List.nil_append, hpairs]
      exact List.mem_cons_of_mem _ ih
    | cons x a =>
      rw [List.cons_append, List.cons_append, hpairs]
      exact List.mem_cons_of_mem _ ih

theorem isSingle_of_singleAllowed {vs : List Nat} (h : Scalar.singleAllowed vs = true)
    (hlf : 0x0A ∉ vs) : IsSingle vs := by
  simp only [Scalar.singleAllowed, Bool.not_eq_true', Bool.or_eq_false_iff] at h
  obtain ⟨⟨hbreakSpace, hspaceBreak⟩, hany⟩ := h
  have hvalue : ∀ v ∈ vs, v ≠ 0x09 ∧ Scalar.isSpecial v = false := by
    intro v hv
    have := List.any_eq_false.1 hany v hv
    simpa using this
  refine ⟨fun v hv => (hvalue v hv).1, fun v hv hbreak => ?_, ?_, ?_⟩
  · obtain ⟨htab, hspecial⟩ := hvalue v hv
    have hprint : Scalar.isPrintable v = true := by
      simpa [Scalar.isSpecial, htab] using hspecial
    have hne : v ≠ 0x0A := fun e => hlf (e ▸ hv)
    rw [Scalar.isPrintable_iff] at hprint
    simp only [isBreak, Bool.or_eq_true, beq_iff_eq] at hbreak
    omega
  · rintro a v b rfl
    have := List.any_eq_false.1 hspaceBreak _ (mem_pairs a b 0x20 v)
    simpa using this
  · rintro a v b rfl
    have := List.any_eq_false.1 hbreakSpace _ (mem_pairs a b v 0x20)
    simpa using this

section Indent

variable {indent : Nat} {f : Nat → List Nat}

theorem indentChars_run {run : List Nat} (hrun : ∀ v ∈ run, isBreak v = false) (rest : List Nat) :
    indentChars indent f false (run ++ rest) =
      run.flatMap f ++ indentChars indent f false rest := by
  induction run with
  | nil => rfl
  | cons v run ih =>
    rw [List.cons_append, indentChars, hrun v (by simp), ih fun w hw => hrun w (by simp [hw])]
    simp

theorem indentChars_breaks {br : List Nat} (hbr : ∀ v ∈ br, isBreak v = true) (hne : br ≠ [])
    (fresh : Bool) (rest : List Nat) :
    indentChars indent f fresh (br ++ rest) = br ++ indentChars indent f true rest := by
  induction br generalizing fresh with
  | nil => exact absurd rfl hne
  | cons v br ih =>
    rw [List.cons_append, indentChars, hbr v (by simp)]
    cases br with
    | nil => rfl
    | cons w br =>
      rw [ih (fun u hu => hbr u (by simp [hu])) (by simp)]
      rfl

theorem indentChars_fresh {v : Nat} (hv : isBreak v = false) (vs : List Nat) :
    indentChars indent f true (v :: vs) =
      List.replicate indent 0x20 ++ indentChars indent f false (v :: vs) := by
  simp [indentChars, hv]

end Indent

theorem length_le_indentChars (indent : Nat) {f : Nat → List Nat} (hf : ∀ v, f v ≠ [])
    (fresh : Bool) (vs : List Nat) : vs.length ≤ (indentChars indent f fresh vs).length := by
  induction vs generalizing fresh with
  | nil => simp
  | cons v vs ih =>
    have hpos := List.length_pos_iff.2 (hf v)
    unfold indentChars
    split
    · have := ih true
      simp only [List.length_cons]
      omega
    · have := ih false
      simp only [List.length_cons, List.length_append]
      omega

theorem singleChars_ne_nil (v : Nat) : singleChars v ≠ [] := by
  unfold singleChars
  split <;> simp

theorem stops_singleChars {v : Nat} (hblank : isBlank v = false) (hbreak : isBreak v = false)
    (r : List Nat) : Stops (singleChars v ++ r) := by
  unfold singleChars
  split
  · exact stops_cons.2 ⟨rfl, rfl⟩
  · exact stops_cons.2 ⟨hblank, hbreak⟩

/-- A piece of a text in single quotes. -/
theorem quotedPiece_single (began : Mark) {fuel : Nat} {s : Scanned} {run r : List Nat}
    (hrun : ∀ v ∈ run, isBlank v = false ∧ isBreak v = false)
    (hc : s.cursor.rest = run.flatMap singleChars ++ r) (hr : EndsPiece true r)
    (hfuel : run.length ≤ fuel) :
    quotedPiece began true fuel s = .ok (s.addPiece run (run.flatMap singleChars)) := by
  induction run generalizing fuel s with
  | nil => exact quotedPiece_stop (by simpa using hc) hr
  | cons v run ih =>
    obtain ⟨fuel, rfl⟩ : ∃ k, fuel = k + 1 := ⟨fuel - 1, by simp at hfuel; omega⟩
    obtain ⟨hblank, hbreak⟩ := hrun v (by simp)
    rw [List.flatMap_cons, List.append_assoc] at hc
    have hnext : quotedPiece began true (fuel + 1) s = quotedPiece began true fuel { s with
        text := v :: s.text, cursor := s.cursor.advance (singleChars v).length } := by
      by_cases hquote : v = 0x27
      · subst hquote
        have hchars : singleChars 0x27 = [0x27, 0x27] := rfl
        rw [hchars] at hc ⊢
        simp only [quotedPiece, hc, List.cons_append, List.nil_append]
        rw [if_neg (by decide), if_pos (by decide), if_pos (by simp)]
        rfl
      · have hchars : singleChars v = [v] := by simp [singleChars, hquote]
        rw [hchars] at hc ⊢
        simp only [quotedPiece, hc, List.cons_append, List.nil_append]
        rw [if_neg (by simp [hblank, hbreak]), if_neg (by simpa using hquote), if_neg (by simp),
          if_neg (by simp)]
        rfl
    rw [hnext, ih (fun w hw => hrun w (by simp [hw])) (by simp [hc]) (by simpa using hfuel)]
    simp [Scanned.addPiece, Cursor.advance_advance]

section Gap

variable {limit indent : Nat} {c : Cursor} {tail r : List Nat}

/-- Behind a gap a text in single quotes goes on with a character that is no white space, or it
ends. -/
theorem IsSingle.stops (h : IsSingle tail)
    (htail : ∀ v ∈ tail.head?, v ≠ 0x20 ∧ isBreak v = false) (r : List Nat) :
    Stops (indentChars indent singleChars false tail ++ 0x27 :: r) := by
  cases tail with
  | nil => exact stops_cons.2 ⟨rfl, rfl⟩
  | cons v tail =>
    obtain ⟨hspace, hbreak⟩ := htail v rfl
    have hblank : isBlank v = false := by simp [isBlank, hspace, h.noTab v (by simp)]
    rw [indentChars, hbreak]
    simpa using stops_singleChars hblank hbreak _

theorem IsSingle.not_isBreak_of_spaces {n : Nat}
    (h : IsSingle (List.replicate (n + 1) 0x20 ++ tail)) : ∀ v ∈ tail.head?, isBreak v = false := by
  intro v hv
  obtain ⟨rest, rfl⟩ := List.head?_eq_some_iff.1 hv
  exact h.spaceBreak (List.replicate n 0x20) v rest (by simp [List.replicate_succ'])

theorem IsSingle.ne_space_of_breaks {br : List Nat} (h : IsSingle (br ++ tail)) (hne : br ≠ [])
    (hbr : ∀ v ∈ br, isBreak v = true) : ∀ v ∈ tail.head?, v ≠ 0x20 := by
  rintro v hv rfl
  obtain ⟨rest, rfl⟩ := List.head?_eq_some_iff.1 hv
  obtain ⟨front, u, rfl⟩ := (List.eq_nil_or_concat br).resolve_left hne
  have hu : isBreak u = false := h.breakSpace front u rest (by simp)
  rw [hbr u (by simp)] at hu
  cases hu

/-- A gap of spaces in single quotes. -/
theorem readGap_single_spaces (began : Mark) {n : Nat}
    (h : IsSingle (List.replicate (n + 1) 0x20 ++ tail)) (htail : ∀ v ∈ tail.head?, v ≠ 0x20)
    (hc : c.rest = indentChars indent singleChars false (List.replicate (n + 1) 0x20 ++ tail) ++
      0x27 :: r) (hlimit : c.rest.length ≤ limit) :
    readGap began 0 limit {} c =
        .ok ({ blanks := List.replicate (n + 1) 0x20 }, c.advance (n + 1)) ∧
      (c.advance (n + 1)).rest = indentChars indent singleChars false tail ++ 0x27 :: r := by
  have hsolid : ∀ v ∈ List.replicate (n + 1) 0x20, isBreak v = false := by
    intro v hv
    rw [List.eq_of_mem_replicate hv]
    rfl
  have hspaces : (List.replicate (n + 1) 0x20).flatMap singleChars =
      List.replicate (n + 1) 0x20 := by
    simp [List.flatMap_replicate, singleChars]
  have hstops : Stops (indentChars indent singleChars false tail ++ 0x27 :: r) :=
    h.tail.stops (fun v hv => ⟨htail v hv, h.not_isBreak_of_spaces v hv⟩) r
  rw [indentChars_run hsolid, hspaces, List.append_assoc] at hc
  refine ⟨readGap_blanks (g := {}) hc hstops rfl ?_, by simp [hc]⟩
  rw [hc, List.length_append, List.length_replicate] at hlimit
  omega

/-- A gap of separators in single quotes, with the indentation of the line after them. -/
theorem readGap_single_breaks (began : Mark) {v : Nat} {br : List Nat}
    (h : IsSingle (v :: br ++ tail)) (hbr : ∀ w ∈ v :: br, isBreak w = true)
    (htail : ∀ w ∈ tail.head?, isBreak w = false) (hindent : 0 < indent)
    (hc : c.rest = indentChars indent singleChars false (v :: br ++ tail) ++ 0x27 :: r)
    (hlimit : c.rest.length ≤ limit) :
    ∃ c', readGap began 0 limit {} c =
        .ok ({ first := [v], more := br, multiline := true }, c') ∧
      c'.rest = indentChars indent singleChars false tail ++ 0x27 :: r ∧
      c'.atDocumentMark = false ∧ c'.rest.length ≤ limit := by
  have hkept : ∀ w ∈ v :: br, IsKept w := fun w hw =>
    .inr (h.separator w (List.mem_append_left _ hw) (hbr w hw))
  have hstops : Stops (indentChars indent singleChars false tail ++ 0x27 :: r) :=
    h.tail.stops (fun w hw => ⟨h.ne_space_of_breaks (by simp) hbr w hw, htail w hw⟩) r
  -- the line after the separators is indented, if the text goes on there
  obtain ⟨n, hn, hmark⟩ : ∃ n, indentChars indent singleChars true tail =
      List.replicate n 0x20 ++ indentChars indent singleChars false tail ∧ (n = 0 → tail = []) := by
    cases tail with
    | nil => exact ⟨0, rfl, fun _ => rfl⟩
    | cons w tail => exact ⟨indent, indentChars_fresh (htail w rfl) tail, fun h0 => by omega⟩
  rw [indentChars_breaks hbr (by simp), hn] at hc
  have hlen : br.length + n < limit := by
    rw [hc] at hlimit
    simp only [List.length_append, List.length_cons, List.length_replicate] at hlimit
    omega
  obtain ⟨c', hread, hrest, hcol⟩ : ∃ c', readGap began 0 limit {} c =
      .ok ({ first := [v], more := br, multiline := true }, c') ∧
      c'.rest = indentChars indent singleChars false tail ++ 0x27 :: r ∧ c'.mark.column = n :=
    readGap_breaks (by simpa using hc) hkept hstops hlen
  refine ⟨c', hread, hrest, ?_, ?_⟩
  · by_cases h0 : n = 0
    · simp [Cursor.atDocumentMark, hrest, hmark h0, indentChars]
    · exact atDocumentMark_of_column (by omega)
  · rw [hrest]
    rw [hc] at hlimit
    simp only [List.length_append] at hlimit ⊢
    omega

/-- The gap after a piece of a text in single quotes: spaces, or separators and indentation. -/
theorem readGap_single (began : Mark) {rest : List Nat} (h : IsSingle rest) (hne : rest ≠ [])
    (hgap : ∀ v ∈ rest.head?, v = 0x20 ∨ isBreak v = true) (hindent : 0 < indent)
    (hc : c.rest = indentChars indent singleChars false rest ++ 0x27 :: r)
    (hlimit : c.rest.length ≤ limit) :
    ∃ g tail gap c', rest = g ++ tail ∧ g ≠ [] ∧
      readGap began 0 limit {} c = .ok (gap, c') ∧ gap.text = g ∧
      c'.rest = indentChars indent singleChars false tail ++ 0x27 :: r ∧
      c'.atDocumentMark = false ∧ c'.rest.length ≤ limit := by
  obtain ⟨v, rest, rfl⟩ := List.exists_cons_of_ne_nil hne
  rcases hgap v rfl with rfl | hv
  · obtain ⟨n, tail, rfl, htail⟩ := exists_spaces rest
    rw [← List.cons_append, ← List.replicate_succ] at h hc ⊢
    obtain ⟨hread, hrest⟩ := readGap_single_spaces began h htail hc hlimit
    exact ⟨List.replicate (n + 1) 0x20, tail, _, c.advance (n + 1), rfl, by simp, hread, rfl, hrest,
      atDocumentMark_of_column (by simp), by simp; omega⟩
  · obtain ⟨br, tail, rfl, hbr, htail⟩ := exists_run isBreak rest
    obtain ⟨c', hread, hrest⟩ :=
      readGap_single_breaks began h (List.forall_mem_cons.2 ⟨hv, hbr⟩) htail hindent hc hlimit
    have hlf : v ≠ 0x0A := by
      rcases h.separator v (by simp) hv with rfl | rfl <;> decide
    exact ⟨v :: br, tail, _, c', rfl, by simp, hread, by simp [Gap.text, hlf], hrest⟩

end Gap

/-- White space in single quotes stands for itself. -/
theorem head?_indentChars_single (indent : Nat) {v : Nat} (hv : v = 0x20 ∨ isBreak v = true)
    (rest : List Nat) :
    (indentChars indent singleChars false (v :: rest)).head? = some v := by
  rcases hv with rfl | hv
  · rfl
  · simp [indentChars, hv]

theorem quotedPieces_single {limit fuel indent : Nat} {began : Mark} {s : Scanned}
    {vs r : List Nat} (h : IsSingle vs) (hindent : 0 < indent) (hr : r.head? ≠ some 0x27)
    (hc : s.cursor.rest = indentChars indent singleChars false vs ++ 0x27 :: r)
    (hgap : s.gap = {}) (hmark : s.cursor.atDocumentMark = false)
    (hlimit : s.cursor.rest.length ≤ limit) (hfuel : vs.length < fuel) :
    ∃ c, quotedPieces limit began true fuel s =
        .ok { text := vs.reverse ++ s.text, gap := {}, cursor := c } ∧ c.rest = r := by
  -- a turn takes a piece and the gap behind it
  induction hn : vs.length using Nat.strongRecOn generalizing vs s fuel with
  | ind n ih =>
    obtain ⟨fuel, rfl⟩ : ∃ k, fuel = k + 1 := ⟨fuel - 1, by omega⟩
    obtain ⟨run, rest, rfl, hrun, hrest⟩ := exists_run (fun v => v != 0x20 && !isBreak v) vs
    have hsolid : ∀ v ∈ run, isBlank v = false ∧ isBreak v = false := by
      intro v hv
      have hv' := hrun v hv
      simp only [Bool.and_eq_true, bne_iff_ne, Bool.not_eq_true'] at hv'
      exact ⟨by simp [isBlank, hv'.1, h.noTab v (by simp [hv])], hv'.2⟩
    rw [indentChars_run (fun v hv => (hsolid v hv).2), List.append_assoc] at hc
    have hlen : run.length ≤ limit := by
      have := length_le_flatMap singleChars_ne_nil run
      rw [hc, List.length_append] at hlimit
      omega
    cases rest with
    | nil =>
      have hends : EndsPiece true (0x27 :: r) := ⟨_, _, rfl, .inr (.inr (.inl ⟨rfl, rfl, hr⟩))⟩
      have hpiece := quotedPiece_single began hsolid hc hends hlen
      refine ⟨(s.cursor.advance (run.flatMap singleChars).length).skip, ?_, ?_⟩
      · rw [quotedPieces_close hpiece hmark hc]
        simp [Scanned.addPiece, hgap]
      · simp [hc, indentChars, Cursor.skip]
    | cons w rest =>
      have hwhite : ∀ v ∈ (w :: rest).head?, v = 0x20 ∨ isBreak v = true := by
        intro v hv
        have := hrest v hv
        simp only [Bool.and_eq_false_iff, bne_eq_false_iff_eq, Bool.not_eq_false'] at this
        exact this
      have hw := hwhite w rfl
      obtain ⟨u, hu⟩ := List.head?_eq_some_iff.1 (head?_indentChars_single indent hw rest)
      have hends : EndsPiece true (indentChars indent singleChars false (w :: rest) ++
          0x27 :: r) := by
        refine ⟨w, _, by rw [hu]; rfl, ?_⟩
        rcases hw with rfl | hw
        · exact .inl rfl
        · exact .inr (.inl hw)
      have hpiece := quotedPiece_single began hsolid hc hends hlen
      have hopen : (indentChars indent singleChars false (w :: rest) ++ 0x27 :: r).head? ≠
          some (closing true) := by
        rw [hu]
        rintro ⟨⟩
        rcases hw with hw | hw <;> cases hw
      have hc' : (s.cursor.advance (run.flatMap singleChars).length).rest =
          indentChars indent singleChars false (w :: rest) ++ 0x27 :: r := by
        rw [Cursor.rest_advance, hc, List.drop_left]
      have hlimit' : (s.cursor.advance (run.flatMap singleChars).length).rest.length ≤ limit := by
        rw [Cursor.rest_advance, List.length_drop]
        omega
      obtain ⟨g, tail, gap, c', heq, hg, hread, htext, hrest', hmark', hlimit'⟩ :=
        readGap_single began h.tail (by simp) hwhite hindent hc' hlimit'
      have hglen := List.length_pos_iff.2 hg
      rw [heq] at h hn hfuel ⊢
      simp only [List.length_append] at hn hfuel
      obtain ⟨c, hquoted, hlast⟩ := ih tail.length (by omega)
        (s := { text := pushAll (run.reverse ++ s.text) gap.text, gap := {}, cursor := c' })
        h.tail.tail hrest' rfl hmark' hlimit' (show tail.length < fuel by omega) rfl
      refine ⟨c, ?_, hlast⟩
      rw [quotedPieces_gap hpiece hmark hc (by simp) hopen (hgap ▸ hread)]
      refine hquoted.trans ?_
      rw [htext]
      simp [pushAll]

/-- **Reading a text in single quotes.** -/
theorem readQuoted_single {limit indent : Nat} {c : Cursor} {vs r : List Nat} (h : IsSingle vs)
    (hindent : 0 < indent) (hr : r.head? ≠ some 0x27)
    (hc : c.rest = 0x27 :: indentChars indent singleChars false vs ++ 0x27 :: r)
    (hlimit : c.rest.length ≤ limit) :
    ∃ t, readQuoted limit true c = .ok t ∧ t.text.reverse = vs ∧ t.cursor.rest = r := by
  have hlen : vs.length < limit := by
    have := length_le_indentChars indent singleChars_ne_nil false vs
    rw [hc] at hlimit
    simp only [List.length_append, List.length_cons] at hlimit
    omega
  obtain ⟨c', hquoted, hrest⟩ : ∃ c', quotedPieces limit c.mark true limit { cursor := c.skip } =
      .ok { text := vs.reverse ++ [], gap := {}, cursor := c' } ∧ c'.rest = r :=
    quotedPieces_single h hindent hr (by simp [Cursor.skip, hc]) rfl
      (atDocumentMark_of_column (by simp [Cursor.skip])) (by simp [Cursor.skip]; omega) hlen
  exact ⟨_, hquoted, by simp, hrest⟩

end ForthFrontend.Yaml
