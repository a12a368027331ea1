import ForthFrontend.Proofs.Text.Base64
import ForthFrontend.Proofs.Text.Decimal
import ForthFrontend.Proofs.Yaml.Character
import ForthFrontend.Yaml.Document

/-!
# The characters of written scalars

Writing works on bytes, reading on characters. This module says which characters a scalar is written
with, and that all of them may stand in a document.

## Main definitions

* `Yaml.ascii`: the characters of ASCII text.
* `Yaml.Scalar.charsIn`: the characters of a text in a given style.
* `Yaml.Scalar.chars`: the characters of a text as a scalar.
* `Yaml.endChars`: the characters of a text followed by the end of the line.

## Main results

* `Yaml.Scalar.write_eq`: a scalar is written with these characters.
* `Yaml.Scalar.isAllowed_of_mem_chars`: they may stand in a document.
-/

namespace ForthFrontend.Yaml

open Utf8 (IsScalar)

@[simp]
theorem encodeAll_nil : encodeAll [] = [] := rfl

@[simp]
theorem encodeAll_cons (v : Nat) (vs : List Nat) :
    encodeAll (v :: vs) = Utf8.encode v ++ encodeAll vs := rfl

@[simp]
theorem encodeAll_append (vs ws : List Nat) :
    encodeAll (vs ++ ws) = encodeAll vs ++ encodeAll ws :=
  List.flatMap_append

/-- The characters of ASCII text. -/
def ascii (s : Bytes) : List Nat :=
  s.map UInt8.toNat

@[simp]
theorem ascii_nil : ascii [] = [] := rfl

@[simp]
theorem ascii_cons (b : UInt8) (s : Bytes) : ascii (b :: s) = b.toNat :: ascii s := rfl

@[simp]
theorem ascii_append (s t : Bytes) : ascii (s ++ t) = ascii s ++ ascii t :=
  List.map_append

@[simp]
theorem length_ascii (s : Bytes) : (ascii s).length = s.length :=
  List.length_map _

theorem encode_toNat {b : UInt8} (h : b.toNat < 0x80) : Utf8.encode b.toNat = [b] := by
  rw [Utf8.encode, if_pos h, Utf8.octet_eq rfl]

theorem encodeAll_ascii {s : Bytes} (h : ∀ b ∈ s, b.toNat < 0x80) : encodeAll (ascii s) = s := by
  induction s with
  | nil => rfl
  | cons b s ih =>
    rw [ascii_cons, encodeAll_cons, encode_toNat (h b (by simp))]
    exact congrArg (b :: ·) (ih fun c hc => h c (by simp [hc]))

theorem scalars_of_ascii {s : Bytes} (h : ∀ b ∈ s, b.toNat < 0x80) : Utf8.scalars s = ascii s := by
  have hscalar : ∀ v ∈ ascii s, IsScalar v := by
    intro v hv
    obtain ⟨b, hb, rfl⟩ := List.mem_map.1 hv
    have := h b hb
    unfold IsScalar
    omega
  have := Utf8.scalars_encode hscalar
  rwa [show (ascii s).flatMap Utf8.encode = s from encodeAll_ascii h] at this

/-- The characters followed by a line feed, unless a line break ends them already. -/
def endChars (cs : List Nat) : List Nat :=
  if cs.getLast?.any isBreak then cs else cs ++ [0x0A]

theorem endLine_encodeAll {cs : List Nat} (h : ∀ v ∈ cs, isAllowed v = true) :
    Document.endLine (encodeAll cs) = encodeAll (endChars cs) := by
  have hscalars : Utf8.scalars (encodeAll cs) = cs :=
    Utf8.scalars_encode fun v hv => isScalar_of_isAllowed (h v hv)
  unfold Document.endLine endChars
  rw [hscalars]
  split
  · rfl
  · rw [encodeAll_append]
    rfl

theorem isAllowed_of_mem_endChars {cs : List Nat} (h : ∀ v ∈ cs, isAllowed v = true) :
    ∀ v ∈ endChars cs, isAllowed v = true := by
  intro v hv
  unfold endChars at hv
  split at hv
  · exact h v hv
  · rcases List.mem_append.1 hv with hv | hv
    · exact h v hv
    · rw [List.mem_singleton.1 hv]
      rfl

namespace Scalar

/-- The characters of a value in double quotes. -/
def doubleChars (v : Nat) : List Nat :=
  if !isPrintable v || isBreak v || v == 0x22 || v == 0x5C then ascii (escape v) else [v]

/-- The characters of a value in single quotes. -/
def singleChars (v : Nat) : List Nat :=
  if v == 0x27 then [0x27, 0x27] else [v]

/-- The characters of values with blanks before each value that follows a line break. -/
def indentChars (indent : Nat) (f : Nat → List Nat) (fresh : Bool) : List Nat → List Nat
  | [] => []
  | v :: rest =>
    if isBreak v then v :: indentChars indent f true rest
    else (if fresh then List.replicate indent 0x20 else []) ++ f v ++
      indentChars indent f false rest

/-- The characters of the first line of a literal block, up to its line break. -/
def headerChars (step : Nat) (vs : List Nat) : List Nat :=
  0x7C :: ascii (indentHint step vs ++ chompHint vs)

/-- The characters of a literal block. -/
def literalChars (place : Place) (vs : List Nat) : List Nat :=
  headerChars place.step vs ++ (if vs.head?.any isBreak then [] else [0x0A]) ++
    indentChars place.indent (fun v => [v]) true vs

/-- The characters of a text with the values `vs` in a given style. -/
def charsIn (place : Place) (vs : List Nat) : Style → List Nat
  | .plain => vs
  | .single => 0x27 :: indentChars place.indent singleChars false vs ++ [0x27]
  | .literal => literalChars place vs
  | _ => 0x22 :: vs.flatMap doubleChars ++ [0x22]

/-- The letters that stand for a text that is not valid UTF-8, broken into lines. -/
def binaryLetters (s : Bytes) : Bytes :=
  base64Lines (Base64.encode s)

/-- The characters of a text as a scalar. -/
def chars (place : Place) (s : Bytes) : List Nat :=
  if Utf8.isValid s then
    charsIn place (Utf8.scalars s) (style place.inFlow (!needsQuotes s) s)
  else
    ascii Tag.binary.name ++ 0x20 ::
      charsIn place (ascii (binaryLetters s)) (style place.inFlow true (binaryLetters s))

/-! ### Escapes -/

theorem upperHex_printable {width v : Nat} {b : UInt8} (h : b ∈ upperHex width v) :
    0x20 ≤ b.toNat ∧ b.toNat ≤ 0x7E := by
  have hdigit : ∀ d < 16, let b := Decimal.digit d
      let u := if 0x61 ≤ b then b - 32 else b
      0x20 ≤ u.toNat ∧ u.toNat ≤ 0x7E := by decide
  have hmem : ∀ {width v : Nat} {c : UInt8}, c ∈ Decimal.hex width v →
      ∃ d < 16, c = Decimal.digit d := by
    intro width
    induction width with
    | zero => intro v c hc; cases hc
    | succ width ih =>
      intro v c hc
      rcases List.mem_append.1 hc with hc | hc
      · exact ih hc
      · exact ⟨v % 16, Nat.mod_lt v (by omega), List.mem_singleton.1 hc⟩
  obtain ⟨c, hc, rfl⟩ := List.mem_map.1 h
  obtain ⟨d, hd, rfl⟩ := hmem hc
  exact hdigit d hd

theorem escape_printable {v : Nat} {b : UInt8} (h : b ∈ escape v) :
    0x20 ≤ b.toNat ∧ b.toNat ≤ 0x7E := by
  have hletters : ∀ e ∈ shortEscapes, 0x20 ≤ e.2.toNat ∧ e.2.toNat ≤ 0x7E := by decide
  unfold escape at h
  rcases List.mem_cons.1 h with rfl | h
  · decide
  · split at h
    · next letter hl =>
      obtain ⟨l₁, l₂, heq, -⟩ := List.lookup_eq_some_iff.1 hl
      rw [List.mem_singleton.1 h]
      exact hletters (v, letter) (by simp [heq])
    · split at h
      · rcases List.mem_cons.1 h with rfl | h
        · decide
        · exact upperHex_printable h
      · split at h
        · rcases List.mem_cons.1 h with rfl | h
          · decide
          · exact upperHex_printable h
        · rcases List.mem_cons.1 h with rfl | h
          · decide
          · exact upperHex_printable h

theorem encodeAll_doubleChars (v : Nat) : encodeAll (doubleChars v) = doubleValue v := by
  unfold doubleChars doubleValue
  split
  · refine encodeAll_ascii fun b hb => ?_
    have := escape_printable hb
    omega
  · simp

theorem encodeAll_singleChars (v : Nat) : encodeAll (singleChars v) = singleValue v := by
  unfold singleChars singleValue
  split
  · rfl
  · simp

theorem encodeAll_replicate (n : Nat) : encodeAll (List.replicate n 0x20) = Bytes.blanks n := by
  induction n with
  | zero => rfl
  | succ n ih =>
    rw [List.replicate_succ, encodeAll_cons, ih]
    rfl

theorem encodeAll_indentChars {f : Nat → List Nat} {g : Nat → Bytes}
    (h : ∀ v, encodeAll (f v) = g v) (indent : Nat) (fresh : Bool) (vs : List Nat) :
    encodeAll (indentChars indent f fresh vs) = indentLines indent g fresh vs := by
  induction vs generalizing fresh with
  | nil => rfl
  | cons v vs ih =>
    unfold indentChars indentLines
    split
    · rw [encodeAll_cons, ih]
    · rw [encodeAll_append, encodeAll_append, ih, h]
      cases fresh with
      | true => simp only [↓reduceIte, encodeAll_replicate]
      | false => rfl

/-! ### Letters -/

theorem flatten_pieces {width : Nat} (hw : 0 < width) (s : Bytes) :
    (pieces width s).flatten = s := by
  fun_induction pieces width s with
  | case1 s h =>
    rcases h with rfl | h
    · rfl
    · omega
  | case2 s h ih => rw [List.flatten_cons, ih, List.take_append_drop]

/-- Breaking letters into lines only adds line feeds. -/
theorem filter_base64Lines {s : Bytes} (h : ∀ b ∈ s, b ≠ Bytes.lf) :
    (base64Lines s).filter (· != Bytes.lf) = s := by
  have hself : ∀ {t : Bytes}, (∀ b ∈ t, b ≠ Bytes.lf) → t.filter (· != Bytes.lf) = t := by
    intro t ht
    exact List.filter_eq_self.2 fun b hb => by simpa using ht b hb
  unfold base64Lines
  split
  · exact hself h
  · have hlines : ∀ ls : List Bytes, (∀ l ∈ ls, ∀ b ∈ l, b ≠ Bytes.lf) →
        (Bytes.unlines ls).filter (· != Bytes.lf) = ls.flatten := by
      intro ls
      induction ls with
      | nil => intro _; rfl
      | cons l ls ih =>
        intro hls
        have hrest := ih fun m hm => hls m (by simp [hm])
        unfold Bytes.unlines at hrest ⊢
        rw [List.flatMap_cons, List.filter_append, hrest, List.filter_append,
          hself (hls l (by simp)), List.flatten_cons]
        simp [Bytes.lf]
    rw [hlines, flatten_pieces (by decide)]
    intro l hl b hb
    refine h b ?_
    rw [← flatten_pieces (show 0 < base64Width by decide) s]
    exact List.mem_flatten.2 ⟨l, hl, hb⟩

theorem filter_binaryLetters (s : Bytes) :
    (binaryLetters s).filter (· != Bytes.lf) = Base64.encode s := by
  refine filter_base64Lines fun c hc => ?_
  rintro rfl
  exact absurd (Base64.toNat_of_mem_encode hc).1 (by decide)

theorem mem_binaryLetters {s : Bytes} {b : UInt8} (h : b ∈ binaryLetters s) :
    b ∈ Base64.encode s ∨ b = Bytes.lf := by
  by_cases hb : b = Bytes.lf
  · exact .inr hb
  · rw [← filter_binaryLetters]
    exact .inl (List.mem_filter.2 ⟨h, by simpa using hb⟩)

/-- Reading the letters gives the text back. -/
theorem decode?_binaryLetters (s : Bytes) : Base64.decode? (binaryLetters s) = some s :=
  Base64.decode?_of_filter (filter_binaryLetters s)

theorem binaryLetters_ascii {s : Bytes} {b : UInt8} (h : b ∈ binaryLetters s) :
    b.toNat < 0x80 := by
  rcases mem_binaryLetters h with h | rfl
  · have := Base64.toNat_of_mem_encode h
    omega
  · decide

/-! ### Characters of a scalar -/

theorem chompHint_mem (vs : List Nat) : chompHint vs ∈ [[0x2D], [0x2B], []] := by
  have hminus : Bytes.ofString "-" = [0x2D] := by decide
  have hplus : Bytes.ofString "+" = [0x2B] := by decide
  unfold chompHint
  repeat' split
  all_goals simp [hminus, hplus]

theorem header_printable {step : Nat} {vs : List Nat} {b : UInt8}
    (h : b ∈ indentHint step vs ++ chompHint vs) : 0x20 ≤ b.toNat ∧ b.toNat ≤ 0x7E := by
  rcases List.mem_append.1 h with h | h
  · unfold indentHint at h
    split at h
    · have hb := Decimal.isDigit_of_mem_ofNat h
      simp only [Bytes.isDigit, Bool.and_eq_true, decide_eq_true_eq, UInt8.le_iff_toNat_le,
        UInt8.reduceToNat] at hb
      omega
    · cases h
  · have hall : ∀ hint ∈ [[(0x2D : UInt8)], [0x2B], []], ∀ b ∈ hint,
        0x20 ≤ b.toNat ∧ b.toNat ≤ 0x7E := by decide +kernel
    exact hall _ (chompHint_mem vs) b h

/-- A text in a given style is written with the characters of that style. -/
theorem writeIn_eq {s : Bytes} (hs : encodeAll (Utf8.scalars s) = s) (place : Place)
    (st : Style) : writeIn place s st = encodeAll (charsIn place (Utf8.scalars s) st) := by
  have hdouble : writeDouble s =
      encodeAll (0x22 :: (Utf8.scalars s).flatMap doubleChars ++ [0x22]) := by
    have hflat : encodeAll ((Utf8.scalars s).flatMap doubleChars) =
        (Utf8.scalars s).flatMap doubleValue := by
      rw [encodeAll, List.flatMap_assoc]
      exact congrArg (fun f => (Utf8.scalars s).flatMap f) (funext encodeAll_doubleChars)
    rw [List.cons_append, encodeAll_cons, encodeAll_append, hflat]
    rfl
  cases st with
  | plain => exact hs.symm
  | single =>
    simp only [writeIn, charsIn, writeSingle, List.cons_append, encodeAll_cons, encodeAll_append,
      encodeAll_indentChars encodeAll_singleChars]
    rfl
  | double => exact hdouble
  | literal =>
    have hheader : encodeAll (headerChars place.step (Utf8.scalars s)) =
        0x7C :: (indentHint place.step (Utf8.scalars s) ++ chompHint (Utf8.scalars s)) := by
      rw [headerChars, encodeAll_cons, encodeAll_ascii fun b hb => by
        have := header_printable hb
        omega]
      rfl
    have hgap : encodeAll (if (Utf8.scalars s).head?.any isBreak then [] else [0x0A]) =
        if (Utf8.scalars s).head?.any isBreak then [] else [Bytes.lf] := by
      split <;> rfl
    have hlines : encodeAll (indentChars place.indent (fun v => [v]) true (Utf8.scalars s)) =
        indentLines place.indent Utf8.encode true (Utf8.scalars s) :=
      encodeAll_indentChars (fun v => List.append_nil _) _ _ _
    simp only [writeIn, charsIn, writeLiteral, literalChars, encodeAll_append, hheader, hgap,
      hlines]
  | folded => exact hdouble

/-- **A scalar is written** with its characters. -/
theorem write_eq (place : Place) (s : Bytes) : write place s = encodeAll (chars place s) := by
  unfold write chars
  split
  · next hvalid => exact writeIn_eq (Utf8.encode_scalars hvalid) place _
  · have hscalars := scalars_of_ascii fun b hb => binaryLetters_ascii (s := s) (b := b) hb
    have hletters : encodeAll (Utf8.scalars (binaryLetters s)) = binaryLetters s := by
      rw [hscalars, encodeAll_ascii fun b hb => binaryLetters_ascii hb]
    have htag : encodeAll (ascii Tag.binary.name) = Tag.binary.name := by decide
    have hwrite := writeIn_eq hletters place (style place.inFlow true (binaryLetters s))
    rw [encodeAll_append, encodeAll_cons, htag, ← hscalars, ← hwrite]
    rfl

/-! ### Allowed characters -/

theorem isPrintable_iff {v : Nat} : isPrintable v = true ↔
    v = 0x0A ∨ 0x20 ≤ v ∧ v ≤ 0x7E ∨ 0xA0 ≤ v ∧ v ≤ 0xFFFD ∧ v ≠ 0xFEFF := by
  simp [isPrintable, or_assoc, and_assoc]

theorem isAllowed_of_isPrintable {v : Nat} (hs : IsScalar v) (h : isPrintable v = true) :
    isAllowed v = true := by
  unfold IsScalar at hs
  rw [isPrintable_iff] at h
  rw [isAllowed_iff]
  omega

theorem isAllowed_of_not_isSpecial {v : Nat} (hs : IsScalar v) (h : isSpecial v = false) :
    isAllowed v = true := by
  unfold isSpecial at h
  rcases Bool.and_eq_false_iff.1 h with h | h
  · have hv : v = 0x09 := by simpa using h
    subst hv
    rfl
  · exact isAllowed_of_isPrintable hs (by simpa using h)

theorem isAllowed_of_mem_ascii {s : Bytes} (h : ∀ b ∈ s, 0x20 ≤ b.toNat ∧ b.toNat ≤ 0x7E) :
    ∀ v ∈ ascii s, isAllowed v = true := by
  intro v hv
  obtain ⟨b, hb, rfl⟩ := List.mem_map.1 hv
  have := h b hb
  rw [isAllowed_iff]
  omega

theorem mem_indentChars {indent : Nat} {f : Nat → List Nat} {fresh : Bool} {vs : List Nat} {w : Nat}
    (h : w ∈ indentChars indent f fresh vs) : w = 0x20 ∨ w ∈ vs ∨ ∃ v ∈ vs, w ∈ f v := by
  induction vs generalizing fresh with
  | nil => cases h
  | cons v vs ih =>
    have hrest : (w = 0x20 ∨ w ∈ vs ∨ ∃ v ∈ vs, w ∈ f v) →
        w = 0x20 ∨ w ∈ v :: vs ∨ ∃ u ∈ v :: vs, w ∈ f u := by
      rintro (h | h | ⟨u, hu, hw⟩)
      · exact .inl h
      · exact .inr (.inl (List.mem_cons_of_mem v h))
      · exact .inr (.inr ⟨u, List.mem_cons_of_mem v hu, hw⟩)
    unfold indentChars at h
    split at h
    · rcases List.mem_cons.1 h with rfl | h
      · exact .inr (.inl List.mem_cons_self)
      · exact hrest (ih h)
    · rcases List.mem_append.1 h with h | h
      · rcases List.mem_append.1 h with h | h
        · split at h
          · exact .inl (List.eq_of_mem_replicate h)
          · cases h
        · exact .inr (.inr ⟨v, List.mem_cons_self, h⟩)
      · exact hrest (ih h)

/-- The characters of a text in double quotes are allowed, and so are those in any other style if
the text has no special ones. -/
theorem isAllowed_of_mem_charsIn {place : Place} {vs : List Nat} {st : Style}
    (hs : ∀ v ∈ vs, IsScalar v) (hst : st = .double ∨ ∀ v ∈ vs, isSpecial v = false) :
    ∀ w ∈ charsIn place vs st, isAllowed w = true := by
  have hallowed : (∀ v ∈ vs, isSpecial v = false) → ∀ v ∈ vs, isAllowed v = true :=
    fun h v hv => isAllowed_of_not_isSpecial (hs v hv) (h v hv)
  have hdouble : ∀ w ∈ 0x22 :: vs.flatMap doubleChars ++ [0x22], isAllowed w = true := by
    intro w hw
    rw [List.cons_append, List.mem_cons, List.mem_append, List.mem_singleton] at hw
    rcases hw with rfl | hw | rfl
    · rfl
    · obtain ⟨v, hv, hw⟩ := List.mem_flatMap.1 hw
      unfold doubleChars at hw
      split at hw
      · exact isAllowed_of_mem_ascii (fun b hb => escape_printable hb) w hw
      · next hp =>
        rw [List.mem_singleton.1 hw]
        refine isAllowed_of_isPrintable (hs v hv) ?_
        cases hv' : isPrintable v with
        | true => rfl
        | false => simp [hv'] at hp
    · rfl
  have hlines : (∀ v ∈ vs, isSpecial v = false) → ∀ {f : Nat → List Nat} {fresh : Bool},
      (∀ v, isAllowed v = true → ∀ w ∈ f v, isAllowed w = true) →
      ∀ w ∈ indentChars place.indent f fresh vs, isAllowed w = true := by
    intro hspecial f fresh hf w hw
    rcases mem_indentChars hw with rfl | hw | ⟨v, hv, hw⟩
    · rfl
    · exact hallowed hspecial w hw
    · exact hf v (hallowed hspecial v hv) w hw
  cases st with
  | plain => exact hallowed (hst.resolve_left (by simp))
  | single =>
    intro w hw
    simp only [charsIn, List.cons_append, List.mem_cons, List.mem_append, List.not_mem_nil,
      or_false] at hw
    rcases hw with rfl | hw | rfl
    · rfl
    · refine hlines (hst.resolve_left (by simp)) (fun v hv w hw => ?_) w hw
      unfold singleChars at hw
      split at hw
      · have hw' : w = 0x27 := by simpa using hw
        rw [hw']
        rfl
      · rw [List.mem_singleton.1 hw]
        exact hv
    · rfl
  | double => exact hdouble
  | literal =>
    intro w hw
    simp only [charsIn, literalChars, headerChars, List.cons_append, List.mem_cons,
      List.mem_append] at hw
    rcases hw with rfl | (hw | hw) | hw
    · rfl
    · exact isAllowed_of_mem_ascii (fun b hb => header_printable hb) w hw
    · split at hw
      · cases hw
      · rw [List.mem_singleton.1 hw]
        rfl
    · refine hlines (hst.resolve_left (by simp)) (fun v hv w hw => ?_) w hw
      rw [List.mem_singleton.1 hw]
      exact hv
  | folded => exact hdouble

/-- Why a text has the style that it has. -/
theorem style_cases (inFlow loose : Bool) (s : Bytes) :
    (style inFlow loose s = .literal ∧ 0x0A ∈ Utf8.scalars s ∧ inFlow = false ∧
      literalAllowed (Utf8.scalars s) = true) ∨
    (style inFlow loose s = .plain ∧ loose = true ∧ 0x0A ∉ Utf8.scalars s ∧
      plainAllowed inFlow (Utf8.scalars s) = true) ∨
    (style inFlow loose s = .single ∧ 0x0A ∉ Utf8.scalars s ∧
      singleAllowed (Utf8.scalars s) = true) ∨
    style inFlow loose s = .double := by
  unfold style
  dsimp only
  split
  · next hlf =>
    split
    · next h =>
      simp only [Bool.and_eq_true, Bool.not_eq_true'] at h
      exact .inl ⟨rfl, by simpa using hlf, h⟩
    · exact .inr (.inr (.inr rfl))
  · next hlf =>
    have hlf' : 0x0A ∉ Utf8.scalars s := by simpa using hlf
    split
    · exact .inr (.inr (.inr rfl))
    · next hloose =>
      split
      · next h => exact .inr (.inl ⟨rfl, by simpa using hloose, hlf', h⟩)
      · split
        · next h => exact .inr (.inr (.inl ⟨rfl, hlf', h⟩))
        · exact .inr (.inr (.inr rfl))

/-- A text in any style but double quotes has no special values. -/
theorem style_special (inFlow loose : Bool) (s : Bytes) :
    style inFlow loose s = .double ∨ ∀ v ∈ Utf8.scalars s, isSpecial v = false := by
  have hany : ∀ {p : Nat → Bool}, (Utf8.scalars s).any p = false →
      ∀ v ∈ Utf8.scalars s, p v = false := by
    intro p h v hv
    exact Bool.eq_false_iff.2 (List.any_eq_false.1 h v hv)
  rcases style_cases inFlow loose s with ⟨-, -, -, h⟩ | ⟨-, -, -, h⟩ | ⟨-, -, h⟩ | h
  · simp only [literalAllowed, Bool.not_eq_true', Bool.or_eq_false_iff] at h
    exact .inr (hany h.2)
  · simp only [plainAllowed, Bool.not_eq_true', Bool.or_eq_false_iff] at h
    exact .inr fun v hv => (Bool.or_eq_false_iff.1 (hany h.1.1.1.2 v hv)).2
  · simp only [singleAllowed, Bool.not_eq_true', Bool.or_eq_false_iff] at h
    exact .inr fun v hv => (Bool.or_eq_false_iff.1 (hany h.2 v hv)).2
  · exact .inl h

/-- **The characters of a scalar** may stand in a document. -/
theorem isAllowed_of_mem_chars (place : Place) (s : Bytes) :
    ∀ v ∈ chars place s, isAllowed v = true := by
  unfold chars
  split
  · exact isAllowed_of_mem_charsIn (fun v hv => Utf8.isScalar_of_mem_scalars hv)
      (style_special _ _ s)
  · have hscalars := scalars_of_ascii fun b hb => binaryLetters_ascii (s := s) (b := b) hb
    have htag : ∀ v ∈ ascii Tag.binary.name, isAllowed v = true := by decide
    intro v hv
    rcases List.mem_append.1 hv with hv | hv
    · exact htag v hv
    · rcases List.mem_cons.1 hv with rfl | hv
      · rfl
      · refine isAllowed_of_mem_charsIn ?_ ?_ v hv
        · intro w hw
          obtain ⟨b, hb, rfl⟩ := List.mem_map.1 hw
          have := binaryLetters_ascii hb
          unfold IsScalar
          omega
        · rw [← hscalars]
          exact style_special _ _ _

end Scalar

end ForthFrontend.Yaml
