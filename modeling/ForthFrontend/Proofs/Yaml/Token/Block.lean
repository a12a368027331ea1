import ForthFrontend.Proofs.Yaml.Scalar
import ForthFrontend.Proofs.Yaml.Token.Cursor
import ForthFrontend.Proofs.Yaml.Token.Quoted
import Mathlib.Data.List.Basic

/-!
# Reading literal blocks

The lines of a literal block are read one after another. What is known between two lines are the
text so far, the line break after its last line, and the line breaks of the empty lines after that;
which of these line breaks belong to the text is decided at the end.

Reading does not always give back what was written. The line breaks at the beginning of a text are
written right behind the header, but the first one is taken for the end of the header. And a tab at
the beginning of the first line is refused if the header says nothing about the indentation.

## Main definitions

* `Yaml.IsLines`: a text made of lines.
* `Yaml.Scalar.chompOf`: what the header of a text says about its last line breaks.
* `Yaml.Scalar.readBack`: what a literal block is read as.

## Main results

* `Yaml.blockLines_lines`: reading the lines of a block.
* `Yaml.readBlanks_literal`: where the lines of a literal block begin.
* `Yaml.readBlock_literal`: reading a literal block, up to its first line break.
* `Yaml.readBlock_tab`: a tab at the beginning of a literal block is refused.
-/

namespace ForthFrontend.Yaml

open Scalar (indentChars)

/-! ### Empty lines -/

/-- The characters of the lines of a literal block with the given values. -/
abbrev lineChars (indent : Nat) (fresh : Bool) (vs : List Nat) : List Nat :=
  indentChars indent (fun v => [v]) fresh vs

theorem takeWhile_spaces {n : Nat} {r : List Nat} (hr : ∀ v ∈ r.head?, v ≠ 0x20) :
    (List.replicate n 0x20 ++ r).takeWhile (· == 0x20) = List.replicate n 0x20 := by
  refine takeWhile_run (fun v hv => ?_) fun v hv => by simpa using hr v hv
  rw [List.eq_of_mem_replicate hv]
  rfl

section Blanks

variable {began : Mark} {indent fuel : Nat} {b : Blanks} {col : Nat} {br r : List Nat}

/-- The line breaks of empty lines are kept. -/
theorem readBlanks_breaks (began : Mark) (indent fuel : Nat) (hbr : ∀ v ∈ br, IsKept v)
    (hc : b.cursor.rest = br ++ r) (hcol : b.cursor.mark.column = 0) :
    ∃ b', readBlanks began indent (br.length + fuel) b = readBlanks began indent fuel b' ∧
      b'.breaks = b.breaks ++ br ∧ b'.cursor.rest = r ∧ b'.cursor.mark.column = 0 := by
  induction br generalizing b with
  | nil => exact ⟨b, by simp, by simp, hc, hcol⟩
  | cons v br ih =>
    have hv := hbr v (by simp)
    rw [List.cons_append] at hc
    have hspaces : b.cursor.rest.takeWhile (· == 0x20) = [] := by
      rw [hc]
      rcases hv with rfl | rfl | rfl <;> rfl
    obtain ⟨-, hbreak⟩ := atBreak_of_isKept hv hc
    have htab : b.cursor.sees 0x09 = false := by
      rcases hv with rfl | rfl | rfl <;> simp [Cursor.sees, Cursor.head?, hc]
    obtain ⟨b', hread, hbreaks, hrest⟩ := ih
      (b := { b with
        widest := max b.widest b.cursor.mark.column
        breaks := b.breaks ++ [v]
        cursor := b.cursor.newLine 1 }) (fun w hw => hbr w (by simp [hw])) (by simp [hc]) rfl
    refine ⟨b', ?_, by simpa using hbreaks, hrest⟩
    rw [← hread, List.length_cons, Nat.add_right_comm, readBlanks]
    simp only [hspaces, List.length_nil, Nat.zero_min, ite_self, Cursor.advance_zero, htab, hbreak,
      Cursor.takeBreak_of_isKept hv hc, Bool.and_false, Bool.false_eq_true, ↓reduceIte]

/-- Empty lines and the indentation of the line that follows the block. -/
theorem readBlanks_end (hindent : col < indent) (hr : Stops r) (hbr : ∀ v ∈ br, IsKept v)
    (hc : b.cursor.rest = br ++ (List.replicate col 0x20 ++ r)) (hcol : b.cursor.mark.column = 0)
    (hfuel : br.length < fuel) :
    ∃ b', readBlanks began indent fuel b = .ok b' ∧ b'.breaks = b.breaks ++ br ∧
      b'.cursor.rest = r ∧ b'.cursor.mark.column = col := by
  obtain ⟨k, rfl⟩ : ∃ k, fuel = br.length + (k + 1) := ⟨fuel - br.length - 1, by omega⟩
  obtain ⟨b', hread, hbreaks, hrest, hcol'⟩ := readBlanks_breaks began indent (k + 1) hbr hc hcol
  have hspaces : (b'.cursor.rest.takeWhile (· == 0x20)).length = col := by
    rw [hrest, takeWhile_spaces, List.length_replicate]
    intro v hv he
    have := (hr v hv).1
    rw [he] at this
    cases this
  have hafter : (b'.cursor.advance col).rest = r := by simp [hrest]
  have htab : (b'.cursor.advance col).sees 0x09 = false := sees_tab_of_stops (hafter ▸ hr)
  have hbreak : (b'.cursor.advance col).atBreak = false := atBreak_of_stops (hafter ▸ hr)
  refine ⟨{ b' with
    cursor := b'.cursor.advance col
    widest := max b'.widest (b'.cursor.advance col).mark.column }, ?_, hbreaks, hafter, by
    simp [hcol']⟩
  have hzero : (indent == 0) = false := by simp; omega
  have hmin : min col (indent - 0) = col := by omega
  rw [hread, readBlanks]
  simp only [hspaces, hcol', hzero, hmin, htab, hbreak, Bool.and_false, Bool.false_eq_true,
    ↓reduceIte]

/-- Empty lines and the indentation of the next line of the block. -/
theorem readBlanks_line {v : Nat} (hindent : 0 < indent)
    (hv : isBreak v = false) (hbr : ∀ v ∈ br, IsKept v)
    (hc : b.cursor.rest = br ++ (List.replicate indent 0x20 ++ v :: r))
    (hcol : b.cursor.mark.column = 0) (hfuel : br.length < fuel) :
    ∃ b', readBlanks began indent fuel b = .ok b' ∧ b'.breaks = b.breaks ++ br ∧
      b'.cursor.rest = v :: r ∧ b'.cursor.mark.column = indent := by
  obtain ⟨k, rfl⟩ : ∃ k, fuel = br.length + (k + 1) := ⟨fuel - br.length - 1, by omega⟩
  obtain ⟨b', hread, hbreaks, hrest, hcol'⟩ := readBlanks_breaks began indent (k + 1) hbr hc hcol
  -- a line can begin with spaces of its own
  have hmin : min (b'.cursor.rest.takeWhile (· == 0x20)).length (indent - 0) = indent := by
    have : indent ≤ (b'.cursor.rest.takeWhile (· == 0x20)).length := by
      rw [hrest, List.takeWhile_append_of_pos (by simp), List.length_append,
        List.length_replicate]
      omega
    omega
  have hafter : (b'.cursor.advance indent).rest = v :: r := by simp [hrest]
  have hbreak : (b'.cursor.advance indent).atBreak = false := by
    rw [Cursor.atBreak, Cursor.head?, hafter]
    exact hv
  refine ⟨{ b' with
    cursor := b'.cursor.advance indent
    widest := max b'.widest (b'.cursor.advance indent).mark.column }, ?_, hbreaks, hafter, by
    simp [hcol']⟩
  have hzero : (indent == 0) = false := by simp; omega
  have hcolumn : decide ((b'.cursor.advance indent).mark.column < indent) = false := by
    simp [hcol']
  rw [hread, readBlanks]
  simp only [hcol', hzero, hmin, hcolumn, hbreak, Bool.or_self, Bool.false_and, Bool.false_eq_true,
    ↓reduceIte]

end Blanks

/-! ### Lines -/

section Lines

variable {limit indent fuel col : Nat} {began : Mark} {s : BlockState}

theorem blockLines_stop (h : s.cursor.mark.column ≠ indent) :
    blockLines limit began false indent fuel s = .ok s := by
  cases fuel with
  | zero => rfl
  | succ fuel =>
    have hne : (s.cursor.mark.column != indent) = true := by simpa using h
    rw [blockLines, hne]
    rfl

/-- The state behind a line, its line break and the empty lines after it. -/
def BlockState.behind (s : BlockState) (line : List Nat) (v : Nat) (blanks : Blanks) :
    BlockState where
  text := pushAll (pushAll s.text (s.first ++ s.more)) line
  first := [v]
  more := blanks.breaks
  indented := s.cursor.atBlank
  cursor := blanks.cursor

/-- One line of a block, with its line break and the empty lines after it. -/
theorem blockLines_line {line r : List Nat} {v : Nat} {blanks : Blanks}
    (hline : ∀ w ∈ line, isBreak w = false) (hv : IsKept v) (hc : s.cursor.rest = line ++ v :: r)
    (hcol : s.cursor.mark.column = indent)
    (hblanks : readBlanks began indent limit
      { cursor := (s.cursor.advance line.length).newLine 1 } = .ok blanks) :
    blockLines limit began false indent (fuel + 1) s =
      blockLines limit began false indent fuel (s.behind line v blanks) := by
  have hne : (s.cursor.mark.column != indent) = false := by simpa using hcol
  have hempty : s.cursor.rest.isEmpty = false := by simp [hc]
  have htake : s.cursor.rest.takeWhile (!isBreak ·) = line := by
    rw [hc]
    exact takeWhile_run (fun w hw => by simp [hline w hw]) (by simp [hv.isBreak])
  have hbreak : (s.cursor.advance line.length).takeBreak =
      ([v], (s.cursor.advance line.length).newLine 1) :=
    Cursor.takeBreak_of_isKept hv (r := r) (by simp [hc])
  rw [blockLines]
  simp only [hne, hempty, htake, hbreak, hblanks, BlockState.join, BlockState.behind, Bool.or_self,
    Bool.false_and, Bool.false_eq_true, ↓reduceIte]

end Lines

theorem lineChars_line {indent : Nat} {line : List Nat} (hline : ∀ v ∈ line, isBreak v = false)
    {v : Nat} (hv : isBreak v = true) (rest : List Nat) :
    lineChars indent false (line ++ v :: rest) = line ++ v :: lineChars indent true rest := by
  have hflat : line.flatMap (fun v => [v]) = line := by simp
  rw [lineChars, indentChars_run hline, hflat, indentChars, hv]
  rfl

theorem lineChars_breaks {indent : Nat} {br : List Nat} (hbr : ∀ v ∈ br, isBreak v = true)
    (rest : List Nat) : lineChars indent true (br ++ rest) = br ++ lineChars indent true rest := by
  cases br with
  | nil => rfl
  | cons v br => exact indentChars_breaks hbr (by simp) true rest

/-- A text made of lines: the first of them is not empty, and a line break ends the last one. -/
structure IsLines (vs : List Nat) : Prop where
  head : ∀ v ∈ vs.head?, isBreak v = false
  last : ∃ v, vs.getLast? = some v ∧ isBreak v = true

namespace IsLines

variable {vs : List Nat}

theorem exists_cons (h : IsLines vs) : ∃ v rest, vs = v :: rest ∧ isBreak v = false := by
  cases vs with
  | nil =>
    obtain ⟨v, hv, -⟩ := h.last
    cases hv
  | cons v rest => exact ⟨v, rest, rfl, h.head v rfl⟩

/-- The characters of lines at the beginning of a line are indented. -/
theorem lineChars_true (h : IsLines vs) (indent : Nat) :
    lineChars indent true vs = List.replicate indent 0x20 ++ lineChars indent false vs := by
  obtain ⟨v, rest, rfl, hv⟩ := h.exists_cons
  exact indentChars_fresh hv rest

/-- Lines behind other characters that do not begin with a line break. -/
theorem of_append {front : List Nat} (h : IsLines (front ++ vs)) (hne : vs ≠ [])
    (hhead : ∀ v ∈ vs.head?, isBreak v = false) : IsLines vs := by
  obtain ⟨v, hv, hbreak⟩ := h.last
  refine ⟨hhead, v, ?_, hbreak⟩
  rwa [List.getLast?_append_of_ne_nil _ hne] at hv

/-- The first line with its line break, the empty lines after it, and the lines behind them. -/
theorem exists_line (h : IsLines vs) : ∃ line v br rest, vs = line ++ v :: (br ++ rest) ∧
    line ≠ [] ∧ (∀ w ∈ line, isBreak w = false) ∧ isBreak v = true ∧
    (∀ w ∈ br, isBreak w = true) ∧ (rest = [] ∨ IsLines rest) := by
  obtain ⟨line, rest, rfl, hline, hrest⟩ := exists_run (!isBreak ·) vs
  have hline' : ∀ v ∈ line, isBreak v = false := fun v hv => by simpa using hline v hv
  cases rest with
  | nil =>
    -- the line break at the end stands on no line
    obtain ⟨v, hv, hbreak⟩ := h.last
    rw [List.append_nil] at hv
    rw [hline' v (List.mem_of_getLast? hv)] at hbreak
    cases hbreak
  | cons v rest =>
    have hv : isBreak v = true := by simpa using hrest v rfl
    have hne : line ≠ [] := by
      rintro rfl
      rw [h.head v rfl] at hv
      cases hv
    obtain ⟨br, rest, rfl, hbr, hhead⟩ := exists_run isBreak rest
    refine ⟨line, v, br, rest, rfl, hne, hline', hv, hbr, ?_⟩
    rw [← List.cons_append, ← List.append_assoc] at h
    exact (eq_or_ne rest []).imp_right fun hne => h.of_append hne hhead

end IsLines

/-- Empty lines, and the indentation of the lines that follow them. -/
theorem readBlanks_lines {began : Mark} {indent fuel : Nat} {b : Blanks} {vs br r : List Nat}
    (hvs : IsLines vs) (hindent : 0 < indent) (hbr : ∀ v ∈ br, IsKept v)
    (hc : b.cursor.rest = br ++ (lineChars indent true vs ++ r)) (hcol : b.cursor.mark.column = 0)
    (hfuel : br.length < fuel) :
    ∃ b', readBlanks began indent fuel b = .ok b' ∧ b'.breaks = b.breaks ++ br ∧
      b'.cursor.rest = lineChars indent false vs ++ r ∧ b'.cursor.mark.column = indent := by
  rw [hvs.lineChars_true, List.append_assoc] at hc
  obtain ⟨v, rest, rfl, hv⟩ := hvs.exists_cons
  have hchars : lineChars indent false (v :: rest) ++ r =
      v :: (lineChars indent false rest ++ r) := by
    simp [lineChars, indentChars, hv]
  rw [hchars] at hc ⊢
  exact readBlanks_line hindent hv hbr hc hcol hfuel

/-- What a block is read as: its text up to the last line, and the line breaks after that. -/
structure EndsWith (t : BlockState) (vs : List Nat) : Prop where
  values : t.text.reverse ++ (t.first ++ t.more) = vs
  breaks : ∀ v ∈ t.first ++ t.more, isBreak v = true
  first_length : t.first.length = 1
  last : ∃ v, t.text.head? = some v ∧ isBreak v = false

section Behind

variable {s : BlockState} {line : List Nat} {v : Nat} {b : Blanks}

theorem values_behind (s : BlockState) (line : List Nat) (v : Nat) (b : Blanks) :
    (s.behind line v b).text.reverse ++ ((s.behind line v b).first ++ (s.behind line v b).more) =
      s.text.reverse ++ (s.first ++ s.more) ++ (line ++ v :: b.breaks) := by
  simp [BlockState.behind, pushAll]

theorem endsWith_behind (hne : line ≠ []) (hline : ∀ w ∈ line, isBreak w = false)
    (hv : isBreak v = true) (hbreaks : ∀ w ∈ b.breaks, isBreak w = true) :
    EndsWith (s.behind line v b)
      (s.text.reverse ++ (s.first ++ s.more) ++ (line ++ v :: b.breaks)) where
  values := values_behind s line v b
  breaks := List.forall_mem_cons.2 ⟨hv, hbreaks⟩
  first_length := rfl
  last := by
    obtain ⟨front, u, rfl⟩ := (List.eq_nil_or_concat line).resolve_left hne
    exact ⟨u, by simp [BlockState.behind, pushAll], hline u (by simp)⟩

end Behind

/-- **Reading the lines of a block** that ends with a line break. -/
theorem blockLines_lines {limit indent fuel col : Nat} (began : Mark) {s : BlockState}
    {body r : List Nat} (hbody : IsLines body) (hkept : ∀ v ∈ body, isBreak v = true → IsKept v)
    (hc : s.cursor.rest = lineChars indent false body ++ (List.replicate col 0x20 ++ r))
    (hcolumn : s.cursor.mark.column = indent) (hcol : col < indent) (hr : Stops r)
    (hlimit : s.cursor.rest.length ≤ limit) (hfuel : body.length ≤ fuel) :
    ∃ t, blockLines limit began false indent fuel s = .ok t ∧
      EndsWith t (s.text.reverse ++ (s.first ++ s.more) ++ body) ∧
      t.cursor.rest = r ∧ t.cursor.mark.column = col := by
  -- every step reads the first line, so the induction is on the length of what is left
  induction hn : body.length using Nat.strongRecOn generalizing body s fuel with
  | ind n ih =>
    obtain ⟨line, v, br, rest, rfl, hne, hline, hv, hbr, hrest⟩ := hbody.exists_line
    have hv' := hkept v (by simp) hv
    have hbr' : ∀ w ∈ br, IsKept w := fun w hw => hkept w (by simp [hw]) (hbr w hw)
    simp only [List.length_append, List.length_cons] at hn hfuel
    obtain ⟨fuel, rfl⟩ : ∃ k, fuel = k + 1 := ⟨fuel - 1, by omega⟩
    rw [lineChars_line hline hv, lineChars_breaks hbr, List.append_assoc, List.cons_append,
      List.append_assoc] at hc
    have hafter : ((s.cursor.advance line.length).newLine 1).rest =
        br ++ (lineChars indent true rest ++ (List.replicate col 0x20 ++ r)) := by
      simp [hc]
    have hlength : s.cursor.rest.length = line.length + (br.length +
        (lineChars indent true rest ++ (List.replicate col 0x20 ++ r)).length + 1) := by
      rw [hc, List.length_append, List.length_cons, List.length_append]
    obtain rfl | hlines := hrest
    · obtain ⟨b, hb, hbreaks, hbrest, hbcol⟩ : ∃ b, readBlanks began indent limit
            { cursor := (s.cursor.advance line.length).newLine 1 } = .ok b ∧
          b.breaks = [] ++ br ∧ b.cursor.rest = r ∧ b.cursor.mark.column = col :=
        readBlanks_end hcol hr hbr' hafter rfl (by omega)
      rw [List.nil_append] at hbreaks
      refine ⟨s.behind line v b, ?_, ?_, hbrest, hbcol⟩
      · rw [blockLines_line hline hv' hc hcolumn hb,
          blockLines_stop (by simp only [BlockState.behind]; omega)]
      · rw [List.append_nil, ← hbreaks]
        exact endsWith_behind hne hline hv (hbreaks ▸ hbr)
    · obtain ⟨b, hb, hbreaks, hbrest, hbcol⟩ : ∃ b, readBlanks began indent limit
            { cursor := (s.cursor.advance line.length).newLine 1 } = .ok b ∧
          b.breaks = [] ++ br ∧ b.cursor.rest = lineChars indent false rest ++
            (List.replicate col 0x20 ++ r) ∧ b.cursor.mark.column = indent :=
        readBlanks_lines hlines (by omega) hbr' hafter rfl (by omega)
      rw [List.nil_append] at hbreaks
      have hlimit' : b.cursor.rest.length ≤ limit := by
        rw [hbrest]
        rw [hlines.lineChars_true, List.append_assoc, List.length_append] at hlength
        omega
      obtain ⟨t, ht, hends, hrest'⟩ := ih rest.length (by omega) (s := s.behind line v b) hlines
        (fun w hw => hkept w (by simp [hw])) hbrest hbcol hlimit'
        (show rest.length ≤ fuel by omega) rfl
      refine ⟨t, ?_, ?_, hrest'⟩
      · rw [blockLines_line hline hv' hc hcolumn hb]
        exact ht
      · rw [values_behind, hbreaks, List.append_assoc _ _ rest, List.append_assoc line,
          List.cons_append] at hends
        exact hends

/-! ### The end of a block -/

namespace Scalar

/-- What the header of a text says about the line breaks at its end. -/
def chompOf (vs : List Nat) : Chomp :=
  match vs.reverse with
  | [] => .strip
  | [v] => if isBreak v then .keep else .strip
  | v :: w :: _ => if !isBreak v then .strip else if isBreak w then .keep else .clip

/-- The indicator of what happens to the line breaks at the end of a block. -/
def chompChars : Chomp → List Nat
  | .strip => [0x2D]
  | .clip => []
  | .keep => [0x2B]

theorem ascii_chompHint (vs : List Nat) : ascii (chompHint vs) = chompChars (chompOf vs) := by
  have hminus : ascii (Bytes.ofString "-") = [0x2D] := by decide
  have hplus : ascii (Bytes.ofString "+") = [0x2B] := by decide
  unfold chompHint chompOf
  repeat' split
  all_goals simp_all [chompChars]

theorem chompOf_breaks {vs : List Nat} (hne : vs ≠ []) (h : ∀ v ∈ vs, isBreak v = true) :
    chompOf vs = .keep := by
  obtain ⟨u, w, rfl⟩ := (List.eq_nil_or_concat vs).resolve_left hne
  have hw := h w (by simp)
  rcases List.eq_nil_or_concat u with rfl | ⟨u, x, rfl⟩
  · simp [chompOf, hw]
  · have hx := h x (by simp)
    simp [chompOf, hw, hx]

/-- A line break before a text changes nothing about its end. -/
theorem chompOf_cons {v : Nat} (hv : isBreak v = true) {vs : List Nat} (hne : vs ≠ []) :
    chompOf (v :: vs) = chompOf vs := by
  obtain ⟨u, w, rfl⟩ := (List.eq_nil_or_concat vs).resolve_left hne
  rcases List.eq_nil_or_concat u with rfl | ⟨u, x, rfl⟩
  · cases hw : isBreak w <;> simp [chompOf, hv, hw]
  · simp [chompOf]

end Scalar

/-- The text of a block is what stands before the line breaks at its end. -/
theorem EndsWith.text_eq {t : BlockState} {vs : List Nat} (h : EndsWith t vs) :
    t.text = vs.reverse.dropWhile isBreak := by
  obtain ⟨v, hv, hbreak⟩ := h.last
  obtain ⟨text, htext⟩ := List.head?_eq_some_iff.1 hv
  rw [← h.values, List.reverse_append, List.reverse_reverse,
    List.dropWhile_append_of_pos fun w hw => h.breaks w (List.mem_reverse.1 hw), htext]
  simp [hbreak]

/-- The line breaks at the end that belong to the text are those that the header says. -/
theorem EndsWith.finish_eq {t : BlockState} {vs : List Nat} (h : EndsWith t (endChars vs))
    (hne : vs ≠ []) : (t.finish (Scalar.chompOf vs)).reverse = vs := by
  obtain ⟨u, v, rfl⟩ := (List.eq_nil_or_concat vs).resolve_left hne
  rw [List.concat_eq_append] at h ⊢
  cases hv : isBreak v with
  | false =>
    have hchomp : Scalar.chompOf (u ++ [v]) = .strip := by
      rcases List.eq_nil_or_concat u with rfl | ⟨u, w, rfl⟩ <;> simp [Scalar.chompOf, hv]
    have hended : endChars (u ++ [v]) = u ++ [v] ++ [0x0A] := by simp [endChars, hv]
    have htext := h.text_eq
    rw [hended] at htext
    have hlf : isBreak 0x0A = true := rfl
    rw [hchomp, BlockState.finish, htext]
    simp [hlf, hv]
  | true =>
    have hended : endChars (u ++ [v]) = u ++ [v] := by simp [endChars, hv]
    rw [hended] at h
    have hkeep : (t.finish .keep).reverse = u ++ [v] := by
      rw [BlockState.finish, pushAll, List.reverse_append, List.reverse_reverse, h.values]
    rcases List.eq_nil_or_concat u with rfl | ⟨u, w, rfl⟩
    · have hchomp : Scalar.chompOf ([] ++ [v]) = .keep := by simp [Scalar.chompOf, hv]
      rw [hchomp, hkeep]
    · rw [List.concat_eq_append] at h hkeep ⊢
      cases hw : isBreak w with
      | true =>
        have hchomp : Scalar.chompOf (u ++ [w] ++ [v]) = .keep := by simp [Scalar.chompOf, hv, hw]
        rw [hchomp, hkeep]
      | false =>
        have hchomp : Scalar.chompOf (u ++ [w] ++ [v]) = .clip := by simp [Scalar.chompOf, hv, hw]
        have htext : t.text.reverse = u ++ [w] := by
          rw [h.text_eq]
          simp [hv, hw]
        -- exactly one line break is left for the end
        have hvalues := h.values
        rw [htext, List.append_cancel_left_eq] at hvalues
        have hmore : t.more = [] := by
          have hlen := congrArg List.length hvalues
          rw [List.length_append, h.first_length] at hlen
          simpa using hlen
        rw [hmore, List.append_nil] at hvalues
        rw [hchomp, BlockState.finish, pushAll, hvalues, List.reverse_append, List.reverse_reverse,
          htext]

/-! ### The header -/

namespace Scalar

/-- Does the header say how far the lines are indented? -/
def isHinted (vs : List Nat) : Bool :=
  vs.head?.any fun v => v == 0x20 || isBreak v

/-- The characters between the indicator of a literal block and its first line break. -/
theorem headerChars_eq (vs : List Nat) : headerChars 2 vs =
    0x7C :: ((if isHinted vs then [0x32] else []) ++ chompChars (chompOf vs)) := by
  have htwo : Decimal.ofNat 2 = [0x32] := by decide
  rw [headerChars, ascii_append, ascii_chompHint, indentHint, htwo]
  unfold isHinted
  split <;> rfl

end Scalar

section Header

variable {began : Mark} {c : Cursor} {r : List Nat} {v : Nat}

theorem readIndicators_header {chomp : Chomp} {hinted : Bool} (hv : IsKept v)
    (hc : c.rest = (if hinted then [0x32] else []) ++ Scalar.chompChars chomp ++ v :: r) :
    ∃ c', readIndicators began c = .ok (⟨chomp, if hinted then 2 else 0⟩, c') ∧
      c'.rest = v :: r := by
  cases hinted <;> cases chomp <;> rcases hv with rfl | rfl | rfl
  all_goals
    simp [Scalar.chompChars] at hc
    simp [readIndicators, readChomp, readIncrement, Cursor.sees, Cursor.head?, Cursor.skip, hc]

theorem finishHeader_break (hv : IsKept v) (hc : c.rest = v :: r) :
    finishHeader began c = .ok (c.newLine 1) := by
  have hskip : c.skipWhile isBlank = c := by
    rw [Cursor.skipWhile, hc, List.takeWhile_cons_of_neg (by simp [hv.not_isBlank])]
    rfl
  have hhash : c.sees 0x23 = false := by
    rcases hv with rfl | rfl | rfl <;> simp [Cursor.sees, Cursor.head?, hc]
  have hend : c.atLineEnd = true := by
    simp [Cursor.atLineEnd, Cursor.head?, hc, hv.isBreak]
  simp only [finishHeader, hskip, hhash, hend, Cursor.skipBreak, Cursor.takeBreak_of_isKept hv hc,
    Bool.false_eq_true, ↓reduceIte]

end Header

/-! ### Whole blocks -/

section Detect

variable {began : Mark} {fuel n v : Nat} {c : Cursor} {r : List Nat}
  (hc : c.rest = List.replicate n 0x20 ++ v :: r) (hspace : v ≠ 0x20)

include hc hspace

theorem length_spaces : (c.rest.takeWhile (· == 0x20)).length = n := by
  rw [hc, takeWhile_spaces (by simpa using hspace), List.length_replicate]

/-- Without a hint the first line says how far the lines are indented. -/
theorem readBlanks_detect (hcol : c.mark.column = 0) (htab : v ≠ 0x09)
    (hbreak : isBreak v = false) :
    readBlanks began 0 (fuel + 1) { cursor := c } =
      .ok { breaks := [], widest := n, cursor := c.advance n } := by
  have hafter : (c.advance n).rest = v :: r := by simp [hc]
  have htab' : (c.advance n).sees 0x09 = false := by
    rw [Cursor.sees, Cursor.head?, hafter]
    simpa using htab
  have hbreak' : (c.advance n).atBreak = false := by
    rw [Cursor.atBreak, Cursor.head?, hafter]
    exact hbreak
  rw [readBlanks]
  simp only [length_spaces hc hspace, htab', hbreak', beq_self_eq_true, Bool.and_false,
    Bool.false_eq_true, ↓reduceIte]
  simp [hcol]

/-- Without a hint a tab cannot begin the first line. -/
theorem readBlanks_tab (htab : v = 0x09) :
    readBlanks began 0 (fuel + 1) { cursor := c } =
      .error (.inToken began (c.advance n).mark .tabIndent) := by
  have hsees : (c.advance n).sees 0x09 = true := by
    simp [Cursor.sees, Cursor.head?, hc, htab]
  rw [readBlanks]
  simp only [length_spaces hc hspace, hsees, beq_self_eq_true, Bool.true_or, Bool.true_and,
    ↓reduceIte]

end Detect

theorem getLast?_lineChars (indent : Nat) (fresh : Bool) (vs : List Nat) :
    (lineChars indent fresh vs).getLast? = vs.getLast? := by
  induction vs generalizing fresh with
  | nil => rfl
  | cons v vs ih =>
    unfold lineChars at ih ⊢
    rw [indentChars]
    split
    · rw [List.getLast?_cons, ih, List.getLast?_cons]
    · have hcons : (v :: vs).getLast? = some (vs.getLast?.getD v) := List.getLast?_cons
      rw [List.getLast?_append, ih, List.getLast?_append, hcons]
      cases vs.getLast? <;> rfl

theorem lineChars_append_break (indent : Nat) (fresh : Bool) (vs : List Nat) :
    lineChars indent fresh (vs ++ [0x0A]) = lineChars indent fresh vs ++ [0x0A] := by
  induction vs generalizing fresh with
  | nil => rfl
  | cons v vs ih =>
    unfold lineChars at ih ⊢
    rw [List.cons_append, indentChars, indentChars]
    split <;> simp [ih]

theorem endChars_append {vs : List Nat} (hne : vs ≠ []) (ws : List Nat) :
    endChars (ws ++ vs) = ws ++ endChars vs := by
  unfold endChars
  rw [List.getLast?_append_of_ne_nil ws hne]
  split <;> simp

theorem exists_endChars (v : Nat) (vs : List Nat) : ∃ ws, endChars (v :: vs) = v :: ws := by
  unfold endChars
  split
  · exact ⟨vs, rfl⟩
  · exact ⟨vs ++ [0x0A], rfl⟩

theorem endChars_lineChars (indent : Nat) (vs : List Nat) :
    endChars (lineChars indent true vs) = lineChars indent true (endChars vs) := by
  unfold endChars
  rw [getLast?_lineChars]
  split
  · rfl
  · rw [lineChars_append_break]

namespace Scalar

/-- What a literal block is read as: a line break at the beginning is lost. -/
def readBack (vs : List Nat) : List Nat :=
  if vs.head?.any isBreak then vs.tail else vs

theorem readBack_cons {v : Nat} (vs : List Nat) :
    readBack (v :: vs) = if isBreak v then vs else v :: vs := rfl

/-- The line break that ends the header of a literal block. -/
def headerBreak (vs : List Nat) : Nat :=
  (vs.head?.filter isBreak).getD 0x0A

/-- **The characters of a literal block** with the line break that ends it: the header with a line
break, and lines. -/
theorem endChars_literalChars (indent : Nat) {vs : List Nat} (hne : vs ≠ []) :
    endChars (literalChars ⟨false, indent, 2⟩ vs) =
      headerChars 2 vs ++ headerBreak vs :: lineChars indent true (readBack (endChars vs)) := by
  obtain ⟨v, ws, rfl⟩ := List.exists_cons_of_ne_nil hne
  have hlines : lineChars indent true (v :: ws) ≠ [] := by
    intro h
    have := getLast?_lineChars indent true (v :: ws)
    rw [h, List.getLast?_cons] at this
    cases this
  obtain ⟨us, hus⟩ := exists_endChars v ws
  rw [literalChars, endChars_append hlines, endChars_lineChars, hus, readBack_cons, headerBreak]
  cases hv : isBreak v with
  | true => simp [hv, lineChars, indentChars, Option.filter]
  | false => simp [hv, Option.filter]

theorem isKept_headerBreak {vs : List Nat} (hkept : ∀ v ∈ vs, isBreak v = true → IsKept v) :
    IsKept (headerBreak vs) := by
  unfold headerBreak
  cases vs with
  | nil => exact .inl rfl
  | cons v vs =>
    cases hv : isBreak v with
    | true => simpa [Option.filter, hv] using hkept v (by simp) hv
    | false => simp [Option.filter, hv, IsKept]

/-- The values that the lines of a block are read as are those of the block with its end. -/
theorem readBack_endChars {vs : List Nat} (hne : readBack vs ≠ []) :
    readBack (endChars vs) = endChars (readBack vs) := by
  cases vs with
  | nil => exact absurd rfl hne
  | cons v vs =>
    rw [readBack_cons] at hne ⊢
    split
    · next hv =>
      rw [if_pos hv] at hne
      rw [← List.singleton_append, endChars_append hne, List.singleton_append, readBack_cons,
        if_pos hv]
    · next hv =>
      unfold endChars
      split
      · rw [readBack_cons, if_neg hv]
      · rw [List.cons_append, readBack_cons, if_neg hv]

theorem mem_of_mem_readBack {vs : List Nat} {v : Nat} (h : v ∈ readBack vs) : v ∈ vs := by
  unfold readBack at h
  split at h
  · exact List.mem_of_mem_tail h
  · exact h

/-- A text that is not made of line breaks keeps its end. -/
theorem readBack_of_not_breaks {vs : List Nat} (h : ¬ ∀ v ∈ vs, isBreak v = true) :
    (¬ ∀ v ∈ readBack vs, isBreak v = true) ∧ chompOf (readBack vs) = chompOf vs := by
  cases vs with
  | nil => simp at h
  | cons v vs =>
    rw [readBack_cons]
    split
    · next hv =>
      have hvs : ¬ ∀ w ∈ vs, isBreak w = true := fun hall => h (List.forall_mem_cons.2 ⟨hv, hall⟩)
      have hne : vs ≠ [] := by
        rintro rfl
        simp at hvs
      exact ⟨hvs, (chompOf_cons hv hne).symm⟩
    · exact ⟨h, rfl⟩

end Scalar

section Literal

open Scalar (literalChars headerBreak readBack chompOf isHinted)

variable {limit h col : Nat} {c : Cursor} {vs r : List Nat} (hne : vs ≠ [])
  (hkept : ∀ v ∈ vs, isBreak v = true → IsKept v)
  (hc : c.rest = endChars (literalChars ⟨false, h + 2, 2⟩ vs) ++ r)

include hne hkept hc

/-- The header of a literal block is read, and its lines remain. -/
theorem readBlock_header (limit : Nat) : ∃ c' : Cursor,
    c'.rest = lineChars (h + 2) true (readBack (endChars vs)) ++ r ∧ c'.mark.column = 0 ∧
    c'.rest.length < c.rest.length ∧
    readBlock limit false (some h) c =
      (readBlanks c.mark (if isHinted vs then h + 2 else 0) limit { cursor := c' }).bind fun b =>
        (blockLines limit c.mark false (if isHinted vs then h + 2 else max b.widest (h + 1)) limit
          { more := b.breaks, cursor := b.cursor }).map fun s =>
            { text := s.finish (chompOf vs), cursor := s.cursor } := by
  rw [Scalar.endChars_literalChars (h + 2) hne, Scalar.headerChars_eq] at hc
  have hbreak := Scalar.isKept_headerBreak hkept
  obtain ⟨c₁, hread, hrest⟩ : ∃ c₁, readIndicators c.mark c.skip =
      .ok (⟨chompOf vs, if isHinted vs then 2 else 0⟩, c₁) ∧
      c₁.rest = headerBreak vs :: (lineChars (h + 2) true (readBack (endChars vs)) ++ r) :=
    readIndicators_header hbreak (by simp [Cursor.skip, hc])
  refine ⟨c₁.newLine 1, by simp [hrest], rfl, by simp [hrest, hc]; omega, ?_⟩
  have hmax : max (h + 1) 1 = h + 1 := by omega
  simp only [readBlock, hread, finishHeader_break hbreak hrest, bind, Except.bind, hmax]
  cases isHinted vs <;> rfl

/-- **A tab at the beginning of a literal block** is refused. -/
theorem readBlock_tab (hlimit : 0 < limit) (htab : vs.head? = some 0x09) :
    ∃ e, readBlock limit false (some h) c = .error e := by
  obtain ⟨ws, rfl⟩ := List.head?_eq_some_iff.1 htab
  obtain ⟨c', hrest, -, -, hread⟩ := readBlock_header hne hkept hc limit
  obtain ⟨fuel, rfl⟩ : ∃ k, limit = k + 1 := ⟨limit - 1, by omega⟩
  obtain ⟨us, hus⟩ := exists_endChars 0x09 ws
  have hline : c'.rest = List.replicate (h + 2) 0x20 ++
      0x09 :: (lineChars (h + 2) false us ++ r) := by
    rw [hrest, hus]
    simp [Scalar.readBack_cons, isBreak, lineChars, indentChars]
  rw [hread, show isHinted (0x09 :: ws) = false from rfl, if_neg (by simp),
    readBlanks_tab hline (by decide) rfl]
  exact ⟨_, rfl⟩

end Literal

theorem getLast?_endChars (vs : List Nat) :
    ∃ v, (endChars vs).getLast? = some v ∧ isBreak v = true := by
  unfold endChars
  split
  · next h => exact (Option.any_eq_true ..).1 h
  · exact ⟨0x0A, by simp, rfl⟩

theorem mem_endChars {vs : List Nat} {v : Nat} (h : v ∈ endChars vs) : v ∈ vs ∨ v = 0x0A := by
  unfold endChars at h
  split at h
  · exact .inl h
  · simpa using h

theorem mem_endChars_of_mem {vs : List Nat} {v : Nat} (h : v ∈ vs) : v ∈ endChars vs := by
  unfold endChars
  split
  · exact h
  · exact List.mem_append_left _ h

/-- A text that is not made of line breaks consists of empty lines and of lines behind them, once
a line break ends it. -/
theorem exists_lines {vs : List Nat} (h : ¬ ∀ v ∈ vs, isBreak v = true) :
    ∃ br body, endChars vs = br ++ body ∧ (∀ v ∈ br, isBreak v = true) ∧ IsLines body := by
  obtain ⟨br, body, hsplit, hbr, hhead⟩ := exists_run isBreak (endChars vs)
  have hne : body ≠ [] := by
    rintro rfl
    rw [List.append_nil] at hsplit
    exact h fun v hv => hbr v (hsplit ▸ mem_endChars_of_mem hv)
  refine ⟨br, body, hsplit, hbr, hhead, ?_⟩
  obtain ⟨v, hv, hbreak⟩ := getLast?_endChars vs
  rw [hsplit, List.getLast?_append_of_ne_nil br hne] at hv
  exact ⟨v, hv, hbreak⟩

section Literal

open Scalar (literalChars readBack chompOf isHinted)

variable {limit h col : Nat} {c : Cursor} {vs r : List Nat}

/-- A text whose header says nothing about the indentation begins with a line. -/
theorem exists_cons_of_not_isHinted {br body : List Nat} (hne : vs ≠ [])
    (hhint : isHinted vs = false) (hbody : endChars (readBack vs) = br ++ body)
    (hbr : ∀ v ∈ br, isBreak v = true) :
    ∃ v rest, vs.head? = some v ∧ v ≠ 0x20 ∧ isBreak v = false ∧ br = [] ∧ body = v :: rest := by
  obtain ⟨v, ws, rfl⟩ := List.exists_cons_of_ne_nil hne
  obtain ⟨hspace, hbreak⟩ : v ≠ 0x20 ∧ isBreak v = false := by simpa [isHinted] using hhint
  obtain ⟨us, hus⟩ := exists_endChars v ws
  rw [Scalar.readBack_cons, if_neg (by simp [hbreak]), hus] at hbody
  cases br with
  | nil => exact ⟨v, us, rfl, hspace, hbreak, rfl, hbody.symm⟩
  | cons w br =>
    rw [← (List.cons.inj hbody).1] at hbr
    exact absurd (hbr v List.mem_cons_self) (by simp [hbreak])

/-- **Where the lines of a literal block begin**: in the same column whether the header says so or
not. -/
theorem readBlanks_literal (began : Mark) {br body : List Nat} (hne : vs ≠ [])
    (htab : vs.head? ≠ some 0x09) (hbody : endChars (readBack vs) = br ++ body)
    (hbr : ∀ v ∈ br, IsKept v) (hlines : IsLines body)
    (hc : c.rest = br ++ (lineChars (h + 2) true body ++ r)) (hcol : c.mark.column = 0)
    (hlimit : br.length < limit) :
    ∃ b, readBlanks began (if isHinted vs then h + 2 else 0) limit { cursor := c } = .ok b ∧
      b.breaks = br ∧ b.cursor.rest = lineChars (h + 2) false body ++ r ∧
      b.cursor.mark.column = h + 2 ∧
      (if isHinted vs then h + 2 else max b.widest (h + 1)) = h + 2 := by
  cases hhint : isHinted vs with
  | true =>
    obtain ⟨b, hb, hbreaks, hrest, hcol'⟩ : ∃ b,
        readBlanks began (h + 2) limit { cursor := c } = .ok b ∧ b.breaks = [] ++ br ∧
        b.cursor.rest = lineChars (h + 2) false body ++ r ∧ b.cursor.mark.column = h + 2 :=
      readBlanks_lines hlines (by omega) hbr hc hcol hlimit
    exact ⟨b, hb, hbreaks, hrest, hcol', rfl⟩
  | false =>
    obtain ⟨v, rest, hhead, hspace, hbreak, rfl, rfl⟩ :=
      exists_cons_of_not_isHinted hne hhint hbody fun v hv => (hbr v hv).isBreak
    have hline : lineChars (h + 2) false (v :: rest) = v :: lineChars (h + 2) false rest := by
      simp [lineChars, indentChars, hbreak]
    rw [hlines.lineChars_true, hline, List.nil_append, List.append_assoc, List.cons_append] at hc
    have htab' : v ≠ 0x09 := by simpa [hhead] using htab
    obtain ⟨fuel, rfl⟩ : ∃ k, limit = k + 1 := ⟨limit - 1, by omega⟩
    refine ⟨_, readBlanks_detect hc hspace hcol htab' hbreak, rfl, ?_, ?_, ?_⟩
    · simp [hc, hline]
    · simp [hcol]
    · simp

/-- A text of line breaks is read up to the first of them. -/
theorem readBlock_breaks (hne : vs ≠ []) (hkept : ∀ v ∈ vs, IsKept v)
    (hc : c.rest = endChars (literalChars ⟨false, h + 2, 2⟩ vs) ++ (List.replicate col 0x20 ++ r))
    (hcol : col ≤ h) (hr : Stops r) (hlimit : c.rest.length ≤ limit) :
    ∃ t, readBlock limit false (some h) c = .ok t ∧ t.text.reverse = readBack vs ∧
      t.cursor.rest = r ∧ t.cursor.mark.column = col := by
  obtain ⟨c', hrest, hcol', hlen, hread⟩ := readBlock_header hne (fun v hv _ => hkept v hv) hc limit
  obtain ⟨v, br, rfl⟩ := List.exists_cons_of_ne_nil hne
  have hv := (hkept v (by simp)).isBreak
  have hbr : ∀ w ∈ br, IsKept w := fun w hw => hkept w (by simp [hw])
  have hbody : readBack (endChars (v :: br)) = br := by
    have hlast : (v :: br).getLast?.any isBreak = true := by
      rw [List.getLast?_eq_some_getLast hne]
      exact (hkept _ (List.getLast_mem hne)).isBreak
    rw [endChars, if_pos hlast, Scalar.readBack_cons, if_pos hv]
  have hlines : lineChars (h + 2) true br = br := by
    simpa [lineChars, indentChars] using lineChars_breaks (fun w hw => (hbr w hw).isBreak) []
  rw [hbody, hlines] at hrest
  have hhint : isHinted (v :: br) = true := by simp [isHinted, hv]
  obtain ⟨b, hb, hbreaks, hbrest, hbcol⟩ : ∃ b,
      readBlanks c.mark (h + 2) limit { cursor := c' } = .ok b ∧ b.breaks = [] ++ br ∧
        b.cursor.rest = r ∧ b.cursor.mark.column = col :=
    readBlanks_end (by omega) hr hbr hrest hcol' (by simp [hrest] at hlen; omega)
  refine ⟨{ text := br.reverse, cursor := b.cursor }, ?_, ?_, hbrest, hbcol⟩
  · rw [hread, hhint, if_pos rfl, hb, Except.bind, if_pos rfl, blockLines_stop (by simp; omega),
      Scalar.chompOf_breaks hne fun w hw => (hkept w hw).isBreak]
    simp [BlockState.finish, pushAll, hbreaks, Except.map]
  · simp [Scalar.readBack_cons, hv]

/-- **Reading a literal block**: a line break at the beginning is lost. -/
theorem readBlock_literal (hne : vs ≠ []) (hkept : ∀ v ∈ vs, isBreak v = true → IsKept v)
    (htab : vs.head? ≠ some 0x09)
    (hc : c.rest = endChars (literalChars ⟨false, h + 2, 2⟩ vs) ++ (List.replicate col 0x20 ++ r))
    (hcol : col ≤ h) (hr : Stops r) (hlimit : c.rest.length ≤ limit) :
    ∃ t, readBlock limit false (some h) c = .ok t ∧ t.text.reverse = readBack vs ∧
      t.cursor.rest = r ∧ t.cursor.mark.column = col := by
  by_cases hall : ∀ v ∈ vs, isBreak v = true
  · exact readBlock_breaks hne (fun v hv => hkept v hv (hall v hv)) hc hcol hr hlimit
  obtain ⟨c', hrest, hcol', hlen, hread⟩ := readBlock_header hne hkept hc limit
  obtain ⟨hall', hchomp⟩ := Scalar.readBack_of_not_breaks hall
  have hsome : readBack vs ≠ [] := by
    intro he
    simp [he] at hall'
  rw [Scalar.readBack_endChars hsome] at hrest
  obtain ⟨br, body, hbody, hbr, hlines⟩ := exists_lines hall'
  have hmem : ∀ v ∈ br ++ body, isBreak v = true → IsKept v := by
    intro v hv hbreak
    rcases mem_endChars (hbody ▸ hv) with hv | rfl
    · exact hkept v (Scalar.mem_of_mem_readBack hv) hbreak
    · exact .inl rfl
  rw [hbody, lineChars_breaks hbr, List.append_assoc] at hrest
  have hsize : br.length + body.length ≤ c'.rest.length := by
    have hle : body.length ≤ (lineChars (h + 2) true body).length :=
      length_le_indentChars (h + 2) (by simp) true body
    rw [hrest, List.length_append, List.length_append]
    omega
  obtain ⟨b, hb, hbreaks, hbrest, hbcol, hindent⟩ :=
    readBlanks_literal c.mark hne htab hbody
      (fun v hv => hmem v (List.mem_append_left _ hv) (hbr v hv)) hlines hrest hcol'
      (show br.length < limit by omega)
  have hlimit' : b.cursor.rest.length ≤ limit := by
    rw [hrest, hlines.lineChars_true] at hlen
    rw [hbrest]
    simp only [List.length_append] at hlen ⊢
    omega
  obtain ⟨t, ht, hends, hrest', hcol''⟩ :=
    blockLines_lines c.mark (s := { more := b.breaks, cursor := b.cursor }) hlines
      (fun v hv => hmem v (List.mem_append_right br hv)) hbrest hbcol (by omega) hr hlimit'
      (show body.length ≤ limit by omega)
  refine ⟨{ text := t.finish (chompOf vs), cursor := t.cursor }, ?_, ?_, hrest', hcol''⟩
  · rw [hread, hb, Except.bind, hindent, ht]
    rfl
  · rw [← hchomp]
    refine EndsWith.finish_eq ?_ hsome
    rw [hbody]
    simpa [hbreaks] using hends

end Literal

end ForthFrontend.Yaml
