import ForthFrontend.Yaml.Token.Text

/-!
# Moving over white space

What stands between two scalars of a block is a line break and the indentation of the next line.
This module says how far the readers of white space go there. Of the place of a cursor only the
column matters: it decides which block a line belongs to.

## Main definitions

* `Yaml.IsKept`: the line breaks that stand for themselves.
* `Yaml.Stops`: a text that does not begin with white space.
* `Yaml.Sequel`: a text that begins with neither white space nor a comment.

## Main results

* `Yaml.exists_run`: the first characters of a kind.
* `Yaml.readGap_blanks`: reading blanks inside a line.
* `Yaml.readGap_breaks`: reading line breaks and the indentation after them.
-/

namespace ForthFrontend.Yaml

/-- A text begins with a run of characters with a property, as long as possible. -/
theorem exists_run (p : Nat → Bool) (vs : List Nat) :
    ∃ run rest, vs = run ++ rest ∧ (∀ v ∈ run, p v = true) ∧ ∀ v ∈ rest.head?, p v = false := by
  induction vs with
  | nil => exact ⟨[], [], rfl, by simp, by simp⟩
  | cons v vs ih =>
    cases hv : p v with
    | false => exact ⟨[], v :: vs, rfl, by simp, by simpa using hv⟩
    | true =>
      obtain ⟨run, rest, rfl, hrun, hrest⟩ := ih
      exact ⟨v :: run, rest, rfl, List.forall_mem_cons.2 ⟨hv, hrun⟩, hrest⟩

theorem takeWhile_run {α : Type} {p : α → Bool} {run rest : List α} (hrun : ∀ v ∈ run, p v = true)
    (hrest : ∀ v ∈ rest.head?, p v = false) : (run ++ rest).takeWhile p = run := by
  rw [List.takeWhile_append_of_pos hrun]
  cases rest with
  | nil => simp
  | cons v rest => simp [hrest v rfl]

theorem exists_spaces (vs : List Nat) :
    ∃ n rest, vs = List.replicate n 0x20 ++ rest ∧ ∀ v ∈ rest.head?, v ≠ 0x20 := by
  obtain ⟨run, rest, rfl, hrun, hrest⟩ := exists_run (· == 0x20) vs
  have hreplicate : run = List.replicate run.length 0x20 :=
    List.eq_replicate_iff.2 ⟨rfl, fun v hv => by simpa using hrun v hv⟩
  exact ⟨run.length, rest, by rw [← hreplicate], fun v hv => by simpa using hrest v hv⟩

/-- The line breaks that stand for themselves. -/
def IsKept (v : Nat) : Prop :=
  v = 0x0A ∨ v = 0x2028 ∨ v = 0x2029

theorem IsKept.isBreak {v : Nat} (h : IsKept v) : isBreak v = true := by
  rcases h with rfl | rfl | rfl <;> rfl

theorem IsKept.not_isBlank {v : Nat} (h : IsKept v) : isBlank v = false := by
  rcases h with rfl | rfl | rfl <;> rfl

/-- The text does not begin with white space. -/
def Stops (r : List Nat) : Prop :=
  ∀ v ∈ r.head?, isBlank v = false ∧ isBreak v = false

/-- The text begins with neither white space nor a comment. -/
def Sequel (r : List Nat) : Prop :=
  ∀ v ∈ r.head?, isBlank v = false ∧ isBreak v = false ∧ v ≠ 0x23

theorem Sequel.stops {r : List Nat} (h : Sequel r) : Stops r :=
  fun v hv => ⟨(h v hv).1, (h v hv).2.1⟩

theorem stops_nil : Stops [] := by
  intro v hv
  cases hv

theorem stops_cons {v : Nat} {r : List Nat} :
    Stops (v :: r) ↔ isBlank v = false ∧ isBreak v = false := by
  simp [Stops]

theorem sequel_nil : Sequel [] := by
  intro v hv
  cases hv

theorem sequel_cons {v : Nat} {r : List Nat} :
    Sequel (v :: r) ↔ isBlank v = false ∧ isBreak v = false ∧ v ≠ 0x23 := by
  simp [Sequel]

namespace Cursor

@[simp]
theorem rest_advance (c : Cursor) (n : Nat) : (c.advance n).rest = c.rest.drop n := rfl

@[simp]
theorem column_advance (c : Cursor) (n : Nat) :
    (c.advance n).mark.column = c.mark.column + n := rfl

@[simp]
theorem line_advance (c : Cursor) (n : Nat) : (c.advance n).mark.line = c.mark.line := rfl

@[simp]
theorem index_advance (c : Cursor) (n : Nat) : (c.advance n).mark.index = c.mark.index + n := rfl

@[simp]
theorem rest_newLine (c : Cursor) (n : Nat) : (c.newLine n).rest = c.rest.drop n := rfl

@[simp]
theorem column_newLine (c : Cursor) (n : Nat) : (c.newLine n).mark.column = 0 := rfl

theorem advance_advance (c : Cursor) (m n : Nat) :
    (c.advance m).advance n = c.advance (m + n) := by
  unfold advance
  rw [List.take_add, List.all_append, List.drop_drop]
  cases (c.rest.take m).all isBlank
  · simp [Nat.add_assoc]
  · cases ((c.rest.drop m).take n).all isBlank <;> simp [Nat.add_assoc]

theorem advance_zero (c : Cursor) : c.advance 0 = c := rfl

/-- The cursor in front of a line break that stands for itself. -/
theorem takeBreak_of_isKept {c : Cursor} {v : Nat} {r : List Nat} (hv : IsKept v)
    (h : c.rest = v :: r) : c.takeBreak = ([v], c.newLine 1) := by
  unfold takeBreak
  rw [h]
  rcases hv with rfl | rfl | rfl <;> rfl

end Cursor

section Stops

variable {c : Cursor}

theorem atBlank_of_stops (h : Stops c.rest) : c.atBlank = false := by
  unfold Cursor.atBlank Cursor.head?
  cases hr : c.rest with
  | nil => rfl
  | cons v r => exact (stops_cons.1 (hr ▸ h)).1

theorem atBreak_of_stops (h : Stops c.rest) : c.atBreak = false := by
  unfold Cursor.atBreak Cursor.head?
  cases hr : c.rest with
  | nil => rfl
  | cons v r => exact (stops_cons.1 (hr ▸ h)).2

theorem sees_eq_false {v : Nat} (h : ∀ w ∈ c.rest.head?, w ≠ v) : c.sees v = false := by
  rw [Cursor.sees, beq_eq_false_iff_ne]
  intro he
  exact h v he rfl

theorem sees_tab_of_stops (h : Stops c.rest) : c.sees 0x09 = false := by
  refine sees_eq_false ?_
  rintro w hw rfl
  cases (h _ hw).1

theorem atBlank_or_atBreak_of_not_stops (h : ¬ Stops c.rest) :
    (c.atBlank || c.atBreak) = true := by
  unfold Cursor.atBlank Cursor.atBreak Cursor.head?
  cases hr : c.rest with
  | nil => exact absurd (hr ▸ stops_nil) h
  | cons v r =>
    rw [hr, stops_cons] at h
    cases hb : isBlank v <;> cases hk : isBreak v <;> simp_all

end Stops

section Gap

variable {began : Mark} {indent fuel n : Nat} {g : Gap} {c : Cursor} {r : List Nat}

theorem readGap_stop (hc : Stops c.rest) : readGap began indent fuel g c = .ok (g, c) := by
  cases fuel with
  | zero => rfl
  | succ fuel =>
    rw [readGap, atBlank_of_stops hc, atBreak_of_stops hc]
    rfl

/-- Blanks inside a line are kept. -/
theorem readGap_blanks (hc : c.rest = List.replicate n 0x20 ++ r) (hr : Stops r)
    (hg : g.multiline = false) (hf : n ≤ fuel) :
    readGap began indent fuel g c =
      .ok ({ g with blanks := g.blanks ++ List.replicate n 0x20 }, c.advance n) := by
  induction n generalizing fuel g c with
  | zero =>
    rw [readGap_stop (by simpa using hc ▸ hr), Cursor.advance_zero]
    simp
  | succ n ih =>
    obtain ⟨fuel, rfl⟩ : ∃ k, fuel = k + 1 := ⟨fuel - 1, by omega⟩
    rw [List.replicate_succ, List.cons_append] at hc
    have hblank : c.atBlank = true := by
      simp [Cursor.atBlank, Cursor.head?, hc, isBlank]
    rw [readGap, hblank]
    simp only [hg, Bool.false_and, Bool.false_eq_true, ↓reduceIte, hc, List.take_succ_cons,
      List.take_zero]
    rw [Cursor.skip, ih (by simp [hc]) rfl (by omega), Cursor.advance_advance,
      Nat.add_comm 1 n]
    simp [List.replicate_succ]

/-- The indentation of a further line is dropped. -/
theorem readGap_indentation (hc : c.rest = List.replicate n 0x20 ++ r) (hr : Stops r)
    (hg : g.multiline = true) (hf : n ≤ fuel) :
    readGap began indent fuel g c = .ok (g, c.advance n) := by
  induction n generalizing fuel c with
  | zero =>
    rw [readGap_stop (by simpa using hc ▸ hr), Cursor.advance_zero]
  | succ n ih =>
    obtain ⟨fuel, rfl⟩ : ∃ k, fuel = k + 1 := ⟨fuel - 1, by omega⟩
    rw [List.replicate_succ, List.cons_append] at hc
    have hblank : c.atBlank = true := by
      simp [Cursor.atBlank, Cursor.head?, hc, isBlank]
    have htab : c.sees 0x09 = false := by
      simp [Cursor.sees, Cursor.head?, hc]
    rw [readGap, hblank]
    simp only [hg, htab, Bool.and_false, Bool.false_eq_true, ↓reduceIte]
    rw [Cursor.skip, ih (by simp [hc]) (by omega), Cursor.advance_advance, Nat.add_comm 1 n]

theorem atBreak_of_isKept {v : Nat} (hv : IsKept v) (h : c.rest = v :: r) :
    c.atBlank = false ∧ c.atBreak = true := by
  simp [Cursor.atBlank, Cursor.atBreak, Cursor.head?, h, hv.isBreak, hv.not_isBlank]

/-- Further line breaks are kept, and the indentation after them is dropped. -/
theorem readGap_more {br : List Nat} (hc : c.rest = br ++ (List.replicate n 0x20 ++ r))
    (hbr : ∀ v ∈ br, IsKept v) (hr : Stops r) (hg : g.multiline = true)
    (hf : br.length + n ≤ fuel) :
    ∃ c', readGap began indent fuel g c = .ok ({ g with more := g.more ++ br }, c') ∧
      c'.rest = r ∧ c'.mark.column = if br = [] then c.mark.column + n else n := by
  induction br generalizing fuel g c with
  | nil =>
    refine ⟨c.advance n, ?_, by simp [show c.rest = _ from hc], by simp⟩
    rw [readGap_indentation hc hr hg (by simpa using hf)]
    simp
  | cons v br ih =>
    obtain ⟨fuel, rfl⟩ : ∃ k, fuel = k + 1 := ⟨fuel - 1, by simp at hf; omega⟩
    rw [List.cons_append] at hc
    have hv := hbr v (by simp)
    obtain ⟨hblank, hbreak⟩ := atBreak_of_isKept hv hc
    have hlen : br.length + n ≤ fuel := by
      simp only [List.length_cons] at hf
      omega
    obtain ⟨c', hread, hrest, hcol⟩ := ih (g := { g with more := g.more ++ [v] })
      (c := c.newLine 1) (by simp [hc]) (fun w hw => hbr w (by simp [hw])) hg hlen
    refine ⟨c', ?_, hrest, ?_⟩
    · rw [readGap, hblank, hbreak, Cursor.takeBreak_of_isKept hv hc]
      simpa [hg] using hread
    · rw [hcol]
      cases br <;> simp

/-- Line breaks inside a scalar are kept, and the indentation after them is dropped. -/
theorem readGap_breaks {v : Nat} {br : List Nat}
    (hc : c.rest = v :: br ++ (List.replicate n 0x20 ++ r)) (hbr : ∀ w ∈ v :: br, IsKept w)
    (hr : Stops r) (hf : br.length + n < fuel) :
    ∃ c', readGap began indent fuel {} c =
        .ok ({ first := [v], more := br, multiline := true }, c') ∧
      c'.rest = r ∧ c'.mark.column = n := by
  obtain ⟨fuel, rfl⟩ : ∃ k, fuel = k + 1 := ⟨fuel - 1, by omega⟩
  rw [List.cons_append] at hc
  have hv := hbr v (by simp)
  obtain ⟨hblank, hbreak⟩ := atBreak_of_isKept hv hc
  obtain ⟨c', hread, hrest, hcol⟩ : ∃ c', readGap began indent fuel
        { first := [v], multiline := true } (c.newLine 1) =
          .ok ({ first := [v], more := [] ++ br, multiline := true }, c') ∧
      c'.rest = r ∧ c'.mark.column = if br = [] then 0 + n else n :=
    readGap_more (by simp [hc]) (fun w hw => hbr w (by simp [hw])) hr rfl (by omega)
  refine ⟨c', ?_, hrest, ?_⟩
  · rw [readGap, hblank, hbreak, Cursor.takeBreak_of_isKept hv hc]
    simpa using hread
  · rw [hcol]
    simp

end Gap

end ForthFrontend.Yaml
