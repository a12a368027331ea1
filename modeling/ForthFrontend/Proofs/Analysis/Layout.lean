import ForthFrontend.Proofs.Analysis.Append
import Mathlib.Algebra.Order.BigOperators.Group.List
import Mathlib.Algebra.Ring.Int.Defs
import Mathlib.Data.List.Chain

/-!
# The layout of global variables

Sizes and addresses of global variables are 64-bit numbers that wrap. A variable asks for one cell
more than its `ALLOT` says, so it asks for at most `2 ^ 63` cells, and only that greatest size does
not fit into its number. Addresses are sums of sizes and wrap as soon as `2 ^ 63` cells were asked
for. Nothing in the analysis refuses either, so a program is accepted whatever its variables ask
for, and they lie side by side exactly if they ask for little enough.

## Main definitions

* `GlobalVariable.IsLayout`: variables lie side by side in the cells that 64-bit numbers can name.
* `Definition.Demands`: the exact numbers of cells that the variables of a program ask for.

## Main results

* `GlobalVariable.isLayout_cons_iff`: one variable in front of others.
* `GlobalVariable.isLayout_place_iff`: when variables placed one behind another lie side by side.
* `analyze_isLayout_iff_fits`: when the variables of a program do.
-/

namespace ForthFrontend

namespace GlobalVariable

/-! ### Cells -/

/-- The variable has the cell with the given number. -/
def Holds (g : GlobalVariable) (cell : Int) : Prop :=
  g.address.toInt ≤ cell ∧ cell < g.address.toInt + g.size.toInt

/-- The variables lie side by side from the cell `start` on, each of them has a cell, and no cell is
numbered beyond the 64-bit numbers. -/
structure IsLayout (start : Int) (globals : List GlobalVariable) : Prop where
  sized : ∀ g ∈ globals, 1 ≤ g.size.toInt ∧ 0 ≤ g.address.toInt
  first : ∀ g ∈ globals.head?, g.address.toInt = start
  next : globals.IsChain fun g h => h.address.toInt = g.address.toInt + g.size.toInt
  disjoint : globals.Pairwise fun g h => ∀ cell, ¬ (g.Holds cell ∧ h.Holds cell)
  within : ∀ g ∈ globals, ∀ cell, g.Holds cell → 0 ≤ cell ∧ cell ≤ 2 ^ 63 - 1

theorem isLayout_nil (start : Int) : IsLayout start [] where
  sized := by simp
  first := by simp
  next := .nil
  disjoint := .nil
  within := by simp

section Layout

variable {start : Int} {g : GlobalVariable} {globals : List GlobalVariable}

/-- The variables behind the first one lie side by side from its end on. -/
theorem IsLayout.tail (h : IsLayout start (g :: globals)) :
    IsLayout (g.address.toInt + g.size.toInt) globals where
  sized := fun k hk => h.sized k (List.mem_cons_of_mem _ hk)
  first := (List.isChain_cons.1 h.next).1
  next := h.next.tail
  disjoint := h.disjoint.tail
  within := fun k hk => h.within k (List.mem_cons_of_mem _ hk)

/-- No variable has a cell in front of the first one. -/
theorem IsLayout.start_le_address (h : IsLayout start globals) :
    ∀ k ∈ globals, start ≤ k.address.toInt := by
  induction globals generalizing start with
  | nil => simp
  | cons g globals ih =>
    have hfirst : g.address.toInt = start := h.first g rfl
    have hsize := (h.sized g List.mem_cons_self).1
    refine List.forall_mem_cons.2 ⟨Int.le_of_eq hfirst.symm, fun k hk => ?_⟩
    have hbehind := ih h.tail k hk
    omega

/-- **One variable in front of others.** -/
theorem isLayout_cons_iff (hstart : 0 ≤ start) :
    IsLayout start (g :: globals) ↔ g.address.toInt = start ∧ 1 ≤ g.size.toInt ∧
      start + g.size.toInt ≤ 2 ^ 63 ∧ IsLayout (start + g.size.toInt) globals := by
  constructor
  · intro h
    have hfirst : g.address.toInt = start := h.first g rfl
    have hsize := (h.sized g List.mem_cons_self).1
    have hlast := h.within g List.mem_cons_self (start + g.size.toInt - 1)
      ⟨by omega, by omega⟩
    exact ⟨hfirst, hsize, by omega, hfirst ▸ h.tail⟩
  · rintro ⟨hfirst, hsize, hend, h⟩
    refine ⟨List.forall_mem_cons.2 ⟨⟨hsize, by omega⟩, h.sized⟩, ?_, ?_, ?_, ?_⟩
    · intro k hk
      obtain rfl := Option.some.inj hk
      exact hfirst
    · refine List.isChain_cons.2 ⟨fun k hk => ?_, h.next⟩
      rw [h.first k hk, hfirst]
    · refine List.pairwise_cons.2 ⟨fun k hk cell hcell => ?_, h.disjoint⟩
      -- the others begin where this one ends
      have hbehind := h.start_le_address k hk
      have hbefore := hcell.1.2
      have hafter := hcell.2.1
      omega
    · refine List.forall_mem_cons.2 ⟨fun cell hcell => ?_, h.within⟩
      have hlow := hcell.1
      have hhigh := hcell.2
      omega

end Layout

/-! ### Variables one behind another -/

/-- The number of cells that a size stands for. A variable has one cell and up to `2 ^ 63 - 1` more,
so its size is read without a sign. -/
def exactSize (size : Int64) : Int :=
  size.toInt % 2 ^ 64

theorem ofInt_exactSize (size : Int64) : Int64.ofInt (exactSize size) = size := by
  rw [Int64.ofInt_eq_iff_bmod_eq_toInt, exactSize]
  have hlow := size.le_toInt
  have hhigh := size.toInt_lt
  calc (size.toInt % 2 ^ 64).bmod (2 ^ 64) = size.toInt.bmod (2 ^ 64) := Int.emod_bmod _ _
    _ = size.toInt := Int.bmod_eq_of_le (by omega) (by omega)

/-- A size shows as itself exactly if it shows as a size at all. -/
theorem one_le_toInt_iff {size : Int64} (h : 1 ≤ exactSize size) :
    1 ≤ size.toInt ↔ exactSize size < 2 ^ 63 := by
  have hlow := size.le_toInt
  have hhigh := size.toInt_lt
  rw [exactSize] at h ⊢
  omega

theorem toInt_eq_exactSize {size : Int64} (h : exactSize size < 2 ^ 63) :
    size.toInt = exactSize size := by
  have hlow := size.le_toInt
  have hhigh := size.toInt_lt
  rw [exactSize] at h ⊢
  omega

/-- **Variables one behind another** lie side by side exactly if every size fits into its number and
all cells together fit behind `start`. -/
theorem isLayout_place_iff {start : Int} (hlow : 0 ≤ start) (hhigh : start ≤ 2 ^ 63)
    {vars : List (Bytes × Int64)} (hvars : ∀ v ∈ vars, 1 ≤ exactSize v.2) :
    IsLayout start (place (Int64.ofInt start) vars) ↔ (∀ v ∈ vars, exactSize v.2 < 2 ^ 63) ∧
      start + (vars.map fun v => exactSize v.2).sum ≤ 2 ^ 63 := by
  induction vars generalizing start with
  | nil => simpa [place, isLayout_nil] using hhigh
  | cons v vars ih =>
    obtain ⟨name, size⟩ := v
    obtain ⟨hone, hvars⟩ := List.forall_mem_cons.1 hvars
    have hrest : 0 ≤ (vars.map fun v => exactSize v.2).sum := by
      refine List.sum_nonneg fun n hn => ?_
      obtain ⟨v, hv, rfl⟩ := List.mem_map.1 hn
      exact Int.le_trans (by decide) (hvars v hv)
    have hnext : Int64.ofInt start + size = Int64.ofInt (start + exactSize size) := by
      rw [Int64.ofInt_add, ofInt_exactSize]
    rw [place, isLayout_cons_iff hlow, hnext, List.forall_mem_cons, List.map_cons, List.sum_cons]
    simp only at hone ⊢
    rw [one_le_toInt_iff hone]
    by_cases hsize : exactSize size < 2 ^ 63
    · rw [toInt_eq_exactSize hsize]
      by_cases hend : start + exactSize size ≤ 2 ^ 63
      · have hfirst : (Int64.ofInt start).toInt = start :=
          Int64.toInt_ofInt_of_le (by omega) (by omega)
        rw [ih (by omega) hend hvars, ← Int.add_assoc]
        simp only [hfirst, hsize, hend, true_and]
      · simp only [hend, false_and, and_false, false_iff, not_and]
        intro _
        omega
    · simp only [hsize, false_and, and_false]

end GlobalVariable

/-! ### What variables ask for -/

namespace Definition

open GlobalVariable

/-- How a variable is written, and what size this gives it. -/
theorem Written.global_cases {written after : List Atom} {name : Atom} {size : Int64}
    (h : Written written after (.global name size)) :
    ((∃ keyword, written = [keyword, name]) ∧ size = 1) ∨
    ∃ keyword count allot n, written = [keyword, name, count, allot] ∧
      Decimal.readInt64? count.text = some n ∧ 0 ≤ n ∧ size = 1 + n := by
  generalize hd : Definition.global name size = d at h
  cases h with
  | cell =>
    obtain ⟨rfl, rfl⟩ := Definition.global.inj hd
    exact .inl ⟨⟨_, rfl⟩, rfl⟩
  | cells _ _ hcount hn _ =>
    obtain ⟨rfl, rfl⟩ := Definition.global.inj hd
    exact .inr ⟨_, _, _, _, rfl, hcount, hn, rfl⟩
  | word => cases hd
  | library => cases hd
  | external => cases hd
  | constant => cases hd

/-- The variables of the program ask for these numbers of cells: one, or one more than the number in
front of `ALLOT`. -/
inductive Demands : List Atom → List Int → Prop where
  | nil : Demands [] []
  | cell {keyword name : Atom} {after : List Atom} {sizes : List Int}
      (hd : Written [keyword, name] after (.global name 1)) (hafter : Demands after sizes) :
      Demands ([keyword, name] ++ after) (1 :: sizes)
  | cells {keyword name count allot : Atom} {n : Int64} {after : List Atom} {sizes : List Int}
      (hd : Written [keyword, name, count, allot] after (.global name (1 + n)))
      (hcount : Decimal.readInt64? count.text = some n) (hafter : Demands after sizes) :
      Demands ([keyword, name, count, allot] ++ after) ((1 + n.toInt) :: sizes)
  | other {written after : List Atom} {d : Definition} {sizes : List Int}
      (hd : Written written after d) (hlocals : d.LocalsDistinct) (hglobal : d.global? = none)
      (hafter : Demands after sizes) : Demands (written ++ after) sizes

/-- The sizes of the variables among some definitions. -/
def exactSizes (ds : List Definition) : List Int :=
  (ds.filterMap global?).map fun v => exactSize v.2

theorem exactSize_add {n : Int64} (hn : 0 ≤ n) : exactSize (1 + n) = 1 + n.toInt := by
  have hlow : 0 ≤ n.toInt := Int64.le_iff_toInt_le.1 hn
  have hhigh := n.toInt_lt
  rw [exactSize, Int64.toInt_add]
  have hmod : (1 + n.toInt).bmod (2 ^ 64) % 2 ^ 64 = (1 + n.toInt) % 2 ^ 64 := Int.bmod_emod
  rw [show (1 : Int64).toInt = 1 from rfl, hmod]
  omega

theorem exactSizes_global (name : Atom) (size : Int64) (ds : List Definition) :
    exactSizes (.global name size :: ds) = exactSize size :: exactSizes ds := rfl

theorem exactSizes_other {d : Definition} (hd : d.global? = none) (ds : List Definition) :
    exactSizes (d :: ds) = exactSizes ds := by
  rw [exactSizes, List.filterMap_cons_none hd, exactSizes]

/-- **What is asked for is what the definitions say**, as long as sizes are read without a sign. -/
theorem Derives.demands {atoms : List Atom} {ds : List Definition} (h : Derives atoms ds)
    (hlocals : ∀ d ∈ ds, d.LocalsDistinct) : Demands atoms (exactSizes ds) := by
  induction h with
  | nil => exact .nil
  | @cons written after d ds hd _ ih =>
    obtain ⟨hdistinct, hlocals⟩ := List.forall_mem_cons.1 hlocals
    have hafter := ih hlocals
    cases hd with
    | cell hkeyword hname hfollows =>
      exact .cell (.cell hkeyword hname hfollows) hafter
    | cells hkeyword hname hcount hn hallot =>
      rw [exactSizes_global, exactSize_add hn]
      exact .cells (.cells hkeyword hname hcount hn hallot) hcount hafter
    | word hstart hname hitems hstop =>
      exact .other (.word hstart hname hitems hstop) hdistinct rfl hafter
    | library hkeyword hname => exact .other (.library hkeyword hname) hdistinct rfl hafter
    | external hkeyword hname hlibrary hclass hmethod =>
      exact .other (.external hkeyword hname hlibrary hclass hmethod) hdistinct rfl hafter
    | constant hvalue hkeyword hname =>
      exact .other (.constant hvalue hkeyword hname) hdistinct rfl hafter

theorem Demands.exists_derives {atoms : List Atom} {sizes : List Int} (h : Demands atoms sizes) :
    ∃ ds, Derives atoms ds ∧ (∀ d ∈ ds, d.LocalsDistinct) ∧ sizes = exactSizes ds := by
  induction h with
  | nil => exact ⟨[], .nil, by simp, rfl⟩
  | cell hd _ ih =>
    obtain ⟨ds, hds, hlocals, rfl⟩ := ih
    exact ⟨_ :: ds, .cons hd hds, List.forall_mem_cons.2 ⟨List.nodup_nil, hlocals⟩, rfl⟩
  | @cells keyword name count allot n after sizes hd hcount _ ih =>
    obtain ⟨ds, hds, hlocals, rfl⟩ := ih
    have hn : 0 ≤ n := by
      obtain ⟨⟨_, hwritten⟩, -⟩ | ⟨_, _, _, m, hwritten, hcount', hm, -⟩ := hd.global_cases
      · simp at hwritten
      · simp only [List.cons.injEq] at hwritten
        obtain ⟨-, -, rfl, -⟩ := hwritten
        obtain rfl : m = n := Option.some.inj (hcount'.symm.trans hcount)
        exact hm
    exact ⟨_ :: ds, .cons hd hds, List.forall_mem_cons.2 ⟨List.nodup_nil, hlocals⟩,
      by rw [exactSizes_global, exactSize_add hn]⟩
  | other hd hdistinct hglobal _ ih =>
    obtain ⟨ds, hds, hlocals, rfl⟩ := ih
    exact ⟨_ :: ds, .cons hd hds, List.forall_mem_cons.2 ⟨hdistinct, hlocals⟩,
      (exactSizes_other hglobal ds).symm⟩

theorem Derives.demands_iff {atoms : List Atom} {ds : List Definition} (h : Derives atoms ds)
    (hlocals : ∀ d ∈ ds, d.LocalsDistinct) {sizes : List Int} :
    Demands atoms sizes ↔ sizes = exactSizes ds := by
  constructor
  · intro hsizes
    obtain ⟨es, hes, hlocals', rfl⟩ := hsizes.exists_derives
    rw [hes.unique hlocals' h hlocals]
  · rintro rfl
    exact h.demands hlocals

/-- Every variable asks for a cell. -/
theorem Derives.one_le_exactSize {atoms : List Atom} {ds : List Definition} (h : Derives atoms ds) :
    ∀ v ∈ ds.filterMap global?, 1 ≤ exactSize v.2 := by
  induction h with
  | nil => simp
  | @cons written after d ds hd _ ih =>
    cases hglobal : d.global? with
    | none =>
      rw [List.filterMap_cons_none hglobal]
      exact ih
    | some v =>
      rw [List.filterMap_cons_some hglobal]
      refine List.forall_mem_cons.2 ⟨?_, ih⟩
      cases d with
      | «global» name size =>
        obtain rfl := Option.some.inj hglobal
        obtain ⟨-, rfl⟩ | ⟨_, _, _, n, -, -, hn, rfl⟩ := hd.global_cases
        · exact (by decide : 1 ≤ exactSize 1)
        · have hpos : 0 ≤ n.toInt := Int64.le_iff_toInt_le.1 hn
          simp only [exactSize_add hn]
          omega
      | library => cases hglobal
      | constant => cases hglobal
      | word => cases hglobal
      | external => cases hglobal

end Definition

/-- **When variables lie side by side.** The variables of an accepted program ask for certain
numbers of cells. They lie side by side from the cell zero on exactly if none of them asks for
`2 ^ 63` cells and all together ask for no more than that. -/
theorem analyze_isLayout_iff_fits {atoms : List Atom} {t : SymbolTables}
    (h : (analyze false atoms).result = .ok t) :
    ∃ sizes, (∀ others, Definition.Demands atoms others ↔ others = sizes) ∧
      (GlobalVariable.IsLayout 0 t.globals ↔ (∀ n ∈ sizes, n < 2 ^ 63) ∧ sizes.sum ≤ 2 ^ 63) := by
  obtain ⟨ds, hds, hlocals, -, rfl⟩ := Analysis.exists_derives_of_analyze h
  refine ⟨Definition.exactSizes ds, fun others => hds.demands_iff hlocals, ?_⟩
  have hplace : (SymbolTables.of ds).globals =
      GlobalVariable.place (Int64.ofInt 0) (ds.filterMap Definition.global?) := rfl
  rw [hplace, GlobalVariable.isLayout_place_iff (by decide) (by decide) hds.one_le_exactSize,
    Int.zero_add, Definition.exactSizes, List.forall_mem_map]

namespace GreatVariables

open TwoPrograms

/-- The variables `a` and `b` ask for all cells there are, each on its own. -/
def wrapping : List Atom :=
  words ["VARIABLE", "a", "9223372036854775807", "ALLOT", "VARIABLE", "b", "9223372036854775807",
    "ALLOT", "VARIABLE", "c"]

/-- Their sizes show as negative, and `c` gets the address of `a`. -/
def wrappingTables : SymbolTables where
  globals := [⟨"a", Int64.minValue, 0⟩, ⟨"b", Int64.minValue, Int64.minValue⟩, ⟨"c", 1, 0⟩]

/-- The variables `a` and `b` ask for all cells there are together. -/
def filling : List Atom :=
  words ["VARIABLE", "a", "9223372036854775806", "ALLOT", "VARIABLE", "b"]

def fillingTables : SymbolTables where
  globals := [⟨"a", Int64.maxValue, 0⟩, ⟨"b", 1, Int64.maxValue⟩]

theorem analyze_wrapping : (analyze false wrapping).result = .ok wrappingTables := by
  decide +kernel

theorem analyze_filling : (analyze false filling).result = .ok fillingTables := by
  decide +kernel

theorem demands_cells {name count : Bytes} {n : Int64} {after : List Atom} {sizes : List Int}
    (hname : Definition.isName ⟨name, .word, "m", 1⟩ = true)
    (hcount : Decimal.readInt64? count = some n) (hn : 0 ≤ n)
    (hafter : Definition.Demands after sizes) :
    Definition.Demands (words ["VARIABLE", name, count, "ALLOT"] ++ after)
      ((1 + n.toInt) :: sizes) :=
  .cells (.cells (by decide +kernel) (Definition.isName_iff.1 hname) hcount hn (by decide +kernel))
    hcount hafter

theorem demands_cell {name : Bytes} (hname : Definition.isName ⟨name, .word, "m", 1⟩ = true) :
    Definition.Demands (words ["VARIABLE", name]) [1] :=
  .cell (.cell (by decide +kernel) (Definition.isName_iff.1 hname) (by simp)) .nil

theorem demands_wrapping : Definition.Demands wrapping [2 ^ 63, 2 ^ 63, 1] :=
  demands_cells (n := Int64.maxValue) (by decide +kernel) (by decide +kernel) (by decide)
    (demands_cells (n := Int64.maxValue) (by decide +kernel) (by decide +kernel) (by decide)
      (demands_cell (by decide +kernel)))

theorem demands_filling : Definition.Demands filling [2 ^ 63 - 1, 1] :=
  demands_cells (n := 9223372036854775806) (by decide +kernel) (by decide +kernel) (by decide)
    (demands_cell (by decide +kernel))

end GreatVariables

/-- Two variables of `2 ^ 63` cells are accepted, but they have no such cells, and the variable
behind them begins where the first one does; two variables of `2 ^ 63` cells together lie side by
side. -/
theorem analyze_isLayout_iff_fits_greatVariables :
    ((analyze false GreatVariables.wrapping).result = .ok GreatVariables.wrappingTables ∧
      ¬ GlobalVariable.IsLayout 0 GreatVariables.wrappingTables.globals) ∧
    (analyze false GreatVariables.filling).result = .ok GreatVariables.fillingTables ∧
      GlobalVariable.IsLayout 0 GreatVariables.fillingTables.globals := by
  refine ⟨⟨GreatVariables.analyze_wrapping, ?_⟩, GreatVariables.analyze_filling, ?_⟩
  · obtain ⟨sizes, hsizes, hiff⟩ := analyze_isLayout_iff_fits GreatVariables.analyze_wrapping
    obtain rfl := (hsizes _).1 GreatVariables.demands_wrapping
    rw [hiff]
    decide
  · obtain ⟨sizes, hsizes, hiff⟩ := analyze_isLayout_iff_fits GreatVariables.analyze_filling
    obtain rfl := (hsizes _).1 GreatVariables.demands_filling
    rw [hiff]
    decide

end ForthFrontend
