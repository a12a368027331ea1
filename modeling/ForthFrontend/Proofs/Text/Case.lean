import ForthFrontend.Proofs.Text.Utf8
import ForthFrontend.Text.Case
import Mathlib.Data.List.Chain
import Mathlib.Data.List.Forall2

/-!
# Upper case and folding

Letters have two notions of case: two letters agree if they have the same upper-case form, or if
they have the same folding. Both mappings are given by ordered tables of runs. Folding a letter and
folding its upper-case form come to the same, and so do the upper-case forms of a letter and of its
folding, with six letters as exceptions. So the two notions agree except where one of these six
letters is compared with a letter that it agrees with under one notion only.

## Main definitions

* `Case.Ordered`: the runs of a table lie one behind another.
* `Case.near`: the part of an ordered table that can move the values of a range.
* `Case.Irregular`: the pairs of letters on which the two notions of case differ.
* `Bytes.Confusable`: the pairs of texts on which they differ.

## Main results

* `Case.move_move`: when moving a value by one table does not change where another one moves it.
* `Case.irregular_iff`: the irregular pairs are those on which the notions differ.
* `Bytes.toUpper_eq_iff_equalFold_iff`: the same for texts.
-/

namespace ForthFrontend

namespace Case

/-! ### Runs -/

namespace CaseRun

/-- Where the run moves `v`. -/
def image (run : CaseRun) (v : Nat) : Nat :=
  (v + run.shift).toNat

/-- What the run moves to `c`, if it holds it. -/
def preimage (run : CaseRun) (c : Nat) : Nat :=
  (c - run.shift).toNat

/-- The values that the run moves. -/
def members (run : CaseRun) : List Nat :=
  (List.range ((run.last - run.first) / run.step + 1)).map fun i => run.first + run.step * i

theorem holds_iff {run : CaseRun} {v : Nat} :
    run.holds v = true ↔
      run.first ≤ v ∧ v ≤ run.last ∧ (v - run.first) % run.step = 0 := by
  simp [holds, and_assoc]

theorem mem_members_of_holds {run : CaseRun} {v : Nat} (h : run.holds v = true) :
    v ∈ run.members := by
  obtain ⟨hfirst, hlast, hstep⟩ := holds_iff.1 h
  refine List.mem_map.2 ⟨(v - run.first) / run.step, List.mem_range.2 ?_, ?_⟩
  · exact Nat.lt_succ_of_le (Nat.div_le_div_right (Nat.sub_le_sub_right hlast _))
  · rw [Nat.mul_div_cancel' (Nat.dvd_of_mod_eq_zero hstep)]
    omega

theorem image_mono (run : CaseRun) {v w : Nat} (h : v ≤ w) : run.image v ≤ run.image w := by
  simp only [image]
  omega

/-- Every value of `r` is less than every value of `s`. -/
def Before (r s : CaseRun) : Prop :=
  r.first ≤ r.last ∧ r.last < s.first

instance (r s : CaseRun) : Decidable (r.Before s) :=
  inferInstanceAs (Decidable (_ ∧ _))

instance : IsTrans CaseRun Before where
  trans r s t hrs hst := ⟨hrs.1, by
    have := hrs.2
    have := hst.1
    have := hst.2
    omega⟩

end CaseRun

/-! ### Tables -/

/-- What a table does to a value: it leaves it where it is, or one of its runs moves it. -/
theorem move_cases (runs : List CaseRun) (v : Nat) :
    move runs v = v ∨ ∃ run ∈ runs, run.holds v = true ∧ move runs v = run.image v := by
  rw [move]
  cases hfind : runs.find? (·.holds v) with
  | none => exact .inl rfl
  | some run =>
    have hholds : run.holds v = true := by simpa using List.find?_some hfind
    exact .inr ⟨run, List.mem_of_find?_eq_some hfind, hholds, rfl⟩

/-- A value that every run passes by is moved by none. -/
theorem find?_eq_none {runs : List CaseRun} {v : Nat}
    (h : ∀ run ∈ runs, v < run.first ∨ run.last < v) : runs.find? (·.holds v) = none := by
  refine List.find?_eq_none.2 fun run hrun hholds => ?_
  obtain ⟨hfirst, hlast, -⟩ := CaseRun.holds_iff.1 hholds
  have := h run hrun
  omega

/-- The runs lie one behind another. -/
def Ordered (runs : List CaseRun) : Prop :=
  runs.Pairwise CaseRun.Before

theorem ordered_of_isChain {runs : List CaseRun} (h : runs.IsChain CaseRun.Before) :
    Ordered runs :=
  List.isChain_iff_pairwise.1 h

/-- The part of an ordered table that can move values from `lo` to `hi`, found by halving the table
`depth` times. -/
def near : Nat → List CaseRun → Nat → Nat → List CaseRun
  | 0, runs, _, _ => runs
  | depth + 1, runs, lo, hi =>
    match runs.drop (runs.length / 2) with
    | [] => runs
    | pivot :: back =>
      let front := runs.take (runs.length / 2)
      if hi < pivot.first then near depth front lo hi
      else if pivot.first ≤ lo then near depth (pivot :: back) lo hi
      else near depth front lo hi ++ near depth (pivot :: back) lo hi

theorem find?_near (depth : Nat) {runs : List CaseRun} (hruns : Ordered runs) {lo hi v : Nat}
    (hlo : lo ≤ v) (hhi : v ≤ hi) :
    (near depth runs lo hi).find? (·.holds v) = runs.find? (·.holds v) := by
  induction depth generalizing runs with
  | zero => rfl
  | succ depth ih =>
    rw [near]
    split
    · rfl
    · next pivot back hdrop =>
      have hsplit : runs = runs.take (runs.length / 2) ++ pivot :: back := by
        rw [← hdrop, List.take_append_drop]
      have hpairs := hruns
      rw [Ordered, hsplit, List.pairwise_append, List.pairwise_cons] at hpairs
      obtain ⟨hfront, ⟨hpivot, hback⟩, hacross⟩ := hpairs
      have hfront' := ih hfront
      have hback' : (near depth (pivot :: back) lo hi).find? (·.holds v) =
          (pivot :: back).find? (·.holds v) :=
        ih (List.pairwise_cons.2 ⟨hpivot, hback⟩)
      conv_rhs => rw [hsplit, List.find?_append]
      simp only
      split
      · next hlt =>
        -- the pivot begins past `v`, and so does what lies behind it
        have hpast : ∀ run ∈ pivot :: back, v < run.first := by
          intro run hrun
          rcases List.mem_cons.1 hrun with rfl | hrun
          · exact Nat.lt_of_le_of_lt hhi hlt
          · obtain ⟨hpivot', hrun'⟩ := hpivot run hrun
            omega
        rw [hfront', find?_eq_none fun run hrun => .inl (hpast run hrun), Option.or_none]
      · split
        · next hle =>
          -- what lies in front of the pivot ends before `v`
          have hpassed : ∀ run ∈ runs.take (runs.length / 2), run.last < v := by
            intro run hrun
            have := (hacross run hrun pivot List.mem_cons_self).2
            omega
          rw [hback', find?_eq_none fun run hrun => .inr (hpassed run hrun), Option.none_or]
        · rw [List.find?_append, hfront', hback']

theorem move_near (depth : Nat) {runs : List CaseRun} (hruns : Ordered runs) {lo hi v : Nat}
    (hlo : lo ≤ v) (hhi : v ≤ hi) : move (near depth runs lo hi) v = move runs v := by
  rw [move, find?_near depth hruns hlo hhi, move]

/-- Do the runs move each value of `run` and its image to one place, those in `odd` aside? -/
def meets (runs : List CaseRun) (odd : List Nat) (run : CaseRun) : Bool :=
  let atImages := near 8 runs (run.image run.first) (run.image run.last)
  let atValues := near 8 runs run.first run.last
  run.members.all fun v => move atImages (run.image v) == move atValues v || odd.contains v

/-- **Moving a value first** by another table does not change where a table moves it, if it does not
for the values of each run. -/
theorem move_move {runs others : List CaseRun} {odd : List Nat} (hruns : Ordered runs)
    (hothers : others.all (meets runs odd) = true) {v : Nat} (hv : v ∉ odd) :
    move runs (move others v) = move runs v := by
  obtain hstays | ⟨run, hrun, hholds, hmove⟩ := move_cases others v
  · rw [hstays]
  · obtain ⟨hfirst, hlast, -⟩ := CaseRun.holds_iff.1 hholds
    have hmeets := List.all_eq_true.1 (List.all_eq_true.1 hothers run hrun) v
      (CaseRun.mem_members_of_holds hholds)
    simp only [Bool.or_eq_true, List.contains_iff_mem, hv, or_false, beq_iff_eq] at hmeets
    rw [move_near 8 hruns (run.image_mono hfirst) (run.image_mono hlast),
      move_near 8 hruns hfirst hlast] at hmeets
    rw [hmove, hmeets]

/-- A table that begins with letters below 0x80 and goes on above. -/
theorem move_cons {letters : CaseRun} {runs : List CaseRun} (hletters : letters.last < 0x80)
    (hruns : ∀ run ∈ runs, 0x80 ≤ run.first) (v : Nat) :
    move (letters :: runs) v =
      if v < 0x80 then if letters.holds v then letters.image v else v else move runs v := by
  cases hholds : letters.holds v with
  | true =>
    have hlast := (CaseRun.holds_iff.1 hholds).2.1
    rw [move, List.find?_cons, hholds, if_pos (by omega), if_pos rfl]
    rfl
  | false =>
    rw [move, List.find?_cons, hholds]
    by_cases hv : v < 0x80
    · have hpast : ∀ run ∈ runs, v < run.first := by
        intro run hrun
        exact Nat.lt_of_lt_of_le hv (hruns run hrun)
      rw [if_pos hv, find?_eq_none fun run hrun => .inl (hpast run hrun)]
      rfl
    · rw [if_neg hv, move]

/-! ### The two mappings -/

/-- The runs of the upper-case mapping, those below 0x80 included. -/
def upperTable : List CaseRun :=
  ⟨0x61, 0x7A, 1, -32⟩ :: upperRuns

/-- The runs of folding, those below 0x80 included. -/
def foldTable : List CaseRun :=
  ⟨0x41, 0x5A, 1, 32⟩ :: foldRuns

theorem upper_eq_move (v : Nat) : upper v = move upperTable v := by
  rw [upperTable, move_cons (by decide) (by decide +kernel), upper]
  congr 1
  by_cases hv : 0x61 ≤ v ∧ v ≤ 0x7A
  · rw [if_pos hv, if_pos (CaseRun.holds_iff.2 ⟨hv.1, hv.2, Nat.mod_one _⟩)]
    simp only [CaseRun.image]
    omega
  · rw [if_neg hv, if_neg fun h => hv ⟨(CaseRun.holds_iff.1 h).1, (CaseRun.holds_iff.1 h).2.1⟩]

theorem fold_eq_move (v : Nat) : fold v = move foldTable v := by
  rw [foldTable, move_cons (by decide) (by decide +kernel), fold]
  congr 1
  by_cases hv : 0x41 ≤ v ∧ v ≤ 0x5A
  · rw [if_pos hv, if_pos (CaseRun.holds_iff.2 ⟨hv.1, hv.2, Nat.mod_one _⟩)]
    rfl
  · rw [if_neg hv, if_neg fun h => hv ⟨(CaseRun.holds_iff.1 h).1, (CaseRun.holds_iff.1 h).2.1⟩]

theorem ordered_upperTable : Ordered upperTable :=
  ordered_of_isChain (by decide +kernel)

theorem ordered_foldTable : Ordered foldTable :=
  ordered_of_isChain (by decide +kernel)

/-- The letters that agree with others under one notion of case only, each with these others. The
dotless i has the upper-case form `I`; the theta symbol, the capital sharp s and the ohm, kelvin and
angstrom signs have the foldings of other letters. -/
def strays : List (Nat × List Nat) :=
  [(0x131, [0x49, 0x69]), (0x3F4, [0x398, 0x3B8, 0x3D1]), (0x1E9E, [0xDF]),
    (0x2126, [0x3A9, 0x3C9]), (0x212A, [0x4B, 0x6B]), (0x212B, [0xC5, 0xE5])]

/-- **The upper-case form of a letter** that is no stray has the folding of the letter. -/
theorem fold_upper {v : Nat} (hv : v ∉ strays.map Prod.fst) : fold (upper v) = fold v := by
  rw [upper_eq_move, fold_eq_move, fold_eq_move]
  exact move_move ordered_foldTable (by decide +kernel) hv

/-- **The folding of a letter** that is no stray has the upper-case form of the letter. -/
theorem upper_fold {v : Nat} (hv : v ∉ strays.map Prod.fst) : upper (fold v) = upper v := by
  rw [fold_eq_move, upper_eq_move, upper_eq_move]
  exact move_move ordered_upperTable (by decide +kernel) hv

theorem isScalar_upper {v : Nat} (hv : Utf8.IsScalar v) : Utf8.IsScalar (upper v) := by
  rw [upper_eq_move]
  obtain hstays | ⟨run, hrun, hholds, hmove⟩ := move_cases upperTable v
  · rw [hstays]
    exact hv
  · have hbounds : ∀ run ∈ upperTable, run.image run.last < 0xD800 ∨
        0xDFFF < run.image run.first ∧ run.image run.last ≤ 0x10FFFF := by
      decide +kernel
    obtain ⟨hfirst, hlast, -⟩ := CaseRun.holds_iff.1 hholds
    have := hbounds run hrun
    have := run.image_mono hfirst
    have := run.image_mono hlast
    rw [hmove, Utf8.IsScalar]
    omega

/-! ### Irregular pairs -/

/-- One of the letters is a stray, and the other one is among those it agrees with under one notion
of case only. -/
def Irregular (v w : Nat) : Prop :=
  ∃ stray ∈ strays, v = stray.1 ∧ w ∈ stray.2 ∨ w = stray.1 ∧ v ∈ stray.2

instance (v w : Nat) : Decidable (Irregular v w) :=
  inferInstanceAs (Decidable (∃ stray ∈ strays, _))

theorem Irregular.symm {v w : Nat} (h : Irregular v w) : Irregular w v := by
  obtain ⟨stray, hstray, h⟩ := h
  exact ⟨stray, hstray, h.symm⟩

/-- The runs move no letters but those listed with a stray to where they move the stray. -/
def Lists (runs : List CaseRun) : Prop :=
  ∀ stray ∈ strays, 0 < move runs stray.1 ∧ move runs stray.1 ∈ stray.1 :: stray.2 ∧
    ∀ run ∈ runs, run.holds (run.preimage (move runs stray.1)) = true →
      run.preimage (move runs stray.1) ∈ stray.1 :: stray.2

instance (runs : List CaseRun) : Decidable (Lists runs) :=
  inferInstanceAs (Decidable (∀ stray ∈ strays, _))

theorem Lists.mem_of_move_eq {runs : List CaseRun} (hruns : Lists runs) {stray : Nat × List Nat}
    (hstray : stray ∈ strays) {w : Nat} (h : move runs w = move runs stray.1) :
    w ∈ stray.1 :: stray.2 := by
  obtain ⟨hpos, hself, hothers⟩ := hruns stray hstray
  obtain hstays | ⟨run, hrun, hholds, hmove⟩ := move_cases runs w
  · rw [← hstays, h]
    exact hself
  · have hpreimage : run.preimage (move runs stray.1) = w := by
      rw [hmove] at h
      simp only [CaseRun.preimage, CaseRun.image] at h ⊢
      omega
    rw [← hpreimage] at hholds ⊢
    exact hothers run hrun hholds

theorem mem_of_upper_eq {stray : Nat × List Nat} (hstray : stray ∈ strays) {w : Nat}
    (h : upper w = upper stray.1) : w ∈ stray.1 :: stray.2 := by
  have hlists : Lists upperTable := by decide +kernel
  rw [upper_eq_move, upper_eq_move] at h
  exact hlists.mem_of_move_eq hstray h

theorem mem_of_fold_eq {stray : Nat × List Nat} (hstray : stray ∈ strays) {w : Nat}
    (h : fold w = fold stray.1) : w ∈ stray.1 :: stray.2 := by
  have hlists : Lists foldTable := by decide +kernel
  rw [fold_eq_move, fold_eq_move] at h
  exact hlists.mem_of_move_eq hstray h

theorem Irregular.differ {v w : Nat} (h : Irregular v w) :
    ¬ (upper v = upper w ↔ fold v = fold w) := by
  have hstrays : ∀ stray ∈ strays, ∀ w ∈ stray.2,
      ¬ (upper stray.1 = upper w ↔ fold stray.1 = fold w) := by
    decide +kernel
  obtain ⟨stray, hstray, ⟨rfl, hw⟩ | ⟨rfl, hv⟩⟩ := h
  · exact hstrays stray hstray w hw
  · rw [eq_comm, eq_comm (a := fold v)]
    exact hstrays stray hstray v hv

/-- A stray agrees with a letter that is not listed with it under neither notion of case. -/
theorem agree_of_stray {stray : Nat × List Nat} (hstray : stray ∈ strays) {w : Nat}
    (h : ¬ Irregular stray.1 w) : upper stray.1 = upper w ↔ fold stray.1 = fold w := by
  by_cases hw : w = stray.1
  · rw [hw]
    exact iff_of_true rfl rfl
  · have hother : w ∉ stray.1 :: stray.2 := by
      intro hmem
      rcases List.mem_cons.1 hmem with heq | hmem
      · exact hw heq
      · exact h ⟨stray, hstray, .inl ⟨rfl, hmem⟩⟩
    exact iff_of_false (fun heq => hother (mem_of_upper_eq hstray heq.symm))
      fun heq => hother (mem_of_fold_eq hstray heq.symm)

/-- **The irregular pairs** are those on which the two notions of case differ. -/
theorem irregular_iff {v w : Nat} :
    Irregular v w ↔ ¬ (upper v = upper w ↔ fold v = fold w) := by
  refine ⟨Irregular.differ, not_imp_comm.1 fun h => ?_⟩
  by_cases hv : v ∈ strays.map Prod.fst
  · obtain ⟨stray, hstray, rfl⟩ := List.mem_map.1 hv
    exact agree_of_stray hstray h
  by_cases hw : w ∈ strays.map Prod.fst
  · obtain ⟨stray, hstray, rfl⟩ := List.mem_map.1 hw
    rw [eq_comm, eq_comm (a := fold v)]
    exact agree_of_stray hstray fun h' => h h'.symm
  -- elsewhere each notion can be read off the other one
  constructor
  · intro heq
    rw [← fold_upper hv, heq, fold_upper hw]
  · intro heq
    rw [← upper_fold hv, heq, upper_fold hw]

end Case

/-! ### Texts -/

namespace Bytes

open Case Utf8

/-- Two sequences have the same images if they are equally long and the values at each place have
the same image. -/
theorem map_eq_map_iff_zip (f : Nat → Nat) {vs ws : List Nat} :
    vs.map f = ws.map f ↔ vs.length = ws.length ∧ ∀ p ∈ vs.zip ws, f p.1 = f p.2 := by
  rw [← List.forall₂_eq_eq_eq, List.forall₂_map_left_iff, List.forall₂_map_right_iff,
    List.forall₂_iff_zip]
  simp only [Prod.forall]

/-- Texts have the same upper-case form if their letters have. -/
theorem toUpper_eq_iff {s t : Bytes} :
    s.toUpper = t.toUpper ↔ (scalars s).map upper = (scalars t).map upper := by
  have hscalars : ∀ u : Bytes, scalars u.toUpper = (scalars u).map upper := by
    intro u
    have hupper : ∀ v ∈ (scalars u).map upper, IsScalar v := by
      intro v hv
      obtain ⟨w, hw, rfl⟩ := List.mem_map.1 hv
      exact isScalar_upper (isScalar_of_mem_scalars hw)
    rw [← scalars_encode hupper, List.flatMap_map]
    rfl
  constructor
  · intro h
    rw [← hscalars, h, hscalars]
  · intro h
    have hencode : ((scalars s).map upper).flatMap encode =
        ((scalars t).map upper).flatMap encode := by rw [h]
    rwa [List.flatMap_map, List.flatMap_map] at hencode

/-- The texts agree under one notion of case, and an irregular pair of letters stands at one place
in them. -/
def Confusable (s t : Bytes) : Prop :=
  (s.toUpper = t.toUpper ∨ equalFold s t = true) ∧
    ∃ p ∈ (scalars s).zip (scalars t), Irregular p.1 p.2

instance (s t : Bytes) : Decidable (Confusable s t) :=
  inferInstanceAs (Decidable (_ ∧ _))

/-- **Texts that are not confusable** agree under both notions of case or under none. -/
theorem toUpper_eq_iff_equalFold_iff {s t : Bytes} :
    (s.toUpper = t.toUpper ↔ equalFold s t = true) ↔ ¬ Confusable s t := by
  have hupper := (toUpper_eq_iff (s := s) (t := t)).trans (map_eq_map_iff_zip upper)
  have hfold : equalFold s t = true ↔ _ := beq_iff_eq.trans (map_eq_map_iff_zip fold)
  constructor
  · rintro h ⟨hone, p, hp, hirregular⟩
    -- what agrees under one notion agrees under both, and so do its letters
    have hboth : s.toUpper = t.toUpper ∧ equalFold s t = true := by tauto
    exact irregular_iff.1 hirregular
      (iff_of_true ((hupper.1 hboth.1).2 p hp) ((hfold.1 hboth.2).2 p hp))
  · intro h
    have hregular : s.toUpper = t.toUpper ∨ equalFold s t = true →
        ∀ p ∈ (scalars s).zip (scalars t), (upper p.1 = upper p.2 ↔ fold p.1 = fold p.2) := by
      intro hone p hp
      by_contra hdiffer
      exact h ⟨hone, p, hp, irregular_iff.2 hdiffer⟩
    constructor
    · intro heq
      obtain ⟨hlength, hletters⟩ := hupper.1 heq
      exact hfold.2 ⟨hlength, fun p hp => (hregular (.inl heq) p hp).1 (hletters p hp)⟩
    · intro heq
      obtain ⟨hlength, hletters⟩ := hfold.1 heq
      exact hupper.2 ⟨hlength, fun p hp => (hregular (.inr heq) p hp).2 (hletters p hp)⟩

end Bytes

end ForthFrontend
