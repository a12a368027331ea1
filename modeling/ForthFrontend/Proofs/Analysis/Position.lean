import ForthFrontend.Proofs.Analysis
import Mathlib.Data.List.GetD

/-!
# Where analyses fail

Every error of an analysis stands at an atom of the program. Readers look at atoms that may be
missing, but a missing atom is never blamed: the complaint is about the atom that asks for it.

## Main results

* `Definition.blames_of_read`: the error of a definition stands at one of the atoms from it on.
* `Analysis.blames_of_run`: the error of an analysis stands at one of the atoms gone through.
-/

namespace ForthFrontend

/-- The rules that definitions can break. -/
def Fault.ofDefinitions : List Fault :=
  [.duplicateDefinition, .malformedDefinition, .unterminatedWord, .unexpectedAtom]

/-- The error is about a definition and stands at one of the atoms. -/
structure SourceError.Blames (e : SourceError) (atoms : List Atom) : Prop where
  fault : e.fault ∈ Fault.ofDefinitions
  place : ∃ a ∈ atoms, e.file = a.file ∧ e.line = a.line

theorem SourceError.Blames.mono {e : SourceError} {l m : List Atom} (h : e.Blames l)
    (hsub : l ⊆ m) : e.Blames m := by
  obtain ⟨hfault, a, ha, hplace⟩ := h
  exact ⟨hfault, a, hsub ha, hplace⟩

namespace Definition

theorem blames_atAtom {f : Fault} {a : Atom} {atoms : List Atom} (hf : f ∈ Fault.ofDefinitions)
    (ha : a ∈ atoms) : (SourceError.atAtom f a).Blames atoms :=
  ⟨hf, a, ha, rfl, rfl⟩

theorem blames_duplicate {a : Atom} {atoms : List Atom} (ha : a ∈ atoms) :
    (duplicate a).Blames atoms :=
  ⟨List.mem_cons_self, a, ha, rfl, rfl⟩

theorem bind_eq_error {ε α β : Type} {x : Except ε α} {f : α → Except ε β} {e : ε} :
    (x >>= f) = .error e ↔ x = .error e ∨ ∃ a, x = .ok a ∧ f a = .error e := by
  cases x with
  | error e' => simp [bind, Except.bind]
  | ok a => simp [bind, Except.bind]

/-- What is looked at by position is an atom of the sequence, or has no text. -/
theorem getD_mem_or (atoms : List Atom) (offset : Nat) :
    atoms.getD offset Atom.absent ∈ atoms ∨ (atoms.getD offset Atom.absent).text = [] := by
  by_cases hlt : offset < atoms.length
  · refine .inl ?_
    rw [List.getD_eq_getElem _ _ hlt]
    exact List.getElem_mem hlt
  · rw [List.getD_eq_default _ _ (Nat.not_lt.1 hlt)]
    exact .inr rfl

section Readers

variable {atoms : List Atom} {e : SourceError}

theorem blames_of_nameAt {offset : Nat} {owner : Atom} (howner : owner ∈ atoms)
    (h : nameAt atoms offset owner = .error e) : e.Blames atoms := by
  rw [nameAt] at h
  split at h
  · obtain rfl := Except.error.inj h
    exact blames_atAtom (by decide) howner
  · next htext =>
    split at h
    · cases h
    · obtain rfl := Except.error.inj h
      rcases getD_mem_or atoms offset with hmem | hnone
      · exact blames_atAtom (by decide) hmem
      · exact absurd (by rw [hnone]; rfl) htext

theorem blames_of_readBody {start : Atom} {locals body whole : List Atom} (hstart : start ∈ whole)
    (hatoms : atoms ⊆ whole) (h : readBody start locals body atoms = .error e) :
    e.Blames whole := by
  -- every branch blames the start of the word or the atom it has just read
  fun_induction readBody start locals body atoms with
  | case1 =>
    obtain rfl := Except.error.inj h
    exact blames_atAtom (by decide) hstart
  | case2 => cases h
  | case3 =>
    obtain rfl := Except.error.inj h
    exact blames_atAtom (by decide) hstart
  | case4 =>
    obtain rfl := Except.error.inj h
    exact blames_atAtom (by decide) (hatoms List.mem_cons_self)
  | case5 =>
    obtain rfl := Except.error.inj h
    exact blames_atAtom (by decide) (hatoms List.mem_cons_self)
  | case6 =>
    obtain rfl := Except.error.inj h
    exact blames_duplicate (hatoms (List.mem_cons_of_mem _ List.mem_cons_self))
  | case7 locals body a _ _ _ name rest _ _ ih =>
    exact ih (fun b hb => hatoms (List.mem_cons_of_mem _ (List.mem_cons_of_mem _ hb))) h
  | case8 locals body a rest _ _ _ ih =>
    exact ih (fun b hb => hatoms (List.mem_cons_of_mem _ hb)) h

theorem blames_of_readWord {start : Atom} (hstart : start ∈ atoms)
    (h : readWord start atoms = .error e) : e.Blames atoms := by
  rcases bind_eq_error.1 h with h | ⟨name, -, h⟩
  · exact blames_of_nameAt hstart h
  · rcases bind_eq_error.1 h with h | ⟨parts, -, h⟩
    · exact blames_of_readBody hstart (List.drop_subset 2 atoms) h
    · cases h

theorem eq_atAtom_of_readCount {count : Atom} (h : readCount count = .error e) :
    e = .atAtom .malformedDefinition count := by
  rw [readCount] at h
  split at h
  · split at h
    · exact (Except.error.inj h).symm
    · cases h
  · exact (Except.error.inj h).symm

theorem blames_of_readVariable {start : Atom} (hstart : start ∈ atoms)
    (h : readVariable start atoms = .error e) : e.Blames atoms := by
  rcases bind_eq_error.1 h with h | ⟨name, -, h⟩
  · exact blames_of_nameAt hstart h
  · split at h
    · next hallot =>
      rcases bind_eq_error.1 h with h | ⟨extra, -, h⟩
      · obtain rfl := eq_atAtom_of_readCount h
        -- an `ALLOT` stands behind the count, so the count is not missing
        have hlt : 3 < atoms.length := by
          by_contra hge
          rw [List.getD_eq_default _ _ (Nat.not_lt.1 hge)] at hallot
          exact absurd hallot (by decide +kernel)
        refine blames_atAtom (by decide) ?_
        rw [List.getD_eq_getElem _ _ (by omega : 2 < atoms.length)]
        exact List.getElem_mem _
      · cases h
    · cases h

theorem eq_atAtom_of_readValue {a : Atom} (h : readValue a = .error e) :
    e = .atAtom .malformedDefinition a := by
  rw [readValue] at h
  split at h
  · cases h
  · split at h
    · cases h
    · exact (Except.error.inj h).symm
  · exact (Except.error.inj h).symm

theorem blames_of_readConstant {value : Atom} (hvalue : value ∈ atoms)
    (hkeyword : atoms.getD 1 Atom.absent ∈ atoms) (h : readConstant value atoms = .error e) :
    e.Blames atoms := by
  rcases bind_eq_error.1 h with h | ⟨name, -, h⟩
  · exact blames_of_nameAt hkeyword h
  · rcases bind_eq_error.1 h with h | ⟨v, -, h⟩
    · obtain rfl := eq_atAtom_of_readValue h
      exact blames_atAtom (by decide) hvalue
    · cases h

theorem blames_of_readLibrary {start : Atom} (hstart : start ∈ atoms)
    (h : readLibrary start atoms = .error e) : e.Blames atoms := by
  rcases bind_eq_error.1 h with h | ⟨name, -, h⟩
  · exact blames_of_nameAt hstart h
  · cases h

theorem blames_of_readExternal {start : Atom} (hstart : start ∈ atoms)
    (h : readExternal start atoms = .error e) : e.Blames atoms := by
  rcases bind_eq_error.1 h with h | ⟨name, -, h⟩
  · exact blames_of_nameAt hstart h
  · rcases bind_eq_error.1 h with h | ⟨library, -, h⟩
    · exact blames_of_nameAt hstart h
    · rcases bind_eq_error.1 h with h | ⟨className, -, h⟩
      · exact blames_of_nameAt hstart h
      · rcases bind_eq_error.1 h with h | ⟨method, -, h⟩
        · exact blames_of_nameAt hstart h
        · cases h

end Readers

/-- **The error of a definition** stands at one of the atoms from the definition on. -/
theorem blames_of_read {a : Atom} {rest : List Atom} {e : SourceError}
    (h : read a rest = .error e) : e.Blames (a :: rest) := by
  have ha : a ∈ a :: rest := List.mem_cons_self
  rw [read] at h
  split at h
  · exact blames_of_readWord ha h
  · split at h
    · exact blames_of_readVariable ha h
    · split at h
      · exact blames_of_readLibrary ha h
      · split at h
        · exact blames_of_readExternal ha h
        · split at h
          · next hconstant =>
            refine blames_of_readConstant ha ?_ h
            cases rest with
            | nil => exact absurd hconstant (by decide +kernel)
            | cons keyword rest => exact List.mem_cons_of_mem _ List.mem_cons_self
          · obtain rfl := Except.error.inj h
            exact blames_atAtom (by decide) ha

end Definition

namespace Analysis

open Definition

theorem mem_written_of_declared? {written after : List Atom} {d : Definition} {name : Atom}
    (h : Written written after d) (hname : d.declared? = some name) : name ∈ written := by
  cases h with
  | library => cases hname
  | _ =>
    cases hname
    simp

theorem eq_duplicate_of_add {s : Analysis} {d : Definition} {e : SourceError}
    (h : s.add d = .error e) : ∃ name, d.declared? = some name ∧ e = duplicate name := by
  rw [add_eq] at h
  split at h
  · cases h
  · next name hname =>
    split at h
    · exact ⟨name, hname, (Except.error.inj h).symm⟩
    · cases h

/-- **The error of an analysis** stands at one of the atoms gone through. -/
theorem blames_of_run {s : Analysis} {atoms : List Atom} {e : SourceError}
    (h : s.run atoms = .error e) : e.Blames atoms := by
  fun_induction run s atoms with
  | case1 => cases h
  | case2 s a rest e' hread =>
    obtain rfl := Except.error.inj h
    exact blames_of_read hread
  | case3 s a rest d after hread e' hadd =>
    obtain rfl := Except.error.inj h
    obtain ⟨name, hname, rfl⟩ := eq_duplicate_of_add hadd
    obtain ⟨written, hatoms, hwritten, -⟩ := read_eq_ok_iff.1 hread
    rw [hatoms]
    exact blames_duplicate (List.mem_append_left _ (mem_written_of_declared? hwritten hname))
  | case4 s a rest d after hread next hadd ih =>
    obtain ⟨written, hatoms, -, -⟩ := read_eq_ok_iff.1 hread
    rw [hatoms]
    exact (ih h).mono (List.subset_append_right _ _)

end Analysis

/-- The error of a program stands at one of its atoms. -/
theorem blames_of_analyze {atoms : List Atom} {e : SourceError}
    (h : (analyze false atoms).result = .error (.source e)) : e.Blames atoms := by
  rw [analyze, if_neg (by simp)] at h
  cases hrun : Analysis.run {} atoms with
  | error e' =>
    rw [hrun] at h
    obtain rfl := Failure.source.inj (Except.error.inj h)
    exact Analysis.blames_of_run hrun
  | ok s =>
    rw [hrun] at h
    cases h

end ForthFrontend
