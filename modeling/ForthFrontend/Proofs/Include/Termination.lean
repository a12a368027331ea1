import ForthFrontend.Proofs.Include.Advance
import Mathlib.Data.Set.Card

/-!
# Resolution ends

The sequence may grow with every step, and directives may be put together from two files, so no size
of the sequence bounds the number of steps. What bounds it is the set of identities that can be
included: a step that goes on includes one that was not included before and whose file composes, and
a disk has finitely many of them. Reading ahead does not change this, since what it holds are
compositions.

## Main definitions

* `Include.Setting.composable`: the identities whose files compose.
* `Include.Resolution.Step.goOn`: one more iteration.

## Main results

* `Include.Setting.finite_composable`: a disk has finitely many composable identities.
* `Include.Resolution.step_ends_or_includes`: what one iteration does.
* `Include.Resolution.iterate_goOn`: how many iterations a run takes.
* `Include.resolve_ends`: the same from the start of a resolution.
-/

namespace ForthFrontend.Include

/-- The identities that can be included: those of the paths that compose. -/
def Setting.composable (s : Setting) : Set Path :=
  {id | ∃ path found, s.disk.identity path = id ∧ s.compose path = .ok found}

/-- **A disk has finitely many composable identities**, since each is that of a regular file. -/
theorem Setting.finite_composable (s : Setting) : s.composable.Finite := by
  refine (List.finite_toSet (s.disk.files.map fun f => f.1.path)).subset ?_
  rintro id ⟨path, found, rfl, hc⟩
  obtain ⟨l, content, hl, hp⟩ := Setting.mem_files_of_compose hc
  exact List.mem_map.2 ⟨(l, content), hl, hp⟩

namespace Resolution

variable {s : Setting}

/-- The composable identities that were not included yet. -/
def remaining (r : Resolution s) : Set Path :=
  s.composable \ {id | id ∈ r.visited}

theorem ncard_remaining_le (r : Resolution s) : r.remaining.ncard ≤ s.composable.ncard :=
  Set.ncard_le_ncard Set.sdiff_subset s.finite_composable

/-- Including a file that remained leaves fewer. -/
theorem ncard_remaining_lt {r next : Resolution s} {id : Path} (hid : id ∈ s.composable)
    (hnew : id ∉ r.visited) (hnext : next.visited = id :: r.visited) :
    next.remaining.ncard < r.remaining.ncard := by
  apply Set.ncard_lt_ncard _ (s.finite_composable.subset Set.sdiff_subset)
  rw [Set.ssubset_iff_of_subset]
  · refine ⟨id, ⟨hid, hnew⟩, fun h => h.2 ?_⟩
    show id ∈ next.visited
    rw [hnext]
    exact List.mem_cons_self
  · rintro other ⟨hother, hout⟩
    refine ⟨hother, fun hmem => hout ?_⟩
    show other ∈ next.visited
    rw [hnext]
    exact List.mem_cons_of_mem _ hmem

/-- **An iteration ends the resolution or includes a file** that composes and was not included
before. -/
theorem step_ends_or_includes (r : Resolution s) :
    (∃ result, r.step.1 = .finished result) ∨
    ∃ id next, id ∈ s.composable ∧ id ∉ r.visited ∧ r.step.1 = .spliced next ∧
      next.visited = id :: r.visited := by
  cases hstep : r.step.1 with
  | finished result => exact .inl ⟨result, rfl⟩
  | spliced next =>
    obtain ⟨front, d, t, rest, included, -, -, -, hv, hfetch, rfl⟩ := next_cases hstep
    -- what is fetched may have been composed ahead, from another path of the same identity
    obtain ⟨q, hq, hid, -⟩ :=
      r.readAhead.exists_compose_of_fetch (s.disk.includePath d.file t.text) rfl
    refine .inr ⟨_, _, ⟨q, included, hid, hq.symm.trans hfetch⟩, hv, rfl, ?_⟩
    show _ :: r.readAhead.visited = _
    rw [visited_readAhead]

/-- One more iteration, unless the resolution has ended. -/
def Step.goOn : Step s → Step s
  | .finished result => .finished result
  | .spliced r => r.step.1

theorem Step.iterate_goOn_finished (n : Nat) (result : Except Failure (List Atom)) :
    (goOn (s := s))^[n] (.finished result) = .finished result :=
  Function.iterate_fixed rfl n

/-- **One iteration more than files remain ends a resolution**, with the result of its run. -/
theorem iterate_goOn {n : Nat} {r : Resolution s} (h : r.remaining.ncard ≤ n) :
    Step.goOn^[n + 1] (.spliced r) = .finished r.run.result := by
  induction n generalizing r with
  | zero =>
    obtain ⟨result, hstep⟩ | ⟨id, next, hid, hnew, -, hnext⟩ := r.step_ends_or_includes
    · rw [run_result, hstep]
      exact hstep
    · have := ncard_remaining_lt hid hnew hnext
      omega
  | succ n ih =>
    rw [Function.iterate_succ_apply, run_result]
    show Step.goOn^[n + 1] r.step.1 = _
    obtain ⟨result, hstep⟩ | ⟨id, next, hid, hnew, hstep, hnext⟩ := r.step_ends_or_includes
    · rw [hstep]
      exact Step.iterate_goOn_finished _ _
    · have := ncard_remaining_lt hid hnew hnext
      rw [hstep]
      exact ih (by omega)

end Resolution

/-- **Resolution ends**, with one worker or many. Finitely many identities compose, every iteration
ends the resolution or includes one of them that was not included before, and the result is there
after at most one iteration more than there are such identities. -/
theorem resolve_ends (s : Setting) (entry : Path) (atoms : List Atom) :
    s.composable.Finite ∧
    (∀ r : Resolution s, (∃ result, r.step.1 = .finished result) ∨
      ∃ id next, id ∈ s.composable ∧ id ∉ r.visited ∧ r.step.1 = .spliced next ∧
        next.visited = id :: r.visited) ∧
    ∃ n ≤ s.composable.ncard + 1,
      Resolution.Step.goOn^[n] (.spliced (.start s entry atoms)) =
        .finished (resolve s false entry atoms).result := by
  refine ⟨s.finite_composable, Resolution.step_ends_or_includes, _, le_rfl, ?_⟩
  exact Resolution.iterate_goOn (Resolution.ncard_remaining_le _)

end ForthFrontend.Include
