import ForthFrontend.Proofs.Include.ReadAhead
import Mathlib.Data.List.Nodup

/-!
# Steps with any number of workers

What a step does depends on the sequence, on the identities included so far and on what is held for
the file of the first directive. This module says what is held: reading ahead holds, for a file that
was neither held nor included before, the composition of the first path in the sequence that names
it. The order in which the workers finish does not show.

## Main results

* `Include.ReadAhead.get?_run_missing`: what is held after some jobs, whatever their order.
* `Include.Resolution.get?_readAhead`: what is held after reading ahead.
* `Include.Resolution.step_cases`: everything that a step can do.
* `Include.Resolution.run_induction`: induction over the steps of a run.
-/

namespace ForthFrontend.Include

/-! ### Outcomes held -/

namespace ReadAhead

theorem get?_erase_of_ne (r : ReadAhead) {id id' : Path} (hne : id' ≠ id) :
    (r.erase id).get? id' = r.get? id' := by
  rw [get?, get?, erase, List.find?_filter]
  refine congrArg _ (congrArg (List.find? · r) (funext fun h => ?_))
  by_cases heq : h.job.identity = id'
  · simp [heq, hne]
  · simp [heq]

theorem get?_store_self (r : ReadAhead) (h : Held) :
    (r.store h).get? h.job.identity = some h.outcome := by
  simp [get?, store]

theorem get?_store_of_ne (r : ReadAhead) {h : Held} {id : Path} (hne : h.job.identity ≠ id) :
    (r.store h).get? id = r.get? id := by
  have hcons : (r.store h).get? id = (r.erase h.job.identity).get? id := by
    simp [get?, store, hne]
  rw [hcons, get?_erase_of_ne r hne.symm]

theorem has_iff {r : ReadAhead} {id : Path} : r.has id = true ↔ (r.get? id).isSome = true := by
  rw [has, get?, Option.isSome_map, List.find?_isSome, List.any_eq_true]

theorem has_eq_false_iff {r : ReadAhead} {id : Path} : r.has id = false ↔ r.get? id = none := by
  rw [Bool.eq_false_iff, Ne, has_iff, Option.isSome_iff_ne_none, not_ne_iff]

section Run

variable {compose : Path → Outcome} {r : ReadAhead} {jobs : List Job}

/-- Jobs leave alone what is held for other files. -/
theorem get?_run_of_forall_ne {id : Path} (h : ∀ j ∈ jobs, j.identity ≠ id) :
    (r.run compose jobs).get? id = r.get? id := by
  induction jobs generalizing r with
  | nil => rfl
  | cons j jobs ih =>
    rw [List.forall_mem_cons] at h
    exact (ih (r := r.store ⟨j, compose j.path⟩) h.2).trans (get?_store_of_ne r h.1)

/-- **The outcome of a job is held** in the end, since no other job has its identity. -/
theorem get?_run_of_mem (hnodup : (jobs.map Job.identity).Nodup) {j : Job} (hj : j ∈ jobs) :
    (r.run compose jobs).get? j.identity = some (compose j.path) := by
  induction jobs generalizing r with
  | nil => cases hj
  | cons j' jobs ih =>
    rw [List.map_cons, List.nodup_cons] at hnodup
    show (run compose (r.store ⟨j', compose j'.path⟩) jobs).get? j.identity = _
    rcases List.mem_cons.1 hj with rfl | hj
    · have hother : ∀ k ∈ jobs, k.identity ≠ j.identity := by
        intro k hk heq
        exact hnodup.1 (List.mem_map.2 ⟨k, hk, heq⟩)
      rw [get?_run_of_forall_ne hother]
      exact get?_store_self r ⟨j, compose j.path⟩
    · exact ih hnodup.2 hj

theorem mem_missing {j : Job} : j ∈ r.missing jobs ↔ j ∈ jobs ∧ r.has j.identity = false := by
  rw [missing, List.mem_filter, Bool.not_eq_true']

theorem nodup_missing (hjobs : (jobs.map Job.identity).Nodup) :
    ((r.missing jobs).map Job.identity).Nodup :=
  hjobs.sublist (List.filter_sublist.map Job.identity)

/-- **What is held after the missing jobs of a request**, whatever their order: what was held
before, or the outcome of the job that asks for it. -/
theorem get?_run_missing (hjobs : (jobs.map Job.identity).Nodup) {ended : List Job}
    (hended : ended.Perm (r.missing jobs)) (id : Path) :
    (r.run compose ended).get? id =
      (r.get? id).or ((jobs.find? (·.identity == id)).map fun j => compose j.path) := by
  cases hget : r.get? id with
  | some outcome =>
    -- what is held is not composed again
    have hhas : r.has id = true := has_iff.2 (by rw [hget]; rfl)
    rw [get?_run_of_forall_ne, hget, Option.some_or]
    intro j hj heq
    have hnot := (mem_missing.1 (hended.subset hj)).2
    rw [heq, hhas] at hnot
    cases hnot
  | none =>
    rw [Option.none_or]
    cases hfind : jobs.find? (·.identity == id) with
    | none =>
      rw [get?_run_of_forall_ne, hget, Option.map_none]
      intro j hj heq
      exact List.find?_eq_none.1 hfind j (mem_missing.1 (hended.subset hj)).1 (beq_iff_eq.2 heq)
    | some j =>
      obtain rfl : j.identity = id := by simpa using List.find?_some hfind
      have hmem : j ∈ ended :=
        hended.mem_iff.2 (mem_missing.2 ⟨List.mem_of_find?_eq_some hfind, has_eq_false_iff.2 hget⟩)
      exact get?_run_of_mem ((hended.map _).nodup_iff.2 (nodup_missing hjobs)) hmem

end Run

end ReadAhead

/-! ### Pending jobs -/

/-- Adds the job of a path, unless its file was visited or has a job already. -/
def addPath (d : Disk) (visited : List Path) (jobs : List Job) (path : Path) : List Job :=
  if visited.contains (d.identity path) || jobs.any (·.identity == d.identity path) then jobs
  else jobs ++ [⟨d.identity path, path⟩]

theorem pending_eq (d : Disk) (visited : List Path) (atoms : List Atom) :
    pending d visited atoms = (namedPaths d atoms).foldl (addPath d visited) [] := by
  rw [pending, namedPaths, List.foldl_map, List.foldl_filter]
  rfl

section Pending

variable {d : Disk} {visited : List Path}

theorem nodup_addPath {jobs : List Job} {path : Path} (h : (jobs.map Job.identity).Nodup) :
    ((addPath d visited jobs path).map Job.identity).Nodup := by
  unfold addPath
  split
  · exact h
  · next hnew =>
    rw [Bool.or_eq_true, not_or] at hnew
    rw [List.map_append, List.map_singleton, ← List.concat_eq_append, List.nodup_concat]
    refine ⟨fun hmem => hnew.2 ?_, h⟩
    obtain ⟨j, hj, heq⟩ := List.mem_map.1 hmem
    exact List.any_eq_true.2 ⟨j, hj, beq_iff_eq.2 heq⟩

/-- What holds of no jobs and is kept when the job of a path is added holds of the pending jobs. -/
theorem pending_induction {motive : List Job → Prop} (nil : motive [])
    (add : ∀ jobs path, motive jobs → motive (addPath d visited jobs path)) (atoms : List Atom) :
    motive (pending d visited atoms) := by
  have key : ∀ (paths : List Path) (jobs : List Job), motive jobs →
      motive (paths.foldl (addPath d visited) jobs) := by
    intro paths
    induction paths with
    | nil => exact fun _ h => h
    | cons path paths ih => exact fun jobs h => ih _ (add jobs path h)
  rw [pending_eq]
  exact key _ _ nil

/-- Every file has one job at most. -/
theorem nodup_pending (atoms : List Atom) :
    ((pending d visited atoms).map Job.identity).Nodup :=
  pending_induction (motive := fun jobs => (jobs.map Job.identity).Nodup) List.nodup_nil
    (fun _ _ => nodup_addPath) atoms

/-- No file that was visited has a job. -/
theorem notMem_visited_of_mem_pending {atoms : List Atom} {j : Job}
    (h : j ∈ pending d visited atoms) : j.identity ∉ visited := by
  refine pending_induction (motive := fun jobs => ∀ j ∈ jobs, j.identity ∉ visited) (by simp)
    (fun jobs path hjobs j hj => ?_) atoms j h
  unfold addPath at hj
  split at hj
  · exact hjobs j hj
  · next hnew =>
    rcases List.mem_append.1 hj with hj | hj
    · exact hjobs j hj
    · rw [Bool.or_eq_true, not_or] at hnew
      rw [List.mem_singleton.1 hj]
      simpa using hnew.1

theorem find?_addPath (jobs : List Job) (path id : Path) :
    (addPath d visited jobs path).find? (·.identity == id) =
      (jobs.find? (·.identity == id)).or
        (if d.identity path = id ∧ id ∉ visited then some ⟨id, path⟩ else none) := by
  unfold addPath
  by_cases hid : d.identity path = id
  · subst hid
    by_cases hv : d.identity path ∈ visited
    · simp [hv]
    · cases hany : jobs.any (·.identity == d.identity path) with
      | true =>
        -- the file has a job already, which is the one that is found
        obtain ⟨j, hj⟩ := Option.isSome_iff_exists.1
          (List.find?_isSome.2 (List.any_eq_true.1 hany))
        simp [hv, hj]
      | false =>
        have hnone : jobs.find? (·.identity == d.identity path) = none := by
          simpa using hany
        simp [hv, hnone]
  · split
    · simp [hid]
    · simp [List.find?_append, hid]

/-- **The job of a file** composes the first path that names it. -/
theorem find?_pending (atoms : List Atom) {id : Path} (hid : id ∉ visited) :
    (pending d visited atoms).find? (·.identity == id) =
      ((namedPaths d atoms).find? (d.identity · == id)).map (⟨id, ·⟩) := by
  have key : ∀ (paths : List Path) (jobs : List Job),
      (paths.foldl (addPath d visited) jobs).find? (·.identity == id) =
        (jobs.find? (·.identity == id)).or
          ((paths.find? (d.identity · == id)).map (⟨id, ·⟩)) := by
    intro paths
    induction paths with
    | nil => simp
    | cons path paths ih =>
      intro jobs
      rw [List.foldl_cons, ih, find?_addPath, Option.or_assoc]
      by_cases heq : d.identity path = id
      · simp [heq, hid]
      · simp [heq]
  rw [pending_eq, key]
  rfl

end Pending

namespace Resolution

variable {s : Setting}

/-! ### Reading ahead -/

theorem ahead_perm (r : Resolution s) :
    r.ahead.Perm (r.held.missing (pending s.disk r.visited r.atoms)) :=
  s.schedule.perm _ _

theorem mem_ahead {r : Resolution s} {j : Job} :
    j ∈ r.ahead ↔ j ∈ pending s.disk r.visited r.atoms ∧ r.held.has j.identity = false := by
  rw [r.ahead_perm.mem_iff, ReadAhead.mem_missing]

theorem nodup_ahead (r : Resolution s) : (r.ahead.map Job.identity).Nodup :=
  (r.ahead_perm.map _).nodup_iff.2 (ReadAhead.nodup_missing (nodup_pending r.atoms))

/-- **What is held after reading ahead** for a file not included yet: what was held before, or the
composition of the first path of the sequence that names the file. -/
theorem get?_readAhead (hs : s.readsAhead = true) (r : Resolution s) {id : Path}
    (hid : id ∉ r.visited) :
    r.readAhead.held.get? id = (r.held.get? id).or
      (((namedPaths s.disk r.atoms).find? (s.disk.identity · == id)).map s.compose) := by
  have hheld : r.readAhead.held = r.held.run s.compose r.ahead := by
    rw [readAhead, if_pos hs]
  rw [hheld, ReadAhead.get?_run_missing (nodup_pending r.atoms) r.ahead_perm,
    find?_pending r.atoms hid, Option.map_map]
  rfl

/-- What is fetched is the composition of a path with the identity asked for: one that is held, or
the path asked for. -/
theorem exists_compose_of_fetch (r : Resolution s) (path : Path) {id : Path}
    (hid : s.disk.identity path = id) :
    ∃ q, (r.fetch id path).1 = s.compose q ∧ s.disk.identity q = id ∧
      ((∃ h ∈ r.held, h.job.path = q) ∨ q = path ∧ r.held.get? id = none) := by
  unfold fetch
  cases hget : r.held.get? id with
  | none => exact ⟨path, rfl, hid, .inr ⟨rfl, rfl⟩⟩
  | some outcome =>
    obtain ⟨held, hfind, rfl⟩ := Option.map_eq_some_iff.1 hget
    have hmem := List.mem_of_find?_eq_some hfind
    have hkey : held.job.identity = id := by simpa using List.find?_some hfind
    obtain ⟨hident, hout⟩ := r.sound held hmem
    exact ⟨held.job.path, hout, hident.symm.trans hkey, .inl ⟨held, hmem, rfl⟩⟩

/-! ### Steps and runs -/

/-- **Everything that a step can do.** -/
theorem step_cases (r : Resolution s) :
    (DirectiveFree r.atoms ∧ r.step.1 = .finished (.ok r.atoms)) ∨
    (∃ front d, DirectiveFree front ∧ isDirective d = true ∧ r.atoms = front ++ [d] ∧
      r.step.1 = .finished (.error (.atAtom .missingIncludeTarget d))) ∨
    ∃ front d t rest, DirectiveFree front ∧ isDirective d = true ∧
      r.atoms = front ++ d :: t :: rest ∧
      ((s.disk.identity (s.disk.includePath d.file t.text) ∈ r.visited ∧
        r.step.1 = .finished (.error (repeated d t))) ∨
      (s.disk.identity (s.disk.includePath d.file t.text) ∉ r.visited ∧
        match (r.readAhead.fetch (s.disk.identity (s.disk.includePath d.file t.text))
          (s.disk.includePath d.file t.text)).1 with
        | .error f => r.step.1 = .finished (.error (f.orAt d))
        | .ok included => r.step.1 = .spliced (r.readAhead.spliceAt front included rest
            (s.disk.identity (s.disk.includePath d.file t.text))))) := by
  have hatoms := r.atoms_readAhead
  have hvisited := r.visited_readAhead
  obtain hf | ⟨front, d, hf, hd, ha⟩ | ⟨front, d, t, rest, hf, hd, ha⟩ :=
    firstDirective_cases r.atoms
  · exact .inl ⟨hf, (replaceFirst_free (hatoms ▸ hf)).trans (by rw [hatoms])⟩
  · exact .inr (.inl ⟨front, d, hf, hd, ha, replaceFirst_last hf hd (hatoms.trans ha)⟩)
  · refine .inr (.inr ⟨front, d, t, rest, hf, hd, ha, ?_⟩)
    by_cases hv : s.disk.identity (s.disk.includePath d.file t.text) ∈ r.visited
    · exact .inl ⟨hv, replaceFirst_repeated hf hd (hatoms.trans ha) (hvisited ▸ hv)⟩
    · refine .inr ⟨hv, ?_⟩
      rw [← hvisited] at hv
      split
      · next f hc => exact replaceFirst_failed hf hd (hatoms.trans ha) hv hc
      · next included hc => exact replaceFirst_spliced hf hd (hatoms.trans ha) hv hc

/-- A step that goes on has replaced the first directive by the atoms of its file. -/
theorem next_cases {r r' : Resolution s} (h : Next r r') :
    ∃ front d t rest included, DirectiveFree front ∧ isDirective d = true ∧
      r.atoms = front ++ d :: t :: rest ∧
      s.disk.identity (s.disk.includePath d.file t.text) ∉ r.visited ∧
      (r.readAhead.fetch (s.disk.identity (s.disk.includePath d.file t.text))
        (s.disk.includePath d.file t.text)).1 = .ok included ∧
      r' = r.readAhead.spliceAt front included rest
        (s.disk.identity (s.disk.includePath d.file t.text)) := by
  rw [Next] at h
  obtain ⟨_, hstep⟩ | ⟨_, _, _, _, _, hstep⟩ | ⟨front, d, t, rest, hf, hd, ha, hcase⟩ :=
    r.step_cases
  · rw [hstep] at h
    cases h
  · rw [hstep] at h
    cases h
  · obtain ⟨_, hstep⟩ | ⟨hv, hcase⟩ := hcase
    · rw [hstep] at h
      cases h
    · split at hcase
      · rw [hcase] at h
        cases h
      · next included hc =>
        rw [hcase] at h
        exact ⟨front, d, t, rest, included, hf, hd, ha, hv, hc, (Step.spliced.inj h).symm⟩

/-- A step that ends with atoms ends with those of its state. -/
theorem atoms_of_step {r : Resolution s} {atoms : List Atom}
    (h : r.step.1 = .finished (.ok atoms)) : atoms = r.atoms := by
  obtain ⟨_, hstep⟩ | ⟨_, _, _, _, _, hstep⟩ | ⟨_, _, _, _, _, _, _, hcase⟩ := r.step_cases
  · exact Except.ok.inj (Step.finished.inj (h.symm.trans hstep))
  · cases h.symm.trans hstep
  · obtain ⟨_, hstep⟩ | ⟨_, hcase⟩ := hcase
    · cases h.symm.trans hstep
    · split at hcase
      · cases h.symm.trans hcase
      · cases h.symm.trans hcase

/-- **Induction over the steps of a run.** -/
theorem run_induction {motive : Resolution s → Except Failure (List Atom) → Prop}
    (finished : ∀ r result, r.step.1 = .finished result → motive r result)
    (spliced : ∀ r next result, Next r next → motive next result → motive r result)
    (r : Resolution s) : motive r r.run.result := by
  -- every splice includes a regular file of the disk that was not included before
  induction hn : s.disk.unvisited r.visited using Nat.strongRecOn generalizing r with
  | ind n ih =>
    rw [run_result]
    cases hstep : r.step.1 with
    | finished result => exact finished r result hstep
    | spliced next =>
      have hspliced : r.step = (.spliced next, r.step.2) := Prod.ext hstep rfl
      exact spliced r next _ hstep (ih _ (hn ▸ unvisited_step_lt hspliced) next rfl)

end Resolution

end ForthFrontend.Include
