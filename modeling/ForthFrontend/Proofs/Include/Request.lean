import ForthFrontend.Proofs.Include.Pool
import Mathlib.Data.List.DropRight

/-!
# Outcomes are held until they are taken

What is held is used by two kinds of calls: requests, whose run is live or was cancelled, and
takings. This module says what can be taken after any sequence of calls, in words of the calls
alone: the outcome of the earliest job that a live request named for the identity since it was last
taken. `HoldsEarliest` is the invariant: each kind of call keeps it, and so do any calls.

## Main definitions

* `Include.Call`: a call.
* `Include.HeldAfter`: what can be held after some calls, the jobs of each request being done in any
  order.
* `Include.Call.earliest?`: the job whose outcome is to be taken.
* `Include.HoldsEarliest`: the invariant.

## Main results

* `Include.HoldsEarliest.request`, `Include.HoldsEarliest.take`, `Include.HeldAfter.holdsEarliest`:
  a call and any calls keep the invariant.
* `Include.outcomes_held_until_taken`: what every call gives after any sequence of calls, with the
  workers of a request acting in any order.
-/

namespace ForthFrontend.Include

/-- A call on what is held. -/
inductive Call where
  /-- A request for some jobs, in a run that may have been cancelled. -/
  | request (cancelled : Bool) (jobs : List Job)
  /-- Taking the outcome held under an identity. -/
  | take (id : Path)
  deriving DecidableEq

namespace Call

/-- The jobs that a live request names. -/
def liveJobs : Call → List Job
  | request false jobs => jobs
  | request true _ => []
  | take _ => []

/-- The jobs of a request have different identities. -/
def IsDistinct : Call → Prop
  | request _ jobs => (jobs.map Job.identity).Nodup
  | take _ => True

instance : (c : Call) → Decidable c.IsDistinct
  | request _ jobs => inferInstanceAs (Decidable (jobs.map Job.identity).Nodup)
  | take _ => inferInstanceAs (Decidable True)

/-- The calls since an identity was last taken. -/
def sinceTaken (calls : List Call) (id : Path) : List Call :=
  calls.rtakeWhile (· != take id)

/-- The earliest job that a live request named for an identity since it was last taken. -/
def earliest? (calls : List Call) (id : Path) : Option Job :=
  ((sinceTaken calls id).flatMap liveJobs).find? (·.identity == id)

/-! ### The earliest job after one more call -/

section Earliest

variable (calls : List Call) (id : Path)

theorem sinceTaken_concat_of_ne {c : Call} (hne : c ≠ take id) :
    sinceTaken (calls ++ [c]) id = sinceTaken calls id ++ [c] :=
  List.rtakeWhile_concat_pos _ _ _ (bne_iff_ne.2 hne)

theorem earliest?_concat_of_ne {c : Call} (hne : c ≠ take id) :
    earliest? (calls ++ [c]) id =
      (earliest? calls id).or (c.liveJobs.find? (·.identity == id)) := by
  rw [earliest?, sinceTaken_concat_of_ne calls id hne, List.flatMap_append, List.find?_append,
    List.flatMap_singleton]
  rfl

theorem earliest?_concat_take : earliest? (calls ++ [take id]) id = none := by
  have hnil : sinceTaken (calls ++ [take id]) id = [] :=
    List.rtakeWhile_concat_neg _ _ _ (by simp)
  rw [earliest?, hnil]
  rfl

/-- There is an earliest job if a live request named one since the identity was last taken. -/
theorem isSome_earliest?_iff : (earliest? calls id).isSome = true ↔
    ∃ jobs, request false jobs ∈ sinceTaken calls id ∧ ∃ j ∈ jobs, j.identity = id := by
  have hlive : ∀ {c : Call} {j : Job},
      j ∈ c.liveJobs ↔ ∃ jobs, c = request false jobs ∧ j ∈ jobs := by
    intro c j
    cases c with
    | request cancelled jobs => cases cancelled <;> simp [liveJobs]
    | take id => simp [liveJobs]
  simp only [earliest?, List.find?_isSome, List.mem_flatMap, hlive, beq_iff_eq]
  constructor
  · rintro ⟨j, ⟨c, hc, jobs, rfl, hj⟩, hid⟩
    exact ⟨jobs, hc, j, hj, hid⟩
  · rintro ⟨jobs, hc, j, hj, hid⟩
    exact ⟨j, ⟨_, hc, jobs, rfl, hj⟩, hid⟩

end Earliest

end Call

open Call

/-! ### What is held after calls -/

/-- What can be held after some calls, nothing being held before. The jobs of a request that are not
held are done in any order. -/
inductive HeldAfter (d : Disk) (strict : Bool) : List Call → ReadAhead → Prop
  | start : HeldAfter d strict [] []
  | request {calls : List Call} {r : ReadAhead} (h : HeldAfter d strict calls r) (cancelled : Bool)
      (jobs ended : List Job) (hended : ended.Perm (r.missing jobs)) :
      HeldAfter d strict (calls ++ [.request cancelled jobs])
        (r.requested (Source.compose d strict cancelled) (fun _ => ended) cancelled jobs)
  | take {calls : List Call} {r : ReadAhead} (h : HeldAfter d strict calls r) (id : Path) :
      HeldAfter d strict (calls ++ [.take id]) (r.take id).2

theorem ReadAhead.get?_erase_self (r : ReadAhead) (id : Path) : (r.erase id).get? id = none := by
  rw [← has_eq_false_iff, has_erase, bne_self_eq_false, Bool.and_false]

/-- Under every identity stands the outcome of the earliest job that a live request named since the
identity was last taken, and nothing if there is none. -/
def HoldsEarliest (d : Disk) (strict : Bool) (calls : List Call) (r : ReadAhead) : Prop :=
  ∀ id, r.get? id = (earliest? calls id).map fun j => Source.compose d strict false j.path

section Calls

variable {d : Disk} {strict : Bool} {calls : List Call} {r : ReadAhead}

/-- A request holds the outcomes of jobs that are the earliest for their identities, since other
jobs were held already. -/
theorem HoldsEarliest.request (h : HoldsEarliest d strict calls r) (cancelled : Bool)
    {jobs ended : List Job} (hjobs : (jobs.map Job.identity).Nodup)
    (hended : ended.Perm (r.missing jobs)) :
    HoldsEarliest d strict (calls ++ [.request cancelled jobs])
      (r.requested (Source.compose d strict cancelled) (fun _ => ended) cancelled jobs) := by
  intro id
  rw [earliest?_concat_of_ne calls id (by simp)]
  cases cancelled with
  | false =>
    rw [ReadAhead.requested_live, ReadAhead.get?_run_missing hjobs hended, h id, Option.map_or]
    rfl
  | true =>
    rw [ReadAhead.requested_cancelled hended, h id]
    simp [liveJobs]

/-- Once an outcome is taken, its identity waits for a new job. -/
theorem HoldsEarliest.take (h : HoldsEarliest d strict calls r) (taken : Path) :
    HoldsEarliest d strict (calls ++ [.take taken]) (r.take taken).2 := by
  intro id
  by_cases heq : taken = id
  · subst heq
    rw [earliest?_concat_take]
    exact r.get?_erase_self taken
  · have hother : (r.take taken).2.get? id = r.get? id := r.get?_erase_of_ne (Ne.symm heq)
    rw [earliest?_concat_of_ne calls id (by simpa using heq), hother, h id]
    simp [liveJobs]

/-- **What is held is the outcome of the earliest job**, after any calls. -/
theorem HeldAfter.holdsEarliest (h : HeldAfter d strict calls r)
    (hdistinct : ∀ c ∈ calls, c.IsDistinct) : HoldsEarliest d strict calls r := by
  induction h with
  | start => exact fun _ => rfl
  | request h cancelled jobs ended hended ih =>
    rw [List.forall_mem_append, List.forall_mem_singleton] at hdistinct
    exact (ih hdistinct.1).request cancelled hdistinct.2 hended
  | take h taken ih =>
    rw [List.forall_mem_append] at hdistinct
    exact (ih hdistinct.1).take taken

end Calls

/-- **Outcomes are held until they are taken.** After any calls, whatever the order in which the
jobs of each request were done, the following holds. An outcome can be taken if and only if a live
request named the identity since it was last taken, and then it is the composition, atoms or
failure, of the path of the earliest such job; taking removes it and leaves alone what is held under
other identities. A further request with jobs of different identities returns however its workers
act, with any bound on their number or none. What it returns, and what is held then, is what
`ReadAhead.request` gives for the order in which the jobs were done. A live one returns no failure,
whatever composing the files gives. A cancelled one holds nothing new and fails if and only if it
named an identity that is not held. -/
theorem outcomes_held_until_taken (d : Disk) (strict : Bool) (limit : Int64)
    (hlimit : limit = -1 ∨ 1 ≤ limit) (calls : List Call)
    (hdistinct : ∀ c ∈ calls, c.IsDistinct) (r : ReadAhead) (h : HeldAfter d strict calls r) :
    (∀ id,
      ((r.take id).1.isSome = true ↔
        ∃ jobs, .request false jobs ∈ sinceTaken calls id ∧ ∃ j ∈ jobs, j.identity = id) ∧
      (r.take id).1 = (earliest? calls id).map (fun j => Source.compose d strict false j.path) ∧
      (r.take id).2.get? id = none ∧
      ∀ other, other ≠ id → (r.take id).2.get? other = r.get? other) ∧
    ∀ cancelled jobs, (jobs.map Job.identity).Nodup →
      Pool.Returns ⟨d, strict, limit, cancelled⟩ (fun p =>
        (∃ ended, ended.Perm (r.missing jobs) ∧ p.result =
          r.request (Source.compose d strict cancelled) (fun _ => ended) cancelled jobs) ∧
        HeldAfter d strict (calls ++ [.request cancelled jobs]) p.held ∧
        (cancelled = false → p.failure = none) ∧
        (cancelled = true → p.held = r ∧
          (p.failure = some .cancelled ↔ ∃ j ∈ jobs, r.has j.identity = false) ∧
          (p.failure = none ↔ ∀ j ∈ jobs, r.has j.identity = true))) (Pool.start jobs r) := by
  constructor
  · intro id
    have htaken : (r.take id).1 =
        (earliest? calls id).map (fun j => Source.compose d strict false j.path) :=
      h.holdsEarliest hdistinct id
    refine ⟨?_, htaken, r.get?_erase_self id, fun other hne => r.get?_erase_of_ne hne⟩
    rw [htaken, Option.isSome_map, isSome_earliest?_iff]
  · intro cancelled jobs hjobs
    have hne : limit ≠ 0 := by
      rintro rfl
      revert hlimit
      decide
    refine (Pool.returns_request ⟨d, strict, limit, cancelled⟩ hne hjobs r).imp ?_
    rintro p ⟨ended, hended, hresult, hheld⟩
    refine ⟨⟨ended, hended, hresult⟩, hheld ▸ h.request cancelled jobs ended hended, ?_, ?_⟩
    · rintro rfl
      rw [p.failure_eq, hresult]
      rfl
    · rintro rfl
      exact ⟨hheld.trans (ReadAhead.requested_cancelled hended),
        Pool.failure_of_cancelled hended hresult⟩

/-! ### A file that is asked for again -/

namespace AskedAgain

def disk : Disk where
  workDir := []
  entries := [(["a"], .file "A")]

/-- The file is asked for together with one that is missing, then in a cancelled run under another
identity. It is taken and asked for again by another spelling, together with the missing one. -/
def calls : List Call :=
  [.request false [⟨"x", "a"⟩, ⟨"n", "none"⟩], .request true [⟨"y", "a"⟩], .take "x",
    .request false [⟨"n", "a"⟩, ⟨"x", "./a"⟩]]

theorem isDistinct : ∀ c ∈ calls, c.IsDistinct := by
  decide +kernel

/-- The jobs of the first request are done in the opposite order. -/
theorem exists_heldAfter : ∃ r, HeldAfter disk false calls r := by
  have nothing : HeldAfter disk false [] [] := .start
  have first := nothing.request false [⟨"x", "a"⟩, ⟨"n", "none"⟩] [⟨"n", "none"⟩, ⟨"x", "a"⟩]
    (by decide +kernel)
  have second := first.request true [⟨"y", "a"⟩] [⟨"y", "a"⟩] (by decide +kernel)
  exact ⟨_, (second.take "x").request false [⟨"n", "a"⟩, ⟨"x", "./a"⟩] [⟨"x", "./a"⟩]
    (by decide +kernel)⟩

end AskedAgain

open AskedAgain in
/-- The file that was taken is held again under the spelling that asked for it since, the failure
for the missing file is the one of the first request, and the cancelled request left nothing. A
further one fails and changes nothing, however its workers act. -/
theorem outcomes_held_until_taken_askedAgain :
    ∃ r, HeldAfter disk false calls r ∧
      (r.take "x").1 = some (.ok [wordOf "A" "./a"]) ∧
      (r.take "n").1 = some (.error (Source.notFound "none"
        (.disk { action := .openFile, path := "none", cause := .notFound }))) ∧
      (r.take "y").1 = none ∧
      Pool.Returns ⟨disk, false, 2, true⟩ (fun p => p.held = r ∧ p.failure = some .cancelled)
        (Pool.start [⟨"x", "a"⟩, ⟨"y", "a"⟩] r) := by
  obtain ⟨r, h⟩ := exists_heldAfter
  obtain ⟨htake, hrequest⟩ :=
    outcomes_held_until_taken disk false 2 (.inr (by decide)) calls isDistinct r h
  have hx : earliest? calls "x" = some ⟨"x", "./a"⟩ := by decide +kernel
  have hn : earliest? calls "n" = some ⟨"n", "none"⟩ := by decide +kernel
  have hy : earliest? calls "y" = none := by decide +kernel
  have hnone : (r.take "y").1 = none := by rw [(htake "y").2.1, hy]; rfl
  refine ⟨r, h, ?_, ?_, hnone, ?_⟩
  · rw [(htake "x").2.1, hx]
    decide +kernel
  · rw [(htake "n").2.1, hn]
    decide +kernel
  · refine (hrequest true _ (by decide +kernel)).imp fun p hp => ?_
    obtain ⟨hheld, hfailure, -⟩ := hp.2.2.2 rfl
    exact ⟨hheld, hfailure.2 ⟨⟨"y", "a"⟩, by simp, ReadAhead.has_eq_false_iff.2 hnone⟩⟩

end ForthFrontend.Include
