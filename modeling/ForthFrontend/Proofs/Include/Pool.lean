import ForthFrontend.Proofs.Include.Once
import Mathlib.Logic.Relation

/-!
# The workers of a request

A request goes through its jobs in turn. It leaves out a job whose identity is held at that moment
and hands every other one to a worker of its own, waiting while as many workers as it may have are
at work. A worker looks whether the run was cancelled, composes its file and holds the outcome. The
workers act in any order, and the request returns once all of them are done.

`ReadAhead.request` says what comes of a request without following the workers: it tells the jobs
apart beforehand, and all that is left of the workers is the order in which they finish. Here they
are followed action by action. The invariant accounts for the jobs that have to be done: at every
moment each of them is done, at some worker or still in line, and what is held comes from those that
are done, in the order they finished.

## Main definitions

* `Include.Crew`: the circumstances that workers act in.
* `Include.Pool`: a request between two actions.
* `Include.Pool.Step`: the actions.
* `Include.Pool.Returns`: a request returns however its workers act, and what holds then.

## Main results

* `Include.Pool.exists_step`, `Include.Pool.size_lt_of_step`: a request neither hangs nor goes on
  for ever.
* `Include.Pool.Serves.step`, `Include.Pool.Serves.of_reaches`: an action and a run of actions keep
  the invariant.
* `Include.Pool.returns_request`: a request returns what `ReadAhead.request` gives for the order in
  which its workers finished.
* `Include.Pool.exists_reaches_isDone_iff`: if there is room for all workers, they can finish in
  every order.
-/

namespace ForthFrontend.Include

namespace ReadAhead

/-- What is held after a request. One that fails leaves alone what is held. -/
def requested (compose : Path → Outcome) (order : List Job → List Job) (cancelled : Bool)
    (jobs : List Job) (r : ReadAhead) : ReadAhead :=
  match r.request compose order cancelled jobs with
  | .ok held => held
  | .error _ => r

variable {compose : Path → Outcome} {order : List Job → List Job} {jobs : List Job} {r : ReadAhead}

theorem run_concat (compose : Path → Outcome) (r : ReadAhead) (jobs : List Job) (j : Job) :
    r.run compose (jobs ++ [j]) = (r.run compose jobs).store ⟨j, compose j.path⟩ :=
  List.foldl_concat ..

theorem missing_eq_nil_iff : r.missing jobs = [] ↔ ∀ j ∈ jobs, r.has j.identity = true := by
  simp [missing, List.filter_eq_nil_iff]

theorem missing_cons_of_has {j : Job} (hj : r.has j.identity = true) :
    r.missing (j :: jobs) = r.missing jobs :=
  List.filter_cons_of_neg (by simp [hj])

theorem missing_cons_of_not_has {j : Job} (hj : r.has j.identity = false) :
    r.missing (j :: jobs) = j :: r.missing jobs :=
  List.filter_cons_of_pos (by simp [hj])

/-- A live request holds the outcomes of the jobs that were not held. -/
theorem request_live :
    r.request compose order false jobs = .ok (r.run compose (order (r.missing jobs))) := rfl

/-- A cancelled request fails, unless all of its jobs are held. -/
theorem request_cancelled (horder : (order (r.missing jobs)).Perm (r.missing jobs)) :
    r.request compose order true jobs =
      if r.missing jobs = [] then .ok r else .error .cancelled := by
  by_cases hnil : r.missing jobs = []
  · have horder' : order [] = [] := List.perm_nil.1 (hnil ▸ horder)
    rw [if_pos hnil, request, hnil, horder']
    rfl
  · rw [if_neg hnil, request]
    exact if_pos (by simp [hnil])

theorem requested_live :
    r.requested compose order false jobs = r.run compose (order (r.missing jobs)) := rfl

/-- A cancelled request holds nothing new. -/
theorem requested_cancelled (horder : (order (r.missing jobs)).Perm (r.missing jobs)) :
    r.requested compose order true jobs = r := by
  rw [requested, request_cancelled horder]
  by_cases hnil : r.missing jobs = []
  · rw [if_pos hnil]
  · rw [if_neg hnil]

end ReadAhead

/-- The circumstances that the workers of a request act in: the disk, the manner of composing, how
many of them may be at work at once, which is no bound if it is negative, and whether the run was
cancelled before the request. -/
structure Crew where
  disk : Disk
  strict : Bool
  limit : Int64
  cancelled : Bool

/-- What composing a file gives. -/
def Crew.compose (c : Crew) (path : Path) : Outcome :=
  Source.compose c.disk c.strict c.cancelled path

/-- A request between two actions. -/
structure Pool where
  /-- The jobs that were not looked at yet. -/
  line : List Job
  /-- The job that was looked at last, if it waits for a worker. -/
  next : Option Job
  /-- The jobs of workers that did not look yet whether the run was cancelled. -/
  started : List Job
  /-- The jobs of workers that compose their files. -/
  composing : List Job
  held : ReadAhead
  /-- The failure of the first worker that gave up. -/
  failure : Option Failure

namespace Pool

/-- A request before the first action. -/
def start (jobs : List Job) (r : ReadAhead) : Pool where
  line := jobs
  next := none
  started := []
  composing := []
  held := r
  failure := none

/-- Nothing is left to do, so that the request returns. -/
def IsDone (p : Pool) : Prop :=
  p.line = [] ∧ p.next = none ∧ p.started = [] ∧ p.composing = []

/-- What the request returns. -/
def result (p : Pool) : Except Failure ReadAhead :=
  match p.failure with
  | none => .ok p.held
  | some f => .error f

/-- Is the run cancelled for the workers? It also is once one of them gave up. -/
def isCancelled (p : Pool) (c : Crew) : Bool :=
  c.cancelled || p.failure.isSome

/-- May one more worker be at work? -/
def HasRoom (p : Pool) (limit : Int64) : Prop :=
  limit < 0 ∨ ((p.started.length + p.composing.length : Nat) : Int) < limit.toInt

/-- The actions of a request and its workers. -/
inductive Step (c : Crew) : Pool → Pool → Prop
  /-- A job whose identity is held is left out. -/
  | skip {p : Pool} (j : Job) (rest : List Job) (hnext : p.next = none)
      (hline : p.line = j :: rest) (hheld : p.held.has j.identity = true) :
      Step c p { p with line := rest }
  /-- Any other job has to wait for a worker. -/
  | look {p : Pool} (j : Job) (rest : List Job) (hnext : p.next = none)
      (hline : p.line = j :: rest) (hheld : p.held.has j.identity = false) :
      Step c p { p with line := rest, next := some j }
  /-- A worker gets the job that waits. -/
  | hand {p : Pool} (j : Job) (hnext : p.next = some j) (hroom : p.HasRoom c.limit) :
      Step c p { p with next := none, started := j :: p.started }
  /-- A worker of a cancelled run fails and holds nothing. -/
  | giveUp {p : Pool} (j : Job) (front back : List Job) (hstarted : p.started = front ++ j :: back)
      (hcancelled : p.isCancelled c = true) :
      Step c p { p with
        started := front ++ back
        failure := p.failure.or (some .cancelled) }
  /-- A worker of a live run begins to compose its file. -/
  | compose {p : Pool} (j : Job) (front back : List Job) (hstarted : p.started = front ++ j :: back)
      (hcancelled : p.isCancelled c = false) :
      Step c p { p with started := front ++ back, composing := j :: p.composing }
  /-- A worker holds the outcome of its job and is done. -/
  | store {p : Pool} (j : Job) (front back : List Job)
      (hcomposing : p.composing = front ++ j :: back) :
      Step c p { p with
        composing := front ++ back
        held := p.held.store
          ⟨j, Source.compose c.disk c.strict (p.isCancelled c) j.path⟩ }

/-- However its workers act, the request comes to its end, and `P` holds of it then: there is no
run of actions without end, and where no action is possible nothing is left to do. -/
def Returns (c : Crew) (P : Pool → Prop) (p : Pool) : Prop :=
  Acc (fun after before => Step c before after) p ∧
  ∀ q, Relation.ReflTransGen (Step c) p q → (∀ q', ¬ Step c q q') → q.IsDone ∧ P q

theorem Returns.imp {c : Crew} {P Q : Pool → Prop} {p : Pool} (h : Returns c P p)
    (himp : ∀ q, P q → Q q) : Returns c Q p :=
  ⟨h.1, fun q hreach hstuck => (h.2 q hreach hstuck).imp_right (himp q)⟩

/-- The failure of a request is what it returns instead of a result. -/
theorem failure_eq (p : Pool) :
    p.failure = match p.result with
      | .ok _ => none
      | .error f => some f := by
  rw [result]
  cases p.failure with
  | none => rfl
  | some f => rfl

/-- A request of a cancelled run fails if and only if some job is not held. -/
theorem failure_of_cancelled {p : Pool} {compose : Path → Outcome} {jobs ended : List Job}
    {r : ReadAhead} (hended : ended.Perm (r.missing jobs))
    (hresult : p.result = r.request compose (fun _ => ended) true jobs) :
    (p.failure = some .cancelled ↔ ∃ j ∈ jobs, r.has j.identity = false) ∧
    (p.failure = none ↔ ∀ j ∈ jobs, r.has j.identity = true) := by
  have hsome : (∃ j ∈ jobs, r.has j.identity = false) ↔ r.missing jobs ≠ [] := by
    simp [ReadAhead.missing_eq_nil_iff]
  rw [p.failure_eq, hresult, ReadAhead.request_cancelled hended, hsome,
    ← ReadAhead.missing_eq_nil_iff]
  by_cases hnil : r.missing jobs = []
  · simp [hnil]
  · simp [hnil]

/-! ### A request comes to its end -/

section End

variable {c : Crew} {p q : Pool}

/-- There is room for a first worker. -/
theorem hasRoom_of_idle (hlimit : c.limit ≠ 0) (hstarted : p.started = [])
    (hcomposing : p.composing = []) : p.HasRoom c.limit := by
  have hne : c.limit.toInt ≠ 0 := fun h => hlimit (Int64.toInt_inj.1 h)
  have hzero : (0 : Int64).toInt = 0 := rfl
  rw [HasRoom, hstarted, hcomposing, Int64.lt_iff_toInt_lt, hzero]
  simp only [List.length_nil]
  omega

/-- **A request does not hang**: as long as something is left to do, something can be done. -/
theorem exists_step (hlimit : c.limit ≠ 0) (hp : ¬ p.IsDone) : ∃ q, Step c p q := by
  -- the workers come first: a job in line may have to wait for them
  cases hcomposing : p.composing with
  | cons j back => exact ⟨_, .store j [] back hcomposing⟩
  | nil =>
    cases hstarted : p.started with
    | cons j back =>
      cases hc : p.isCancelled c with
      | true => exact ⟨_, .giveUp j [] back hstarted hc⟩
      | false => exact ⟨_, .compose j [] back hstarted hc⟩
    | nil =>
      cases hnext : p.next with
      | some j => exact ⟨_, .hand j hnext (hasRoom_of_idle hlimit hstarted hcomposing)⟩
      | none =>
        cases hline : p.line with
        | nil => exact absurd ⟨hline, hnext, hstarted, hcomposing⟩ hp
        | cons j rest =>
          cases hheld : p.held.has j.identity with
          | true => exact ⟨_, .skip j rest hnext hline hheld⟩
          | false => exact ⟨_, .look j rest hnext hline hheld⟩

/-- How many actions are left at most. -/
def size (p : Pool) : Nat :=
  4 * p.line.length + 3 * p.next.toList.length + 2 * p.started.length + p.composing.length

/-- **A request does not go on for ever**: every action leaves fewer of them. -/
theorem size_lt_of_step (h : Step c p q) : q.size < p.size := by
  cases h <;> grind [size]

theorem acc (c : Crew) (p : Pool) : Acc (fun after before => Step c before after) p :=
  Subrelation.accessible (fun h => size_lt_of_step h)
    (InvImage.accessible size (Nat.lt_wfRel.wf.apply p.size))

end End

/-! ### What is held on the way -/

/-- The jobs of a request that have to be done, `ended` being done: each of them is done, at some
worker or in line. The outcomes of those that are done are held, unless the run was cancelled. In a
cancelled run no file is composed, and one job that is done makes the request fail. -/
structure Serves (c : Crew) (jobs : List Job) (r : ReadAhead) (ended : List Job) (p : Pool) :
    Prop where
  perm : (ended ++ p.composing ++ p.started ++ p.next.toList ++ r.missing p.line).Perm
    (r.missing jobs)
  held_eq : p.held = if c.cancelled then r else r.run c.compose ended
  composing_eq : c.cancelled = true → p.composing = []
  failure_eq : p.failure = if c.cancelled && !ended.isEmpty then some .cancelled else none

theorem serves_start (c : Crew) (jobs : List Job) (r : ReadAhead) :
    Serves c jobs r [] (start jobs r) where
  perm := List.Perm.refl _
  held_eq := (ite_self r).symm
  composing_eq := fun _ => rfl
  failure_eq := by simp [start]

namespace Serves

variable {c : Crew} {jobs ended : List Job} {r : ReadAhead} {p q : Pool}

/-- The jobs that have to be done have different identities. -/
theorem nodup (hjobs : (jobs.map Job.identity).Nodup) (h : Serves c jobs r ended p) :
    ((ended ++ p.composing ++ p.started ++ p.next.toList ++ r.missing p.line).map
      Job.identity).Nodup :=
  (h.perm.map Job.identity).nodup_iff.2 (ReadAhead.nodup_missing hjobs)

/-- A job in line is held if it was held before the request, since no other job of the request has
its identity. -/
theorem has_line (hjobs : (jobs.map Job.identity).Nodup) (h : Serves c jobs r ended p) {j : Job}
    (hj : j ∈ p.line) : p.held.has j.identity = r.has j.identity := by
  rw [h.held_eq]
  split
  · rfl
  · rw [ReadAhead.has_run]
    by_cases hr : r.has j.identity = true
    · rw [hr, Bool.true_or]
    · have hnone : ended.any (·.identity == j.identity) = false := by
        refine List.any_eq_false.2 fun k hk heq => ?_
        have hnodup := h.nodup hjobs
        rw [List.append_assoc, List.append_assoc, List.append_assoc, List.map_append] at hnodup
        refine List.disjoint_of_nodup_append hnodup (List.mem_map_of_mem hk) ?_
        refine List.mem_map.2 ⟨j, ?_, (beq_iff_eq.1 heq).symm⟩
        simp [ReadAhead.mem_missing, hj, hr]
      rw [hnone, Bool.or_false]

/-- No worker gives up unless the run was cancelled before the request. -/
theorem isCancelled_eq (h : Serves c jobs r ended p) : p.isCancelled c = c.cancelled := by
  rw [isCancelled, h.failure_eq]
  cases c.cancelled <;> simp

/-- **An action keeps account of the jobs.** -/
theorem step (hjobs : (jobs.map Job.identity).Nodup) (h : Serves c jobs r ended p)
    (hstep : Step c p q) : ∃ ended', Serves c jobs r ended' q := by
  cases hstep with
  | skip j rest hnext hline hheld =>
    have hr : r.has j.identity = true := (h.has_line hjobs (by simp [hline])).symm.trans hheld
    refine ⟨ended, ?_, h.held_eq, h.composing_eq, h.failure_eq⟩
    have hperm := h.perm
    rwa [hline, ReadAhead.missing_cons_of_has hr] at hperm
  | look j rest hnext hline hheld =>
    have hr : r.has j.identity = false := (h.has_line hjobs (by simp [hline])).symm.trans hheld
    refine ⟨ended, ?_, h.held_eq, h.composing_eq, h.failure_eq⟩
    have hperm := h.perm
    rw [hline, ReadAhead.missing_cons_of_not_has hr, hnext] at hperm
    simpa using hperm
  | hand j hnext hroom =>
    refine ⟨ended, List.Perm.trans ?_ h.perm, h.held_eq, h.composing_eq, h.failure_eq⟩
    rw [hnext]
    grind
  | giveUp j front back hstarted hcancelled =>
    have hc : c.cancelled = true := h.isCancelled_eq.symm.trans hcancelled
    refine ⟨ended ++ [j], List.Perm.trans ?_ h.perm, ?_, h.composing_eq, ?_⟩
    · rw [hstarted]
      grind
    · rw [hc]
      exact h.held_eq.trans (by rw [hc]; rfl)
    · show p.failure.or (some .cancelled) = _
      rw [h.failure_eq, hc]
      cases ended <;> simp
  | compose j front back hstarted hcancelled =>
    have hc : c.cancelled = false := h.isCancelled_eq.symm.trans hcancelled
    refine ⟨ended, List.Perm.trans ?_ h.perm, h.held_eq, fun hc' => ?_, h.failure_eq⟩
    · rw [hstarted]
      grind
    · rw [hc] at hc'
      cases hc'
  | store j front back hcomposing =>
    have hc : c.cancelled = false := by
      cases hc : c.cancelled with
      | false => rfl
      | true => simp [h.composing_eq hc] at hcomposing
    refine ⟨ended ++ [j], List.Perm.trans ?_ h.perm, ?_, fun hc' => ?_, ?_⟩
    · rw [hcomposing]
      grind
    · show p.held.store ⟨j, Source.compose c.disk c.strict (p.isCancelled c) j.path⟩ = _
      rw [h.isCancelled_eq, h.held_eq, if_neg (by simp [hc]), if_neg (by simp [hc]),
        ReadAhead.run_concat]
      rfl
    · rw [hc] at hc'
      cases hc'
    · exact h.failure_eq.trans (by rw [hc]; rfl)

/-- **A run of actions keeps account of the jobs.** -/
theorem of_reaches (hjobs : (jobs.map Job.identity).Nodup) (h : Serves c jobs r ended p)
    (hreach : Relation.ReflTransGen (Step c) p q) : ∃ ended', Serves c jobs r ended' q := by
  induction hreach with
  | refl => exact ⟨ended, h⟩
  | tail _ hstep ih =>
    obtain ⟨ended', h'⟩ := ih
    exact h'.step hjobs hstep

/-- Once nothing is left to do, every job that had to be done is done. -/
theorem perm_of_isDone (h : Serves c jobs r ended p) (hdone : p.IsDone) :
    ended.Perm (r.missing jobs) := by
  obtain ⟨hline, hnext, hstarted, hcomposing⟩ := hdone
  have hperm := h.perm
  rw [hline, hnext, hstarted, hcomposing] at hperm
  simpa [ReadAhead.missing] using hperm

/-- Once nothing is left to do, the request returns what it gives for the order in which the jobs
were done. -/
theorem result_of_isDone (h : Serves c jobs r ended p) (hdone : p.IsDone) :
    p.result = r.request c.compose (fun _ => ended) c.cancelled jobs := by
  have hperm := h.perm_of_isDone hdone
  have hheld := h.held_eq
  have hfailure := h.failure_eq
  cases hc : c.cancelled with
  | false =>
    rw [hc] at hheld hfailure
    rw [ReadAhead.request_live, result, hfailure, hheld]
    rfl
  | true =>
    rw [hc] at hheld hfailure
    rw [ReadAhead.request_cancelled hperm, result, hfailure, hheld]
    by_cases hnil : r.missing jobs = []
    · have hended : ended = [] := List.perm_nil.1 (hnil ▸ hperm)
      simp [hnil, hended]
    · have hended : ended ≠ [] := fun heq => hnil (List.nil_perm.1 (heq ▸ hperm))
      simp [hnil, hended]

theorem held_of_isDone (h : Serves c jobs r ended p) (hdone : p.IsDone) :
    p.held = r.requested c.compose (fun _ => ended) c.cancelled jobs := by
  rw [h.held_eq]
  cases hc : c.cancelled with
  | false => rfl
  | true => exact (ReadAhead.requested_cancelled (h.perm_of_isDone hdone)).symm

end Serves

/-- **A request returns**, and what it returns and what is held then is what `ReadAhead.request`
gives for the order in which the workers finished. -/
theorem returns_request (c : Crew) (hlimit : c.limit ≠ 0) {jobs : List Job}
    (hjobs : (jobs.map Job.identity).Nodup) (r : ReadAhead) :
    Returns c (fun p => ∃ ended, ended.Perm (r.missing jobs) ∧
      p.result = r.request c.compose (fun _ => ended) c.cancelled jobs ∧
      p.held = r.requested c.compose (fun _ => ended) c.cancelled jobs) (start jobs r) := by
  refine ⟨acc c _, fun q hreach hstuck => ?_⟩
  have hdone : q.IsDone := by
    by_contra hdone
    obtain ⟨q', hstep⟩ := exists_step hlimit hdone
    exact hstuck q' hstep
  obtain ⟨ended, h⟩ := (serves_start c jobs r).of_reaches hjobs hreach
  exact ⟨hdone, ended, h.perm_of_isDone hdone, h.result_of_isDone hdone, h.held_of_isDone hdone⟩

/-! ### Every order can come about -/

section Orders

variable {c : Crew}

/-- While there is room, the jobs in line that are not held can be handed out one by one. -/
theorem reaches_started (r : ReadAhead) (line started : List Job)
    (hroom : c.limit < 0 ∨
      ((started.length + (r.missing line).length : Nat) : Int) ≤ c.limit.toInt) :
    Relation.ReflTransGen (Step c) ⟨line, none, started, [], r, none⟩
      ⟨[], none, (r.missing line).reverse ++ started, [], r, none⟩ := by
  induction line generalizing started with
  | nil => exact .refl
  | cons j line ih =>
    cases hheld : r.has j.identity with
    | true =>
      rw [ReadAhead.missing_cons_of_has hheld] at hroom ⊢
      exact .head (.skip j line rfl rfl hheld) (ih started hroom)
    | false =>
      rw [ReadAhead.missing_cons_of_not_has hheld, List.length_cons] at hroom
      have hhand : HasRoom ⟨line, some j, started, [], r, none⟩ c.limit := by
        refine hroom.imp_right fun hle => ?_
        simp only [List.length_nil]
        omega
      have hrest := ih (j :: started) <| hroom.imp_right fun hle => by
        simp only [List.length_cons]
        omega
      rw [ReadAhead.missing_cons_of_not_has hheld, List.reverse_cons, List.append_assoc]
      exact .head (.look j line rfl rfl hheld) (.head (.hand j rfl hhand) hrest)

/-- The workers of a live run can all begin to compose. -/
theorem reaches_composing (hlive : c.cancelled = false) (r : ReadAhead)
    (started composing : List Job) :
    Relation.ReflTransGen (Step c) ⟨[], none, started, composing, r, none⟩
      ⟨[], none, [], started.reverse ++ composing, r, none⟩ := by
  induction started generalizing composing with
  | nil => exact .refl
  | cons j started ih =>
    have hc : isCancelled ⟨[], none, j :: started, composing, r, none⟩ c = false := by
      simp [isCancelled, hlive]
    rw [List.reverse_cons, List.append_assoc]
    exact .head (.compose j [] started rfl hc) (ih (j :: composing))

/-- Workers that compose can finish in any order. -/
theorem reaches_stored (r : ReadAhead) {composing ended : List Job}
    (hended : ended.Perm composing) :
    Relation.ReflTransGen (Step c) ⟨[], none, [], composing, r, none⟩
      ⟨[], none, [], [], r.run c.compose ended, none⟩ := by
  induction ended generalizing composing r with
  | nil =>
    rw [List.nil_perm.1 hended]
    exact .refl
  | cons j ended ih =>
    obtain ⟨front, back, rfl⟩ := List.append_of_mem (hended.subset List.mem_cons_self)
    have hrest : ended.Perm (front ++ back) := (hended.trans List.perm_middle).cons_inv
    have hc : isCancelled ⟨[], none, [], front ++ j :: back, r, none⟩ c = c.cancelled := by
      simp [isCancelled]
    have hstep := Step.store (c := c) (p := ⟨[], none, [], front ++ j :: back, r, none⟩)
      j front back rfl
    rw [hc] at hstep
    exact .head hstep (ih _ hrest)

/-- With room for a worker for each job that has to be done, the jobs of a live request can be done
in any order. -/
theorem exists_reaches_of_perm (hlive : c.cancelled = false) (r : ReadAhead)
    {jobs ended : List Job} (hended : ended.Perm (r.missing jobs))
    (hroom : c.limit < 0 ∨ ((r.missing jobs).length : Int) ≤ c.limit.toInt) :
    ∃ p, Relation.ReflTransGen (Step c) (start jobs r) p ∧ p.IsDone ∧
      p.result = r.request c.compose (fun _ => ended) c.cancelled jobs := by
  refine ⟨⟨[], none, [], [], r.run c.compose ended, none⟩, ?_, ⟨rfl, rfl, rfl, rfl⟩, ?_⟩
  · have hstarted := reaches_started r jobs [] (by simpa using hroom)
    have hcomposing := reaches_composing hlive r ((r.missing jobs).reverse ++ []) []
    refine hstarted.trans (hcomposing.trans (reaches_stored r ?_))
    simpa using hended
  · rw [hlive]
    rfl

/-- **Every order comes about, and nothing else does.** With room for a worker for each job that has
to be done, a live request can return exactly what `ReadAhead.request` gives for some order of these
jobs. -/
theorem exists_reaches_isDone_iff (hlive : c.cancelled = false) {jobs : List Job}
    (hjobs : (jobs.map Job.identity).Nodup) (r : ReadAhead)
    (hroom : c.limit < 0 ∨ ((r.missing jobs).length : Int) ≤ c.limit.toInt)
    (result : Except Failure ReadAhead) :
    (∃ p, Relation.ReflTransGen (Step c) (start jobs r) p ∧ p.IsDone ∧ p.result = result) ↔
      ∃ ended, ended.Perm (r.missing jobs) ∧
        r.request c.compose (fun _ => ended) c.cancelled jobs = result := by
  constructor
  · rintro ⟨p, hreach, hdone, rfl⟩
    obtain ⟨ended, h⟩ := (serves_start c jobs r).of_reaches hjobs hreach
    exact ⟨ended, h.perm_of_isDone hdone, (h.result_of_isDone hdone).symm⟩
  · rintro ⟨ended, hended, rfl⟩
    exact exists_reaches_of_perm hlive r hended hroom

end Orders

end Pool

end ForthFrontend.Include
