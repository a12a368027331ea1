import ForthFrontend.Include.Resolve

/-!
# Parsing on disks that agree

Parsing looks at the disk through three questions only: which atoms a path composes to, which
identity it has, and which path a target means. Where two settings answer them alike, a state of one
is a state of the other, and the runs go through the same states and leave the same journal.

## Main definitions

* `Include.Setting.Agrees`: the settings answer alike.

## Main results

* `Include.Resolution.step_carry`: a step from a state carried over.
* `Include.Resolution.run_carry`: a run from a state carried over.
* `Include.Setting.Agrees.parse_eq`: parsing in settings that agree.
-/

namespace ForthFrontend.Include

/-- Both settings work in the same manner, and the disks answer alike. -/
structure Setting.Agrees (s s' : Setting) : Prop where
  workers : s'.workers = s.workers
  schedule : s'.schedule = s.schedule
  compose : ∀ cancelled path, Source.compose s'.disk s'.strict cancelled path =
    Source.compose s.disk s.strict cancelled path
  identity : ∀ path, s'.disk.identity path = s.disk.identity path
  includePath : ∀ source target, s'.disk.includePath source target =
    s.disk.includePath source target

variable {s s' : Setting}

namespace Setting.Agrees

theorem compose_eq (h : s.Agrees s') : s'.compose = s.compose := by
  funext path
  exact h.compose false path

theorem readsAhead_eq (h : s.Agrees s') : s'.readsAhead = s.readsAhead := by
  rw [readsAhead, readsAhead, h.workers]

theorem pending_eq (h : s.Agrees s') : pending s'.disk = pending s.disk := by
  funext visited atoms
  have hjob : addJob s'.disk visited = addJob s.disk visited := by
    funext jobs pair
    simp only [addJob, h.includePath, h.identity]
  rw [pending, pending, hjob]

end Setting.Agrees

namespace Resolution

/-- The same state in a setting that agrees. -/
def carry (h : s.Agrees s') (r : Resolution s) : Resolution s' where
  atoms := r.atoms
  visited := r.visited
  held := r.held
  sound := by
    intro x hx
    rw [h.identity, h.compose_eq]
    exact r.sound x hx

/-- The same outcome of a step in a setting that agrees. -/
def Step.carry (h : s.Agrees s') : Step s → Step s'
  | .finished result => .finished result
  | .spliced next => .spliced (next.carry h)

section Carry

variable (h : s.Agrees s') (r : Resolution s)

@[simp] theorem atoms_carry : (r.carry h).atoms = r.atoms := rfl

@[simp] theorem visited_carry : (r.carry h).visited = r.visited := rfl

@[simp] theorem held_carry : (r.carry h).held = r.held := rfl

theorem ahead_carry : (r.carry h).ahead = r.ahead := by
  rw [ahead, ahead, h.schedule, h.pending_eq]
  rfl

theorem readAhead_carry : (r.carry h).readAhead = r.readAhead.carry h := by
  simp only [readAhead, h.readsAhead_eq, ahead_carry, h.compose_eq]
  split <;> rfl

theorem readAheadEvents_carry : (r.carry h).readAheadEvents = r.readAheadEvents := by
  rw [readAheadEvents, readAheadEvents, h.readsAhead_eq, ahead_carry, h.compose_eq]

theorem fetch_carry (id path : Path) : (r.carry h).fetch id path = r.fetch id path := by
  rw [fetch, fetch, h.compose_eq]
  rfl

theorem replaceFirst_carry :
    (r.carry h).replaceFirst = (r.replaceFirst.1.carry h, r.replaceFirst.2) := by
  simp only [replaceFirst, atoms_carry, visited_carry, held_carry, h.includePath, h.identity,
    fetch_carry]
  cases findDirective? r.atoms with
  | none => rfl
  | some pos =>
    cases hdrop : r.atoms.drop pos with
    | nil => simp only [hdrop, Step.carry]
    | cons directive rest =>
      cases rest with
      | nil => simp only [hdrop, Step.carry]
      | cons target rest =>
        simp only [hdrop]
        split
        · rfl
        · generalize r.fetch _ _ = fetched
          obtain ⟨outcome, events⟩ := fetched
          cases outcome <;> rfl

/-- **A step** from a state carried over is the step carried over. -/
theorem step_carry : (r.carry h).step = (r.step.1.carry h, r.step.2) := by
  rw [step, step, readAhead_carry, replaceFirst_carry, readAheadEvents_carry]

/-- **A run** from a state carried over is the same run. -/
theorem run_carry : (r.carry h).run = r.run := by
  fun_induction run r with
  | case1 r result events hstep =>
    rw [run.eq_def]
    have hcarry := step_carry h r
    rw [hstep] at hcarry
    split
    · next hstep' =>
      rw [hcarry] at hstep'
      cases hstep'
      rfl
    · next hstep' =>
      rw [hcarry] at hstep'
      cases hstep'
  | case2 r next events hstep rest ih =>
    rw [run.eq_def]
    have hcarry := step_carry h r
    rw [hstep] at hcarry
    split
    · next hstep' =>
      rw [hcarry] at hstep'
      cases hstep'
    · next hstep' =>
      rw [hcarry] at hstep'
      cases hstep'
      simp only [ih]
      rfl

end Carry

end Resolution

/-- **Parsing** gives the same in settings that agree, journal included. -/
theorem Setting.Agrees.parse_eq (h : s.Agrees s') (cancelled : Bool) (entry : Path) :
    parse s' cancelled entry = parse s cancelled entry := by
  have hresolve : ∀ atoms, resolve s' cancelled entry atoms = resolve s cancelled entry atoms := by
    intro atoms
    have hstart : Resolution.start s' entry atoms = (Resolution.start s entry atoms).carry h := by
      rw [Resolution.start]
      simp only [h.identity]
      rfl
    rw [resolve, resolve, hstart, Resolution.run_carry]
  simp only [parse, h.compose, hresolve]

end ForthFrontend.Include
