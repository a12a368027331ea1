import ForthFrontend.Operation
import ForthFrontend.Proofs.Compilation
import ForthFrontend.Proofs.Include.Conservation

/-!
# What reporting changes

The user chooses what is told about a compilation. The choice shows on the output channel only: the
error channel gets the notices of errors, and which of them are given depends on the outcome alone.
Showing the symbol tables fails if the operation is cancelled, but then parsing has failed before
there were any tables to show. It also fails if they are opened in a pager that fails, which takes a
terminal.

## Main definitions

* `Notice.isError`: the notices that go to the error channel.
* `Operation.outcome`: what a compilation comes to, whatever is told about it.

## Main results

* `Operation.compile_of_error`, `Operation.compile_of_fault`, `Operation.compile_of_ok`: how an
  operation that compiles goes.
* `Operation.toRecorded_compile`: a compilation comes to its outcome, if its tables can be shown.
* `Operation.errors_compile`: the one error that a failed compilation tells.
* `Operation.compile_reporting_shows_on_output_only`: reporting changes nothing but the output.
-/

namespace ForthFrontend

/-! ### Channels -/

namespace Notice

/-- Is it the notice of an error? -/
def isError : Notice → Bool
  | error _ => true
  | _ => false

theorem err_present (l : Look) {n : Notice} (h : n.isError = false) : (n.present l).err = [] := by
  cases l with
  | plain => cases n with
    | error message => cases h
    | _ => rfl
  | styled palette => cases n with
    | error message => cases h
    | _ => rfl

theorem out_present (l : Look) {n : Notice} (h : n.isError = true) : (n.present l).out = [] := by
  cases n with
  | error message => cases l <;> rfl
  | _ => cases h

/-- **Only notices of errors** reach the error channel. -/
theorem err_presentAll (l : Look) (ns : List Notice) :
    (presentAll l ns).err = (presentAll l (ns.filter isError)).err := by
  induction ns with
  | nil => rfl
  | cons n ns ih =>
    have hcons : (presentAll l (n :: ns)).err = (n.present l).err ++ (presentAll l ns).err := rfl
    rw [hcons, ih]
    by_cases hn : n.isError = true
    · rw [List.filter_cons_of_pos hn]
      rfl
    · rw [List.filter_cons_of_neg hn, err_present l (by simpa using hn), List.nil_append]

/-- Notices of errors leave the output channel alone. -/
theorem out_presentAll (l : Look) {ns : List Notice} (h : ∀ n ∈ ns, n.isError = true) :
    (presentAll l ns).out = [] :=
  List.flatMap_eq_nil_iff.2 fun n hn => out_present l (h n hn)

end Notice

/-- A compilation that finishes was not cancelled, since no source can be opened then. -/
theorem Compilation.not_cancelled_of_run {tools : Toolchain} {d : Disk} {cancelled : Bool}
    {o : CompileOptions} {schedule : Include.Schedule} {c : Compilation}
    (h : (run tools d cancelled o schedule).result = .ok c) : cancelled = false := by
  obtain ⟨-, hparse, -, -⟩ := completes_of_result h
  exact Include.not_cancelled_of_parse_eq_ok hparse

namespace Operation

/-! ### Notices of a compilation -/

section Notices

variable (clock : Clock) (o : CompileOptions) (r : Reporting)

theorem filter_given (p : Notice → Bool) (wanted : Bool) (ns : List Notice) :
    (given wanted ns).filter p = given wanted (ns.filter p) := by
  cases wanted <;> rfl

theorem given_nil (wanted : Bool) : given wanted [] = [] := by
  cases wanted <;> rfl

theorem filter_opening : (opening o r).filter Notice.isError = [] := by
  rw [opening, List.filter_append, filter_given, filter_given]
  exact congrArg₂ _ (given_nil _) (given_nil _)

theorem filter_progress (stages : List Stage) :
    (progress clock r stages).filter Notice.isError = [] := by
  rw [progress, filter_given, List.filter_map]
  have hnone : stages.filter (Notice.isError ∘ fun s =>
      .stage s.name (if r.clock then some (clock s) else none)) = [] :=
    List.filter_eq_nil_iff.2 fun _ _ h => Bool.false_ne_true h
  rw [hnone]
  exact given_nil _

theorem filter_summing (c : Compilation) : (summing clock r c).filter Notice.isError = [] := by
  rw [summing, filter_given]
  exact given_nil _

theorem isError_appearance (screen : Screen) {n : Notice} (h : n.isError = false) :
    (screen.appearance n).isError = false := by
  rw [Screen.appearance]
  cases screen.pager? n with
  | none => exact h
  | some p => rfl

theorem filter_mapping (screen : Screen) (c : Compilation) :
    (mapping screen r c).filter Notice.isError = [] := by
  have hnone : [screen.appearance (.map c.tables)].filter Notice.isError = [] := by
    rw [List.filter_cons_of_neg (by simp [isError_appearance screen (n := .map c.tables) rfl])]
    rfl
  rw [mapping, filter_given, filter_given, hnone, given_nil, given_nil]

theorem filter_closing : (closing r).filter Notice.isError = [] := by
  rw [closing, filter_given]
  exact given_nil _

theorem filter_failing (f : Failure) :
    (failing r f).filter Notice.isError = [.error f.message] := by
  rw [failing, List.filter_cons_of_pos rfl, filter_given]
  exact congrArg _ (given_nil _)

end Notices

/-! ### Outcomes -/

variable (tools : Toolchain) (d : Disk) (cancelled : Bool) (o : CompileOptions)

section Cases

variable {tools d cancelled o} {clock : Clock} {r : Reporting} {s : Surroundings}

/-- How an operation goes if the program does not compile. -/
theorem compile_of_error {f : Failure}
    (h : (Compilation.run tools d cancelled o s.schedule).result = .error f) :
    let run := Compilation.run tools d cancelled o s.schedule
    compile tools clock d cancelled o r s =
      { journal := run.journal ++ [.compilationFailed]
        result := .error f
        disk := run.disk
        notices := told cancelled
          (opening o r ++ progress clock r run.stages ++ failing r f) } := by
  simp only [compile, h]

/-- How an operation goes if the program compiles, but its symbol tables cannot be shown. -/
theorem compile_of_fault {c : Compilation} {why : Fault}
    (h : (Compilation.run tools d cancelled o s.schedule).result = .ok c)
    (hfault : mapFault? cancelled s.toScreen r c = some why) :
    let run := Compilation.run tools d cancelled o s.schedule
    compile tools clock d cancelled o r s =
      { journal := run.journal
        result := .error (.mapUndisplayed why)
        disk := run.disk
        notices := told cancelled (opening o r ++ progress clock r run.stages ++ summing clock r c
          ++ mapping s.toScreen r c) } := by
  simp only [compile, h, hfault]

/-- How an operation goes if the program compiles and everything is shown. -/
theorem compile_of_ok {c : Compilation}
    (h : (Compilation.run tools d cancelled o s.schedule).result = .ok c)
    (hfault : mapFault? cancelled s.toScreen r c = none) :
    let run := Compilation.run tools d cancelled o s.schedule
    compile tools clock d cancelled o r s =
      { journal := run.journal
        result := .ok ()
        disk := run.disk
        notices := told cancelled (opening o r ++ progress clock r run.stages ++ summing clock r c
          ++ mapping s.toScreen r c ++ closing r) } := by
  simp only [compile, h, hfault]

end Cases

/-- What a compilation comes to, whatever is told about it: its journal, its result or failure, and
the disk it leaves. -/
def outcome (schedule : Include.Schedule) : Recorded Unit :=
  let run := Compilation.run tools d cancelled o schedule
  match run.result with
  | .error f =>
    { journal := run.journal ++ [.compilationFailed], result := .error f, disk := run.disk }
  | .ok _ => { journal := run.journal, result := .ok (), disk := run.disk }

/-- **A compilation comes to its outcome**, however it is reported, if its tables can be shown. -/
theorem toRecorded_compile (clock : Clock) (r : Reporting) (s : Surroundings)
    (hfault : ∀ t, s.toScreen.fault? (.map t) = none) :
    (compile tools clock d cancelled o r s).toRecorded =
      outcome tools d cancelled o s.schedule := by
  rw [outcome]
  cases hrun : (Compilation.run tools d cancelled o s.schedule).result with
  | error f => rw [compile_of_error hrun]
  | ok c =>
    -- nobody cancelled the operation
    have hnone : mapFault? cancelled s.toScreen r c = none := by
      rw [Compilation.not_cancelled_of_run hrun, mapFault?]
      split
      · exact hfault c.tables
      · rfl
    rw [compile_of_ok hrun hnone]

/-- Without a terminal nothing is opened in a pager. -/
theorem fault?_of_terminal?_eq_none {screen : Screen} (h : screen.terminal? = none) (n : Notice) :
    screen.fault? n = none := by
  rw [Screen.fault?, h]
  cases screen.pager? n <;> rfl

theorem filter_told (ns : List Notice) :
    (told cancelled ns).filter Notice.isError = told cancelled (ns.filter Notice.isError) := by
  cases cancelled <;> rfl

/-- **The errors that a compilation tells**: its failure, once, unless it was cancelled. That its
symbol tables cannot be shown is not told. -/
theorem errors_compile (clock : Clock) (r : Reporting) (s : Surroundings) :
    (compile tools clock d cancelled o r s).notices.filter Notice.isError =
      match (Compilation.run tools d cancelled o s.schedule).result with
      | .error f => told cancelled [.error f.message]
      | .ok _ => [] := by
  cases hrun : (Compilation.run tools d cancelled o s.schedule).result with
  | error f =>
    rw [compile_of_error hrun]
    simp only [filter_told, List.filter_append, filter_opening, filter_progress, filter_failing,
      List.nil_append]
  | ok c =>
    have hnone : told cancelled [] = [] := by cases cancelled <;> rfl
    cases hfault : mapFault? cancelled s.toScreen r c with
    | some why =>
      rw [compile_of_fault hrun hfault]
      simp only [filter_told, List.filter_append, filter_opening, filter_progress, filter_summing,
        filter_mapping, List.nil_append, hnone]
    | none =>
      rw [compile_of_ok hrun hfault]
      simp only [filter_told, List.filter_append, filter_opening, filter_progress, filter_summing,
        filter_mapping, filter_closing, List.nil_append, hnone]

/-- A quiet compilation without a logo tells nothing but errors. -/
theorem isError_of_quiet {clock : Clock} {r : Reporting} (hquiet : r.quiet = true)
    (hlogo : r.logo = false) (s : Surroundings) :
    ∀ n ∈ (compile tools clock d cancelled o r s).notices, n.isError = true := by
  have hbefore : ∀ stages, opening o r ++ progress clock r stages = [] := by
    intro stages
    simp [opening, progress, given, hquiet, hlogo]
  have hnone : ∀ c, mapFault? cancelled s.toScreen r c = none := by simp [mapFault?, hquiet]
  cases hrun : (Compilation.run tools d cancelled o s.schedule).result with
  | error f =>
    rw [compile_of_error hrun, hbefore]
    cases cancelled <;> simp [told, failing, given, hquiet, Notice.isError]
  | ok c =>
    rw [compile_of_ok hrun (hnone c), hbefore]
    cases cancelled <;> simp [told, summing, mapping, closing, given, hquiet]

/-- **Reporting shows on the output channel only.** Whatever the disk, the options, the tools and
the look of notices, and whether the operation is cancelled or not: two compilations that differ in
what is reported, and in the time they take, have one result, leave one disk and one journal, and
write the same to the error channel. A quiet one without a logo writes nothing to the output
channel. The output channel has no terminal behind it, and may have a limit. -/
theorem compile_reporting_shows_on_output_only (look : Look) (limit? : Option Limit)
    (schedule : Include.Schedule) :
    let s : Surroundings := { look := look, limit? := limit?, schedule := schedule }
    (∀ clock clock' r r',
      (compile tools clock d cancelled o r s).toRecorded =
        (compile tools clock' d cancelled o r' s).toRecorded ∧
      (Notice.presentAll look (compile tools clock d cancelled o r s).notices).err =
        (Notice.presentAll look (compile tools clock' d cancelled o r' s).notices).err) ∧
    ∀ clock timed mapped, (Notice.presentAll look (compile tools clock d cancelled o
      { logo := false, quiet := true, clock := timed, map := mapped } s).notices).out = [] := by
  intro s
  have hfault : ∀ t, s.toScreen.fault? (.map t) = none :=
    fun t => fault?_of_terminal?_eq_none rfl (.map t)
  constructor
  · intro clock clock' r r'
    constructor
    · rw [toRecorded_compile _ _ _ _ _ _ _ hfault, toRecorded_compile _ _ _ _ _ _ _ hfault]
    · rw [Notice.err_presentAll, errors_compile, Notice.err_presentAll look
        (compile tools clock' d cancelled o r' s).notices, errors_compile]
  · intro clock timed mapped
    exact Notice.out_presentAll look (isError_of_quiet tools d cancelled o rfl rfl s)

end Operation

end ForthFrontend
