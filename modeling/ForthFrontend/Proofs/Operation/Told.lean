import ForthFrontend.Command
import ForthFrontend.Proofs.Operation

/-!
# Which failures are told

A program that does not compile is told to the user, once, and so is a failure to find the atoms of
a listing. Success is told by no error. Whatever fails behind that is not told: the symbol tables
and the atoms are opened in a pager that fails, there is no room for the dump on the output channel,
the atoms cannot be saved, or they are to be printed in a format that is not known. Then nothing is
shown on the error channel, and only the exit code of the program says that something went wrong.

## Main definitions

* `Operation.TellsOutcome`: a failure is told once, and success by no error.
* `Operation.MapUntold`, `Operation.ListingUntold`: the failures that are not told.

## Main results

* `Operation.tellsOutcome_compile_iff`: when a compilation tells its outcome.
* `Operation.tellsOutcome_listAtoms_iff`: when listing atoms tells its outcome.
* `Operation.outcomes_told_iff`: both, with what is shown of an untold failure.
-/

namespace ForthFrontend

/-- The label of errors in a look. -/
def Look.errorLabel : Look → Bytes
  | plain => Notice.errorLabel
  | styled palette => Style.bad.apply palette Notice.errorLabel

/-- What the error channel shows of a failure: the label of errors, and the text of the failure. -/
def Failure.told (look : Look) (f : Failure) : Bytes :=
  "\n" ++ look.errorLabel ++ " " ++ f.message ++ "\n"

theorem Failure.told_ne_nil (look : Look) (f : Failure) : f.told look ≠ [] := by
  have hbreak : Bytes.ofString "\n" ≠ [] := by decide
  simp [told, hbreak]

/-- A failed operation ends the program with exit code 1. -/
theorem Command.exitCode_finish {h : Host} {c : Config} {op : Operation} {f : Failure}
    (hresult : op.result = .error f) : (finish h c op).exitCode = 1 := by
  rw [finish, hresult]
  rfl

namespace Screen

variable {s : Screen}

theorem reached_nil : s.reached {} = {} := by
  cases hl : s.limit? <;> simp [reached, hl]

/-- A listing that cannot be shown is opened in the pager. -/
theorem exists_appearance_eq_paged {n : Notice} {why : Fault} (h : s.fault? n = some why) :
    ∃ p, s.appearance n = .paged p := by
  obtain ⟨p, hp, -⟩ := Option.bind_eq_some_iff.1 h
  exact ⟨p, by rw [appearance, hp]; rfl⟩

/-- Of a document that there is no room for, the beginning reaches the output channel. -/
theorem reached_of_refusal? {document : Bytes} {l : Limit} (h : s.refusal? document = some l) :
    s.reached { out := document } = { out := document.take l.room } := by
  obtain ⟨hl, -⟩ := Option.filter_eq_some_iff.1 h
  simp [reached, hl]

end Screen

namespace Operation

/-- What the operation writes to the error channel. -/
def errors (look : Look) (op : Operation) : Bytes :=
  (Notice.presentAll look op.notices).err

/-- The operation tells its outcome on the error channel: a failure by one message, and success by
nothing. -/
def TellsOutcome (look : Look) (op : Operation) : Prop :=
  op.errors look = match op.result with
    | .error f => f.told look
    | .ok _ => []

/-- The program compiles, but its symbol tables are to be shown and cannot be. -/
def MapUntold (tools : Toolchain) (d : Disk) (o : CompileOptions) (r : Reporting)
    (s : Surroundings) (why : Fault) : Prop :=
  r.map = true ∧ r.quiet = false ∧
    ∃ c, (Compilation.run tools d false o s.schedule).result = .ok c ∧
      s.fault? (.map c.tables) = some why

/-- The atoms are found, but cannot be saved or printed. The failure stands with what of the atoms
is left on the output channel. -/
inductive ListingUntold (d : Disk) (q : AtomsRequest) (s : Surroundings) : Failure → Bytes → Prop
  | unsaved {atoms : List Atom} {e : DiskError}
      (found : (findAtoms d false q s.schedule).result = .ok atoms) (saving : q.out ≠ [])
      (failed : (d.write q.out (Dump.text atoms)).error? = some e) :
      ListingUntold d q s (.dumpUnwritten q.out (.disk e)) []
  | unprinted {atoms : List Atom} {l : Limit}
      (found : (findAtoms d false q s.schedule).result = .ok atoms) (printing : q.out = [])
      (yaml : q.format = Bytes.ofString "yaml")
      (failed : s.refusal? (Dump.text atoms) = some l) :
      ListingUntold d q s (.dumpUnprinted l.why) ((Dump.text atoms).take l.room)
  | unshown {atoms : List Atom} {why : Fault}
      (found : (findAtoms d false q s.schedule).result = .ok atoms) (printing : q.out = [])
      (table : q.format = [] ∨ q.format = Bytes.ofString "table")
      (failed : s.fault? (.atoms atoms) = some why) :
      ListingUntold d q s (.bare (.fault why)) []
  | unknown {atoms : List Atom}
      (found : (findAtoms d false q s.schedule).result = .ok atoms) (printing : q.out = [])
      (yaml : q.format ≠ Bytes.ofString "yaml")
      (table : ¬ (q.format = [] ∨ q.format = Bytes.ofString "table")) :
      ListingUntold d q s (.unknownFormat q.format) []

/-! ### Telling -/

theorem errors_eq (look : Look) (op : Operation) :
    op.errors look = (Notice.presentAll look (op.notices.filter Notice.isError)).err :=
  Notice.err_presentAll look op.notices

theorem errors_of_filter_eq_nil {look : Look} {op : Operation}
    (h : op.notices.filter Notice.isError = []) : op.errors look = [] := by
  rw [errors_eq, h]
  rfl

theorem err_presentAll_error (look : Look) (f : Failure) :
    (Notice.presentAll look [.error f.message]).err = f.told look := by
  cases look with
  | plain => exact List.append_nil _
  | styled palette => exact List.append_nil _

/-- A failure of which the error channel shows nothing is not told. -/
theorem not_tellsOutcome {look : Look} {op : Operation} {f : Failure} (h : op.result = .error f)
    (herrors : op.errors look = []) : ¬ op.TellsOutcome look := by
  rw [TellsOutcome, h, herrors]
  exact fun htells => f.told_ne_nil look htells.symm

/-! ### Compilations -/

section Compiling

variable {tools : Toolchain} {clock : Clock} {d : Disk} {o : CompileOptions} {r : Reporting}
  {s : Surroundings}

theorem mapFault?_eq_some_iff {screen : Screen} {c : Compilation} {why : Fault} :
    mapFault? false screen r c = some why ↔
      r.map = true ∧ r.quiet = false ∧ screen.fault? (.map c.tables) = some why := by
  simp [mapFault?, fault?, and_assoc]

/-- That the symbol tables cannot be shown is a failure, but no error is told. -/
theorem MapUntold.untold {why : Fault} (h : MapUntold tools d o r s why) (clock : Clock) :
    (compile tools clock d false o r s).result = .error (.mapUndisplayed why) ∧
      (compile tools clock d false o r s).errors s.look = [] := by
  obtain ⟨hmap, hquiet, c, hrun, hshown⟩ := h
  have hfault := mapFault?_eq_some_iff.2 ⟨hmap, hquiet, hshown⟩
  refine ⟨by rw [compile_of_fault hrun hfault], errors_of_filter_eq_nil ?_⟩
  rw [errors_compile, hrun]

/-- A compilation tells every other outcome, whatever the tools and whatever is reported. -/
theorem tellsOutcome_compile (h : ∀ why, ¬ MapUntold tools d o r s why) :
    (compile tools clock d false o r s).TellsOutcome s.look := by
  rw [TellsOutcome, errors_eq, errors_compile]
  cases hrun : (Compilation.run tools d false o s.schedule).result with
  | error f =>
    rw [compile_of_error hrun]
    exact err_presentAll_error s.look f
  | ok c =>
    cases hfault : mapFault? false s.toScreen r c with
    | some why =>
      obtain ⟨hmap, hquiet, hshown⟩ := mapFault?_eq_some_iff.1 hfault
      exact absurd ⟨hmap, hquiet, c, hrun, hshown⟩ (h why)
    | none =>
      rw [compile_of_ok hrun hfault]
      rfl

/-- **When a compilation tells its outcome.** -/
theorem tellsOutcome_compile_iff :
    (compile tools clock d false o r s).TellsOutcome s.look ↔
      ∀ why, ¬ MapUntold tools d o r s why := by
  refine ⟨fun htells why huntold => ?_, tellsOutcome_compile⟩
  obtain ⟨hresult, herrors⟩ := huntold.untold clock
  exact not_tellsOutcome hresult herrors htells

end Compiling

/-! ### Listing atoms -/

section Listing

variable {d : Disk} {q : AtomsRequest} {s : Surroundings} {atoms : List Atom}

/-- A failure to find the atoms is told. -/
theorem listAtoms_of_unfound {f : Failure}
    (h : (findAtoms d false q s.schedule).result = .error f) :
    (listAtoms d false q s).result = .error f ∧
      (listAtoms d false q s).notices = [.error f.message] := by
  rw [listAtoms, h]
  exact ⟨rfl, rfl⟩

/-- Saving atoms tells nothing. -/
theorem listAtoms_of_saving (h : (findAtoms d false q s.schedule).result = .ok atoms)
    (hout : q.out ≠ []) :
    (listAtoms d false q s).result = (match (d.write q.out (Dump.text atoms)).error? with
      | none => .ok ()
      | some e => .error (.dumpUnwritten q.out (.disk e))) ∧
    (listAtoms d false q s).notices = [] := by
  have hempty : q.out.isEmpty = false := by simpa using hout
  rw [listAtoms, h]
  simp only [hempty, Bool.false_eq_true, if_false, Dump.save, (Output.save_false _ _ _ _).2,
    and_true]
  cases (d.write q.out (Dump.text atoms)).error? <;> rfl

section Printing

variable (h : (findAtoms d false q s.schedule).result = .ok atoms) (hout : q.out = [])
include h hout

/-- Printing a dump. -/
theorem listAtoms_of_yaml (hyaml : q.format = Bytes.ofString "yaml") :
    (listAtoms d false q s).result = (match s.refusal? (Dump.text atoms) with
      | none => .ok ()
      | some l => .error (.dumpUnprinted l.why)) ∧
    (listAtoms d false q s).notices = [.document (Dump.text atoms)] := by
  rw [listAtoms, h]
  simp only [hout, List.isEmpty_nil, if_true, printAtoms, hyaml, beq_self_eq_true, printDump]
  exact ⟨rfl, rfl⟩

/-- Showing a table. -/
theorem listAtoms_of_table (htable : q.format = [] ∨ q.format = Bytes.ofString "table") :
    (listAtoms d false q s).result = (match s.fault? (.atoms atoms) with
      | none => .ok ()
      | some why => .error (.bare (.fault why))) ∧
    (listAtoms d false q s).notices = [s.appearance (.atoms atoms)] := by
  have hyaml : (q.format == Bytes.ofString "yaml") = false := by
    rcases htable with htable | htable <;> rw [htable] <;> decide
  have hknown : (q.format.isEmpty || q.format == Bytes.ofString "table") = true := by
    simpa using htable
  rw [listAtoms, h]
  simp only [hout, List.isEmpty_nil, if_true, printAtoms, hyaml, Bool.false_eq_true, if_false,
    hknown]
  exact ⟨rfl, rfl⟩

/-- Atoms are not printed in an unknown format. -/
theorem listAtoms_of_unknown (hyaml : q.format ≠ Bytes.ofString "yaml")
    (htable : ¬ (q.format = [] ∨ q.format = Bytes.ofString "table")) :
    (listAtoms d false q s).result = .error (.unknownFormat q.format) ∧
      (listAtoms d false q s).notices = [] := by
  have hunknown : (q.format.isEmpty || q.format == Bytes.ofString "table") = false := by
    simpa using htable
  rw [listAtoms, h]
  simp only [hout, List.isEmpty_nil, if_true, printAtoms, beq_eq_false_iff_ne.2 hyaml,
    Bool.false_eq_true, if_false, hunknown]
  exact ⟨rfl, rfl⟩

end Printing

/-- Of an untold failure nothing is shown but the beginning of a dump. -/
theorem ListingUntold.untold {f : Failure} {out : Bytes} (h : ListingUntold d q s f out) :
    (listAtoms d false q s).result = .error f ∧
      (listAtoms d false q s).errors s.look = [] ∧
      s.reached (Notice.presentAll s.look (listAtoms d false q s).notices) = { out := out } := by
  cases h with
  | unsaved found saving failed =>
    obtain ⟨hresult, hnotices⟩ := listAtoms_of_saving found saving
    rw [errors, hresult, hnotices, failed]
    exact ⟨rfl, rfl, Screen.reached_nil⟩
  | @unprinted atoms l found printing yaml failed =>
    obtain ⟨hresult, hnotices⟩ := listAtoms_of_yaml found printing yaml
    have hdocument : Notice.presentAll s.look [.document (Dump.text atoms)] =
        { out := Dump.text atoms } := by
      cases s.look <;> simp [Notice.presentAll, Notice.present, Notice.plain, Notice.styled]
    rw [errors, hresult, hnotices, failed, hdocument]
    exact ⟨rfl, rfl, Screen.reached_of_refusal? failed⟩
  | unshown found printing table failed =>
    obtain ⟨hresult, hnotices⟩ := listAtoms_of_table found printing table
    obtain ⟨p, hpaged⟩ := Screen.exists_appearance_eq_paged failed
    have hnothing : Notice.presentAll s.look [.paged p] = {} := by
      cases s.look <;> rfl
    rw [errors, hresult, hnotices, failed, hpaged, hnothing]
    exact ⟨rfl, rfl, Screen.reached_nil⟩
  | unknown found printing yaml table =>
    obtain ⟨hresult, hnotices⟩ := listAtoms_of_unknown found printing yaml table
    rw [errors, hresult, hnotices]
    exact ⟨rfl, rfl, Screen.reached_nil⟩

/-- Listing atoms succeeds or has an untold failure, if the atoms are found. It tells no errors
then. -/
theorem listAtoms_of_found (h : (findAtoms d false q s.schedule).result = .ok atoms) :
    ((listAtoms d false q s).result = .ok () ∨ ∃ f out, ListingUntold d q s f out) ∧
      (listAtoms d false q s).notices.filter Notice.isError = [] := by
  by_cases hout : q.out = []
  · by_cases hyaml : q.format = Bytes.ofString "yaml"
    · obtain ⟨hresult, hnotices⟩ := listAtoms_of_yaml h hout hyaml
      rw [hresult, hnotices]
      refine ⟨?_, rfl⟩
      cases hrefused : s.refusal? (Dump.text atoms) with
      | none => exact .inl rfl
      | some l => exact .inr ⟨_, _, .unprinted h hout hyaml hrefused⟩
    · by_cases htable : q.format = [] ∨ q.format = Bytes.ofString "table"
      · obtain ⟨hresult, hnotices⟩ := listAtoms_of_table h hout htable
        rw [hresult, hnotices]
        refine ⟨?_, by simp [isError_appearance s.toScreen (n := .atoms atoms) rfl]⟩
        cases hfault : s.fault? (.atoms atoms) with
        | none => exact .inl rfl
        | some why => exact .inr ⟨_, _, .unshown h hout htable hfault⟩
      · obtain ⟨-, hnotices⟩ := listAtoms_of_unknown h hout hyaml htable
        rw [hnotices]
        exact ⟨.inr ⟨_, _, .unknown h hout hyaml htable⟩, rfl⟩
  · obtain ⟨hresult, hnotices⟩ := listAtoms_of_saving h hout
    rw [hresult, hnotices]
    refine ⟨?_, rfl⟩
    cases hwritten : (d.write q.out (Dump.text atoms)).error? with
    | none => exact .inl rfl
    | some e => exact .inr ⟨_, _, .unsaved h hout hwritten⟩

/-- Listing atoms tells every other outcome. -/
theorem tellsOutcome_listAtoms (h : ∀ f out, ¬ ListingUntold d q s f out) :
    (listAtoms d false q s).TellsOutcome s.look := by
  rw [TellsOutcome]
  cases hfound : (findAtoms d false q s.schedule).result with
  | error f =>
    obtain ⟨hresult, hnotices⟩ := listAtoms_of_unfound hfound
    rw [errors, hresult, hnotices]
    exact err_presentAll_error s.look f
  | ok atoms =>
    obtain ⟨hok | ⟨f, out, huntold⟩, hnone⟩ := listAtoms_of_found hfound
    · rw [hok]
      exact errors_of_filter_eq_nil hnone
    · exact absurd huntold (h f out)

/-- **When listing atoms tells its outcome.** -/
theorem tellsOutcome_listAtoms_iff :
    (listAtoms d false q s).TellsOutcome s.look ↔ ∀ f out, ¬ ListingUntold d q s f out := by
  refine ⟨fun htells f out huntold => ?_, tellsOutcome_listAtoms⟩
  obtain ⟨hresult, herrors, -⟩ := huntold.untold
  exact not_tellsOutcome hresult herrors htells

end Listing

/-- **Which failures are told.** Whatever the disk, the options, the tools, what is reported, where
it is shown and in which order workers finish, a compilation that is not cancelled tells its outcome
exactly if it does not fail to show the symbol tables: a failure by one message on the error
channel, and success by nothing. Listing atoms does so exactly if it does not fail to save or print
the atoms it found. A failure that is not told is the result of the operation and leaves nothing on
the error channel, and the program ends with exit code 1; of a listing nothing is left on the output
channel either, but for the beginning of a dump. -/
theorem outcomes_told_iff (s : Surroundings) :
    (∀ tools clock d o r,
      ((compile tools clock d false o r s).TellsOutcome s.look ↔
        ∀ why, ¬ MapUntold tools d o r s why) ∧
      ∀ why, MapUntold tools d o r s why →
        (compile tools clock d false o r s).result = .error (.mapUndisplayed why) ∧
        (compile tools clock d false o r s).errors s.look = []) ∧
    (∀ d q,
      ((listAtoms d false q s).TellsOutcome s.look ↔ ∀ f out, ¬ ListingUntold d q s f out) ∧
      ∀ f out, ListingUntold d q s f out →
        (listAtoms d false q s).result = .error f ∧
        (listAtoms d false q s).errors s.look = []) ∧
    ∀ (h : Host) (c : Config), h.toSurroundings = s →
      (∀ o r why, MapUntold (.standard false) h.disk o r s why →
        (Command.perform h c (.compile o r)).exitCode = 1 ∧
        (Command.perform h c (.compile o r)).shown.err = []) ∧
      ∀ q f out, ListingUntold h.disk q s f out →
        (Command.perform h c (.listAtoms q)).exitCode = 1 ∧
        (Command.perform h c (.listAtoms q)).shown = { out := out } := by
  refine ⟨fun tools clock d o r => ⟨tellsOutcome_compile_iff, fun why h => h.untold clock⟩,
    fun d q => ⟨tellsOutcome_listAtoms_iff, fun f out h => ⟨h.untold.1, h.untold.2.1⟩⟩, ?_⟩
  rintro h c rfl
  constructor
  · intro o r why huntold
    obtain ⟨hresult, herrors⟩ := huntold.untold h.clock
    exact ⟨Command.exitCode_finish hresult, herrors⟩
  · intro q f out huntold
    obtain ⟨hresult, -, hshown⟩ := huntold.untold
    exact ⟨Command.exitCode_finish hresult, hshown⟩

namespace Unlucky

def disk : Disk where
  workDir := []
  entries := [(["m"], .file "1 2"), (["p"], .file ": f ;")]

/-- A terminal whose pager fails, and an output channel with little room. -/
def host : Host where
  look := .styled default
  terminal? := some { width := 80, height := 10, pagerFault? := some "could not open TTY" }
  limit? := some { room := 7, why := "no space left on device" }
  disk := disk
  clock := fun _ => default
  build := default

/-- The atoms of a program are to be printed in a format. -/
def request (format : Bytes) : AtomsRequest where
  options := { source := "m" }
  format := format

theorem mapUntold :
    MapUntold (.standard false) disk { source := "p" } { map := true } host.toSurroundings
      (.other "could not open TTY") := by
  have hfault : (Compilation.run (.standard false) disk false { source := "p" }
      host.schedule).result.toOption.bind (fun c => host.fault? (.map c.tables)) =
        some (.other "could not open TTY") := by
    decide +kernel
  cases hrun : (Compilation.run (.standard false) disk false { source := "p" }
      host.schedule).result with
  | error f =>
    rw [hrun] at hfault
    cases hfault
  | ok c =>
    rw [hrun, Except.toOption, Option.bind_some] at hfault
    exact ⟨rfl, rfl, c, hrun, hfault⟩

theorem dumpUntold :
    ListingUntold disk (request "yaml") host.toSurroundings
      (.dumpUnprinted "no space left on device") "files:\n" :=
  have hfound : (findAtoms disk false (request "yaml")).result =
      .ok [Include.wordOf "1" "m", Include.wordOf "2" "m"] := by
    decide +kernel
  have hrefused : host.refusal? (Dump.text [Include.wordOf "1" "m", Include.wordOf "2" "m"]) =
      some { room := 7, why := "no space left on device" } := by
    decide +kernel
  .unprinted hfound rfl rfl hrefused

theorem formatUntold :
    ListingUntold disk (request "xml") host.toSurroundings (.unknownFormat "xml") [] :=
  have hfound : (findAtoms disk false (request "xml")).result =
      .ok [Include.wordOf "1" "m", Include.wordOf "2" "m"] := by
    decide +kernel
  .unknown hfound rfl (by decide) (by decide)

end Unlucky

open Unlucky in
/-- A map that cannot be shown, a dump that there is no room for and an unknown format are not told
to the user. -/
theorem outcomes_told_iff_unlucky :
    let s := host.toSurroundings
    (¬ (compile (.standard false) host.clock disk false { source := "p" } { map := true }
        s).TellsOutcome s.look ∧
      (Command.perform host {} (.compile { source := "p" } { map := true })).exitCode = 1 ∧
      (Command.perform host {} (.compile { source := "p" } { map := true })).shown.err = []) ∧
    (¬ (listAtoms disk false (request "yaml") s).TellsOutcome s.look ∧
      (Command.perform host {} (.listAtoms (request "yaml"))).exitCode = 1 ∧
      (Command.perform host {} (.listAtoms (request "yaml"))).shown = { out := "files:\n" }) ∧
    ¬ (listAtoms disk false (request "xml") s).TellsOutcome s.look ∧
      (Command.perform host {} (.listAtoms (request "xml"))).exitCode = 1 ∧
      (Command.perform host {} (.listAtoms (request "xml"))).shown = {} := by
  intro s
  obtain ⟨hcompile, hlist, hperform⟩ := outcomes_told_iff s
  obtain ⟨hcompiled, hlisted⟩ := hperform host {} rfl
  refine ⟨⟨fun htells => ?_, hcompiled _ _ _ mapUntold⟩,
    ⟨fun htells => ?_, hlisted _ _ _ dumpUntold⟩, fun htells => ?_, hlisted _ _ _ formatUntold⟩
  · exact (hcompile _ _ _ _ _).1.1 htells _ mapUntold
  · exact (hlist _ _).1.1 htells _ _ dumpUntold
  · exact (hlist _ _).1.1 htells _ _ formatUntold

end Operation

end ForthFrontend
