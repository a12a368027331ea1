import ForthFrontend.Command
import ForthFrontend.Proofs.Compilation

/-!
# Compilations are all or nothing, up to their log

A compilation writes to its image, in its last step, and its journal goes to the log file, if there
is one. So a failed run leaves every other regular file as it was, and the image too, unless
writing it broke off: a file is emptied when it is opened, and there is no way back. A finished run
has changed the image and the log, and the image holds the manifest.

## Main definitions

* `Compilation.Run.left`: the disk that a run leaves, with its journal in the log.
* `Command.IsLog`: the place of the log.

## Main results

* `Command.Log.content?_append_of_ne`: logging changes no file but the log.
* `Compilation.run_all_or_nothing`: what a run leaves on the disk, failed or finished.
* `Compilation.run_changes_log_and_broken_image`: why it cannot be said of the log and of an image
  that was not written to its end.
-/

namespace ForthFrontend

namespace Command

/-- The location is the one of the log, if there is one. -/
def IsLog (d : Disk) (log? : Option Log) (l : Disk.Location) : Prop :=
  ∃ log ∈ log?, l = d.destination log.path

/-- **Logging** changes no file but the log. -/
theorem Log.content?_append_of_ne {d : Disk} (hd : d.IsTree) (log : Log) (j : Journal)
    {l : Disk.Location} (hl : l ≠ d.destination log.path) :
    (log.append j d).content? l = d.content? l := by
  rw [append]
  split
  · rfl
  · exact Disk.content?_write_of_ne hd hl

end Command

namespace Compilation

open Command (Log IsLog)

/-- The disk that a run leaves, with its journal in the log. -/
def Run.left (r : Run) (log? : Option Log) : Disk :=
  log?.elim r.disk fun log => log.append r.journal r.disk

/-- The log is all that logging a run changes. -/
theorem Run.content?_left {d : Disk} {r : Run} (hr : r.disk.IsTree)
    (hdest : ∀ q, r.disk.destination q = d.destination q) {log? : Option Log} {l : Disk.Location}
    (hl : ¬ IsLog d log? l) : (r.left log?).content? l = r.disk.content? l := by
  cases log? with
  | none => rfl
  | some log =>
    refine log.content?_append_of_ne hr r.journal fun heq => hl ⟨log, rfl, ?_⟩
    rw [heq, hdest]

/-- The disk of a run is the one it began with, or the one that generating the image left. -/
theorem disk_run_cases (tools : Toolchain) (d : Disk) (cancelled : Bool) (o : CompileOptions)
    (schedule : Include.Schedule) :
    (run tools d cancelled o schedule).disk = d ∨
      ∃ t, (run tools d cancelled o schedule).disk = (tools.generate d t o).disk := by
  rcases fails_or_completes tools d cancelled o schedule with ⟨stages, f, h⟩ | ⟨c, h⟩
  · obtain ⟨journal, d', hrun, rfl | ⟨t, -, rfl⟩⟩ := h.run_eq
    · exact .inl (congrArg (·.disk) hrun)
    · exact .inr ⟨t, congrArg (·.disk) hrun⟩
  · obtain ⟨journal, hrun⟩ := h.run_eq
    exact .inr ⟨c.tables, congrArg (·.disk) hrun⟩

section Manifests

variable {d : Disk} {tools : Toolchain} {cancelled : Bool} {o : CompileOptions}
  {schedule : Include.Schedule}
  (htools : tools.generate = fun d t o => Manifest.generate d cancelled t o)
include htools

theorem isTree_run (hd : d.IsTree) : (run tools d cancelled o schedule).disk.IsTree := by
  obtain h | ⟨t, h⟩ := disk_run_cases tools d cancelled o schedule
  · rw [h]
    exact hd
  · rw [h, htools]
    exact Manifest.isTree_generate hd

theorem destination_run (hd : d.IsTree) (q : Path) :
    (run tools d cancelled o schedule).disk.destination q = d.destination q := by
  obtain h | ⟨t, h⟩ := disk_run_cases tools d cancelled o schedule
  · rw [h]
  · rw [h, htools]
    exact Manifest.destination_generate hd q

/-- What a failed run leaves of a file. -/
theorem content?_run_of_error (hd : d.IsTree) {f : Failure}
    (h : (run tools d cancelled o schedule).result = .error f) {l : Disk.Location}
    (hl : l = d.destination o.outputPath → ¬ Manifest.report.BreaksOff d o.outputPath f) :
    (run tools d cancelled o schedule).disk.content? l = d.content? l := by
  have hfails := stages_and_result_iff_fails.1 ⟨rfl, h⟩
  -- only a generation that failed can have left another disk
  obtain ⟨journal, d', hrun, rfl | ⟨t, hgenerate, rfl⟩⟩ := hfails.run_eq
  · rw [hrun]
    rfl
  · rw [hrun]
    rw [htools] at hgenerate ⊢
    exact Manifest.content?_generate_of_error hd hgenerate hl

/-- What a finished run leaves of its image and of other files. -/
theorem content?_run_of_ok (hd : d.IsTree) {c : Compilation}
    (h : (run tools d cancelled o schedule).result = .ok c) :
    let r := run tools d cancelled o schedule
    (∀ l, l ≠ d.destination o.outputPath → r.disk.content? l = d.content? l) ∧
    r.disk.content? (d.destination o.outputPath) = some (Manifest.text c.tables o) ∧
    r.disk.read o.outputPath = .ok (Manifest.text c.tables o) := by
  intro r
  have hcompletes := completes_of_result h
  obtain ⟨journal, hrun⟩ := hcompletes.run_eq
  obtain ⟨-, -, -, hgenerate⟩ := hcompletes
  rw [htools] at hgenerate hrun
  obtain ⟨hnone, hwritten⟩ := Manifest.generate_of_ok hgenerate
  have hdisk : r.disk = _ := (congrArg (·.disk) hrun).trans hwritten
  rw [hdisk]
  exact ⟨fun l hl => Disk.content?_write_of_ne hd hl, Disk.content?_write_self hd hnone,
    Disk.read_write hnone⟩

end Manifests

/-- **A compilation is all or nothing, up to its log.** Whatever analyses the atoms, in whatever
order workers finish and wherever the journal is logged, a run that fails has the failure of the
first failing step and depends on no tool behind it. It leaves every regular file but the log as it
was, the image too unless it is the writing of the opened image that failed. A run that succeeds has
gone through all stages and changed nothing but its image and the log, and the image holds the
manifest. -/
theorem run_all_or_nothing {d : Disk} (hd : d.IsTree) (symbols : List Atom → Traced SymbolTables)
    (cancelled : Bool) (o : CompileOptions) (schedule : Include.Schedule) (log? : Option Log) :
    let tools : Toolchain := ⟨symbols, fun d t o => Manifest.generate d cancelled t o⟩
    let r := run tools d cancelled o schedule
    let image := d.destination o.outputPath
    (∀ stages f, r.stages = stages ∧ r.result = .error f ↔
      Fails tools d cancelled o schedule stages f) ∧
    (∀ f, r.result = .error f →
      (∀ l, ¬ IsLog d log? l → (l = image → ¬ Manifest.report.BreaksOff d o.outputPath f) →
        (r.left log?).content? l = d.content? l) ∧
      (∃ s rest, r.stages ++ s :: rest = [.parse, .analyze, .generate]) ∧
      ∀ tools' : Toolchain, (.parse ∈ r.stages → tools'.symbols = tools.symbols) →
        (.analyze ∈ r.stages → tools'.generate = tools.generate) →
        run tools' d cancelled o schedule = r) ∧
    (∀ why, o.validate = .error why →
      ∀ tools' d', run tools' d' cancelled o schedule = failed [] [] d' (.options why)) ∧
    ∀ c, r.result = .ok c →
      r.stages = [.parse, .analyze, .generate] ∧ c.timed = r.stages ∧
      (∀ l, ¬ IsLog d log? l → l ≠ image → (r.left log?).content? l = d.content? l) ∧
      (¬ IsLog d log? image → (r.left log?).content? image = some (Manifest.text c.tables o)) ∧
      r.disk.read o.outputPath = .ok (Manifest.text c.tables o) := by
  intro tools r image
  have hleft : ∀ l, ¬ IsLog d log? l → (r.left log?).content? l = r.disk.content? l :=
    fun l hl => Run.content?_left (isTree_run rfl hd) (destination_run rfl hd) hl
  refine ⟨fun stages f => stages_and_result_iff_fails, fun f hresult => ?_,
    fun why hvalid tools' d' => run_of_invalid hvalid, fun c hresult => ?_⟩
  · have hfails : Fails tools d cancelled o schedule r.stages f :=
      stages_and_result_iff_fails.1 ⟨rfl, hresult⟩
    refine ⟨fun l hlog himage => ?_, hfails.exists_stages_append,
      fun tools' => run_eq_of_fails hfails⟩
    rw [hleft l hlog]
    exact content?_run_of_error rfl hd hresult himage
  · obtain ⟨journal, hrun⟩ := (completes_of_result hresult).run_eq
    have hstages : r.stages = c.timed := congrArg (·.stages) hrun
    have htimed : c.timed = [.parse, .analyze, .generate] := by
      cases completes_of_result hresult
      rfl
    obtain ⟨hothers, himage, hread⟩ := content?_run_of_ok rfl hd hresult
    refine ⟨hstages.trans htimed, hstages.symm, fun l hlog hl => ?_, fun hlog => ?_, hread⟩
    · rw [hleft l hlog]
      exact hothers l hl
    · rw [hleft image hlog]
      exact himage

namespace OldImage

/-- A program next to the image of an earlier compilation, and one that is refused. -/
def disk : Disk where
  workDir := []
  entries := [(["a.4th"], .file ": f ;"), (["a.exe"], .file "old"), (["b.4th"], .file "1")]

def options : CompileOptions where
  source := "a.4th"

/-- The program that is refused, to be compiled to the same image. -/
def refused : CompileOptions where
  source := "b.4th"
  output := "a.exe"

/-- The log that no setting says otherwise about. -/
def log : Log := .ofConfig {}

/-- The disk when it is full. -/
def full : Disk :=
  { disk with flaw? := some { taken := 3, cause := .noSpace } }

end OldImage

open OldImage in
/-- A refused program keeps its old image, and an accepted one has it replaced. -/
theorem run_all_or_nothing_oldImage :
    disk.IsTree ∧
    (∃ f, (run (.standard false) disk false refused).result = .error f) ∧
    ((run (.standard false) disk false refused).left (some log)).content? ["a.exe"] =
      some "old" ∧
    ∃ c, (run (.standard false) disk false options).result = .ok c ∧
      (run (.standard false) disk false options).disk.read "a.exe" =
        .ok (Manifest.text c.tables options) := by
  have htree : disk.IsTree := Disk.isTree_of_entries (by decide)
  have hfails : (run (.standard false) disk false refused).result =
      .error (.source { fault := .unexpectedAtom, file := "b.4th", line := 1 }) := by
    decide +kernel
  have hlog : ¬ IsLog disk (some log) ["a.exe"] := by
    rintro ⟨log', hmem, heq⟩
    obtain rfl := Option.some.inj hmem
    exact absurd heq (by decide +kernel)
  have hnothing := ((run_all_or_nothing htree (analyze false) false refused .inOrder
    (some log)).2.1 _ hfails).1 ["a.exe"] hlog fun _ ⟨_, hflaw, _⟩ => by cases hflaw
  refine ⟨htree, ⟨_, hfails⟩, hnothing, ?_⟩
  have haccepted : (run (.standard false) disk false options).result.isOk = true := by
    decide +kernel
  cases hresult : (run (.standard false) disk false options).result with
  | error f =>
    rw [hresult] at haccepted
    cases haccepted
  | ok c =>
    have := (run_all_or_nothing htree (analyze false) false options .inOrder none).2.2.2 c hresult
    exact ⟨c, rfl, this.2.2.2.2⟩

open OldImage in
/-- A failed run leaves its failure in the log, and a finished one its success. On a full disk a run
fails with the old image gone. -/
theorem run_changes_log_and_broken_image :
    ((run (.standard false) disk false refused).result.isOk = false ∧
      disk.content? [".dforth.log"] = none ∧
      ((run (.standard false) disk false refused).left (some log)).content? [".dforth.log"] =
        some "ERROR Stage failed\n") ∧
    ((run (.standard false) disk false options).result.isOk = true ∧
      ((run (.standard false) disk false options).left (some log)).content? [".dforth.log"] =
        some "INFO Image written\nINFO Compilation finished\n") ∧
    (run (.standard false) full false options).result =
      .error (.imageUnwritten "a.exe" (.disk ⟨.writeFile, "a.exe", .noSpace⟩)) ∧
    full.content? ["a.exe"] = some "old" ∧
    (run (.standard false) full false options).disk.content? ["a.exe"] = some "lib" := by
  decide +kernel

end Compilation

end ForthFrontend
