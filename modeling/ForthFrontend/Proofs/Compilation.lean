import ForthFrontend.Compilation
import ForthFrontend.Proofs.Disk.Tree
import ForthFrontend.Proofs.Include.Step

/-!
# Where a compilation ends

A compilation checks its options, parses, analyses and generates, and ends at the first of these
steps that fails. `Fails` says which step that is, without saying how a run goes. A failed run
depends on no tool behind the failure. Only the last step writes, and it writes the image; a write
that fails leaves all files as they were, unless it breaks off.

## Main definitions

* `Compilation.Fails`, `Compilation.Completes`: where a compilation ends.
* `Output.Report.BreaksOff`: the failure of a file that was opened and not written to its end.

## Main results

* `Compilation.stages_and_result_iff_fails`: a run fails with the failure of the first failing step.
* `Compilation.run_eq_of_fails`: a failed run does not depend on what comes behind its failure.
* `Manifest.content?_generate_of_error`, `Manifest.generate_of_ok`: what writing the image leaves.
-/

namespace ForthFrontend

namespace Compilation

/-- Parsing as a compilation does it. -/
def parsed (d : Disk) (cancelled : Bool) (o : CompileOptions) (schedule : Include.Schedule) :
    Traced (List Atom) :=
  Include.parse (setting d o schedule) cancelled o.source

/-- The first step that fails, by the stages in front of it and its failure. A refused option is
reported as such, every other failure as it is. -/
inductive Fails (tools : Toolchain) (d : Disk) (cancelled : Bool) (o : CompileOptions)
    (schedule : Include.Schedule) : List Stage → Failure → Prop
  | options {why : OptionFault} (hvalid : o.validate = .error why) :
    Fails tools d cancelled o schedule [] (.options why)
  | parse {f : Failure} (hvalid : o.validate = .ok ())
    (hparse : (parsed d cancelled o schedule).result = .error f) :
    Fails tools d cancelled o schedule [] f
  | analyze {atoms : List Atom} {f : Failure} (hvalid : o.validate = .ok ())
    (hparse : (parsed d cancelled o schedule).result = .ok atoms)
    (hsymbols : (tools.symbols atoms).result = .error f) :
    Fails tools d cancelled o schedule [.parse] f
  | generate {atoms : List Atom} {t : SymbolTables} {f : Failure} (hvalid : o.validate = .ok ())
    (hparse : (parsed d cancelled o schedule).result = .ok atoms)
    (hsymbols : (tools.symbols atoms).result = .ok t)
    (hgenerate : (tools.generate d (t.named o.source) o).result = .error f) :
    Fails tools d cancelled o schedule [.parse, .analyze] f

/-- Every step succeeds, and `c` is what they produce. -/
inductive Completes (tools : Toolchain) (d : Disk) (cancelled : Bool) (o : CompileOptions)
    (schedule : Include.Schedule) : Compilation → Prop
  | intro {atoms : List Atom} {t : SymbolTables} {output : Path} (hvalid : o.validate = .ok ())
    (hparse : (parsed d cancelled o schedule).result = .ok atoms)
    (hsymbols : (tools.symbols atoms).result = .ok t)
    (hgenerate : (tools.generate d (t.named o.source) o).result = .ok output) :
    Completes tools d cancelled o schedule
      ⟨atoms, t.named o.source, output, [.parse, .analyze, .generate]⟩

section Steps

variable {tools : Toolchain} {d : Disk} {cancelled : Bool} {o : CompileOptions}
  {schedule : Include.Schedule}

theorem fails_or_completes (tools : Toolchain) (d : Disk) (cancelled : Bool) (o : CompileOptions)
    (schedule : Include.Schedule) :
    (∃ stages f, Fails tools d cancelled o schedule stages f) ∨
      ∃ c, Completes tools d cancelled o schedule c := by
  cases hvalid : o.validate with
  | error why => exact .inl ⟨_, _, .options hvalid⟩
  | ok u =>
    cases hparse : (parsed d cancelled o schedule).result with
    | error f => exact .inl ⟨_, _, .parse hvalid hparse⟩
    | ok atoms =>
      cases hsymbols : (tools.symbols atoms).result with
      | error f => exact .inl ⟨_, _, .analyze hvalid hparse hsymbols⟩
      | ok t =>
        cases hgenerate : (tools.generate d (t.named o.source) o).result with
        | error f => exact .inl ⟨_, _, .generate hvalid hparse hsymbols hgenerate⟩
        | ok output => exact .inr ⟨_, .intro hvalid hparse hsymbols hgenerate⟩

theorem run_of_invalid {why : OptionFault} (hvalid : o.validate = .error why) :
    run tools d cancelled o schedule = failed [] [] d (.options why) := by
  rw [run, hvalid]

theorem run_of_valid (tools : Toolchain) (d : Disk) (cancelled : Bool)
    (schedule : Include.Schedule) (hvalid : o.validate = .ok ()) :
    run tools d cancelled o schedule = match (parsed d cancelled o schedule).result with
      | .error f => failed [] (stageJournal .parse (parsed d cancelled o schedule)) d f
      | .ok atoms =>
        analyzeAndFinish tools d o atoms (stageJournal .parse (parsed d cancelled o schedule)) := by
  rw [run, hvalid]
  rfl

/-- A run in which a step fails ends with its failure. Its disk is the one it started with, unless
the last step fails. -/
theorem Fails.run_eq {stages : List Stage} {f : Failure}
    (h : Fails tools d cancelled o schedule stages f) :
    ∃ journal d', run tools d cancelled o schedule = failed stages journal d' f ∧
      (d' = d ∨
        ∃ t, (tools.generate d t o).result = .error f ∧ d' = (tools.generate d t o).disk) := by
  cases h with
  | options hvalid => exact ⟨_, _, run_of_invalid hvalid, .inl rfl⟩
  | parse hvalid hparse =>
    have hrun := run_of_valid tools d cancelled schedule hvalid
    rw [hparse] at hrun
    exact ⟨_, _, hrun, .inl rfl⟩
  | analyze hvalid hparse hsymbols =>
    have hrun := run_of_valid tools d cancelled schedule hvalid
    simp only [hparse, analyzeAndFinish, hsymbols] at hrun
    exact ⟨_, _, hrun, .inl rfl⟩
  | generate hvalid hparse hsymbols hgenerate =>
    have hrun := run_of_valid tools d cancelled schedule hvalid
    simp only [hparse, analyzeAndFinish, hsymbols, finish, hgenerate] at hrun
    exact ⟨_, _, hrun, .inr ⟨_, hgenerate, rfl⟩⟩

theorem Completes.run_eq {c : Compilation} (h : Completes tools d cancelled o schedule c) :
    ∃ journal, run tools d cancelled o schedule =
      { stages := c.timed, journal := journal, disk := (tools.generate d c.tables o).disk,
        result := .ok c } := by
  cases h with
  | intro hvalid hparse hsymbols hgenerate =>
    simp only [run_of_valid _ _ _ _ hvalid, hparse, analyzeAndFinish, hsymbols, finish, hgenerate]
    exact ⟨_, rfl⟩

/-- A run fails with the failure of the first failing step, after the stages in front of it. -/
theorem stages_and_result_iff_fails {stages : List Stage} {f : Failure} :
    (run tools d cancelled o schedule).stages = stages ∧
        (run tools d cancelled o schedule).result = .error f ↔
      Fails tools d cancelled o schedule stages f := by
  constructor
  · rintro ⟨hstages, hresult⟩
    rcases fails_or_completes tools d cancelled o schedule with ⟨stages', f', h⟩ | ⟨c, h⟩
    · obtain ⟨journal, d', hrun, -⟩ := h.run_eq
      rw [hrun] at hstages hresult
      obtain rfl : stages' = stages := hstages
      obtain rfl : f' = f := Except.error.inj hresult
      exact h
    · obtain ⟨journal, hrun⟩ := h.run_eq
      rw [hrun] at hresult
      cases hresult
  · intro h
    obtain ⟨journal, d', hrun, -⟩ := h.run_eq
    rw [hrun]
    exact ⟨rfl, rfl⟩

theorem completes_of_result {c : Compilation}
    (h : (run tools d cancelled o schedule).result = .ok c) :
    Completes tools d cancelled o schedule c := by
  rcases fails_or_completes tools d cancelled o schedule with ⟨stages, f, hfails⟩ | ⟨c', hcompletes⟩
  · rw [(stages_and_result_iff_fails.2 hfails).2] at h
    cases h
  · obtain ⟨journal, hrun⟩ := hcompletes.run_eq
    rw [hrun] at h
    obtain rfl : c' = c := Except.ok.inj h
    exact hcompletes

/-- **A run does not depend on the tools behind its failure.** -/
theorem run_eq_of_fails {stages : List Stage} {f : Failure} {tools' : Toolchain}
    (h : Fails tools d cancelled o schedule stages f)
    (hsymbols : .parse ∈ stages → tools'.symbols = tools.symbols)
    (hgenerate : .analyze ∈ stages → tools'.generate = tools.generate) :
    run tools' d cancelled o schedule = run tools d cancelled o schedule := by
  cases h with
  | options hvalid => rw [run_of_invalid hvalid, run_of_invalid hvalid]
  | parse hvalid hparse => simp only [run_of_valid _ _ _ _ hvalid, hparse]
  | analyze hvalid hparse hfailed =>
    have hsame : tools'.symbols = tools.symbols := hsymbols List.mem_cons_self
    simp only [run_of_valid _ _ _ _ hvalid, hparse, analyzeAndFinish, hsame, hfailed]
  | generate hvalid hparse hanalyzed hfailed =>
    -- a generation that fails comes behind both tools
    have hsame : tools' = tools := by
      cases tools
      cases tools'
      have h₁ := hsymbols List.mem_cons_self
      have h₂ := hgenerate (List.mem_cons_of_mem _ List.mem_cons_self)
      simp_all
    rw [hsame]

theorem Fails.exists_stages_append {stages : List Stage} {f : Failure}
    (h : Fails tools d cancelled o schedule stages f) :
    ∃ s rest, stages ++ s :: rest = [.parse, .analyze, .generate] := by
  cases h with
  | options => exact ⟨_, _, rfl⟩
  | parse => exact ⟨_, _, rfl⟩
  | analyze => exact ⟨_, _, rfl⟩
  | generate => exact ⟨_, _, rfl⟩

end Steps

end Compilation

/-! ### The image -/

namespace Output

/-- The failure of a file that was opened, but not written to its end. -/
def Report.BreaksOff (report : Report) (d : Disk) (p : Path) (f : Failure) : Prop :=
  ∃ flaw, d.flaw? = some flaw ∧ f = report.failure p (.disk (flaw.error p))

variable {report : Report} {d : Disk} {cancelled : Bool} {p : Path} {content : Bytes}

/-- Saving a file is a write, unless the run is cancelled. -/
theorem save_false (report : Report) (d : Disk) (p : Path) (content : Bytes) :
    (save report d false p content).disk = (d.write p content).disk ∧
    (save report d false p content).result =
      match (d.write p content).error? with
      | none => .ok p
      | some e => .error (report.failure p (.disk e)) := by
  cases he : (d.write p content).error? with
  | none => simp [save, write, he]
  | some e => simp [save, write, he]

theorem isTree_save (hd : d.IsTree) : (save report d cancelled p content).disk.IsTree := by
  cases cancelled with
  | true => exact hd
  | false =>
    rw [(save_false report d p content).1]
    exact Disk.isTree_write hd p content .replace

theorem destination_save (hd : d.IsTree) (q : Path) :
    (save report d cancelled p content).disk.destination q = d.destination q := by
  cases cancelled with
  | true => rfl
  | false =>
    rw [(save_false report d p content).1]
    exact Disk.destination_write hd p content .replace q

/-- **A file that cannot be saved** leaves every regular file as it was, unless saving it breaks
off. -/
theorem content?_save_of_error (hd : d.IsTree) {f : Failure}
    (h : (save report d cancelled p content).result = .error f) {l : Disk.Location}
    (hl : l = d.destination p → ¬ report.BreaksOff d p f) :
    (save report d cancelled p content).disk.content? l = d.content? l := by
  cases cancelled with
  | true => rfl
  | false =>
    obtain ⟨hdisk, hresult⟩ := save_false report d p content
    rw [hdisk]
    rw [hresult] at h
    cases he : (d.write p content).error? with
    | none =>
      rw [he] at h
      cases h
    | some e =>
      rw [he] at h
      obtain rfl := Except.error.inj h
      refine Disk.content?_write_of_error hd he fun heq flaw hflaw hbroken => ?_
      exact hl heq ⟨flaw, hflaw, by rw [hbroken]⟩

theorem save_of_ok {q : Path} (h : (save report d cancelled p content).result = .ok q) :
    q = p ∧ (d.write p content).error? = none ∧
      (save report d cancelled p content).disk = (d.write p content).disk := by
  cases cancelled with
  | true => cases h
  | false =>
    obtain ⟨hdisk, hresult⟩ := save_false report d p content
    rw [hresult] at h
    cases he : (d.write p content).error? with
    | some e =>
      rw [he] at h
      cases h
    | none =>
      rw [he] at h
      exact ⟨(Except.ok.inj h).symm, rfl, hdisk⟩

end Output

namespace Manifest

variable {d : Disk} {cancelled : Bool} {t : SymbolTables} {o : CompileOptions}

/-- Generating an image comes to nothing, or to saving its manifest. -/
theorem generate_cases (d : Disk) (cancelled : Bool) (t : SymbolTables) (o : CompileOptions) :
    (∃ f, generate d cancelled t o = { journal := [], result := .error f, disk := d }) ∨
    generate d cancelled t o = Output.save report d cancelled o.outputPath (text t o) := by
  rw [generate]
  split
  · exact .inl ⟨_, rfl⟩
  · exact .inr rfl

theorem isTree_generate (hd : d.IsTree) : (generate d cancelled t o).disk.IsTree := by
  obtain ⟨f, h⟩ | h := generate_cases d cancelled t o
  · rw [h]
    exact hd
  · rw [h]
    exact Output.isTree_save hd

theorem destination_generate (hd : d.IsTree) (q : Path) :
    (generate d cancelled t o).disk.destination q = d.destination q := by
  obtain ⟨f, h⟩ | h := generate_cases d cancelled t o
  · rw [h]
  · rw [h]
    exact Output.destination_save hd q

theorem content?_generate_of_error (hd : d.IsTree) {f : Failure}
    (h : (generate d cancelled t o).result = .error f) {l : Disk.Location}
    (hl : l = d.destination o.outputPath → ¬ report.BreaksOff d o.outputPath f) :
    (generate d cancelled t o).disk.content? l = d.content? l := by
  obtain ⟨f', hcase⟩ | hcase := generate_cases d cancelled t o
  · rw [hcase]
  · rw [hcase] at h ⊢
    exact Output.content?_save_of_error hd h hl

theorem generate_of_ok {output : Path} (h : (generate d cancelled t o).result = .ok output) :
    (d.write o.outputPath (text t o)).error? = none ∧
      (generate d cancelled t o).disk = (d.write o.outputPath (text t o)).disk := by
  obtain ⟨f, hcase⟩ | hcase := generate_cases d cancelled t o
  · rw [hcase] at h
    cases h
  · rw [hcase] at h ⊢
    exact (Output.save_of_ok h).2

end Manifest

end ForthFrontend
