import ForthFrontend.Proofs.Compilation
import ForthFrontend.Proofs.Disk.Matching
import ForthFrontend.Proofs.Include.Agreement
import ForthFrontend.Proofs.Source.Padding

/-!
# Line endings do not matter

Sources can be respaced: blanks may be put in front of line feeds, as long as all lines fit into the
line buffer before and after. A respaced file composes to the same atoms, or fails with the same
error. On a disk with respaced sources every path therefore composes as before, and since parsing
sees the disk through compositions and walks only, a compilation goes the same way and writes the
same image.

## Main results

* `Disk.Matches.compose_eq`: composing on a disk with respaced files.
* `Compilation.run_of_matches`: compiling on a disk with respaced files.
* `Compilation.run_of_respaced`: line endings and trailing blanks do not matter.
-/

namespace ForthFrontend

namespace Source

/-- The content is the same, or padded in front of line feeds with all lines short before and
after. -/
inductive Respaced : Bytes → Bytes → Prop
  | same (content : Bytes) : Respaced content content
  | padded {content content' : Bytes} (h : Padded content content') (hshort : IsShort content)
    (hshort' : IsShort content') : Respaced content content'

theorem Respaced.atoms_eq {content content' : Bytes} (h : Respaced content content') (strict : Bool)
    (path : Path) : atoms strict path content' = atoms strict path content := by
  cases h with
  | same => rfl
  | padded h hshort hshort' => exact h.atoms_eq hshort hshort' strict path

theorem compose_cancelled (d : Disk) (strict : Bool) (path : Path) :
    compose d strict true path = .error (notFound path (.fault .cancelled)) :=
  rfl

/-- **A respaced file** composes to the same atoms, or fails with the same error. -/
theorem Respaced.compose_eq {d d' : Disk} {path : Path} {content content' : Bytes}
    (h : Respaced content content') (hread : d.read path = .ok content)
    (hread' : d'.read path = .ok content') (strict cancelled : Bool) :
    compose d' strict cancelled path = compose d strict cancelled path := by
  cases cancelled with
  | true => rw [compose_cancelled, compose_cancelled]
  | false => rw [compose_of_read hread, compose_of_read hread', h.atoms_eq]

end Source

namespace Disk.Matches

open Source (Respaced)

variable {d d' : Disk}

/-- **Every path composes as before** on a disk with respaced files. -/
theorem compose_eq (h : d.Matches Respaced d') (strict cancelled : Bool) (path : Path) :
    Source.compose d' strict cancelled path = Source.compose d strict cancelled path := by
  cases cancelled with
  | true => rw [Source.compose_cancelled, Source.compose_cancelled]
  | false =>
    simp only [Source.compose, Source.openFile, openFile, Bool.false_eq_true, ↓reduceIte]
    obtain ⟨c, hfind, hfind'⟩ | ⟨e, e', he, hfind, hfind'⟩ := h.find_cases path
    · rw [hfind, hfind']
    · rw [hfind, hfind']
      cases he with
      | directory => rfl
      | file hcontent => exact hcontent.atoms_eq strict path

theorem agrees (h : d.Matches Respaced d') (strict : Bool) (workers : Int64)
    (schedule : Include.Schedule) :
    Include.Setting.Agrees { disk := d, strict, workers, schedule }
      { disk := d', strict, workers, schedule } where
  workers := rfl
  schedule := rfl
  compose := h.compose_eq strict
  identity := h.identity_eq
  includePath := h.includePath_eq

end Disk.Matches

namespace Compilation

open Source (Respaced)

variable {d d' : Disk}

theorem parsed_of_matches (h : d.Matches Respaced d') (cancelled : Bool) (o : CompileOptions)
    (schedule : Include.Schedule) : parsed d' cancelled o schedule = parsed d cancelled o schedule :=
  (h.agrees o.strictStrings o.parallel schedule).parse_eq cancelled o.source

/-- A compilation on a disk with respaced files goes the same way. -/
theorem run_of_matches (h : d.Matches Respaced d') (symbols : List Atom → Traced SymbolTables)
    (cancelled : Bool) (o : CompileOptions) (schedule : Include.Schedule) :
    let tools : Toolchain := ⟨symbols, fun d t o => Manifest.generate d cancelled t o⟩
    let r := run tools d cancelled o schedule
    let r' := run tools d' cancelled o schedule
    r'.toTraced = r.toTraced ∧ r'.stages = r.stages := by
  intro tools r r'
  cases hvalid : o.validate with
  | error why =>
    have hr : r = _ := run_of_invalid hvalid
    have hr' : r' = _ := run_of_invalid hvalid
    rw [hr, hr']
    exact ⟨rfl, rfl⟩
  | ok u =>
    have hr : r = _ := run_of_valid tools d cancelled schedule hvalid
    have hr' : r' = _ := run_of_valid tools d' cancelled schedule hvalid
    rw [hr, hr', parsed_of_matches h]
    cases (parsed d cancelled o schedule).result with
    | error f => exact ⟨rfl, rfl⟩
    | ok atoms =>
      simp only [analyzeAndFinish]
      cases (tools.symbols atoms).result with
      | error f => exact ⟨rfl, rfl⟩
      | ok t =>
        -- the image is written on both disks or on neither
        have hgenerate := h.generate_eq .same cancelled (t.named o.source) o
        have htools : tools.generate = fun d t o => Manifest.generate d cancelled t o := rfl
        simp only [finish, htools, hgenerate]
        cases (Manifest.generate d cancelled (t.named o.source) o).result <;> exact ⟨rfl, rfl⟩

theorem read_output_of_result {symbols : List Atom → Traced SymbolTables} {cancelled : Bool}
    {o : CompileOptions} {schedule : Include.Schedule} {c : Compilation}
    (h : (run ⟨symbols, fun d t o => Manifest.generate d cancelled t o⟩ d cancelled o
      schedule).result = .ok c) :
    (run ⟨symbols, fun d t o => Manifest.generate d cancelled t o⟩ d cancelled o
      schedule).disk.read o.outputPath = .ok (Manifest.text c.tables o) := by
  have hcompletes := completes_of_result h
  obtain ⟨journal, hrun⟩ := hcompletes.run_eq
  obtain ⟨-, -, -, hgenerate⟩ := hcompletes
  obtain ⟨hnone, hdisk⟩ := Manifest.generate_of_ok hgenerate
  rw [hrun]
  simp only [hdisk]
  exact Disk.read_write hnone

/-- **Line endings and trailing blanks do not matter.** A respaced file composes to the same atoms
or fails with the same error. Compiling on a disk with respaced files gives the same journal, the
same stages, and the same result; the images have the same content. A file with a carriage return
put in front of every line feed is respaced. -/
theorem run_of_respaced :
    (∀ (d d' : Disk) (path : Path) (content content' : Bytes), d.read path = .ok content →
      d'.read path = .ok content' → Respaced content content' → ∀ strict cancelled,
        Source.compose d' strict cancelled path = Source.compose d strict cancelled path) ∧
    (∀ (d d' : Disk), d.Matches Respaced d' →
      ∀ (symbols : List Atom → Traced SymbolTables) (cancelled : Bool) (o : CompileOptions)
        (schedule : Include.Schedule),
        let tools : Toolchain := ⟨symbols, fun d t o => Manifest.generate d cancelled t o⟩
        let r := run tools d cancelled o schedule
        let r' := run tools d' cancelled o schedule
        r'.journal = r.journal ∧ r'.stages = r.stages ∧ r'.result = r.result ∧
          ∀ c, r.result = .ok c → r'.disk.read o.outputPath = r.disk.read o.outputPath) ∧
    ∀ content, Source.IsShort content → Source.IsShort (Source.withReturns content) →
      Respaced content (Source.withReturns content) := by
  refine ⟨fun d d' path content content' hread hread' h => h.compose_eq hread hread', ?_, ?_⟩
  · intro d d' h symbols cancelled o schedule tools r r'
    obtain ⟨htraced, hstages⟩ := run_of_matches h symbols cancelled o schedule
    have hresult : r'.result = r.result := congrArg Traced.result htraced
    refine ⟨congrArg Traced.journal htraced, hstages, hresult, fun c hc => ?_⟩
    rw [read_output_of_result hc, read_output_of_result (hresult.trans hc)]
  · intro content hshort hshort'
    exact .padded (Source.padded_withReturns content) hshort hshort'

namespace TwoSources

def empty : Disk where
  workDir := []
  entries := []

/-- A disk with a program of two files. -/
def disk (main included : Bytes) : Disk :=
  (Disk.put empty ["m.4th"] (.file main)).put ["i.4th"] (.file included)

/-- A comment that goes over a line, a literal left open at the end of one, and a directive. -/
def main : Bytes := "( a\nb ) LOAD i.4th\n: f \"x\n;"

/-- The same with blanks of every kind in front of its line feeds. -/
def spaced : Bytes := "( a\r\nb ) LOAD i.4th \t\x0c\r\r\n: f \"x \n;"

def included : Bytes := "VARIABLE v\n\n"

def options : CompileOptions where
  source := "m.4th"

theorem padded_main : Source.Padded main spaced :=
  .line "( a" "\r" (by decide +kernel) (.line "b ) LOAD i.4th" " \t\x0c\r\r" (by decide +kernel)
    (.line ": f \"x" " " (by decide +kernel) (.rest ";")))

theorem matches_disk : (disk main included).Matches Respaced
    (disk spaced (Source.withReturns included)) := by
  have hempty : Disk.Matches Respaced empty empty := by
    refine ⟨rfl, rfl, fun l => ?_⟩
    cases l with
    | nil => exact .some .directory
    | cons name l => exact .none
  have hmain : Respaced main spaced :=
    .padded padded_main (by decide +kernel) (by decide +kernel)
  have hincluded : Respaced included (Source.withReturns included) :=
    .padded (Source.padded_withReturns included) (by decide +kernel) (by decide +kernel)
  exact (hempty.put (.file hmain) _).put (.file hincluded) _

end TwoSources

open TwoSources in
/-- The two programs are accepted, with the lines of their atoms and the image the same. -/
theorem run_of_respaced_twoFiles :
    let r := run (.standard false) (disk main included) false options
    let r' := run (.standard false) (disk spaced (Source.withReturns included)) false options
    r.stages = [.parse, .analyze, .generate] ∧ r'.result = r.result ∧
      r'.disk.read "m.exe" = r.disk.read "m.exe" := by
  intro r r'
  have hstages : r.stages = [.parse, .analyze, .generate] := by decide +kernel
  obtain ⟨-, -, hresult, himage⟩ :=
    run_of_respaced.2.1 _ _ matches_disk (analyze false) false options .inOrder
  refine ⟨hstages, hresult, ?_⟩
  cases h : r.result with
  | error f =>
    have hok : r.result.isOk = true := by decide +kernel
    rw [h] at hok
    cases hok
  | ok c => exact himage c h

end Compilation

end ForthFrontend
