import ForthFrontend.Proofs.Analysis.Position
import ForthFrontend.Proofs.Compilation
import ForthFrontend.Proofs.Include.Advance
import ForthFrontend.Proofs.Scan
import ForthFrontend.Proofs.Source

/-!
# Positions

Atoms carry the file and the line they were found in, and errors carry the place of an atom. Both
are set when a file is composed and then only handed on: by splices, by what is read ahead and by
the analysis. So every position can be found again in a file that the run opened.

## Main definitions

* `Include.Opens`: the files that the run of a program opens.
* `Include.Stands`: the atom is a token on the line it names, of a file that was opened.
* `Include.Points`: the error names no place because the entry file could not be opened, or it names
  the place of the atom that broke its rule.

## Main results

* `Include.Resolution.Sited.next`: a step keeps positions true.
* `Include.Resolution.Sited.run`: so does a run, for atoms and for errors.
* `Compilation.positions_are_true`: positions of programs and of compilations are true.
-/

namespace ForthFrontend

namespace Source

/-- The atom is a token on the line it names, lines being counted from one. -/
def Bears (d : Disk) (a : Atom) : Prop :=
  ∃ content n text, d.read a.file = .ok content ∧ 1 ≤ n ∧ n ≤ (lines content).length ∧
    a.line = Int64.ofNat n ∧ (lines content)[n - 1]? = some text ∧
    ⟨a.kind, a.text⟩ ∈ Token.split (dropReturn text)

theorem Bears.exists_read {d : Disk} {a : Atom} (h : Bears d a) :
    ∃ content, d.read a.file = .ok content := by
  obtain ⟨content, _, _, hread, _⟩ := h
  exact ⟨content, hread⟩

section Compose

variable {d : Disk} {strict : Bool} {path : Path}

theorem bears_of_mem_scanned {content : Bytes} (hread : d.read path = .ok content) {a : Atom}
    (ha : a ∈ scanned path 1 false (lines content)) : a.file = path ∧ Bears d a := by
  obtain ⟨i, text, htext, t, ht, rfl⟩ := exists_token_of_mem_scanned ha
  obtain ⟨hlt, -⟩ := List.getElem?_eq_some_iff.1 htext
  exact ⟨rfl, content, 1 + i, text, hread, by omega, by omega, rfl, by simpa using htext, ht⟩

/-- What composes under strict scanning composes in the same way without. -/
theorem compose_loose_of_ok {found : List Atom} (h : compose d strict false path = .ok found) :
    compose d false false path = .ok found := by
  cases strict with
  | false => exact h
  | true =>
    cases hloose : compose d false false path with
    | error f =>
      obtain ⟨g, hg⟩ := compose_strict_of_error hloose
      rw [hg] at h
      cases h
    | ok found' =>
      rw [compose_strict_of_ok hloose] at h
      split at h
      · exact h
      · cases h

theorem bears_of_mem_compose {found : List Atom} (h : compose d strict false path = .ok found) :
    ∀ a ∈ found, a.file = path ∧ Bears d a := by
  obtain ⟨content, hread, -, rfl⟩ := exists_read_of_compose (compose_loose_of_ok h)
  exact fun a ha => bears_of_mem_scanned hread ha

/-- **Why a file does not compose**, as far as a rule is broken: it cannot be opened, or a literal
on one of its lines is left open. -/
theorem compose_error_cases {e : SourceError}
    (h : compose d strict false path = .error (.source e)) :
    (e.fault = .sourceNotFound ∧ e.file = [] ∧ (d.openFile path).isOk = false) ∨
    ∃ a, a.file = path ∧ Bears d a ∧ a.opensString = true ∧ e = .unclosed a := by
  cases hread : d.read path with
  | ok content =>
    rw [compose_of_read hread] at h
    obtain ⟨a, ha, hopen, rfl⟩ := exists_unclosed_of_scanLines h
    obtain ⟨hfile, hbears⟩ := bears_of_mem_scanned hread ha
    exact .inr ⟨a, hfile, hbears, hopen, rfl⟩
  | error c =>
    cases hopen : d.openFile path with
    | error why =>
      rw [compose, openFile, if_neg (by decide), hopen] at h
      obtain rfl := Failure.source.inj (Except.error.inj h)
      exact .inl ⟨rfl, rfl, rfl⟩
    | ok entry =>
      -- an entry that was opened but not read is a directory, which breaks no rule
      have hcontent : entry.content path = .error c := by rwa [Disk.read, hopen] at hread
      rw [compose_of_openFile hopen, hcontent] at h
      cases h

end Compose

end Source

namespace Include

/-! ### Files that a run opens -/

/-- The step composes the path: ahead, or since nothing is held for the file that the first
directive names. -/
def Resolution.Composes {s : Setting} (r : Resolution s) (path : Path) : Prop :=
  (s.readsAhead = true ∧ ∃ j ∈ r.ahead, j.path = path) ∨
  ∃ front d t rest, r.atoms = front ++ d :: t :: rest ∧ DirectiveFree front ∧
    isDirective d = true ∧ path = s.disk.includePath d.file t.text ∧
    s.disk.identity path ∉ r.visited ∧ r.readAhead.held.get? (s.disk.identity path) = none

/-- The run of a program comes to the state. -/
def Reaches (s : Setting) (entry : Path) (r : Resolution s) : Prop :=
  ∃ first, s.compose entry = .ok first ∧
    Relation.ReflTransGen Resolution.Next (Resolution.start s entry first) r

/-- The run of a program tries to open the path. -/
def Tries (s : Setting) (entry path : Path) : Prop :=
  path = entry ∨ ∃ r, Reaches s entry r ∧ r.Composes path

/-- The run of a program opens the path. -/
def Opens (s : Setting) (entry path : Path) : Prop :=
  Tries s entry path ∧ (s.disk.openFile path).isOk = true

/-- The atom is a token on the line it names, of a file that was opened. -/
def Stands (s : Setting) (entry : Path) (a : Atom) : Prop :=
  Opens s entry a.file ∧ Source.Bears s.disk a

/-- Where the error of a program points. -/
inductive Points (s : Setting) (entry : Path) (e : SourceError) : Prop where
  /-- The entry file could not be opened, so there is no place to name. -/
  | nowhere (hfault : e.fault = .sourceNotFound) (hfile : e.file = [])
      (hentry : (s.disk.openFile entry).isOk = false)
  /-- A directive cannot be resolved. -/
  | directive (hfault : e.fault ∈ [.sourceNotFound, .missingIncludeTarget, .circularInclude])
      (a : Atom) (hstands : Stands s entry a) (ha : isDirective a = true)
      (hplace : e.file = a.file ∧ e.line = a.line)
  /-- A literal is left open. -/
  | literal (hfault : e.fault = .unterminatedString) (a : Atom) (hstands : Stands s entry a)
      (ha : a.opensString = true) (hplace : e.file = a.file ∧ e.line = a.line ∧ e.target = a.text)
  /-- A definition breaks a rule. -/
  | definition (hfault : e.fault ∈ Fault.ofDefinitions) (atoms : List Atom)
      (hatoms : (parse s false entry).result = .ok atoms) (a : Atom) (hmem : a ∈ atoms)
      (hstands : Stands s entry a) (hplace : e.file = a.file ∧ e.line = a.line)

section Compose

variable {s : Setting} {entry path : Path}

theorem isOk_openFile_of_bears {d : Disk} {a : Atom} (h : Source.Bears d a) :
    (d.openFile a.file).isOk = true := by
  obtain ⟨content, hread⟩ := h.exists_read
  rw [Disk.read] at hread
  cases hopen : d.openFile a.file with
  | error e =>
    rw [hopen] at hread
    cases hread
  | ok e => rfl

/-- The atoms of a file that the run tries to open stand where they say. -/
theorem stands_of_mem_compose (htries : Tries s entry path) {found : List Atom}
    (h : s.compose path = .ok found) : ∀ a ∈ found, Stands s entry a := by
  intro a ha
  obtain ⟨hfile, hbears⟩ := Source.bears_of_mem_compose h a ha
  exact ⟨⟨hfile ▸ htries, isOk_openFile_of_bears hbears⟩, hbears⟩

/-- An open literal of a file that the run tries to open stands where its error says. -/
theorem points_unclosed (htries : Tries s entry path) {a : Atom} (hfile : a.file = path)
    (hbears : Source.Bears s.disk a) (hopen : a.opensString = true) :
    Points s entry (.unclosed a) :=
  .literal rfl a ⟨⟨hfile ▸ htries, isOk_openFile_of_bears hbears⟩, hbears⟩ hopen ⟨rfl, rfl, rfl⟩

/-- The error of a file that a directive names stands at the directive or in the file. -/
theorem points_orAt {f : Failure} {e : SourceError} {directive : Atom}
    (htries : Tries s entry path) (hc : s.compose path = .error f)
    (hd : isDirective directive = true) (hstands : Stands s entry directive)
    (h : f.orAt directive = .source e) : Points s entry e := by
  cases f with
  | source e' =>
    obtain rfl := Failure.source.inj h
    rcases Source.compose_error_cases hc with ⟨hfault, hfile, -⟩ | ⟨a, hfile, hbears, hopen, rfl⟩
    · have horAt : e'.orAt directive = { e' with file := directive.file, line := directive.line } :=
        if_pos (by rw [hfile]; rfl)
      rw [horAt]
      exact .directive (by rw [hfault]; decide) directive hstands hd ⟨rfl, rfl⟩
    · -- the error has a place already, since no file has an empty path
      obtain ⟨content, hread⟩ := hbears.exists_read
      have hne : a.file ≠ [] := Source.ne_nil_of_read hread
      have horAt : (SourceError.unclosed a).orAt directive = .unclosed a :=
        if_neg (by simpa [SourceError.unclosed] using hne)
      rw [horAt]
      exact points_unclosed htries hfile hbears hopen
  | _ => cases h

end Compose

/-! ### Runs -/

namespace Resolution

variable {s : Setting} {entry : Path}

/-- Positions in the state are true: of its atoms, and of those held. -/
structure Sited (entry : Path) (r : Resolution s) : Prop where
  reached : Reaches s entry r
  stand : ∀ a ∈ r.atoms, Stands s entry a
  tried : ∀ h ∈ r.held, Tries s entry h.job.path

/-- What is held after reading ahead was tried. -/
theorem Sited.tries_of_mem_readAhead {r : Resolution s} (hr : Sited entry r) {h : Held}
    (hh : h ∈ r.readAhead.held) : Tries s entry h.job.path := by
  cases hs : s.readsAhead with
  | false =>
    rw [readAhead, if_neg (by simp [hs])] at hh
    exact hr.tried h hh
  | true =>
    rw [readAhead, if_pos hs] at hh
    rcases ReadAhead.mem_run hh with hh | hjob
    · exact hr.tried h hh
    · exact .inr ⟨r, hr.reached, .inl ⟨hs, h.job, hjob, rfl⟩⟩

/-- What a step fetches is the composition of a path that the run tries to open. -/
theorem Sited.exists_tries_of_fetch {r : Resolution s} (hr : Sited entry r)
    {front rest : List Atom} {d t : Atom} (ha : r.atoms = front ++ d :: t :: rest)
    (hf : DirectiveFree front) (hd : isDirective d = true)
    (hv : s.disk.identity (s.disk.includePath d.file t.text) ∉ r.visited) :
    ∃ q, Tries s entry q ∧
      (r.readAhead.fetch (s.disk.identity (s.disk.includePath d.file t.text))
        (s.disk.includePath d.file t.text)).1 = s.compose q := by
  obtain ⟨q, hfetch, -, ⟨h, hh, rfl⟩ | ⟨rfl, hnone⟩⟩ :=
    r.readAhead.exists_compose_of_fetch (s.disk.includePath d.file t.text) rfl
  · exact ⟨_, hr.tries_of_mem_readAhead hh, hfetch⟩
  · exact ⟨_, .inr ⟨r, hr.reached, .inr ⟨front, d, t, rest, ha, hf, hd, rfl, hv, hnone⟩⟩, hfetch⟩

/-- **A step keeps positions true.** -/
theorem Sited.next {r r' : Resolution s} (hr : Sited entry r) (hnext : Next r r') :
    Sited entry r' := by
  obtain ⟨first, hfirst, hreach⟩ := hr.reached
  have hreached : Reaches s entry r' := ⟨first, hfirst, hreach.tail hnext⟩
  obtain ⟨front, d, t, rest, included, hf, hd, ha, hv, hc, rfl⟩ := next_cases hnext
  obtain ⟨q, htries, hfetch⟩ := hr.exists_tries_of_fetch ha hf hd hv
  have hold := hr.stand
  rw [ha] at hold
  refine ⟨hreached, ?_, ?_⟩
  · intro a hmem
    simp only [spliceAt, List.mem_append] at hmem
    -- what is not new was there before
    obtain (hmem | hmem) | hmem := hmem
    · exact hold a (List.mem_append_left _ hmem)
    · exact stands_of_mem_compose htries (hfetch.symm.trans hc) a hmem
    · exact hold a (List.mem_append_right _ (List.mem_cons_of_mem _ (List.mem_cons_of_mem _ hmem)))
  · intro h hh
    exact hr.tries_of_mem_readAhead (List.mem_filter.1 hh).1

/-- A step that ends with an error points where the error says. -/
theorem Sited.points {r : Resolution s} (hr : Sited entry r) {e : SourceError}
    (hstep : r.step.1 = .finished (.error (.source e))) : Points s entry e := by
  obtain ⟨-, hcase⟩ | ⟨front, d, -, hd, ha, hcase⟩ | ⟨front, d, t, rest, hf, hd, ha, hcase⟩ :=
    r.step_cases
  · rw [hcase] at hstep
    cases hstep
  · have hstands : Stands s entry d := hr.stand d (by rw [ha]; simp)
    rw [hcase] at hstep
    cases hstep
    exact .directive (by simp [SourceError.atAtom]) d hstands hd ⟨rfl, rfl⟩
  · have hstands : Stands s entry d := hr.stand d (by rw [ha]; simp)
    obtain ⟨-, hcase⟩ | ⟨hv, hcase⟩ := hcase
    · rw [hcase] at hstep
      cases hstep
      exact .directive (by simp [SourceError.atAtom]) d hstands hd ⟨rfl, rfl⟩
    · obtain ⟨q, htries, hfetch⟩ := hr.exists_tries_of_fetch ha hf hd hv
      rw [hfetch] at hcase
      split at hcase
      · next f hc =>
        rw [hcase] at hstep
        exact points_orAt htries hc hd hstands (Except.error.inj (Step.finished.inj hstep))
      · rw [hcase] at hstep
        cases hstep

/-- **A run keeps positions true**, to its atoms or to its error. -/
theorem Sited.run {r : Resolution s} (hr : Sited entry r) :
    (∀ atoms, r.run.result = .ok atoms → ∀ a ∈ atoms, Stands s entry a) ∧
    ∀ e, r.run.result = .error (.source e) → Points s entry e := by
  revert hr
  refine run_induction (motive := fun r result => Sited entry r →
    (∀ atoms, result = .ok atoms → ∀ a ∈ atoms, Stands s entry a) ∧
    ∀ e, result = .error (.source e) → Points s entry e) ?finished ?spliced r
  case finished =>
    intro r result hstep hr
    constructor
    · rintro atoms rfl
      rw [atoms_of_step hstep]
      exact hr.stand
    · rintro e rfl
      exact hr.points hstep
  case spliced =>
    intro r next result hnext ih hr
    exact ih (hr.next hnext)

end Resolution

section Parse

variable {s : Setting} {entry : Path}

theorem sited_start {first : List Atom} (h : s.compose entry = .ok first) :
    Resolution.Sited entry (Resolution.start s entry first) where
  reached := ⟨first, h, .refl⟩
  stand := stands_of_mem_compose (.inl rfl) h
  tried := fun _ hh => absurd hh List.not_mem_nil

theorem stands_of_parse {atoms : List Atom} (h : (parse s false entry).result = .ok atoms) :
    ∀ a ∈ atoms, Stands s entry a := by
  cases hc : s.compose entry with
  | error f =>
    rw [parse_of_error hc] at h
    cases h
  | ok first =>
    rw [parse_of_ok hc] at h
    exact (sited_start hc).run.1 atoms h

theorem points_of_parse {e : SourceError}
    (h : (parse s false entry).result = .error (.source e)) : Points s entry e := by
  cases hc : s.compose entry with
  | error f =>
    rw [parse_of_error hc] at h
    obtain rfl := Except.error.inj h
    rcases Source.compose_error_cases hc with ⟨hfault, hfile, hopen⟩ | ⟨a, hfile, hbears, hopen, rfl⟩
    · exact .nowhere hfault hfile hopen
    · exact points_unclosed (.inl rfl) hfile hbears hopen
  | ok first =>
    rw [parse_of_ok hc] at h
    exact (sited_start hc).run.2 e h

theorem points_of_analyze {atoms : List Atom} {e : SourceError}
    (hparse : (parse s false entry).result = .ok atoms)
    (h : (analyze false atoms).result = .error (.source e)) : Points s entry e := by
  obtain ⟨hfault, a, ha, hplace⟩ := blames_of_analyze h
  exact .definition hfault atoms hparse a ha (stands_of_parse hparse a ha) hplace

end Parse

end Include

/-- An image that is not written breaks no rule of the sources. -/
theorem Manifest.result_generate_ne_source {d : Disk} {t : SymbolTables} {o : CompileOptions}
    (e : SourceError) : (generate d false t o).result ≠ .error (.source e) := by
  intro h
  rw [generate] at h
  split at h
  · cases h
  · rw [Output.save] at h
    split at h <;> cases h

namespace Compilation

open Include

/-- **Positions are true**, whatever the number of workers and the order they finish in. Every atom
of a program is a token on the line it names, of a file that the run opened. Every error of a
compilation names the place of the atom that broke a rule, or no place because the entry file could
not be opened. -/
theorem positions_are_true (d : Disk) (o : CompileOptions) (schedule : Schedule) :
    (∀ atoms, (parse (setting d o schedule) false o.source).result = .ok atoms →
      ∀ a ∈ atoms, Stands (setting d o schedule) o.source a) ∧
    ∀ e, (run (.standard false) d false o schedule).result = .error (.source e) →
      Points (setting d o schedule) o.source e := by
  refine ⟨fun atoms h => stands_of_parse h, fun e h => ?_⟩
  have hfails := stages_and_result_iff_fails.1 ⟨rfl, h⟩
  generalize (run (.standard false) d false o schedule).stages = stages at hfails
  generalize hfailure : Failure.source e = f at hfails
  cases hfails with
  | options hvalid => cases hfailure
  | parse hvalid hparse => exact points_of_parse (hparse.trans (by rw [← hfailure]))
  | analyze hvalid hparse hsymbols =>
    exact points_of_analyze hparse (hsymbols.trans (by rw [← hfailure]))
  | generate hvalid hparse hsymbols hgenerate =>
    exact absurd (hgenerate.trans (by rw [← hfailure])) (Manifest.result_generate_ne_source e)

end Compilation

end ForthFrontend
