import ForthFrontend.Proofs.Include.Position
import ForthFrontend.Proofs.Include.Strict

/-!
# Resolution in one pass

Serial resolution replaces the first directive of the sequence and looks for the next one from the
start again. It never finds one in front of the place where it replaced the last, since what stands
there has no directive. So a single pass does the same: it gives away every atom that is no
directive, and puts the atoms of a file in front of what it has still to go through. Directives may
stand at the end of a file and take their target from behind it; the pass meets them there as
resolution does.

## Main definitions

* `Include.Course`: the paths that a resolution composes, in order, and what it comes to.
* `Include.onePass`: resolution in one pass.
* `Include.Resolution.composedPaths`: the paths that a run composes.

## Main results

* `Include.Resolution.mem_composing_iff`: the paths that a step composes.
* `Include.Resolution.filter_journal_run`: the journal notes the paths that a run composes.
* `Include.Resolution.course_append`: a run behind atoms without directives.
* `Include.resolve_eq_onePass`: resolution is a pass.
-/

namespace ForthFrontend.Include

/-- The paths that a resolution composes, in order, and its result. -/
structure Course where
  composed : List Path
  result : Except Failure (List Atom)
  deriving DecidableEq

namespace Course

/-- The course whose result stands behind some atoms. -/
def behind (front : List Atom) (c : Course) : Course :=
  { c with result := c.result.map (front ++ ·) }

/-- The course that composes some paths first. -/
def via (paths : List Path) (c : Course) : Course :=
  { c with composed := paths ++ c.composed }

theorem behind_nil (c : Course) : c.behind [] = c := by
  cases c with
  | mk composed result => cases result <;> rfl

theorem behind_behind (c : Course) (l m : List Atom) :
    (c.behind m).behind l = c.behind (l ++ m) := by
  cases c with
  | mk composed result => cases result <;> simp [behind, Except.map]

end Course

/-- Goes through a sequence once. An atom that is no directive is part of the result. The file that
a directive names is marked as included and its atoms are put in front of what is left. -/
def onePass (s : Setting) (visited : List Path) (work : List Atom) : Course :=
  match work with
  | [] => ⟨[], .ok []⟩
  | a :: rest =>
    if isDirective a then
      match rest with
      | [] =>
        ⟨[], .error (.source { fault := .missingIncludeTarget, file := a.file, line := a.line })⟩
      | target :: rest =>
        if _hv : s.disk.identity (s.disk.includePath a.file target.text) ∈ visited then
          ⟨[], .error (.source { fault := .circularInclude, file := a.file, line := a.line,
                                 target := target.text })⟩
        else
          match _hc : s.compose (s.disk.includePath a.file target.text) with
          | .error f => ⟨[s.disk.includePath a.file target.text], .error (f.orAt a)⟩
          | .ok included =>
            (onePass s (s.disk.identity (s.disk.includePath a.file target.text) :: visited)
              (included ++ rest)).via [s.disk.includePath a.file target.text]
    else (onePass s visited rest).behind [a]
termination_by (s.disk.unvisited visited, work.length)
decreasing_by
  · exact .left _ _ (Resolution.unvisited_lt_of_compose _hc _hv)
  · exact .right _ (Nat.lt_succ_self _)

/-! ### Steps of the pass -/

section Pass

variable {s : Setting} {visited : List Path} {a target : Atom} {rest included : List Atom}

theorem onePass_nil : onePass s visited [] = ⟨[], .ok []⟩ := by
  rw [onePass.eq_def]

theorem onePass_atom (ha : isDirective a = false) :
    onePass s visited (a :: rest) = (onePass s visited rest).behind [a] := by
  rw [onePass.eq_def]
  simp only [ha, Bool.false_eq_true, ↓reduceIte]

theorem onePass_last (ha : isDirective a = true) :
    onePass s visited [a] = ⟨[], .error (.atAtom .missingIncludeTarget a)⟩ := by
  rw [onePass.eq_def]
  simp only [ha, ↓reduceIte]
  rfl

theorem onePass_repeated (ha : isDirective a = true)
    (hv : s.disk.identity (s.disk.includePath a.file target.text) ∈ visited) :
    onePass s visited (a :: target :: rest) =
      ⟨[], .error (Resolution.repeated a target)⟩ := by
  rw [onePass.eq_def]
  simp only [ha, hv, ↓reduceIte, ↓reduceDIte]
  rfl

theorem onePass_failed (ha : isDirective a = true)
    (hv : s.disk.identity (s.disk.includePath a.file target.text) ∉ visited) {f : Failure}
    (hc : s.compose (s.disk.includePath a.file target.text) = .error f) :
    onePass s visited (a :: target :: rest) =
      ⟨[s.disk.includePath a.file target.text], .error (f.orAt a)⟩ := by
  rw [onePass.eq_def]
  simp only [ha, hv, ↓reduceIte, ↓reduceDIte]
  split
  · next hc' => rw [Except.error.inj (hc.symm.trans hc')]
  · next hc' => cases hc.symm.trans hc'

theorem onePass_spliced (ha : isDirective a = true)
    (hv : s.disk.identity (s.disk.includePath a.file target.text) ∉ visited)
    (hc : s.compose (s.disk.includePath a.file target.text) = .ok included) :
    onePass s visited (a :: target :: rest) =
      (onePass s (s.disk.identity (s.disk.includePath a.file target.text) :: visited)
        (included ++ rest)).via [s.disk.includePath a.file target.text] := by
  rw [onePass.eq_def]
  simp only [ha, hv, ↓reduceIte, ↓reduceDIte]
  split
  · next hc' => cases hc.symm.trans hc'
  · next hc' => rw [Except.ok.inj (hc.symm.trans hc')]

end Pass

/-- Does the event say that a path was composed, or that it could not be opened? -/
def isComposition : Event → Bool
  | .sourceComposed _ | .sourceUnopened _ => true
  | _ => false

/-- What the journal says about paths that were composed in order. -/
def Setting.noted (s : Setting) (paths : List Path) : Journal :=
  paths.flatMap fun path => composeEvents path (s.compose path)

theorem Setting.noted_append (s : Setting) (l m : List Path) :
    s.noted (l ++ m) = s.noted l ++ s.noted m :=
  List.flatMap_append

theorem filter_composeEvents (path : Path) (outcome : Outcome) :
    (composeEvents path outcome).filter isComposition = composeEvents path outcome := by
  rw [composeEvents.eq_def]
  split <;> rfl

namespace Resolution

variable {s : Setting}

/-! ### Paths that a run composes -/

/-- The path of the first directive, if its file is neither included nor held. -/
def needs? (r : Resolution s) : Option Path :=
  match r.atoms.dropWhile (!isDirective ·) with
  | directive :: target :: _ =>
    let path := s.disk.includePath directive.file target.text
    if s.disk.identity path ∈ r.visited ∨ (r.held.get? (s.disk.identity path)).isSome then none
    else some path
  | _ => none

/-- The paths that a step composes: ahead, and since its first directive needs them. -/
def composing (r : Resolution s) : List Path :=
  (if s.readsAhead then r.ahead.map Job.path else []) ++ r.readAhead.needs?.toList

/-- The paths that a run composes, in order. -/
def composedPaths (r : Resolution s) : List Path :=
  match _h : r.step with
  | (.finished _, _) => r.composing
  | (.spliced next, _) => r.composing ++ composedPaths next
termination_by s.disk.unvisited r.visited
decreasing_by exact unvisited_step_lt _h

theorem dropWhile_directiveFree {front : List Atom} (hf : DirectiveFree front) (rest : List Atom) :
    (front ++ rest).dropWhile (!isDirective ·) = rest.dropWhile (!isDirective ·) :=
  List.dropWhile_append_of_pos fun a ha => by simp [hf a ha]

theorem needs?_free {r : Resolution s} (h : DirectiveFree r.atoms) : r.needs? = none := by
  have hdrop := dropWhile_directiveFree h []
  rw [List.append_nil] at hdrop
  rw [needs?, hdrop]
  rfl

section Pair

variable {r : Resolution s} {front rest : List Atom} {d t : Atom}

theorem needs?_last (hf : DirectiveFree front) (hd : isDirective d = true)
    (h : r.atoms = front ++ [d]) : r.needs? = none := by
  rw [needs?, h, dropWhile_directiveFree hf, List.dropWhile_cons_of_neg (by simp [hd])]

theorem needs?_pair (hf : DirectiveFree front) (hd : isDirective d = true)
    (h : r.atoms = front ++ d :: t :: rest) :
    r.needs? = if s.disk.identity (s.disk.includePath d.file t.text) ∈ r.visited ∨
        (r.held.get? (s.disk.identity (s.disk.includePath d.file t.text))).isSome then none
      else some (s.disk.includePath d.file t.text) := by
  rw [needs?, h, dropWhile_directiveFree hf, List.dropWhile_cons_of_neg (by simp [hd])]

end Pair

/-- **The paths that a step composes** are those it tries to open. -/
theorem mem_composing_iff {r : Resolution s} {path : Path} :
    path ∈ r.composing ↔ r.Composes path := by
  have hahead : path ∈ (if s.readsAhead then r.ahead.map Job.path else []) ↔
      s.readsAhead = true ∧ ∃ j ∈ r.ahead, j.path = path := by
    cases s.readsAhead <;> simp
  rw [composing, List.mem_append, hahead, Composes]
  refine or_congr_right ?_
  rw [Option.mem_toList]
  constructor
  · intro hneeds
    obtain hf | ⟨front, d, hf, hd, ha⟩ | ⟨front, d, t, rest, hf, hd, ha⟩ :=
      firstDirective_cases r.atoms
    · rw [needs?_free (r.atoms_readAhead ▸ hf)] at hneeds
      cases hneeds
    · rw [needs?_last hf hd (r.atoms_readAhead.trans ha)] at hneeds
      cases hneeds
    · rw [needs?_pair hf hd (r.atoms_readAhead.trans ha)] at hneeds
      split at hneeds
      · cases hneeds
      · next hnew =>
        obtain rfl := Option.some.inj hneeds
        rw [not_or, visited_readAhead, Option.not_isSome_iff_eq_none] at hnew
        exact ⟨front, d, t, rest, ha, hf, hd, rfl, hnew⟩
  · rintro ⟨front, d, t, rest, ha, hf, hd, rfl, hv, hheld⟩
    have hnew : ¬ (s.disk.identity (s.disk.includePath d.file t.text) ∈ r.readAhead.visited ∨
        (r.readAhead.held.get? (s.disk.identity (s.disk.includePath d.file t.text))).isSome) := by
      rw [not_or, visited_readAhead, Option.not_isSome_iff_eq_none]
      exact ⟨hv, hheld⟩
    rw [needs?_pair hf hd (r.atoms_readAhead.trans ha), if_neg hnew]

/-- The journal of reading ahead notes the paths that are composed ahead. -/
theorem filter_readAheadEvents (r : Resolution s) : r.readAheadEvents.filter isComposition =
    s.noted (if s.readsAhead then r.ahead.map Job.path else []) := by
  rw [readAheadEvents, Setting.noted]
  cases s.readsAhead with
  | false => rfl
  | true =>
    simp only [↓reduceIte, List.filter_flatMap, List.filter_append, filter_composeEvents,
      List.flatMap_map]
    simp [isComposition]

/-- What is fetched is noted unless it was held. -/
theorem filter_fetch (r : Resolution s) (id path : Path) :
    (r.fetch id path).2.filter isComposition =
      s.noted (if (r.held.get? id).isSome then [] else [path]) := by
  rw [fetch]
  cases r.held.get? id with
  | some outcome => rfl
  | none => exact (filter_composeEvents _ _).trans (List.flatMap_singleton _ _).symm

/-- The journal of a replacement notes the path that it needs. -/
theorem filter_replaceFirst (r : Resolution s) :
    r.replaceFirst.2.filter isComposition = s.noted r.needs?.toList := by
  obtain hf | ⟨front, d, hf, hd, ha⟩ | ⟨front, d, t, rest, hf, hd, ha⟩ :=
    firstDirective_cases r.atoms
  · rw [needs?_free hf, replaceFirst, findDirective?_of_directiveFree hf]
    rfl
  · have hevents : r.replaceFirst.2 = [.includeTargetMissing d] := by
      simp [replaceFirst, ha, findDirective?_append hf hd]
    rw [needs?_last hf hd ha, hevents]
    rfl
  · rw [needs?_pair hf hd ha, replaceFirst, ha, findDirective?_append hf hd]
    simp only [List.drop_left, List.contains_eq_mem, decide_eq_true_eq]
    by_cases hv : s.disk.identity (s.disk.includePath d.file t.text) ∈ r.visited
    · rw [if_pos hv, if_pos (.inl hv)]
      rfl
    · have hnoted := r.filter_fetch (s.disk.identity (s.disk.includePath d.file t.text))
        (s.disk.includePath d.file t.text)
      simp only [hv, ↓reduceIte, false_or]
      split
      · next hfetch =>
        rw [hfetch] at hnoted
        rw [hnoted]
        split <;> rfl
      · next hfetch =>
        rw [hfetch] at hnoted
        rw [List.filter_append, hnoted]
        split <;> exact List.append_nil _

/-- **The journal of a step** notes the paths that the step composes. -/
theorem filter_step (r : Resolution s) :
    r.step.2.filter isComposition = s.noted r.composing := by
  rw [step, List.filter_append, filter_readAheadEvents, filter_replaceFirst, composing,
    Setting.noted_append]

/-- **The journal of a run** notes the paths that the run composes, in order. -/
theorem filter_journal_run (r : Resolution s) :
    r.run.journal.filter isComposition = s.noted r.composedPaths := by
  fun_induction composedPaths r with
  | case1 r result events hstep =>
    rw [run_journal, List.filter_append, filter_step, hstep]
    exact List.append_nil _
  | case2 r next events hstep ih =>
    rw [run_journal, List.filter_append, filter_step, hstep, Setting.noted_append, ← ih]

/-! ### Courses of runs -/

/-- What a run composes and what it comes to. -/
def course (r : Resolution s) : Course :=
  ⟨r.composedPaths, r.run.result⟩

theorem course_of_finished {r : Resolution s} {result : Except Failure (List Atom)}
    (h : r.step.1 = .finished result) : r.course = ⟨r.composing, result⟩ := by
  have hcomposed : r.composedPaths = r.composing := by
    rw [composedPaths]
    split
    · rfl
    · next hstep =>
      rw [hstep] at h
      cases h
  rw [course, hcomposed, run_result, h]

theorem course_of_spliced {r next : Resolution s} (h : r.step.1 = .spliced next) :
    r.course = next.course.via r.composing := by
  have hcomposed : r.composedPaths = r.composing ++ next.composedPaths := by
    rw [composedPaths]
    split
    · next hstep =>
      rw [hstep] at h
      cases h
    · next hstep =>
      rw [hstep] at h
      rw [Step.spliced.inj h]
  rw [course, hcomposed, run_result, h]
  rfl

/-- A serial step composes what its first directive needs. -/
theorem composing_serial (hs : s.readsAhead = false) (r : Resolution s) :
    r.composing = r.needs?.toList := by
  have hahead : r.readAhead = r := by simp [readAhead, hs]
  rw [composing, hs, hahead]
  rfl

/-- The path of a directive is needed if its file was not included. -/
theorem composing_pair (hs : s.readsAhead = false) {front rest : List Atom} {d t : Atom}
    (hf : DirectiveFree front) (hd : isDirective d = true) (visited : List Path) :
    (plain s (front ++ d :: t :: rest) visited).composing =
      if s.disk.identity (s.disk.includePath d.file t.text) ∈ visited then []
      else [s.disk.includePath d.file t.text] := by
  rw [composing_serial hs, needs?_pair hf hd rfl]
  by_cases hv : s.disk.identity (s.disk.includePath d.file t.text) ∈ visited
  · rw [if_pos (.inl hv), if_pos hv]
    rfl
  · rw [if_neg hv, if_neg]
    · rfl
    · rintro (hmem | hheld)
      · exact hv hmem
      · cases hheld

/-- **A run behind atoms without directives** goes through what follows them once. -/
theorem course_append (hs : s.readsAhead = false) (visited : List Path) (work : List Atom)
    {front : List Atom} (hf : DirectiveFree front) :
    (plain s (front ++ work) visited).course = (onePass s visited work).behind front := by
  -- the induction is over the pass, which has given away `front` so far
  induction visited, work using onePass.induct s generalizing front with
  | case1 visited =>
    rw [List.append_nil, onePass_nil,
      course_of_finished ((step_serial hs _).trans (replaceFirst_free hf)), composing_serial hs,
      needs?_free hf]
    simp [Course.behind, Except.map, plain]
  | case2 visited a ha =>
    rw [onePass_last ha,
      course_of_finished ((step_serial hs _).trans (replaceFirst_last hf ha rfl)),
      composing_serial hs, needs?_last hf ha rfl]
    rfl
  | case3 visited a ha t rest hv =>
    rw [onePass_repeated ha hv,
      course_of_finished ((step_serial hs _).trans (replaceFirst_repeated hf ha rfl hv)),
      composing_pair hs hf ha, if_pos hv]
    rfl
  | case4 visited a ha t rest hv f hc =>
    have hend := (step_serial hs _).trans (replaceFirst_failed (r := plain s
      (front ++ a :: t :: rest) visited) hf ha rfl hv hc)
    rw [onePass_failed ha hv hc, course_of_finished hend, composing_pair hs hf ha, if_neg hv]
    rfl
  | case5 visited a ha t rest hv included hc ih =>
    have hnext := (step_serial hs _).trans (replaceFirst_spliced (r := plain s
      (front ++ a :: t :: rest) visited) hf ha rfl hv hc)
    have hplain : (plain s (front ++ a :: t :: rest) visited).spliceAt front included rest
        (s.disk.identity (s.disk.includePath a.file t.text)) = plain s (front ++ (included ++ rest))
          (s.disk.identity (s.disk.includePath a.file t.text) :: visited) :=
      ext' (List.append_assoc _ _ _) rfl rfl
    rw [onePass_spliced ha hv hc, course_of_spliced hnext, hplain, ih hf, composing_pair hs hf ha,
      if_neg hv]
    rfl
  | case6 visited a rest ha ih =>
    have ha' : isDirective a = false := by simpa using ha
    rw [onePass_atom ha', Course.behind_behind, ← ih (hf.concat ha'), List.append_assoc]
    rfl

end Resolution

open Resolution in
/-- **Looking for directives from the start again is going through the sequence once.** Whatever was
included before, serial resolution composes the paths that one pass composes, in the same order,
which is also what its journal notes, and comes to the same atoms or the same error. -/
theorem resolve_eq_onePass {s : Setting} (hs : s.readsAhead = false) (entry : Path)
    (atoms : List Atom) (visited : List Path) :
    ((plain s atoms visited).composedPaths = (onePass s visited atoms).composed ∧
      (plain s atoms visited).run.journal.filter isComposition =
        s.noted (onePass s visited atoms).composed ∧
      (plain s atoms visited).run.result = (onePass s visited atoms).result) ∧
    resolve s false entry atoms = (plain s atoms [s.disk.identity entry]).run := by
  have hcourse : (plain s atoms visited).course = onePass s visited atoms := by
    have hpass := course_append hs visited atoms directiveFree_nil
    rwa [List.nil_append, Course.behind_nil] at hpass
  refine ⟨⟨?_, ?_, ?_⟩, rfl⟩
  · rw [← hcourse]
    rfl
  · rw [filter_journal_run, ← hcourse]
    rfl
  · rw [← hcourse]
    rfl

namespace AcrossFiles

/-- The file `a` ends with a directive, whose target stands in the file that includes `a`. -/
def disk : Disk where
  workDir := []
  entries := [(["m"], .file "LOAD a b c LOAD LOAD"), (["a"], .file "x LOAD"), (["b"], .file "y")]

def setting : Setting := Setting.serial disk false

def sequence : List Atom :=
  [wordOf "LOAD" "m", wordOf "a" "m", wordOf "b" "m", wordOf "c" "m", wordOf "LOAD" "m",
    wordOf "LOAD" "m"]

/-- There is no file with the name of the directive. -/
def failure : Failure :=
  .source { fault := .sourceNotFound, file := "m", line := 1, target := "LOAD",
            cause := some (.disk ⟨.openFile, "LOAD", .notFound⟩) }

theorem onePass_sequence : onePass setting [disk.identity "m"] sequence =
    ⟨[Bytes.ofString "a", Bytes.ofString "b", Bytes.ofString "LOAD"], .error failure⟩ := by
  have hm : isDirective (wordOf "LOAD" "m") = true := by decide +kernel
  have ha : isDirective (wordOf "LOAD" "a") = true := by decide +kernel
  have hx : isDirective (wordOf "x" "a") = false := by decide +kernel
  have hy : isDirective (wordOf "y" "b") = false := by decide +kernel
  have hc : isDirective (wordOf "c" "m") = false := by decide +kernel
  have composeA : setting.compose (disk.includePath "m" "a") =
      .ok [wordOf "x" "a", wordOf "LOAD" "a"] := by decide +kernel
  have composeB : setting.compose (disk.includePath "a" "b") = .ok [wordOf "y" "b"] := by
    decide +kernel
  have composeLoad : setting.compose (disk.includePath "m" "LOAD") =
      .error (Source.notFound "LOAD" (.disk ⟨.openFile, "LOAD", .notFound⟩)) := by decide +kernel
  rw [sequence, onePass_spliced hm (by decide +kernel) composeA, List.cons_append, onePass_atom hx,
    List.cons_append, List.nil_append, onePass_spliced ha (by decide +kernel) composeB,
    List.cons_append, onePass_atom hy, List.nil_append, onePass_atom hc,
    onePass_failed hm (by decide +kernel) composeLoad]
  decide +kernel

end AcrossFiles

/-- A directive that is put together from two files is resolved, and the last one, whose target is
the word `LOAD`, fails since there is no such file. -/
theorem resolve_eq_onePass_acrossFiles :
    AcrossFiles.setting.readsAhead = false ∧
    (Resolution.plain AcrossFiles.setting AcrossFiles.sequence
      [AcrossFiles.disk.identity "m"]).composedPaths =
      [Bytes.ofString "a", Bytes.ofString "b", Bytes.ofString "LOAD"] ∧
    (resolve AcrossFiles.setting false "m" AcrossFiles.sequence).result =
      .error AcrossFiles.failure := by
  have hserial : AcrossFiles.setting.readsAhead = false := Setting.readsAhead_serial _ _
  obtain ⟨⟨hcomposed, -, hresult⟩, hresolve⟩ := resolve_eq_onePass hserial "m" AcrossFiles.sequence
    [AcrossFiles.disk.identity "m"]
  rw [AcrossFiles.onePass_sequence] at hcomposed hresult
  exact ⟨hserial, hcomposed, (congrArg Traced.result hresolve).trans hresult⟩

end ForthFrontend.Include
