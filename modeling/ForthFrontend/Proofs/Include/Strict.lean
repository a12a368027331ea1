import ForthFrontend.Proofs.Include.Step
import ForthFrontend.Proofs.Scan
import ForthFrontend.Proofs.Source

/-!
# Strict programs

A strict run refuses literals that are left open. It goes the same way as a run that accepts them
until it composes a file with such a literal; the files composed on the way are those that the
journal names, in order. So a strict run gives what the other gives, or the error of the first open
literal of the first composed file that has one.

## Main results

* `Include.Resolution.strictly_run`: the two runs in step.
* `Include.exists_compose_of_parse`: where the error of an open literal comes from.
* `Include.parse_strict_refuses_open_literals`: what strictness changes.
-/

namespace ForthFrontend.Include

/-- The files that were composed, in order. -/
def composed (j : Journal) : List Path :=
  j.filterMap fun
    | .sourceComposed path => some path
    | _ => none

/-- The outcome of a strict run whose composed files hold the given atoms. -/
def checked (atoms out : List Atom) : Except Failure (List Atom) :=
  match atoms.find? Atom.opensString with
  | none => .ok out
  | some a => .error (.source (.unclosed a))

theorem checked_append (atoms rest out : List Atom) :
    checked (atoms ++ rest) out = match atoms.find? Atom.opensString with
      | none => checked rest out
      | some a => .error (.source (.unclosed a)) := by
  rw [checked, List.find?_append]
  cases atoms.find? Atom.opensString <;> rfl

/-- The error of an open literal names its file already. -/
theorem orAt_unclosed {disk : Disk} {path : Path} {atoms : List Atom} {a : Atom} (d : Atom)
    (hc : (Setting.serial disk false).compose path = .ok atoms) (ha : a ∈ atoms) :
    (Failure.source (.unclosed a)).orAt d = .source (.unclosed a) := by
  obtain ⟨content, hread, -⟩ := Source.exists_read_of_compose hc
  have hfile : a.file ≠ [] := by
    rw [Setting.file_of_mem_compose hc a ha]
    exact Source.ne_nil_of_read hread
  simp [Failure.orAt, SourceError.orAt, SourceError.unclosed, hfile]

/-! ### Journals of serial runs -/

namespace Resolution

variable {s : Setting} {front rest included : List Atom} {d t : Atom} {visited : List Path}

theorem run_journal (r : Resolution s) :
    r.run.journal = r.step.2 ++ match r.step.1 with
      | .finished _ => []
      | .spliced next => next.run.journal := by
  rw [run]
  split
  · next h => simp [h]
  · next h => simp [h]

theorem journal_step_serial (hs : s.readsAhead = false) (r : Resolution s) :
    r.step.2 = r.replaceFirst.2 := by
  simp [step, readAhead, readAheadEvents, hs]

theorem run_journal_free (hs : s.readsAhead = false) {atoms : List Atom}
    (h : DirectiveFree atoms) : (plain s atoms visited).run.journal = [] := by
  have hevents : (plain s atoms visited).replaceFirst.2 = [] := by
    simp [replaceFirst, plain, findDirective?_of_directiveFree h]
  rw [run_journal, journal_step_serial hs, step_serial hs, replaceFirst_free h, hevents]
  rfl

theorem composed_run_spliced (hs : s.readsAhead = false) (hf : DirectiveFree front)
    (hd : isDirective d = true)
    (hv : s.disk.identity (s.disk.includePath d.file t.text) ∉ visited)
    (hc : s.compose (s.disk.includePath d.file t.text) = .ok included) :
    composed (plain s (front ++ d :: t :: rest) visited).run.journal =
      s.disk.includePath d.file t.text :: composed (plain s (front ++ included ++ rest)
        (s.disk.identity (s.disk.includePath d.file t.text) :: visited)).run.journal := by
  have hevents : (plain s (front ++ d :: t :: rest) visited).replaceFirst.2 =
      [.sourceComposed (s.disk.includePath d.file t.text),
        .includeSpliced (s.disk.includePath d.file t.text)] := by
    simp [replaceFirst, plain, findDirective?_append hf hd, hv, fetch, ReadAhead.get?, hc,
      composeEvents]
  rw [run_journal, journal_step_serial hs, step_serial hs,
    replaceFirst_spliced hf hd rfl hv ((fetch_plain _ visited _ _).trans hc), hevents]
  rfl

/-! ### The two runs in step -/

/-- What a strict run comes to where a run that accepts open literals comes to `result` after
composing the files that `journal` names. -/
def Strictly (disk : Disk) (journal : Journal) (result strict : Except Failure (List Atom)) :
    Prop :=
  match result with
  | .error _ => ∃ g, strict = .error g
  | .ok out => ∃ files, (composed journal).mapM (Setting.serial disk false).compose = .ok files ∧
      strict = checked files.flatten out

/-- One more file in front of those composed: the strict run ends at its first open literal, or goes
on. -/
theorem Strictly.cons {disk : Disk} {path : Path} {included : List Atom} {j journal : Journal}
    {result strict : Except Failure (List Atom)}
    (hc : (Setting.serial disk false).compose path = .ok included)
    (hj : composed journal = path :: composed j) (h : Strictly disk j result strict) :
    Strictly disk journal result (match included.find? Atom.opensString with
      | none => strict
      | some a => .error (.source (.unclosed a))) := by
  cases result with
  | error f =>
    obtain ⟨g, rfl⟩ := h
    cases included.find? Atom.opensString with
    | none => exact ⟨g, rfl⟩
    | some a => exact ⟨_, rfl⟩
  | ok out =>
    obtain ⟨files, hfiles, rfl⟩ := h
    refine ⟨included :: files, ?_, ?_⟩
    · rw [hj, List.mapM_cons, hc, hfiles]
      rfl
    · rw [List.flatten_cons, checked_append]

theorem strictly_run (disk : Disk) (atoms : List Atom) (visited : List Path) :
    Strictly disk (plain (.serial disk false) atoms visited).run.journal
      (plain (.serial disk false) atoms visited).run.result
      (plain (.serial disk true) atoms visited).run.result := by
  have hloose := Setting.readsAhead_serial disk false
  have hstrict := Setting.readsAhead_serial disk true
  refine serial_induction hloose (motive := fun atoms visited result =>
    Strictly disk (plain (.serial disk false) atoms visited).run.journal result
      (plain (.serial disk true) atoms visited).run.result) ?_ ?_ ?_ ?_ ?_ atoms visited
  · intro atoms visited hf
    exact ⟨[], by rw [run_journal_free hloose hf]; rfl, run_free hstrict hf⟩
  · intro front d visited hf hd
    exact ⟨_, run_last hstrict hf hd⟩
  · intro front d t rest visited hf hd hv
    exact ⟨_, run_repeated hstrict hf hd hv⟩
  · intro front d t rest visited f hf hd hv hc
    obtain ⟨g, hg⟩ := Source.compose_strict_of_error hc
    exact ⟨_, run_failed hstrict hf hd hv hg⟩
  · intro front d t rest visited included result hf hd hv hc ih
    have hcompose := Source.compose_strict_of_ok hc
    have hcons := ih.cons hc (composed_run_spliced hloose hf hd hv hc)
    -- a strict splice fails at the first open literal of its file
    cases hopen : included.find? Atom.opensString with
    | none =>
      rw [hopen] at hcompose hcons
      rw [run_spliced hstrict hf hd hv hcompose]
      exact hcons
    | some a =>
      rw [hopen] at hcompose hcons
      rw [run_failed hstrict hf hd hv hcompose,
        orAt_unclosed d hc (List.mem_of_find?_eq_some hopen)]
      exact hcons

end Resolution

theorem strictly_parse (disk : Disk) (entry : Path) :
    Resolution.Strictly disk (parse (.serial disk false) false entry).journal
      (parse (.serial disk false) false entry).result
      (parse (.serial disk true) false entry).result := by
  cases hc : (Setting.serial disk false).compose entry with
  | error f =>
    obtain ⟨g, hg⟩ := Source.compose_strict_of_error hc
    rw [parse_of_error hc, parse_of_error (s := .serial disk true) hg]
    exact ⟨g, rfl⟩
  | ok atoms =>
    have hcompose := Source.compose_strict_of_ok hc
    have hjournal : composed (parse (.serial disk false) false entry).journal = entry :: composed
        (Resolution.start (.serial disk false) entry atoms).run.journal := by
      have hc' : Source.compose disk false false entry = .ok atoms := hc
      simp only [parse, Setting.serial, hc']
      rfl
    have hcons := (Resolution.strictly_run disk atoms [disk.identity entry]).cons hc hjournal
    rw [parse_of_ok hc]
    cases hopen : atoms.find? Atom.opensString with
    | none =>
      rw [hopen] at hcompose hcons
      rw [parse_of_ok (s := .serial disk true) hcompose]
      exact hcons
    | some a =>
      rw [hopen] at hcompose hcons
      rw [parse_of_error (s := .serial disk true) hcompose]
      exact hcons

/-! ### Open literals in the sources -/

/-- The error of an open literal comes from composing a file. -/
theorem exists_compose_of_run {s : Setting} (hs : s.readsAhead = false) {atoms : List Atom}
    {visited : List Path} {e : SourceError}
    (h : (Resolution.plain s atoms visited).run.result = .error (.source e))
    (hfault : e.fault = .unterminatedString) : ∃ path, s.compose path = .error (.source e) := by
  revert h
  refine Resolution.serial_induction hs (motive := fun _ _ result =>
    result = .error (.source e) → ∃ path, s.compose path = .error (.source e))
    ?_ ?_ ?_ ?_ ?_ atoms visited
  · rintro _ _ - ⟨⟩
  · rintro front d visited - - ⟨⟩
    cases hfault
  · rintro front d t rest visited - - - ⟨⟩
    cases hfault
  · intro front d t rest visited f _ _ _ hc h
    refine ⟨_, hc.trans ?_⟩
    -- the error keeps the place it has, which is in the file that was composed
    cases f with
    | source e' =>
      have horAt : e'.orAt d = e := Failure.source.inj (Except.error.inj h)
      have hfault' : e'.fault = .unterminatedString := by
        rw [← hfault, ← horAt, SourceError.orAt]
        split <;> rfl
      obtain ⟨hfile, content, -, -, -, -, hread, -⟩ := Source.exists_line_of_compose hc hfault'
      have hplace : e'.file.isEmpty = false := by
        simpa [hfile] using Source.ne_nil_of_read hread
      rw [← horAt, SourceError.orAt, hplace]
      rfl
    | _ => exact h
  · intro front d t rest visited included result _ _ _ _ ih
    exact ih

theorem exists_compose_of_parse {s : Setting} (hs : s.readsAhead = false) {entry : Path}
    {e : SourceError} (h : (parse s false entry).result = .error (.source e))
    (hfault : e.fault = .unterminatedString) : ∃ path, s.compose path = .error (.source e) := by
  cases hc : s.compose entry with
  | error f =>
    rw [parse_of_error hc] at h
    exact ⟨entry, hc.trans h⟩
  | ok atoms =>
    rw [parse_of_ok hc] at h
    exact exists_compose_of_run hs h hfault

/-- **Strictness only refuses open literals.** A strict run gives what the run that accepts them
gives, or it fails; it fails where that one fails, and else exactly if a composed file has an atom
that opens a literal, with the first such atom. Every literal so refused stands on a line without
a further quotation mark. -/
theorem parse_strict_refuses_open_literals (disk : Disk) (entry : Path) :
    let loose := parse (.serial disk false) false entry
    let strict := parse (.serial disk true) false entry
    (∀ out, strict.result = .ok out → loose.result = .ok out) ∧
    (∀ f, loose.result = .error f → ∃ g, strict.result = .error g) ∧
    (∀ out, loose.result = .ok out → ∃ files,
      (composed loose.journal).mapM (Setting.serial disk false).compose = .ok files ∧
      strict.result = match files.flatten.find? Atom.opensString with
        | none => .ok out
        | some a => .error (.source { fault := .unterminatedString, file := a.file, line := a.line,
                                      target := a.text })) ∧
    ∀ e, strict.result = .error (.source e) → e.fault = .unterminatedString →
      ∃ content i text before after, disk.read e.file = .ok content ∧
        (Source.lines content)[i]? = some text ∧ e.line = Int64.ofNat (i + 1) ∧
        text = before ++ e.target ++ after ∧ Token.Unclosed e.target after := by
  intro loose strict
  have hstep : Resolution.Strictly disk loose.journal loose.result strict.result :=
    strictly_parse disk entry
  refine ⟨fun out hout => ?_, fun f hf => ?_, fun out hout => ?_, fun e he hfault => ?_⟩
  · cases hloose : loose.result with
    | error f =>
      rw [hloose] at hstep
      obtain ⟨g, hg⟩ := hstep
      rw [hout] at hg
      cases hg
    | ok out' =>
      rw [hloose] at hstep
      obtain ⟨files, -, hchecked⟩ := hstep
      rw [hout, checked] at hchecked
      split at hchecked
      · exact hchecked.symm
      · cases hchecked
  · rw [hf] at hstep
    exact hstep
  · rw [hout] at hstep
    exact hstep
  · obtain ⟨path, hc⟩ := exists_compose_of_parse (Setting.readsAhead_serial disk true) he hfault
    obtain ⟨rfl, hline⟩ := Source.exists_line_of_compose hc hfault
    exact hline

end ForthFrontend.Include
