import ForthFrontend.Include.Resolve

/-!
# Steps of the resolution

A step looks at the first directive of the sequence. The sequence has no directive, or it ends with
its first directive, or an atom follows its first directive; `firstDirective_cases` takes a sequence
apart accordingly, and one lemma for each case says what the step comes to.

A resolution that reads nothing ahead is determined by its sequence and the identities included so
far. `Resolution.serial_induction` packages the induction over such a resolution.

## Main results

* `Include.firstDirective_cases`: how a sequence stands to its first directive.
* `Include.Resolution.run_result`: the result of a run after one step.
* `Include.Resolution.serial_induction`: induction over the steps of a serial resolution.
-/

namespace ForthFrontend.Include

instance decidableEqExcept {ε α : Type} [DecidableEq ε] [DecidableEq α] :
    DecidableEq (Except ε α)
  | .ok a, .ok b => decidable_of_iff (a = b) (by simp)
  | .error e, .error f => decidable_of_iff (e = f) (by simp)
  | .ok _, .error _ => isFalse (by simp)
  | .error _, .ok _ => isFalse (by simp)

/-- A word on the first line of a file. -/
def wordOf (text file : Bytes) : Atom :=
  ⟨text, .word, file, 1⟩

namespace Setting

/-- Files are composed when they are needed. -/
def serial (d : Disk) (strict : Bool) : Setting :=
  { disk := d, strict := strict, workers := 1 }

theorem readsAhead_serial (d : Disk) (strict : Bool) : (serial d strict).readsAhead = false :=
  show decide ((1 : Int64) < 1) = false by decide

end Setting

/-- No atom of the sequence is a directive. -/
def DirectiveFree (atoms : List Atom) : Prop :=
  ∀ a ∈ atoms, isDirective a = false

instance (atoms : List Atom) : Decidable (DirectiveFree atoms) :=
  inferInstanceAs (Decidable (∀ a ∈ atoms, isDirective a = false))

theorem directiveFree_nil : DirectiveFree [] := by
  intro a ha
  cases ha

theorem DirectiveFree.append {l m : List Atom} (hl : DirectiveFree l) (hm : DirectiveFree m) :
    DirectiveFree (l ++ m) := by
  intro a ha
  rcases List.mem_append.1 ha with ha | ha
  · exact hl a ha
  · exact hm a ha

theorem DirectiveFree.concat {l : List Atom} {a : Atom} (hl : DirectiveFree l)
    (ha : isDirective a = false) : DirectiveFree (l ++ [a]) :=
  hl.append fun _ hb => List.mem_singleton.1 hb ▸ ha

/-- A sequence has no directive, or ends with its first directive, or an atom follows its first
directive. -/
theorem firstDirective_cases (atoms : List Atom) :
    DirectiveFree atoms ∨
    (∃ front d, DirectiveFree front ∧ isDirective d = true ∧ atoms = front ++ [d]) ∨
    ∃ front d t rest, DirectiveFree front ∧ isDirective d = true ∧
      atoms = front ++ d :: t :: rest := by
  induction atoms with
  | nil => exact .inl directiveFree_nil
  | cons a atoms ih =>
    cases ha : isDirective a with
    | true =>
      cases atoms with
      | nil => exact .inr (.inl ⟨[], a, directiveFree_nil, ha, rfl⟩)
      | cons t rest => exact .inr (.inr ⟨[], a, t, rest, directiveFree_nil, ha, rfl⟩)
    | false =>
      have grow : ∀ {front}, DirectiveFree front → DirectiveFree (a :: front) := by
        intro front hf
        exact (directiveFree_nil.concat ha).append hf
      obtain h | ⟨front, d, hf, hd, rfl⟩ | ⟨front, d, t, rest, hf, hd, rfl⟩ := ih
      · exact .inl (grow h)
      · exact .inr (.inl ⟨a :: front, d, grow hf, hd, rfl⟩)
      · exact .inr (.inr ⟨a :: front, d, t, rest, grow hf, hd, rfl⟩)

theorem findDirective?_of_directiveFree {atoms : List Atom} (h : DirectiveFree atoms) :
    findDirective? atoms = none :=
  List.findIdx?_eq_none_iff.2 h

/-- The first directive stands behind the atoms that are none. -/
theorem findDirective?_append {front rest : List Atom} {d : Atom} (hf : DirectiveFree front)
    (hd : isDirective d = true) : findDirective? (front ++ d :: rest) = some front.length := by
  have hnone : front.findIdx? isDirective = none := findDirective?_of_directiveFree hf
  simp [findDirective?, List.findIdx?_append, hnone, List.findIdx?_cons, hd]

/-- Splicing at the first directive keeps what stands before it and what follows its target. -/
theorem splice_append (front rest included : List Atom) (d t : Atom) :
    splice (front ++ d :: t :: rest) front.length included = front ++ included ++ rest := by
  simp [splice, List.drop_append]

namespace Resolution

variable {s : Setting}

/-- Resolutions with the same sequence, identities and held outcomes are equal. -/
theorem ext' {r r' : Resolution s} (ha : r.atoms = r'.atoms) (hv : r.visited = r'.visited)
    (hh : r.held = r'.held) : r = r' := by
  cases r
  cases r'
  simp_all

theorem replaceFirst_free {r : Resolution s} (h : DirectiveFree r.atoms) :
    r.replaceFirst.1 = .finished (.ok r.atoms) := by
  simp [replaceFirst, findDirective?_of_directiveFree h]

theorem replaceFirst_last {r : Resolution s} {front : List Atom} {d : Atom}
    (hf : DirectiveFree front) (hd : isDirective d = true) (h : r.atoms = front ++ [d]) :
    r.replaceFirst.1 = .finished (.error (.atAtom .missingIncludeTarget d)) := by
  unfold replaceFirst
  rw [h, findDirective?_append hf hd]
  simp

section Pair

variable {r : Resolution s} {front rest : List Atom} {d t : Atom}

/-- The error that the target of a directive was included before. -/
def repeated (d t : Atom) : Failure :=
  .source { SourceError.atAtom .circularInclude d with target := t.text }

theorem replaceFirst_repeated (hf : DirectiveFree front) (hd : isDirective d = true)
    (h : r.atoms = front ++ d :: t :: rest)
    (hv : s.disk.identity (s.disk.includePath d.file t.text) ∈ r.visited) :
    r.replaceFirst.1 = .finished (.error (repeated d t)) := by
  unfold replaceFirst
  rw [h, findDirective?_append hf hd]
  simp [hv, repeated]

theorem replaceFirst_failed (hf : DirectiveFree front) (hd : isDirective d = true)
    (h : r.atoms = front ++ d :: t :: rest)
    (hv : s.disk.identity (s.disk.includePath d.file t.text) ∉ r.visited) {f : Failure}
    (hc : (r.fetch (s.disk.identity (s.disk.includePath d.file t.text))
      (s.disk.includePath d.file t.text)).1 = .error f) :
    r.replaceFirst.1 = .finished (.error (f.orAt d)) := by
  unfold replaceFirst
  rw [h, findDirective?_append hf hd]
  simp only [List.drop_left, List.contains_eq_mem, hv, decide_false, Bool.false_eq_true, ↓reduceIte]
  split
  · next hfetch => rw [hfetch] at hc; cases hc; rfl
  · next hfetch => rw [hfetch] at hc; cases hc

/-- The state after the first directive of `front ++ d :: t :: rest` was replaced by the atoms of
its file. -/
def spliceAt (r : Resolution s) (front included rest : List Atom) (id : Path) : Resolution s where
  atoms := front ++ included ++ rest
  visited := id :: r.visited
  held := r.held.erase id
  sound := fun h hh => r.sound h (List.mem_filter.1 hh).1

theorem replaceFirst_spliced (hf : DirectiveFree front) (hd : isDirective d = true)
    (h : r.atoms = front ++ d :: t :: rest)
    (hv : s.disk.identity (s.disk.includePath d.file t.text) ∉ r.visited) {included : List Atom}
    (hc : (r.fetch (s.disk.identity (s.disk.includePath d.file t.text))
      (s.disk.includePath d.file t.text)).1 = .ok included) :
    r.replaceFirst.1 = .spliced (r.spliceAt front included rest
      (s.disk.identity (s.disk.includePath d.file t.text))) := by
  unfold replaceFirst
  rw [h, findDirective?_append hf hd]
  simp only [List.drop_left, List.contains_eq_mem, hv, decide_false, Bool.false_eq_true, ↓reduceIte]
  split
  · next hfetch => rw [hfetch] at hc; cases hc
  · next hfetch =>
    rw [hfetch] at hc
    cases hc
    refine congrArg Step.spliced (ext' ?_ rfl rfl)
    exact splice_append front rest included d t

end Pair

/-- A run takes one step and goes on from where the step leads. -/
theorem run_result (r : Resolution s) :
    r.run.result = match r.step.1 with
      | .finished result => result
      | .spliced next => next.run.result := by
  rw [run]
  split
  · next h => rw [h]
  · next h => rw [h]

/-! ### Serial resolution -/

/-- The state in which nothing is held. -/
def plain (s : Setting) (atoms : List Atom) (visited : List Path) : Resolution s where
  atoms := atoms
  visited := visited
  held := []
  sound := fun _ hh => absurd hh List.not_mem_nil

theorem start_eq_plain (s : Setting) (entry : Path) (atoms : List Atom) :
    start s entry atoms = plain s atoms [s.disk.identity entry] := rfl

/-- A serial step only replaces the first directive. -/
theorem step_serial (hs : s.readsAhead = false) (r : Resolution s) :
    r.step.1 = r.replaceFirst.1 := by
  simp [step, readAhead, hs]

/-- Where nothing is held, a file is composed when it is needed. -/
theorem fetch_plain (atoms : List Atom) (visited : List Path) (id path : Path) :
    ((plain s atoms visited).fetch id path).1 = s.compose path := rfl

/-- A file that composes and was not included yet leaves fewer files to include. -/
theorem unvisited_lt_of_compose {path : Path} {included : List Atom} {visited : List Path}
    (hc : s.compose path = .ok included) (hv : s.disk.identity path ∉ visited) :
    s.disk.unvisited (s.disk.identity path :: visited) < s.disk.unvisited visited := by
  obtain ⟨l, content, hl, hp⟩ := Setting.mem_files_of_compose hc
  rw [← hp] at hv ⊢
  exact Disk.unvisited_cons_lt hl (by simpa using hv)

section Serial

variable {front rest included : List Atom} {d t : Atom} {visited : List Path}

theorem run_free (hs : s.readsAhead = false) {atoms : List Atom} (h : DirectiveFree atoms) :
    (plain s atoms visited).run.result = .ok atoms := by
  rw [run_result, step_serial hs, replaceFirst_free h]
  rfl

theorem run_last (hs : s.readsAhead = false) (hf : DirectiveFree front)
    (hd : isDirective d = true) :
    (plain s (front ++ [d]) visited).run.result =
      .error (.atAtom .missingIncludeTarget d) := by
  rw [run_result, step_serial hs, replaceFirst_last hf hd rfl]

theorem run_repeated (hs : s.readsAhead = false) (hf : DirectiveFree front)
    (hd : isDirective d = true)
    (hv : s.disk.identity (s.disk.includePath d.file t.text) ∈ visited) :
    (plain s (front ++ d :: t :: rest) visited).run.result = .error (repeated d t) := by
  rw [run_result, step_serial hs, replaceFirst_repeated hf hd rfl hv]

theorem run_failed (hs : s.readsAhead = false) (hf : DirectiveFree front)
    (hd : isDirective d = true)
    (hv : s.disk.identity (s.disk.includePath d.file t.text) ∉ visited) {f : Failure}
    (hc : s.compose (s.disk.includePath d.file t.text) = .error f) :
    (plain s (front ++ d :: t :: rest) visited).run.result = .error (f.orAt d) := by
  rw [run_result, step_serial hs,
    replaceFirst_failed hf hd rfl hv ((fetch_plain _ visited _ _).trans hc)]

/-- A serial run goes on from the sequence with the first directive replaced by the atoms of its
file. -/
theorem run_spliced (hs : s.readsAhead = false) (hf : DirectiveFree front)
    (hd : isDirective d = true)
    (hv : s.disk.identity (s.disk.includePath d.file t.text) ∉ visited)
    (hc : s.compose (s.disk.includePath d.file t.text) = .ok included) :
    (plain s (front ++ d :: t :: rest) visited).run.result =
      (plain s (front ++ included ++ rest)
        (s.disk.identity (s.disk.includePath d.file t.text) :: visited)).run.result := by
  rw [run_result, step_serial hs,
    replaceFirst_spliced hf hd rfl hv ((fetch_plain _ visited _ _).trans hc)]
  rfl

end Serial

/-- Induction over the steps of a serial resolution: what holds of the three ways to end with an
error and of a sequence without directives, and is passed back over a splice, holds of every
result. -/
theorem serial_induction (hs : s.readsAhead = false)
    {motive : List Atom → List Path → Except Failure (List Atom) → Prop}
    (free : ∀ atoms visited, DirectiveFree atoms → motive atoms visited (.ok atoms))
    (last : ∀ front d visited, DirectiveFree front → isDirective d = true →
      motive (front ++ [d]) visited (.error (.atAtom .missingIncludeTarget d)))
    (again : ∀ front d t rest visited, DirectiveFree front → isDirective d = true →
      s.disk.identity (s.disk.includePath d.file t.text) ∈ visited →
      motive (front ++ d :: t :: rest) visited (.error (repeated d t)))
    (failed : ∀ front d t rest visited f, DirectiveFree front → isDirective d = true →
      s.disk.identity (s.disk.includePath d.file t.text) ∉ visited →
      s.compose (s.disk.includePath d.file t.text) = .error f →
      motive (front ++ d :: t :: rest) visited (.error (f.orAt d)))
    (spliced : ∀ front d t rest visited included result, DirectiveFree front →
      isDirective d = true → s.disk.identity (s.disk.includePath d.file t.text) ∉ visited →
      s.compose (s.disk.includePath d.file t.text) = .ok included →
      motive (front ++ included ++ rest)
        (s.disk.identity (s.disk.includePath d.file t.text) :: visited) result →
      motive (front ++ d :: t :: rest) visited result)
    (atoms : List Atom) (visited : List Path) :
    motive atoms visited (plain s atoms visited).run.result := by
  -- every splice includes a regular file of the disk that was not included before
  induction hn : s.disk.unvisited visited using Nat.strongRecOn
    generalizing atoms visited with
  | ind n ih =>
    obtain hf | ⟨front, d, hf, hd, rfl⟩ | ⟨front, d, t, rest, hf, hd, rfl⟩ :=
      firstDirective_cases atoms
    · rw [run_free hs hf]
      exact free atoms visited hf
    · rw [run_last hs hf hd]
      exact last front d visited hf hd
    · by_cases hv : s.disk.identity (s.disk.includePath d.file t.text) ∈ visited
      · rw [run_repeated hs hf hd hv]
        exact again front d t rest visited hf hd hv
      · cases hc : s.compose (s.disk.includePath d.file t.text) with
        | error f =>
          rw [run_failed hs hf hd hv hc]
          exact failed front d t rest visited f hf hd hv hc
        | ok included =>
          rw [run_spliced hs hf hd hv hc]
          have hlt := unvisited_lt_of_compose hc hv
          exact spliced front d t rest visited included _ hf hd hv hc
            (ih _ (hn ▸ hlt) _ _ rfl)

end Resolution

/-! ### Programs -/

theorem parse_of_error {s : Setting} {entry : Path} {f : Failure}
    (h : s.compose entry = .error f) : (parse s false entry).result = .error f := by
  have h' : Source.compose s.disk s.strict false entry = .error f := h
  simp only [parse, h']

theorem parse_of_ok {s : Setting} {entry : Path} {atoms : List Atom}
    (h : s.compose entry = .ok atoms) :
    (parse s false entry).result = (Resolution.start s entry atoms).run.result := by
  have h' : Source.compose s.disk s.strict false entry = .ok atoms := h
  simp only [parse, h', resolve, Bool.false_eq_true, ↓reduceIte]

end ForthFrontend.Include
