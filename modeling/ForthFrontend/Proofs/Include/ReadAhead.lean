import ForthFrontend.Proofs.Include.Step
import Mathlib.Logic.Relation

/-!
# Reading ahead gives what serial resolution gives

With several workers every step composes ahead the files that follow directive words, also those
that no step ever asks for, and in any order. A file is held under its identity but composed under
the spelling that named it first, and atoms and errors show that spelling. So the two ways of
working can differ only where one file is named by two spellings.

The proof follows the parallel run along the serial one: the sequences and the identities included
are the same at every step, and whatever is held was composed from a path that some sequence of the
serial run names.

## Main results

* `Include.Resolution.fetch_eq_compose`: an outcome held under one spelling is the composition of
  that spelling.
* `Include.parse_parallel_eq_serial`: the number of workers and their schedule do not change the
  result of a program in which every file has one spelling.
-/

namespace ForthFrontend.Include

namespace Setting

/-- Files are composed ahead by some workers, whose jobs finish as `schedule` says. -/
def parallel (d : Disk) (strict : Bool) (workers : Int64) (schedule : Schedule) : Setting :=
  { disk := d, strict := strict, workers := workers, schedule := schedule }

theorem compose_parallel (d : Disk) (strict : Bool) (workers : Int64) (schedule : Schedule)
    (path : Path) :
    (parallel d strict workers schedule).compose path = (serial d strict).compose path := rfl

end Setting

/-- Somewhere in the sequence an atom follows a directive and names the path `p`. -/
def NamesIn (d : Disk) (atoms : List Atom) (p : Path) : Prop :=
  ∃ i directive target, atoms[i]? = some directive ∧ atoms[i + 1]? = some target ∧
    isDirective directive = true ∧ p = d.includePath directive.file target.text

/-- The paths that atoms after directives name, in the order of the sequence. -/
def namedPaths (d : Disk) (atoms : List Atom) : List Path :=
  ((atoms.zip atoms.tail).filter (isDirective ·.1)).map fun pair =>
    d.includePath pair.1.file pair.2.text

theorem namesIn_iff_mem_namedPaths {d : Disk} {atoms : List Atom} {p : Path} :
    NamesIn d atoms p ↔ p ∈ namedPaths d atoms := by
  have hpair : ∀ pair : Atom × Atom, pair ∈ atoms.zip atoms.tail ↔
      ∃ i, atoms[i]? = some pair.1 ∧ atoms[i + 1]? = some pair.2 := by
    intro pair
    simp only [List.mem_iff_getElem?, List.getElem?_zip_eq_some, List.getElem?_tail]
  simp only [NamesIn, namedPaths, List.mem_map, List.mem_filter, hpair]
  constructor
  · rintro ⟨i, directive, target, hi, hj, hd, rfl⟩
    exact ⟨(directive, target), ⟨⟨i, hi, hj⟩, hd⟩, rfl⟩
  · rintro ⟨⟨directive, target⟩, ⟨⟨i, hi, hj⟩, hd⟩, rfl⟩
    exact ⟨i, directive, target, hi, hj, hd, rfl⟩

theorem namesIn_of_pair {d : Disk} {atoms : List Atom} {pair : Atom × Atom}
    (hp : pair ∈ atoms.zip atoms.tail) (hd : isDirective pair.1 = true) :
    NamesIn d atoms (d.includePath pair.1.file pair.2.text) :=
  namesIn_iff_mem_namedPaths.2 (List.mem_map.2 ⟨pair, List.mem_filter.2 ⟨hp, hd⟩, rfl⟩)

theorem namesIn_append (d : Disk) (front rest : List Atom) {directive : Atom} (target : Atom)
    (hd : isDirective directive = true) :
    NamesIn d (front ++ directive :: target :: rest)
      (d.includePath directive.file target.text) := by
  refine ⟨front.length, directive, target, ?_, ?_, hd, rfl⟩
  · simp
  · simp

/-- Every pending job composes a path that the sequence names. -/
theorem namesIn_of_mem_pending {d : Disk} {visited : List Path} {atoms : List Atom} {j : Job}
    (h : j ∈ pending d visited atoms) : NamesIn d atoms j.path := by
  have key : ∀ (pairs : List (Atom × Atom)) (jobs : List Job),
      (∀ pair ∈ pairs, pair ∈ atoms.zip atoms.tail) →
      (∀ j ∈ jobs, NamesIn d atoms j.path) →
      ∀ j ∈ pairs.foldl (addJob d visited) jobs, NamesIn d atoms j.path := by
    intro pairs
    induction pairs with
    | nil => intro jobs _ hjobs; exact hjobs
    | cons pair pairs ih =>
      intro jobs hpairs hjobs
      refine ih _ (fun q hq => hpairs q (List.mem_cons_of_mem _ hq)) fun j hj => ?_
      unfold addJob at hj
      split at hj
      · next hdir =>
        simp only at hj
        split at hj
        · exact hjobs j hj
        · rcases List.mem_append.1 hj with hj | hj
          · exact hjobs j hj
          · rw [List.mem_singleton.1 hj]
            exact namesIn_of_pair (hpairs pair List.mem_cons_self) hdir
      · exact hjobs j hj
  exact key _ [] (fun _ h => h) (by simp) j h

namespace ReadAhead

/-- What is held after some jobs was held before, or is the outcome of one of the jobs. -/
theorem mem_run {compose : Path → Outcome} {r : ReadAhead} {jobs : List Job} {h : Held}
    (hh : h ∈ r.run compose jobs) : h ∈ r ∨ h.job ∈ jobs := by
  induction jobs generalizing r with
  | nil => exact .inl hh
  | cons j jobs ih =>
    rcases ih (r := r.store ⟨j, compose j.path⟩) hh with hh | hh
    · rcases List.mem_cons.1 hh with rfl | hh
      · exact .inr List.mem_cons_self
      · exact .inl (List.mem_filter.1 hh).1
    · exact .inr (List.mem_cons_of_mem _ hh)

end ReadAhead

namespace Resolution

variable {s : Setting}

/-- One state follows another by including a file. -/
def Next (r next : Resolution s) : Prop :=
  r.step.1 = .spliced next

theorem atoms_readAhead (r : Resolution s) : r.readAhead.atoms = r.atoms := by
  unfold readAhead
  split <;> rfl

/-- What is held after reading ahead was held before, or is named by the sequence. -/
theorem mem_held_readAhead {r : Resolution s} {h : Held} (hh : h ∈ r.readAhead.held) :
    h ∈ r.held ∨ NamesIn s.disk r.atoms h.job.path := by
  unfold readAhead at hh
  split at hh
  · rcases ReadAhead.mem_run hh with hh | hh
    · exact .inl hh
    · have hp := (s.schedule.perm _ _).mem_iff.1 hh
      exact .inr (namesIn_of_mem_pending (List.mem_filter.1 hp).1)
  · exact .inl hh

/-- A serial run never goes on from a sequence without directives. -/
theorem eq_of_reaches_free (hs : s.readsAhead = false) {atoms : List Atom} {visited : List Path}
    (hf : DirectiveFree atoms) {r : Resolution s}
    (h : Relation.ReflTransGen Next (plain s atoms visited) r) : r = plain s atoms visited := by
  rcases Relation.ReflTransGen.cases_head h with h | ⟨next, hnext, -⟩
  · exact h.symm
  · rw [Next, step_serial hs, replaceFirst_free hf] at hnext
    cases hnext

/-- Behind a directive whose file composes, a serial run stops or goes on from the splice. -/
theorem reaches_spliced (hs : s.readsAhead = false) {atoms front included rest : List Atom}
    {d t : Atom} {visited : List Path} (ha : atoms = front ++ d :: t :: rest)
    (hf : DirectiveFree front) (hd : isDirective d = true)
    (hv : s.disk.identity (s.disk.includePath d.file t.text) ∉ visited)
    (hc : s.compose (s.disk.includePath d.file t.text) = .ok included) {r : Resolution s}
    (h : Relation.ReflTransGen Next (plain s atoms visited) r) :
    r = plain s atoms visited ∨
    Relation.ReflTransGen Next (plain s (front ++ included ++ rest)
      (s.disk.identity (s.disk.includePath d.file t.text) :: visited)) r := by
  rcases Relation.ReflTransGen.cases_head h with h | ⟨next, hnext, h⟩
  · exact .inl h.symm
  · have hstep := replaceFirst_spliced (r := plain s atoms visited) hf hd ha hv
      ((fetch_plain atoms visited _ _).trans hc)
    rw [Next, step_serial hs, hstep] at hnext
    cases hnext
    exact .inr h

/-- If nothing is held for a file under another spelling, fetching it gives its composition. -/
theorem fetch_eq_compose {r : Resolution s} {id path : Path}
    (h : ∀ held ∈ r.held, held.job.identity = id → held.job.path = path) :
    (r.fetch id path).1 = s.compose path := by
  unfold fetch
  cases hget : r.held.get? id with
  | none => rfl
  | some outcome =>
    obtain ⟨held, hfind, rfl⟩ := Option.map_eq_some_iff.1 hget
    have hmem := List.mem_of_find?_eq_some hfind
    have hkey : held.job.identity = id := by simpa using List.find?_some hfind
    rw [← h held hmem hkey]
    exact (r.sound held hmem).2

end Resolution

/-- The sequences that a run of the program goes through, from the atoms of its entry file on. -/
def Passes (s : Setting) (entry : Path) (atoms : List Atom) : Prop :=
  ∃ first r, s.compose entry = .ok first ∧
    Relation.ReflTransGen Resolution.Next (Resolution.start s entry first) r ∧ r.atoms = atoms

/-- No two positions of the sequences of a run name one file by two spellings. -/
def SpelledOnce (s : Setting) (entry : Path) : Prop :=
  ∀ l m p q, Passes s entry l → Passes s entry m → NamesIn s.disk l p → NamesIn s.disk m q →
    s.disk.identity p = s.disk.identity q → p = q

section Simulation

variable {d : Disk} {strict : Bool} {workers : Int64} {schedule : Schedule} {entry : Path}

/-- A parallel state that goes along with a serial sequence: whatever it holds is named by a
sequence of the serial run. -/
structure Follows (entry : Path) (atoms : List Atom) (visited : List Path)
    (r : Resolution (Setting.parallel d strict workers schedule)) : Prop where
  atoms_eq : r.atoms = atoms
  visited_eq : r.visited = visited
  named : ∀ h ∈ r.held, ∃ l, Passes (Setting.serial d strict) entry l ∧ NamesIn d l h.job.path

/-- Reading ahead keeps a parallel state along with the serial sequence. -/
theorem Follows.readAhead {atoms : List Atom} {visited : List Path}
    {r : Resolution (Setting.parallel d strict workers schedule)}
    (h : Follows entry atoms visited r) (hp : Passes (Setting.serial d strict) entry atoms) :
    Follows entry atoms visited r.readAhead where
  atoms_eq := r.atoms_readAhead.trans h.atoms_eq
  visited_eq := r.visited_readAhead.trans h.visited_eq
  named := by
    intro held hheld
    rcases Resolution.mem_held_readAhead hheld with hheld | hnames
    · exact h.named held hheld
    · exact ⟨atoms, hp, h.atoms_eq ▸ hnames⟩

/-- A parallel state fetches what the serial run composes. -/
theorem Follows.fetch {front rest : List Atom} {directive target : Atom} {visited : List Path}
    {r : Resolution (Setting.parallel d strict workers schedule)}
    (hone : SpelledOnce (Setting.serial d strict) entry)
    (h : Follows entry (front ++ directive :: target :: rest) visited r)
    (hp : Passes (Setting.serial d strict) entry (front ++ directive :: target :: rest))
    (hd : isDirective directive = true) :
    (r.fetch (d.identity (d.includePath directive.file target.text))
      (d.includePath directive.file target.text)).1 =
      (Setting.serial d strict).compose (d.includePath directive.file target.text) := by
  refine Resolution.fetch_eq_compose fun held hheld hid => ?_
  obtain ⟨l, hl, hnames⟩ := h.named held hheld
  have hident := (r.sound held hheld).1
  exact hone _ _ _ _ hl hp hnames (namesIn_append d front rest target hd)
    (hident.symm.trans hid)

/-- A parallel run that goes along with a serial run comes to the same result. -/
theorem Follows.run_eq {first atoms : List Atom} {visited : List Path}
    (hone : SpelledOnce (Setting.serial d strict) entry)
    (hfirst : (Setting.serial d strict).compose entry = .ok first)
    (hreach : Relation.ReflTransGen Resolution.Next
      (Resolution.start (Setting.serial d strict) entry first)
      (Resolution.plain (Setting.serial d strict) atoms visited))
    {r : Resolution (Setting.parallel d strict workers schedule)}
    (h : Follows entry atoms visited r) :
    r.run.result = (Resolution.plain (Setting.serial d strict) atoms visited).run.result := by
  have hserial := Setting.readsAhead_serial d strict
  -- the induction follows the serial run; the parallel state is whatever goes along with it
  refine Resolution.serial_induction hserial
    (motive := fun atoms visited result =>
      Relation.ReflTransGen Resolution.Next
        (Resolution.start (Setting.serial d strict) entry first)
        (Resolution.plain (Setting.serial d strict) atoms visited) →
      ∀ r : Resolution (Setting.parallel d strict workers schedule),
        Follows entry atoms visited r → r.run.result = result)
    ?free ?last ?again ?failed ?spliced atoms visited hreach r h
  case free =>
    intro atoms visited hf hreach r h
    have h' := h.readAhead ⟨first, _, hfirst, hreach, rfl⟩
    have hstep : r.step.1 = .finished (.ok r.readAhead.atoms) :=
      Resolution.replaceFirst_free (h'.atoms_eq ▸ hf)
    rw [Resolution.run_result, hstep, h'.atoms_eq]
  case last =>
    intro front directive visited hf hd hreach r h
    have h' := h.readAhead ⟨first, _, hfirst, hreach, rfl⟩
    have hstep : r.step.1 = .finished (.error (.atAtom .missingIncludeTarget directive)) :=
      Resolution.replaceFirst_last hf hd h'.atoms_eq
    rw [Resolution.run_result, hstep]
  case again =>
    intro front directive target rest visited hf hd hv hreach r h
    have h' := h.readAhead ⟨first, _, hfirst, hreach, rfl⟩
    have hstep : r.step.1 = .finished (.error (Resolution.repeated directive target)) :=
      Resolution.replaceFirst_repeated hf hd h'.atoms_eq (h'.visited_eq ▸ hv)
    rw [Resolution.run_result, hstep]
  case failed =>
    intro front directive target rest visited f hf hd hv hc hreach r h
    have hp : Passes (Setting.serial d strict) entry _ := ⟨first, _, hfirst, hreach, rfl⟩
    have h' := h.readAhead hp
    have hstep : r.step.1 = .finished (.error (f.orAt directive)) :=
      Resolution.replaceFirst_failed hf hd h'.atoms_eq (h'.visited_eq ▸ hv)
        ((h'.fetch hone hp hd).trans hc)
    rw [Resolution.run_result, hstep]
  case spliced =>
    intro front directive target rest visited included result hf hd hv hc ih hreach r h
    have hp : Passes (Setting.serial d strict) entry _ := ⟨first, _, hfirst, hreach, rfl⟩
    have h' := h.readAhead hp
    have hstep : r.step.1 = .spliced (r.readAhead.spliceAt front included rest
        (d.identity (d.includePath directive.file target.text))) :=
      Resolution.replaceFirst_spliced hf hd h'.atoms_eq (h'.visited_eq ▸ hv)
        ((h'.fetch hone hp hd).trans hc)
    have hnext : Resolution.Next
        (Resolution.plain (Setting.serial d strict) (front ++ directive :: target :: rest) visited)
        (Resolution.plain (Setting.serial d strict) (front ++ included ++ rest)
          (d.identity (d.includePath directive.file target.text) :: visited)) :=
      (Resolution.step_serial hserial _).trans (Resolution.replaceFirst_spliced hf hd rfl hv hc)
    rw [Resolution.run_result, hstep]
    refine ih (hreach.tail hnext) _ ⟨rfl, ?_, ?_⟩
    · exact congrArg _ h'.visited_eq
    · exact fun held hheld => h'.named held (List.mem_filter.1 hheld).1

end Simulation

/-- **Reading ahead changes nothing.** With any number of workers and whatever order their jobs
finish in, a program gives the atoms or the error it gives with one worker, as long as the sequences
of the serial run do not name one file by two spellings. -/
theorem parse_parallel_eq_serial (d : Disk) (strict : Bool) (entry : Path) (workers : Int64)
    (schedule : Schedule) (hone : SpelledOnce (Setting.serial d strict) entry) :
    (parse (Setting.parallel d strict workers schedule) false entry).result =
      (parse (Setting.serial d strict) false entry).result := by
  have hcompose := Setting.compose_parallel d strict workers schedule entry
  cases hfirst : (Setting.serial d strict).compose entry with
  | error f => rw [parse_of_error hfirst, parse_of_error (hcompose.trans hfirst)]
  | ok first =>
    rw [parse_of_ok hfirst, parse_of_ok (hcompose.trans hfirst)]
    have h : Follows entry first [d.identity entry]
        (Resolution.start (Setting.parallel d strict workers schedule) entry first) :=
      ⟨rfl, rfl, by simp [Resolution.start]⟩
    exact h.run_eq hone hfirst .refl

/-! ### A program with two directives -/

namespace TwoDirectives

def disk : Disk where
  workDir := []
  entries := [(["m"], .file "LOAD a LOAD b"), (["a"], .file "x"), (["b"], .file "y")]

/-- The jobs of a request finish in the opposite order. -/
def reversed : Schedule where
  order := fun _ jobs => jobs.reverse
  perm := fun _ jobs => jobs.reverse_perm

def first : List Atom := [wordOf "LOAD" "m", wordOf "a" "m", wordOf "LOAD" "m", wordOf "b" "m"]

def second : List Atom := [wordOf "x" "a", wordOf "LOAD" "m", wordOf "b" "m"]

def third : List Atom := [wordOf "x" "a", wordOf "y" "b"]

/-- The sequences of the serial run. -/
theorem passes {l : List Atom} (h : Passes (Setting.serial disk false) "m" l) :
    l = first ∨ l = second ∨ l = third := by
  have hserial := Setting.readsAhead_serial disk false
  have hx : isDirective (wordOf "x" "a") = false := by decide +kernel
  have hy : isDirective (wordOf "y" "b") = false := by decide +kernel
  have hload : isDirective (wordOf "LOAD" "m") = true := by decide +kernel
  obtain ⟨atoms, r, hc, hreach, rfl⟩ := h
  have hfirst : (Setting.serial disk false).compose "m" = .ok first := by decide +kernel
  obtain rfl : first = atoms := Except.ok.inj (hfirst.symm.trans hc)
  have ha : (Setting.serial disk false).compose (disk.includePath "m" "a") =
      .ok [wordOf "x" "a"] := by decide +kernel
  have hb : (Setting.serial disk false).compose (disk.includePath "m" "b") =
      .ok [wordOf "y" "b"] := by decide +kernel
  have va : disk.identity (disk.includePath "m" "a") ∉ [disk.identity "m"] := by decide +kernel
  have vb : disk.identity (disk.includePath "m" "b") ∉
      [disk.identity (disk.includePath "m" "a"), disk.identity "m"] := by decide +kernel
  rcases Resolution.reaches_spliced hserial (d := wordOf "LOAD" "m") (t := wordOf "a" "m") rfl
    directiveFree_nil hload va ha hreach with rfl | hreach
  · exact .inl rfl
  rcases Resolution.reaches_spliced hserial (d := wordOf "LOAD" "m") (t := wordOf "b" "m") rfl
    (directiveFree_nil.concat hx) hload vb hb hreach with rfl | hreach
  · exact .inr (.inl rfl)
  rw [Resolution.eq_of_reaches_free hserial ((directiveFree_nil.concat hx).concat hy) hreach]
  exact .inr (.inr rfl)

theorem spelledOnce : SpelledOnce (Setting.serial disk false) "m" := by
  have names : ∀ l p, Passes (Setting.serial disk false) "m" l → NamesIn disk l p →
      p = "a" ∨ p = "b" := by
    intro l p hl hp
    rw [namesIn_iff_mem_namedPaths] at hp
    have h1 : namedPaths disk first = [Bytes.ofString "a", Bytes.ofString "b"] := by decide +kernel
    have h2 : namedPaths disk second = [Bytes.ofString "b"] := by decide +kernel
    have h3 : namedPaths disk third = [] := by decide +kernel
    rcases passes hl with rfl | rfl | rfl
    · simpa [h1] using hp
    · exact .inr (by simpa [h2] using hp)
    · simp [h3] at hp
  intro l m p q hl hm hp hq hid
  have hne : disk.identity "a" ≠ disk.identity "b" := by decide +kernel
  rcases names l p hl hp with rfl | rfl <;> rcases names m q hm hq with rfl | rfl
  · rfl
  · exact absurd hid hne
  · exact absurd hid.symm hne
  · rfl

end TwoDirectives

/-- Two files that are read ahead at once and finish in the opposite order are included as one
worker includes them. -/
theorem parse_parallel_eq_serial_twoDirectives :
    SpelledOnce (Setting.serial TwoDirectives.disk false) "m" ∧
    (parse (Setting.parallel TwoDirectives.disk false 4 TwoDirectives.reversed) false "m").result =
      (parse (Setting.serial TwoDirectives.disk false) false "m").result :=
  ⟨TwoDirectives.spelledOnce, parse_parallel_eq_serial TwoDirectives.disk false "m" 4
    TwoDirectives.reversed TwoDirectives.spelledOnce⟩

end ForthFrontend.Include
