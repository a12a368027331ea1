import ForthFrontend.Include.ReadAhead
import ForthFrontend.Journal

/-!
# Resolving include directives

Directives are resolved one at a time: the first directive of the sequence and its target atom are
replaced by the atoms of the target file, until no directive is left. A file can be included once;
files are the same when their paths have the same identity. A directive that ends the sequence has
no target, which is an error.

With more than one worker, each step first reads ahead every file named by an atom that follows a
directive word, unless it was included already.

Every step that goes on includes a regular file of the disk that was not included before, so
resolution ends.

## Main definitions

* `Include.Setting`: the disk and the manner of working.
* `Include.Resolution`: what is known between two steps.
* `Include.Resolution.step`: one step.
* `Include.Resolution.run`: all steps.
* `Include.resolve`, `Include.parse`: the atoms of a program.
-/

namespace ForthFrontend

namespace Disk

/-- How many regular files of the disk have an identity outside `visited`. -/
def unvisited (d : Disk) (visited : List Path) : Nat :=
  (d.files.filter fun f => !visited.contains f.1.path).length

/-- Visiting one more regular file leaves fewer unvisited. -/
theorem unvisited_cons_lt {d : Disk} {visited : List Path} {l : Location} {content : Bytes}
    (hl : (l, content) ∈ d.files) (hv : visited.contains l.path = false) :
    d.unvisited (l.path :: visited) < d.unvisited visited := by
  have split : (d.files.filter fun f => !(l.path :: visited).contains f.1.path) =
      (d.files.filter fun f => !visited.contains f.1.path).filter
        fun f => !(f.1.path == l.path) := by
    rw [List.filter_filter]
    congr 1
    funext f
    simp only [List.contains_cons, Bool.not_or]
  unfold unvisited
  rw [split]
  refine List.length_filter_lt_length_iff_exists.2 ⟨(l, content), ?_, by simp⟩
  exact List.mem_filter.2 ⟨hl, by simpa using hv⟩

/-- A step along a path leads where the element says. -/
theorem step_eq_ok {d : Disk} {l m : Location} {e : Bytes} (h : d.step l e = .ok m) :
    m = enter l e := by
  unfold step at h
  split at h
  · split at h
    · cases h
    · split at h
      · cases h
      · exact (Except.ok.inj h).symm
  · cases h
  · cases h

/-- A walk along elements leads where they say. -/
theorem foldlM_step_eq_ok {d : Disk} {es : List Bytes} {l m : Location}
    (h : es.foldlM d.step l = .ok m) : m = es.foldl enter l := by
  induction es generalizing l with
  | nil => exact (Except.ok.inj h).symm
  | cons e es ih =>
    rw [List.foldlM_cons] at h
    cases he : d.step l e with
    | error c => rw [he] at h; cases h
    | ok n =>
      rw [he] at h
      rw [List.foldl_cons, ← step_eq_ok he]
      exact ih h

/-- The location a path leads to is the location it names. -/
theorem locate_eq_ok {d : Disk} {p : Path} {l : Location} (h : d.locate p = .ok l) :
    l = d.destination p := by
  unfold locate at h
  cases hc : checkPath p with
  | error c => rw [hc] at h; cases h
  | ok _ =>
    rw [hc] at h
    exact foldlM_step_eq_ok h

/-- A regular file that is found stands on the disk under its identity. -/
theorem mem_files_of_find {d : Disk} {p : Path} {content : Bytes}
    (h : d.find p = .ok (.file content)) :
    ∃ l, (l, content) ∈ d.files ∧ l.path = d.identity p := by
  unfold find at h
  cases hl : d.locate p with
  | error c => rw [hl] at h; cases h
  | ok l =>
    rw [hl] at h
    refine ⟨l, ?_, by rw [locate_eq_ok hl]; rfl⟩
    have he : d.lookup? l = some (.file content) := by
      cases he : d.lookup? l with
      | none => simp [bind, Except.bind, he] at h
      | some e => simpa [bind, Except.bind, he] using h
    have hlook : d.entries.lookup l = some (.file content) := by
      unfold lookup? at he
      split at he
      · cases he
      · exact he
    have hm : (l, Entry.file content) ∈ d.entries := by
      obtain ⟨s, t, ht, -⟩ := List.lookup_eq_some_iff.1 hlook
      rw [ht]
      simp
    exact List.mem_filterMap.2 ⟨_, hm, rfl⟩

end Disk

namespace Include

/-- The disk and the manner of working. -/
structure Setting where
  disk : Disk
  strict : Bool
  workers : Int64 := 1
  schedule : Schedule := .inOrder

namespace Setting

/-- The atoms of the file at a path. -/
def compose (s : Setting) (path : Path) : Outcome :=
  Source.compose s.disk s.strict false path

/-- Are files read ahead? -/
def readsAhead (s : Setting) : Bool :=
  1 < s.workers

/-- A file that composes is a regular file of the disk. -/
theorem mem_files_of_compose {s : Setting} {path : Path} {atoms : List Atom}
    (h : s.compose path = .ok atoms) :
    ∃ l content, (l, content) ∈ s.disk.files ∧ l.path = s.disk.identity path := by
  unfold compose Source.compose Source.openFile Disk.openFile at h
  cases hf : s.disk.find path with
  | error c =>
    rw [hf] at h
    cases h
  | ok e =>
    cases e with
    | directory =>
      rw [hf] at h
      cases h
    | file content =>
      obtain ⟨l, hl, hp⟩ := Disk.mem_files_of_find hf
      exact ⟨l, content, hl, hp⟩

end Setting

/-- What composing a file leaves in the journal. -/
def composeEvents (path : Path) : Outcome → Journal
  | .ok _ => [.sourceComposed path]
  | .error (.source { fault := .sourceNotFound, .. }) => [.sourceUnopened path]
  | .error _ => []

/-- Adds the job of one pair of neighbouring atoms to the jobs found so far. -/
def addJob (d : Disk) (visited : List Path) (jobs : List Job) (pair : Atom × Atom) : List Job :=
  if isDirective pair.1 then
    let path := d.includePath pair.1.file pair.2.text
    let id := d.identity path
    if visited.contains id || jobs.any (·.identity == id) then jobs else jobs ++ [⟨id, path⟩]
  else jobs

/-- The files named after directive words that were not visited yet, each identity once and in the
order of the sequence. -/
def pending (d : Disk) (visited : List Path) (atoms : List Atom) : List Job :=
  (atoms.zip atoms.tail).foldl (addJob d visited) []

/-- What is known between two steps: the sequence so far, the identities included, and the outcomes
read ahead, each of which is the composition of a file under its identity. -/
structure Resolution (s : Setting) where
  atoms : List Atom
  visited : List Path
  held : ReadAhead
  sound : ∀ h ∈ held, h.job.identity = s.disk.identity h.job.path ∧
    h.outcome = s.compose h.job.path

/-- Pending jobs carry the identities of their paths. -/
theorem identity_of_mem_pending {d : Disk} {visited : List Path} {atoms : List Atom} {j : Job}
    (h : j ∈ pending d visited atoms) : j.identity = d.identity j.path := by
  have key : ∀ (pairs : List (Atom × Atom)) (jobs : List Job),
      (∀ j ∈ jobs, j.identity = d.identity j.path) →
      ∀ j ∈ pairs.foldl (addJob d visited) jobs, j.identity = d.identity j.path := by
    intro pairs
    induction pairs with
    | nil => intro jobs hjobs; exact hjobs
    | cons pair pairs ih =>
      intro jobs hjobs
      refine ih _ fun j hj => ?_
      unfold addJob at hj
      split at hj
      · simp only at hj
        split at hj
        · exact hjobs j hj
        · rcases List.mem_append.1 hj with hj | hj
          · exact hjobs j hj
          · rw [List.mem_singleton.1 hj]
      · exact hjobs j hj
  exact key _ [] (by simp) j h

/-- Running jobs that carry the identities of their paths keeps what is held sound. -/
theorem sound_run {s : Setting} {r : ReadAhead} {jobs : List Job}
    (hr : ∀ h ∈ r, h.job.identity = s.disk.identity h.job.path ∧ h.outcome = s.compose h.job.path)
    (hj : ∀ j ∈ jobs, j.identity = s.disk.identity j.path) :
    ∀ h ∈ r.run s.compose jobs,
      h.job.identity = s.disk.identity h.job.path ∧ h.outcome = s.compose h.job.path := by
  induction jobs generalizing r with
  | nil => exact hr
  | cons j jobs ih =>
    refine ih (r := r.store ⟨j, s.compose j.path⟩) (fun h hh => ?_) fun j' hj' =>
      hj j' (List.mem_cons_of_mem _ hj')
    rcases List.mem_cons.1 hh with rfl | hh
    · exact ⟨hj j List.mem_cons_self, rfl⟩
    · exact hr h (List.mem_filter.1 hh).1

namespace Resolution

variable {s : Setting}

/-- The state before the first step. -/
def start (s : Setting) (entry : Path) (atoms : List Atom) : Resolution s where
  atoms := atoms
  visited := [s.disk.identity entry]
  held := []
  sound := by simp

/-- The jobs that are composed ahead of the next step, in the order they finish. -/
def ahead (r : Resolution s) : List Job :=
  s.schedule.order r.visited.length (r.held.missing (pending s.disk r.visited r.atoms))

/-- The state after reading ahead. -/
def readAhead (r : Resolution s) : Resolution s :=
  if s.readsAhead then
    { r with
      held := r.held.run s.compose r.ahead
      sound := sound_run r.sound fun _ hj =>
        identity_of_mem_pending (List.mem_filter.1 ((s.schedule.perm _ _).mem_iff.1 hj)).1 }
  else r

/-- What reading ahead leaves in the journal. -/
def readAheadEvents (r : Resolution s) : Journal :=
  if s.readsAhead then
    r.ahead.flatMap fun j => composeEvents j.path (s.compose j.path) ++ [.includePrefetched j.path]
  else []

/-- What a step comes to: the end of the resolution, or a state to go on from. -/
inductive Step (s : Setting) where
  | finished (result : Except Failure (List Atom))
  | spliced (next : Resolution s)

/-- Obtains the atoms of a file from what was read ahead, or else by composing it. -/
def fetch (r : Resolution s) (id path : Path) : Outcome × Journal :=
  match r.held.get? id with
  | some outcome => (outcome, [])
  | none => (s.compose path, composeEvents path (s.compose path))

/-- Replaces the first directive of the sequence, or ends the resolution. -/
def replaceFirst (r : Resolution s) : Step s × Journal :=
  match findDirective? r.atoms with
  | none => (.finished (.ok r.atoms), [])
  | some pos =>
    match r.atoms.drop pos with
    | [] => (.finished (.ok r.atoms), [])
    | [directive] =>
      (.finished (.error (.atAtom .missingIncludeTarget directive)),
        [.includeTargetMissing directive])
    | directive :: target :: _ =>
      let path := s.disk.includePath directive.file target.text
      let id := s.disk.identity path
      if r.visited.contains id then
        (.finished (.error (.source { SourceError.atAtom .circularInclude directive with
            target := target.text })), [.includeRepeated directive target.text])
      else
        match r.fetch id path with
        | (.error f, events) => (.finished (.error (f.orAt directive)), events)
        | (.ok included, events) =>
          (.spliced
            { atoms := splice r.atoms pos included
              visited := id :: r.visited
              held := r.held.erase id
              sound := fun h hh => r.sound h (List.mem_filter.1 hh).1 },
            events ++ [.includeSpliced path])

/-- One step: reads ahead, then replaces the first directive. -/
def step (r : Resolution s) : Step s × Journal :=
  (r.readAhead.replaceFirst.1, r.readAheadEvents ++ r.readAhead.replaceFirst.2)

/-- Whatever is fetched successfully is the content of a regular file with the given identity. -/
theorem mem_files_of_fetch {r : Resolution s} {id path : Path} {atoms : List Atom}
    {events : Journal} (hid : id = s.disk.identity path)
    (h : r.fetch id path = (.ok atoms, events)) :
    ∃ l content, (l, content) ∈ s.disk.files ∧ l.path = id := by
  unfold fetch at h
  split at h
  · rename_i outcome hget
    obtain ⟨held, hfind, hout⟩ := Option.map_eq_some_iff.1 hget
    obtain ⟨hident, hcomp⟩ := r.sound held (List.mem_of_find?_eq_some hfind)
    have hkey : held.job.identity = id := by simpa using List.find?_some hfind
    obtain ⟨l, content, hl, hp⟩ :=
      Setting.mem_files_of_compose (hcomp ▸ hout.trans (Prod.mk.inj h).1)
    exact ⟨l, content, hl, by rw [hp, ← hident, hkey]⟩
  · obtain ⟨l, content, hl, hp⟩ := Setting.mem_files_of_compose (Prod.mk.inj h).1
    exact ⟨l, content, hl, by rw [hp, hid]⟩

/-- A step that goes on has included a regular file that was not included before. -/
theorem unvisited_replaceFirst_lt {r next : Resolution s} {events : Journal}
    (h : r.replaceFirst = (.spliced next, events)) :
    s.disk.unvisited next.visited < s.disk.unvisited r.visited := by
  unfold replaceFirst at h
  split at h
  · cases h
  · split at h
    · cases h
    · cases h
    · simp only at h
      split at h
      · cases h
      · rename_i hvisited
        split at h
        · cases h
        · rename_i hfetch
          obtain ⟨l, content, hl, hp⟩ := mem_files_of_fetch rfl hfetch
          have hlt := Disk.unvisited_cons_lt hl (by rw [hp]; simpa using hvisited)
          cases h
          rw [hp] at hlt
          exact hlt

/-- Reading ahead visits nothing. -/
theorem visited_readAhead (r : Resolution s) : r.readAhead.visited = r.visited := by
  unfold readAhead
  split <;> rfl

/-- A step that goes on leaves fewer files unvisited. -/
theorem unvisited_step_lt {r next : Resolution s} {events : Journal}
    (h : r.step = (.spliced next, events)) :
    s.disk.unvisited next.visited < s.disk.unvisited r.visited := by
  rw [← visited_readAhead r]
  exact unvisited_replaceFirst_lt (Prod.ext (Prod.mk.inj h).1 rfl)

/-- Takes steps until the resolution ends. -/
def run (r : Resolution s) : Traced (List Atom) :=
  match _h : r.step with
  | (.finished result, events) => ⟨events, result⟩
  | (.spliced next, events) =>
    let rest := run next
    ⟨events ++ rest.journal, rest.result⟩
termination_by s.disk.unvisited r.visited
decreasing_by exact unvisited_step_lt _h

end Resolution

/-- Resolves every directive of a sequence that was composed from the file `entry`. A cancelled run
fails before the first step. -/
def resolve (s : Setting) (cancelled : Bool) (entry : Path) (atoms : List Atom) :
    Traced (List Atom) :=
  if cancelled then ⟨[], .error (Source.notFound entry (.fault .cancelled))⟩
  else (Resolution.start s entry atoms).run

/-- The atoms of the program whose entry file is `entry`. -/
def parse (s : Setting) (cancelled : Bool) (entry : Path) : Traced (List Atom) :=
  let outcome := Source.compose s.disk s.strict cancelled entry
  let events := composeEvents entry outcome
  match outcome with
  | .error f => ⟨events, .error f⟩
  | .ok atoms =>
    let rest := resolve s cancelled entry atoms
    ⟨events ++ rest.journal, rest.result⟩

end Include

end ForthFrontend
