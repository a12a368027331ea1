import ForthFrontend.Proofs.Include.Position
import ForthFrontend.Proofs.Include.Strict

/-!
# Every file is composed once

With several workers a step composes the files of its pending jobs ahead, and composes the file of
the first directive itself only if nothing is held for it. That never happens, since the first
directive names one of the pending files. A file that was composed is held until it is included, and
a file that was included is not pending any more. So no file is composed twice, whatever order the
workers finish in.

## Main definitions

* `Include.Resolution.wanted?`: the job of the first directive.
* `Include.Resolution.compositions`: the jobs whose files a step composes.
* `Include.Resolution.ReachesBy`: runs with the jobs whose files were composed on the way.
* `Include.Resolution.Economical`: the invariant.

## Main results

* `Include.Resolution.has_readAhead_of_wanted`: the file of the first directive is held.
* `Include.Resolution.Economical.next`, `Include.Resolution.Economical.of_reachesBy`: a step and a
  run keep the invariant.
* `Include.resolve_composes_once`: what holds at every step, and of the journal of the run.
-/

namespace ForthFrontend

/-- The path of a file that was composed ahead, if the event says so. -/
def Event.prefetched? : Event → Option Path
  | .includePrefetched path => some path
  | _ => none

namespace Include

/-! ### What is held -/

namespace ReadAhead

theorem has_erase (r : ReadAhead) (id id' : Path) :
    (r.erase id).has id' = (r.has id' && id' != id) := by
  by_cases heq : id' = id
  · subst heq
    simp [has, erase]
  · rw [bne_iff_ne.2 heq, Bool.and_true, Bool.eq_iff_iff, has_iff, has_iff, get?_erase_of_ne r heq]

theorem has_store (r : ReadAhead) (h : Held) (id : Path) :
    (r.store h).has id = (r.has id || h.job.identity == id) := by
  have hcons : (r.store h).has id = (h.job.identity == id || (r.erase h.job.identity).has id) := rfl
  rw [hcons, has_erase]
  by_cases heq : h.job.identity = id
  · rw [beq_iff_eq.2 heq, Bool.true_or, Bool.or_true]
  · rw [beq_false_of_ne heq, bne_iff_ne.2 (Ne.symm heq), Bool.false_or, Bool.and_true,
      Bool.or_false]

/-- After some jobs their files are held, besides what was held before. -/
theorem has_run (compose : Path → Outcome) (r : ReadAhead) (jobs : List Job) (id : Path) :
    (r.run compose jobs).has id = (r.has id || jobs.any (·.identity == id)) := by
  induction jobs generalizing r with
  | nil => exact (Bool.or_false _).symm
  | cons j jobs ih =>
    refine (ih (r.store ⟨j, compose j.path⟩)).trans ?_
    rw [has_store, List.any_cons, Bool.or_assoc]

end ReadAhead

namespace Resolution

variable {s : Setting}

/-! ### Compositions of a step -/

/-- The job of the first directive, unless the sequence ends there or the file was included. -/
def wanted? (r : Resolution s) : Option Job :=
  match findDirective? r.atoms with
  | none => none
  | some pos =>
    match r.atoms.drop pos with
    | directive :: target :: _ =>
      let path := s.disk.includePath directive.file target.text
      let id := s.disk.identity path
      if r.visited.contains id then none else some ⟨id, path⟩
    | _ => none

/-- The jobs whose files are composed ahead of the next step. -/
def composedAhead (r : Resolution s) : List Job :=
  if s.readsAhead then r.ahead else []

/-- The jobs whose files a step composes: those ahead, and that of the first directive if its file
is not held by then. -/
def compositions (r : Resolution s) : List Job :=
  r.composedAhead ++ r.readAhead.held.missing r.readAhead.wanted?.toList

theorem wanted?_pair {r : Resolution s} {front rest : List Atom} {d t : Atom}
    (hf : DirectiveFree front) (hd : isDirective d = true) (h : r.atoms = front ++ d :: t :: rest) :
    r.wanted? =
      if s.disk.identity (s.disk.includePath d.file t.text) ∈ r.visited then none
      else some ⟨s.disk.identity (s.disk.includePath d.file t.text),
        s.disk.includePath d.file t.text⟩ := by
  rw [wanted?, h, findDirective?_append hf hd]
  simp

theorem wanted?_eq_some {r : Resolution s} {j : Job} (h : r.wanted? = some j) :
    ∃ front d t rest, DirectiveFree front ∧ isDirective d = true ∧
      r.atoms = front ++ d :: t :: rest ∧ j.path = s.disk.includePath d.file t.text ∧
      j.identity = s.disk.identity j.path ∧ j.identity ∉ r.visited := by
  obtain hf | ⟨front, d, hf, hd, ha⟩ | ⟨front, d, t, rest, hf, hd, ha⟩ :=
    firstDirective_cases r.atoms
  · rw [wanted?, findDirective?_of_directiveFree hf] at h
    cases h
  · rw [wanted?, ha, findDirective?_append hf hd] at h
    simp at h
  · rw [wanted?_pair hf hd ha] at h
    split at h
    · cases h
    · next hv =>
      cases h
      exact ⟨front, d, t, rest, hf, hd, ha, rfl, rfl, hv⟩

theorem has_readAhead (hs : s.readsAhead = true) (r : Resolution s) (id : Path) :
    r.readAhead.held.has id = (r.held.has id || r.ahead.any (·.identity == id)) := by
  rw [readAhead, if_pos hs]
  exact ReadAhead.has_run s.compose r.held r.ahead id

/-- **The file of the first directive is held** once files were read ahead. -/
theorem has_readAhead_of_wanted (hs : s.readsAhead = true) {r : Resolution s} {j : Job}
    (h : r.wanted? = some j) : r.readAhead.held.has j.identity = true := by
  obtain ⟨front, d, t, rest, hf, hd, ha, hpath, hid, hv⟩ := wanted?_eq_some h
  have hnamed : j.path ∈ namedPaths s.disk r.atoms := by
    rw [← namesIn_iff_mem_namedPaths, ha, hpath]
    exact namesIn_append s.disk front rest t hd
  have hfind : ((namedPaths s.disk r.atoms).find?
      (s.disk.identity · == j.identity)).isSome = true :=
    List.find?_isSome.2 ⟨j.path, hnamed, by simp [hid]⟩
  rw [ReadAhead.has_iff, get?_readAhead hs r hv, Option.isSome_or, Option.isSome_map, hfind,
    Bool.or_true]

theorem wanted?_readAhead (r : Resolution s) : r.readAhead.wanted? = r.wanted? := by
  rw [wanted?, wanted?, r.atoms_readAhead, r.visited_readAhead]

/-- A step composes the paths of its jobs. -/
theorem composes_iff_exists_mem {r : Resolution s} {path : Path} :
    r.Composes path ↔ ∃ j ∈ r.compositions, j.path = path := by
  have hmissing : ∀ {j}, j ∈ r.readAhead.held.missing r.readAhead.wanted?.toList ↔
      r.wanted? = some j ∧ r.readAhead.held.get? j.identity = none := by
    intro j
    rw [ReadAhead.mem_missing, r.wanted?_readAhead, Option.mem_toList, ReadAhead.has_eq_false_iff]
  simp only [compositions, List.mem_append, hmissing]
  constructor
  · rintro (⟨hs, j, hj, rfl⟩ | ⟨front, d, t, rest, ha, hf, hd, rfl, hv, hnone⟩)
    · exact ⟨j, .inl (by rwa [composedAhead, if_pos hs]), rfl⟩
    · refine ⟨_, .inr ⟨(wanted?_pair hf hd ha).trans (if_neg hv), hnone⟩, rfl⟩
  · rintro ⟨j, hj | ⟨hwanted, hnone⟩, rfl⟩
    · rw [composedAhead] at hj
      split at hj
      · next hs => exact .inl ⟨hs, j, hj, rfl⟩
      · cases hj
    · obtain ⟨front, d, t, rest, hf, hd, ha, hpath, hid, hv⟩ := wanted?_eq_some hwanted
      rw [hid] at hv hnone
      exact .inr ⟨front, d, t, rest, ha, hf, hd, hpath, hv, hnone⟩

/-- With several workers, files are composed ahead only. -/
theorem compositions_eq_ahead (hs : s.readsAhead = true) (r : Resolution s) :
    r.compositions = r.ahead := by
  have hnone : r.readAhead.held.missing r.readAhead.wanted?.toList = [] := by
    rw [ReadAhead.missing, List.filter_eq_nil_iff, r.wanted?_readAhead]
    intro j hj
    simp [has_readAhead_of_wanted hs (Option.mem_toList.1 hj)]
  rw [compositions, hnone, List.append_nil, composedAhead, if_pos hs]

/-! ### The invariant -/

/-- Nothing is composed twice: the files of the jobs done so far are different ones, other than the
entry file, and each of them is held or was included. -/
structure Economical (entry : Path) (jobs : List Job) (r : Resolution s) : Prop where
  notMem_visited : ∀ id, r.held.has id = true → id ∉ r.visited
  entry_mem : s.disk.identity entry ∈ r.visited
  identity_eq : ∀ j ∈ jobs, j.identity = s.disk.identity j.path
  ne_entry : ∀ j ∈ jobs, j.identity ≠ s.disk.identity entry
  nodup : (jobs.map Job.identity).Nodup
  kept : ∀ j ∈ jobs, r.held.has j.identity = true ∨ j.identity ∈ r.visited

theorem economical_start (s : Setting) (entry : Path) (atoms : List Atom) :
    Economical entry [] (start s entry atoms) where
  notMem_visited := by
    intro id hid
    cases hid
  entry_mem := List.mem_singleton_self _
  identity_eq := by simp
  ne_entry := by simp
  nodup := List.nodup_nil
  kept := by simp

namespace Economical

variable {entry : Path} {jobs : List Job} {r : Resolution s}

/-- **Reading ahead composes files that were not composed before.** -/
theorem readAhead (hs : s.readsAhead = true) (h : Economical entry jobs r) :
    Economical entry (jobs ++ r.ahead) r.readAhead := by
  have hfresh : ∀ j ∈ r.ahead, j.identity ∉ r.visited :=
    fun j hj => notMem_visited_of_mem_pending (mem_ahead.1 hj).1
  have hheld : ∀ j ∈ r.ahead, r.readAhead.held.has j.identity = true := by
    intro j hj
    rw [has_readAhead hs, Bool.or_eq_true]
    exact .inr (List.any_eq_true.2 ⟨j, hj, beq_self_eq_true _⟩)
  constructor
  case notMem_visited =>
    intro id hid
    rw [has_readAhead hs, Bool.or_eq_true] at hid
    rw [r.visited_readAhead]
    rcases hid with hid | hid
    · exact h.notMem_visited id hid
    · obtain ⟨j, hj, heq⟩ := List.any_eq_true.1 hid
      exact beq_iff_eq.1 heq ▸ hfresh j hj
  case entry_mem => exact r.visited_readAhead ▸ h.entry_mem
  case identity_eq =>
    intro j hj
    rcases List.mem_append.1 hj with hj | hj
    · exact h.identity_eq j hj
    · exact identity_of_mem_pending (mem_ahead.1 hj).1
  case ne_entry =>
    intro j hj
    rcases List.mem_append.1 hj with hj | hj
    · exact h.ne_entry j hj
    · exact fun heq => hfresh j hj (heq ▸ h.entry_mem)
  case nodup =>
    rw [List.map_append]
    refine List.Nodup.append h.nodup r.nodup_ahead ?_
    -- a file that was composed before is held, and then it is not composed ahead, or was included
    intro id hid hid'
    obtain ⟨j, hj, rfl⟩ := List.mem_map.1 hid
    obtain ⟨j', hj', heq⟩ := List.mem_map.1 hid'
    rcases h.kept j hj with hhas | hvisited
    · rw [← heq, (mem_ahead.1 hj').2] at hhas
      cases hhas
    · exact hfresh j' hj' (heq ▸ hvisited)
  case kept =>
    intro j hj
    rcases List.mem_append.1 hj with hj | hj
    · rw [has_readAhead hs, r.visited_readAhead]
      exact (h.kept j hj).imp_left fun hhas => by rw [hhas, Bool.true_or]
    · exact .inl (hheld j hj)

/-- Including a file gives away what is held for it. -/
theorem splice (h : Economical entry jobs r) (front included rest : List Atom) (id : Path) :
    Economical entry jobs (r.spliceAt front included rest id) where
  notMem_visited := by
    intro id' hid'
    have hhas : (r.held.has id' && id' != id) = true := r.held.has_erase id id' ▸ hid'
    rw [Bool.and_eq_true, bne_iff_ne] at hhas
    exact List.not_mem_cons_of_ne_of_not_mem hhas.2 (h.notMem_visited id' hhas.1)
  entry_mem := List.mem_cons_of_mem _ h.entry_mem
  identity_eq := h.identity_eq
  ne_entry := h.ne_entry
  nodup := h.nodup
  kept := by
    intro j hj
    show (r.held.erase id).has j.identity = true ∨ j.identity ∈ id :: r.visited
    rw [ReadAhead.has_erase, List.mem_cons]
    by_cases heq : j.identity = id
    · exact .inr (.inl heq)
    · rcases h.kept j hj with hhas | hvisited
      · exact .inl (by simp [hhas, heq])
      · exact .inr (.inr hvisited)

/-- **A step composes nothing that was composed before.** -/
theorem next (hs : s.readsAhead = true) (h : Economical entry jobs r) {r' : Resolution s}
    (hnext : Next r r') : Economical entry (jobs ++ r.compositions) r' := by
  obtain ⟨front, d, t, rest, included, -, -, -, -, -, rfl⟩ := next_cases hnext
  rw [compositions_eq_ahead hs]
  exact (h.readAhead hs).splice front included rest _

end Economical

/-! ### Runs -/

/-- The resolution comes from one state to another and composes the files of the jobs on the way. -/
inductive ReachesBy : Resolution s → List Job → Resolution s → Prop
  | refl (r : Resolution s) : ReachesBy r [] r
  | head {r next last : Resolution s} {jobs : List Job} (hnext : Next r next)
      (hrest : ReachesBy next jobs last) : ReachesBy r (r.compositions ++ jobs) last

/-- **A run composes nothing twice.** -/
theorem Economical.of_reachesBy (hs : s.readsAhead = true) {entry : Path} {jobs jobs' : List Job}
    {r r' : Resolution s} (h : Economical entry jobs r) (hreach : ReachesBy r jobs' r') :
    Economical entry (jobs ++ jobs') r' := by
  induction hreach generalizing jobs with
  | refl r => rwa [List.append_nil]
  | head hnext hrest ih =>
    rw [← List.append_assoc]
    exact ih (h.next hs hnext)

/-! ### Journals -/

theorem prefetched_composeEvents (path : Path) (outcome : Outcome) :
    (composeEvents path outcome).filterMap Event.prefetched? = [] := by
  unfold composeEvents
  split <;> rfl

theorem prefetched_fetch (r : Resolution s) (id path : Path) :
    (r.fetch id path).2.filterMap Event.prefetched? = [] := by
  unfold fetch
  split
  · rfl
  · exact prefetched_composeEvents _ _

theorem prefetched_replaceFirst (r : Resolution s) :
    r.replaceFirst.2.filterMap Event.prefetched? = [] := by
  unfold replaceFirst
  split
  · rfl
  · split
    · rfl
    · rfl
    · next directive target _ _ =>
      have hfetch := r.prefetched_fetch
        (s.disk.identity (s.disk.includePath directive.file target.text))
        (s.disk.includePath directive.file target.text)
      simp only
      split
      · rfl
      · split
        · next heq =>
          rw [heq] at hfetch
          exact hfetch
        · next heq =>
          rw [heq] at hfetch
          rw [List.filterMap_append, hfetch]
          rfl

/-- The journal of a step names the files that were composed ahead. -/
theorem prefetched_step (r : Resolution s) :
    r.step.2.filterMap Event.prefetched? = r.composedAhead.map Job.path := by
  rw [step, List.filterMap_append, prefetched_replaceFirst, List.append_nil, readAheadEvents,
    composedAhead]
  split
  · induction r.ahead with
    | nil => rfl
    | cons j jobs ih =>
      rw [List.flatMap_cons, List.filterMap_append, List.filterMap_append, ih,
        prefetched_composeEvents]
      rfl
  · rfl

/-- **The journal of a run names the files that it composes**, one after another, up to the step
that ends it. -/
theorem exists_reachesBy_last (hs : s.readsAhead = true) (r : Resolution s) :
    ∃ jobs last, ReachesBy r jobs last ∧
      r.run.journal.filterMap Event.prefetched? = (jobs ++ last.compositions).map Job.path := by
  refine run_induction (motive := fun r _ => ∃ jobs last, ReachesBy r jobs last ∧
    r.run.journal.filterMap Event.prefetched? = (jobs ++ last.compositions).map Job.path) ?_ ?_ r
  · intro r result hstep
    refine ⟨[], r, .refl r, ?_⟩
    rw [run_journal, hstep, List.append_nil, prefetched_step, composedAhead, if_pos hs,
      List.nil_append, compositions_eq_ahead hs]
  · rintro r next result hnext ⟨jobs, last, hreach, hjournal⟩
    refine ⟨r.compositions ++ jobs, last, .head hnext hreach, ?_⟩
    have hstep : r.step.1 = .spliced next := hnext
    rw [run_journal, hstep, List.filterMap_append, hjournal, prefetched_step, composedAhead,
      if_pos hs, ← compositions_eq_ahead hs, ← List.map_append, List.append_assoc]

end Resolution

open Resolution

/-- **Every file is composed once.** With more than one worker, whatever the disk, the entry file,
the sequence and the order in which workers finish, the following holds at every step of a
resolution. No identity is held and included at once. The files composed since the start, those of
the step included, have different identities, and none has that of the entry file. If the first
directive names a file that was not included, its outcome is held and can be taken, so it is never
composed for want of it. The journal of the whole resolution names no file twice among those
composed ahead, and never the entry file. -/
theorem resolve_composes_once (s : Setting) (hworkers : 1 < s.workers) (entry : Path)
    (atoms : List Atom) :
    (∀ jobs r, ReachesBy (start s entry atoms) jobs r →
      (∀ id, r.held.has id = true → id ∉ r.visited) ∧
      (∀ j ∈ jobs ++ r.compositions, j.identity = s.disk.identity j.path ∧
        j.identity ≠ s.disk.identity entry) ∧
      ((jobs ++ r.compositions).map Job.identity).Nodup ∧
      ∀ front d t rest, DirectiveFree front → isDirective d = true →
        r.atoms = front ++ d :: t :: rest →
        s.disk.identity (s.disk.includePath d.file t.text) ∉ r.visited →
        (r.readAhead.held.take
          (s.disk.identity (s.disk.includePath d.file t.text))).1.isSome = true) ∧
    (((resolve s false entry atoms).journal.filterMap Event.prefetched?).map
      s.disk.identity).Nodup ∧
    s.disk.identity entry ∉
      ((resolve s false entry atoms).journal.filterMap Event.prefetched?).map s.disk.identity := by
  have hs : s.readsAhead = true := decide_eq_true hworkers
  -- what the invariant says once the files of a further step are composed
  have hstep : ∀ {jobs r}, ReachesBy (start s entry atoms) jobs r →
      Economical entry (jobs ++ r.compositions) r.readAhead := by
    intro jobs r hreach
    rw [compositions_eq_ahead hs]
    exact ((economical_start s entry atoms).of_reachesBy hs hreach).readAhead hs
  refine ⟨fun jobs r hreach => ⟨?_, ?_, (hstep hreach).nodup, ?_⟩, ?_⟩
  · exact ((economical_start s entry atoms).of_reachesBy hs hreach).notMem_visited
  · exact fun j hj => ⟨(hstep hreach).identity_eq j hj, (hstep hreach).ne_entry j hj⟩
  · intro front d t rest hf hd ha hv
    have hwanted := wanted?_pair hf hd ha
    rw [if_neg hv] at hwanted
    exact ReadAhead.has_iff.1 (has_readAhead_of_wanted hs hwanted)
  · obtain ⟨jobs, last, hreach, hjournal⟩ := exists_reachesBy_last hs (start s entry atoms)
    have hidentities : ((resolve s false entry atoms).journal.filterMap Event.prefetched?).map
        s.disk.identity = (jobs ++ last.compositions).map Job.identity := by
      rw [show (resolve s false entry atoms).journal = (start s entry atoms).run.journal from rfl,
        hjournal, List.map_map]
      exact List.map_congr_left fun j hj => ((hstep hreach).identity_eq j hj).symm
    rw [hidentities]
    refine ⟨(hstep hreach).nodup, fun hmem => ?_⟩
    obtain ⟨j, hj, heq⟩ := List.mem_map.1 hmem
    exact (hstep hreach).ne_entry j hj heq

/-- Two files are composed ahead of the first step, the second one first, and both are held when
they are asked for. -/
theorem resolve_composes_once_twoDirectives :
    let s := Setting.parallel TwoDirectives.disk false 4 TwoDirectives.reversed
    let r := start s "m" TwoDirectives.first
    1 < s.workers ∧ r.compositions = [⟨"/b", "b"⟩, ⟨"/a", "a"⟩] ∧
    (r.compositions.map Job.identity).Nodup ∧
    (r.readAhead.held.take (s.disk.identity (s.disk.includePath "m" "a"))).1.isSome = true ∧
    (((resolve s false "m" TwoDirectives.first).journal.filterMap Event.prefetched?).map
      s.disk.identity).Nodup := by
  intro s r
  have hworkers : 1 < s.workers := by decide
  have hload : isDirective (wordOf "LOAD" "m") = true := by decide +kernel
  have hnew : s.disk.identity (s.disk.includePath "m" "a") ∉ r.visited := by decide +kernel
  obtain ⟨hsteps, hjournal, -⟩ := resolve_composes_once s hworkers "m" TwoDirectives.first
  obtain ⟨-, -, hnodup, htake⟩ := hsteps [] r (.refl r)
  refine ⟨hworkers, by decide +kernel, hnodup, ?_, hjournal⟩
  exact htake [] (wordOf "LOAD" "m") (wordOf "a" "m") _ directiveFree_nil hload rfl hnew

end Include

end ForthFrontend
