import ForthFrontend.Proofs.Include.Inline
import ForthFrontend.Proofs.Include.Spelling

/-!
# Workers and spellings

A file that was read ahead is held under its identity, as it was found under the path that named it
first. When it is included, another path may ask for it. The atoms are the same up to the spelling
of their file, if both paths lead to the file. But one path may lead nowhere, say through a missing
directory, where the other one leads to the file; then what is held is not what one worker would
find.

This is the only way in which the number of workers shows: results are the same up to spelling if
and only if, whenever a file is included, the first path that named it leads somewhere exactly if
the path at hand does. The paths that are looked up must not get too long for the disk.

## Main definitions

* `Include.Resolution.OpensAsNamed`: first paths lead where the paths at hand lead.
* `Include.Mirrors`: states with and without workers that are the same up to spelling.

## Main results

* `Include.Faces.mirrors`: a splice keeps states the same up to spelling.
* `Include.Mirrors.run_iff`: runs from states that are the same up to spelling.
* `Include.parse_workers_iff_opensAsNamed`: when the number of workers does not show.
-/

namespace ForthFrontend.Include

variable {d : Disk}

/-- Along the run, whenever a file is about to be included, the first path that named it leads
somewhere exactly if the path at hand does. The paths `before` were named before the state. -/
inductive Resolution.OpensAsNamed {s : Setting} : List Path → Resolution s → Prop
  | intro {before : List Path} {r : Resolution s}
    (here : ∀ p q, (namedPaths s.disk r.atoms).head? = some p → s.disk.identity p ∉ r.visited →
      (before ++ namedPaths s.disk r.atoms).find? (s.disk.identity · == s.disk.identity p) =
        some q → s.disk.hasPath q = s.disk.hasPath p)
    (next : ∀ next, r.Next next → OpensAsNamed (before ++ namedPaths s.disk r.atoms) next) :
    OpensAsNamed before r

open Resolution

theorem opensAsNamed_of_finished {s : Setting} {before : List Path} {r : Resolution s}
    {result : Except Failure (List Atom)} (hstep : r.step.1 = .finished result)
    (hvisited : ∀ p, (namedPaths s.disk r.atoms).head? = some p → s.disk.identity p ∈ r.visited) :
    OpensAsNamed before r := by
  refine ⟨fun p q hp hv _ => absurd (hvisited p hp) hv, fun next hnext => ?_⟩
  cases hstep.symm.trans hnext

section Mirrors

variable {strict : Bool} {workers : Int64} {schedule : Schedule}

/-- A state of a run with workers and a sequence of the serial run that are the same up to spelling.
What is held is what the first paths named so far compose to. -/
structure Mirrors (before before' : List Path) (atoms : List Atom) (visited : List Path)
    (r : Resolution (.parallel d strict workers schedule)) : Prop where
  atoms_eq : r.atoms.map (Atom.byIdentity d) = atoms.map (Atom.byIdentity d)
  visited_eq : r.visited = visited
  named : Named atoms
  named' : Named r.atoms
  paths : List.Forall₂ d.Alike before before'
  held : ∀ id ∉ visited, r.held.get? id =
    (before'.find? (d.identity · == id)).map (Setting.parallel d strict workers schedule).compose
  short : ∀ r', Relation.ReflTransGen Next (plain (.serial d strict) atoms visited) r' →
    Short r'.atoms
  short' : ∀ r', Relation.ReflTransGen Next r r' → Short r'.atoms

variable {before before' : List Path} {atoms : List Atom} {visited : List Path}
  {r : Resolution (.parallel d strict workers schedule)}

namespace Mirrors

theorem alike (hd : d.IsSound) (h : Mirrors before before' atoms visited r) :
    List.Forall₂ d.Alike (before ++ namedPaths d atoms) (before' ++ namedPaths d r.atoms) :=
  List.rel_append h.paths (alike_namedPaths hd h.atoms_eq.symm h.named h.named' (h.short _ .refl)
    (h.short' _ .refl))

/-- What is held after reading ahead is what the first paths named by then compose to. -/
theorem get?_readAhead (hw : (Setting.parallel d strict workers schedule).readsAhead = true)
    (h : Mirrors before before' atoms visited r) {id : Path} (hid : id ∉ visited) :
    r.readAhead.held.get? id = ((before' ++ namedPaths d r.atoms).find? (d.identity · == id)).map
      (Setting.parallel d strict workers schedule).compose := by
  rw [Resolution.get?_readAhead hw r (h.visited_eq ▸ hid), h.held id hid, List.find?_append]
  cases before'.find? (d.identity · == id) <;> rfl

end Mirrors

/-- How a state with workers stands to the first directive of a serial sequence: it has the same
directive up to spelling, and it fetches `q'`, which leads as `q` does, the first path that named
the file. -/
structure Faces (before : List Path) (front : List Atom) (a t : Atom) (rest : List Atom)
    (r : Resolution (.parallel d strict workers schedule)) (front' : List Atom) (a' t' : Atom)
    (rest' : List Atom) (q q' : Path) : Prop where
  atoms_eq : r.atoms = front' ++ a' :: t' :: rest'
  free : DirectiveFree front'
  directive : isDirective a' = true
  front_eq : front'.map (Atom.byIdentity d) = front.map (Atom.byIdentity d)
  directive_eq : a'.byIdentity d = a.byIdentity d
  rest_eq : rest'.map (Atom.byIdentity d) = rest.map (Atom.byIdentity d)
  identity_eq : d.identity (d.includePath a'.file t'.text) =
    d.identity (d.includePath a.file t.text)
  first : (before ++ namedPaths d (front ++ a :: t :: rest)).find?
    (d.identity · == d.identity (d.includePath a.file t.text)) = some q
  alike : d.Alike q q'
  fetch : (r.readAhead.fetch (d.identity (d.includePath a'.file t'.text))
    (d.includePath a'.file t'.text)).1 = Source.compose d strict false q'

section Pair

variable {front rest : List Atom} {a t : Atom}

theorem namedPaths_pair (hf : DirectiveFree front) (ha : isDirective a = true) :
    namedPaths d (front ++ a :: t :: rest) =
      d.includePath a.file t.text :: namedPaths d (t :: rest) := by
  rw [namedPaths_append hf, namedPaths_cons_cons, if_pos ha]

theorem Mirrors.identity_eq (hd : d.IsSound)
    (h : Mirrors before before' (front ++ a :: t :: rest) visited r) (hf : DirectiveFree front)
    (ha : isDirective a = true) {front' rest' : List Atom} {a' t' : Atom}
    (hatoms : r.atoms = front' ++ a' :: t' :: rest') (hf' : DirectiveFree front')
    (ha' : isDirective a' = true) : d.identity (d.includePath a'.file t'.text) =
      d.identity (d.includePath a.file t.text) := by
  have hnamed := alike_namedPaths hd h.atoms_eq.symm h.named h.named' (h.short _ .refl)
    (h.short' _ .refl)
  rw [hatoms, namedPaths_pair hf ha, namedPaths_pair hf' ha'] at hnamed
  exact (List.forall₂_cons.1 hnamed).1.identity_eq.symm

theorem Mirrors.exists_faces (hd : d.IsSound)
    (hw : (Setting.parallel d strict workers schedule).readsAhead = true)
    (h : Mirrors before before' (front ++ a :: t :: rest) visited r) (hf : DirectiveFree front)
    (ha : isDirective a = true) (hv : d.identity (d.includePath a.file t.text) ∉ visited) :
    ∃ front' a' t' rest' q q', Faces before front a t rest r front' a' t' rest' q q' := by
  obtain ⟨front', a', t', rest', hatoms, hf', ha', hfront, hdirective, htext, hrest⟩ :=
    exists_pair_of_byIdentity h.atoms_eq hf ha
  have hpaths := h.alike hd
  -- the path of the first directive is among the paths named by now
  have hsome : ((before ++ namedPaths d (front ++ a :: t :: rest)).find?
      (d.identity · == d.identity (d.includePath a.file t.text))).isSome = true := by
    rw [List.find?_isSome]
    refine ⟨_, List.mem_append_right _ ?_, beq_self_eq_true _⟩
    rw [namedPaths_pair hf ha]
    exact List.mem_cons_self
  obtain ⟨q, hq⟩ := Option.isSome_iff_exists.1 hsome
  obtain ⟨q', hq', halike⟩ := find?_of_alike hpaths hq
  have hid := h.identity_eq hd hf ha hatoms hf' ha'
  refine ⟨front', a', t', rest', q, q', hatoms, hf', ha', hfront, hdirective, hrest, hid, hq,
    halike, ?_⟩
  have hget := h.get?_readAhead hw hv
  rw [hq', ← hid] at hget
  rw [Resolution.fetch, hget]
  rfl

variable {front' rest' : List Atom} {a' t' : Atom} {q q' : Path}

theorem Faces.opensAsNamed_iff (h : Faces before front a t rest r front' a' t' rest' q q')
    (hf : DirectiveFree front) (ha : isDirective a = true)
    (hv : d.identity (d.includePath a.file t.text) ∉ visited) :
    OpensAsNamed before (plain (.serial d strict) (front ++ a :: t :: rest) visited) ↔
      d.hasPath q = d.hasPath (d.includePath a.file t.text) ∧
        ∀ next, Next (plain (.serial d strict) (front ++ a :: t :: rest) visited) next →
          OpensAsNamed (before ++ namedPaths d (front ++ a :: t :: rest)) next := by
  have hhead : (namedPaths d (front ++ a :: t :: rest)).head? =
      some (d.includePath a.file t.text) := by
    rw [namedPaths_pair hf ha]
    rfl
  constructor
  · rintro ⟨here, next⟩
    exact ⟨here _ _ hhead hv h.first, next⟩
  · rintro ⟨heq, next⟩
    refine ⟨fun p' q' hp' _ hq' => ?_, next⟩
    obtain rfl := Option.some.inj (hhead.symm.trans hp')
    obtain rfl := Option.some.inj (h.first.symm.trans hq')
    exact heq

theorem Faces.notMem_visited (h : Faces before front a t rest r front' a' t' rest' q q')
    (hvisited : r.visited = visited) (hv : d.identity (d.includePath a.file t.text) ∉ visited) :
    d.identity (d.includePath a'.file t'.text) ∉ r.readAhead.visited := by
  rwa [r.visited_readAhead, hvisited, h.identity_eq]

theorem Faces.alike_of_hasPath_eq (hd : d.IsSound)
    (h : Faces before front a t rest r front' a' t' rest' q q')
    (heq : d.hasPath q = d.hasPath (d.includePath a.file t.text)) :
    d.Alike q' (d.includePath a.file t.text) := by
  have hid : d.identity q = d.identity (d.includePath a.file t.text) := by
    simpa using List.find?_some h.first
  exact ⟨h.alike.destination_eq.symm.trans ((Disk.identity_eq_iff hd.hasCleanWorkDir).1 hid),
    h.alike.hasPath_eq.symm.trans heq⟩

/-- Nothing is ahead of a serial run, so it fetches the path at hand. -/
theorem fetch_serial (d : Disk) (strict : Bool) (atoms : List Atom) (visited : List Path)
    (id path : Path) :
    ((plain (.serial d strict) atoms visited).readAhead.fetch id path).1 =
      Source.compose d strict false path := by
  rw [readAhead, if_neg (by simp [Setting.readsAhead_serial])]
  rfl

/-- Results differ up to spelling if one is for want of a file and the other is not. -/
theorem byIdentity_ne {x y : Outcome} {e : SourceError} (hx : x = .error (.source e))
    (hfault : e.fault = .sourceNotFound)
    (hy : ∀ e', y = .error (.source e') → e'.fault = .sourceNotFound →
      d.identity e'.target ≠ d.identity e.target) :
    Outcome.byIdentity d x ≠ Outcome.byIdentity d y := by
  rintro heq
  rw [hx] at heq
  cases y with
  | ok atoms => cases heq
  | error f =>
    cases f with
    | source e' =>
      have hsame := Failure.source.inj (Except.error.inj heq)
      have hfault' : e'.fault = .sourceNotFound := (congrArg SourceError.fault hsame).symm.trans hfault
      have htarget : d.identity e.target = d.identity e'.target := by
        simpa [SourceError.byIdentity, hfault, hfault'] using congrArg SourceError.target hsame
      exact hy e' rfl hfault' htarget.symm
    | _ => cases heq

/-- **If only one of the first path and the path at hand leads somewhere, results differ.** -/
theorem Faces.byIdentity_ne (h : Faces before front a t rest r front' a' t' rest' q q')
    (hvisited : r.visited = visited) (hf : DirectiveFree front) (ha : isDirective a = true)
    (hv : d.identity (d.includePath a.file t.text) ∉ visited)
    (hne : d.hasPath q ≠ d.hasPath (d.includePath a.file t.text)) :
    Outcome.byIdentity d r.run.result ≠ Outcome.byIdentity d
      (plain (.serial d strict) (front ++ a :: t :: rest) visited).run.result := by
  have hv' : d.identity (d.includePath a'.file t'.text) ∉ r.visited :=
    r.visited_readAhead ▸ h.notMem_visited hvisited hv
  have hid : d.identity q' = d.identity (d.includePath a.file t.text) := by
    rw [← h.alike.identity_eq]
    simpa using List.find?_some h.first
  have hserial : (plain (.serial d strict) (front ++ a :: t :: rest) visited).atoms =
      front ++ a :: t :: rest := rfl
  have hfetch := fetch_serial d strict (front ++ a :: t :: rest) visited
  cases hp : d.hasPath (d.includePath a.file t.text) with
  | true =>
    have hq' : d.hasPath q' = false := by
      rw [← h.alike.hasPath_eq]
      simpa [hp] using hne
    obtain ⟨why, hresult⟩ := exists_notFound h.atoms_eq h.free h.directive hv' h.fetch hq'
    refine ForthFrontend.Include.byIdentity_ne hresult rfl fun e he hfault => ?_
    rw [hid]
    exact ne_of_hasPath hserial hf ha hv (hfetch _ _) hp he hfault
  | false =>
    have hq' : d.hasPath q' = true := by
      rw [← h.alike.hasPath_eq]
      simpa [hp] using hne
    obtain ⟨why, hresult⟩ := exists_notFound hserial hf ha hv (hfetch _ _) hp
    refine (ForthFrontend.Include.byIdentity_ne hresult rfl fun e he hfault => ?_).symm
    show d.identity e.target ≠ d.identity (d.includePath a.file t.text)
    rw [← h.identity_eq]
    exact ne_of_hasPath h.atoms_eq h.free h.directive hv' h.fetch hq' he hfault

theorem byIdentity_atAtom (fault : Fault) (ha : a'.byIdentity d = a.byIdentity d) :
    (SourceError.atAtom fault a').byIdentity d = (SourceError.atAtom fault a).byIdentity d := by
  have hfile : d.identity a'.file = d.identity a.file := (congrArg Atom.file ha :)
  have hline : a'.line = a.line := (congrArg Atom.line ha :)
  rw [SourceError.byIdentity, SourceError.byIdentity, SourceError.atAtom, SourceError.atAtom, hfile,
    hline]

theorem byIdentity_orAt {p : Path} {f f' : Failure} (h : d.Alike q p)
    (hc' : Source.compose d strict false q = .error f')
    (hc : Source.compose d strict false p = .error f) (ha : a'.byIdentity d = a.byIdentity d) :
    (f'.orAt a').byIdentity d = (f.orAt a).byIdentity d := by
  have hid := h.identity_eq
  have hfile : d.identity a'.file = d.identity a.file := (congrArg Atom.file ha :)
  have hline : a'.line = a.line := (congrArg Atom.line ha :)
  cases hp : d.hasPath p with
  | false =>
    obtain ⟨why', hq⟩ := Source.compose_of_not_hasPath strict (h.hasPath_eq.trans hp)
    obtain ⟨why, hp⟩ := Source.compose_of_not_hasPath strict hp
    obtain rfl := Except.error.inj (hc'.symm.trans hq)
    obtain rfl := Except.error.inj (hc.symm.trans hp)
    simp [Failure.orAt, Source.notFound, SourceError.orAt, Failure.byIdentity,
      SourceError.byIdentity, hid, hfile, hline]
  | true =>
    rw [(Source.orAt_of_hasPath (h.hasPath_eq.trans hp) hc' a').1, (Source.orAt_of_hasPath hp hc a).1]
    have hsame := Source.byIdentity_compose strict h
    rw [hc, hc'] at hsame
    exact Except.error.inj hsame

/-- Behind a splice of a file that both paths lead to, the runs are the same up to spelling again. -/
theorem Faces.mirrors (hd : d.IsSound)
    (hw : (Setting.parallel d strict workers schedule).readsAhead = true)
    (h : Faces before front a t rest r front' a' t' rest' q q')
    (hr : Mirrors before before' (front ++ a :: t :: rest) visited r)
    (hf : DirectiveFree front) (ha : isDirective a = true)
    (hv : d.identity (d.includePath a.file t.text) ∉ visited)
    {included included' : List Atom}
    (hc : (Setting.serial d strict).compose (d.includePath a.file t.text) = .ok included)
    (hc' : Source.compose d strict false q' = .ok included')
    (hincluded : included'.map (Atom.byIdentity d) = included.map (Atom.byIdentity d)) :
    Mirrors (before ++ namedPaths d (front ++ a :: t :: rest))
      (before' ++ namedPaths d r.atoms) (front ++ included ++ rest)
      (d.identity (d.includePath a.file t.text) :: visited)
      (r.readAhead.spliceAt front' included' rest'
        (d.identity (d.includePath a'.file t'.text))) := by
  have hv' := h.notMem_visited hr.visited_eq hv
  have hnext : Next (plain (.serial d strict) (front ++ a :: t :: rest) visited)
      (plain (.serial d strict) (front ++ included ++ rest)
        (d.identity (d.includePath a.file t.text) :: visited)) :=
    next_spliced (Setting.readsAhead_serial d strict) hf ha hv hc
  have hnext' : Next r (r.readAhead.spliceAt front' included' rest'
      (d.identity (d.includePath a'.file t'.text))) :=
    replaceFirst_spliced h.free h.directive (r.atoms_readAhead.trans h.atoms_eq) hv'
      (h.fetch.trans hc')
  have hnamed : Named (front ++ included ++ rest) :=
    hr.named.splice (named_of_compose hd.toIsTree hc)
  have hnamed' : Named (front' ++ included' ++ rest') :=
    Named.splice (h.atoms_eq ▸ hr.named') (named_of_compose hd.toIsTree hc')
  refine ⟨?_, ?_, hnamed, hnamed', hr.alike hd, ?_, ?_, ?_⟩
  · show (front' ++ included' ++ rest').map _ = _
    simp only [List.map_append, h.front_eq, hincluded, h.rest_eq]
  · show _ :: r.readAhead.visited = _
    rw [h.identity_eq, r.visited_readAhead, hr.visited_eq]
  · intro id hid
    rw [List.mem_cons, not_or] at hid
    rw [← hr.get?_readAhead hw hid.2]
    exact r.readAhead.held.get?_erase_of_ne (h.identity_eq ▸ hid.1)
  · intro r' hreach
    exact hr.short r' (.head hnext hreach)
  · intro r' hreach
    exact hr.short' r' (.head hnext' hreach)

/-! The ways to go on from states that are the same up to spelling. -/

theorem Mirrors.byIdentity_run_free (h : Mirrors before before' atoms visited r)
    (hf : DirectiveFree atoms) : Outcome.byIdentity d r.run.result =
      Outcome.byIdentity d (plain (.serial d strict) atoms visited).run.result := by
  have hf' : DirectiveFree r.atoms := directiveFree_of_byIdentity h.atoms_eq hf
  have hstep : r.step.1 = .finished (.ok r.readAhead.atoms) :=
    replaceFirst_free (r.atoms_readAhead.symm ▸ hf')
  rw [run_result r, hstep, run_free (Setting.readsAhead_serial d strict) hf, r.atoms_readAhead]
  exact congrArg Except.ok h.atoms_eq

theorem Mirrors.byIdentity_run_last (h : Mirrors before before' (front ++ [a]) visited r)
    (hf : DirectiveFree front) (ha : isDirective a = true) : Outcome.byIdentity d r.run.result =
      Outcome.byIdentity d (plain (.serial d strict) (front ++ [a]) visited).run.result := by
  have hatoms := h.atoms_eq
  rw [List.map_append, List.map_eq_append_iff] at hatoms
  obtain ⟨front', last, hatoms, hfront, hlast⟩ := hatoms
  obtain ⟨a', _, rfl, ha', hnil⟩ := List.map_eq_cons_iff.1 hlast
  obtain rfl := List.map_eq_nil_iff.1 hnil
  have hstep : r.step.1 = .finished (.error (.atAtom .missingIncludeTarget a')) :=
    replaceFirst_last (directiveFree_of_byIdentity hfront hf)
      ((isDirective_of_byIdentity ha').trans ha) (r.atoms_readAhead.trans hatoms)
  rw [run_result r, hstep, run_last (Setting.readsAhead_serial d strict) hf ha]
  exact congrArg (Except.error ∘ Failure.source) (byIdentity_atAtom _ ha')

theorem Mirrors.byIdentity_run_repeated (hd : d.IsSound)
    (h : Mirrors before before' (front ++ a :: t :: rest) visited r) (hf : DirectiveFree front)
    (ha : isDirective a = true) (hv : d.identity (d.includePath a.file t.text) ∈ visited) :
    Outcome.byIdentity d r.run.result = Outcome.byIdentity d
      (plain (.serial d strict) (front ++ a :: t :: rest) visited).run.result := by
  obtain ⟨front', a', t', rest', hatoms, hf', ha', -, hdirective, htext, -⟩ :=
    exists_pair_of_byIdentity h.atoms_eq hf ha
  have hid := h.identity_eq hd hf ha hatoms hf' ha'
  have hstep : r.step.1 = .finished (.error (repeated a' t')) :=
    replaceFirst_repeated hf' ha' (r.atoms_readAhead.trans hatoms)
      (by rw [r.visited_readAhead, h.visited_eq]; exact hid ▸ hv)
  rw [run_result r, hstep, run_repeated (Setting.readsAhead_serial d strict) hf ha hv]
  have hfile : d.identity a'.file = d.identity a.file := (congrArg Atom.file hdirective :)
  have hline : a'.line = a.line := (congrArg Atom.line hdirective :)
  simp [Outcome.byIdentity, Failure.byIdentity, repeated, SourceError.atAtom,
    SourceError.byIdentity, hfile, hline, htext]

theorem Faces.run_iff_of_failed (hd : d.IsSound)
    (h : Faces before front a t rest r front' a' t' rest' q q')
    (hr : Mirrors before before' (front ++ a :: t :: rest) visited r)
    (hf : DirectiveFree front) (ha : isDirective a = true)
    (hv : d.identity (d.includePath a.file t.text) ∉ visited) {f : Failure}
    (hc : (Setting.serial d strict).compose (d.includePath a.file t.text) = .error f) :
    Outcome.byIdentity d r.run.result = Outcome.byIdentity d
        (plain (.serial d strict) (front ++ a :: t :: rest) visited).run.result ↔
      OpensAsNamed before (plain (.serial d strict) (front ++ a :: t :: rest) visited) := by
  have hstep : (plain (.serial d strict) (front ++ a :: t :: rest) visited).step.1 =
      .finished (.error (f.orAt a)) :=
    step_failed (Setting.readsAhead_serial d strict) hf ha hv hc
  rw [h.opensAsNamed_iff hf ha hv]
  by_cases heq : d.hasPath q = d.hasPath (d.includePath a.file t.text)
  · have halike := h.alike_of_hasPath_eq hd heq
    refine iff_of_true ?_ ⟨heq, fun next hnext => nomatch hstep.symm.trans hnext⟩
    have hsame := Source.byIdentity_compose strict halike
    rw [show Source.compose d strict false (d.includePath a.file t.text) = _ from hc] at hsame
    cases hc' : Source.compose d strict false q' with
    | ok included =>
      rw [hc'] at hsame
      cases hsame
    | error f' =>
      have hstep' : r.step.1 = .finished (.error (f'.orAt a')) :=
        replaceFirst_failed h.free h.directive (r.atoms_readAhead.trans h.atoms_eq)
          (h.notMem_visited hr.visited_eq hv) (h.fetch.trans hc')
      rw [run_result r, hstep', run_result, hstep]
      exact congrArg Except.error (byIdentity_orAt halike hc' hc h.directive_eq)
  · exact iff_of_false (h.byIdentity_ne hr.visited_eq hf ha hv heq) fun hboth => heq hboth.1

theorem Faces.run_iff_of_spliced (hd : d.IsSound)
    (hw : (Setting.parallel d strict workers schedule).readsAhead = true)
    (h : Faces before front a t rest r front' a' t' rest' q q')
    (hr : Mirrors before before' (front ++ a :: t :: rest) visited r)
    (hf : DirectiveFree front) (ha : isDirective a = true)
    (hv : d.identity (d.includePath a.file t.text) ∉ visited) {included : List Atom}
    (hc : (Setting.serial d strict).compose (d.includePath a.file t.text) = .ok included)
    (ih : ∀ {r' : Resolution (.parallel d strict workers schedule)},
      Mirrors (before ++ namedPaths d (front ++ a :: t :: rest)) (before' ++ namedPaths d r.atoms)
        (front ++ included ++ rest) (d.identity (d.includePath a.file t.text) :: visited) r' →
      (Outcome.byIdentity d r'.run.result = Outcome.byIdentity d
          (plain (.serial d strict) (front ++ included ++ rest)
            (d.identity (d.includePath a.file t.text) :: visited)).run.result ↔
        OpensAsNamed (before ++ namedPaths d (front ++ a :: t :: rest))
          (plain (.serial d strict) (front ++ included ++ rest)
            (d.identity (d.includePath a.file t.text) :: visited)))) :
    Outcome.byIdentity d r.run.result = Outcome.byIdentity d
        (plain (.serial d strict) (front ++ a :: t :: rest) visited).run.result ↔
      OpensAsNamed before (plain (.serial d strict) (front ++ a :: t :: rest) visited) := by
  have hserial := Setting.readsAhead_serial d strict
  have hnext : Next (plain (.serial d strict) (front ++ a :: t :: rest) visited)
      (plain (.serial d strict) (front ++ included ++ rest)
        (d.identity (d.includePath a.file t.text) :: visited)) :=
    next_spliced hserial hf ha hv hc
  rw [h.opensAsNamed_iff hf ha hv]
  by_cases heq : d.hasPath q = d.hasPath (d.includePath a.file t.text)
  · have halike := h.alike_of_hasPath_eq hd heq
    have hsame := Source.byIdentity_compose strict halike
    rw [show Source.compose d strict false (d.includePath a.file t.text) = _ from hc] at hsame
    cases hc' : Source.compose d strict false q' with
    | error f =>
      rw [hc'] at hsame
      cases hsame
    | ok included' =>
      rw [hc'] at hsame
      have hmirrors := h.mirrors hd hw hr hf ha hv hc hc' (Except.ok.inj hsame)
      have hstep' : r.step.1 = .spliced (r.readAhead.spliceAt front' included' rest'
          (d.identity (d.includePath a'.file t'.text))) :=
        replaceFirst_spliced h.free h.directive (r.atoms_readAhead.trans h.atoms_eq)
          (h.notMem_visited hr.visited_eq hv) (h.fetch.trans hc')
      rw [run_result r, hstep', run_spliced hserial hf ha hv hc]
      refine (ih hmirrors).trans ⟨fun hopens => ⟨heq, fun next hnext' => ?_⟩, fun hboth => ?_⟩
      · obtain rfl := Step.spliced.inj (hnext.symm.trans hnext')
        exact hopens
      · exact hboth.2 _ hnext
  · exact iff_of_false (h.byIdentity_ne hr.visited_eq hf ha hv heq) fun hboth => heq hboth.1

end Pair

/-- **Runs with and without workers that start alike** come to results that are the same up to
spelling, if and only if first paths lead where the paths at hand lead. -/
theorem Mirrors.run_iff (hd : d.IsSound)
    (hw : (Setting.parallel d strict workers schedule).readsAhead = true)
    (h : Mirrors before before' atoms visited r) :
    Outcome.byIdentity d r.run.result =
        Outcome.byIdentity d (plain (.serial d strict) atoms visited).run.result ↔
      OpensAsNamed before (plain (.serial d strict) atoms visited) := by
  have hserial := Setting.readsAhead_serial d strict
  -- the induction follows the serial run; the state with workers is whatever mirrors it
  refine serial_induction hserial
    (motive := fun atoms visited _ => ∀ (before before' : List Path)
      (r : Resolution (.parallel d strict workers schedule)),
      Mirrors before before' atoms visited r →
      (Outcome.byIdentity d r.run.result =
          Outcome.byIdentity d (plain (.serial d strict) atoms visited).run.result ↔
        OpensAsNamed before (plain (.serial d strict) atoms visited)))
    ?free ?last ?again ?failed ?spliced atoms visited before before' r h
  case free =>
    intro atoms visited hf before before' r h
    have hstep := (step_serial hserial _).trans
      (replaceFirst_free (r := plain (.serial d strict) atoms visited) hf)
    exact iff_of_true (h.byIdentity_run_free hf)
      (opensAsNamed_of_finished hstep fun p hp => by cases namedPaths_free hf ▸ hp)
  case last =>
    intro front a visited hf ha before before' r h
    have hstep := (step_serial hserial _).trans
      (replaceFirst_last (r := plain (.serial d strict) (front ++ [a]) visited) hf ha rfl)
    exact iff_of_true (h.byIdentity_run_last hf ha)
      (opensAsNamed_of_finished hstep fun p hp => by cases namedPaths_append hf [a] ▸ hp)
  case again =>
    intro front a t rest visited hf ha hv before before' r h
    have hstep := (step_serial hserial _).trans (replaceFirst_repeated
      (r := plain (.serial d strict) (front ++ a :: t :: rest) visited) hf ha rfl hv)
    refine iff_of_true (h.byIdentity_run_repeated hd hf ha hv)
      (opensAsNamed_of_finished hstep fun p hp => ?_)
    obtain rfl := Option.some.inj ((congrArg List.head? (namedPaths_pair hf ha)).symm.trans hp)
    exact hv
  case failed =>
    intro front a t rest visited f hf ha hv hc before before' r h
    obtain ⟨front', a', t', rest', q, q', hm⟩ := h.exists_faces hd hw hf ha hv
    exact hm.run_iff_of_failed hd h hf ha hv hc
  case spliced =>
    intro front a t rest visited included _ hf ha hv hc ih before before' r h
    obtain ⟨front', a', t', rest', q, q', hm⟩ := h.exists_faces hd hw hf ha hv
    exact hm.run_iff_of_spliced hd hw h hf ha hv hc fun {r'} h' => ih _ _ r' h'

end Mirrors

/-- Along the run of a program, the paths that are looked up next to its files are not too long. -/
def KeepsShort (s : Setting) (entry : Path) : Prop :=
  ∀ atoms, Passes s entry atoms → Short atoms

/-- **When the number of workers does not show.** On a sound disk, a program gives the same result
with several workers as with one, up to the spelling of paths, if and only if along the serial run
the first path that named a file leads somewhere whenever the path that includes it does, and the
other way round. The order in which jobs finish does not matter. -/
theorem parse_workers_iff_opensAsNamed {d : Disk} (hd : d.IsSound) (strict : Bool) (entry : Path)
    (workers : Int64) (schedule : Schedule) (hworkers : 1 < workers)
    (hshort : KeepsShort (.serial d strict) entry)
    (hshort' : KeepsShort (.parallel d strict workers schedule) entry) :
    Outcome.byIdentity d (parse (.parallel d strict workers schedule) false entry).result =
        Outcome.byIdentity d (parse (.serial d strict) false entry).result ↔
      ∀ first, (Setting.serial d strict).compose entry = .ok first →
        OpensAsNamed [] (Resolution.start (.serial d strict) entry first) := by
  have hcompose := Setting.compose_parallel d strict workers schedule entry
  cases hfirst : (Setting.serial d strict).compose entry with
  | error f =>
    rw [parse_of_error hfirst, parse_of_error (hcompose.trans hfirst)]
    exact iff_of_true rfl nofun
  | ok first =>
    rw [parse_of_ok hfirst, parse_of_ok (hcompose.trans hfirst)]
    have hnamed : Named first := named_of_compose hd.toIsTree hfirst
    have hstart : Mirrors [] [] first [d.identity entry]
        (Resolution.start (.parallel d strict workers schedule) entry first) :=
      { atoms_eq := rfl
        visited_eq := rfl
        named := hnamed
        named' := hnamed
        paths := .nil
        held := fun _ _ => rfl
        short := fun r hreach => hshort _ ⟨first, r, hfirst, hreach, rfl⟩
        short' := fun r hreach => hshort' _ ⟨first, r, hfirst, hreach, rfl⟩ }
    have hw : (Setting.parallel d strict workers schedule).readsAhead = true :=
      decide_eq_true hworkers
    refine (hstart.run_iff hd hw).trans ⟨fun h first' hfirst' => ?_, fun h => h first rfl⟩
    obtain rfl := Except.ok.inj hfirst'
    exact h

/-! ### A detour through a missing directory -/

/-- Does every sequence of the run pass the check? The run is followed for `n` states. -/
def Resolution.checks {s : Setting} (check : List Atom → Bool) : Nat → Resolution s → Bool
  | 0, _ => false
  | n + 1, r => check r.atoms && match r.step.1 with
    | .finished _ => true
    | .spliced next => next.checks check n

theorem Resolution.check_of_checks {s : Setting} {check : List Atom → Bool} {n : Nat}
    {r : Resolution s} (h : r.checks check n = true) {r' : Resolution s}
    (hreach : Relation.ReflTransGen Next r r') : check r'.atoms = true := by
  induction n generalizing r with
  | zero => cases h
  | succ n ih =>
    rw [checks, Bool.and_eq_true] at h
    rcases Relation.ReflTransGen.cases_head hreach with rfl | ⟨next, hnext, hreach⟩
    · exact h.1
    · rw [show r.step.1 = .spliced next from hnext] at h
      exact ih h.2 hreach

theorem keepsShort_of_checks {s : Setting} {entry : Path} {first : List Atom} (n : Nat)
    (hfirst : s.compose entry = .ok first)
    (h : (Resolution.start s entry first).checks (decide <| Short ·) n = true) :
    KeepsShort s entry := by
  rintro atoms ⟨first', r, hfirst', hreach, rfl⟩
  obtain rfl := Except.ok.inj (hfirst.symm.trans hfirst')
  exact of_decide_eq_true (Resolution.check_of_checks h hreach)

namespace Detour

/-- The program names the file `b` first through a directory that is missing, as the target of a
word that is itself the target of a directive, and then includes it by a path that leads to it. -/
def disk : Disk where
  workDir := []
  entries := [(["s"], .directory), (["m", "s"], .file "LOAD LOAD x/../b LOAD ../b"),
    (["LOAD", "s"], .file "z"), (["b"], .file "y")]

def first : List Atom :=
  [wordOf "LOAD" "s/m", wordOf "LOAD" "s/m", wordOf "x/../b" "s/m", wordOf "LOAD" "s/m",
    wordOf "../b" "s/m"]

theorem isSound : disk.IsSound :=
  Disk.isSound_of_entries (by decide) (by decide) (by decide)

end Detour

/-- One worker includes the file by the path that leads to it, and two workers do not find it. -/
theorem parse_workers_iff_opensAsNamed_detour :
    Detour.disk.IsSound ∧ (1 : Int64) < 2 ∧
    KeepsShort (.serial Detour.disk false) "s/m" ∧
    KeepsShort (.parallel Detour.disk false 2 .inOrder) "s/m" ∧
    (parse (.serial Detour.disk false) false "s/m").result =
      .ok [wordOf "z" "s/LOAD", wordOf "x/../b" "s/m", wordOf "y" "b"] ∧
    (parse (.parallel Detour.disk false 2 .inOrder) false "s/m").result.isOk = false ∧
    ¬ ∀ first, (Setting.serial Detour.disk false).compose "s/m" = .ok first →
      OpensAsNamed [] (Resolution.start (.serial Detour.disk false) "s/m" first) := by
  have hfirst : (Setting.serial Detour.disk false).compose "s/m" = .ok Detour.first := by
    decide +kernel
  have hshort : KeepsShort (.serial Detour.disk false) "s/m" :=
    keepsShort_of_checks 4 hfirst (by decide +kernel)
  have hshort' : KeepsShort (.parallel Detour.disk false 2 .inOrder) "s/m" :=
    keepsShort_of_checks 4 hfirst (by decide +kernel)
  have hserial : (parse (.serial Detour.disk false) false "s/m").result =
      .ok [wordOf "z" "s/LOAD", wordOf "x/../b" "s/m", wordOf "y" "b"] := by decide +kernel
  have hparallel : (parse (.parallel Detour.disk false 2 .inOrder) false "s/m").result.isOk =
      false := by decide +kernel
  refine ⟨Detour.isSound, by decide, hshort, hshort', hserial, hparallel, fun hopens => ?_⟩
  have hsame := (parse_workers_iff_opensAsNamed Detour.isSound false "s/m" 2 .inOrder (by decide)
    hshort hshort').2 hopens
  rw [hserial] at hsame
  cases hresult : (parse (.parallel Detour.disk false 2 .inOrder) false "s/m").result with
  | ok atoms =>
    rw [hresult] at hparallel
    cases hparallel
  | error f =>
    rw [hresult] at hsame
    cases hsame

end ForthFrontend.Include
