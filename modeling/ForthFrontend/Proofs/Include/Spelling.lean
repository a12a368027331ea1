import ForthFrontend.Proofs.Disk.Spelling
import ForthFrontend.Proofs.Include.Position

/-!
# Programs up to the spelling of paths

A file can be composed under any path that leads to it, and its atoms show the path. This module
compares results by the identities of their files: paths that lead alike compose alike, and
sequences that are the same up to spelling name paths that lead alike.

A run that has included a file never ends for want of it, whatever path names it later.

## Main definitions

* `Include.Outcome.byIdentity`: a result with files by identity.
* `Include.Short`: the paths looked up next to the files of a sequence are not too long.

## Main results

* `Source.byIdentity_compose`: paths that lead alike compose alike.
* `Include.alike_namedPaths`: the paths of sequences that are the same up to spelling.
* `Include.Resolution.ne_of_mem_visited`: a file that was included is found.
-/

namespace ForthFrontend

/-! ### Results up to spelling -/

/-- The atom with its file by identity. -/
def Atom.byIdentity (d : Disk) (a : Atom) : Atom :=
  { a with file := d.identity a.file }

/-- The error with files by identity, and without a cause, since its wording spells a path. -/
def SourceError.byIdentity (d : Disk) (e : SourceError) : SourceError :=
  { fault := e.fault
    file := d.identity e.file
    line := e.line
    target := if e.fault = .sourceNotFound then d.identity e.target else e.target }

/-- The fault with its path by identity. -/
def ReadFault.byIdentity (d : Disk) : ReadFault → ReadFault
  | .lineTooLong => .lineTooLong
  | .disk e => .disk { e with path := d.identity e.path }

/-- The failure with files by identity. -/
def Failure.byIdentity (d : Disk) : Failure → Failure
  | .source e => .source (e.byIdentity d)
  | .unreadable path why => .unreadable (d.identity path) (why.byIdentity d)
  | other => other

/-- The result with files by identity. -/
def Include.Outcome.byIdentity (d : Disk) : Include.Outcome → Include.Outcome
  | .ok atoms => .ok (atoms.map (Atom.byIdentity d))
  | .error f => .error (f.byIdentity d)

namespace Source

variable {d : Disk} {strict : Bool} {p q : Path}

open Include (Outcome.byIdentity)

theorem byIdentity_scanLines (h : d.identity p = d.identity q) {found found' : List Atom}
    (hfound : found.map (Atom.byIdentity d) = found'.map (Atom.byIdentity d)) (number : Nat)
    (inComment : Bool) (lines : List Bytes) :
    Outcome.byIdentity d (scanLines strict p number inComment found lines) =
      Outcome.byIdentity d (scanLines strict q number inComment found' lines) := by
  induction lines generalizing number inComment found found' with
  | nil =>
    rw [scanLines, scanLines, Outcome.byIdentity, Outcome.byIdentity, List.map_reverse,
      List.map_reverse, hfound]
  | cons text lines ih =>
    rw [scanLines, scanLines]
    have hatom : ∀ t : Token, (Scan.Place.atom ⟨p, Int64.ofNat number, false⟩ t).byIdentity d =
        (Scan.Place.atom ⟨q, Int64.ofNat number, false⟩ t).byIdentity d := by
      intro t
      rw [Atom.byIdentity, Atom.byIdentity, Scan.Place.atom, Scan.Place.atom, h]
    by_cases hlen : text.length ≥ maxLine
    · rw [if_pos hlen, if_pos hlen, Outcome.byIdentity, Outcome.byIdentity, Failure.byIdentity,
        Failure.byIdentity, h]
    · rw [if_neg hlen, if_neg hlen]
      by_cases hopen : strict = true ∧
          ∃ t, (keepLine inComment text).1.find? Token.opensString = some t
      · obtain ⟨rfl, t, ht⟩ := hopen
        simp only [line_of_unclosed ht, Outcome.byIdentity, Failure.byIdentity,
          SourceError.byIdentity, SourceError.unclosed, Scan.Place.atom, h]
      · have hclosed : strict = true →
            ∀ t ∈ (keepLine inComment text).1, t.opensString = false := by
          intro hs t ht
          have hnone := fun t ht => hopen ⟨hs, t, ht⟩
          simpa using List.find?_eq_none.1 (Option.eq_none_iff_forall_ne_some.2 hnone) t ht
        simp only [line_of_closed hclosed]
        refine ih ?_ _ _
        rw [List.reverseAux_eq, List.reverseAux_eq, List.map_append, List.map_append, hfound,
          List.map_reverse, List.map_reverse, List.map_map, List.map_map]
        refine congrArg (List.reverse · ++ _) (List.map_congr_left fun t _ => hatom t)

theorem compose_of_not_hasPath (strict : Bool) (h : d.hasPath p = false) :
    ∃ why, compose d strict false p = .error (notFound p why) := by
  rw [Disk.hasPath] at h
  rw [compose, openFile, Disk.openFile]
  cases hfind : d.find p with
  | error c => exact ⟨_, rfl⟩
  | ok e =>
    rw [hfind] at h
    cases h

/-- A path that leads somewhere is composed as what stands there. -/
theorem compose_of_hasPath (strict : Bool) (h : d.hasPath p = true) :
    ∃ e, d.lookup? (d.destination p) = some e ∧ compose d strict false p = match e with
      | .directory => .error (.unreadable p (.disk ⟨.readFile, p, .isDirectory⟩))
      | .file content => atoms strict p content := by
  obtain ⟨hlocate, hsome⟩ := Disk.hasPath_iff.1 h
  obtain ⟨e, he⟩ := Option.ne_none_iff_exists'.1 hsome
  have hfind : d.find p = .ok e := by simp [Disk.find, hlocate, bind, Except.bind, he]
  refine ⟨e, he, ?_⟩
  rw [compose, openFile, Disk.openFile, hfind]
  cases e <;> rfl

/-- **Paths that lead alike compose alike.** -/
theorem byIdentity_compose (strict : Bool) (h : d.Alike p q) :
    Outcome.byIdentity d (compose d strict false p) =
      Outcome.byIdentity d (compose d strict false q) := by
  have hid := h.identity_eq
  cases hp : d.hasPath p with
  | false =>
    obtain ⟨why, hc⟩ := compose_of_not_hasPath strict hp
    obtain ⟨why', hc'⟩ := compose_of_not_hasPath strict (h.hasPath_eq ▸ hp)
    simp only [hc, hc', Outcome.byIdentity, Failure.byIdentity, notFound, SourceError.byIdentity,
      ↓reduceIte, hid]
  | true =>
    obtain ⟨e, he, hc⟩ := compose_of_hasPath strict hp
    obtain ⟨e', he', hc'⟩ := compose_of_hasPath strict (h.hasPath_eq ▸ hp)
    rw [← h.destination_eq, he] at he'
    obtain rfl := Option.some.inj he'
    rw [hc, hc']
    cases e with
    | directory => simp only [Outcome.byIdentity, Failure.byIdentity, ReadFault.byIdentity, hid]
    | file content => exact byIdentity_scanLines hid rfl 1 false _

/-- A path that leads somewhere fails to compose only by what stands there, and the failure has a
place if it is one of the sources. -/
theorem orAt_of_hasPath (h : d.hasPath p = true) {f : Failure}
    (hc : compose d strict false p = .error f) (a : Atom) :
    f.orAt a = f ∧ ∀ e, f = .source e → e.fault ≠ .sourceNotFound := by
  cases f with
  | source e =>
    rcases compose_error_cases hc with ⟨-, -, hopen⟩ | ⟨b, hfile, hbears, -, rfl⟩
    · rw [Disk.hasPath] at h
      rw [Disk.openFile] at hopen
      cases hfind : d.find p with
      | error c =>
        rw [hfind] at h
        cases h
      | ok e =>
        rw [hfind] at hopen
        cases hopen
    · obtain ⟨content, hread⟩ := hbears.exists_read
      have hne : b.file ≠ [] := ne_nil_of_read hread
      refine ⟨congrArg _ (if_neg (by simpa [SourceError.unclosed] using hne)), ?_⟩
      rintro e ⟨⟩ hfault
      cases hfault
  | _ => exact ⟨rfl, fun _ h => by cases h⟩

end Source

namespace Include

variable {d : Disk}

/-! ### Sequences up to spelling -/

section Sequences

theorem isDirective_of_byIdentity {a b : Atom} (h : a.byIdentity d = b.byIdentity d) :
    isDirective a = isDirective b :=
  show isDirective (a.byIdentity d) = isDirective (b.byIdentity d) by rw [h]

theorem directiveFree_of_byIdentity {l m : List Atom}
    (h : l.map (Atom.byIdentity d) = m.map (Atom.byIdentity d)) (hm : DirectiveFree m) :
    DirectiveFree l := by
  intro a ha
  obtain ⟨b, hb, heq⟩ := List.mem_map.1 (h ▸ List.mem_map_of_mem ha)
  rw [← isDirective_of_byIdentity heq]
  exact hm b hb

/-- Where one sequence has its first directive, so has a sequence that is the same up to spelling. -/
theorem exists_pair_of_byIdentity {l front rest : List Atom} {a t : Atom}
    (h : l.map (Atom.byIdentity d) = (front ++ a :: t :: rest).map (Atom.byIdentity d))
    (hf : DirectiveFree front) (ha : isDirective a = true) :
    ∃ front' a' t' rest', l = front' ++ a' :: t' :: rest' ∧ DirectiveFree front' ∧
      isDirective a' = true ∧
      front'.map (Atom.byIdentity d) = front.map (Atom.byIdentity d) ∧
      a'.byIdentity d = a.byIdentity d ∧ t'.text = t.text ∧
      rest'.map (Atom.byIdentity d) = rest.map (Atom.byIdentity d) := by
  rw [List.map_append, List.map_eq_append_iff] at h
  obtain ⟨front', pair, rfl, hfront, hpair⟩ := h
  obtain ⟨a', tail, rfl, ha', htail⟩ := List.map_eq_cons_iff.1 hpair
  obtain ⟨t', rest', rfl, ht', hrest⟩ := List.map_eq_cons_iff.1 htail
  exact ⟨front', a', t', rest', rfl, directiveFree_of_byIdentity hfront hf,
    (isDirective_of_byIdentity ha').trans ha, hfront, ha', (congrArg Atom.text ht' :), hrest⟩

/-- The paths that are looked up next to the files of a sequence are not too long. -/
def Short (atoms : List Atom) : Prop :=
  ∀ pair ∈ atoms.zip atoms.tail, isDirective pair.1 = true → Path.isAbsolute pair.2.text = false →
    (Path.join pair.1.file.dir pair.2.text).length < Disk.maxPath

instance (atoms : List Atom) : Decidable (Short atoms) :=
  inferInstanceAs (Decidable (∀ pair ∈ atoms.zip atoms.tail, _))

/-- Every atom is from a file with a name. -/
def Named (atoms : List Atom) : Prop :=
  ∀ a ∈ atoms, Path.IsPlain a.file.afterLastSlash

theorem Named.splice {front rest included : List Atom} {a t : Atom}
    (h : Named (front ++ a :: t :: rest)) (hincluded : Named included) :
    Named (front ++ included ++ rest) := by
  intro b hb
  simp only [List.mem_append] at hb
  obtain (hb | hb) | hb := hb
  · exact h b (List.mem_append_left _ hb)
  · exact hincluded b hb
  · exact h b (List.mem_append_right _ (List.mem_cons_of_mem _ (List.mem_cons_of_mem _ hb)))

theorem named_of_compose (hd : d.IsTree) {strict : Bool} {p : Path} {found : List Atom}
    (h : Source.compose d strict false p = .ok found) : Named found := by
  intro a ha
  obtain ⟨-, hbears⟩ := Source.bears_of_mem_compose h a ha
  obtain ⟨content, hread⟩ := hbears.exists_read
  exact Disk.isPlain_afterLastSlash hd hread

theorem namedPaths_cons_cons (d : Disk) (a b : Atom) (l : List Atom) :
    namedPaths d (a :: b :: l) = if isDirective a = true
      then d.includePath a.file b.text :: namedPaths d (b :: l) else namedPaths d (b :: l) := by
  cases ha : isDirective a <;> simp [namedPaths, ha]

/-- Nothing is named in front of the first directive. -/
theorem namedPaths_append {front : List Atom} (hf : DirectiveFree front) (l : List Atom) :
    namedPaths d (front ++ l) = namedPaths d l := by
  induction front with
  | nil => rfl
  | cons a front ih =>
    obtain ⟨ha, hfront⟩ := List.forall_mem_cons.1 hf
    cases hrest : front ++ l with
    | nil =>
      obtain ⟨rfl, rfl⟩ := List.append_eq_nil_iff.1 hrest
      rfl
    | cons b rest =>
      rw [List.cons_append, hrest, namedPaths_cons_cons, if_neg (by simp [ha]), ← hrest]
      exact ih hfront

theorem namedPaths_free {atoms : List Atom} (hf : DirectiveFree atoms) : namedPaths d atoms = [] := by
  rw [← List.append_nil atoms, namedPaths_append hf]
  rfl

/-- **Sequences that are the same up to spelling name paths that lead alike.** -/
theorem alike_namedPaths (hd : d.IsSound) {l m : List Atom}
    (h : l.map (Atom.byIdentity d) = m.map (Atom.byIdentity d)) (hl : Named l) (hm : Named m)
    (hlshort : Short l) (hmshort : Short m) :
    List.Forall₂ d.Alike (namedPaths d l) (namedPaths d m) := by
  induction l generalizing m with
  | nil =>
    obtain rfl := List.map_eq_nil_iff.1 h.symm
    exact .nil
  | cons a l ih =>
    obtain ⟨a', m, rfl, ha, hrest⟩ := List.map_eq_cons_iff.1 h.symm
    cases l with
    | nil =>
      obtain rfl := List.map_eq_nil_iff.1 hrest
      exact .nil
    | cons b l =>
      obtain ⟨b', m, rfl, hb, -⟩ := List.map_eq_cons_iff.1 hrest
      obtain ⟨hla, hl⟩ := List.forall_mem_cons.1 hl
      obtain ⟨hma, hm⟩ := List.forall_mem_cons.1 hm
      obtain ⟨hlpair, hlshort⟩ := List.forall_mem_cons.1 hlshort
      obtain ⟨hmpair, hmshort⟩ := List.forall_mem_cons.1 hmshort
      have hrest' := ih hrest.symm hl hm hlshort hmshort
      have hdirective : isDirective a' = isDirective a := isDirective_of_byIdentity ha
      rw [namedPaths_cons_cons, namedPaths_cons_cons, hdirective]
      split
      · next hisdir =>
        have htext : b'.text = b.text := (congrArg Atom.text hb :)
        have hfile : d.identity a.file = d.identity a'.file := (congrArg Atom.file ha.symm :)
        refine .cons ?_ hrest'
        rw [htext] at hmpair ⊢
        exact Disk.alike_includePath hd hla hma ((Disk.identity_eq_iff hd.hasCleanWorkDir).1 hfile)
          (hlpair hisdir) (hmpair (hdirective.trans hisdir))
      · exact hrest'

theorem find?_of_alike {id : Path} {paths paths' : List Path}
    (h : List.Forall₂ d.Alike paths paths') {p : Path}
    (hp : paths.find? (d.identity · == id) = some p) :
    ∃ q, paths'.find? (d.identity · == id) = some q ∧ d.Alike p q := by
  induction h with
  | nil => cases hp
  | @cons x y paths paths' hxy _ ih =>
    rw [List.find?_cons] at hp ⊢
    rw [← hxy.identity_eq]
    cases hid : d.identity x == id with
    | true =>
      rw [hid] at hp
      obtain rfl := Option.some.inj hp
      exact ⟨y, rfl, hxy⟩
    | false =>
      rw [hid] at hp
      exact ih hp

end Sequences

/-! ### Files that are not found -/

namespace Resolution

variable {s : Setting} {r : Resolution s} {front rest : List Atom} {a t : Atom}

theorem fault_orAt (e : SourceError) (a : Atom) :
    (e.orAt a).fault = e.fault ∧ (e.orAt a).target = e.target := by
  rw [SourceError.orAt]
  split
  · exact ⟨rfl, rfl⟩
  · exact ⟨rfl, rfl⟩

/-- A failure to find a file is about the path that was composed, which leads nowhere. -/
theorem target_of_compose {f : Failure} {p : Path} (hc : s.compose p = .error f)
    {e : SourceError} (h : f.orAt a = .source e) (hfault : e.fault = .sourceNotFound) :
    e.target = p ∧ s.disk.hasPath p = false := by
  cases hp : s.disk.hasPath p with
  | false =>
    obtain ⟨why, hc'⟩ := Source.compose_of_not_hasPath s.strict hp
    obtain rfl := Except.error.inj (hc.symm.trans hc')
    obtain rfl := Failure.source.inj h
    exact ⟨(fault_orAt _ a).2, rfl⟩
  | true =>
    obtain ⟨horAt, hne⟩ := Source.orAt_of_hasPath hp hc a
    exact absurd hfault (hne e (horAt.symm.trans h))

/-- **A file that was included is found** from then on. -/
theorem ne_of_mem_visited {id : Path} (hid : id ∈ r.visited) {e : SourceError}
    (h : r.run.result = .error (.source e)) (hfault : e.fault = .sourceNotFound) :
    s.disk.identity e.target ≠ id := by
  revert hid h
  refine run_induction (motive := fun r result => id ∈ r.visited →
    result = .error (.source e) → s.disk.identity e.target ≠ id) ?finished ?spliced r
  case finished =>
    rintro r result hstep hid rfl
    obtain ⟨_, hcase⟩ | ⟨_, _, _, _, _, hcase⟩ | ⟨_, a, t, _, _, _, _, ⟨_, hcase⟩ | ⟨hv, hcase⟩⟩ :=
      r.step_cases
    · cases hstep.symm.trans hcase
    · cases hstep.symm.trans hcase
      cases hfault
    · cases hstep.symm.trans hcase
      cases hfault
    · obtain ⟨q, hfetch, hq, -⟩ :=
        r.readAhead.exists_compose_of_fetch (s.disk.includePath a.file t.text) rfl
      rw [hfetch] at hcase
      cases hc : s.compose q with
      | ok included =>
        simp only [hc] at hcase
        cases hstep.symm.trans hcase
      | error f =>
        simp only [hc] at hcase
        have horAt := Except.error.inj (Step.finished.inj (hstep.symm.trans hcase))
        rw [(target_of_compose hc horAt.symm hfault).1, hq]
        rintro rfl
        exact hv hid
  case spliced =>
    intro r next result hnext ih hid
    obtain ⟨_, _, _, _, _, _, _, _, _, _, rfl⟩ := next_cases hnext
    exact ih (List.mem_cons_of_mem _ (r.visited_readAhead.symm ▸ hid))

/-- Where the path that is fetched for the first directive leads somewhere, the run does not end for
want of that file. -/
theorem ne_of_hasPath (ha : r.atoms = front ++ a :: t :: rest) (hf : DirectiveFree front)
    (hd : isDirective a = true)
    (hv : s.disk.identity (s.disk.includePath a.file t.text) ∉ r.visited) {q : Path}
    (hfetch : (r.readAhead.fetch (s.disk.identity (s.disk.includePath a.file t.text))
      (s.disk.includePath a.file t.text)).1 = s.compose q) (hq : s.disk.hasPath q = true)
    {e : SourceError} (h : r.run.result = .error (.source e)) (hfault : e.fault = .sourceNotFound) :
    s.disk.identity e.target ≠ s.disk.identity (s.disk.includePath a.file t.text) := by
  have hatoms := r.atoms_readAhead.trans ha
  rw [← r.visited_readAhead] at hv
  cases hc : s.compose q with
  | error f =>
    have hstep : r.step.1 = .finished (.error (f.orAt a)) :=
      replaceFirst_failed hf hd hatoms hv (hfetch.trans hc)
    rw [run_result, hstep] at h
    have hq' := (target_of_compose hc (Except.error.inj h) hfault).2
    rw [hq] at hq'
    cases hq'
  | ok included =>
    have hstep : r.step.1 = .spliced (r.readAhead.spliceAt front included rest _) :=
      replaceFirst_spliced hf hd hatoms hv (hfetch.trans hc)
    rw [run_result, hstep] at h
    exact ne_of_mem_visited List.mem_cons_self h hfault

theorem step_failed (hs : s.readsAhead = false) (hf : DirectiveFree front)
    (hd : isDirective a = true) {visited : List Path}
    (hv : s.disk.identity (s.disk.includePath a.file t.text) ∉ visited) {f : Failure}
    (hc : s.compose (s.disk.includePath a.file t.text) = .error f) :
    (plain s (front ++ a :: t :: rest) visited).step.1 = .finished (.error (f.orAt a)) := by
  rw [step_serial hs, replaceFirst_failed hf hd rfl hv ((fetch_plain _ visited _ _).trans hc)]

/-- Where that path leads nowhere, the run ends for want of the file. -/
theorem exists_notFound (ha : r.atoms = front ++ a :: t :: rest) (hf : DirectiveFree front)
    (hd : isDirective a = true)
    (hv : s.disk.identity (s.disk.includePath a.file t.text) ∉ r.visited) {q : Path}
    (hfetch : (r.readAhead.fetch (s.disk.identity (s.disk.includePath a.file t.text))
      (s.disk.includePath a.file t.text)).1 = s.compose q) (hq : s.disk.hasPath q = false) :
    ∃ why, r.run.result = .error (.source
      { fault := .sourceNotFound, file := a.file, line := a.line, target := q,
        cause := some why }) := by
  obtain ⟨why, hc⟩ := Source.compose_of_not_hasPath s.strict hq
  refine ⟨why, ?_⟩
  have hstep : r.step.1 = .finished (.error ((Source.notFound q why).orAt a)) :=
    replaceFirst_failed hf hd (r.atoms_readAhead.trans ha) (by rwa [r.visited_readAhead])
      (hfetch.trans hc)
  rw [run_result, hstep]
  rfl

end Resolution

end Include

end ForthFrontend
