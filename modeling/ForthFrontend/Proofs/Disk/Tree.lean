import ForthFrontend.Include.Resolve
import ForthFrontend.Proofs.Disk

/-!
# Writing changes one file

On a tree, whatever stands below an entry stands below a directory. Making a directory where a
cleaned path leads never hits a regular file: if the directory above it was missing, nothing stood
below that one either, and if it was there, the path itself would have been found. So the
directories made on the way to a file are the only other entries that a write adds. A write that is
refused leaves every regular file as it was; one that breaks off has emptied its file before.

## Main results

* `Disk.grows_makeDirectories`: making directories adds directories only.
* `Disk.write_cases`: what a write comes to.
* `Disk.content?_write_of_error`: a write that fails leaves every regular file as it was, unless it
  breaks off.
* `Disk.content?_write_of_ne`: a write changes no file but the one that its path names.
* `Disk.content?_write_self`: what a write leaves in that file.
-/

namespace ForthFrontend.Disk

/-- Every entry but the root stands in a directory. -/
structure IsTree (d : Disk) : Prop where
  parent : ∀ {l : Location}, l ≠ [] → d.lookup? l ≠ none → d.lookup? l.tail = some .directory

theorem isTree_of_entries {d : Disk}
    (hparent : ∀ x ∈ d.entries, d.lookup? x.1.tail = some .directory) : d.IsTree := by
  refine ⟨fun {l} hroot hsome => ?_⟩
  rw [lookup?, if_neg (by simpa using hroot)] at hsome
  obtain ⟨x, hx⟩ := Option.ne_none_iff_exists'.1 hsome
  obtain ⟨before, after, hentries, -⟩ := List.lookup_eq_some_iff.1 hx
  exact hparent (l, x) (by simp [hentries])

/-- The content of the regular file at a location. -/
def content? (d : Disk) (l : Location) : Option Bytes :=
  match d.lookup? l with
  | some (.file content) => some content
  | _ => none

/-- The tree `d'` has directories more than `d`. -/
structure Grows (d d' : Disk) : Prop where
  isTree : d'.IsTree
  workDir : d'.workDir = d.workDir
  flaw? : d'.flaw? = d.flaw?
  lookup? : ∀ l, d'.lookup? l = d.lookup? l ∨ d.lookup? l = none ∧ d'.lookup? l = some .directory

namespace Grows

variable {d d' d'' : Disk}

theorem refl (hd : d.IsTree) : Grows d d :=
  ⟨hd, rfl, rfl, fun _ => .inl rfl⟩

theorem trans (h : Grows d d') (h' : Grows d' d'') : Grows d d'' := by
  refine ⟨h'.isTree, h'.workDir.trans h.workDir, h'.flaw?.trans h.flaw?, fun l => ?_⟩
  rcases h'.lookup? l with heq | ⟨hnone, hdir⟩
  · rw [heq]
    exact h.lookup? l
  · rcases h.lookup? l with heq | ⟨hnone', -⟩
    · exact .inr ⟨heq ▸ hnone, hdir⟩
    · exact .inr ⟨hnone', hdir⟩

theorem start_eq (h : Grows d d') (p : Path) : d'.start p = d.start p := by
  rw [start, start, h.workDir]

theorem reaching_eq (h : Grows d d') (content : Bytes) :
    d'.reaching content = d.reaching content := by
  rw [reaching, reaching, h.flaw?]

theorem breach?_eq (h : Grows d d') (content : Bytes) :
    d'.breach? content = d.breach? content := by
  rw [breach?, breach?, h.flaw?]

theorem content? (h : Grows d d') (l : Location) : d'.content? l = d.content? l := by
  rcases h.lookup? l with heq | ⟨hnone, hdir⟩
  · rw [Disk.content?, Disk.content?, heq]
  · rw [Disk.content?, Disk.content?, hnone, hdir]

end Grows

/-! ### Walks -/

section Walks

variable {d : Disk} {l m : Location} {e : Bytes} {p : Path}

theorem enter_plain (he : Path.IsPlain e) (l : Location) : enter l e = e :: l := by
  simp [enter, he.1, he.2.1, he.2.2.1]

theorem step_eq_ok_iff : d.step l e = .ok m ↔ d.lookup? l = some .directory ∧
    e.length ≤ maxName ∧ d.lookup? (enter l e) ≠ none ∧ m = enter l e := by
  constructor
  · intro h
    have hm := step_eq_ok h
    unfold step at h
    split at h
    · next hdir =>
      split at h
      · cases h
      · next hlen =>
        split at h
        · cases h
        · next hsome => exact ⟨hdir, Nat.le_of_not_gt hlen, by simpa using hsome, hm⟩
    · cases h
    · cases h
  · rintro ⟨hdir, hlen, hsome, rfl⟩
    rw [step, hdir]
    simp only [gt_iff_lt, Nat.not_lt.2 hlen, ↓reduceIte, Option.isNone_iff_eq_none, hsome]

theorem find_eq_ok_iff {x : Entry} : d.find p = .ok x ↔ checkPath p = .ok () ∧
    ∃ l, p.elements.foldlM d.step (d.start p) = .ok l ∧ d.lookup? l = some x := by
  rw [find, locate]
  cases hcheck : checkPath p with
  | error c => simp [bind, Except.bind]
  | ok u =>
    cases hwalk : p.elements.foldlM d.step (d.start p) with
    | error c => simp [bind, Except.bind]
    | ok l =>
      cases hx : d.lookup? l <;> simp [bind, Except.bind, hx]

/-- Upwards a tree can be walked from any directory. -/
theorem exists_walk_parents (hd : d.IsTree) {names : List Bytes}
    (hup : ∀ e ∈ names, e = Path.parent) (hl : d.lookup? l = some .directory) :
    ∃ m, names.foldlM d.step l = .ok m ∧ d.lookup? m = some .directory := by
  induction names generalizing l with
  | nil => exact ⟨l, rfl, hl⟩
  | cons e names ih =>
    obtain ⟨rfl, hrest⟩ := List.forall_mem_cons.1 hup
    have htail : d.lookup? l.tail = some .directory := by
      by_cases hroot : l = []
      · rw [hroot]
        rfl
      · exact hd.parent hroot (by rw [hl]; simp)
    have hstep : d.step l Path.parent = .ok l.tail :=
      step_eq_ok_iff.2 ⟨hl, by decide, by simp [show enter l Path.parent = l.tail from rfl, htail],
        rfl⟩
    obtain ⟨m, hm, hdir⟩ := ih hrest htail
    refine ⟨m, ?_, hdir⟩
    rw [List.foldlM_cons, hstep]
    exact hm

end Walks

/-! ### Making directories -/

section Paths

open ForthFrontend.Path

variable {rooted : Bool} {e : Bytes} {below : List Bytes}

theorem afterLastSlash_ofStack (hstack : Settled rooted (e :: below)) :
    (ofStack rooted (e :: below)).afterLastSlash = e ∧
    (ofStack rooted (e :: below)).upToLastSlash.elements =
      lead rooted ++ below.reverse ++ [[]] := by
  obtain ⟨init, hup, hall⟩ := (ofStack rooted (e :: below)).elements_upToLastSlash
  rw [elements_ofStack hstack (List.cons_ne_nil _ _), List.reverse_cons, ← List.append_assoc]
    at hall
  obtain ⟨rfl, hlast⟩ := List.append_inj' hall rfl
  exact ⟨(List.cons.inj hlast).1.symm, hup⟩

theorem isPrefix_dropEndWhile (f : UInt8 → Bool) (s : Bytes) : Bytes.dropEndWhile f s <+: s := by
  rw [Bytes.dropEndWhile, ← List.reverse_suffix, List.reverse_reverse]
  exact List.dropWhile_suffix f

theorem isPrefix_parentPath (p : Path) : parentPath p <+: p := by
  have hfront : parentPath p <+: upToLastSlash (Bytes.dropEndWhile (· == Bytes.slash) p) :=
    List.dropLast_prefix _
  exact hfront.trans ((isPrefix_dropEndWhile _ _).trans (isPrefix_dropEndWhile _ p))

theorem getLast?_ofStack (hstack : Settled rooted (e :: below)) :
    ((ofStack rooted (e :: below)).getLast? == some Bytes.slash) = false := by
  obtain ⟨hne, hslash⟩ := hstack.ne_nil_and_slash_notMem e List.mem_cons_self
  rw [← upToLastSlash_append_afterLastSlash (ofStack rooted (e :: below)),
    (afterLastSlash_ofStack hstack).1, List.getLast?_append, beq_eq_false_iff_ne]
  intro hlast
  cases hb : e.getLast? with
  | none => exact hne (List.getLast?_eq_none_iff.1 hb)
  | some b =>
    rw [hb, Option.some_or] at hlast
    exact hslash (List.mem_of_getLast? (hb.trans hlast))

theorem parentPath_ofStack (hstack : Settled rooted (e :: below)) :
    parentPath (ofStack rooted (e :: below)) =
      if below.isEmpty then [] else ofStack rooted below := by
  have hparent : parentPath (ofStack rooted (e :: below)) =
      (ofStack rooted (e :: below)).upToLastSlash.dropLast :=
    congrArg (·.1.dropLast) (lastElement_eq (getLast?_ofStack hstack))
  rw [hparent, ← joinWith_elements (upToLastSlash _), (afterLastSlash_ofStack hstack).2]
  by_cases hbelow : below = []
  · subst hbelow
    cases rooted <;> rfl
  · rw [joinWith_concat_nil (slash_notMem_lead_append hstack.2) (by simp [hbelow]),
      List.dropLast_concat, ofStack]
    simp [hbelow]

end Paths

section Directories

open ForthFrontend.Path

variable {d d' : Disk} {l m : Location} {p : Path}

/-- Where a path that is not found can be created, nothing stands. -/
theorem lookup?_of_creationPoint (hslash : (p.getLast? == some Bytes.slash) = false)
    (hfree : ∀ x, d.find p ≠ .ok x) (hl : d.creationPoint p = .ok l) : d.lookup? l = none := by
  obtain ⟨hcheck, m, hwalk, hdir, hlen, rfl⟩ := creationPoint_eq_ok hl
  rw [lastElement_eq hslash] at hwalk hlen ⊢
  obtain ⟨init, hfront, hall⟩ := p.elements_upToLastSlash
  cases hx : d.lookup? (enter m p.afterLastSlash) with
  | none => rfl
  | some x =>
    -- the walk that creates the entry would have found it
    refine absurd (find_eq_ok_iff.2 ⟨hcheck, _, ?_, hx⟩) (hfree x)
    rw [hall, foldlM_step_concat, walk_of_concat_nil (hfront ▸ hwalk)]
    exact step_eq_ok_iff.2 ⟨hdir, hlen, by simp [hx], rfl⟩

theorem lookup?_put_directory (d : Disk) (l l' : Location) :
    (d.put l .directory).lookup? l' = if l' = l then some .directory else d.lookup? l' := by
  split
  · next heq =>
    subst heq
    by_cases hroot : l' = []
    · rw [hroot]
      rfl
    · exact lookup?_put_self hroot
  · next hne => exact lookup?_put_of_ne hne

theorem IsTree.lookup?_tail_enter (hd : d.IsTree) (hm : d.lookup? m = some .directory) (e : Bytes)
    (hroot : enter m e ≠ []) : d.lookup? (enter m e).tail = some .directory := by
  have hsome : d.lookup? m ≠ none := by simp [hm]
  revert hroot
  rw [enter]
  split
  · intro hroot
    exact hd.parent hroot hsome
  · split
    · intro hroot
      have hm' : m ≠ [] := by
        rintro rfl
        exact hroot rfl
      exact hd.parent hroot (by simp [hd.parent hm' hsome])
    · intro _
      exact hm

/-- A directory put where no regular file is makes the tree grow. -/
theorem grows_put_directory (hd : d.IsTree) (hm : d.lookup? m = some .directory) (e : Bytes)
    (hfile : ∀ content, d.lookup? (enter m e) ≠ some (.file content)) :
    Grows d (d.put (enter m e) .directory) := by
  refine ⟨⟨?_⟩, rfl, rfl, ?_⟩
  · intro l hroot hsome
    rw [lookup?_put_directory] at hsome ⊢
    split
    · rfl
    · -- the new directory stands where it was entered from, everything else where it stood
      by_cases hl : l = enter m e
      · rw [hl] at hroot ⊢
        exact hd.lookup?_tail_enter hm e hroot
      · rw [if_neg hl] at hsome
        exact hd.parent hroot hsome
  · intro l
    rw [lookup?_put_directory]
    split
    · next hl =>
      subst hl
      cases hx : d.lookup? (enter m e) with
      | none => exact .inr ⟨rfl, rfl⟩
      | some x =>
        cases x with
        | directory => exact .inl rfl
        | file content => exact absurd hx (hfile content)
    · exact .inl rfl

theorem grows_makeDirectory (hgrows : Grows d d')
    (hfree : ∀ l, d'.creationPoint p = .ok l → d.lookup? l = none) :
    Grows d (d'.makeDirectory p).disk := by
  rw [makeDirectory]
  split
  · next l hl =>
    obtain ⟨-, m, -, hdir, -, rfl⟩ := creationPoint_eq_ok hl
    refine hgrows.trans (grows_put_directory hgrows.isTree hdir _ fun content hfile => ?_)
    rcases hgrows.lookup? (enter m (lastElement p).2) with heq | ⟨-, hdir'⟩
    · rw [hfree _ hl, hfile] at heq
      cases heq
    · rw [hfile] at hdir'
      cases hdir'
  · exact hgrows

/-- The location at which the last element of a path is created is the one that the path names. -/
theorem creationPoint_eq_destination (hgrows : Grows d d')
    (hslash : (p.getLast? == some Bytes.slash) = false) (hl : d'.creationPoint p = .ok l) :
    l = d.destination p ∧ ∃ m, l = enter m p.afterLastSlash ∧
      p.upToLastSlash.elements.foldlM d'.step (d.start p) = .ok m := by
  obtain ⟨-, m, hwalk, -, -, rfl⟩ := creationPoint_eq_ok hl
  rw [lastElement_eq hslash, hgrows.start_eq] at hwalk
  rw [lastElement_eq hslash]
  obtain ⟨init, hfront, hall⟩ := p.elements_upToLastSlash
  refine ⟨?_, m, rfl, hwalk⟩
  rw [hfront] at hwalk
  rw [destination, hall, List.foldl_append, ← foldlM_step_eq_ok (walk_of_concat_nil hwalk)]
  rfl

/-- A path that only leads up is found, or is no path at all. -/
theorem checkPath_of_parents (hd : d.IsTree) (hstart : d.lookup? (d.start p) = some .directory)
    (hup : ∀ e ∈ p.elements, e = parent) (hfree : ∀ x, d.find p ≠ .ok x) :
    checkPath p ≠ .ok () := by
  intro hcheck
  obtain ⟨m, hwalk, hdir⟩ := exists_walk_parents hd hup hstart
  exact hfree _ (find_eq_ok_iff.2 ⟨hcheck, m, hwalk, hdir⟩)

theorem disk_makeDirectories_of_find {x : Entry} (h : d.find p = .ok x) :
    (d.makeDirectories p).disk = d := by
  rw [makeDirectories.eq_def, h]
  cases x <;> rfl

theorem disk_makeDirectory_of_start (hstart : d.lookup? (d.start p) ≠ some .directory) :
    (d.makeDirectory p).disk = d := by
  rw [makeDirectory]
  split
  · next l hl =>
    obtain ⟨-, m, hwalk, -⟩ := creationPoint_eq_ok hl
    obtain ⟨e, names, hfront⟩ := List.exists_cons_of_ne_nil (elements_ne_nil (lastElement p).1)
    rw [hfront, List.foldlM_cons] at hwalk
    cases hstep : d.step (d.start p) e with
    | error c =>
      rw [hstep] at hwalk
      cases hwalk
    | ok k => exact absurd (step_eq_ok_iff.1 hstep).1 hstart
  · rfl

theorem disk_makeDirectories_of_start (hstart : d.lookup? (d.start p) ≠ some .directory) :
    (d.makeDirectories p).disk = d := by
  fun_induction makeDirectories d p with
  | case1 => rfl
  | case2 => rfl
  | case3 p _ _ hparent ih =>
    have hfront : isAbsolute (parentPath p) = p.isAbsolute := by
      obtain ⟨rest, hrest⟩ := isPrefix_parentPath p
      rw [← isAbsolute_append (q := rest) (by simpa using hparent), hrest]
    have hc := ih (by rwa [start, hfront])
    rw [Change.andThen]
    split
    · exact hc
    · rw [hc]
      exact disk_makeDirectory_of_start hstart
  | case4 p => exact disk_makeDirectory_of_start hstart

/-- Nothing stood below a directory that was missing. -/
theorem lookup?_of_above (hd : d.IsTree) (hgrows : Grows d d') {rooted : Bool} {e : Bytes}
    {below : List Bytes} (hne : below ≠ []) (hplain : IsPlain e)
    (hstack : Settled rooted (e :: below))
    (hnone : d.lookup? (d.destination (ofStack rooted below)) = none)
    (hl : d'.creationPoint (ofStack rooted (e :: below)) = .ok l) : d.lookup? l = none := by
  obtain ⟨-, m, rfl, hwalk⟩ := creationPoint_eq_destination hgrows (getLast?_ofStack hstack) hl
  have hm : m = d.destination (ofStack rooted below) := by
    rw [(afterLastSlash_ofStack hstack).2] at hwalk
    rw [foldlM_step_eq_ok (walk_of_concat_nil hwalk), destination, elements_ofStack hstack.2 hne,
      start, start, isAbsolute_ofStack hstack, isAbsolute_ofStack hstack.2]
  rw [(afterLastSlash_ofStack hstack).1, enter_plain hplain]
  cases hx : d.lookup? (e :: m) with
  | none => rfl
  | some x =>
    have hdir := hd.parent (List.cons_ne_nil e m) (by simp [hx])
    rw [List.tail_cons, hm, hnone] at hdir
    cases hdir

theorem grows_andThen_makeDirectory {c : Change} (hgrows : Grows d c.disk)
    (hslash : (p.getLast? == some Bytes.slash) = false)
    (hfree : c.error? = none → ∀ l, c.disk.creationPoint p = .ok l → d.lookup? l = none) :
    Grows d (c.andThen (·.makeDirectory p)).disk ∧
    ((c.andThen (·.makeDirectory p)).error? = none → d.lookup? (d.destination p) = none) := by
  rw [Change.andThen]
  split
  · next hfailed =>
    refine ⟨hgrows, fun hnone => ?_⟩
    rw [hnone] at hfailed
    cases hfailed
  · next hnone =>
    have hnone : c.error? = none := by simpa using hnone
    refine ⟨grows_makeDirectory hgrows (hfree hnone), fun hmade => ?_⟩
    rw [makeDirectory] at hmade
    split at hmade
    · next l hl =>
      rw [← (creationPoint_eq_destination hgrows hslash hl).1]
      exact hfree hnone l hl
    · cases hmade

/-- **Making directories** adds directories only, and what was not found before was nowhere. -/
theorem grows_makeDirectories (hd : d.IsTree) {rooted : Bool} {stack : List Bytes}
    (hne : stack ≠ []) (hstack : Settled rooted stack)
    (hstart : d.lookup? (d.start (ofStack rooted stack)) = some .directory) :
    Grows d (d.makeDirectories (ofStack rooted stack)).disk ∧
    ((d.makeDirectories (ofStack rooted stack)).error? = none →
      (∀ x, d.find (ofStack rooted stack) ≠ .ok x) →
      d.lookup? (d.destination (ofStack rooted stack)) = none) := by
  -- the stack of the directory above is the rest of the stack
  induction stack with
  | nil => exact absurd rfl hne
  | cons e below ih =>
    have hend := getLast?_ofStack hstack
    have hstart' : d.lookup? (d.start (ofStack rooted below)) = some .directory := by
      rwa [start, isAbsolute_ofStack hstack.2, ← isAbsolute_ofStack hstack]
    have helements := elements_ofStack hstack (List.cons_ne_nil e below)
    have hparent := parentPath_ofStack hstack
    generalize hp : ofStack rooted (e :: below) = p at *
    rw [makeDirectories.eq_def]
    cases hfind : d.find p with
    | ok x =>
      cases x with
      | directory => exact ⟨.refl hd, fun _ hfree => absurd rfl (hfree _)⟩
      | file content => exact ⟨.refl hd, fun _ hfree => absurd rfl (hfree _)⟩
    | error cause =>
      have hfree : ∀ x, d.find p ≠ .ok x := by simp [hfind]
      by_cases hbelow : below = []
      · subst hbelow
        rw [dif_neg (by simp [hparent])]
        have := grows_andThen_makeDirectory (c := ⟨d, none⟩) (.refl hd) hend
          fun _ l hl => lookup?_of_creationPoint hend hfree hl
        exact ⟨this.1, fun hmade _ => this.2 hmade⟩
      · have hstep : below.isEmpty = false := by simpa using hbelow
        rw [hparent, hstep, if_neg (by decide),
          dif_pos (by simpa using ofStack_ne_nil hstack.2)]
        obtain ⟨hgrows, hnone⟩ := ih hbelow hstack.2 hstart'
        have := grows_andThen_makeDirectory hgrows hend fun hmade l hl => ?_
        · exact ⟨this.1, fun hmade _ => this.2 hmade⟩
        · rcases hstack.1 with hplain | ⟨rfl, hrooted, hall⟩
          · -- if the directory above was there, making it did nothing
            by_cases habove : ∃ x, d.find (ofStack rooted below) = .ok x
            · obtain ⟨x, hx⟩ := habove
              rw [disk_makeDirectories_of_find hx] at hl
              exact lookup?_of_creationPoint hend hfree hl
            · exact lookup?_of_above hd hgrows hbelow hplain hstack
                (hnone hmade (not_exists.1 habove)) (hp ▸ hl)
          · -- above a directory there is another one, so this path would have been found
            have hparents : ∀ x ∈ p.elements, x = parent := by
              rw [helements, hrooted]
              intro x hx
              rcases List.mem_cons.1 (List.mem_reverse.1 hx) with rfl | hx
              · rfl
              · exact hall x hx
            exact absurd (creationPoint_eq_ok hl).1
              (checkPath_of_parents hd hstart hparents hfree)

end Directories

/-! ### Writing -/

section Writing

variable {d : Disk} {p : Path} {content : Bytes}

theorem grows_makeWay (hd : d.IsTree) (p : Path) : Grows d (d.makeWay p).disk := by
  rw [makeWay]
  split
  · exact .refl hd
  · next hhere =>
    by_cases hstack : p.upToLastSlash.stack = []
    · -- the way to a file in the root
      have hroot : p.dir = [Bytes.slash] := by
        rw [beq_iff_eq, Path.dir, Path.clean_eq, hstack] at hhere
        rw [Path.dir, Path.clean_eq, hstack]
        cases habs : p.upToLastSlash.isAbsolute
        · rw [habs] at hhere
          exact absurd rfl hhere
        · rfl
      have hfound : d.find [Bytes.slash] = .ok .directory :=
        find_eq_ok_iff.2 ⟨rfl, [], rfl, rfl⟩
      rw [hroot, disk_makeDirectories_of_find hfound]
      exact .refl hd
    · rw [Path.dir, Path.clean_eq]
      by_cases hstart : d.lookup? (d.start (Path.ofStack p.upToLastSlash.isAbsolute
          p.upToLastSlash.stack)) = some .directory
      · exact (grows_makeDirectories hd hstack (Path.settled_stack _) hstart).1
      · rw [disk_makeDirectories_of_start hstart]
        exact .refl hd

/-- **What a write comes to**: it is refused and makes directories at most, or the file that the
path names is opened and takes what reaches it of the content. -/
theorem write_cases (hd : d.IsTree) (p : Path) (content : Bytes) (mode : Mode) :
    ((d.write p content mode).error? ≠ none ∧ Grows d (d.write p content mode).disk) ∨
    ∃ d' m, Grows d d' ∧ d'.lookup? m = some .directory ∧
      d.destination p = enter m p.afterLastSlash ∧
      d'.lookup? (d.destination p) ≠ some .directory ∧
      d.write p content mode =
        ⟨d'.put (d.destination p)
          (.file (mode.kept (d'.lookup? (d.destination p)) ++ d.reaching content)),
          (d.breach? content).map (·.error p)⟩ := by
  have hgrows := grows_makeWay hd p
  rw [write, Change.andThen]
  split
  · next hfailed => exact .inl ⟨Option.isSome_iff_ne_none.1 hfailed, hgrows⟩
  · obtain ⟨c, hrefused⟩ | ⟨l, hl, hslash, hfree, hopened⟩ :=
      (d.makeWay p).disk.overwrite_cases p content mode
    · rw [hrefused]
      exact .inl ⟨Option.some_ne_none _, hgrows⟩
    · obtain ⟨-, m, -, hdir, -, hlm⟩ := creationPoint_eq_ok hl
      rw [lastElement_eq hslash] at hlm
      obtain ⟨rfl, -⟩ := creationPoint_eq_destination hgrows hslash hl
      rw [hopened, hgrows.reaching_eq, hgrows.breach?_eq]
      exact .inr ⟨_, m, hgrows, hdir, hlm, hfree, rfl⟩

/-- A file put where no directory is, in a directory, leaves a tree. -/
theorem IsTree.put_file (hd : d.IsTree) {m : Location} (hm : d.lookup? m = some .directory)
    (e : Bytes) (hfree : d.lookup? (enter m e) ≠ some .directory) (content : Bytes) :
    (d.put (enter m e) (.file content)).IsTree := by
  refine ⟨fun {l} hroot hsome => ?_⟩
  have hparent : d.lookup? l.tail = some .directory := by
    by_cases hl : l = enter m e
    · rw [hl] at hroot ⊢
      exact hd.lookup?_tail_enter hm e hroot
    · rw [lookup?_put_of_ne hl] at hsome
      exact hd.parent hroot hsome
  have hne : l.tail ≠ enter m e := by
    intro heq
    rw [heq] at hparent
    exact hfree hparent
  rwa [lookup?_put_of_ne hne]

theorem isTree_write (hd : d.IsTree) (p : Path) (content : Bytes) (mode : Mode) :
    (d.write p content mode).disk.IsTree := by
  obtain ⟨-, hgrows⟩ | ⟨d', m, hgrows, hm, hdest, hfree, hwrite⟩ :=
    write_cases hd p content mode
  · exact hgrows.isTree
  · rw [hwrite]
    rw [hdest] at hfree ⊢
    exact hgrows.isTree.put_file hm _ hfree _

theorem destination_write (hd : d.IsTree) (p : Path) (content : Bytes) (mode : Mode) (q : Path) :
    (d.write p content mode).disk.destination q = d.destination q := by
  have hworkDir : (d.write p content mode).disk.workDir = d.workDir := by
    obtain ⟨-, hgrows⟩ | ⟨d', m, hgrows, -, -, -, hwrite⟩ := write_cases hd p content mode
    · exact hgrows.workDir
    · rw [hwrite]
      exact hgrows.workDir
  rw [destination, destination, start, start, hworkDir]

/-- **A write that fails** leaves every regular file as it was, unless it breaks off: then the file
that its path names has changed. -/
theorem content?_write_of_error (hd : d.IsTree) {mode : Mode} {e : DiskError}
    (h : (d.write p content mode).error? = some e) {l : Location}
    (hl : l = d.destination p → ∀ f, d.flaw? = some f → e ≠ f.error p) :
    (d.write p content mode).disk.content? l = d.content? l := by
  obtain ⟨-, hgrows⟩ | ⟨d', m, hgrows, -, -, -, hwrite⟩ := write_cases hd p content mode
  · exact hgrows.content? l
  · rw [hwrite] at h ⊢
    obtain ⟨f, hf, rfl⟩ := Option.map_eq_some_iff.1 h
    obtain ⟨hflaw, -⟩ := Option.filter_eq_some_iff.1 hf
    have hne : l ≠ d.destination p := fun heq => hl heq f hflaw rfl
    rw [← hgrows.content? l, content?, content?, lookup?_put_of_ne hne]

/-- **A write changes no other file** than the one that its path names. -/
theorem content?_write_of_ne (hd : d.IsTree) {mode : Mode} {l : Location}
    (hl : l ≠ d.destination p) : (d.write p content mode).disk.content? l = d.content? l := by
  obtain ⟨-, hgrows⟩ | ⟨d', m, hgrows, -, -, -, hwrite⟩ := write_cases hd p content mode
  · exact hgrows.content? l
  · rw [hwrite, ← hgrows.content? l, content?, content?, lookup?_put_of_ne hl]

/-- **A write that succeeds** puts the content where its path leads. -/
theorem content?_write_self (hd : d.IsTree) (h : (d.write p content).error? = none) :
    (d.write p content).disk.content? (d.destination p) = some content := by
  obtain ⟨herror, -⟩ | ⟨d', m, -, -, -, hfree, hwrite⟩ := write_cases hd p content .replace
  · exact absurd h herror
  · have hroot : d.destination p ≠ [] := by
      intro hnil
      rw [hnil] at hfree
      exact hfree rfl
    rw [hwrite] at h ⊢
    have hnone : d.breach? content = none := Option.map_eq_none_iff.1 h
    rw [content?, lookup?_put_self hroot, reaching_of_breach?_eq_none hnone]
    rfl

end Writing

end ForthFrontend.Disk
