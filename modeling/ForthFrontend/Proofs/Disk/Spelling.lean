import ForthFrontend.Proofs.Disk.Identity

/-!
# Spellings of a path

One entry has many paths. They all name its location, but not all of them lead there: a path through
a directory that is missing leads nowhere, even where `..` goes back at once. A cleaned path has no
such detours, so it leads wherever it names something.

The file that a name means next to another file is looked for under a cleaned path. So it depends on
where the other file is, and not on the path that led there.

## Main definitions

* `Disk.IsSound`: a tree with proper names and a working directory.
* `Disk.Alike`: two paths that name one location, and both lead there or both lead nowhere.

## Main results

* `Disk.hasPath_clean_iff`: a cleaned path that is not too long leads wherever something is.
* `Disk.alike_includePath`: what a name means next to a file does not depend on the path of the
  file.
-/

namespace ForthFrontend.Disk

open ForthFrontend.Path

/-- A tree in which every entry has a proper name, and relative paths start from a directory. -/
structure IsSound (d : Disk) : Prop extends IsTree d where
  workDir : d.lookup? d.workDir = some .directory
  names : ∀ {l : Location}, d.lookup? l ≠ none →
    ∀ e ∈ l, IsPlain e ∧ (0 : UInt8) ∉ e ∧ e.length ≤ maxName

theorem isSound_of_entries {d : Disk}
    (hparent : ∀ x ∈ d.entries, d.lookup? x.1.tail = some .directory)
    (hworkDir : d.lookup? d.workDir = some .directory)
    (hnames : ∀ x ∈ d.entries, ∀ e ∈ x.1, IsPlain e ∧ (0 : UInt8) ∉ e ∧ e.length ≤ maxName) :
    d.IsSound := by
  refine { isTree_of_entries hparent with workDir := hworkDir, names := fun {l} hl e he => ?_ }
  have hroot : l ≠ [] := List.ne_nil_of_mem he
  rw [lookup?, if_neg (by simpa using hroot)] at hl
  obtain ⟨x, hx⟩ := Option.ne_none_iff_exists'.1 hl
  obtain ⟨before, after, hentries, -⟩ := List.lookup_eq_some_iff.1 hx
  exact hnames (l, x) (by simp [hentries]) e he

theorem IsSound.hasCleanWorkDir {d : Disk} (hd : d.IsSound) : d.HasCleanWorkDir :=
  fun e he => (hd.names (by simp [hd.workDir]) e he).1

/-! ### Cleaned paths -/

section Clean

variable {d : Disk} {s : Location} {rooted : Bool} {stack : List Bytes}

/-- A walk along a settled stack comes to whatever the stack names. -/
theorem walk_stack (hd : d.IsSound) (hstack : Settled rooted stack)
    (hs : d.lookup? s = some .directory)
    (hsome : d.lookup? (stack.reverse.foldl enter s) ≠ none) :
    stack.reverse.foldlM d.step s = .ok (stack.reverse.foldl enter s) ∧
      ∀ e ∈ stack, (0 : UInt8) ∉ e := by
  induction stack with
  | nil => exact ⟨rfl, by simp⟩
  | cons e below ih =>
    obtain ⟨hplain | ⟨rfl, -, hup⟩, hbelow⟩ := hstack
    · rw [List.reverse_cons, List.foldl_append, List.foldl_cons, List.foldl_nil,
        enter_plain hplain] at hsome ⊢
      have hdir := hd.parent (List.cons_ne_nil _ _) hsome
      rw [List.tail_cons] at hdir
      obtain ⟨hwalk, hzero⟩ := ih hbelow (by rw [hdir]; simp)
      obtain ⟨-, hzero', hlen⟩ := hd.names hsome e List.mem_cons_self
      refine ⟨?_, List.forall_mem_cons.2 ⟨hzero', hzero⟩⟩
      rw [foldlM_step_concat, hwalk]
      exact step_eq_ok_iff.2 ⟨hdir, hlen, by rwa [enter_plain hplain], (enter_plain hplain _).symm⟩
    · -- all that is left leads up
      have hall : ∀ e ∈ parent :: below, e = parent := List.forall_mem_cons.2 ⟨rfl, hup⟩
      obtain ⟨m, hwalk, -⟩ := exists_walk_parents hd.toIsTree
        (fun e he => hall e (List.mem_reverse.1 he)) hs
      refine ⟨hwalk.trans (congrArg _ (foldlM_step_eq_ok hwalk)), fun e he => ?_⟩
      rw [hall e he]
      decide

theorem lookup?_start (hd : d.IsSound) (p : Path) : d.lookup? (d.start p) = some .directory := by
  rw [start]
  split
  · rfl
  · exact hd.workDir

theorem hasPath_iff {p : Path} : d.hasPath p = true ↔
    d.locate p = .ok (d.destination p) ∧ d.lookup? (d.destination p) ≠ none := by
  rw [hasPath, find]
  cases hl : d.locate p with
  | error c => simp [bind, Except.bind, Except.isOk, Except.toBool]
  | ok l =>
    obtain rfl := locate_eq_ok hl
    cases hx : d.lookup? (d.destination p) <;>
      simp [bind, Except.bind, hx, Except.isOk, Except.toBool]

theorem notMem_clean {p : Path} {b : UInt8} (hslash : b ≠ Bytes.slash) (hdot : b ≠ Bytes.dot)
    (h : ∀ e ∈ p.stack, b ∉ e) : b ∉ p.clean := by
  intro hb
  rw [clean_eq, ofStack] at hb
  split at hb
  · split at hb
    · exact hslash (List.mem_singleton.1 hb)
    · exact hdot (List.mem_singleton.1 hb)
  · obtain hb | ⟨e, he, hb⟩ := mem_joinWith hb
    · exact hslash hb
    · rcases List.mem_append.1 he with he | he
      · cases hrooted : p.isAbsolute <;> simp_all [lead]
      · exact h e (List.mem_reverse.1 he) hb

/-- The walk along a cleaned path is the walk along what is left of the path. -/
theorem foldlM_elements_clean (hd : d.IsSound) (p : Path) :
    p.clean.elements.foldlM d.step (d.start p) =
      p.stack.reverse.foldlM d.step (d.start p) := by
  have hstart := lookup?_start hd p
  have hstay : ∀ e, enter (d.start p) e = d.start p → e.length ≤ maxName →
      d.step (d.start p) e = .ok (d.start p) := by
    intro e henter hlen
    exact step_eq_ok_iff.2 ⟨hstart, hlen, by rw [henter, hstart]; simp, henter.symm⟩
  by_cases hne : p.stack = []
  · -- nothing is left but the place where the path starts
    rw [clean_eq, hne]
    cases p.isAbsolute with
    | true =>
      show [[], []].foldlM d.step (d.start p) = .ok (d.start p)
      simp only [List.foldlM_cons, List.foldlM_nil, hstay [] rfl (by decide), bind, Except.bind,
        pure, Except.pure]
    | false =>
      show [here].foldlM d.step (d.start p) = .ok (d.start p)
      simp only [List.foldlM_cons, List.foldlM_nil, hstay here rfl (by decide), bind, Except.bind,
        pure, Except.pure]
  · rw [elements_clean hne, List.foldlM_append]
    cases p.isAbsolute with
    | true =>
      show (d.step (d.start p) [] >>= pure) >>= _ = _
      rw [hstay [] rfl (by decide)]
      rfl
    | false => rfl

/-- **A cleaned path leads wherever something is**, unless it is too long. -/
theorem hasPath_clean_iff (hd : d.IsSound) {p : Path} (hlen : p.clean.length < maxPath) :
    d.hasPath p.clean = true ↔ d.lookup? (d.destination p) ≠ none := by
  rw [hasPath_iff, destination_clean]
  refine ⟨fun h => h.2, fun hsome => ⟨?_, hsome⟩⟩
  rw [destination_eq_stack] at hsome ⊢
  obtain ⟨hwalk, hzero⟩ := walk_stack hd p.settled_stack (lookup?_start hd p) hsome
  have hstart : d.start p.clean = d.start p := by rw [start, start, isAbsolute_clean]
  refine locate_eq_ok_iff.2 ⟨checkPath_eq_ok_iff.2 ⟨?_, p.clean_ne_nil, hlen⟩, ?_⟩
  · exact notMem_clean (by decide) (by decide) hzero
  · rw [hstart, foldlM_elements_clean hd]
    exact hwalk

end Clean

/-! ### Files next to a file -/

section Beside

variable {d : Disk} {p q : Path}

/-- The path of a regular file ends with a name. -/
theorem isPlain_afterLastSlash (hd : d.IsTree) {content : Bytes} (h : d.read p = .ok content) :
    IsPlain p.afterLastSlash := by
  obtain ⟨l, hl, hfile⟩ := read_eq_ok_iff.1 h
  obtain ⟨init, m, -, -, hstep⟩ := exists_walk_upToLastSlash hl
  obtain ⟨hdir, -, -, rfl⟩ := step_eq_ok_iff.1 hstep
  refine ⟨?_, ?_, ?_, p.slash_notMem_afterLastSlash⟩
  · intro hname
    rw [hname, show enter m [] = m from rfl, hdir] at hfile
    cases hfile
  · intro hname
    rw [hname, show enter m here = m from rfl, hdir] at hfile
    cases hfile
  · intro hname
    rw [hname, show enter m parent = m.tail from rfl] at hfile
    have htail : d.lookup? m.tail = some .directory := by
      by_cases hroot : m = []
      · rw [hroot]
        rfl
      · exact hd.parent hroot (by simp [hdir])
    rw [htail] at hfile
    cases hfile

theorem destination_dir (hname : IsPlain p.afterLastSlash) :
    d.destination p.dir = (d.destination p).tail := by
  obtain ⟨init, hfront, hall⟩ := p.elements_upToLastSlash
  have hstart : d.start p.upToLastSlash = d.start p := by
    rw [start, start, ← isAbsolute_upToLastSlash_append p.slash_notMem_afterLastSlash,
      upToLastSlash_append_afterLastSlash]
  rw [dir, destination_clean, destination, destination, hfront, hall, hstart, List.foldl_append,
    List.foldl_append, List.foldl_cons, List.foldl_cons, List.foldl_nil, List.foldl_nil,
    enter_plain hname]
  rfl

theorem join_dir_eq (p t : Path) : join p.dir t = clean (p.dir ++ Bytes.slash :: t) := by
  have hne : p.dir ≠ [] := clean_ne_nil _
  rw [join, if_neg (by simpa using hne)]

/-- What a name means seen from the directory of a file depends on where the file is. -/
theorem destination_join_dir (hname : IsPlain p.afterLastSlash) (t : Path) :
    d.destination (join p.dir t) = t.elements.foldl enter (d.destination p).tail := by
  have hne : p.dir ≠ [] := clean_ne_nil _
  rw [join_dir_eq, destination_clean, destination, elements_append_slash, List.foldl_append, start,
    isAbsolute_append hne, ← destination_dir hname]
  rfl

/-- The two paths name one location, and both lead there or both lead nowhere. -/
structure Alike (d : Disk) (p q : Path) : Prop where
  destination_eq : d.destination p = d.destination q
  hasPath_eq : d.hasPath p = d.hasPath q

theorem Alike.refl (d : Disk) (p : Path) : d.Alike p p :=
  ⟨rfl, rfl⟩

theorem Alike.identity_eq (h : d.Alike p q) : d.identity p = d.identity q :=
  congrArg Location.path h.destination_eq

theorem hasPath_join_dir_iff (hd : d.IsSound) (hname : IsPlain p.afterLastSlash) {t : Path}
    (hlen : (join p.dir t).length < maxPath) : d.hasPath (join p.dir t) = true ↔
      d.lookup? (t.elements.foldl enter (d.destination p).tail) ≠ none := by
  rw [← destination_join_dir hname, join_dir_eq, destination_clean]
  rw [join_dir_eq] at hlen
  exact hasPath_clean_iff hd hlen

/-- **What a name means next to a file** does not depend on the path that led to the file, as long
as no path on the way gets too long. -/
theorem alike_includePath (hd : d.IsSound) (hp : IsPlain p.afterLastSlash)
    (hq : IsPlain q.afterLastSlash) (heq : d.destination p = d.destination q) {t : Path}
    (hplen : t.isAbsolute = false → (join p.dir t).length < maxPath)
    (hqlen : t.isAbsolute = false → (join q.dir t).length < maxPath) :
    d.Alike (d.includePath p t) (d.includePath q t) := by
  rw [includePath, includePath]
  cases habs : t.isAbsolute with
  | true => exact .refl d t
  | false =>
    have hiff : d.hasPath (join p.dir t) = true ↔ d.hasPath (join q.dir t) = true := by
      rw [hasPath_join_dir_iff hd hp (hplen habs), hasPath_join_dir_iff hd hq (hqlen habs), heq]
    simp only [Bool.false_eq_true, ↓reduceIte]
    by_cases hhas : d.hasPath (join p.dir t) = true
    · have hhas' := hiff.1 hhas
      rw [if_pos hhas, if_pos hhas']
      refine ⟨?_, hhas.trans hhas'.symm⟩
      rw [destination_join_dir hp, destination_join_dir hq, heq]
    · rw [if_neg hhas, if_neg (mt hiff.2 hhas)]
      exact .refl d t

end Beside

end ForthFrontend.Disk
