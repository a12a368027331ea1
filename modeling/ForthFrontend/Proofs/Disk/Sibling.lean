import ForthFrontend.Include.Resolve
import ForthFrontend.Proofs.Disk.Tree

/-!
# Siblings of a file

A path and its cleaned form lead to the same entry, because a walk that goes down and up again comes
back to where it was. So a file that stands next to another one is found under its name seen from
the directory of the other.

Disks that differ in the content of one file have the same walks, and the same files elsewhere.

## Main results

* `Disk.locate_clean`: a cleaned path leads where the path leads.
* `Disk.locate_sibling`: a file is found under its name seen from the directory of its sibling.
* `Disk.Replaces.includePath_eq`, `Disk.Replaces.openFile_eq`: what a new content of one file keeps.
-/

namespace ForthFrontend.Disk

open ForthFrontend.Path

/-! ### Cleaned paths -/

section Clean

variable {d : Disk} {s l m : Location} {rooted : Bool} {stack : List Bytes}

/-- A walk along a stack, continued by one element, is a walk along the stack with the element
pushed. -/
theorem walk_push (hstack : Settled rooted stack) (hroot : rooted = true → s = [])
    (hwalk : stack.reverse.foldlM d.step s = .ok l) {e : Bytes} (hstep : d.step l e = .ok m) :
    (push rooted stack e).reverse.foldlM d.step s = .ok m := by
  have hm := step_eq_ok hstep
  have hcons : (stack.reverse ++ [e]).foldlM d.step s = .ok m := by
    rw [foldlM_step_concat, hwalk]
    exact hstep
  obtain ⟨rfl | rfl, hpush⟩ | ⟨he, hpush⟩ | ⟨rfl, rfl, hrooted, hpush⟩ |
    ⟨rfl, top, below, rfl, htop, hpush⟩ | ⟨rfl, -, hpush⟩ := push_cases rooted stack e <;>
      rw [hpush]
  · rw [hm]
    exact hwalk
  · rw [hm]
    exact hwalk
  · rw [List.reverse_cons]
    exact hcons
  · obtain rfl := hroot hrooted
    obtain rfl : l = [] := (Except.ok.inj hwalk).symm
    rw [hm]
    rfl
  · -- the element below led down to where the walk is now
    have hplain : IsPlain top := hstack.1.resolve_right fun hup => htop hup.1
    rw [List.reverse_cons, foldlM_step_concat] at hwalk
    cases hbelow : below.reverse.foldlM d.step s with
    | error c =>
      rw [hbelow] at hwalk
      cases hwalk
    | ok k =>
      rw [hbelow] at hwalk
      rw [hm, step_eq_ok hwalk, enter_plain hplain]
      rfl
  · rw [List.reverse_cons]
    exact hcons

theorem walk_foldl_push {names : List Bytes} (hstack : Settled rooted stack)
    (hroot : rooted = true → s = []) (hwalk : stack.reverse.foldlM d.step s = .ok l)
    (hslash : ∀ e ∈ names, Bytes.slash ∉ e) (hnames : names.foldlM d.step l = .ok m) :
    (names.foldl (push rooted) stack).reverse.foldlM d.step s = .ok m := by
  induction names generalizing stack l with
  | nil =>
    obtain rfl := Except.ok.inj hnames
    exact hwalk
  | cons e names ih =>
    obtain ⟨he, hslash⟩ := List.forall_mem_cons.1 hslash
    rw [List.foldlM_cons] at hnames
    cases hstep : d.step l e with
    | error c =>
      rw [hstep] at hnames
      cases hnames
    | ok k =>
      rw [hstep] at hnames
      exact ih (hstack.push he) (walk_push hstack hroot hwalk hstep) hslash hnames

theorem checkPath_eq_ok_iff {p : Path} :
    checkPath p = .ok () ↔ 0 ∉ p ∧ p ≠ [] ∧ p.length < maxPath := by
  rw [checkPath]
  by_cases hzero : 0 ∈ p
  · simp [hzero]
  · by_cases hnil : p = []
    · simp [hnil]
    · by_cases hlen : p.length < maxPath
      · simp [hzero, hnil, hlen]
      · simp [hzero, hnil, hlen]

theorem locate_eq_ok_iff {p : Path} : d.locate p = .ok l ↔
    checkPath p = .ok () ∧ p.elements.foldlM d.step (d.start p) = .ok l := by
  rw [locate]
  cases hcheck : checkPath p with
  | error c => simp [bind, Except.bind]
  | ok u => simp [bind, Except.bind]

/-- **A cleaned path leads where the path leads**, unless nothing is left of it. -/
theorem locate_clean {p : Path} (hne : p.stack ≠ []) (h : d.locate p = .ok l) :
    d.locate p.clean = .ok l := by
  obtain ⟨hcheck, hwalk⟩ := locate_eq_ok_iff.1 h
  obtain ⟨hzero, hnil, hlen⟩ := checkPath_eq_ok_iff.1 hcheck
  refine locate_eq_ok_iff.2 ⟨checkPath_eq_ok_iff.2 ⟨fun hmem => ?_, p.clean_ne_nil,
    Nat.lt_of_le_of_lt (length_clean_le hnil) hlen⟩, ?_⟩
  · rcases mem_of_mem_clean hmem with hb | hb | hb
    · cases hb
    · cases hb
    · exact hzero hb
  · have hstart : d.start p.clean = d.start p := by rw [start, start, isAbsolute_clean]
    have hroot : p.isAbsolute = true → d.start p = [] := by
      intro habs
      rw [start, habs]
      rfl
    -- the empty element in front of an absolute path does not lead away from the root
    have hlead : (lead p.isAbsolute).foldlM d.step (d.start p) = .ok (d.start p) := by
      cases habs : p.isAbsolute with
      | false => rfl
      | true =>
        rw [hroot habs]
        rfl
    rw [hstart, elements_clean hne, List.foldlM_append, hlead]
    exact walk_foldl_push (show Settled p.isAbsolute [] from trivial) hroot rfl
      (fun _ => slash_notMem_of_mem_elements) hwalk

end Clean

/-! ### Siblings -/

section Sibling

variable {d : Disk} {p : Path} {l : Location} {content : Bytes}

theorem read_eq_ok_iff : d.read p = .ok content ↔
    ∃ l, d.locate p = .ok l ∧ d.lookup? l = some (.file content) := by
  have hfind : d.read p = .ok content ↔ d.find p = .ok (.file content) := by
    rw [read, openFile]
    cases d.find p with
    | error c => constructor <;> intro h <;> cases h
    | ok x =>
      cases x with
      | directory => constructor <;> intro h <;> cases h
      | file content' =>
        show Except.ok content' = Except.ok content ↔ _
        simp
  rw [hfind, find_eq_ok_iff]
  simp only [locate_eq_ok_iff, and_assoc, exists_and_left]

theorem exists_walk_upToLastSlash (h : d.locate p = .ok l) : ∃ init m,
    (∀ x, Bytes.slash ∉ x → elements (p.upToLastSlash ++ x) = init ++ [x]) ∧
    init.foldlM d.step (d.start p) = .ok m ∧ d.step m p.afterLastSlash = .ok l := by
  obtain ⟨-, hwalk⟩ := locate_eq_ok_iff.1 h
  obtain ⟨init, hinit⟩ := p.exists_elements_upToLastSlash_append
  have hall := hinit _ p.slash_notMem_afterLastSlash
  rw [upToLastSlash_append_afterLastSlash] at hall
  rw [hall, foldlM_step_concat] at hwalk
  cases hm : init.foldlM d.step (d.start p) with
  | error c =>
    rw [hm] at hwalk
    cases hwalk
  | ok m =>
    rw [hm] at hwalk
    exact ⟨init, m, hinit, hm, hwalk⟩

theorem checkPath_upToLastSlash_append {x : Bytes} (hp : checkPath p = .ok ()) (hne : x ≠ [])
    (hzero : 0 ∉ x) (hlen : x.length ≤ p.afterLastSlash.length) :
    checkPath (p.upToLastSlash ++ x) = .ok () := by
  obtain ⟨hzero', -, hlen'⟩ := checkPath_eq_ok_iff.1 hp
  rw [← upToLastSlash_append_afterLastSlash p, List.mem_append, not_or] at hzero'
  rw [← upToLastSlash_append_afterLastSlash p, List.length_append] at hlen'
  refine checkPath_eq_ok_iff.2 ⟨?_, by simp [hne], ?_⟩
  · rw [List.mem_append, not_or]
    exact ⟨hzero'.1, hzero⟩
  · rw [List.length_append]
    omega

/-- An entry next to a file is found under its name seen from the directory of the file. -/
theorem locate_sibling {x : Bytes} (hp : d.read p = .ok content)
    (hname : IsPlain p.afterLastSlash) (hplain : IsPlain x) (hzero : 0 ∉ x)
    (hlen : x.length ≤ p.afterLastSlash.length)
    (hx : d.lookup? (x :: (d.destination p).tail) ≠ none) :
    d.locate (join p.dir x) = .ok (x :: (d.destination p).tail) := by
  obtain ⟨l, hl, -⟩ := read_eq_ok_iff.1 hp
  obtain ⟨init, m, hinit, hwalk, hstep⟩ := exists_walk_upToLastSlash hl
  obtain ⟨hdir, hshort, -, hm⟩ := step_eq_ok_iff.1 hstep
  have htail : (d.destination p).tail = m := by
    rw [← locate_eq_ok hl, hm, enter_plain hname]
    rfl
  have hstart : d.start (p.upToLastSlash ++ x) = d.start p := by
    rw [start, start, isAbsolute_upToLastSlash_append hplain.2.2.2,
      ← isAbsolute_upToLastSlash_append p.slash_notMem_afterLastSlash,
      upToLastSlash_append_afterLastSlash]
  rw [htail] at hx ⊢
  -- the walk to the file, with another last step
  have hsibling : d.step m x = .ok (x :: m) :=
    step_eq_ok_iff.2 ⟨hdir, Nat.le_trans hlen hshort, by rwa [enter_plain hplain],
      (enter_plain hplain m).symm⟩
  have hlocate : d.locate (p.upToLastSlash ++ x) = .ok (x :: m) := by
    refine locate_eq_ok_iff.2 ⟨checkPath_upToLastSlash_append (locate_eq_ok_iff.1 hl).1 hplain.1
      hzero hlen, ?_⟩
    rw [hinit x hplain.2.2.2, hstart, foldlM_step_concat, hwalk]
    exact hsibling
  have hne : stack (p.upToLastSlash ++ x) ≠ [] := by
    rw [stack_upToLastSlash_append hplain]
    exact List.cons_ne_nil _ _
  rw [join_dir hplain]
  exact locate_clean hne hlocate

theorem destination_eq_cons (hname : IsPlain p.afterLastSlash) :
    d.destination p = p.afterLastSlash :: (d.destination p).tail := by
  obtain ⟨init, -, hall⟩ := p.elements_upToLastSlash
  rw [destination, hall, List.foldl_append]
  simp only [List.foldl_cons, List.foldl_nil, enter_plain hname, List.tail_cons]

theorem eq_of_path_cons_eq {x y : Bytes} (h : Location.path (x :: l) = Location.path (y :: l)) :
    x = y := by
  obtain ⟨front, hfront⟩ := exists_joinWith_concat l.reverse
  rw [Location.path, Location.path, List.reverse_cons, List.reverse_cons, hfront, hfront] at h
  exact List.append_cancel_left (List.cons.inj h).2

end Sibling

/-! ### One file with another content -/

/-- The disk `d'` differs from `d` in one file, which has the given content. -/
structure Replaces (d d' : Disk) (p : Path) (content : Bytes) : Prop where
  workDir : d'.workDir = d.workDir
  lookup? : ∀ l, l ≠ d.destination p → d'.lookup? l = d.lookup? l
  read : d'.read p = .ok content

namespace Replaces

variable {d d' : Disk} {p : Path} {content content' : Bytes}

theorem put (hp : d.read p = .ok content) (content' : Bytes) :
    Replaces d (d.put (d.destination p) (.file content')) p content' := by
  obtain ⟨l, hl, hfile⟩ := read_eq_ok_iff.1 hp
  obtain ⟨hcheck, hwalk⟩ := locate_eq_ok_iff.1 hl
  rw [← locate_eq_ok hl]
  have hroot : l ≠ [] := by
    rintro rfl
    cases hfile
  refine ⟨rfl, fun l' hl' => lookup?_put_of_ne (by rwa [← locate_eq_ok hl] at hl'),
    read_eq_ok_iff.2 ⟨l, ?_, lookup?_put_self hroot⟩⟩
  exact locate_eq_ok_iff.2 ⟨hcheck, foldlM_step_put (by simp [hfile]) hwalk⟩

theorem destination_eq (h : Replaces d d' p content) (q : Path) :
    d'.destination q = d.destination q := by
  rw [destination, destination, start, start, h.workDir]

/-- Of two contents, each can be taken for the other. -/
theorem symm_trans (h : Replaces d d' p content) {d'' : Disk} (h' : Replaces d d'' p content') :
    Replaces d' d'' p content' := by
  refine ⟨h'.workDir.trans h.workDir.symm, fun l hl => ?_, h'.read⟩
  rw [h.destination_eq] at hl
  rw [h'.lookup? l hl, h.lookup? l hl]

theorem identity_eq (h : Replaces d d' p content) (q : Path) : d'.identity q = d.identity q := by
  rw [identity, identity, h.destination_eq]

theorem lookup?_destination (h : Replaces d d' p content) :
    d'.lookup? (d.destination p) = some (.file content) := by
  obtain ⟨l, hl, hfile⟩ := read_eq_ok_iff.1 h.read
  rwa [locate_eq_ok hl, h.destination_eq] at hfile

theorem step_eq (h : Replaces d d' p content) (hp : d.read p = .ok content') :
    d'.step = d.step := by
  have hself : Replaces d d p content' := ⟨rfl, fun _ _ => rfl, hp⟩
  funext l e
  have hnone : (d'.lookup? (enter l e)).isNone = (d.lookup? (enter l e)).isNone := by
    by_cases hl : enter l e = d.destination p
    · rw [hl, h.lookup?_destination, hself.lookup?_destination]
      rfl
    · rw [h.lookup? _ hl]
  rw [step, step, hnone]
  by_cases hl : l = d.destination p
  · rw [hl, h.lookup?_destination, hself.lookup?_destination]
  · rw [h.lookup? _ hl]

theorem locate_eq (h : Replaces d d' p content) (hp : d.read p = .ok content') (q : Path) :
    d'.locate q = d.locate q := by
  rw [locate, locate, h.step_eq hp, start, start, h.workDir]

theorem hasPath_eq (h : Replaces d d' p content) (hp : d.read p = .ok content') (q : Path) :
    d'.hasPath q = d.hasPath q := by
  have hself : Replaces d d p content' := ⟨rfl, fun _ _ => rfl, hp⟩
  rw [hasPath, hasPath, find, find, h.locate_eq hp]
  cases hl : d.locate q with
  | error c => rfl
  | ok l =>
    simp only [bind, Except.bind]
    by_cases hp' : l = d.destination p
    · rw [hp', h.lookup?_destination, hself.lookup?_destination]
      rfl
    · rw [h.lookup? l hp']

theorem includePath_eq (h : Replaces d d' p content) (hp : d.read p = .ok content')
    (source target : Path) : d'.includePath source target = d.includePath source target := by
  rw [includePath, includePath]
  simp only [h.hasPath_eq hp]

theorem openFile_eq (h : Replaces d d' p content) (hp : d.read p = .ok content') {q : Path}
    (hq : d.identity q ≠ d.identity p) : d'.openFile q = d.openFile q := by
  have hne : d.destination q ≠ d.destination p := by
    intro heq
    exact hq (congrArg Location.path heq)
  rw [openFile, openFile, find, find, h.locate_eq hp]
  cases hl : d.locate q with
  | error c => rfl
  | ok l =>
    rw [← locate_eq_ok hl] at hne
    simp only [bind, Except.bind, h.lookup? l hne]

end Replaces

end ForthFrontend.Disk
