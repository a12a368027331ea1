import ForthFrontend.Proofs.Disk.Sibling

/-!
# Identities of files

The identity of a path is found without looking at the disk: the path is made absolute and cleaned.
It names the location that the path names. A walk along the path can only end at the location that
the path names, so two paths that lead somewhere lead to one entry exactly if they have one
identity. Here `..` at the root stays at the root, as it does on the disk.

## Main definitions

* `Disk.HasCleanWorkDir`: the working directory has a cleaned path.
* `Disk.absolute`: a path seen from the root.

## Main results

* `Disk.destination_clean`: a cleaned path names what the path names.
* `Disk.identity_eq_clean`: the identity of a path is the cleaned absolute path.
* `Disk.identity_eq_iff`: paths with one identity name one location.
* `Disk.identity_is_exact`: paths with one identity lead to one entry.
-/

namespace ForthFrontend

open ForthFrontend.Path

namespace Disk

/-! ### Cleaned paths -/

section Clean

variable {d : Disk} {s : Location} {rooted : Bool} {stack : List Bytes}

theorem foldl_enter_push (hstack : Settled rooted stack) (hroot : rooted = true → s = [])
    (e : Bytes) :
    (push rooted stack e).reverse.foldl enter s = enter (stack.reverse.foldl enter s) e := by
  obtain ⟨rfl | rfl, hpush⟩ | ⟨-, hpush⟩ | ⟨rfl, rfl, hrooted, hpush⟩ |
    ⟨rfl, top, below, rfl, htop, hpush⟩ | ⟨rfl, -, hpush⟩ := push_cases rooted stack e <;>
      rw [hpush]
  · rfl
  · rfl
  · rw [List.reverse_cons, List.foldl_append]
    rfl
  · rw [hroot hrooted]
    rfl
  · -- going up takes back the element below
    have hplain : IsPlain top := hstack.1.resolve_right fun hup => htop hup.1
    rw [List.reverse_cons, List.foldl_append, List.foldl_cons, List.foldl_nil, enter_plain hplain]
    rfl
  · rw [List.reverse_cons, List.foldl_append]
    rfl

theorem foldl_enter_foldl_push {names : List Bytes} (hstack : Settled rooted stack)
    (hroot : rooted = true → s = []) (hslash : ∀ e ∈ names, Bytes.slash ∉ e) :
    (names.foldl (push rooted) stack).reverse.foldl enter s =
      names.foldl enter (stack.reverse.foldl enter s) := by
  induction names generalizing stack with
  | nil => rfl
  | cons e names ih =>
    obtain ⟨he, hslash⟩ := List.forall_mem_cons.1 hslash
    rw [List.foldl_cons, ih (hstack.push he) hslash, foldl_enter_push hstack hroot, List.foldl_cons]

theorem start_of_isAbsolute {p : Path} (h : p.isAbsolute = true) : d.start p = [] := by
  rw [start, h]
  rfl

theorem destination_eq_stack (d : Disk) (p : Path) :
    d.destination p = p.stack.reverse.foldl enter (d.start p) :=
  (foldl_enter_foldl_push (show Settled p.isAbsolute [] from trivial) start_of_isAbsolute
    fun _ => slash_notMem_of_mem_elements).symm

/-- **A cleaned path names what the path names.** -/
theorem destination_clean (d : Disk) (p : Path) : d.destination p.clean = d.destination p := by
  rw [destination_eq_stack, destination_eq_stack, stack_clean, start, start, isAbsolute_clean]

end Clean

/-! ### Locations with plain names -/

section Plain

variable {d : Disk} {l m : Location}

/-- The path of the working directory has no empty element, no `.` and no `..`. -/
def HasCleanWorkDir (d : Disk) : Prop :=
  ∀ e ∈ d.workDir, IsPlain e

instance (d : Disk) : Decidable d.HasCleanWorkDir :=
  inferInstanceAs (Decidable (∀ e ∈ d.workDir, IsPlain e))

/-- Plain names lead down. -/
theorem foldl_enter_plain {names : List Bytes} (hnames : ∀ e ∈ names, IsPlain e) (l : Location) :
    names.foldl enter l = names.reverse ++ l := by
  induction names generalizing l with
  | nil => rfl
  | cons e names ih =>
    obtain ⟨he, hnames⟩ := List.forall_mem_cons.1 hnames
    rw [List.foldl_cons, enter_plain he, ih hnames, List.reverse_cons, List.append_assoc]
    rfl

theorem isPlain_enter {e : Bytes} (hl : ∀ x ∈ l, IsPlain x) (he : Bytes.slash ∉ e) :
    ∀ x ∈ enter l e, IsPlain x := by
  rw [enter]
  split
  · exact hl
  · next hnew =>
    split
    · exact fun x hx => hl x (List.mem_of_mem_tail hx)
    · next hparent =>
      have hplain : IsPlain e := by
        simp only [Bool.or_eq_true, List.isEmpty_iff, beq_iff_eq, not_or] at hnew
        exact ⟨hnew.1, hnew.2, by simpa using hparent, he⟩
      exact List.forall_mem_cons.2 ⟨hplain, hl⟩

theorem isPlain_foldl_enter {names : List Bytes} (hl : ∀ x ∈ l, IsPlain x)
    (hnames : ∀ e ∈ names, Bytes.slash ∉ e) : ∀ x ∈ names.foldl enter l, IsPlain x := by
  induction names generalizing l with
  | nil => exact hl
  | cons e names ih =>
    obtain ⟨he, hnames⟩ := List.forall_mem_cons.1 hnames
    exact ih (isPlain_enter hl he) hnames

/-- The names on the way to a location are plain. -/
theorem isPlain_destination (hd : d.HasCleanWorkDir) (p : Path) :
    ∀ x ∈ d.destination p, IsPlain x := by
  have hstart : ∀ x ∈ d.start p, IsPlain x := by
    rw [start]
    split
    · simp
    · exact hd
  exact isPlain_foldl_enter hstart fun _ => slash_notMem_of_mem_elements

theorem isAbsolute_path (l : Location) : isAbsolute l.path = true :=
  rfl

theorem elements_path (hl : ∀ x ∈ l, IsPlain x) :
    l.path.elements = [] :: if l = [] then [[]] else l.reverse := by
  rw [Location.path, elements_slash_cons]
  split
  · next hnil =>
    rw [hnil]
    rfl
  · next hne =>
    have hslash : ∀ e ∈ l.reverse, Bytes.slash ∉ e :=
      fun e he => (hl e (List.mem_reverse.1 he)).2.2.2
    rw [elements_joinWith hslash (by simpa using hne)]

/-- The path of a location leads down to it. -/
theorem foldl_enter_path (hl : ∀ x ∈ l, IsPlain x) : l.path.elements.foldl enter [] = l := by
  rw [elements_path hl, List.foldl_cons]
  split
  · next hnil =>
    rw [hnil]
    rfl
  · rw [foldl_enter_plain fun e he => hl e (List.mem_reverse.1 he), List.reverse_reverse]
    exact List.append_nil l

theorem destination_path (d : Disk) (hl : ∀ x ∈ l, IsPlain x) : d.destination l.path = l := by
  rw [destination, start_of_isAbsolute (isAbsolute_path l)]
  exact foldl_enter_path hl

theorem path_injective (hl : ∀ x ∈ l, IsPlain x) (hm : ∀ x ∈ m, IsPlain x)
    (h : l.path = m.path) : l = m := by
  rw [← foldl_enter_path hl, h, foldl_enter_path hm]

end Plain

/-! ### Identities -/

section Identity

variable {d : Disk} {p q : Path}

/-- **Paths with one identity name one location.** -/
theorem identity_eq_iff (hd : d.HasCleanWorkDir) :
    d.identity p = d.identity q ↔ d.destination p = d.destination q :=
  ⟨path_injective (isPlain_destination hd p) (isPlain_destination hd q), congrArg _⟩

/-- The path seen from the root: an absolute path as it is, a relative one from the working
directory. -/
def absolute (d : Disk) (p : Path) : Path :=
  if p.isAbsolute then p else join d.workDir.path p

theorem join_path (l : Location) (p : Path) :
    join l.path p = clean (l.path ++ Bytes.slash :: p) := by
  rw [join, if_neg (by simp [Location.path])]

theorem isAbsolute_absolute (d : Disk) (p : Path) : (d.absolute p).isAbsolute = true := by
  rw [absolute]
  split
  · assumption
  · rw [join_path, isAbsolute_clean]
    rfl

theorem destination_absolute (hd : d.HasCleanWorkDir) (p : Path) :
    d.destination (d.absolute p) = d.destination p := by
  rw [absolute]
  split
  · rfl
  · next hrelative =>
    have hstart : d.start (d.workDir.path ++ Bytes.slash :: p) = [] := start_of_isAbsolute rfl
    rw [join_path, destination_clean, destination, hstart, elements_append_slash,
      List.foldl_append, foldl_enter_path hd, destination, start, if_neg hrelative]

/-- An absolute path names what is left of it when it is cleaned. -/
theorem destination_of_isAbsolute (hp : p.isAbsolute = true) : d.destination p = p.stack := by
  have hplain : ∀ e ∈ p.stack.reverse, IsPlain e := by
    intro e he
    have hsettled := p.settled_stack
    rw [hp] at hsettled
    exact hsettled.isPlain e (List.mem_reverse.1 he)
  rw [destination_eq_stack, start_of_isAbsolute hp, foldl_enter_plain hplain, List.reverse_reverse]
  exact List.append_nil _

/-- **The identity of a path is the cleaned absolute path.** -/
theorem identity_eq_clean (hd : d.HasCleanWorkDir) (p : Path) :
    d.identity p = clean (d.absolute p) := by
  have habs := isAbsolute_absolute d p
  rw [identity, ← destination_absolute hd, destination_of_isAbsolute habs]
  exact (if_pos habs).symm

theorem identity_identity (hd : d.HasCleanWorkDir) (p : Path) :
    d.identity (d.identity p) = d.identity p := by
  rw [identity_eq_iff hd]
  exact destination_path d (isPlain_destination hd p)

/-- A path that can be opened leads to the location it names. -/
theorem locate_of_openFile {x : Entry} (h : d.openFile p = .ok x) :
    d.locate p = .ok (d.destination p) := by
  rw [openFile] at h
  cases hfind : d.find p with
  | error c =>
    rw [hfind] at h
    cases h
  | ok y =>
    obtain ⟨hcheck, l, hwalk, -⟩ := find_eq_ok_iff.1 hfind
    have hlocate : d.locate p = .ok l := locate_eq_ok_iff.2 ⟨hcheck, hwalk⟩
    rw [hlocate, locate_eq_ok hlocate]

end Identity

/-- **Identities of files are exact.** Two paths that can be opened lead to one entry exactly if
they have one identity. The identity of any path is its cleaned absolute form, is its own identity,
and consists of a slash and plain names with slashes between them. -/
theorem identity_is_exact {d : Disk} (hd : d.HasCleanWorkDir) :
    (∀ p q x y, d.openFile p = .ok x → d.openFile q = .ok y →
      ((∃ l, d.locate p = .ok l ∧ d.locate q = .ok l) ↔ d.identity p = d.identity q)) ∧
    ∀ p, d.identity p = clean (d.absolute p) ∧ d.identity (d.identity p) = d.identity p ∧
      ∃ names, d.identity p = Bytes.slash :: Bytes.joinWith [Bytes.slash] names ∧
        ∀ e ∈ names, e ≠ [] ∧ e ≠ here ∧ e ≠ parent ∧ Bytes.slash ∉ e := by
  constructor
  · intro p q x y hp hq
    rw [identity_eq_iff hd, locate_of_openFile hp, locate_of_openFile hq]
    constructor
    · rintro ⟨l, hpl, hql⟩
      exact (Except.ok.inj hpl).trans (Except.ok.inj hql).symm
    · intro heq
      exact ⟨_, rfl, congrArg _ heq.symm⟩
  · intro p
    refine ⟨identity_eq_clean hd p, identity_identity hd p, (d.destination p).reverse, rfl, ?_⟩
    intro e he
    exact isPlain_destination hd p e (List.mem_reverse.1 he)

namespace TwoSpellings

/-- Two files of one name, below the root and in the working directory. -/
def disk : Disk where
  workDir := ["w"]
  entries := [(["w"], .directory), (["s", "w"], .directory), (["a", "w"], .file "1"),
    (["a"], .file "1")]

end TwoSpellings

open TwoSpellings in
/-- A relative path with detours and an absolute one that begins above the root lead to one file;
two more steps up lead to another. -/
theorem identity_is_exact_twoSpellings :
    disk.HasCleanWorkDir ∧
    (∃ l, disk.locate "s/..//./a" = .ok l ∧ disk.locate "/../w/a" = .ok l) ∧
    ¬ ∃ l, disk.locate "../../a" = .ok l ∧ disk.locate "s/..//./a" = .ok l := by
  have hd : disk.HasCleanWorkDir := by decide
  have hdetour : disk.openFile "s/..//./a" = .ok (.file "1") := rfl
  have habove : disk.openFile "/../w/a" = .ok (.file "1") := rfl
  have hother : disk.openFile "../../a" = .ok (.file "1") := rfl
  refine ⟨hd, ?_, ?_⟩
  · exact ((identity_is_exact hd).1 _ _ _ _ hdetour habove).2 (by decide +kernel)
  · intro hsame
    exact absurd (((identity_is_exact hd).1 _ _ _ _ hother hdetour).1 hsame) (by decide +kernel)

end Disk

end ForthFrontend
