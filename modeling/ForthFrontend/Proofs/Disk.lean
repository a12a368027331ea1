import ForthFrontend.Disk
import ForthFrontend.Proofs.Path

/-!
# Reading what was written

A file that was written is found again under the same path: the walk along the path meets only
directories, and none of them is the entry that was put on the disk.

## Main results

* `Disk.step_put`: putting an entry where no directory is does not change a walk.
* `Disk.overwrite_cases`: what opening a file for writing comes to.
* `Disk.read_write`: a written file has the content that was written.
-/

namespace ForthFrontend

namespace Disk

section Put

variable {d : Disk} {l l' m : Location} {e : Entry}

theorem lookup?_put_self (hl : l ≠ []) : (d.put l e).lookup? l = some e := by
  simp [lookup?, put, hl]

theorem lookup_filter_of_ne {entries : List (Location × Entry)} (h : l' ≠ l) :
    (entries.filter fun x => x.1 != l).lookup l' = entries.lookup l' := by
  induction entries with
  | nil => rfl
  | cons x entries ih =>
    rw [List.filter_cons]
    split
    · rw [List.lookup_cons, List.lookup_cons, ih]
    · next hx =>
      have hne : (l' == x.1) = false := by
        rw [beq_eq_false_iff_ne]
        rintro rfl
        exact hx (by simpa using h)
      rw [List.lookup_cons, hne, ih]

theorem lookup?_put_of_ne (h : l' ≠ l) : (d.put l e).lookup? l' = d.lookup? l' := by
  have hne : (l' == l) = false := by simpa using h
  rw [lookup?, lookup?, put, List.lookup_cons, hne, lookup_filter_of_ne h]

/-- An entry that replaces no directory does not change a step of a walk. -/
theorem step_put {x : Bytes} (hl : d.lookup? l ≠ some .directory) (h : d.step l' x = .ok m) :
    (d.put l e).step l' x = .ok m := by
  have hroot : l ≠ [] := by
    rintro rfl
    exact hl rfl
  unfold step at h ⊢
  split at h
  · next hdir =>
    have hne : l' ≠ l := by
      rintro rfl
      exact hl hdir
    rw [lookup?_put_of_ne hne, hdir]
    split at h
    · cases h
    · next hlen =>
      split at h
      · cases h
      · next hsome =>
        have hsome' : ((d.put l e).lookup? (enter l' x)).isNone = false := by
          by_cases hm : enter l' x = l
          · rw [hm, lookup?_put_self hroot]
            rfl
          · rw [lookup?_put_of_ne hm]
            exact Bool.eq_false_iff.2 hsome
        simp only [hlen, hsome', Bool.false_eq_true, ↓reduceIte]
        exact h
  · cases h
  · cases h

theorem foldlM_step_put {xs : List Bytes} (hl : d.lookup? l ≠ some .directory)
    (h : xs.foldlM d.step l' = .ok m) : xs.foldlM (d.put l e).step l' = .ok m := by
  induction xs generalizing l' with
  | nil => exact h
  | cons x xs ih =>
    rw [List.foldlM_cons] at h ⊢
    cases hstep : d.step l' x with
    | error c =>
      rw [hstep] at h
      cases h
    | ok k =>
      rw [hstep] at h
      rw [step_put hl hstep]
      exact ih h

end Put

/-- What creates an entry is a walk along all elements of a path but the last. -/
theorem creationPoint_eq_ok {d : Disk} {p : Path} {l : Location}
    (h : d.creationPoint p = .ok l) :
    checkPath p = .ok () ∧ ∃ m, (lastElement p).1.elements.foldlM d.step (d.start p) = .ok m ∧
      d.lookup? m = some .directory ∧ (lastElement p).2.length ≤ maxName ∧
      l = enter m (lastElement p).2 := by
  unfold creationPoint at h
  cases hcheck : checkPath p with
  | error c =>
    rw [hcheck] at h
    cases h
  | ok u =>
    cases hwalk : (lastElement p).1.elements.foldlM d.step (d.start p) with
    | error c =>
      simp only [hcheck, hwalk, bind, Except.bind] at h
      cases h
    | ok m =>
      simp only [hcheck, hwalk, bind, Except.bind] at h
      split at h
      · next hdir =>
        split at h
        · cases h
        · next hlen => exact ⟨rfl, m, rfl, hdir, Nat.le_of_not_gt hlen, (Except.ok.inj h).symm⟩
      · cases h
      · cases h

/-- A path that does not end in a slash has its last element behind its last slash. -/
theorem lastElement_eq {p : Path} (h : (p.getLast? == some Bytes.slash) = false) :
    lastElement p = (p.upToLastSlash, p.afterLastSlash) := by
  have htrim : Bytes.dropEndWhile (· == Bytes.slash) p = p := by
    rw [← List.head?_reverse] at h
    rw [Bytes.dropEndWhile]
    cases hp : p.reverse with
    | nil => exact (List.reverse_eq_nil_iff.1 hp).symm
    | cons b rest =>
      rw [hp] at h
      rw [List.dropWhile_cons_of_neg (by simpa using h), ← hp, List.reverse_reverse]
  rw [lastElement, htrim]

/-- An empty element leads nowhere. -/
theorem step_nil {d : Disk} {k m : Location} (h : d.step k [] = .ok m) : k = m := by
  unfold step at h
  split at h
  · split at h
    · cases h
    · split at h
      · cases h
      · exact Except.ok.inj h
  · cases h
  · cases h

theorem foldlM_step_concat (d : Disk) (l : Location) (xs : List Bytes) (x : Bytes) :
    (xs ++ [x]).foldlM d.step l = (xs.foldlM d.step l).bind fun m => d.step m x := by
  rw [List.foldlM_append]
  simp only [List.foldlM_cons, List.foldlM_nil, bind_pure]
  rfl

/-- An empty element at the end of a walk leads nowhere. -/
theorem walk_of_concat_nil {d : Disk} {l m : Location} {xs : List Bytes}
    (h : (xs ++ [[]]).foldlM d.step l = .ok m) : xs.foldlM d.step l = .ok m := by
  rw [foldlM_step_concat] at h
  cases hwalk : xs.foldlM d.step l with
  | error c =>
    rw [hwalk] at h
    cases h
  | ok k =>
    rw [hwalk] at h
    rw [step_nil h]

/-- A file that was put behind a walk is read along the whole path. -/
theorem read_put {d : Disk} {p : Path} {l m : Location} {content : Bytes}
    (hcheck : checkPath p = .ok ())
    (hwalk : p.upToLastSlash.elements.foldlM d.step (d.start p) = .ok m)
    (hdir : d.lookup? m = some .directory) (hlen : p.afterLastSlash.length ≤ maxName)
    (hl : enter m p.afterLastSlash = l) (hfree : d.lookup? l ≠ some .directory) :
    (d.put l (.file content)).read p = .ok content := by
  obtain ⟨init, hfront, hp⟩ := p.elements_upToLastSlash
  have hne : m ≠ l := by
    rintro rfl
    exact hfree hdir
  have hroot : l ≠ [] := by
    intro heq
    rw [heq] at hfree
    exact hfree rfl
  have hinit : init.foldlM d.step (d.start p) = .ok m := walk_of_concat_nil (hfront ▸ hwalk)
  have hlast : (d.put l (.file content)).step m p.afterLastSlash = .ok l := by
    simp only [step, lookup?_put_of_ne hne, hdir, hl, lookup?_put_self hroot]
    rw [if_neg (Nat.not_lt.2 hlen), if_neg (by simp)]
  have hlocate : (d.put l (.file content)).locate p = .ok l := by
    have hstart : (d.put l (.file content)).start p = d.start p := rfl
    rw [locate, hcheck, hp, hstart, foldlM_step_concat, foldlM_step_put hfree hinit]
    exact hlast
  have hfind : (d.put l (.file content)).find p = .ok (.file content) := by
    simp only [find, hlocate, bind, Except.bind, lookup?_put_self hroot]
  rw [read, openFile, hfind]
  rfl

/-- **What opening a file for writing comes to**: it is refused, or the file is opened and takes what
reaches it of the content. -/
theorem overwrite_cases (d : Disk) (p : Path) (content : Bytes) (mode : Mode) :
    (∃ c, d.overwrite p content mode = d.refuse .openFile p c) ∨
    ∃ l, d.creationPoint p = .ok l ∧ (p.getLast? == some Bytes.slash) = false ∧
      d.lookup? l ≠ some .directory ∧ d.overwrite p content mode =
        ⟨d.put l (.file (mode.kept (d.lookup? l) ++ d.reaching content)),
          (d.breach? content).map (·.error p)⟩ := by
  rw [overwrite]
  split
  · next c _ => exact .inl ⟨c, rfl⟩
  · next l hl =>
    split
    · exact .inl ⟨_, rfl⟩
    · next hfree =>
      rw [Bool.or_eq_true, not_or, Bool.not_eq_true] at hfree
      exact .inr ⟨l, hl, hfree.1, by simpa using hfree.2, rfl⟩

/-- What is written without a failure reaches its file. -/
theorem reaching_of_breach?_eq_none {d : Disk} {content : Bytes} (h : d.breach? content = none) :
    d.reaching content = content := by
  rw [reaching]
  cases hflaw : d.flaw? with
  | none => rfl
  | some f =>
    have hfits : f.showsOn content = false := by simpa [breach?, hflaw] using h
    rw [Flaw.showsOn, Bool.or_eq_false_iff, decide_eq_false_iff_not, Nat.not_lt] at hfits
    exact List.take_of_length_le hfits.2

/-- **A file that is overwritten** has its new content. -/
theorem read_overwrite {d : Disk} {p : Path} {content : Bytes}
    (h : (d.overwrite p content).error? = none) :
    (d.overwrite p content).disk.read p = .ok content := by
  obtain ⟨c, hrefused⟩ | ⟨l, hl, hslash, hfree, hopened⟩ := d.overwrite_cases p content .replace
  · rw [hrefused] at h
    cases h
  · rw [hopened] at h ⊢
    have hnone : d.breach? content = none := Option.map_eq_none_iff.1 h
    obtain ⟨hcheck, m, hwalk, hdir, hlen, rfl⟩ := creationPoint_eq_ok hl
    rw [lastElement_eq hslash] at hwalk hlen hfree ⊢
    rw [reaching_of_breach?_eq_none hnone]
    exact read_put hcheck hwalk hdir hlen rfl hfree

/-- **A file that was written** has the content that was written. -/
theorem read_write {d : Disk} {p : Path} {content : Bytes}
    (h : (d.write p content).error? = none) : (d.write p content).disk.read p = .ok content := by
  unfold write Change.andThen at h ⊢
  split at h
  · next hway =>
    rw [h] at hway
    cases hway
  · next hway =>
    rw [if_neg hway]
    exact read_overwrite h

end Disk

end ForthFrontend
