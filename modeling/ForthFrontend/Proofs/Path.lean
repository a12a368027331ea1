import ForthFrontend.Path
import Mathlib.Algebra.GroupWithZero.Nat
import Mathlib.Data.List.TakeWhile

/-!
# Cleaned paths

A path is cleaned by pushing its elements on a stack. The stack is *settled* at all times: it holds
plain names, and below them names of parents only if the path is not absolute. Pushing the elements
of a settled stack gives the stack again, so cleaning what is clean changes nothing, and a file has
the directory of its siblings.

## Main results

* `Path.stack_clean`, `Path.isAbsolute_clean`: cleaning keeps what cleaning depends on.
* `Path.join_dir`, `Path.dir_clean_append`: a name seen from the directory of a file is its sibling.
* `Path.length_clean_le`, `Path.mem_of_mem_clean`: cleaning adds nothing to a path.
* `Path.slash_notMem_stem_iff`: which stems are single elements.
-/

namespace ForthFrontend.Path

/-! ### Elements -/

theorem elements_ne_nil (p : Path) : p.elements ≠ [] :=
  List.splitOn_ne_nil _ _

theorem elements_append_slash (p q : Path) :
    elements (p ++ Bytes.slash :: q) = p.elements ++ q.elements :=
  List.splitOnP_append_cons p q (by simp)

theorem elements_slash_cons (p : Path) : elements (Bytes.slash :: p) = [] :: p.elements :=
  elements_append_slash [] p

theorem joinWith_elements (p : Path) : Bytes.joinWith [Bytes.slash] p.elements = p :=
  List.intercalate_splitOn Bytes.slash

theorem elements_joinWith {names : List Bytes} (hslash : ∀ e ∈ names, Bytes.slash ∉ e)
    (hne : names ≠ []) : elements (Bytes.joinWith [Bytes.slash] names) = names :=
  List.splitOn_intercalate Bytes.slash hslash hne

theorem joinWith_concat_nil {names : List Bytes} (hslash : ∀ e ∈ names, Bytes.slash ∉ e)
    (hne : names ≠ []) : Bytes.joinWith [Bytes.slash] (names ++ [[]]) =
      Bytes.joinWith [Bytes.slash] names ++ [Bytes.slash] := by
  rw [← joinWith_elements (Bytes.joinWith [Bytes.slash] names ++ [Bytes.slash]),
    elements_append_slash, elements_joinWith hslash hne]
  rfl

theorem exists_joinWith_concat (names : List Bytes) :
    ∃ front : Bytes, ∀ e, Bytes.joinWith [Bytes.slash] (names ++ [e]) = front ++ e := by
  induction names with
  | nil => exact ⟨[], fun e => by simp [Bytes.joinWith]⟩
  | cons e' names ih =>
    obtain ⟨front, hfront⟩ := ih
    refine ⟨e' ++ Bytes.slash :: front, fun e => ?_⟩
    have hrest : List.intercalate [Bytes.slash] (names ++ [e]) = front ++ e := hfront e
    obtain ⟨e'', rest, hcons⟩ := List.exists_cons_of_ne_nil (l := names ++ [e]) (by simp)
    rw [List.cons_append, hcons, Bytes.joinWith, List.intercalate_cons_cons, ← hcons]
    simp [hrest]

theorem elements_cons_of_ne {b : UInt8} {p : Path} {first : Bytes} {rest : List Bytes}
    (hb : b ≠ Bytes.slash) (hp : p.elements = first :: rest) :
    elements (b :: p) = (b :: first) :: rest := by
  rw [elements, List.splitOn, List.splitOnP_cons_eq_if_modifyHead, if_neg (by simpa using hb),
    show p.splitOnP (· == Bytes.slash) = first :: rest from hp]
  rfl

theorem slash_notMem_of_mem_elements {p : Path} {e : Bytes} (he : e ∈ p.elements) :
    Bytes.slash ∉ e := by
  induction p generalizing e with
  | nil =>
    have hnil : e = [] := by simpa [elements] using he
    simp [hnil]
  | cons b p ih =>
    obtain ⟨first, rest, hp⟩ := List.exists_cons_of_ne_nil (elements_ne_nil p)
    rw [hp] at ih
    by_cases hb : b = Bytes.slash
    · rw [hb, elements_slash_cons, hp] at he
      rcases List.mem_cons.1 he with rfl | he
      · simp
      · exact ih he
    · rw [elements_cons_of_ne hb hp] at he
      rcases List.mem_cons.1 he with rfl | he
      · simpa [Ne.symm hb] using ih List.mem_cons_self
      · exact ih (List.mem_cons_of_mem _ he)

theorem isAbsolute_iff {p : Path} :
    p.isAbsolute = true ↔ ∃ e rest, p.elements = [] :: e :: rest := by
  cases p with
  | nil => simp [isAbsolute, elements]
  | cons b p =>
    obtain ⟨first, rest, hp⟩ := List.exists_cons_of_ne_nil (elements_ne_nil p)
    by_cases hb : b = Bytes.slash
    · rw [hb, elements_slash_cons, hp]
      simp [isAbsolute]
    · rw [elements_cons_of_ne hb hp]
      simp [isAbsolute, hb]

/-! ### The last slash -/

theorem upToLastSlash_append_afterLastSlash (p : Path) :
    p.upToLastSlash ++ p.afterLastSlash = p := by
  rw [upToLastSlash, afterLastSlash, Bytes.dropEndWhile, ← List.reverse_append,
    List.takeWhile_append_dropWhile, List.reverse_reverse]

theorem slash_notMem_afterLastSlash (p : Path) : Bytes.slash ∉ p.afterLastSlash := by
  intro hmem
  rw [afterLastSlash, List.mem_reverse] at hmem
  simpa using List.all_eq_true.1 List.all_takeWhile _ hmem

theorem upToLastSlash_cases (p : Path) :
    p.upToLastSlash = [] ∨ ∃ q, p.upToLastSlash = q ++ [Bytes.slash] := by
  cases hfront : p.upToLastSlash.reverse with
  | nil => exact .inl (List.reverse_eq_nil_iff.1 hfront)
  | cons b rest =>
    have hb : b = Bytes.slash := by
      have hdrop := hfront
      rw [upToLastSlash, Bytes.dropEndWhile, List.reverse_reverse] at hdrop
      simpa [hdrop] using List.head?_dropWhile_not (p := (· != Bytes.slash)) (l := p.reverse)
    refine .inr ⟨rest.reverse, ?_⟩
    rw [← List.reverse_reverse p.upToLastSlash, hfront, hb, List.reverse_cons]

theorem elements_of_slash_notMem {x : Bytes} (hx : Bytes.slash ∉ x) : elements x = [x] :=
  List.splitOnP_eq_singleton fun b hb => by
    rw [beq_eq_false_iff_ne]
    rintro rfl
    exact hx hb

/-- The last element of a path can be exchanged. -/
theorem exists_elements_upToLastSlash_append (p : Path) :
    ∃ init, ∀ x, Bytes.slash ∉ x → elements (p.upToLastSlash ++ x) = init ++ [x] := by
  obtain hfront | ⟨q, hfront⟩ := p.upToLastSlash_cases
  · exact ⟨[], fun x hx => by rw [hfront]; exact elements_of_slash_notMem hx⟩
  · refine ⟨q.elements, fun x hx => ?_⟩
    rw [hfront, List.append_assoc, List.singleton_append, elements_append_slash,
      elements_of_slash_notMem hx]

/-- A path that names a file is split at its last slash. -/
theorem elements_upToLastSlash (p : Path) : ∃ init, p.upToLastSlash.elements = init ++ [[]] ∧
    p.elements = init ++ [p.afterLastSlash] := by
  obtain ⟨init, hinit⟩ := p.exists_elements_upToLastSlash_append
  refine ⟨init, ?_, ?_⟩
  · simpa using hinit [] (by simp)
  · simpa [upToLastSlash_append_afterLastSlash] using hinit _ p.slash_notMem_afterLastSlash

theorem isAbsolute_append {p q : Path} (hp : p ≠ []) : isAbsolute (p ++ q) = p.isAbsolute := by
  cases p with
  | nil => exact absurd rfl hp
  | cons b p => rfl

theorem isAbsolute_of_slash_notMem {x : Bytes} (hx : Bytes.slash ∉ x) : isAbsolute x = false := by
  cases x with
  | nil => rfl
  | cons b x =>
    rw [isAbsolute, List.head?_cons, beq_eq_false_iff_ne]
    rintro ⟨⟩
    exact hx List.mem_cons_self

theorem isAbsolute_upToLastSlash_append {p : Path} {x : Bytes} (hx : Bytes.slash ∉ x) :
    isAbsolute (p.upToLastSlash ++ x) = p.upToLastSlash.isAbsolute := by
  by_cases hfront : p.upToLastSlash = []
  · rw [hfront]
    exact isAbsolute_of_slash_notMem hx
  · exact isAbsolute_append hfront

/-! ### Settled stacks -/

/-- A name that leads down. -/
def IsPlain (e : Bytes) : Prop :=
  e ≠ [] ∧ e ≠ here ∧ e ≠ parent ∧ Bytes.slash ∉ e

instance (e : Bytes) : Decidable (IsPlain e) :=
  inferInstanceAs (Decidable (_ ∧ _ ∧ _ ∧ _))

/-- The stacks that cleaning goes through, innermost element first. -/
def Settled (rooted : Bool) : List Bytes → Prop
  | [] => True
  | e :: below =>
    (IsPlain e ∨ e = parent ∧ rooted = false ∧ ∀ x ∈ below, x = parent) ∧ Settled rooted below

theorem push_plain {e : Bytes} (he : IsPlain e) (rooted : Bool) (stack : List Bytes) :
    push rooted stack e = e :: stack := by
  have hempty : (e.isEmpty || e == here) = false := by simp [he.1, he.2.1]
  rw [push.eq_def, hempty]
  simp [he.2.2.1]

/-- What an element does to a stack: nothing, one name more, one name less, or one step further
up. -/
theorem push_cases (rooted : Bool) (stack : List Bytes) (e : Bytes) :
    ((e = [] ∨ e = here) ∧ push rooted stack e = stack) ∨
    ((Bytes.slash ∉ e → IsPlain e) ∧ push rooted stack e = e :: stack) ∨
    (e = parent ∧ stack = [] ∧ rooted = true ∧ push rooted stack e = []) ∨
    (e = parent ∧ (∃ top below, stack = top :: below ∧ top ≠ parent ∧
      push rooted stack e = below)) ∨
    (e = parent ∧ (stack = [] ∧ rooted = false ∨ ∃ below, stack = parent :: below) ∧
      push rooted stack e = parent :: stack) := by
  by_cases hempty : e = [] ∨ e = here
  · refine .inl ⟨hempty, ?_⟩
    rw [push.eq_def, if_pos (by simpa using hempty)]
  · rw [push.eq_def, if_neg (by simpa using hempty)]
    rw [not_or] at hempty
    by_cases hparent : e = parent
    · subst hparent
      cases stack with
      | nil => cases rooted <;> simp
      | cons top below => by_cases htop : top = parent <;> simp [htop]
    · refine .inr (.inl ⟨fun hslash => ⟨hempty.1, hempty.2, hparent, hslash⟩, ?_⟩)
      simp [hparent]

namespace Settled

variable {rooted : Bool} {stack : List Bytes}

theorem push (h : Settled rooted stack) {e : Bytes} (hslash : Bytes.slash ∉ e) :
    Settled rooted (push rooted stack e) := by
  obtain ⟨-, hpush⟩ | ⟨he, hpush⟩ | ⟨-, -, -, hpush⟩ | ⟨-, top, below, rfl, -, hpush⟩ |
    ⟨rfl, hup, hpush⟩ := push_cases rooted stack e <;> rw [hpush]
  · exact h
  · exact ⟨.inl (he hslash), h⟩
  · trivial
  · exact h.2
  · -- a step further up: there is nothing below it but steps up
    obtain ⟨rfl, hrooted⟩ | ⟨below, rfl⟩ := hup
    · exact ⟨.inr ⟨rfl, hrooted, by simp⟩, trivial⟩
    · rcases h.1 with hplain | ⟨-, hrooted, hbelow⟩
      · exact absurd rfl hplain.2.2.1
      · exact ⟨.inr ⟨rfl, hrooted, List.forall_mem_cons.2 ⟨rfl, hbelow⟩⟩, h⟩

theorem foldl_push (h : Settled rooted stack) {names : List Bytes}
    (hslash : ∀ e ∈ names, Bytes.slash ∉ e) :
    Settled rooted (names.foldl (Path.push rooted) stack) := by
  induction names generalizing stack with
  | nil => exact h
  | cons e names ih =>
    obtain ⟨he, hnames⟩ := List.forall_mem_cons.1 hslash
    exact ih (h.push he) hnames

/-- Pushing a settled stack from its bottom gives it again. -/
theorem foldl_push_reverse (h : Settled rooted stack) :
    stack.reverse.foldl (Path.push rooted) [] = stack := by
  induction stack with
  | nil => rfl
  | cons e below ih =>
    rw [List.reverse_cons, List.foldl_append, ih h.2]
    obtain ⟨he | ⟨rfl, rfl, hbelow⟩, -⟩ := h
    · exact push_plain he rooted below
    · cases below with
      | nil => rfl
      | cons top below =>
        rw [hbelow top List.mem_cons_self]
        rfl

/-- Nothing leads up from the root. -/
theorem isPlain (h : Settled true stack) : ∀ e ∈ stack, IsPlain e := by
  induction stack with
  | nil => simp
  | cons e below ih =>
    refine List.forall_mem_cons.2 ⟨?_, ih h.2⟩
    rcases h.1 with he | ⟨-, hrooted, -⟩
    · exact he
    · cases hrooted

theorem ne_nil_and_slash_notMem (h : Settled rooted stack) :
    ∀ e ∈ stack, e ≠ [] ∧ Bytes.slash ∉ e := by
  induction stack with
  | nil => simp
  | cons e below ih =>
    refine List.forall_mem_cons.2 ⟨?_, ih h.2⟩
    rcases h.1 with he | ⟨rfl, -⟩
    · exact ⟨he.1, he.2.2.2⟩
    · decide

end Settled

theorem mem_push {rooted : Bool} {stack : List Bytes} {x e : Bytes}
    (he : e ∈ push rooted stack x) : e ∈ stack ∨ e = x := by
  obtain ⟨-, hpush⟩ | ⟨-, hpush⟩ | ⟨-, -, -, hpush⟩ | ⟨-, top, below, rfl, -, hpush⟩ |
    ⟨rfl, -, hpush⟩ := push_cases rooted stack x <;> rw [hpush] at he
  · exact .inl he
  · exact (List.mem_cons.1 he).symm
  · cases he
  · exact .inl (List.mem_cons_of_mem _ he)
  · exact (List.mem_cons.1 he).symm

theorem mem_foldl_push {rooted : Bool} {stack names : List Bytes} {e : Bytes}
    (he : e ∈ names.foldl (push rooted) stack) : e ∈ stack ∨ e ∈ names := by
  induction names generalizing stack with
  | nil => exact .inl he
  | cons x names ih =>
    rcases ih he with he | he
    · rcases mem_push he with he | rfl
      · exact .inl he
      · exact .inr List.mem_cons_self
    · exact .inr (List.mem_cons_of_mem _ he)

/-! ### Cleaning -/

/-- The elements that are left of a path, innermost first. -/
def stack (p : Path) : List Bytes :=
  p.elements.foldl (push p.isAbsolute) []

/-- The empty element in front of the first slash of an absolute path. -/
def lead (rooted : Bool) : List Bytes :=
  if rooted then [[]] else []

/-- The path of the elements on a stack. -/
def ofStack (rooted : Bool) (stack : List Bytes) : Path :=
  if stack.isEmpty then (if rooted then [Bytes.slash] else here)
  else Bytes.joinWith [Bytes.slash] (lead rooted ++ stack.reverse)

theorem clean_eq (p : Path) : p.clean = ofStack p.isAbsolute p.stack := by
  show (if p.isAbsolute then Bytes.slash :: Bytes.joinWith [Bytes.slash] p.stack.reverse
    else if p.stack.reverse.isEmpty then here
    else Bytes.joinWith [Bytes.slash] p.stack.reverse) = _
  rw [ofStack]
  cases hstack : p.stack.reverse with
  | nil => simp_all [Bytes.joinWith]
  | cons e names =>
    have hne : p.stack.isEmpty = false := by
      cases hp : p.stack <;> simp_all
    cases p.isAbsolute <;> simp [hne, lead, Bytes.joinWith, List.intercalate_cons_cons]

theorem settled_stack (p : Path) : Settled p.isAbsolute p.stack :=
  Settled.foldl_push (show Settled p.isAbsolute [] from trivial)
    fun _ => slash_notMem_of_mem_elements

theorem foldl_push_lead (rooted : Bool) : (lead rooted).foldl (push rooted) [] = [] := by
  cases rooted <;> rfl

section OfStack

variable {rooted : Bool} {stack : List Bytes}

theorem slash_notMem_lead_append (h : Settled rooted stack) :
    ∀ e ∈ lead rooted ++ stack.reverse, Bytes.slash ∉ e := by
  intro e he
  rcases List.mem_append.1 he with he | he
  · cases rooted <;> simp_all [lead]
  · exact (h.ne_nil_and_slash_notMem e (List.mem_reverse.1 he)).2

theorem elements_ofStack (h : Settled rooted stack) (hne : stack ≠ []) :
    (ofStack rooted stack).elements = lead rooted ++ stack.reverse := by
  rw [ofStack, if_neg (by simpa using hne)]
  exact elements_joinWith (slash_notMem_lead_append h) (by simp [hne])

theorem isAbsolute_ofStack (h : Settled rooted stack) :
    (ofStack rooted stack).isAbsolute = rooted := by
  by_cases hne : stack = []
  · subst hne
    cases rooted <;> rfl
  · rw [Bool.eq_iff_iff, isAbsolute_iff, elements_ofStack h hne]
    cases rooted with
    | true =>
      obtain ⟨e, names, hstack⟩ := List.exists_cons_of_ne_nil (List.reverse_ne_nil_iff.2 hne)
      simp [lead, hstack]
    | false =>
      simp only [lead, Bool.false_eq_true, ↓reduceIte, List.nil_append, iff_false]
      rintro ⟨e, rest, hstack⟩
      have hmem : [] ∈ stack := List.mem_reverse.1 (hstack ▸ List.mem_cons_self)
      exact (h.ne_nil_and_slash_notMem [] hmem).1 rfl

theorem stack_ofStack (h : Settled rooted stack) : (ofStack rooted stack).stack = stack := by
  rw [Path.stack, isAbsolute_ofStack h]
  by_cases hne : stack = []
  · subst hne
    cases rooted <;> rfl
  · rw [elements_ofStack h hne, List.foldl_append, foldl_push_lead, h.foldl_push_reverse]

theorem ofStack_ne_nil (h : Settled rooted stack) : ofStack rooted stack ≠ [] := by
  intro hnil
  -- the stack of the empty path is empty, and both paths of an empty stack have a byte
  have hstack := stack_ofStack h
  rw [hnil] at hstack
  rw [← hstack] at hnil
  cases rooted <;> cases hnil

end OfStack

theorem isAbsolute_clean (p : Path) : p.clean.isAbsolute = p.isAbsolute := by
  rw [clean_eq, isAbsolute_ofStack p.settled_stack]

theorem stack_clean (p : Path) : p.clean.stack = p.stack := by
  rw [clean_eq, stack_ofStack p.settled_stack]

theorem elements_clean {p : Path} (hne : p.stack ≠ []) :
    p.clean.elements = lead p.isAbsolute ++ p.stack.reverse := by
  rw [clean_eq, elements_ofStack p.settled_stack hne]

theorem clean_congr {p q : Path} (habs : p.isAbsolute = q.isAbsolute) (hstack : p.stack = q.stack) :
    p.clean = q.clean := by
  rw [clean_eq, clean_eq, habs, hstack]

theorem clean_ne_nil (p : Path) : p.clean ≠ [] := by
  rw [clean_eq]
  exact ofStack_ne_nil p.settled_stack

/-! ### Siblings -/

section Siblings

variable {p : Path} {x : Bytes}

theorem stack_upToLastSlash_append (hx : IsPlain x) :
    stack (p.upToLastSlash ++ x) = x :: p.upToLastSlash.stack := by
  obtain ⟨init, hinit⟩ := p.exists_elements_upToLastSlash_append
  have hfront : p.upToLastSlash.elements = init ++ [[]] := by simpa using hinit [] (by simp)
  rw [stack, stack, isAbsolute_upToLastSlash_append hx.2.2.2, hinit x hx.2.2.2, hfront,
    List.foldl_append, List.foldl_append]
  exact push_plain hx _ _

/-- **A name seen from the directory of a file** is the name behind the last slash of its path. -/
theorem join_dir (hx : IsPlain x) : join p.dir x = clean (p.upToLastSlash ++ x) := by
  have hne : p.dir ≠ [] := clean_ne_nil _
  rw [join, if_neg (by simpa using hne)]
  have habs : isAbsolute (p.dir ++ Bytes.slash :: x) = p.upToLastSlash.isAbsolute := by
    rw [isAbsolute_append hne]
    exact isAbsolute_clean _
  have hdir : p.dir.elements.foldl (push p.upToLastSlash.isAbsolute) [] =
      p.upToLastSlash.stack := by
    rw [← isAbsolute_clean]
    exact stack_clean _
  refine clean_congr ?_ ?_
  · rw [habs, isAbsolute_upToLastSlash_append hx.2.2.2]
  · rw [stack_upToLastSlash_append hx, stack, habs, elements_append_slash, List.foldl_append,
      hdir, elements_of_slash_notMem hx.2.2.2]
    exact push_plain hx _ _

/-- A file and what cleaning makes of its path have the same directory. -/
theorem dir_clean_append (hx : IsPlain x) : dir (clean (p.upToLastSlash ++ x)) = p.dir := by
  have hstack := stack_upToLastSlash_append (p := p) hx
  have habs := isAbsolute_upToLastSlash_append (p := p) hx.2.2.2
  generalize p.upToLastSlash ++ x = q at hstack habs ⊢
  have hfront : q.clean.upToLastSlash.isAbsolute = p.upToLastSlash.isAbsolute := by
    rw [← isAbsolute_upToLastSlash_append q.clean.slash_notMem_afterLastSlash,
      upToLastSlash_append_afterLastSlash, isAbsolute_clean, habs]
  obtain ⟨init, hup, hall⟩ := q.clean.elements_upToLastSlash
  -- the last element of the cleaned path is the name, so the rest of its elements is the front
  have hinit : init = lead p.upToLastSlash.isAbsolute ++ p.upToLastSlash.stack.reverse := by
    rw [elements_clean (by rw [hstack]; exact List.cons_ne_nil _ _), hstack, habs,
      List.reverse_cons, ← List.append_assoc] at hall
    exact (List.append_inj_left' hall rfl).symm
  refine clean_congr hfront ?_
  rw [stack, hfront, hup, hinit, List.foldl_append, List.foldl_append, foldl_push_lead,
    (settled_stack _).foldl_push_reverse]
  rfl

end Siblings

/-! ### Lengths and bytes -/

/-- How long elements are with a slash behind each. -/
def extent (names : List Bytes) : Nat :=
  (names.map (·.length + 1)).sum

theorem extent_cons (e : Bytes) (names : List Bytes) :
    extent (e :: names) = e.length + 1 + extent names := by
  simp [extent]

theorem extent_reverse (names : List Bytes) : extent names.reverse = extent names := by
  simp [extent]

theorem length_joinWith_add_one {names : List Bytes} (hne : names ≠ []) :
    (Bytes.joinWith [Bytes.slash] names).length + 1 = extent names := by
  induction names with
  | nil => exact absurd rfl hne
  | cons e names ih =>
    cases names with
    | nil => simp [Bytes.joinWith, extent]
    | cons e' names =>
      have hrest := ih (List.cons_ne_nil _ _)
      rw [extent_cons, ← hrest, Bytes.joinWith, List.intercalate_cons_cons]
      simp only [Bytes.joinWith, List.length_append, List.length_singleton]
      omega

theorem length_add_one (p : Path) : p.length + 1 = extent p.elements := by
  rw [← length_joinWith_add_one (elements_ne_nil p), joinWith_elements]

theorem extent_push_le (rooted : Bool) (stack : List Bytes) (e : Bytes) :
    extent (push rooted stack e) ≤ extent stack + (e.length + 1) := by
  obtain ⟨-, hpush⟩ | ⟨-, hpush⟩ | ⟨-, rfl, -, hpush⟩ | ⟨-, top, below, rfl, -, hpush⟩ |
    ⟨rfl, -, hpush⟩ := push_cases rooted stack e <;> rw [hpush]
  · omega
  · rw [extent_cons]
    omega
  · omega
  · rw [extent_cons]
    omega
  · rw [extent_cons]
    omega

theorem extent_foldl_push_le (rooted : Bool) (stack names : List Bytes) :
    extent (names.foldl (push rooted) stack) ≤ extent stack + extent names := by
  induction names generalizing stack with
  | nil => exact Nat.le_refl _
  | cons e names ih =>
    calc extent (names.foldl (push rooted) (push rooted stack e))
      _ ≤ extent (push rooted stack e) + extent names := ih _
      _ ≤ extent stack + (e.length + 1) + extent names :=
        Nat.add_le_add_right (extent_push_le rooted stack e) _
      _ = extent stack + extent (e :: names) := by
        rw [extent_cons]
        omega

theorem extent_lead_append_stack_le (p : Path) :
    extent (lead p.isAbsolute ++ p.stack.reverse) ≤ extent p.elements := by
  cases habs : p.isAbsolute with
  | false =>
    have hle := extent_foldl_push_le false [] p.elements
    rw [lead, if_neg (by decide), List.nil_append, extent_reverse, stack, habs]
    simpa [extent] using hle
  | true =>
    -- the empty element in front is not pushed
    obtain ⟨e, rest, helements⟩ := isAbsolute_iff.1 habs
    have hstack : p.stack = (e :: rest).foldl (push true) [] := by
      rw [stack, habs, helements]
      rfl
    have hle := extent_foldl_push_le true [] (e :: rest)
    have hlead : lead true ++ p.stack.reverse = [] :: p.stack.reverse := rfl
    rw [hlead, helements, extent_cons, extent_cons, extent_reverse, hstack]
    have hnil : extent [] = 0 := rfl
    omega

theorem length_clean_le {p : Path} (hne : p ≠ []) : p.clean.length ≤ p.length := by
  have hpos : 0 < p.length := List.length_pos_iff.2 hne
  by_cases hstack : p.stack = []
  · have hone : p.clean.length = 1 := by
      rw [clean_eq, hstack]
      cases p.isAbsolute <;> rfl
    omega
  · have hclean := p.clean.length_add_one
    have hp := p.length_add_one
    have hle := p.extent_lead_append_stack_le
    rw [elements_clean hstack] at hclean
    omega

theorem mem_joinWith {names : List Bytes} {b : UInt8}
    (hb : b ∈ Bytes.joinWith [Bytes.slash] names) : b = Bytes.slash ∨ ∃ e ∈ names, b ∈ e := by
  induction names with
  | nil => cases hb
  | cons e names ih =>
    cases names with
    | nil => exact .inr ⟨e, List.mem_cons_self, by simpa [Bytes.joinWith] using hb⟩
    | cons e' names =>
      rw [Bytes.joinWith, List.intercalate_cons_cons, List.append_assoc, List.mem_append,
        List.singleton_append, List.mem_cons] at hb
      obtain hb | rfl | hb := hb
      · exact .inr ⟨e, List.mem_cons_self, hb⟩
      · exact .inl rfl
      · obtain rfl | ⟨x, hx, hb⟩ := ih hb
        · exact .inl rfl
        · exact .inr ⟨x, List.mem_cons_of_mem _ hx, hb⟩

theorem mem_joinWith_of_mem {names : List Bytes} {e : Bytes} {b : UInt8} (he : e ∈ names)
    (hb : b ∈ e) : b ∈ Bytes.joinWith [Bytes.slash] names := by
  induction names with
  | nil => cases he
  | cons e' names ih =>
    cases names with
    | nil =>
      obtain rfl := List.mem_singleton.1 he
      simpa [Bytes.joinWith] using hb
    | cons e'' names =>
      rw [Bytes.joinWith, List.intercalate_cons_cons, List.append_assoc]
      rcases List.mem_cons.1 he with rfl | he
      · exact List.mem_append_left _ hb
      · exact List.mem_append_right _ (List.mem_append_right _ (ih he))

theorem mem_of_mem_clean {p : Path} {b : UInt8} (hb : b ∈ p.clean) :
    b = Bytes.slash ∨ b = Bytes.dot ∨ b ∈ p := by
  rw [clean_eq, ofStack] at hb
  split at hb
  · split at hb
    · exact .inl (List.mem_singleton.1 hb)
    · exact .inr (.inl (List.mem_singleton.1 hb))
  · obtain rfl | ⟨e, he, hb⟩ := mem_joinWith hb
    · exact .inl rfl
    · refine .inr (.inr ?_)
      have he : e ∈ p.elements := by
        rcases List.mem_append.1 he with he | he
        · cases p.isAbsolute <;> simp_all [lead]
        · rcases mem_foldl_push (List.mem_reverse.1 he) with he | he
          · cases he
          · exact he
      rw [← joinWith_elements p]
      exact mem_joinWith_of_mem he hb

/-! ### Names of images -/

/-- The last element of a path of slashes is a slash; that of any other path holds none. -/
theorem base_cases {p : Path} (hp : p ≠ []) :
    (∀ b ∈ p, b = Bytes.slash) ∧ p.base = [Bytes.slash] ∨
    (∃ b ∈ p, b ≠ Bytes.slash) ∧ Bytes.slash ∉ p.base := by
  have htrimmed : Bytes.dropEndWhile (· == Bytes.slash) p = [] ↔ ∀ b ∈ p, b = Bytes.slash := by
    simp [Bytes.dropEndWhile, List.dropWhile_eq_nil_iff]
  rw [base, if_neg (by simpa using hp)]
  by_cases hnil : Bytes.dropEndWhile (· == Bytes.slash) p = []
  · exact .inl ⟨htrimmed.1 hnil, by simp [hnil]⟩
  · refine .inr ⟨by simpa using mt htrimmed.2 hnil, ?_⟩
    simpa [hnil] using slash_notMem_afterLastSlash _

/-- A slash stands in the stem of a path only if nothing else stands in the path. -/
theorem slash_notMem_stem_iff {p : Path} (hp : p ≠ []) :
    Bytes.slash ∉ p.stem ↔ ∃ b ∈ p, b ≠ Bytes.slash := by
  obtain ⟨hall, hbase⟩ | ⟨hother, hbase⟩ := base_cases hp
  · have hstem : p.stem = [Bytes.slash] := by
      rw [stem, hbase]
      rfl
    simpa [hstem] using hall
  · exact ⟨fun _ => hother, fun _ hmem => hbase (List.mem_of_mem_take hmem)⟩

/-- A path with the extension of source files is no path of slashes. -/
theorem exists_mem_withDefaultExtension (p : Path) :
    ∃ b ∈ p.withDefaultExtension, b ≠ Bytes.slash := by
  have hne : Bytes.dot ≠ Bytes.slash := by decide
  refine ⟨Bytes.dot, ?_, hne⟩
  unfold withDefaultExtension
  split
  · exact List.mem_append_right _ (by decide)
  · next hext =>
    have hname : Bytes.dot ∈ p.afterLastSlash := by
      by_contra hdot
      exact hext (by simp [extension, hdot])
    have hrun := List.mem_reverse.1 hname
    exact List.mem_reverse.1 ((List.takeWhile_sublist _).subset hrun)

end ForthFrontend.Path
