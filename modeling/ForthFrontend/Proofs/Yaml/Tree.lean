import ForthFrontend.Proofs.Yaml.Token.Queue
import ForthFrontend.Yaml.Tree
import Mathlib.Data.List.Forall2

/-!
# Reading trees from tokens

A reader of nodes looks at the tokens of a lexer one after another. What it makes of them is said
here without the lexer: a reader takes a list of shapes and gives a result with a property. If the
lexer fails before the last of these shapes, so does the reader.

## Main definitions

* `Yaml.Builder.Reads`: a reader takes tokens with given shapes.

## Main results

* `Yaml.Builder.Reads.bind`: one reader after another.
* `Yaml.Builder.reads_scalar`, `Yaml.Builder.reads_tagged`: reading scalars.
* `Yaml.Builder.reads_sequence`, `Yaml.Builder.reads_mapping`: reading collections in block style.
-/

namespace ForthFrontend.Yaml.Builder

open Lexer (Feeds)

/-- The reader takes tokens with the given shapes and gives a result with the property `post`. If
`ready` is set, the first of the tokens was looked at already. -/
structure Reads {α : Type} (ready : Bool) (x : Build α) (shapes : List Token.Shape)
    (post : α → Prop) : Prop where
  result : ∀ {b : Builder} {fails : Bool} {rest : List Token.Shape}, b.handles = defaultHandles →
    (ready = true → ∃ t, b.lexer.peek = .ok (t, b.lexer)) → Feeds fails (shapes ++ rest) b.lexer →
    ∃ a b', x.run b = .ok (a, b') ∧ post a ∧ b'.handles = defaultHandles ∧
      Feeds fails rest b'.lexer
  failure : ∀ {b : Builder} {start : List Token.Shape}, b.handles = defaultHandles →
    (ready = true → ∃ t, b.lexer.peek = .ok (t, b.lexer)) → start <+: shapes → start ≠ shapes →
    Feeds true start b.lexer → ∃ e, x.run b = .error e

theorem run_bind_ok {α β : Type} {x : Build α} {f : α → Build β} {a : α} {b b' : Builder}
    (h : x.run b = .ok (a, b')) : (x >>= f).run b = (f a).run b' := by
  rw [StateT.run_bind, h]
  rfl

theorem run_bind_error {α β : Type} {x : Build α} {f : α → Build β} {e : SyntaxError} {b : Builder}
    (h : x.run b = .error e) : (x >>= f).run b = .error e := by
  rw [StateT.run_bind, h]
  rfl

theorem run_peek {b : Builder} {t : Token} {l : Lexer} (h : b.lexer.peek = .ok (t, l)) :
    peek.run b = .ok (t, { b with lexer := l }) := by
  simp only [peek, StateT.run_bind, StateT.run_get, pure_bind, h]
  rfl

theorem run_peek_error {b : Builder} {e : SyntaxError} (h : b.lexer.peek = .error e) :
    peek.run b = .error e := by
  simp only [peek, StateT.run_bind, StateT.run_get, pure_bind, h]
  rfl

section Reads

variable {α β : Type} {ready : Bool} {x : Build α} {shapes : List Token.Shape} {post : α → Prop}

theorem reads_pure {a : α} (h : post a) : Reads ready (pure a) [] post where
  result hb _ hfeeds := ⟨a, _, rfl, h, hb, hfeeds⟩
  failure _ _ hfront hne := absurd (List.prefix_nil.1 hfront) hne

theorem Reads.imp {post' : α → Prop} (h : Reads ready x shapes post)
    (himp : ∀ a, post a → post' a) : Reads ready x shapes post' where
  result hb hready hfeeds := by
    obtain ⟨a, b', hrun, ha, hrest⟩ := h.result hb hready hfeeds
    exact ⟨a, b', hrun, himp a ha, hrest⟩
  failure := h.failure

/-- **One reader after another.** -/
theorem Reads.bind {f : α → Build β} {shapes' : List Token.Shape} {post' : β → Prop}
    (h : Reads ready x shapes post) (hf : ∀ a, post a → Reads false (f a) shapes' post') :
    Reads ready (x >>= f) (shapes ++ shapes') post' where
  result := by
    intro b fails rest hb hready hfeeds
    rw [List.append_assoc] at hfeeds
    obtain ⟨a, b', hrun, ha, hb', hfeeds'⟩ := h.result hb hready hfeeds
    obtain ⟨c, b'', hrun', hc⟩ := (hf a ha).result hb' (by simp) hfeeds'
    exact ⟨c, b'', (run_bind_ok hrun).trans hrun', hc⟩
  failure := by
    intro b start hb hready hfront hne hfeeds
    by_cases hcut : shapes <+: start
    · obtain ⟨start', rfl⟩ := hcut
      rw [List.prefix_append_right_inj] at hfront
      have hne' : start' ≠ shapes' := fun he => hne (by rw [he])
      obtain ⟨a, b', hrun, ha, hb', hfeeds'⟩ := h.result hb hready hfeeds
      obtain ⟨e, he⟩ := (hf a ha).failure hb' (by simp) hfront hne' hfeeds'
      exact ⟨e, (run_bind_ok hrun).trans he⟩
    · have hstart := (List.prefix_or_prefix_of_prefix hfront (List.prefix_append shapes shapes'))
        |>.resolve_right hcut
      have hne' : start ≠ shapes := fun he => hcut (he ▸ List.prefix_rfl)
      obtain ⟨e, he⟩ := h.failure hb hready hstart hne' hfeeds
      exact ⟨e, run_bind_error he⟩

theorem Reads.map {f : α → β} {post' : β → Prop} (h : Reads ready x shapes post)
    (hf : ∀ a, post a → post' (f a)) : Reads ready (x >>= fun a => pure (f a)) shapes post' := by
  rw [← List.append_nil shapes]
  exact h.bind fun a ha => reads_pure (hf a ha)

/-- Looking at the next token. -/
theorem reads_peek {shape : Token.Shape} {f : Token → Build α}
    (h : ∀ t, t.shape = shape → Reads true (f t) (shape :: shapes) post) :
    Reads ready (peek >>= f) (shape :: shapes) post where
  result := by
    intro b fails rest hb _ hfeeds
    obtain ⟨t, l, hpeek, hagain, ht, hrest⟩ := hfeeds
    obtain ⟨a, b', hrun, ha⟩ := (h t ht).result (b := { b with lexer := l }) hb
      (fun _ => ⟨t, hagain⟩) ⟨t, l, hagain, hagain, ht, hrest⟩
    exact ⟨a, b', (run_bind_ok (run_peek hpeek)).trans hrun, ha⟩
  failure := by
    intro b start hb _ hfront hne hfeeds
    cases start with
    | nil =>
      obtain ⟨e, he⟩ := hfeeds rfl
      exact ⟨e, run_bind_error (run_peek_error he)⟩
    | cons shape' start =>
      obtain ⟨t, l, hpeek, hagain, ht, hrest⟩ := hfeeds
      obtain rfl := (List.cons_prefix_cons.1 hfront).1
      obtain ⟨e, he⟩ := (h t ht).failure (b := { b with lexer := l }) hb (fun _ => ⟨t, hagain⟩)
        hfront hne ⟨t, l, hagain, hagain, ht, hrest⟩
      exact ⟨e, (run_bind_ok (run_peek hpeek)).trans he⟩

/-- Moving past a token that was looked at. -/
theorem reads_drop {shape : Token.Shape} {f : PUnit → Build α}
    (h : Reads false (f ⟨⟩) shapes post) : Reads true (drop >>= f) (shape :: shapes) post where
  result := by
    intro b fails rest hb hready hfeeds
    obtain ⟨t, hpeek⟩ := hready rfl
    obtain ⟨u, l, hpeek', -, -, hrest⟩ := hfeeds
    rw [hpeek] at hpeek'
    cases hpeek'
    exact h.result (b := { b with lexer := b.lexer.drop }) hb (by simp) hrest
  failure := by
    intro b start hb hready hfront hne hfeeds
    obtain ⟨t, hpeek⟩ := hready rfl
    cases start with
    | nil =>
      obtain ⟨e, he⟩ := hfeeds rfl
      rw [hpeek] at he
      cases he
    | cons shape' start =>
      obtain ⟨u, l, hpeek', -, -, hrest⟩ := hfeeds
      rw [hpeek] at hpeek'
      cases hpeek'
      obtain ⟨rfl, hstart⟩ := List.cons_prefix_cons.1 hfront
      have hne' : start ≠ shapes := fun he => hne (by rw [he])
      exact h.failure (b := { b with lexer := b.lexer.drop }) hb (by simp) hstart hne' hrest

/-- A step that takes no token. -/
theorem reads_of_run {β : Type} {x : Build β} {c : β} {f : β → Build α}
    (hx : ∀ b : Builder, b.handles = defaultHandles → x.run b = .ok (c, b))
    (h : Reads ready (f c) shapes post) : Reads ready (x >>= f) shapes post where
  result := by
    intro b fails rest hb hready hfeeds
    rw [run_bind_ok (hx b hb)]
    exact h.result hb hready hfeeds
  failure := by
    intro b start hb hready hfront hne hfeeds
    rw [run_bind_ok (hx b hb)]
    exact h.failure hb hready hfront hne hfeeds

end Reads

/-! ### Nodes -/

/-- The shapes that begin nodes without properties. -/
inductive Begins : Token.Shape → Prop where
  | scalar (text : Bytes) (style : Style) : Begins (.scalar text style)
  | sequence : Begins .blockSequenceStart
  | mapping : Begins .blockMappingStart

section Nodes

variable {ready inBlock indentless : Bool}

/-- A node without properties is its content. -/
theorem reads_node {fuel : Nat} {shape : Token.Shape} {shapes : List Token.Shape}
    {post : Node → Prop} (hshape : Begins shape)
    (h : ∀ u began, u.shape = shape →
      Reads true (content fuel inBlock indentless false [] began u) (shape :: shapes) post) :
    Reads ready (node (fuel + 1) inBlock indentless) (shape :: shapes) post := by
  rw [node]
  refine reads_peek fun t ht => ?_
  have hproperties : properties t = pure {} := by
    unfold properties
    rw [ht]
    cases hshape <;> rfl
  have hrest : Reads true (peek >>= fun u => content fuel inBlock indentless false [] t.line u)
      (shape :: shapes) post := reads_peek fun u hu => h u t.line hu
  rw [ht, hproperties]
  cases hshape <;>
  · simp only [pure_bind, tagName, openAnchor, closeAnchor, bind_pure]
    exact hrest

/-- A scalar with a given tag, on any line. -/
def IsScalarNode (tag : Tag) (text : Bytes) (n : Node) : Prop :=
  ∃ line, n = .scalar tag text line

section Scalars

variable {text : Bytes} {style : Style}

/-- The content of a node that is a scalar. -/
theorem reads_content_scalar (fuel : Nat) (anchored : Bool) (tag : Bytes) (began : Nat) {u : Token}
    (hu : u.shape = .scalar text style) :
    Reads true (content (fuel + 1) inBlock indentless anchored tag began u) [.scalar text style]
      (IsScalarNode (tagOr tag (impliedTag text style)) text) := by
  rw [content]
  simp only [hu]
  exact reads_drop (reads_pure ⟨_, rfl⟩)

/-- **A scalar without a tag.** -/
theorem reads_scalar (fuel : Nat) :
    Reads ready (node (fuel + 2) inBlock indentless) [.scalar text style]
      (IsScalarNode (impliedTag text style) text) :=
  reads_node (.scalar text style) fun _ began hu => reads_content_scalar fuel false [] began hu

/-- **A scalar with a tag** that a handle abbreviates. -/
theorem reads_tagged (fuel : Nat) {handle start suffix : Bytes} (hhandle : handle ≠ [])
    (hstart : defaultHandles.lookup handle = some start) (hname : start ++ suffix ≠ []) :
    Reads ready (node (fuel + 2) inBlock indentless) [.tag handle suffix, .scalar text style]
      (IsScalarNode (tagOr (start ++ suffix) (impliedTag text style)) text) := by
  rw [node]
  refine reads_peek fun t ht => ?_
  simp only [ht, properties, bind_assoc]
  refine reads_drop ?_
  refine reads_peek fun u hu => ?_
  simp only [hu, pure_bind]
  refine reads_peek fun u hu => ?_
  have hempty : handle.isEmpty = false := by simpa using hhandle
  have hempty' : (start ++ suffix).isEmpty = false := by simpa using hname
  refine reads_of_run (c := start ++ suffix) (fun b hb => ?_) ?_
  · simp only [tagName, hempty, hb, hstart, hempty', StateT.run_bind, StateT.run_get, pure_bind,
      Bool.false_eq_true, ↓reduceIte]
    rfl
  · simp only [openAnchor, closeAnchor, pure_bind, bind_pure]
    exact reads_content_scalar fuel _ _ _ hu

end Scalars

/-! ### Collections -/

section Collections

variable {ι : Type} {xs : List ι} {shapesOf : ι → List Token.Shape} {post : ι → Node → Prop}
  {depth : Nat}

/-- The items of a sequence in block style. -/
theorem reads_blockItems {fuel : Nat} (began : Nat) (found : List Node)
    (hitem : ∀ x ∈ xs, ∀ k, depth ≤ k → Reads true (node k true false) (shapesOf x) (post x))
    (hfirst : ∀ x ∈ xs, ∃ shape rest, shapesOf x = shape :: rest ∧ endsBlockItem shape = false)
    (hfuel : xs.length + depth < fuel) :
    Reads ready (blockItems fuel began found)
      (xs.flatMap (fun x => .blockEntry :: shapesOf x) ++ [.blockEnd])
      (fun ns => ∃ ms, ns = found.reverse ++ ms ∧ List.Forall₂ post xs ms) := by
  induction xs generalizing fuel found ready with
  | nil =>
    obtain ⟨fuel, rfl⟩ : ∃ k, fuel = k + 1 := ⟨fuel - 1, by omega⟩
    rw [blockItems]
    refine reads_peek fun t ht => ?_
    simp only [ht]
    exact reads_drop (reads_pure ⟨[], by simp, .nil⟩)
  | cons x xs ih =>
    obtain ⟨fuel, rfl⟩ : ∃ k, fuel = k + 1 := ⟨fuel - 1, by omega⟩
    rw [List.length_cons] at hfuel
    rw [blockItems, List.flatMap_cons, List.cons_append, List.cons_append, List.append_assoc]
    refine reads_peek fun t ht => ?_
    simp only [ht]
    refine reads_drop ?_
    obtain ⟨shape, rest, hshape, hends⟩ := hfirst x (by simp)
    have hnode : Reads true (node fuel true false >>= fun n => blockItems fuel began (n :: found))
        (shapesOf x ++ (xs.flatMap (fun x => .blockEntry :: shapesOf x) ++ [.blockEnd]))
        (fun ns => ∃ ms, ns = found.reverse ++ ms ∧ List.Forall₂ post (x :: xs) ms) := by
      refine (hitem x (by simp) fuel (by omega)).bind fun n hn => ?_
      refine (ih (n :: found) (fun y hy => hitem y (by simp [hy]))
        (fun y hy => hfirst y (by simp [hy])) (by omega)).imp ?_
      rintro ns ⟨ms, rfl, hms⟩
      exact ⟨n :: ms, by simp, .cons hn hms⟩
    rw [hshape] at hnode ⊢
    refine reads_peek fun u hu => ?_
    rw [hu, hends]
    exact hnode

/-- **A sequence** in block style. -/
theorem reads_sequence {fuel : Nat}
    (hitem : ∀ x ∈ xs, ∀ k, depth ≤ k → Reads true (node k true false) (shapesOf x) (post x))
    (hfirst : ∀ x ∈ xs, ∃ shape rest, shapesOf x = shape :: rest ∧ endsBlockItem shape = false)
    (hfuel : xs.length + depth + 2 < fuel) :
    Reads ready (node fuel true indentless)
      (.blockSequenceStart :: (xs.flatMap (fun x => .blockEntry :: shapesOf x) ++ [.blockEnd]))
      (fun n => ∃ ms line, n = .sequence .sequence ms line ∧ List.Forall₂ post xs ms) := by
  obtain ⟨fuel, rfl⟩ : ∃ k, fuel = k + 2 := ⟨fuel - 2, by omega⟩
  refine reads_node .sequence fun u began hu => ?_
  rw [content]
  simp only [hu]
  rw [if_neg (by simp), if_pos (by simp)]
  refine reads_drop ((reads_blockItems _ [] hitem hfirst (by omega)).map ?_)
  rintro ns ⟨ms, rfl, hms⟩
  exact ⟨_, _, rfl, hms⟩

/-- A mapping entry: a key without quotes and a value with a property. -/
def IsEntry (name : Bytes) (post : Node → Prop) (entry : Node × Node) : Prop :=
  IsScalarNode (impliedTag name .plain) name entry.1 ∧ post entry.2

/-- The value of an entry. -/
theorem reads_blockValue {shapes : List Token.Shape} {post : Node → Prop} (fuel : Nat)
    (hvalue : Reads true (node fuel true true) shapes post)
    (hfirst : ∃ shape rest, shapes = shape :: rest ∧ endsBlockValue shape = false) :
    Reads ready (blockValue (fuel + 1)) (.value :: shapes) post := by
  rw [blockValue]
  refine reads_peek fun t ht => ?_
  simp only [ht]
  refine reads_drop ?_
  obtain ⟨shape, rest, rfl, hends⟩ := hfirst
  refine reads_peek fun u hu => ?_
  rw [hu, hends]
  exact hvalue

/-- The entries of a mapping in block style. -/
theorem reads_blockEntries {fuel : Nat} {nameOf : ι → Bytes} (began : Nat)
    (found : List (Node × Node))
    (hvalue : ∀ x ∈ xs, ∀ k, depth ≤ k → Reads true (node k true true) (shapesOf x) (post x))
    (hfirst : ∀ x ∈ xs, ∃ shape rest, shapesOf x = shape :: rest ∧ endsBlockValue shape = false)
    (hfuel : xs.length + depth + 2 < fuel) :
    Reads ready (blockEntries fuel began found)
      (xs.flatMap (fun x => .key :: .scalar (nameOf x) .plain :: .value :: shapesOf x) ++
        [.blockEnd])
      (fun es => ∃ ms, es = found.reverse ++ ms ∧
        List.Forall₂ (fun x => IsEntry (nameOf x) (post x)) xs ms) := by
  induction xs generalizing fuel found ready with
  | nil =>
    obtain ⟨fuel, rfl⟩ : ∃ k, fuel = k + 1 := ⟨fuel - 1, by omega⟩
    rw [blockEntries]
    refine reads_peek fun t ht => ?_
    simp only [ht]
    exact reads_drop (reads_pure ⟨[], by simp, .nil⟩)
  | cons x xs ih =>
    obtain ⟨fuel, rfl⟩ : ∃ k, fuel = k + 3 := ⟨fuel - 3, by omega⟩
    rw [List.length_cons] at hfuel
    rw [blockEntries, List.flatMap_cons, List.append_assoc, List.cons_append, List.cons_append]
    refine reads_peek fun t ht => ?_
    simp only [ht]
    refine reads_drop ?_
    refine reads_peek fun u hu => ?_
    simp only [hu, endsBlockValue, Bool.false_eq_true, ↓reduceIte]
    rw [← List.singleton_append]
    refine (reads_scalar fuel).bind fun k hk => ?_
    refine (reads_blockValue (fuel + 1) (hvalue x (by simp) _ (by omega))
      (hfirst x (by simp))).bind fun v hv => ?_
    refine (ih ((k, v) :: found) (fun y hy => hvalue y (by simp [hy]))
      (fun y hy => hfirst y (by simp [hy])) (by omega)).imp ?_
    rintro es ⟨ms, rfl, hms⟩
    exact ⟨(k, v) :: ms, by simp, .cons ⟨hk, hv⟩ hms⟩

/-- **A mapping** in block style. -/
theorem reads_mapping {fuel : Nat} {nameOf : ι → Bytes}
    (hvalue : ∀ x ∈ xs, ∀ k, depth ≤ k → Reads true (node k true true) (shapesOf x) (post x))
    (hfirst : ∀ x ∈ xs, ∃ shape rest, shapesOf x = shape :: rest ∧ endsBlockValue shape = false)
    (hfuel : xs.length + depth + 4 < fuel) :
    Reads ready (node fuel true indentless)
      (.blockMappingStart ::
        (xs.flatMap (fun x => .key :: .scalar (nameOf x) .plain :: .value :: shapesOf x) ++
          [.blockEnd]))
      (fun n => ∃ ms line, n = .mapping .mapping ms line ∧
        List.Forall₂ (fun x => IsEntry (nameOf x) (post x)) xs ms) := by
  obtain ⟨fuel, rfl⟩ : ∃ k, fuel = k + 2 := ⟨fuel - 2, by omega⟩
  refine reads_node .mapping fun u began hu => ?_
  rw [content]
  simp only [hu]
  rw [if_neg (by simp), if_neg (by simp), if_pos (by simp)]
  refine reads_drop ((reads_blockEntries _ [] hvalue hfirst (by omega)).map ?_)
  rintro es ⟨ms, rfl, hms⟩
  exact ⟨_, _, rfl, hms⟩

end Collections

end Nodes

/-! ### Documents -/

section Root

variable {fuel : Nat} {shape : Token.Shape} {shapes : List Token.Shape} {post : Node → Prop}
  {l : Lexer}

/-- The root of a document is read behind the mark of its beginning. -/
theorem run_root {t u : Token} {l₁ l₂ : Lexer} (hshape : Begins shape) (hfuel : 0 < fuel)
    (hl : l.peek = .ok (t, l₁)) (hl₁ : l₁.drop.peek = .ok (u, l₂)) (hl₂ : l₂.peek = .ok (u, l₂))
    (hu : u.shape = shape) :
    (root fuel).run { lexer := l } =
      (node fuel true false >>= fun n => peek >>= fun _ => pure (some n)).run
        { lexer := l₂, handles := defaultHandles } := by
  obtain ⟨fuel, rfl⟩ : ∃ k, fuel = k + 1 := ⟨fuel - 1, by omega⟩
  have hdirectives : (directives (fuel + 1) false []).run { lexer := l₂ } =
      .ok (⟨⟩, { lexer := l₂, handles := defaultHandles }) := by
    rw [directives, run_bind_ok (run_peek (b := { lexer := l₂ }) hl₂), hu]
    cases hshape <;> rfl
  have hdrop : drop.run { lexer := l₁ } = .ok (⟨⟩, { lexer := l₁.drop }) := rfl
  rw [root, run_bind_ok (run_peek hl), run_bind_ok hdrop,
    run_bind_ok (run_peek (b := { lexer := l₁.drop }) hl₁), hu]
  cases hshape <;> exact run_bind_ok hdirectives

/-- **The root of a document** is read if all its tokens are fed. -/
theorem root_result (hshape : Begins shape) (hfuel : 0 < fuel)
    (hnode : Reads true (node fuel true false) (shape :: shapes) post)
    (hfeeds : Feeds false (.streamStart :: shape :: shapes ++ [.streamEnd]) l) :
    ∃ n b, (root fuel).run { lexer := l } = .ok (some n, b) ∧ post n := by
  obtain ⟨t, l₁, hl, -, -, u, l₂, hl₁, hl₂, hu, hrest⟩ := hfeeds
  have hfeeds₂ : Feeds false (shape :: shapes ++ [.streamEnd]) l₂ := ⟨u, l₂, hl₂, hl₂, hu, hrest⟩
  obtain ⟨n, b, hrun, hn, -, v, l₃, hl₃, -⟩ := hnode.result
    (b := { lexer := l₂, handles := defaultHandles }) rfl (fun _ => ⟨u, hl₂⟩) hfeeds₂
  refine ⟨n, { b with lexer := l₃ }, ?_, hn⟩
  rw [run_root hshape hfuel hl hl₁ hl₂ hu, run_bind_ok hrun, run_bind_ok (run_peek hl₃)]
  rfl

/-- The root of a document is not read if the lexer fails before its last token. -/
theorem root_failure {start : List Token.Shape} (hshape : Begins shape) (hfuel : 0 < fuel)
    (hnode : Reads true (node fuel true false) (shape :: shapes) post)
    (hfront : start <+: .streamStart :: shape :: shapes)
    (hne : start ≠ .streamStart :: shape :: shapes) (hfeeds : Feeds true start l) :
    ∃ e, (root fuel).run { lexer := l } = .error e := by
  cases start with
  | nil =>
    obtain ⟨e, he⟩ := hfeeds rfl
    exact ⟨e, run_bind_error (run_peek_error he)⟩
  | cons first start =>
    obtain ⟨rfl, hfront'⟩ := List.cons_prefix_cons.1 hfront
    have hne' : start ≠ shape :: shapes := fun he => hne (by rw [he])
    obtain ⟨t, l₁, hl, -, -, hrest⟩ := hfeeds
    cases start with
    | nil =>
      obtain ⟨e, he⟩ := hrest rfl
      have hdrop : drop.run { lexer := l₁ } = .ok (⟨⟩, { lexer := l₁.drop }) := rfl
      refine ⟨e, ?_⟩
      rw [root, run_bind_ok (run_peek hl), run_bind_ok hdrop]
      exact run_bind_error (run_peek_error he)
    | cons second start =>
      obtain rfl := (List.cons_prefix_cons.1 hfront').1
      obtain ⟨u, l₂, hl₁, hl₂, hu, hrest⟩ := hrest
      obtain ⟨e, he⟩ := hnode.failure (b := { lexer := l₂, handles := defaultHandles }) rfl
        (fun _ => ⟨u, hl₂⟩) hfront' hne' ⟨u, l₂, hl₂, hl₂, hu, hrest⟩
      refine ⟨e, ?_⟩
      rw [run_root hshape hfuel hl hl₁ hl₂ hu]
      exact run_bind_error he

end Root

end ForthFrontend.Yaml.Builder
