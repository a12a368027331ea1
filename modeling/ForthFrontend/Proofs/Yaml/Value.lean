import ForthFrontend.Proofs.Yaml.Implicit
import ForthFrontend.Proofs.Yaml.Token.Style
import ForthFrontend.Proofs.Yaml.Tree
import ForthFrontend.Yaml.Value

/-!
# The values of nodes

The tokens of a text make a node that stands for the text, whichever style it was written in. Nodes
are then read as values: lists of nodes, and mappings whose keys are the names of fields.

## Main definitions

* `Yaml.IsText`, `Yaml.IsInteger`: nodes that stand for a text or an integer.

## Main results

* `Yaml.Builder.reads_text`: the node of a text.
* `Yaml.isInteger_of_isScalarNode`: the node of an integer.
* `Yaml.list_sequence`, `Yaml.record_mapping`: the values of collections.
-/

namespace ForthFrontend.Yaml

/-! ### Scalars -/

/-- A scalar that stands for a text. -/
def IsText (v : Bytes) (n : Node) : Prop :=
  ∃ tag text, Builder.IsScalarNode tag text n ∧ scalarContent tag text = .ok (.text v)

/-- A scalar that stands for an integer. -/
def IsInteger (k : Int) (n : Node) : Prop :=
  ∃ tag text, Builder.IsScalarNode tag text n ∧ scalarContent tag text = .ok (.integer k)

section Scalars

variable {scope : Scope} {n : Node}

/-- A decimal numeral without quotes stands for its integer. -/
theorem isInteger_of_isScalarNode {k : Int} (hk : Decimal.fitsInt64 k = true)
    (h : Builder.IsScalarNode (Builder.impliedTag (Decimal.ofInt k) .plain) (Decimal.ofInt k) n) :
    IsInteger k n := by
  refine ⟨_, _, h, ?_⟩
  have htag : Builder.impliedTag (Decimal.ofInt k) .plain = .integer := by
    simp [Builder.impliedTag, meaning, meaningOf_ofInt _ hk, Meaning.tag]
  rw [htag]
  simp [scalarContent, meaningOf_ofInt _ hk, Meaning.tag, Meaning.content]

theorem text_of_isText {v : Bytes} (h : IsText v n) : text scope n = pure (some v) := by
  obtain ⟨tag, s, ⟨line, rfl⟩, hcontent⟩ := h
  simp only [text, Scope.follow, hcontent]
  rfl

theorem integer_of_isInteger {k : Int} (h : IsInteger k n) (hk : Decimal.fitsInt64 k = true) :
    integer scope n = pure (some k) := by
  obtain ⟨tag, s, ⟨line, rfl⟩, hcontent⟩ := h
  simp only [integer, Scope.follow, hcontent]
  have : (liftM (m := Except Problem) (n := Decode)
    (Except.ok (Scalar.Content.integer k))) = pure (.integer k) := rfl
  simp [this, hk]

end Scalars

namespace Builder

open Scalar (shapes readText style isLiteral binaryLetters)

variable {ready inBlock indentless : Bool}

/-- The tag of a text that needs no tag of its own. -/
theorem impliedTag_style {s v : Bytes} (hv : style false (!needsQuotes s) s = .plain → v = s) :
    impliedTag v (style false (!needsQuotes s) s) = .text := by
  unfold impliedTag
  split
  · next hst =>
    rw [beq_iff_eq] at hst
    rcases Scalar.style_cases false (!needsQuotes s) s with ⟨h, -⟩ | ⟨-, hloose, -⟩ | ⟨h, -⟩ | h
    · rw [hst] at h
      cases h
    · rw [hv hst, meaning_of_not_needsQuotes (by simpa using hloose)]
      rfl
    all_goals
      rw [hst] at h
      cases h
  · rfl

/-- **The node of a text** stands for the text, up to what its style loses. -/
theorem reads_text (fuel : Nat) (s : Bytes) :
    Reads ready (node (fuel + 2) inBlock indentless) (shapes s) (IsText (readText s)) := by
  unfold shapes
  split
  · refine (reads_scalar fuel).imp fun n hn => ⟨_, _, hn, ?_⟩
    rw [impliedTag_style]
    · rfl
    · intro hst
      rw [readText, isLiteral, hst, if_neg (by simp)]
  · next hvalid =>
    have hread : readText s = s := by simp [readText, isLiteral, hvalid]
    have hstart : defaultHandles.lookup [0x21, 0x21] = some Tag.longStart := by decide
    have htag : tagOr (Tag.longStart ++ encodeAll binaryName)
        (impliedTag (binaryLetters s) (style false true (binaryLetters s))) = .binary := by
      have hne : (Tag.longStart ++ encodeAll binaryName).isEmpty = false := by decide
      have hbang : (Tag.longStart ++ encodeAll binaryName == [0x21]) = false := by decide
      have hname : Tag.ofName (Tag.longStart ++ encodeAll binaryName) = .binary := by decide
      rw [tagOr, hne, hbang, Bool.or_false, if_neg (by simp), hname]
    refine (reads_tagged fuel (by simp) hstart (by decide)).imp fun n hn => ⟨_, _, hn, ?_⟩
    rw [htag, hread, scalarContent, Scalar.decode?_binaryLetters]

end Builder

/-! ### Collections -/

section Collections

variable {ι α : Type} {xs : List ι} {scope : Scope}

/-- Reading one node after another. -/
theorem filterMapM_forall₂ {ms : List Node} {post : ι → Node → Prop} {value : ι → α}
    {item : Node → Decode (Option α)} (h : List.Forall₂ post xs ms)
    (hitem : ∀ x n, post x n → item n = pure (some (value x))) :
    ms.filterMapM item = pure (xs.map value) := by
  induction h with
  | nil => rfl
  | cons hx _ ih =>
    rw [List.filterMapM_cons, hitem _ _ hx, pure_bind, ih]
    exact pure_bind _ _

/-- **The value of a sequence.** -/
theorem list_sequence {ms : List Node} {post : ι → Node → Prop} {value : ι → α} {wanted : Bytes}
    {item : Scope → Node → Decode (Option α)} (tag : Tag) (line : Nat)
    (h : List.Forall₂ post xs ms)
    (hitem : ∀ x n, post x n → item scope n = pure (some (value x))) :
    list wanted item scope (.sequence tag ms line) = pure (some (xs.map value)) := by
  simp only [list, Scope.follow, filterMapM_forall₂ h hitem, pure_bind]

variable {nameOf : ι → Bytes} {post : ι → Node → Prop} {es : List (Node × Node)}

theorem map_label_of_isEntry
    (h : List.Forall₂ (fun x => Builder.IsEntry (nameOf x) (post x)) xs es) :
    (es.map Prod.fst).map Node.label = xs.map nameOf := by
  induction h with
  | nil => rfl
  | cons hx _ ih =>
    obtain ⟨⟨line, hkey⟩, -⟩ := hx
    rw [List.map_cons, List.map_cons, List.map_cons, hkey, ih]
    rfl

theorem repeatedKeys_of_nodup {ks : List Node} (h : (ks.map Node.label).Nodup) :
    repeatedKeys ks = [] := by
  induction ks with
  | nil => rfl
  | cons k ks ih =>
    rw [List.map_cons, List.nodup_cons] at h
    have hnone : (ks.filter fun r => r.kind == k.kind && r.label == k.label) = [] := by
      refine List.filter_eq_nil_iff.2 fun r hr hsame => h.1 ?_
      rw [Bool.and_eq_true, beq_iff_eq, beq_iff_eq] at hsame
      exact hsame.2 ▸ List.mem_map_of_mem hr
    rw [repeatedKeys, hnone, ih h.2]
    rfl

/-- The field with a given name takes nodes with a property and changes records by `update`. -/
def Sets (fields : List (Field α)) (scope : Scope) (name : Bytes) (post : Node → Prop)
    (update : α → α) : Prop :=
  ∃ field, fields.find? (·.name == name) = some field ∧
    ∀ n v, post n → field.set scope n v = pure (update v)

section Record

variable {fields : List (Field α)} {updates : List (α → α)}
  (htag : ∀ x ∈ xs, Builder.impliedTag (nameOf x) .plain = .text)
  (hnodup : (xs.map nameOf).Nodup)
  (h : List.Forall₂ (fun x => Builder.IsEntry (nameOf x) (post x)) xs es)
  (hset : List.Forall₂ (fun x => Sets fields scope (nameOf x) (post x)) xs updates)

include htag hnodup h hset

/-- The entries of a mapping set the fields of a record one after another. -/
theorem foldlM_add (wanted : Bytes) (v : α) (done : List Bytes)
    (hdone : ∀ x ∈ xs, nameOf x ∉ done) :
    es.foldlM (Progress.add wanted fields scope) { value := v, done := done } =
      pure { value := updates.foldl (fun v update => update v) v,
             done := (xs.map nameOf).reverse ++ done } := by
  induction h generalizing v done updates with
  | nil =>
    cases hset
    rfl
  | @cons x entry xs es hx _ ih =>
    obtain _ | @⟨_, update, _, updates, ⟨field, hfind, hfield⟩, hrest⟩ := hset
    obtain ⟨⟨line, hkey⟩, hvalue⟩ := hx
    rw [htag x (by simp)] at hkey
    rw [List.map_cons, List.nodup_cons] at hnodup
    have hmerge : isMergeKey entry.1 = false := by
      rw [hkey]
      rfl
    have htext : text scope entry.1 = pure (some (nameOf x)) := by
      rw [hkey]
      exact text_of_isText ⟨.text, nameOf x, ⟨line, rfl⟩, rfl⟩
    have hstep : Progress.add wanted fields scope { value := v, done := done } entry =
        pure { value := update v, done := nameOf x :: done } := by
      simp [Progress.add, hmerge, htext, hfind, hdone x (by simp), hfield _ v hvalue]
    rw [List.foldlM_cons, hstep, pure_bind,
      ih (fun y hy => htag y (by simp [hy])) hnodup.2 hrest]
    · simp
    · intro y hy
      rw [List.mem_cons, not_or]
      refine ⟨?_, hdone y (by simp [hy])⟩
      intro heq
      exact hnodup.1 (heq ▸ List.mem_map_of_mem hy)

/-- **The value of a mapping** whose keys are names of fields. -/
theorem record_mapping {fuel : Nat} (hfuel : 0 < fuel) (wanted : Bytes) (start : α) (tag : Tag)
    (line : Nat) :
    record fuel wanted fields start scope (.mapping tag es line) =
      pure (some (updates.foldl (fun v update => update v) start)) := by
  obtain ⟨fuel, rfl⟩ : ∃ k, fuel = k + 1 := ⟨fuel - 1, by omega⟩
  have hkeys : checkKeys es = pure true := by
    rw [checkKeys, repeatedKeys_of_nodup (by rwa [map_label_of_isEntry h])]
    rfl
  have hentries := foldlM_add htag hnodup h hset wanted start [] (by simp)
  simp only [record, Scope.follow, hkeys, recordEntries, hentries, pure_bind, ↓reduceIte]

end Record

end Collections

end ForthFrontend.Yaml
