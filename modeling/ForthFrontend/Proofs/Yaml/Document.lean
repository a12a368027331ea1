import ForthFrontend.Proofs.Yaml.Character
import ForthFrontend.Proofs.Yaml.Token.Layout
import ForthFrontend.Proofs.Yaml.Value
import ForthFrontend.Yaml.Document

/-!
# Reading written documents

A document is written and then read again. The documents here are records of lists, and the items of
the lists are scalars or records of scalars. For each part of such a document there are its
characters, its tokens, and the nodes that its tokens make.

## Main definitions

* `Yaml.Document.IsLeaf`, `Yaml.Document.IsItem`: scalars, and the items of lists.
* `Yaml.Document.isSound`: no scalar in the document is a literal block with a leading tab.
* `Yaml.Document.IsNode`: the nodes that stand for a document.

## Main results

* `Yaml.Document.read_write`: a sound document is read as a node that stands for it.
* `Yaml.Document.read_write_error`: a document that is not sound cannot be read.
-/

namespace ForthFrontend.Yaml.Document

open Builder (Reads node IsEntry IsScalarNode impliedTag endsBlockItem endsBlockValue)
open Lexer (ScansValue ScansBlock IsName)
open Scalar (chars isTabbed readText)

/-! ### Scalars -/

/-- Documents that are scalars. -/
inductive IsLeaf : Document → Prop where
  | text (s : Bytes) : IsLeaf (.text s)
  | integer (n : Int64) : IsLeaf (.integer n)

/-- The characters of a scalar in a block at column `c`, up to the end of its line. -/
def leafChars (c : Nat) : Document → List Nat
  | .text s => endChars (chars ⟨false, c + 2, 2⟩ s)
  | .bare s => ascii s ++ [0x0A]
  | _ => []

/-- The characters of a scalar behind a colon. -/
def valueChars (c : Nat) (d : Document) : List Nat :=
  0x20 :: leafChars c d

/-- The tokens of a scalar. -/
def leafShapes : Document → List Token.Shape
  | .text s => Scalar.shapes s
  | .bare s => [.scalar s .plain]
  | _ => []

/-- Is the scalar no literal block with a leading tab? -/
def isSoundLeaf : Document → Bool
  | .text s => !isTabbed s
  | _ => true

/-- The nodes that stand for a scalar. -/
def IsLeafNode : Document → Node → Prop
  | .text s, n => IsText (readText s) n
  | .bare s, n => IsScalarNode (impliedTag s .plain) s n
  | _, _ => False

section Leaf

variable {d : Document} {c : Nat}

theorem isAllowed_of_mem_ofInt64 (n : Int64) :
    ∀ v ∈ ascii (Decimal.ofInt64 n), isAllowed v = true := by
  refine Scalar.isAllowed_of_mem_ascii fun b hb => ?_
  have := Lexer.toNat_of_mem_ofInt hb
  omega

theorem isAllowed_of_mem_leafChars (h : IsLeaf d) : ∀ v ∈ leafChars c d, isAllowed v = true := by
  cases h with
  | text s => exact isAllowed_of_mem_endChars (Scalar.isAllowed_of_mem_chars _ s)
  | integer n =>
    intro v hv
    rcases List.mem_append.1 hv with hv | hv
    · exact isAllowed_of_mem_ofInt64 n v hv
    · rw [List.mem_singleton.1 hv]
      rfl

theorem sequel_leafChars (h : IsLeaf d) (r : List Nat) : Sequel (leafChars c d ++ r) := by
  cases h with
  | text s => exact Scalar.sequel_chars s _ r
  | integer n =>
    obtain ⟨v, ws, hvs, -, hbegins⟩ := Lexer.ascii_ofInt n.toInt
    have hchars : leafChars c (.integer n) = v :: ws ++ [0x0A] := congrArg (· ++ [0x0A]) hvs
    rw [hchars]
    refine sequel_cons.2 ⟨hbegins.not_blank, hbegins.not_break, ?_⟩
    rintro rfl
    exact hbegins.not_leading (by decide)

/-- Characters behind a blank, up to the end of their line. -/
theorem endLine_space {vs : List Nat} (hne : vs ≠ []) (h : ∀ v ∈ vs, isAllowed v = true) :
    endLine (Bytes.space :: encodeAll vs) = encodeAll (0x20 :: endChars vs) := by
  have hallowed : ∀ v ∈ 0x20 :: vs, isAllowed v = true := by
    rintro v (_ | ⟨_, hv⟩)
    · rfl
    · exact h v hv
  have happend := endChars_append hne [0x20]
  rw [List.singleton_append, List.singleton_append] at happend
  rw [← happend, ← endLine_encodeAll hallowed]
  rfl

theorem endLine_text (s : Bytes) (indent : Nat) :
    endLine (Bytes.space :: Scalar.write ⟨false, indent, 2⟩ s) =
      encodeAll (0x20 :: endChars (chars ⟨false, indent, 2⟩ s)) := by
  rw [Scalar.write_eq]
  exact endLine_space (Scalar.chars_ne_nil s indent) (Scalar.isAllowed_of_mem_chars _ s)

theorem endLine_integer (n : Int64) :
    endLine (Bytes.space :: Decimal.ofInt64 n) =
      encodeAll (0x20 :: (ascii (Decimal.ofInt64 n) ++ [0x0A])) := by
  obtain ⟨v, ws, hvs, -⟩ := Lexer.ascii_ofInt n.toInt
  have hne : ascii (Decimal.ofInt64 n) ≠ [] := by simp [Decimal.ofInt64, hvs]
  have hlast : isBreak ((ascii (Decimal.ofInt64 n)).getLast hne) = false := by
    obtain ⟨b, hb, hv⟩ := List.mem_map.1 (List.getLast_mem hne)
    have := Lexer.toNat_of_mem_ofInt hb
    rw [← hv]
    simp only [isBreak, Bool.or_eq_false_iff, beq_eq_false_iff_ne]
    omega
  have hends : endChars (ascii (Decimal.ofInt64 n)) = ascii (Decimal.ofInt64 n) ++ [0x0A] := by
    simp [endChars, List.getLast?_eq_some_getLast hne, hlast]
  rw [← hends, ← endLine_space hne (isAllowed_of_mem_ofInt64 n), Decimal.ofInt64,
    Lexer.encodeAll_ascii_ofInt]

/-- A scalar as the value of a field of a record at column `c`. -/
theorem writeValue_leaf (h : IsLeaf d) (hc : deeper 2 c = c + 2) :
    writeValue 2 c d = encodeAll (valueChars c d) := by
  cases h with
  | text s =>
    rw [writeValue, hc]
    exact endLine_text s (c + 2)
  | integer n =>
    rw [integer, writeValue]
    exact endLine_integer n

/-- A scalar as an item of a list at column `c`. -/
theorem writeItem_leaf (h : IsLeaf d) : writeItem 2 c d = encodeAll (0x20 :: leafChars c d) := by
  cases h with
  | text s =>
    rw [writeItem]
    exact endLine_text s (c + 2)
  | integer n =>
    rw [integer, writeItem]
    exact endLine_integer n

theorem scansValue_leaf {column : Nat} {allowed : Bool} {blocks : List Nat} (h : IsLeaf d)
    (hc : c < column) :
    ScansValue (isSoundLeaf d) (leafShapes d) allowed column c blocks (leafChars c d) := by
  cases h with
  | text s => exact Lexer.scansValue_text s hc
  | integer n => exact Lexer.scansValue_integer n.toInt hc

theorem reads_leaf {ready inBlock indentless : Bool} (fuel : Nat) (h : IsLeaf d) :
    Reads ready (node (fuel + 2) inBlock indentless) (leafShapes d) (IsLeafNode d) := by
  cases h with
  | text s => exact Builder.reads_text fuel s
  | integer n => exact Builder.reads_scalar fuel

/-- The first token of a scalar ends no block. -/
theorem leafShapes_eq_cons (h : IsLeaf d) : ∃ shape rest, leafShapes d = shape :: rest ∧
    endsBlockItem shape = false ∧ endsBlockValue shape = false := by
  cases h with
  | text s =>
    simp only [leafShapes, Scalar.shapes]
    split
    · exact ⟨_, _, rfl, rfl, rfl⟩
    · exact ⟨_, _, rfl, rfl, rfl⟩
  | integer n => exact ⟨_, _, rfl, rfl, rfl⟩

end Leaf

/-! ### Fields -/

/-- The characters of a field, with its value behind the colon. -/
def fieldChars (value : Document → List Nat) (f : Bytes × Document) : List Nat :=
  ascii f.1 ++ 0x3A :: value f.2

/-- The tokens of a field. -/
def fieldShapes (shapes : Document → List Token.Shape) (f : Bytes × Document) :
    List Token.Shape :=
  .key :: .scalar f.1 .plain :: .value :: shapes f.2

/-- A field with a name of small letters whose value has a property. -/
structure IsField (post : Document → Prop) (f : Bytes × Document) : Prop where
  name : IsName (ascii f.1)
  value : post f.2

/-- A short word of small letters is a name. -/
theorem isName_ascii {s : Bytes} (hne : s ≠ []) (h : ∀ b ∈ s, 0x61 ≤ b.toNat ∧ b.toNat ≤ 0x7A)
    (hlen : s.length ≤ Lexer.maxKey) : IsName (ascii s) where
  nonempty := by simpa [ascii] using hne
  letters := by
    intro v hv
    obtain ⟨b, hb, rfl⟩ := List.mem_map.1 hv
    exact h b hb
  short := by rwa [length_ascii]

section Fields

variable {fields : List (Bytes × Document)} {f : Bytes × Document} {post : Document → Prop}
  {value : Document → List Nat} {c : Nat}

theorem IsField.ascii_name (h : IsField post f) : ∀ b ∈ f.1, b.toNat < 0x80 := by
  intro b hb
  have := h.name.letters _ (List.mem_map_of_mem hb)
  omega

theorem IsField.encodeAll_name (h : IsField post f) : encodeAll (ascii f.1) = f.1 :=
  encodeAll_ascii h.ascii_name

theorem IsField.sequel (h : IsField post f) (r : List Nat) : Sequel (fieldChars value f ++ r) := by
  obtain ⟨v, w, hvw⟩ := List.exists_cons_of_ne_nil h.name.nonempty
  have hv := h.name.letters v (by simp [hvw])
  have hsolid := h.name.plainWord.solid v (by simp [hvw])
  rw [fieldChars, hvw]
  exact sequel_cons.2 ⟨hsolid.1, hsolid.2, by omega⟩

theorem fieldChars_ne_nil (value : Document → List Nat) (f : Bytes × Document) :
    fieldChars value f ≠ [] := by
  simp [fieldChars]

theorem IsField.isAllowed (h : IsField post f) (hvalue : ∀ v ∈ value f.2, isAllowed v = true) :
    ∀ v ∈ fieldChars value f, isAllowed v = true := by
  intro v hv
  rcases List.mem_append.1 hv with hv | hv
  · have := h.name.letters v hv
    have hscalar : Utf8.IsScalar v := by
      unfold Utf8.IsScalar
      omega
    exact Scalar.isAllowed_of_isPrintable hscalar (Scalar.isPrintable_iff.2 (by omega))
  · rcases List.mem_cons.1 hv with rfl | hv
    · rfl
    · exact hvalue v hv

theorem IsField.write_eq (h : IsField post f)
    (hvalue : writeValue 2 c f.2 = encodeAll (value f.2)) :
    f.1 ++ 0x3A :: writeValue 2 c f.2 = encodeAll (fieldChars value f) := by
  rw [fieldChars, encodeAll_append, encodeAll_cons, h.encodeAll_name, hvalue]
  rfl

section Write

variable (h : ∀ f ∈ fields, IsField post f)
  (hvalue : ∀ f ∈ fields, writeValue 2 c f.2 = encodeAll (value f.2))

include h hvalue

/-- The fields of a record, each on a line of its own. -/
theorem writeFields_lines : writeFields 2 c false fields =
    encodeAll (fields.flatMap fun f => List.replicate c 0x20 ++ fieldChars value f) := by
  induction fields with
  | nil => rfl
  | cons f fields ih =>
    have hrest := ih (fun g hg => h g (by simp [hg])) fun g hg => hvalue g (by simp [hg])
    have hfirst := (h f (by simp)).write_eq (hvalue f (by simp))
    rw [writeFields, hrest, List.flatMap_cons, encodeAll_append, encodeAll_append,
      Scalar.encodeAll_replicate, ← hfirst]
    simp

/-- The fields of a record behind a dash. -/
theorem writeFields_behindDash :
    writeFields 2 c true fields = encodeAll (blockChars c (fieldChars value) fields) := by
  cases fields with
  | nil => rfl
  | cons f fields =>
    have hrest := writeFields_lines (fun g hg => h g (List.mem_cons_of_mem f hg))
      fun g hg => hvalue g (List.mem_cons_of_mem f hg)
    have hfirst := (h f (by simp)).write_eq (hvalue f (by simp))
    rw [writeFields, hrest, blockChars, encodeAll_append, ← hfirst]
    simp

end Write

end Fields

/-! ### Items of lists -/

/-- Documents that are scalars or records of scalars. -/
inductive IsItem : Document → Prop where
  | leaf {d : Document} : IsLeaf d → IsItem d
  | record {fields : List (Bytes × Document)} : fields ≠ [] → (∀ f ∈ fields, IsField IsLeaf f) →
      IsItem (.record fields)

/-- The characters of an item of a list at column 2, behind the dash. -/
def itemChars : Document → List Nat
  | .record fields => blockChars 4 (fieldChars (valueChars 4)) fields
  | d => leafChars 2 d

/-- The tokens of an item. -/
def itemShapes : Document → List Token.Shape
  | .record fields =>
    .blockMappingStart :: (fields.flatMap (fieldShapes leafShapes) ++ [.blockEnd])
  | d => leafShapes d

/-- Are all scalars of an item sound? -/
def isSoundItem : Document → Bool
  | .record fields => fields.all fun f => isSoundLeaf f.2
  | d => isSoundLeaf d

/-- The nodes that stand for an item. -/
def IsItemNode : Document → Node → Prop
  | .record fields, n => ∃ es line, n = .mapping .mapping es line ∧
      List.Forall₂ (fun f => IsEntry f.1 (IsLeafNode f.2)) fields es
  | d, n => IsLeafNode d n

section Items

variable {d : Document}

/-- A scalar as an item. -/
theorem item_leaf (h : IsLeaf d) : itemChars d = leafChars 2 d ∧ itemShapes d = leafShapes d ∧
    isSoundItem d = isSoundLeaf d ∧ IsItemNode d = IsLeafNode d := by
  cases h <;> exact ⟨rfl, rfl, rfl, rfl⟩

theorem sequel_itemChars (h : IsItem d) (r : List Nat) : Sequel (itemChars d ++ r) := by
  cases h with
  | leaf h =>
    rw [(item_leaf h).1]
    exact sequel_leafChars h r
  | record hne h =>
    obtain ⟨f, fields, rfl⟩ := List.exists_cons_of_ne_nil hne
    exact sequel_blockChars (h f (by simp)).sequel r

theorem isAllowed_of_mem_itemChars (h : IsItem d) : ∀ v ∈ itemChars d, isAllowed v = true := by
  intro v hv
  cases h with
  | leaf h =>
    rw [(item_leaf h).1] at hv
    exact isAllowed_of_mem_leafChars h v hv
  | record hne h =>
    rcases mem_blockChars hv with rfl | ⟨f, hf, hv⟩
    · rfl
    · refine (h f hf).isAllowed (fun u hu => ?_) v hv
      rcases List.mem_cons.1 hu with rfl | hu
      · rfl
      · exact isAllowed_of_mem_leafChars (h f hf).value u hu

theorem writeItem_item (h : IsItem d) : writeItem 2 2 d = encodeAll (0x20 :: itemChars d) := by
  cases h with
  | leaf h =>
    rw [(item_leaf h).1]
    exact writeItem_leaf h
  | record hne h =>
    have hfields := writeFields_behindDash h fun f hf =>
      writeValue_leaf (c := 4) (h f hf).value rfl
    rw [writeItem, hfields]
    rfl

theorem scansValue_item {blocks : List Nat} (h : IsItem d) (hdepth : blocks.length < 100) :
    ScansValue (isSoundItem d) (itemShapes d) true 4 2 blocks (itemChars d) := by
  cases h with
  | leaf h =>
    obtain ⟨hchars, hshapes, hsound, -⟩ := item_leaf h
    rw [hchars, hshapes, hsound]
    exact scansValue_leaf h (by decide)
  | @record fields hne h =>
    have hfield : ∀ f ∈ fields, ScansBlock .blockMappingStart (isSoundLeaf f.2)
        (fieldShapes leafShapes f) 4 (2 :: blocks)
        (fieldChars (valueChars 4) f) := by
      intro f hf
      have hshallow : (4 :: 2 :: blocks).length < Lexer.maxDepth := by
        simp only [List.length_cons, Lexer.maxDepth]
        omega
      have hscans := Lexer.scansBlock_field_blank (h f hf).name hshallow
        (sequel_leafChars (h f hf).value) (scansValue_leaf (h f hf).value (by omega))
      rwa [(h f hf).encodeAll_name] at hscans
    exact (ScansBlock.blockChars hne hfield fun f hf => (h f hf).sequel).value (by decide)

theorem reads_item {ready : Bool} {fuel : Nat} (h : IsItem d)
    (hfuel : (itemChars d).length + 7 ≤ fuel) :
    Reads ready (node fuel true false) (itemShapes d) (IsItemNode d) := by
  cases h with
  | leaf h =>
    obtain ⟨fuel, rfl⟩ : ∃ k, fuel = k + 2 := ⟨fuel - 2, by omega⟩
    obtain ⟨-, hshapes, -, hnode⟩ := item_leaf h
    rw [hshapes, hnode]
    exact reads_leaf fuel h
  | @record fields hne h =>
    have hlen : fields.length ≤ (itemChars (.record fields)).length :=
      length_le_length_blockChars fun f _ => fieldChars_ne_nil _ f
    have hvalue : ∀ f ∈ fields, ∀ k, 2 ≤ k →
        Reads true (node k true true) (leafShapes f.2) (IsLeafNode f.2) := by
      intro f hf k hk
      obtain ⟨k, rfl⟩ : ∃ j, k = j + 2 := ⟨k - 2, by omega⟩
      exact reads_leaf k (h f hf).value
    refine Builder.reads_mapping hvalue (fun f hf => ?_) (by omega)
    obtain ⟨shape, rest, hshapes, -, hends⟩ := leafShapes_eq_cons (h f hf).value
    exact ⟨shape, rest, hshapes, hends⟩

end Items

/-! ### Lists -/

/-- Lists of items. -/
inductive IsList : Document → Prop where
  | list {items : List Document} : items ≠ [] → (∀ d ∈ items, IsItem d) → IsList (.list items)

/-- The characters of an item behind a dash. -/
def dashChars (d : Document) : List Nat :=
  0x2D :: 0x20 :: itemChars d

/-- The characters of a list behind a colon. -/
def listChars : Document → List Nat
  | .list items => 0x0A :: (List.replicate 2 0x20 ++ blockChars 2 dashChars items)
  | _ => []

/-- The tokens of a list. -/
def listShapes : Document → List Token.Shape
  | .list items =>
    .blockSequenceStart :: (items.flatMap (fun d => .blockEntry :: itemShapes d) ++ [.blockEnd])
  | _ => []

/-- Are all items of a list sound? -/
def isSoundList : Document → Bool
  | .list items => items.all isSoundItem
  | _ => true

/-- The nodes that stand for a list. -/
def IsListNode : Document → Node → Prop
  | .list items, n => ∃ ms line, n = .sequence .sequence ms line ∧
      List.Forall₂ IsItemNode items ms
  | _, _ => False

section Lists

variable {d : Document}

theorem sequel_dashChars (d : Document) (r : List Nat) : Sequel (dashChars d ++ r) :=
  sequel_cons.2 (by decide)

theorem isAllowed_of_mem_listChars (h : IsList d) : ∀ v ∈ listChars d, isAllowed v = true := by
  obtain ⟨-, h⟩ := h
  intro v hv
  simp only [listChars, List.mem_cons, List.mem_append, List.mem_replicate] at hv
  rcases hv with rfl | ⟨-, rfl⟩ | hv
  · rfl
  · rfl
  · rcases mem_blockChars hv with rfl | ⟨d, hd, hv⟩
    · rfl
    · simp only [dashChars, List.mem_cons] at hv
      rcases hv with rfl | rfl | hv
      · rfl
      · rfl
      · exact isAllowed_of_mem_itemChars (h d hd) v hv

theorem writeItems_lines {items : List Document} (h : ∀ d ∈ items, IsItem d) :
    writeItems 2 2 items =
      encodeAll (items.flatMap fun d => List.replicate 2 0x20 ++ dashChars d) := by
  induction items with
  | nil => rfl
  | cons d items ih =>
    rw [writeItems, ih fun x hx => h x (by simp [hx]), writeItem_item (h d (by simp)),
      List.flatMap_cons, encodeAll_append, encodeAll_append, Scalar.encodeAll_replicate]
    rfl

theorem writeValue_list (h : IsList d) : writeValue 2 0 d = encodeAll (listChars d) := by
  obtain ⟨hne, h⟩ := h
  have hlines := writeItems_lines h
  rw [← replicate_append_blockChars 2 dashChars hne] at hlines
  obtain ⟨d, items, rfl⟩ := List.exists_cons_of_ne_nil hne
  rw [writeValue, listChars, encodeAll_cons, ← hlines]
  rfl

/-- A field with a list at the outermost level. -/
theorem scansBlock_list {f : Bytes × Document} (h : IsField IsList f) :
    ScansBlock .blockMappingStart (isSoundList f.2) (fieldShapes listShapes f) 0 []
      (fieldChars listChars f) := by
  obtain ⟨name, d⟩ := f
  have htext := h.encodeAll_name
  obtain ⟨hname, @⟨items, hne, hitems⟩⟩ := h
  have hitem : ∀ x ∈ items, ScansBlock .blockSequenceStart (isSoundItem x)
      (.blockEntry :: itemShapes x) 2 [0] (dashChars x) := fun x hx =>
    Lexer.scansBlock_item (by decide) (by decide) (sequel_itemChars (hitems x hx))
      (scansValue_item (hitems x hx) (by decide))
  have hvalue := (ScansBlock.blockChars hne hitem fun x _ => sequel_dashChars x).value
    (by decide : 0 < 2)
  have hsequel : ∀ r, Sequel (blockChars 2 dashChars items ++ r) := by
    obtain ⟨x, items, rfl⟩ := List.exists_cons_of_ne_nil hne
    exact sequel_blockChars (sequel_dashChars x)
  have hscans := Lexer.scansBlock_field_line hname (by decide) hsequel hvalue
  rwa [htext] at hscans

theorem listShapes_eq_cons (h : IsList d) : ∃ rest, listShapes d = .blockSequenceStart :: rest := by
  cases h
  exact ⟨_, rfl⟩

theorem reads_list {ready : Bool} {fuel : Nat} (h : IsList d)
    (hfuel : 2 * (listChars d).length + 10 ≤ fuel) :
    Reads ready (node fuel true true) (listShapes d) (IsListNode d) := by
  obtain @⟨items, hne, h⟩ := h
  have hlist : (blockChars 2 dashChars items).length ≤ (listChars (.list items)).length := by
    simp only [listChars, List.length_cons, List.length_append]
    omega
  have hlen : items.length ≤ (blockChars 2 dashChars items).length :=
    length_le_length_blockChars fun d _ => List.cons_ne_nil _ _
  have hitem : ∀ x ∈ items, ∀ k, (listChars (.list items)).length + 7 ≤ k →
      Reads true (node k true false) (itemShapes x) (IsItemNode x) := by
    intro x hx k hk
    have hx' : (dashChars x).length ≤ (blockChars 2 dashChars items).length :=
      length_le_blockChars hx
    refine reads_item (h x hx) ?_
    simp only [dashChars, List.length_cons] at hx'
    omega
  refine Builder.reads_sequence hitem (fun x hx => ?_) (by omega)
  cases h x hx with
  | leaf h =>
    obtain ⟨shape, rest, hshapes, hends, -⟩ := leafShapes_eq_cons h
    exact ⟨shape, rest, (item_leaf h).2.1.trans hshapes, hends⟩
  | record => exact ⟨_, _, rfl, rfl⟩

end Lists

/-! ### Documents -/

/-- The characters of a record of lists. -/
def docChars (fields : List (Bytes × Document)) : List Nat :=
  blockChars 0 (fieldChars listChars) fields

/-- Is no scalar in a record of lists a literal block with a leading tab? -/
def isSound (fields : List (Bytes × Document)) : Bool :=
  fields.all fun f => isSoundList f.2

/-- The nodes that stand for a record of lists. -/
def IsNode (fields : List (Bytes × Document)) (n : Node) : Prop :=
  ∃ es line, n = .mapping .mapping es line ∧
    List.Forall₂ (fun f => IsEntry f.1 (IsListNode f.2)) fields es

section Documents

variable {fields : List (Bytes × Document)} (hne : fields ≠ [])
  (h : ∀ f ∈ fields, IsField IsList f)

include hne h

theorem write_eq : write 2 fields = encodeAll (docChars fields) := by
  have hlines := writeFields_lines h fun f hf => writeValue_list (h f hf).value
  rw [write, hlines, docChars, ← replicate_append_blockChars 0 _ hne]
  rfl

/-- The characters of a document are those that were written. -/
theorem characters_write : characters (write 2 fields) = .ok (docChars fields) := by
  have hallowed : ∀ v ∈ docChars fields, isAllowed v = true := by
    intro v hv
    rcases mem_blockChars hv with rfl | ⟨f, hf, hv⟩
    · rfl
    · exact (h f hf).isAllowed (isAllowed_of_mem_listChars (h f hf).value) v hv
  rw [write_eq hne h]
  obtain ⟨f, fields, rfl⟩ := List.exists_cons_of_ne_nil hne
  obtain ⟨v, w, hvw⟩ := List.exists_cons_of_ne_nil (h f (by simp)).name.nonempty
  have hv := (h f (by simp)).name.letters v (by simp [hvw])
  have hchars : ∃ vs, docChars (f :: fields) = v :: vs :=
    ⟨_, by rw [docChars, blockChars, fieldChars, hvw]; rfl⟩
  obtain ⟨vs, hvs⟩ := hchars
  rw [hvs] at hallowed ⊢
  exact characters_encodeAll (by omega) hallowed

theorem scansBlock_doc : ScansBlock .blockMappingStart (isSound fields)
    (fields.flatMap (fieldShapes listShapes)) 0 [] (docChars fields) :=
  ScansBlock.blockChars hne (fun f hf => scansBlock_list (h f hf)) fun f hf => (h f hf).sequel

omit hne in
theorem reads_doc : Reads true (node (4 * (docChars fields).length + 16) true false)
    (.blockMappingStart :: (fields.flatMap (fieldShapes listShapes) ++ [.blockEnd]))
    (IsNode fields) := by
  have hlen : fields.length ≤ (docChars fields).length :=
    length_le_length_blockChars fun f _ => fieldChars_ne_nil _ f
  have hvalue : ∀ f ∈ fields, ∀ k, 2 * (docChars fields).length + 10 ≤ k →
      Reads true (node k true true) (listShapes f.2) (IsListNode f.2) := by
    intro f hf k hk
    have hf' : (fieldChars listChars f).length ≤ (docChars fields).length :=
      length_le_blockChars hf
    refine reads_list (h f hf).value ?_
    simp only [fieldChars, List.length_append, List.length_cons] at hf'
    omega
  refine Builder.reads_mapping hvalue (fun f hf => ?_) (by omega)
  obtain ⟨rest, hshapes⟩ := listShapes_eq_cons (h f hf).value
  exact ⟨_, rest, hshapes, rfl⟩

theorem sequel_docChars : Sequel (docChars fields) := by
  obtain ⟨f, fields, rfl⟩ := List.exists_cons_of_ne_nil hne
  simpa [docChars] using sequel_blockChars (c := 0) (h f (by simp)).sequel []

/-- **Reading a sound document** gives a node that stands for it. -/
theorem read_write (hsound : isSound fields = true) :
    ∃ t, Tree.read (write 2 fields) = .ok (some t) ∧ 0 < t.size ∧ IsNode fields t.root := by
  have hscans := scansBlock_doc hne h
  rw [hsound] at hscans
  obtain ⟨n, b, hrun, hn⟩ := Builder.root_result .mapping (by omega) (reads_doc h)
    (hscans.feeds (sequel_docChars hne h))
  refine ⟨⟨n, b.anchors, b.aliases, 4 * (docChars fields).length + 16⟩, ?_, by simp, hn⟩
  simp only [Tree.read, characters_write hne h, hrun]

/-- **A document that is not sound** cannot be read. -/
theorem read_write_error (hsound : isSound fields = false) :
    ∃ e, Tree.read (write 2 fields) = .error e := by
  have hscans := scansBlock_doc hne h
  rw [hsound] at hscans
  obtain ⟨fed, hfront, hproper, hfeeds⟩ := hscans.feeds_error (sequel_docChars hne h)
  obtain ⟨e, hrun⟩ := Builder.root_failure .mapping (by omega) (reads_doc h) hfront hproper
    hfeeds
  refine ⟨e, ?_⟩
  simp only [Tree.read, characters_write hne h, hrun]

end Documents

end ForthFrontend.Yaml.Document
