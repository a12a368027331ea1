import ForthFrontend.Dump
import ForthFrontend.Proofs.Disk
import ForthFrontend.Proofs.Yaml.Document

/-!
# Loading saved atoms

A dump is a document of the kind that is read as it was written, up to what a literal block loses.
So loading a dump gives the atoms that were saved, unless a text or a file name is written as a
literal block and begins with a line break or a tab. An atom of an undefined kind can be saved, but
loading names the first such atom.

## Main definitions

* `Dump.outcome`: what loading a dump should give.
* `Dump.Faithful`: the sequences of atoms for which it does.

## Main results

* `Dump.load_of_isReadable`, `Dump.load_of_not_isReadable`: what loading a dump gives.
* `Dump.load_eq_outcome_iff_faithful`: when loading a dump gives what was saved.
-/

namespace ForthFrontend.Dump

open Yaml
open Yaml.Document (IsField IsList IsItem IsLeaf isSound IsNode)
open Yaml.Lexer (IsName)
open Yaml.Scalar (isTabbed readText losesBreak)

/-! ### The document of a dump -/

section Document

variable {atoms : List Atom}

/-- The names of all fields in a dump. -/
def names : List Bytes := ["files", "atoms", "text", "kind", "file", "line"]

theorem isName {s : Bytes} (h : s ∈ names) : IsName (ascii s) := by
  have hall : names.all (fun s => !s.isEmpty &&
      s.all (fun b => 0x61 ≤ b.toNat && b.toNat ≤ 0x7A) && s.length ≤ Lexer.maxKey) = true := by
    decide +kernel
  have hname := List.all_eq_true.1 hall s h
  simp only [Bool.and_eq_true, List.all_eq_true, decide_eq_true_eq] at hname
  obtain ⟨⟨hne, hletters⟩, hlen⟩ := hname
  exact Document.isName_ascii (by simpa using hne) hletters hlen

theorem isItem_record (a : Atom) : IsItem (record a) := by
  refine .record (by simp) ?_
  simp only [List.forall_mem_cons]
  exact ⟨⟨isName (by simp [names]), .text a.text⟩, ⟨isName (by simp [names]), .text a.kind.name⟩,
    ⟨isName (by simp [names]), .text a.file⟩, ⟨isName (by simp [names]), .integer a.line⟩, by simp⟩

theorem files_ne_nil (h : atoms ≠ []) : Atom.files atoms ≠ [] := by
  obtain ⟨a, atoms, rfl⟩ := List.exists_cons_of_ne_nil h
  simp [Atom.files, List.eraseDups_cons]

/-- The fields of a dump are lists of texts and of records. -/
theorem isField_fields (h : atoms ≠ []) : ∀ f ∈ fields atoms, IsField IsList f := by
  have hfiles : IsList (.list ((Atom.files atoms).map .text)) := by
    refine .list (by simpa using files_ne_nil h) fun d hd => ?_
    obtain ⟨s, -, rfl⟩ := List.mem_map.1 hd
    exact .leaf (.text s)
  have hatoms : IsList (.list (atoms.map record)) := by
    refine .list (by simpa using h) fun d hd => ?_
    obtain ⟨a, -, rfl⟩ := List.mem_map.1 hd
    exact isItem_record a
  simp only [fields, List.forall_mem_cons]
  exact ⟨⟨isName (by simp [names]), hfiles⟩, ⟨isName (by simp [names]), hatoms⟩, by simp⟩

/-- Does no text of an atom stand in a literal block with a leading tab? -/
def isReadable (a : Atom) : Bool :=
  !isTabbed a.text && !isTabbed a.file

theorem isTabbed_name (k : AtomKind) : isTabbed k.name = false := by
  cases k <;> decide +kernel

theorem readText_name (k : AtomKind) : readText k.name = k.name := by
  cases k <;> decide +kernel

/-- A dump can be read if the texts of all its atoms can. -/
theorem isSound_fields (atoms : List Atom) : isSound (fields atoms) = atoms.all isReadable := by
  rw [Bool.eq_iff_iff]
  simp only [isSound, fields, Document.isSoundList, Document.isSoundItem, Document.isSoundLeaf,
    record, isReadable, Atom.files, isTabbed_name, Document.integer, List.all_cons, List.all_nil,
    List.all_map, List.all_eq_true, Function.comp_apply, Bool.and_eq_true, Bool.not_eq_true',
    Bool.and_true, List.mem_eraseDups, List.forall_mem_map, true_and]
  exact ⟨fun h => h.2, fun h => ⟨fun a ha => (h a ha).2, h⟩⟩

end Document

/-! ### Records -/

section Records

variable {scope : Scope}

/-- The record that is read for an atom. -/
def entryOf (a : Atom) : Entry where
  text := readText a.text
  kind := a.kind.name
  file := readText a.file
  line := a.line.toInt

theorem impliedTag_name {s : Bytes} (h : s ∈ names) : Builder.impliedTag s .plain = .text := by
  have hall : ∀ s ∈ names, Builder.impliedTag s .plain = .text := by decide +kernel
  exact hall s h

theorem sets_textField {name v : Bytes} (set : Bytes → Entry → Entry)
    (hfind : entryFields.find? (·.name == name) = some (textField name set)) :
    Sets entryFields scope name (IsText v) (set v) := by
  refine ⟨_, hfind, fun n e hn => ?_⟩
  simp only [textField, text_of_isText hn, pure_bind]
  rfl

theorem sets_line {k : Int64} :
    Sets entryFields scope (Bytes.ofString "line") (Document.IsLeafNode (.integer k))
      fun e => { e with line := k.toInt } := by
  refine ⟨_, rfl, fun n e hn => ?_⟩
  have hk := Decimal.fitsInt64_toInt k
  simp only [integer_of_isInteger (isInteger_of_isScalarNode hk hn) hk, pure_bind]
  rfl

/-- **The record of an atom** is read as it was written, up to what literal blocks lose. -/
theorem record_item {a : Atom} {n : Node} {fuel : Nat} (hfuel : 0 < fuel) (wanted : Bytes)
    (h : Document.IsItemNode (record a) n) :
    Yaml.record fuel wanted entryFields {} scope n = pure (some (entryOf a)) := by
  obtain ⟨es, line, rfl, hes⟩ := h
  have hset : List.Forall₂ (fun f : Bytes × Document =>
        Sets entryFields scope f.1 (Document.IsLeafNode f.2))
      [("text", .text a.text), ("kind", .text a.kind.name), ("file", .text a.file),
        ("line", .integer a.line)]
      [fun e => { e with text := readText a.text },
        fun e => { e with kind := readText a.kind.name },
        fun e => { e with file := readText a.file }, fun e => { e with line := a.line.toInt }] :=
    .cons (sets_textField (fun v e => { e with text := v }) rfl)
      (.cons (sets_textField (fun v e => { e with kind := v }) rfl)
        (.cons (sets_textField (fun v e => { e with file := v }) rfl) (.cons sets_line .nil)))
  have hrecord := record_mapping ?_ ?_ hes hset hfuel wanted {} .mapping line
  · rw [hrecord, readText_name]
    rfl
  · simp only [List.forall_mem_cons]
    exact ⟨impliedTag_name (by simp [names]), impliedTag_name (by simp [names]),
      impliedTag_name (by simp [names]), impliedTag_name (by simp [names]), by simp⟩
  · simp only [List.map_cons, List.map_nil]
    decide

end Records

/-! ### Dumps -/

section Decode

variable {atoms : List Atom}

theorem sets_files {scope : Scope} {size : Nat} {files : List Bytes} :
    Sets (contentFields size) scope (Bytes.ofString "files")
      (Document.IsListNode (.list (files.map .text)))
      fun c => { c with files := files.map readText } := by
  refine ⟨_, rfl, ?_⟩
  rintro _ c ⟨ms, line, rfl, hms⟩
  rw [List.forall₂_map_left_iff] at hms
  simp only [list_sequence .sequence line hms fun s n hn => text_of_isText hn, pure_bind]
  rfl

theorem sets_atoms {scope : Scope} {size : Nat} (hsize : 0 < size) :
    Sets (contentFields size) scope (Bytes.ofString "atoms")
      (Document.IsListNode (.list (atoms.map record)))
      fun c => { c with entries := atoms.map entryOf } := by
  refine ⟨_, rfl, ?_⟩
  rintro _ c ⟨ms, line, rfl, hms⟩
  rw [List.forall₂_map_left_iff] at hms
  simp only [list_sequence .sequence line hms fun a n hn => record_item hsize _ hn, pure_bind]
  rfl

theorem decode_nil : decode (text []) = .ok [] := by
  have hnil : (decode (text [])).toOption = some [] := by decide +kernel
  cases hdecode : decode (text []) with
  | error why =>
    rw [hdecode] at hnil
    cases hnil
  | ok entries =>
    rw [hdecode] at hnil
    exact congrArg Except.ok (Option.some.inj hnil)

/-- **The records of a dump** whose document can be read. -/
theorem decode_text (h : atoms.all isReadable = true) :
    decode (text atoms) = .ok (atoms.map entryOf) := by
  rcases eq_or_ne atoms [] with rfl | hne
  · exact decode_nil
  · obtain ⟨t, hread, hsize, es, line, hroot, hes⟩ :=
      Document.read_write (by simp [fields]) (isField_fields hne) (by rwa [isSound_fields])
    have hset : List.Forall₂ (fun f : Bytes × Document =>
          Sets (contentFields t.size) { anchors := t.anchors } f.1 (Document.IsListNode f.2))
        (fields atoms)
        [fun c => { c with files := (Atom.files atoms).map readText },
          fun c => { c with entries := atoms.map entryOf }] :=
      .cons sets_files (.cons (sets_atoms hsize) .nil)
    have hrecord := record_mapping ?_ ?_ hes hset hsize "adapter.atomDocument" {} .mapping line
    · have hread' : Tree.read (text atoms) = .ok (some t) := hread
      simp only [decode, hread', Except.mapError, bind, Except.bind, Tree.decode, hroot, hrecord]
      rfl
    · simp only [fields, List.forall_mem_cons]
      exact ⟨impliedTag_name (by simp [names]), impliedTag_name (by simp [names]), by simp⟩
    · simp only [fields, List.map_cons, List.map_nil]
      decide

/-- A dump with a text that cannot be read is no document. -/
theorem decode_text_error (h : atoms.all isReadable = false) :
    ∃ why, decode (text atoms) = .error why := by
  have hne : atoms ≠ [] := by
    rintro rfl
    cases h
  obtain ⟨e, hread⟩ :=
    Document.read_write_error (by simp [fields]) (isField_fields hne) (by rwa [isSound_fields])
  refine ⟨.unreadable e, ?_⟩
  have hread' : Tree.read (text atoms) = .error e := hread
  simp only [decode, hread', Except.mapError, bind, Except.bind]

end Decode

/-! ### Atoms -/

/-- The atom that is read for an atom: a line break at the beginning of a literal block is lost. -/
def readAtom (a : Atom) : Atom :=
  { a with text := readText a.text, file := readText a.file }

/-- What reading atoms gives: the atoms, or the first one of an undefined kind. The first atom has
number `index`. -/
def outcome (path : Path) (index : Nat) (atoms : List Atom) : Except Failure (List Atom) :=
  match atoms.findIdx? (·.kind == .undefined) with
  | none => .ok atoms
  | some i => .error (.dumpKind (index + i) path AtomKind.undefined.name)

theorem ofName?_name (k : AtomKind) :
    AtomKind.ofName? k.name = if k = .undefined then none else some k := by
  cases k <;> decide +kernel

/-- **The atoms of the records of a dump.** -/
theorem atomsOf_map_entryOf (path : Path) (index : Nat) (atoms : List Atom) :
    atomsOf path index (atoms.map entryOf) = outcome path index (atoms.map readAtom) := by
  induction atoms generalizing index with
  | nil => rfl
  | cons a atoms ih =>
    have hkind : AtomKind.ofName? (entryOf a).kind =
        if a.kind = .undefined then none else some a.kind := ofName?_name a.kind
    rw [List.map_cons, List.map_cons, atomsOf, hkind, outcome, List.findIdx?_cons]
    by_cases hundefined : a.kind = .undefined
    · have hfirst : ((readAtom a).kind == .undefined) = true := by
        simpa [readAtom] using hundefined
      rw [if_pos hundefined, hfirst]
      simp [entryOf, hundefined]
    · have hfirst : ((readAtom a).kind == .undefined) = false := by
        simpa [readAtom] using hundefined
      have hatom : (⟨readText a.text, a.kind, readText a.file, Int64.ofInt a.line.toInt⟩ : Atom) =
          readAtom a := by
        rw [Int64.ofInt_toInt]
        rfl
      simp only [if_neg hundefined, hfirst, ih, entryOf, hatom, outcome, Bool.false_eq_true,
        ↓reduceIte]
      cases (atoms.map readAtom).findIdx? (·.kind == .undefined) with
      | none => rfl
      | some i => simp [Except.map, Nat.add_assoc, Nat.add_comm 1]

section Load

variable {d : Disk} {path : Path} {atoms : List Atom}

/-- Loading a file decodes its content. -/
theorem load_eq {content : Bytes} (h : d.read path = .ok content) :
    load d false path = match decode content with
      | .error why => .error (.dumpUndecoded path why.message)
      | .ok entries => atomsOf path 0 entries := by
  cases hopen : d.openFile path with
  | error e =>
    rw [Disk.read, hopen] at h
    cases h
  | ok entry =>
    rw [Disk.read, hopen] at h
    have hcontent : entry.content path = .ok content := h
    have hsource : Source.openFile d false path = .ok entry := by
      rw [Source.openFile, if_neg (by simp), hopen]
      rfl
    cases hdecode : decode content with
    | error why => simp only [load, hsource, hcontent, hdecode]
    | ok entries => simp only [load, hsource, hcontent, hdecode]

/-- **Loading a dump** whose texts can all be read. -/
theorem load_of_isReadable (h : d.read path = .ok (text atoms))
    (hreadable : atoms.all isReadable = true) :
    load d false path = outcome path 0 (atoms.map readAtom) := by
  rw [load_eq h, decode_text hreadable]
  exact atomsOf_map_entryOf path 0 atoms

/-- **Loading a dump** with a text that cannot be read. -/
theorem load_of_not_isReadable (h : d.read path = .ok (text atoms))
    (hreadable : atoms.all isReadable = false) :
    ∃ why, load d false path = .error (.dumpUndecoded path why) := by
  obtain ⟨why, hdecode⟩ := decode_text_error hreadable
  exact ⟨why.message, by rw [load_eq h, hdecode]⟩

/-- A dump that was saved is on the disk. -/
theorem read_save (h : (save d false path atoms).result.isOk = true) :
    (save d false path atoms).disk.read path = .ok (text atoms) := by
  have hwrite : (d.write path (text atoms)).error? = none := by
    cases herror : (d.write path (text atoms)).error? with
    | none => rfl
    | some e => simp [save, Output.save, Output.write, herror, Except.isOk, Except.toBool] at h
  have hdisk : (save d false path atoms).disk = (d.write path (text atoms)).disk := by
    simp [save, Output.save, Output.write, hwrite]
  rw [hdisk]
  exact Disk.read_write hwrite

/-! ### When loading gives what was saved -/

/-- Does an atom keep its texts? A line break at the beginning of a literal block is lost. -/
def isKept (a : Atom) : Bool :=
  !losesBreak a.text && !losesBreak a.file

/-- The sequences of atoms that are loaded as they should be: no text stands in a literal block with
a leading tab, and if all kinds are defined, none stands in one with a leading line break. -/
def Faithful (atoms : List Atom) : Prop :=
  (∀ a ∈ atoms, isReadable a = true) ∧
    ((∀ a ∈ atoms, a.kind ≠ .undefined) → ∀ a ∈ atoms, isKept a = true)

instance (atoms : List Atom) : Decidable (Faithful atoms) :=
  inferInstanceAs (Decidable (_ ∧ (_ → _)))

theorem readAtom_eq_self_iff (a : Atom) : readAtom a = a ↔ isKept a = true := by
  obtain ⟨text, kind, file, line⟩ := a
  simp [readAtom, isKept, Scalar.readText_eq_self_iff]

theorem map_readAtom_eq_self_iff (atoms : List Atom) :
    atoms.map readAtom = atoms ↔ ∀ a ∈ atoms, isKept a = true := by
  have hmap : atoms.map readAtom = atoms.map id ↔ ∀ a ∈ atoms, readAtom a = id a :=
    List.map_inj_left
  rw [List.map_id] at hmap
  rw [hmap]
  exact forall₂_congr fun a _ => readAtom_eq_self_iff a

theorem outcome_map_readAtom_eq_iff (path : Path) (atoms : List Atom) :
    outcome path 0 (atoms.map readAtom) = outcome path 0 atoms ↔
      ((∀ a ∈ atoms, a.kind ≠ .undefined) → ∀ a ∈ atoms, isKept a = true) := by
  have hfirst : (atoms.map readAtom).findIdx? (·.kind == .undefined) =
      atoms.findIdx? (·.kind == .undefined) := by
    rw [List.findIdx?_map]
    rfl
  have hdefined : atoms.findIdx? (·.kind == .undefined) = none ↔
      ∀ a ∈ atoms, a.kind ≠ .undefined := by
    simp [List.findIdx?_eq_none_iff]
  rw [← hdefined, ← map_readAtom_eq_self_iff]
  unfold outcome
  rw [hfirst]
  cases atoms.findIdx? (·.kind == .undefined) with
  | none => simp
  | some i => simp

theorem load_eq_outcome_iff (h : d.read path = .ok (text atoms)) :
    load d false path = outcome path 0 atoms ↔ Faithful atoms := by
  unfold Faithful
  rw [← List.all_eq_true]
  cases hreadable : atoms.all isReadable with
  | true =>
    rw [load_of_isReadable h hreadable, outcome_map_readAtom_eq_iff]
    simp
  | false =>
    obtain ⟨why, hload⟩ := load_of_not_isReadable h hreadable
    have hne : Except.error (.dumpUndecoded path why) ≠ outcome path 0 atoms := by
      unfold outcome
      split
      · simp
      · simp
    simpa [hload] using hne

end Load

/-- **Loading a dump gives what was saved** exactly for the faithful sequences of atoms: the atoms
themselves if all kinds are defined, and otherwise the number of the first atom whose kind is not.
This holds for any file with the text of the dump, in particular for one that was saved. -/
theorem load_eq_outcome_iff_faithful (path : Path) (atoms : List Atom) :
    (∀ d : Disk, d.read path = .ok (text atoms) →
      (load d false path = outcome path 0 atoms ↔ Faithful atoms)) ∧
    ∀ d : Disk, (save d false path atoms).result.isOk = true →
      (load (save d false path atoms).disk false path = outcome path 0 atoms ↔ Faithful atoms) :=
  ⟨fun _ h => load_eq_outcome_iff h, fun _ h => load_eq_outcome_iff (read_save h)⟩

/-- A line break at the beginning of a text does not come back from a dump; one inside does. -/
theorem load_save_leadingBreak :
    let disk : Disk := { workDir := [], entries := [] }
    let path : Path := "d.yaml"
    let lost : List Atom := [⟨"\na", .word, "f", 1⟩]
    let kept : List Atom := [⟨"a\nb", .word, "f", 1⟩]
    (save disk false path lost).result.isOk = true ∧
      load (save disk false path lost).disk false path ≠ outcome path 0 lost ∧
    (save disk false path kept).disk.read path = .ok (text kept) ∧
      load (save disk false path kept).disk false path = outcome path 0 kept := by
  intro disk path lost kept
  have hlost : (save disk false path lost).result.isOk = true := by decide +kernel
  have hkept : (save disk false path kept).disk.read path = .ok (text kept) :=
    read_save (by decide +kernel)
  refine ⟨hlost, fun h => ?_, hkept,
    ((load_eq_outcome_iff_faithful path kept).1 _ hkept).2 (by decide +kernel)⟩
  have hfaithful := ((load_eq_outcome_iff_faithful path lost).2 _ hlost).1 h
  exact absurd hfaithful (by decide +kernel)

end ForthFrontend.Dump
