import ForthFrontend.Proofs.Compilation
import ForthFrontend.Proofs.Yaml.Document.Shown

/-!
# What a manifest shows

Two programs have the same manifest exactly if their manifests have the same contents: the kind of
image, the stacks, and every table in the order of its definitions. A table without entries is told
from one with entries, and a constant that is a text from one that is a number. The bodies of words
are shown as they are. Of every other text one line feed is lost if it stands before a literal block
that begins with a space.

## Main definitions

* `Manifest.Contents`, `Manifest.contents`: what a manifest shows of a program.

## Main results

* `Manifest.text_eq_text_iff`: manifests are equal exactly if their contents are.
* `Manifest.read_generate_eq_iff`: the same for the images that are written.
-/

namespace ForthFrontend.Manifest

open Yaml (Document)
open Yaml.Document (IsLabelled IsRow IsValue isLabel)

/-! ### Contents -/

/-- What a manifest shows of a program. -/
structure Contents where
  library : Bytes
  target : Bytes
  checkStack : Bool
  forthStackSize : Int64
  returnStackSize : Int64
  constants : List Constant
  globals : List GlobalVariable
  locals : List LocalVariable
  words : List (Bytes × List Bytes)
  externals : List ExternalWord
  deriving Repr, DecidableEq, Inhabited

/-- What a manifest shows of a constant. -/
def shownConstant (c : Constant) : Constant where
  name := Yaml.Scalar.shown c.name
  value :=
    match c.value with
    | .text s => .text (Yaml.Scalar.shown s)
    | .number n => .number n

/-- What a manifest shows of a global variable. -/
def shownGlobal (g : GlobalVariable) : GlobalVariable :=
  { g with name := Yaml.Scalar.shown g.name }

/-- What a manifest shows of a local variable. -/
def shownLocal (l : LocalVariable) : LocalVariable :=
  { l with name := Yaml.Scalar.shown l.name, word := Yaml.Scalar.shown l.word }

/-- What a manifest shows of a word: its name and the texts of its body. -/
def shownWord (w : Word) : Bytes × List Bytes :=
  (Yaml.Scalar.shown w.name, Atom.texts w.body)

/-- What a manifest shows of an external word. -/
def shownExternal (e : ExternalWord) : ExternalWord where
  name := Yaml.Scalar.shown e.name
  library := Yaml.Scalar.shown e.library
  className := Yaml.Scalar.shown e.className
  method := Yaml.Scalar.shown e.method

/-- The contents of the manifest of a program. -/
def contents (t : SymbolTables) (o : CompileOptions) : Contents where
  library := Yaml.Scalar.shown t.library
  target := Yaml.Scalar.shown o.target
  checkStack := o.checkStack
  forthStackSize := o.forthStackSize
  returnStackSize := o.returnStackSize
  constants := t.constants.map shownConstant
  globals := t.globals.map shownGlobal
  locals := t.locals.map shownLocal
  words := t.words.map shownWord
  externals := t.externals.map shownExternal

/-! ### Fields -/

/-- Tables one after another, those without entries left out. -/
def tables (ps : List (Bytes × List Document)) : List (Bytes × Document) :=
  ps.flatMap fun p => table p.1 p.2

theorem name_of_mem_table {name : Bytes} {entries : List Document} {f : Bytes × Document}
    (h : f ∈ table name entries) : f.1 = name := by
  unfold table at h
  split at h
  · cases h
  · rw [List.mem_singleton.1 h]

/-- A table is told from what follows by its name. -/
theorem table_append_inj {name : Bytes} {entries entries' : List Document}
    {fields fields' : List (Bytes × Document)} (h : ∀ f ∈ fields, f.1 ≠ name)
    (h' : ∀ f ∈ fields', f.1 ≠ name)
    (heq : table name entries ++ fields = table name entries' ++ fields') :
    entries = entries' ∧ fields = fields' := by
  have hsome : ∀ e es, table name (e :: es) = [(name, .list (e :: es))] := fun _ _ => rfl
  cases entries with
  | nil =>
    cases entries' with
    | nil => exact ⟨rfl, heq⟩
    | cons e' entries' =>
      have hmem : (name, .list (e' :: entries')) ∈ fields := by
        rw [show fields = _ from heq, hsome]
        exact List.mem_cons_self
      exact absurd rfl (h _ hmem)
  | cons e entries =>
    cases entries' with
    | nil =>
      have hmem : (name, .list (e :: entries)) ∈ fields' := by
        rw [show fields' = _ from heq.symm, hsome]
        exact List.mem_cons_self
      exact absurd rfl (h' _ hmem)
    | cons e' entries' =>
      rw [hsome, hsome, List.singleton_append, List.singleton_append] at heq
      obtain ⟨hfirst, hrest⟩ := List.cons.inj heq
      exact ⟨Document.list.inj (Prod.mk.inj hfirst).2, hrest⟩

/-- **Tables are told apart** by their names. -/
theorem tables_inj {ps ps' : List (Bytes × List Document)}
    (hnames : ps.map Prod.fst = ps'.map Prod.fst) (hnodup : (ps.map Prod.fst).Nodup)
    (h : tables ps = tables ps') : ps = ps' := by
  have hother : ∀ {p : Bytes × List Document} {qs : List (Bytes × List Document)},
      p.1 ∉ qs.map Prod.fst → ∀ f ∈ tables qs, f.1 ≠ p.1 := by
    intro p qs hp f hf hname
    obtain ⟨q, hq, hmem⟩ := List.mem_flatMap.1 hf
    rw [name_of_mem_table hmem] at hname
    exact hp (hname ▸ List.mem_map_of_mem hq)
  induction ps generalizing ps' with
  | nil => exact (List.map_eq_nil_iff.1 hnames.symm).symm
  | cons p ps ih =>
    obtain ⟨p', ps', rfl, hp, hps⟩ := List.map_eq_cons_iff.1 hnames.symm
    rw [List.map_cons, List.nodup_cons] at hnodup
    have hsplit : table p.1 p.2 ++ tables ps = table p.1 p'.2 ++ tables ps' := by
      simpa [tables, hp] using h
    obtain ⟨hentries, hrest⟩ := table_append_inj (hother hnodup.1)
      (hother (hps ▸ hnodup.1)) hsplit
    rw [Prod.ext hp.symm hentries, ih hps.symm hnodup.2 hrest]

/-- The entry of a word, given its name and the texts of its body. -/
def wordEntry (w : Bytes × List Bytes) : Document :=
  .record [("name", .text w.1), ("body", .flow w.2)]

namespace Contents

/-- The fields that every manifest has. -/
def heading (c : Contents) : List (Bytes × Document) :=
  [("library", .text c.library), ("target", .text c.target),
    ("stack", .record [("check", .boolean c.checkStack), ("forth_cells", .integer c.forthStackSize),
      ("return_cells", .integer c.returnStackSize)])]

/-- The tables of a manifest. -/
def entries (c : Contents) : List (Bytes × List Document) :=
  [("constants", c.constants.map constant), ("globals", c.globals.map global),
    ("locals", c.locals.map localVariable), ("words", c.words.map wordEntry),
    ("externals", c.externals.map external)]

end Contents

theorem shown_constant (c : Constant) :
    Document.shown (constant c) = constant (shownConstant c) := by
  obtain ⟨name, value⟩ := c
  cases value <;> rfl

theorem map_shown {α β : Type} {f : α → Document} {g : α → β} {h : β → Document}
    (hshown : ∀ x, Document.shown (f x) = h (g x)) (xs : List α) :
    (xs.map f).map Document.shown = (xs.map g).map h := by
  rw [List.map_map, List.map_map]
  exact List.map_congr_left fun x _ => hshown x

theorem shownFields_append (fs gs : List (Bytes × Document)) : Document.shownFields (fs ++ gs) =
    Document.shownFields fs ++ Document.shownFields gs := by
  rw [Document.shownFields_eq, List.map_append, ← Document.shownFields_eq,
    ← Document.shownFields_eq]

theorem shownFields_table {α β : Type} {f : α → Document} {g : α → β} {h : β → Document}
    (hshown : ∀ x, Document.shown (f x) = h (g x)) (name : Bytes) (xs : List α) :
    Document.shownFields (table name (xs.map f)) = table name ((xs.map g).map h) := by
  rw [← map_shown hshown]
  cases xs with
  | nil => rfl
  | cons x xs =>
    simp [table, Document.shownFields, Document.shown, Document.shownItems_eq]

/-- What the fields of a manifest show are the fields of its contents. -/
theorem shownFields_fields (t : SymbolTables) (o : CompileOptions) :
    Document.shownFields (fields t o) =
      (contents t o).heading ++ tables (contents t o).entries := by
  have hheading : Document.shownFields (heading t o) = (contents t o).heading := rfl
  have hglobal : ∀ g, Document.shown (global g) = global (shownGlobal g) := fun _ => rfl
  have hlocal : ∀ l, Document.shown (localVariable l) = localVariable (shownLocal l) :=
    fun _ => rfl
  have hword : ∀ w, Document.shown (word w) = wordEntry (shownWord w) := fun _ => rfl
  have hexternal : ∀ e, Document.shown (external e) = external (shownExternal e) := fun _ => rfl
  simp only [fields, shownFields_append, hheading, shownFields_table shown_constant,
    shownFields_table hglobal, shownFields_table hlocal, shownFields_table hword,
    shownFields_table hexternal]
  simp [tables, Contents.entries, contents]

/-! ### Telling contents apart -/

theorem integer_inj {m n : Int64} (h : Document.integer m = Document.integer n) : m = n := by
  have hvalue : Yaml.integer? (Decimal.ofInt m.toInt) = some m.toInt :=
    Yaml.integer?_ofInt (Decimal.fitsInt64_toInt m)
  rw [show Decimal.ofInt m.toInt = Decimal.ofInt n.toInt from Document.bare.inj h,
    Yaml.integer?_ofInt (Decimal.fitsInt64_toInt n)] at hvalue
  exact (Int64.toInt_inj.1 (Option.some.inj hvalue)).symm

theorem boolean_inj {a b : Bool} (h : Document.boolean a = Document.boolean b) : a = b := by
  have hne : Bytes.ofString "true" ≠ Bytes.ofString "false" := by decide
  cases a <;> cases b
  · rfl
  · exact absurd (Document.bare.inj h).symm hne
  · exact absurd (Document.bare.inj h) hne
  · rfl

theorem constant_inj {c c' : Constant} (h : constant c = constant c') : c = c' := by
  obtain ⟨name, value⟩ := c
  obtain ⟨name', value'⟩ := c'
  have hne : Bytes.ofString "text" ≠ Bytes.ofString "number" := by decide
  cases value with
  | text s =>
    cases value' with
    | text s' => simpa [constant] using h
    | number n' => simp [constant, hne] at h
  | number n =>
    cases value' with
    | text s' => simp [constant, hne.symm] at h
    | number n' =>
      simp only [constant, Document.record.injEq, List.cons.injEq, Prod.mk.injEq, true_and,
        and_true, Document.text.injEq] at h
      rw [h.1, integer_inj h.2]

theorem global_inj {g g' : GlobalVariable} (h : global g = global g') : g = g' := by
  simp only [global, Document.record.injEq, List.cons.injEq, Prod.mk.injEq, true_and, and_true,
    Document.text.injEq] at h
  obtain ⟨name, size, address⟩ := g
  rw [GlobalVariable.mk.injEq]
  exact ⟨h.1, integer_inj h.2.2, integer_inj h.2.1⟩

theorem localVariable_inj {l l' : LocalVariable} (h : localVariable l = localVariable l') :
    l = l' := by
  simp only [localVariable, Document.record.injEq, List.cons.injEq, Prod.mk.injEq, true_and,
    and_true, Document.text.injEq] at h
  obtain ⟨name, word, address⟩ := l
  rw [LocalVariable.mk.injEq]
  exact ⟨h.1, h.2.1, integer_inj h.2.2⟩

theorem wordEntry_inj {w w' : Bytes × List Bytes} (h : wordEntry w = wordEntry w') : w = w' := by
  simp only [wordEntry, Document.record.injEq, List.cons.injEq, Prod.mk.injEq, true_and, and_true,
    Document.text.injEq, Document.flow.injEq] at h
  exact Prod.ext h.1 h.2

theorem external_inj {e e' : ExternalWord} (h : external e = external e') : e = e' := by
  simp only [external, Document.record.injEq, List.cons.injEq, Prod.mk.injEq, true_and, and_true,
    Document.text.injEq] at h
  obtain ⟨name, library, className, method⟩ := e
  rw [ExternalWord.mk.injEq]
  exact h

/-- **The contents** of a manifest can be told from its fields. -/
theorem Contents.eq_of_fields_eq {c c' : Contents}
    (h : c.heading ++ tables c.entries = c'.heading ++ tables c'.entries) : c = c' := by
  obtain ⟨hheading, htables⟩ := List.append_inj h rfl
  have hentries : c.entries = c'.entries := by
    refine tables_inj rfl ?_ htables
    show ([("constants" : Bytes), "globals", "locals", "words", "externals"] : List Bytes).Nodup
    decide
  simp only [entries, List.cons.injEq, Prod.mk.injEq, true_and, and_true] at hentries
  simp only [heading, List.cons.injEq, Prod.mk.injEq, true_and, and_true, Document.text.injEq,
    Document.record.injEq] at hheading
  obtain ⟨hconstants, hglobals, hlocals, hwords, hexternals⟩ := hentries
  obtain ⟨hlibrary, htarget, hcheck, hforth, hreturn⟩ := hheading
  obtain ⟨library, target, checkStack, forthStackSize, returnStackSize, constants, globals, locals,
    words, externals⟩ := c
  rw [Contents.mk.injEq]
  exact ⟨hlibrary, htarget, boolean_inj hcheck, integer_inj hforth, integer_inj hreturn,
    (List.map_inj_right fun _ _ => constant_inj).1 hconstants,
    (List.map_inj_right fun _ _ => global_inj).1 hglobals,
    (List.map_inj_right fun _ _ => localVariable_inj).1 hlocals,
    (List.map_inj_right fun _ _ => wordEntry_inj).1 hwords,
    (List.map_inj_right fun _ _ => external_inj).1 hexternals⟩

/-! ### Manifests -/

theorem isRow_constant (c : Constant) : IsRow (constant c) := by
  obtain ⟨name, value⟩ := c
  cases value with
  | text s => exact .cons (by decide) (.text name) (.single (by decide) (.text s))
  | number n =>
    exact .cons (by decide) (.text name) (.single (by decide) (Document.isSimple_integer n))

theorem isRow_global (g : GlobalVariable) : IsRow (global g) :=
  .cons (by decide) (.text g.name) <|
    .cons (by decide) (Document.isSimple_integer g.address) <|
      .single (by decide) (Document.isSimple_integer g.size)

theorem isRow_localVariable (l : LocalVariable) : IsRow (localVariable l) :=
  .cons (by decide) (.text l.name) <|
    .cons (by decide) (.text l.word) <|
      .single (by decide) (Document.isSimple_integer l.address)

theorem isRow_word (w : Word) : IsRow (word w) :=
  .cons (by decide) (.text w.name) (.single (by decide) (.flow (Atom.texts w.body)))

theorem isRow_external (e : ExternalWord) : IsRow (external e) :=
  .cons (by decide) (.text e.name) <|
    .cons (by decide) (.text e.library) <|
      .cons (by decide) (.text e.className) (.single (by decide) (.text e.method))

theorem isRow_stack (o : CompileOptions) : IsRow (stack o) :=
  .cons (by decide) (Document.isSimple_boolean o.checkStack) <|
    .cons (by decide) (Document.isSimple_integer o.forthStackSize) <|
      .single (by decide) (Document.isSimple_integer o.returnStackSize)

theorem isLabelled_table {name : Bytes} (hname : isLabel name = true) {α : Type}
    {entry : α → Document} (h : ∀ x, IsRow (entry x)) (xs : List α) :
    ∀ f ∈ table name (xs.map entry), IsLabelled IsValue f := by
  intro f hf
  cases xs with
  | nil => cases hf
  | cons x xs =>
    rw [show f = _ from List.mem_singleton.1 hf]
    refine ⟨hname, .list (List.cons_ne_nil _ _) fun d hd => ?_⟩
    obtain ⟨y, -, rfl⟩ := List.mem_map.1 (show d ∈ (x :: xs).map entry from hd)
    exact h y

/-- Every field of a manifest is one that can be told apart. -/
theorem isLabelled_fields (t : SymbolTables) (o : CompileOptions) :
    ∀ f ∈ fields t o, IsLabelled IsValue f := by
  have hlibrary : isLabel "library" = true := by decide
  have htarget : isLabel "target" = true := by decide
  have hstack : isLabel "stack" = true := by decide
  have hheading : ∀ f ∈ heading t o, IsLabelled IsValue f :=
    List.forall_mem_cons.2 ⟨⟨hlibrary, .simple (.text t.library)⟩,
      List.forall_mem_cons.2 ⟨⟨htarget, .simple (.text o.target)⟩,
        List.forall_mem_singleton.2 ⟨hstack, .row (isRow_stack o)⟩⟩⟩
  intro f hf
  simp only [fields, List.mem_append] at hf
  rcases hf with ((((hf | hf) | hf) | hf) | hf) | hf
  · exact hheading f hf
  · exact isLabelled_table (by decide) isRow_constant t.constants f hf
  · exact isLabelled_table (by decide) isRow_global t.globals f hf
  · exact isLabelled_table (by decide) isRow_localVariable t.locals f hf
  · exact isLabelled_table (by decide) isRow_word t.words f hf
  · exact isLabelled_table (by decide) isRow_external t.externals f hf

/-- **Manifests are equal** exactly if their contents are. -/
theorem text_eq_text_iff (t t' : SymbolTables) (o o' : CompileOptions) :
    text t o = text t' o' ↔ contents t o = contents t' o' := by
  have hwrite := Document.write_eq_write_iff (isLabelled_fields t o) (isLabelled_fields t' o')
  refine Iff.trans hwrite ?_
  rw [shownFields_fields, shownFields_fields]
  exact ⟨Contents.eq_of_fields_eq, fun h => by rw [h]⟩

theorem read_generate {d : Disk} {cancelled : Bool} {t : SymbolTables} {o : CompileOptions}
    {output : Path} (h : (generate d cancelled t o).result = .ok output) :
    (generate d cancelled t o).disk.read output = .ok (text t o) := by
  rw [generate] at h ⊢
  split at h
  · cases h
  · obtain ⟨rfl, hnone, hdisk⟩ := Output.save_of_ok h
    rw [hdisk]
    exact Disk.read_write hnone

/-- **The image of a program shows its contents.** Two programs whose images could be written have
the same image exactly if their manifests have the same contents. -/
theorem read_generate_eq_iff {d d' : Disk} {cancelled cancelled' : Bool} {t t' : SymbolTables}
    {o o' : CompileOptions} {output output' : Path}
    (h : (generate d cancelled t o).result = .ok output)
    (h' : (generate d' cancelled' t' o').result = .ok output') :
    (generate d cancelled t o).disk.read output =
        (generate d' cancelled' t' o').disk.read output' ↔
      contents t o = contents t' o' := by
  rw [read_generate h, read_generate h', Except.ok.injEq]
  exact text_eq_text_iff t t' o o'

namespace LostBreak

def disk : Disk where
  workDir := []
  entries := []

def options : CompileOptions where
  source := "a.4th"

/-- A program whose library begins with a line feed and a space. -/
def broken : SymbolTables where
  library := "\n x\ny"

/-- The same program without the line feed. -/
def unbroken : SymbolTables where
  library := " x\ny"

end LostBreak

/-- Two programs with different libraries have the same image. -/
theorem read_generate_eq_iff_lostBreak :
    (generate LostBreak.disk false LostBreak.broken LostBreak.options).result = .ok "a.exe" ∧
    (generate LostBreak.disk false LostBreak.unbroken LostBreak.options).result = .ok "a.exe" ∧
    LostBreak.broken.library ≠ LostBreak.unbroken.library ∧
    (generate LostBreak.disk false LostBreak.broken LostBreak.options).disk.read "a.exe" =
      (generate LostBreak.disk false LostBreak.unbroken LostBreak.options).disk.read "a.exe" := by
  have hbroken : (generate LostBreak.disk false LostBreak.broken LostBreak.options).result =
      .ok "a.exe" := by rfl
  have hunbroken : (generate LostBreak.disk false LostBreak.unbroken LostBreak.options).result =
      .ok "a.exe" := by rfl
  have hcontents : contents LostBreak.broken LostBreak.options =
      contents LostBreak.unbroken LostBreak.options := by decide +kernel
  exact ⟨hbroken, hunbroken, by decide, (read_generate_eq_iff hbroken hunbroken).2 hcontents⟩

end ForthFrontend.Manifest
