import ForthFrontend.Manifest
import ForthFrontend.Proofs.Analysis.Append
import Mathlib.Algebra.GroupWithZero.Nat
import Mathlib.Data.List.Forall2

/-!
# Well-formed tables

An analysis builds three tables that refer to one another: words, their variables and the atoms of
their bodies. The definitions that it reads are proper, which means that they are made of names and
that their bodies hold no keyword of the definition itself; and reading takes the atoms of a program
one definition after another, without leaving any out. What generation relies on follows from the
definitions being proper.

## Main definitions

* `SymbolTables.IsWellFormed`: what later stages rely on.
* `Definition.IsProper`: a definition is made of names.
* `Definition.Cuts`: which atoms each definition is read from.

## Main results

* `SymbolTables.isWellFormed_of`: proper definitions with distinct names give well-formed tables.
* `Definition.Derives.cuts`: reading cuts a program into its definitions.
* `SymbolTables.IsWellFormed.is_unbound_eq_false`: generation never refuses well-formed tables.
* `analyze_isWellFormed`: an analysis gives well-formed tables and reads every atom once.
-/

namespace ForthFrontend

/-! ### Tables -/

/-- The atom may stand in the body of a word: it neither begins nor ends a word, and it declares no
variable. -/
def Definition.IsBodyAtom (a : Atom) : Prop :=
  a.isWord colon = false ∧ a.isWord semicolon = false ∧ a.isWord "LOCAL" = false

namespace SymbolTables

/-- Can the text name anything? -/
def IsNameText (s : Bytes) : Prop :=
  s ≠ [] ∧ s ≠ Definition.colon ∧ s ≠ Definition.semicolon

/-- Every name that stands in a table. -/
def allNames (t : SymbolTables) : List Bytes :=
  t.constants.map Constant.name ++ t.globals.map GlobalVariable.name
    ++ t.locals.flatMap (fun l => [l.name, l.word]) ++ t.words.map Word.name
    ++ t.externals.flatMap fun e => [e.name, e.library, e.className, e.method]

/-- The variables are those of the word: numbered from zero on, with distinct names. -/
structure IsBlock (w : Word) (block : List LocalVariable) : Prop where
  word : ∀ l ∈ block, l.word = w.name
  address : ∀ i l, block[i]? = some l → l.address = Int64.ofNat i
  distinct : (block.map fun l => l.name.toUpper).Nodup

/-- What later stages rely on. -/
structure IsWellFormed (t : SymbolTables) : Prop where
  library : t.library = [] ∨ IsNameText t.library
  names : ∀ s ∈ t.allNames, IsNameText s
  bodies : ∀ w ∈ t.words, ∀ a ∈ w.body, Definition.IsBodyAtom a
  /-- Every variable belongs to exactly one word. -/
  owners : ∀ l ∈ t.locals, (t.words.map Word.name).count l.word = 1
  /-- The variables stand in one block for each word, in the order of the words. -/
  blocks : ∃ blocks, List.Forall₂ IsBlock t.words blocks ∧ t.locals = blocks.flatten

end SymbolTables

namespace Definition

open SymbolTables (IsNameText IsBlock)

/-! ### Proper definitions -/

/-- What the definition calls by a name is a name, and its body holds body atoms only. -/
def IsProper : Definition → Prop
  | .library name | .constant name _ | .global name _ => IsName name
  | .word name locals body => IsName name ∧ (∀ l ∈ locals, IsName l) ∧ ∀ a ∈ body, IsBodyAtom a
  | .external name lib className method =>
    IsName name ∧ IsName lib ∧ IsName className ∧ IsName method

theorem IsName.isNameText {a : Atom} (h : IsName a) : IsNameText a.text :=
  h.2

theorem Items.isName_of_mem {items locals body : List Atom} (h : Items items locals body) :
    ∀ l ∈ locals, IsName l := by
  induction h with
  | nil => simp
  | localVariable _ hname _ ih => exact List.forall_mem_cons.2 ⟨hname, ih⟩
  | atom _ _ _ _ ih => exact ih

theorem Items.isBodyAtom_of_mem {items locals body : List Atom} (h : Items items locals body) :
    ∀ a ∈ body, IsBodyAtom a := by
  induction h with
  | nil => simp
  | localVariable _ _ _ ih => exact ih
  | atom hcolon hsemicolon hlocal _ ih =>
    exact List.forall_mem_cons.2 ⟨⟨hcolon, hsemicolon, hlocal⟩, ih⟩

theorem Written.isProper {written after : List Atom} {d : Definition}
    (h : Written written after d) : d.IsProper := by
  cases h with
  | word _ hname hitems _ => exact ⟨hname, hitems.isName_of_mem, hitems.isBodyAtom_of_mem⟩
  | cell _ hname _ => exact hname
  | cells _ hname _ _ _ => exact hname
  | library _ hname => exact hname
  | external _ hname hlibrary hclass hmethod => exact ⟨hname, hlibrary, hclass, hmethod⟩
  | constant _ _ hname => exact hname

theorem Derives.isProper {atoms : List Atom} {ds : List Definition} (h : Derives atoms ds) :
    ∀ d ∈ ds, d.IsProper := by
  induction h with
  | nil => simp
  | cons hd _ ih => exact List.forall_mem_cons.2 ⟨hd.isProper, ih⟩

/-! ### Tables of proper definitions -/

theorem isBlock_localVariables {name : Atom} {locals body : List Atom}
    (hlocals : (locals.map key).Nodup) :
    IsBlock ⟨name.text, body⟩ (word name locals body).localVariables := by
  refine ⟨?_, ?_, ?_⟩
  · intro l hl
    obtain ⟨i, hi, rfl⟩ := List.mem_mapIdx.1 hl
    rfl
  · intro i l hl
    rw [localVariables, List.getElem?_mapIdx] at hl
    obtain ⟨a, -, rfl⟩ := Option.map_eq_some_iff.1 hl
    rfl
  · have hkeys : ((word name locals body).localVariables.map fun l => l.name.toUpper) =
        locals.map key := by
      refine List.ext_getElem? fun i => ?_
      simp only [localVariables, List.getElem?_map, List.getElem?_mapIdx, Option.map_map]
      rfl
    rw [hkeys]
    exact hlocals

/-- The variables of definitions stand in one block for each word. -/
theorem exists_blocks {ds : List Definition} (hlocals : ∀ d ∈ ds, d.LocalsDistinct) :
    ∃ blocks, List.Forall₂ IsBlock (ds.filterMap word?) blocks ∧
      ds.flatMap localVariables = blocks.flatten := by
  induction ds with
  | nil => exact ⟨[], .nil, rfl⟩
  | cons d ds ih =>
    rw [List.forall_mem_cons] at hlocals
    obtain ⟨blocks, hblocks, hflatten⟩ := ih hlocals.2
    cases d with
    | word name locals body =>
      refine ⟨(word name locals body).localVariables :: blocks,
        .cons (isBlock_localVariables hlocals.1) hblocks, ?_⟩
      rw [List.flatMap_cons, hflatten, List.flatten_cons]
    | library | constant | «global» | external => exact ⟨blocks, hblocks, hflatten⟩

/-- Words are among what takes a name. -/
theorem sublist_keys (ds : List Definition) :
    (((ds.filterMap word?).map Word.name).map Bytes.toUpper).Sublist (keys ds) := by
  induction ds with
  | nil => exact .slnil
  | cons d ds ih =>
    cases d with
    | library => exact ih
    | word => exact ih.cons_cons _
    | constant | «global» | external => exact ih.cons _

end Definition

namespace SymbolTables

open Definition

theorem isNameText_of_mem_allNames {ds : List Definition} (hproper : ∀ d ∈ ds, d.IsProper) :
    ∀ s ∈ (of ds).allNames, IsNameText s := by
  have hglobals : (of ds).globals.map GlobalVariable.name = (ds.filterMap global?).map Prod.fst :=
    GlobalVariable.map_name_place 0 _
  intro s hs
  rw [allNames, hglobals] at hs
  simp only [of, List.mem_append, List.mem_map, List.mem_flatMap, List.mem_filterMap] at hs
  obtain (((⟨_, ⟨d, hd, h⟩, rfl⟩ | ⟨_, ⟨d, hd, h⟩, rfl⟩) | ⟨l, ⟨d, hd, h⟩, hs⟩) |
    ⟨_, ⟨d, hd, h⟩, rfl⟩) | ⟨_, ⟨d, hd, h⟩, hs⟩ := hs
  · cases d <;> cases h
    exact (hproper _ hd).isNameText
  · cases d <;> cases h
    exact (hproper _ hd).isNameText
  · cases d with
    | word name locals body =>
      obtain ⟨i, hi, rfl⟩ := List.mem_mapIdx.1 h
      obtain ⟨hname, hlocals, -⟩ := hproper _ hd
      simp only [List.mem_cons, List.not_mem_nil, or_false] at hs
      obtain rfl | rfl := hs
      · exact (hlocals _ (List.getElem_mem hi)).isNameText
      · exact hname.isNameText
    | library | constant | «global» | external => cases h
  · cases d <;> cases h
    exact (hproper _ hd).1.isNameText
  · cases d <;> cases h
    obtain ⟨hname, hlibrary, hclass, hmethod⟩ := hproper _ hd
    simp only [List.mem_cons, List.not_mem_nil, or_false] at hs
    obtain rfl | rfl | rfl | rfl := hs
    · exact hname.isNameText
    · exact hlibrary.isNameText
    · exact hclass.isNameText
    · exact hmethod.isNameText

theorem library_of {ds : List Definition} (hproper : ∀ d ∈ ds, d.IsProper) :
    (of ds).library = [] ∨ IsNameText (of ds).library := by
  rcases List.eq_nil_or_concat' (ds.filterMap library?) with hnone | ⟨names, name, hlast⟩
  · exact .inl (by simp [of, hnone])
  · have hmem : name ∈ ds.filterMap library? := by rw [hlast]; simp
    obtain ⟨d, hd, h⟩ := List.mem_filterMap.1 hmem
    have hlibrary : (of ds).library = name := by simp [of, hlast]
    rw [hlibrary]
    cases d <;> cases h
    exact .inr (hproper _ hd).isNameText

theorem count_name_of_mem_locals {ds : List Definition} (hnames : (keys ds).Nodup) :
    ∀ l ∈ (of ds).locals, ((of ds).words.map Word.name).count l.word = 1 := by
  intro l hl
  obtain ⟨d, hd, h⟩ := List.mem_flatMap.1 hl
  have hnodup : ((of ds).words.map Word.name).Nodup :=
    List.Nodup.of_map _ (hnames.sublist (sublist_keys ds))
  refine List.count_eq_one_of_mem hnodup ?_
  cases d with
  | word name locals body =>
    obtain ⟨i, hi, rfl⟩ := List.mem_mapIdx.1 h
    exact List.mem_map.2 ⟨⟨name.text, body⟩, List.mem_filterMap.2 ⟨_, hd, rfl⟩, rfl⟩
  | library | constant | «global» | external => cases h

/-- **Proper definitions with distinct names** give well-formed tables. -/
theorem isWellFormed_of {ds : List Definition} (hproper : ∀ d ∈ ds, d.IsProper)
    (hlocals : ∀ d ∈ ds, d.LocalsDistinct) (hnames : (keys ds).Nodup) : (of ds).IsWellFormed where
  library := library_of hproper
  names := isNameText_of_mem_allNames hproper
  bodies := by
    intro w hw
    obtain ⟨d, hd, h⟩ := List.mem_filterMap.1 hw
    cases d <;> cases h
    exact (hproper _ hd).2.2
  owners := count_name_of_mem_locals hnames
  blocks := exists_blocks hlocals

/-! ### Generation -/

theorem IsWellFormed.firstUnbound?_eq_none {t : SymbolTables} (h : t.IsWellFormed) :
    Manifest.firstUnbound? t = none := by
  refine List.find?_eq_none.2 fun e he => ?_
  have hpart : ∀ s ∈ [e.name, e.library, e.className, e.method], s ≠ [] := by
    intro s hs
    exact (h.names s (List.mem_append_right _ (List.mem_flatMap.2 ⟨e, he, hs⟩))).1
  simp only [List.forall_mem_cons] at hpart
  simp [ExternalWord.isBound, hpart.2.1, hpart.2.2.1, hpart.2.2.2.1]

/-- **Generation never refuses well-formed tables** for a word that is not bound. -/
theorem IsWellFormed.is_unbound_eq_false {t : SymbolTables} (h : t.IsWellFormed) {d : Disk}
    {cancelled : Bool} {o : CompileOptions} {f : Failure}
    (hf : (Manifest.generate d cancelled t o).result = .error f) :
    f.is .unboundExternal = false := by
  rw [Manifest.generate, h.firstUnbound?_eq_none] at hf
  simp only [Output.save, Output.write] at hf
  cases cancelled with
  | true =>
    obtain rfl := Except.error.inj hf
    rfl
  | false =>
    cases hwrite : (d.write o.outputPath (Manifest.text t o)).error? with
    | none => simp [hwrite] at hf
    | some e =>
      simp only [Bool.false_eq_true, ↓reduceIte, hwrite, Option.map_some] at hf
      obtain rfl := Except.error.inj hf
      rfl

end SymbolTables

/-! ### Atoms -/

namespace Definition

/-- Reading the definitions of a program one after another cuts it into these parts, each with the
atoms it is read from. -/
inductive Cuts : List Atom → List (Definition × List Atom) → Prop
  | nil : Cuts [] []
  | cons {a : Atom} {rest written after : List Atom} {d : Definition}
    {parts : List (Definition × List Atom)} (hread : read a rest = .ok (d, after))
    (hwritten : a :: rest = written ++ after) (h : Cuts after parts) :
    Cuts (a :: rest) ((d, written) :: parts)

/-- How many atoms a definition takes: its keywords, its names, and what stands between them. -/
inductive Takes : Definition → Nat → Prop
  | library (name : Atom) : Takes (.library name) 2
  | constant (name : Atom) (value : ConstantValue) : Takes (.constant name value) 3
  | cell (name : Atom) : Takes (.global name 1) 2
  | cells (name : Atom) (n : Int64) : Takes (.global name (1 + n)) 4
  | word (name : Atom) (locals body : List Atom) :
    Takes (.word name locals body) (3 + 2 * locals.length + body.length)
  | external (name library className method : Atom) :
    Takes (.external name library className method) 5

theorem Items.length_eq {items locals body : List Atom} (h : Items items locals body) :
    items.length = 2 * locals.length + body.length := by
  induction h with
  | nil => rfl
  | localVariable _ _ _ ih =>
    simp only [List.length_cons, ih]
    omega
  | atom _ _ _ _ ih =>
    simp only [List.length_cons, ih]
    omega

theorem Written.takes {written after : List Atom} {d : Definition} (h : Written written after d) :
    d.Takes written.length := by
  cases h with
  | @word start name stop items locals body _ _ _ hitems _ =>
    have hlength : (start :: name :: items ++ [stop]).length =
        3 + 2 * locals.length + body.length := by
      simp only [List.cons_append, List.length_cons, List.length_append, List.length_nil,
        hitems.length_eq]
      omega
    rw [hlength]
    exact .word name locals body
  | cell => exact .cell _
  | cells => exact .cells _ _
  | library => exact .library _
  | external => exact .external _ _ _ _
  | constant => exact .constant _ _

/-- **Reading cuts a program into its definitions**, each of which takes as many atoms as its form
has. -/
theorem Derives.cuts {atoms : List Atom} {ds : List Definition} (h : Derives atoms ds)
    (hlocals : ∀ d ∈ ds, d.LocalsDistinct) :
    ∃ parts, Cuts atoms parts ∧ parts.map Prod.fst = ds ∧
      ∀ part ∈ parts, part.1.Takes part.2.length := by
  induction h with
  | nil => exact ⟨[], .nil, rfl, by simp⟩
  | @cons written after d ds hd _ ih =>
    rw [List.forall_mem_cons] at hlocals
    obtain ⟨parts, hparts, rfl, htakes⟩ := ih hlocals.2
    obtain ⟨a, rest, rfl⟩ := List.exists_cons_of_ne_nil hd.ne_nil
    have hread : read a (rest ++ after) = .ok (d, after) := read_of_written hd hlocals.1 rfl
    exact ⟨(d, a :: rest) :: parts, .cons hread rfl hparts, rfl,
      List.forall_mem_cons.2 ⟨hd.takes, htakes⟩⟩

/-- Nothing stands between the parts, in front of them or behind them. -/
theorem Cuts.flatMap_eq {atoms : List Atom} {parts : List (Definition × List Atom)}
    (h : Cuts atoms parts) : parts.flatMap Prod.snd = atoms := by
  induction h with
  | nil => rfl
  | cons _ hwritten _ ih => rw [List.flatMap_cons, ih, hwritten]

end Definition

theorem analyze_live {cancelled : Bool} {atoms : List Atom} {t : SymbolTables}
    (h : (analyze cancelled atoms).result = .ok t) : (analyze false atoms).result = .ok t := by
  rw [analyze] at h ⊢
  split at h
  · cases h
  · exact h

open Definition in
/-- **The tables of an accepted program are well formed**, its atoms are cut into its definitions
without a rest, and generation does not refuse the tables for a word that is not bound. -/
theorem analyze_isWellFormed {cancelled : Bool} {atoms : List Atom} {t : SymbolTables}
    (h : (analyze cancelled atoms).result = .ok t) :
    t.IsWellFormed ∧
    (∃ parts, Cuts atoms parts ∧ t = .of (parts.map Prod.fst) ∧ parts.flatMap Prod.snd = atoms ∧
      (∀ part ∈ parts, part.1.Takes part.2.length) ∧
      (parts.map fun part => part.2.length).sum = atoms.length) ∧
    ∀ (d : Disk) (cancelled : Bool) (o : CompileOptions) (f : Failure),
      (Manifest.generate d cancelled t o).result = .error f → f.is .unboundExternal = false := by
  obtain ⟨ds, hds, hlocals, hnames, rfl⟩ := Analysis.exists_derives_of_analyze (analyze_live h)
  have hformed := SymbolTables.isWellFormed_of hds.isProper hlocals hnames
  obtain ⟨parts, hparts, rfl, htakes⟩ := hds.cuts hlocals
  refine ⟨hformed, ⟨parts, hparts, rfl, hparts.flatMap_eq, htakes, ?_⟩,
    fun d cancelled o f hf => hformed.is_unbound_eq_false hf⟩
  rw [← hparts.flatMap_eq, List.length_flatMap]

namespace TwoWords

open TwoPrograms (words)

/-- Two words with a variable of the same name each, and names that are keywords elsewhere. -/
def atoms : List Atom :=
  words [":", "f", "LOCAL", "x", "x", "VARIABLE", "LOCAL", "y", ";", "VARIABLE", "v", "0", "ALLOT",
    ":", "LOCAL", "local", "X", "f", ";", "EXTERN", "e", "lib", "Class", "method"]

def tables : SymbolTables where
  globals := [⟨"v", 1, 0⟩]
  locals := [⟨"x", "f", 0⟩, ⟨"y", "f", 1⟩, ⟨"X", "LOCAL", 0⟩]
  words := [⟨"f", words ["x", "VARIABLE"]⟩, ⟨"LOCAL", words ["f"]⟩]
  externals := [⟨"e", "lib", "Class", "method"⟩]

end TwoWords

open TwoWords Definition in
theorem analyze_isWellFormed_twoWords :
    (analyze false atoms).result = .ok tables ∧ tables.IsWellFormed ∧
    (∃ parts, Cuts atoms parts ∧ tables = .of (parts.map Prod.fst) ∧
      (parts.map fun part => part.2.length).sum = 24) ∧
    ∀ (d : Disk) (o : CompileOptions) (f : Failure),
      (Manifest.generate d false tables o).result = .error f → f.is .unboundExternal = false := by
  have h : (analyze false atoms).result = .ok tables := by decide +kernel
  obtain ⟨hformed, ⟨parts, hparts, htables, -, -, hsum⟩, hgenerate⟩ := analyze_isWellFormed h
  exact ⟨h, hformed, ⟨parts, hparts, htables, hsum⟩, fun d o f => hgenerate d false o f⟩

end ForthFrontend
