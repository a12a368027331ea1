import ForthFrontend.Analysis
import ForthFrontend.Proofs.Definition

/-!
# What an analysis accepts and builds

The tables of a program are a function of its definitions: `SymbolTables.of` lists the definitions
of each kind in order, places global variables one behind another and numbers the variables of each
word. An analysis that has gone through the definitions `ds` is `Analysis.of ds`, so the run over a
sequence of atoms is determined by the derivation of the sequence.

## Main results

* `Analysis.add_of_eq_ok_iff`: what one more definition does to an analysis.
* `Analysis.run_of_derives`, `Analysis.derives_of_run`: which sequences an analysis goes through.
* `analyze_eq_ok_iff_derives`: the two together, for a whole program.
-/

namespace ForthFrontend

namespace Definition

/-- The name that a definition takes in the space of names all definitions share. -/
def declared? : Definition → Option Atom
  | .library _ => none
  | .constant name _ | .global name _ | .word name _ _ | .external name _ _ _ => some name

def library? : Definition → Option Bytes
  | .library name => some name.text
  | _ => none

def constant? : Definition → Option Constant
  | .constant name value => some ⟨name.text, value⟩
  | _ => none

/-- The name and the size of a global variable. -/
def global? : Definition → Option (Bytes × Int64)
  | .global name size => some (name.text, size)
  | _ => none

/-- The variables of a word with their numbers. -/
def localVariables : Definition → List LocalVariable
  | .word name locals _ => locals.mapIdx fun i l => ⟨l.text, name.text, Int64.ofNat i⟩
  | _ => []

def word? : Definition → Option Word
  | .word name _ body => some ⟨name.text, body⟩
  | _ => none

def external? : Definition → Option ExternalWord
  | .external name lib className method =>
    some ⟨name.text, lib.text, className.text, method.text⟩
  | _ => none

/-- The names that definitions take. -/
def keys (ds : List Definition) : List Bytes :=
  (ds.filterMap declared?).map key

end Definition

/-- Global variables one behind another, the first of them at `address`. -/
def GlobalVariable.place (address : Int64) : List (Bytes × Int64) → List GlobalVariable
  | [] => []
  | (name, size) :: rest => ⟨name, size, address⟩ :: place (address + size) rest

/-- The cell behind global variables, the first of which is at `address`. -/
def GlobalVariable.behind (address : Int64) (vars : List (Bytes × Int64)) : Int64 :=
  vars.foldl (fun next v => next + v.2) address

/-- The tables of a sequence of definitions. -/
def SymbolTables.of (ds : List Definition) : SymbolTables where
  library := (ds.filterMap Definition.library?).getLastD []
  constants := ds.filterMap Definition.constant?
  globals := GlobalVariable.place 0 (ds.filterMap Definition.global?)
  locals := ds.flatMap Definition.localVariables
  words := ds.filterMap Definition.word?
  externals := ds.filterMap Definition.external?

theorem GlobalVariable.place_append (address : Int64) (vars more : List (Bytes × Int64)) :
    place address (vars ++ more) = place address vars ++ place (behind address vars) more := by
  induction vars generalizing address with
  | nil => rfl
  | cons v vars ih =>
    rw [List.cons_append, place, place, ih]
    rfl

namespace Analysis

open Definition

/-- The analysis that has gone through the definitions `ds`. -/
def of (ds : List Definition) : Analysis where
  tables := .of ds
  names := (keys ds).reverse
  nextCell := GlobalVariable.behind 0 (ds.filterMap global?)

theorem numberLocals_eq (word : Bytes) (address : Nat) (locals : List Atom) :
    numberLocals word address locals =
      locals.mapIdx fun i l => ⟨l.text, word, Int64.ofNat (address + i)⟩ := by
  induction locals generalizing address with
  | nil => rfl
  | cons l locals ih =>
    rw [numberLocals, ih, List.mapIdx_cons]
    simp only [Nat.add_zero, Nat.add_assoc, Nat.add_comm 1]

/-- The analysis with one more definition, whether or not its name is taken. -/
def extend (s : Analysis) (d : Definition) : Analysis where
  tables :=
    { library := d.library?.getD s.tables.library
      constants := s.tables.constants ++ d.constant?.toList
      globals := s.tables.globals ++ GlobalVariable.place s.nextCell d.global?.toList
      locals := s.tables.locals ++ d.localVariables
      words := s.tables.words ++ d.word?.toList
      externals := s.tables.externals ++ d.external?.toList }
  names := d.declared?.toList.map key ++ s.names
  nextCell := GlobalVariable.behind s.nextCell d.global?.toList

theorem declare_eq (s : Analysis) (name : Atom) :
    s.declare name = if key name ∈ s.names then .error (duplicate name)
      else .ok { s with names := key name :: s.names } := by
  by_cases hname : key name ∈ s.names
  · rw [if_pos hname, declare, if_pos (by simpa [key] using hname)]
  · rw [if_neg hname, declare, if_neg (by simpa [key] using hname)]
    rfl

/-- **One more definition** is refused if its name is taken. -/
theorem add_eq (s : Analysis) (d : Definition) :
    s.add d = match d.declared? with
      | none => .ok (s.extend d)
      | some name => if key name ∈ s.names then .error (duplicate name) else .ok (s.extend d) := by
  cases hd : d.declared? with
  | none =>
    cases d <;> simp_all [add, extend, declared?, library?, constant?, global?, localVariables,
      word?, external?, GlobalVariable.place, GlobalVariable.behind]
  | some name =>
    by_cases hname : key name ∈ s.names
    · cases d <;> cases hd <;> simp [add, declare_eq, hname, bind, Except.bind]
    · cases d <;> cases hd <;> simp [add, declare_eq, hname, bind, Except.bind, pure, Except.pure,
        extend, declared?, library?, constant?, global?, localVariables, word?, external?,
        GlobalVariable.place, GlobalVariable.behind, numberLocals_eq]

theorem filterMap_concat {α : Type} (f : Definition → Option α) (ds : List Definition)
    (d : Definition) : (ds ++ [d]).filterMap f = ds.filterMap f ++ (f d).toList := by
  cases h : f d <;> simp [h]

theorem keys_concat (ds : List Definition) (d : Definition) :
    keys (ds ++ [d]) = keys ds ++ d.declared?.toList.map key := by
  rw [keys, keys, filterMap_concat, List.map_append]

theorem of_concat (ds : List Definition) (d : Definition) :
    of (ds ++ [d]) = (of ds).extend d := by
  have hlast : ∀ (l : List Bytes) (o : Option Bytes),
      (l ++ o.toList).getLastD [] = o.getD (l.getLastD []) := by
    intro l o
    cases o <;> simp
  have hreverse : ∀ o : Option Atom, (o.toList.map key).reverse = o.toList.map key := by
    intro o
    cases o <;> rfl
  simp only [of, extend, SymbolTables.of, filterMap_concat, keys_concat, hlast, hreverse,
    GlobalVariable.place_append, GlobalVariable.behind, List.foldl_append, List.reverse_append,
    List.flatMap_append, List.flatMap_cons, List.flatMap_nil, List.append_nil]

/-- Behind definitions with distinct names, a definition is added exactly if the names stay
distinct. -/
theorem add_of_eq_ok_iff {ds : List Definition} {d : Definition} {s : Analysis}
    (hds : (keys ds).Nodup) :
    (of ds).add d = .ok s ↔ (keys (ds ++ [d])).Nodup ∧ s = of (ds ++ [d]) := by
  rw [add_eq, keys_concat, of_concat]
  cases d.declared? with
  | none =>
    simp only [Option.toList_none, List.map_nil, List.append_nil, hds, true_and, Except.ok.injEq]
    exact eq_comm
  | some name =>
    have hnames : key name ∈ (of ds).names ↔ key name ∈ keys ds := List.mem_reverse
    have hnodup : (keys ds ++ [key name]).Nodup ↔ key name ∉ keys ds := by
      rw [← List.concat_eq_append, List.nodup_concat]
      exact and_iff_left hds
    simp only [Option.toList_some, List.map_cons, List.map_nil, hnodup, hnames]
    by_cases hmem : key name ∈ keys ds
    · simp [hmem]
    · simp only [hmem, ↓reduceIte, Except.ok.injEq, not_false_eq_true, true_and]
      exact eq_comm

theorem run_nil (s : Analysis) : s.run [] = .ok s := by
  rw [run.eq_def]

/-- A run reads one definition, adds it, and goes on behind it. -/
theorem run_cons (s : Analysis) (a : Atom) (rest : List Atom) :
    s.run (a :: rest) = (do
      let (d, after) ← read a rest
      let s ← s.add d
      s.run after) := by
  rw [run.eq_def]
  simp only
  split
  · next e hread => rw [hread]; rfl
  · next d after hread =>
    rw [hread]
    show _ = (s.add d >>= fun s => s.run after)
    cases s.add d <;> rfl

theorem run_cons_eq_ok_iff {s t : Analysis} {a : Atom} {rest : List Atom} :
    s.run (a :: rest) = .ok t ↔ ∃ d after next, Splits (a :: rest) after d ∧
      s.add d = .ok next ∧ next.run after = .ok t := by
  rw [run_cons]
  constructor
  · intro h
    obtain ⟨⟨d, after⟩, hread, h⟩ := bind_eq_ok.1 h
    obtain ⟨next, hadd, h⟩ := bind_eq_ok.1 h
    exact ⟨d, after, next, read_eq_ok_iff.1 hread, hadd, h⟩
  · rintro ⟨d, after, next, hsplits, hadd, hrun⟩
    exact bind_eq_ok.2 ⟨(d, after), read_eq_ok_iff.2 hsplits, bind_eq_ok.2 ⟨next, hadd, hrun⟩⟩

/-- **A derivation is gone through.** Behind the definitions `ds`, a run over a derived sequence
leads behind its definitions, if their names stay distinct. -/
theorem run_of_derives {atoms : List Atom} {es : List Definition} (h : Derives atoms es)
    {ds : List Definition} (hlocals : ∀ e ∈ es, e.LocalsDistinct)
    (hnames : (keys (ds ++ es)).Nodup) : (of ds).run atoms = .ok (of (ds ++ es)) := by
  induction h generalizing ds with
  | nil => rw [run_nil, List.append_nil]
  | @cons written after e es he _ ih =>
    rw [List.forall_mem_cons] at hlocals
    rw [List.append_cons] at hnames ⊢
    -- names that are distinct in the end were so at every definition on the way
    have hfront : (keys (ds ++ [e])).Nodup := by
      rw [keys, List.filterMap_append, List.map_append] at hnames
      exact hnames.of_append_left
    have hds : (keys ds).Nodup := by
      rw [keys, List.filterMap_append, List.map_append] at hfront
      exact hfront.of_append_left
    obtain ⟨a, rest, rfl⟩ := List.exists_cons_of_ne_nil he.ne_nil
    exact run_cons_eq_ok_iff.2 ⟨e, after, of (ds ++ [e]), ⟨a :: rest, rfl, he, hlocals.1⟩,
      (add_of_eq_ok_iff hds).2 ⟨hfront, rfl⟩, ih hlocals.2 hnames⟩

/-- **What a run goes through is a derivation.** -/
theorem derives_of_run {atoms : List Atom} {ds : List Definition} {s : Analysis}
    (hds : (keys ds).Nodup) (h : (of ds).run atoms = .ok s) :
    ∃ es, Derives atoms es ∧ (∀ e ∈ es, e.LocalsDistinct) ∧ (keys (ds ++ es)).Nodup ∧
      s = of (ds ++ es) := by
  -- each definition takes at least one atom
  induction hn : atoms.length using Nat.strongRecOn generalizing ds atoms with
  | ind n ih =>
    cases atoms with
    | nil =>
      rw [run_nil] at h
      refine ⟨[], .nil, by simp, ?_, ?_⟩
      · simpa using hds
      · rw [List.append_nil, Except.ok.inj h]
    | cons a rest =>
      obtain ⟨d, after, next, ⟨written, hatoms, hwritten, hlocals⟩, hadd, hrun⟩ :=
        run_cons_eq_ok_iff.1 h
      obtain ⟨hnames, rfl⟩ := (add_of_eq_ok_iff hds).1 hadd
      have hlt : after.length < n := by
        have hpos := List.length_pos_iff.2 hwritten.ne_nil
        rw [← hn, hatoms, List.length_append]
        omega
      obtain ⟨es, hes, hlocals', hnames', rfl⟩ := ih _ hlt hnames hrun rfl
      rw [← List.append_cons] at hnames' ⊢
      exact ⟨d :: es, hatoms ▸ .cons hwritten hes, List.forall_mem_cons.2 ⟨hlocals, hlocals'⟩,
        hnames', rfl⟩

end Analysis

/-- **Analysis accepts the grammar.** A program has the tables `t` exactly if it is a sequence of
definitions in which the names that share a space are distinct, and `t` are the tables of these
definitions. There is one such sequence. -/
theorem analyze_eq_ok_iff_derives (atoms : List Atom) (t : SymbolTables) :
    (analyze false atoms).result = .ok t ↔
      ∃! ds, Definition.Derives atoms ds ∧ (Definition.keys ds).Nodup ∧
        (∀ d ∈ ds, (d.locals.map Definition.key).Nodup) ∧ t = .of ds := by
  have hresult : (analyze false atoms).result = .ok t ↔
      ∃ s, (Analysis.of []).run atoms = .ok s ∧ t = s.tables := by
    rw [analyze, if_neg (by simp)]
    show _ ↔ ∃ s, Analysis.run {} atoms = .ok s ∧ t = s.tables
    cases Analysis.run {} atoms with
    | error e => simp
    | ok s => simp [eq_comm]
  rw [hresult]
  constructor
  · rintro ⟨s, hrun, rfl⟩
    have hnil : (Definition.keys []).Nodup := List.nodup_nil
    obtain ⟨ds, hds, hlocals, hnames, rfl⟩ := Analysis.derives_of_run hnil hrun
    refine ⟨ds, ⟨hds, hnames, hlocals, rfl⟩, ?_⟩
    rintro es ⟨hes, -, hlocals', -⟩
    exact hes.unique hlocals' hds hlocals
  · rintro ⟨ds, ⟨hds, hnames, hlocals, rfl⟩, -⟩
    exact ⟨.of ds, Analysis.run_of_derives hds hlocals hnames, rfl⟩

-- A word named `ALLOT` cannot follow a variable at once: the variable would need a size before it.
example :
    let accepts := fun texts : List Bytes =>
      (analyze false (texts.map fun text => ⟨text, .word, [], 1⟩)).result.isOk
    (accepts [":", "ALLOT", ";", "VARIABLE", "v"], accepts ["VARIABLE", "v", ":", "ALLOT", ";"]) =
      (true, false) := by
  decide +kernel

end ForthFrontend
