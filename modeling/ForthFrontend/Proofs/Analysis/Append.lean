import ForthFrontend.Proofs.Analysis

/-!
# Programs one behind another

Definitions depend on what follows them at one place only: `VARIABLE name` looks two atoms further
for an `ALLOT`. So a program can be put behind another one if its second atom is no `ALLOT`, and the
definitions of the whole are those of the two parts. The tables are put together accordingly: the
global variables of the second part move behind those of the first. If the two parts share a name,
the analysis stops at the first definition of the second part whose name is taken.

## Main results

* `Definition.Derives.append`: a derivation behind another one.
* `SymbolTables.of_append`: the tables of definitions put together.
* `Analysis.run_of_front`: a run behind the definitions in front.
* `Analysis.run_of_taken`: where a run stops at a name that is taken.
* `analyze_append`: the analysis of two programs, one behind the other.
-/

namespace ForthFrontend

namespace Definition

/-! ### Derivations -/

theorem Written.two_le_length {written after : List Atom} {d : Definition}
    (h : Written written after d) : 2 ≤ written.length := by
  cases h <;> simp

theorem Derives.length_ne_one {atoms : List Atom} {ds : List Definition} (h : Derives atoms ds) :
    atoms.length ≠ 1 := by
  cases h with
  | nil => simp
  | cons hd _ =>
    have := hd.two_le_length
    rw [List.length_append]
    omega

/-- What is written stays so if atoms are put behind what follows, provided that a variable at the
very end is not given a size by them. -/
theorem Written.append {written after more : List Atom} {d : Definition}
    (h : Written written after d) (hafter : after.length ≠ 1)
    (hmore : ∀ a, more[1]? = some a → a.isWord "ALLOT" = false) :
    Written written (after ++ more) d := by
  cases h with
  | word hstart hname hitems hstop => exact .word hstart hname hitems hstop
  | cell hkeyword hname hfollows =>
    refine .cell hkeyword hname fun a ha => ?_
    -- the atom looked at stands in `more` only if nothing stands between
    match after with
    | [] => exact hmore a ha
    | [_] => exact absurd rfl hafter
    | _ :: _ :: _ => exact hfollows a ha
  | cells hkeyword hname hcount hn hallot => exact .cells hkeyword hname hcount hn hallot
  | library hkeyword hname => exact .library hkeyword hname
  | external hkeyword hname hlibrary hclass hmethod =>
    exact .external hkeyword hname hlibrary hclass hmethod
  | constant hvalue hkeyword hname => exact .constant hvalue hkeyword hname

/-- **Derivations can be put one behind another.** -/
theorem Derives.append {atoms more : List Atom} {ds es : List Definition} (hd : Derives atoms ds)
    (he : Derives more es) (hmore : ∀ a, more[1]? = some a → a.isWord "ALLOT" = false) :
    Derives (atoms ++ more) (ds ++ es) := by
  induction hd with
  | nil => exact he
  | cons hwritten hds ih =>
    rw [List.append_assoc]
    exact .cons (hwritten.append hds.length_ne_one hmore) ih

theorem Derives.library_ne_nil {atoms : List Atom} {ds : List Definition} (h : Derives atoms ds) :
    ∀ name ∈ ds.filterMap library?, name ≠ [] := by
  induction h with
  | nil => simp
  | cons hwritten _ ih =>
    cases hwritten with
    | library _ hname => exact List.forall_mem_cons.2 ⟨hname.2.1, ih⟩
    | _ => exact ih

theorem keys_append (ds es : List Definition) : keys (ds ++ es) = keys ds ++ keys es := by
  rw [keys, List.filterMap_append, List.map_append]
  rfl

/-- Does the definition take a name that one of `ds` takes? -/
def clashes (ds : List Definition) (d : Definition) : Bool :=
  d.declared?.any fun a => decide (key a ∈ keys ds)

theorem clashes_iff {ds : List Definition} {d : Definition} :
    clashes ds d = true ↔ ∃ a, d.declared? = some a ∧ key a ∈ keys ds := by
  simp only [clashes, Option.any_eq_true, decide_eq_true_eq]

/-- Definitions that share a name with others have a first one that does. -/
theorem exists_first_clash {ds es : List Definition} {k : Bytes} (hds : k ∈ keys ds)
    (hes : k ∈ keys es) :
    ∃ before d after name, es = before ++ d :: after ∧ d.declared? = some name ∧
      key name ∈ keys ds ∧ ∀ l ∈ keys before, l ∉ keys ds := by
  obtain ⟨a, ha, rfl⟩ := List.mem_map.1 hes
  obtain ⟨e, he, hea⟩ := List.mem_filterMap.1 ha
  have hsome : (es.find? (clashes ds)).isSome = true :=
    List.find?_isSome.2 ⟨e, he, clashes_iff.2 ⟨a, hea, hds⟩⟩
  obtain ⟨d, hd⟩ := Option.isSome_iff_exists.1 hsome
  obtain ⟨hclash, before, after, rfl, hfree⟩ := List.find?_eq_some_iff_append.1 hd
  obtain ⟨name, hname, hkey⟩ := clashes_iff.1 hclash
  refine ⟨before, d, after, name, rfl, hname, hkey, fun l hl hmem => ?_⟩
  obtain ⟨b, hb, rfl⟩ := List.mem_map.1 hl
  obtain ⟨f, hf, hfb⟩ := List.mem_filterMap.1 hb
  have hnot := hfree f hf
  rw [clashes_iff.2 ⟨b, hfb, hmem⟩] at hnot
  cases hnot

end Definition

/-! ### Tables -/

/-- The variable with its cells moved by `offset`. -/
def GlobalVariable.shift (offset : Int64) (g : GlobalVariable) : GlobalVariable :=
  { g with address := g.address + offset }

namespace SymbolTables

/-- The names that share one space. -/
def globalNames (t : SymbolTables) : List Bytes :=
  t.constants.map Constant.name ++ t.globals.map GlobalVariable.name ++ t.words.map Word.name ++
    t.externals.map ExternalWord.name

/-- How many cells the global variables take together. -/
def cells (t : SymbolTables) : Int64 :=
  (t.globals.map GlobalVariable.size).sum

/-- The tables of a program behind another one. -/
def append (t u : SymbolTables) : SymbolTables where
  library := if u.library.isEmpty then t.library else u.library
  constants := t.constants ++ u.constants
  globals := t.globals ++ u.globals.map (GlobalVariable.shift t.cells)
  locals := t.locals ++ u.locals
  words := t.words ++ u.words
  externals := t.externals ++ u.externals

end SymbolTables

namespace GlobalVariable

theorem map_name_place (address : Int64) (vars : List (Bytes × Int64)) :
    (place address vars).map name = vars.map Prod.fst := by
  induction vars generalizing address with
  | nil => rfl
  | cons v vars ih => rw [place, List.map_cons, List.map_cons, ih]

theorem map_size_place (address : Int64) (vars : List (Bytes × Int64)) :
    (place address vars).map size = vars.map Prod.snd := by
  induction vars generalizing address with
  | nil => rfl
  | cons v vars ih => rw [place, List.map_cons, List.map_cons, ih]

theorem place_add (address offset : Int64) (vars : List (Bytes × Int64)) :
    place (address + offset) vars = (place address vars).map (shift offset) := by
  induction vars generalizing address with
  | nil => rfl
  | cons v vars ih =>
    have hnext : address + offset + v.2 = address + v.2 + offset := by
      rw [Int64.add_assoc, Int64.add_comm offset, Int64.add_assoc]
    rw [place, place, List.map_cons, hnext, ih]
    rfl

theorem behind_eq (address : Int64) (vars : List (Bytes × Int64)) :
    behind address vars = address + (vars.map Prod.snd).sum := by
  induction vars generalizing address with
  | nil => exact (Int64.add_zero address).symm
  | cons v vars ih =>
    have hcons : behind address (v :: vars) = behind (address + v.2) vars := rfl
    rw [hcons, ih, List.map_cons, List.sum_cons, Int64.add_assoc]

end GlobalVariable

namespace SymbolTables

open Definition

theorem cells_of (ds : List Definition) :
    (of ds).cells = GlobalVariable.behind 0 (ds.filterMap global?) := by
  rw [GlobalVariable.behind_eq, Int64.zero_add, cells]
  exact congrArg List.sum (GlobalVariable.map_size_place 0 _)

/-- The tables list the names that the definitions take. -/
theorem mem_globalNames_of {ds : List Definition} {x : Bytes} :
    x ∈ (of ds).globalNames ↔ ∃ d ∈ ds, ∃ a, d.declared? = some a ∧ a.text = x := by
  have hglobals : (of ds).globals.map GlobalVariable.name = (ds.filterMap global?).map Prod.fst :=
    GlobalVariable.map_name_place 0 _
  rw [globalNames, hglobals]
  simp only [of, List.mem_append, List.mem_map, List.mem_filterMap]
  constructor
  · rintro (((⟨_, ⟨d, hd, h⟩, rfl⟩ | ⟨_, ⟨d, hd, h⟩, rfl⟩) | ⟨_, ⟨d, hd, h⟩, rfl⟩) |
      ⟨_, ⟨d, hd, h⟩, rfl⟩)
    all_goals
      cases d <;> cases h
      exact ⟨_, hd, _, rfl, rfl⟩
  · rintro ⟨d, hd, a, ha, rfl⟩
    cases d with
    | library => cases ha
    | constant => cases ha; exact .inl (.inl (.inl ⟨_, ⟨_, hd, rfl⟩, rfl⟩))
    | «global» => cases ha; exact .inl (.inl (.inr ⟨_, ⟨_, hd, rfl⟩, rfl⟩))
    | word => cases ha; exact .inl (.inr ⟨_, ⟨_, hd, rfl⟩, rfl⟩)
    | external => cases ha; exact .inr ⟨_, ⟨_, hd, rfl⟩, rfl⟩

theorem mem_keys_iff {ds : List Definition} {k : Bytes} :
    k ∈ keys ds ↔ ∃ x ∈ (of ds).globalNames, x.toUpper = k := by
  simp only [keys, List.mem_map, List.mem_filterMap, mem_globalNames_of]
  constructor
  · rintro ⟨a, ⟨d, hd, ha⟩, rfl⟩
    exact ⟨a.text, ⟨d, hd, a, ha, rfl⟩, rfl⟩
  · rintro ⟨_, ⟨d, hd, a, ha, rfl⟩, rfl⟩
    exact ⟨a, ⟨d, hd, ha⟩, rfl⟩

/-- **The tables of definitions put together** are the tables put together. -/
theorem of_append {ds es : List Definition} (hes : ∀ name ∈ es.filterMap library?, name ≠ []) :
    of (ds ++ es) = (of ds).append (of es) := by
  have hlibrary : ((ds ++ es).filterMap library?).getLastD [] =
      if ((es.filterMap library?).getLastD []).isEmpty then (ds.filterMap library?).getLastD []
      else (es.filterMap library?).getLastD [] := by
    rw [List.filterMap_append]
    rcases List.eq_nil_or_concat' (es.filterMap library?) with hnone | ⟨names, name, hlast⟩
    · rw [hnone]
      simp
    · have hname : name ≠ [] := hes name (by rw [hlast]; simp)
      rw [hlast, ← List.append_assoc]
      simp [hname]
  have hglobals : GlobalVariable.place 0 ((ds ++ es).filterMap global?) =
      (of ds).globals ++ (of es).globals.map (GlobalVariable.shift (of ds).cells) := by
    rw [List.filterMap_append, GlobalVariable.place_append, cells_of]
    exact congrArg _ ((congrArg (GlobalVariable.place · _) (Int64.zero_add _).symm).trans
      (GlobalVariable.place_add 0 _ _))
  simp only [of, append] at hglobals ⊢
  rw [hlibrary, hglobals]
  simp only [List.filterMap_append, List.flatMap_append]
  rfl

end SymbolTables

namespace Analysis

open Definition

/-! ### Runs -/

theorem run_of_splits {s : Analysis} {atoms after : List Atom} {d : Definition}
    (h : Splits atoms after d) :
    s.run atoms = match s.add d with
      | .error e => .error e
      | .ok next => next.run after := by
  obtain ⟨written, hatoms, hwritten, hlocals⟩ := h
  obtain ⟨a, rest, hcons⟩ := List.exists_cons_of_ne_nil hwritten.ne_nil
  have hatoms' : atoms = a :: (rest ++ after) := by rw [hatoms, hcons]; rfl
  have hread : read a (rest ++ after) = .ok (d, after) :=
    read_eq_ok_iff.2 ⟨written, hatoms' ▸ hatoms, hwritten, hlocals⟩
  rw [hatoms', run_cons, hread]
  show (s.add d >>= fun next => next.run after) = _
  cases s.add d <;> rfl

/-- **A run goes through the definitions in front** and takes up what follows. -/
theorem run_of_front {atoms : List Atom} {before after ds : List Definition}
    (h : Derives atoms (before ++ after)) (hlocals : ∀ e ∈ before, e.LocalsDistinct)
    (hnames : (keys (ds ++ before)).Nodup) :
    ∃ rest, Derives rest after ∧ (of ds).run atoms = (of (ds ++ before)).run rest := by
  induction before generalizing atoms ds with
  | nil => exact ⟨atoms, h, by rw [List.append_nil]⟩
  | cons e before ih =>
    rw [List.append_cons] at hnames ⊢
    cases h with
    | @cons written rest _ _ hwritten hrest =>
      rw [List.forall_mem_cons] at hlocals
      have hfront : (keys (ds ++ [e])).Nodup := by
        rw [keys_append] at hnames
        exact hnames.of_append_left
      have hds : (keys ds).Nodup := by
        rw [keys_append] at hfront
        exact hfront.of_append_left
      have hadd : (of ds).add e = .ok (of (ds ++ [e])) := (add_of_eq_ok_iff hds).2 ⟨hfront, rfl⟩
      rw [run_of_splits ⟨written, rfl, hwritten, hlocals.1⟩, hadd]
      exact ih hrest hlocals.2 hnames

/-- **A run stops at the first name that is taken.** -/
theorem run_of_taken {atoms : List Atom} {before after ds : List Definition} {d : Definition}
    {name : Atom} (h : Derives atoms (before ++ d :: after))
    (hlocals : ∀ e ∈ before ++ d :: after, e.LocalsDistinct)
    (hnames : (keys (ds ++ before)).Nodup) (hname : d.declared? = some name)
    (htaken : key name ∈ keys (ds ++ before)) :
    (of ds).run atoms = .error (duplicate name) := by
  rw [List.forall_mem_append, List.forall_mem_cons] at hlocals
  obtain ⟨rest, hrest, hrun⟩ := run_of_front h hlocals.1 hnames
  cases hrest with
  | @cons written after' _ _ hwritten _ =>
    have hadd : (of (ds ++ before)).add d = .error (duplicate name) := by
      have hmem : key name ∈ (of (ds ++ before)).names := List.mem_reverse.2 htaken
      simp only [add_eq, hname, hmem, ↓reduceIte]
    rw [hrun, run_of_splits ⟨written, rfl, hwritten, hlocals.2.1⟩, hadd]

/-- What an accepted program consists of. -/
theorem exists_derives_of_analyze {atoms : List Atom} {t : SymbolTables}
    (h : (analyze false atoms).result = .ok t) :
    ∃ ds, Derives atoms ds ∧ (∀ d ∈ ds, d.LocalsDistinct) ∧ (keys ds).Nodup ∧ t = .of ds := by
  rw [analyze, if_neg (by simp)] at h
  cases hrun : (of []).run atoms with
  | error e =>
    have hrun' : Analysis.run {} atoms = .error e := hrun
    rw [hrun'] at h
    cases h
  | ok s =>
    have hrun' : Analysis.run {} atoms = .ok s := hrun
    have hnil : (keys []).Nodup := List.nodup_nil
    obtain ⟨ds, hds, hlocals, hnames, rfl⟩ := derives_of_run hnil hrun
    rw [hrun'] at h
    exact ⟨ds, hds, hlocals, hnames, (Except.ok.inj h).symm⟩

theorem analyze_of_run_ok {atoms : List Atom} {s : Analysis} (h : (of []).run atoms = .ok s) :
    (analyze false atoms).result = .ok s.tables := by
  have h' : Analysis.run {} atoms = .ok s := h
  rw [analyze, if_neg (by simp), h']

theorem analyze_of_run_error {atoms : List Atom} {e : SourceError}
    (h : (of []).run atoms = .error e) : (analyze false atoms).result = .error (.source e) := by
  have h' : Analysis.run {} atoms = .error e := h
  rw [analyze, if_neg (by simp), h']

end Analysis

open Definition in
/-- **Analysis is compositional.** A program behind another one, both accepted, is accepted if they
share no name, and its tables are put together from theirs. If they share a name, the analysis fails
at the first definition of the second program whose name is taken. -/
theorem analyze_append (atoms more : List Atom) (t u : SymbolTables)
    (ht : (analyze false atoms).result = .ok t) (hu : (analyze false more).result = .ok u)
    (hmore : ∀ a, more[1]? = some a → a.isWord "ALLOT" = false) :
    ((∀ x ∈ t.globalNames, ∀ y ∈ u.globalNames, x.toUpper ≠ y.toUpper) →
      (analyze false (atoms ++ more)).result = .ok (t.append u)) ∧
    ∀ x ∈ t.globalNames, ∀ y ∈ u.globalNames, x.toUpper = y.toUpper →
      ∃ before d after name, Derives more (before ++ d :: after) ∧
        u = .of (before ++ d :: after) ∧ d.declared? = some name ∧
        (∃ z ∈ t.globalNames, z.toUpper = name.text.toUpper) ∧
        (∀ k ∈ keys before, ∀ z ∈ t.globalNames, z.toUpper ≠ k) ∧
        (analyze false (atoms ++ more)).result = .error (.source
          { fault := .duplicateDefinition, file := name.file, line := name.line,
            target := name.text }) := by
  obtain ⟨ds, hds, hlocals, hnames, rfl⟩ := Analysis.exists_derives_of_analyze ht
  obtain ⟨es, hes, hlocals', hnames', rfl⟩ := Analysis.exists_derives_of_analyze hu
  have hderives := hds.append hes hmore
  have hall : ∀ d ∈ ds ++ es, d.LocalsDistinct := List.forall_mem_append.2 ⟨hlocals, hlocals'⟩
  constructor
  · intro hdisjoint
    have hnodup : (keys ([] ++ (ds ++ es))).Nodup := by
      rw [List.nil_append, keys_append, List.nodup_append]
      refine ⟨hnames, hnames', fun k hk l hl heq => ?_⟩
      obtain ⟨x, hx, rfl⟩ := SymbolTables.mem_keys_iff.1 hk
      obtain ⟨y, hy, rfl⟩ := SymbolTables.mem_keys_iff.1 hl
      exact hdisjoint x hx y hy heq
    rw [← SymbolTables.of_append hes.library_ne_nil]
    exact Analysis.analyze_of_run_ok (Analysis.run_of_derives hderives hall hnodup)
  · intro x hx y hy hxy
    obtain ⟨before, d, after, name, rfl, hname, hkey, hfree⟩ :=
      exists_first_clash (SymbolTables.mem_keys_iff.2 ⟨x, hx, rfl⟩)
        (SymbolTables.mem_keys_iff.2 ⟨y, hy, hxy.symm⟩)
    refine ⟨before, d, after, name, hes, rfl, hname, SymbolTables.mem_keys_iff.1 hkey, ?_, ?_⟩
    · intro k hk z hz hzk
      exact hfree k hk (SymbolTables.mem_keys_iff.2 ⟨z, hz, hzk⟩)
    · rw [← List.append_assoc] at hderives hall
      have hnodup : (keys ([] ++ (ds ++ before))).Nodup := by
        rw [keys_append] at hnames'
        rw [List.nil_append, keys_append, List.nodup_append]
        exact ⟨hnames, hnames'.of_append_left, fun k hk l hl heq => hfree l hl (heq ▸ hk)⟩
      have htaken : key name ∈ keys ([] ++ (ds ++ before)) := by
        rw [List.nil_append, keys_append]
        exact List.mem_append_left _ hkey
      exact Analysis.analyze_of_run_error
        (Analysis.run_of_taken hderives hall hnodup hname htaken)

namespace TwoPrograms

/-- The words of one line. -/
def words (texts : List Bytes) : List Atom :=
  texts.map fun text => ⟨text, .word, "m", 1⟩

/-- A program that ends with a variable, so that what follows could give it a size. -/
def first : List Atom :=
  words ["LIBRARY", "lib", "VARIABLE", "v", "4", "ALLOT", "VARIABLE", "w"]

def second : List Atom :=
  words [":", "f", "LOCAL", "x", "w", ";", "VARIABLE", "u", "7", "CONSTANT", "c"]

/-- A program whose second definition takes the name of a variable of the first one. -/
def clashing : List Atom :=
  words ["7", "CONSTANT", "c", ":", "V", ";", "VARIABLE", "W"]

def firstTables : SymbolTables where
  library := "lib"
  globals := [⟨"v", 5, 0⟩, ⟨"w", 1, 5⟩]

def secondTables : SymbolTables where
  constants := [⟨"c", .number 7⟩]
  globals := [⟨"u", 1, 0⟩]
  locals := [⟨"x", "f", 0⟩]
  words := [⟨"f", words ["w"]⟩]

def clashingTables : SymbolTables where
  constants := [⟨"c", .number 7⟩]
  globals := [⟨"W", 1, 0⟩]
  words := [⟨"V", []⟩]

theorem analyze_first : (analyze false first).result = .ok firstTables := by decide +kernel

theorem analyze_second : (analyze false second).result = .ok secondTables := by decide +kernel

theorem analyze_clashing : (analyze false clashing).result = .ok clashingTables := by
  decide +kernel

end TwoPrograms

open TwoPrograms in
theorem analyze_append_twoPrograms :
    (analyze false (first ++ second)).result = .ok
      { library := "lib"
        constants := [⟨"c", .number 7⟩]
        globals := [⟨"v", 5, 0⟩, ⟨"w", 1, 5⟩, ⟨"u", 1, 6⟩]
        locals := [⟨"x", "f", 0⟩]
        words := [⟨"f", words ["w"]⟩] } ∧
    ∃ name : Atom, (∃ z ∈ firstTables.globalNames, z.toUpper = name.text.toUpper) ∧
      (analyze false (first ++ clashing)).result = .error (.source
        { fault := .duplicateDefinition, file := name.file, line := name.line,
          target := name.text }) := by
  constructor
  · have h := (analyze_append first second _ _ analyze_first analyze_second (by decide +kernel)).1
      (by decide +kernel)
    rw [h]
    decide +kernel
  · obtain ⟨_, _, _, name, _, _, _, htaken, _, h⟩ :=
      (analyze_append first clashing _ _ analyze_first analyze_clashing (by decide +kernel)).2
        "v" (by decide +kernel) "V" (by decide +kernel) (by decide +kernel)
    exact ⟨name, htaken, h⟩

end ForthFrontend
