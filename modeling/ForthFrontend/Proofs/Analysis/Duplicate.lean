import ForthFrontend.Proofs.Analysis.Append
import ForthFrontend.Proofs.Text.Case

/-!
# Names given twice

Two names compete if they are given one after the other in one space of names, by two definitions or
by two variables of one word, and all names are distinct as soon as either of them is left out. The
second one is refused exactly if the two have the same upper-case form. Keywords are compared by
folding instead. So some names are refused that would be different keywords, and some are accepted
that would be one keyword; this happens for confusable names and for no others.

## Main definitions

* `Definition.Rivals`: two names that compete in a program.

## Main results

* `Definition.Rivals.run_of_key_eq`: where a run stops if the names are the same.
* `Definition.Rivals.run_of_key_ne`: a run does not stop if they are not.
* `analyze_of_rivals`: what an analysis does with competing names.
-/

namespace ForthFrontend

namespace Definition

/-! ### Variables of a word -/

/-- A word is refused at the first of its variables whose name is taken. -/
theorem Items.readBody_of_taken {items moreLocals moreBody : List Atom}
    (h : Items items moreLocals moreBody) (start : Atom) {locals body rest front back : List Atom}
    {name : Atom} (hsplit : moreLocals = front ++ name :: back)
    (hnodup : ((locals.reverse ++ front).map key).Nodup)
    (htaken : key name ∈ (locals.reverse ++ front).map key) :
    readBody start locals body (items ++ rest) = .error (duplicate name) := by
  induction h generalizing locals body front with
  | nil => simp at hsplit
  | @localVariable keyword name' items moreLocals moreBody hkeyword hname _ ih =>
    rw [List.cons_append, List.cons_append, readBody_localVariable hkeyword hname]
    cases front with
    | nil =>
      obtain ⟨rfl, -⟩ := List.cons.inj hsplit
      rw [if_pos (by simpa using htaken)]
    | cons first front =>
      obtain ⟨rfl, hsplit'⟩ := List.cons.inj hsplit
      rw [if_neg (key_not_mem_of_nodup hnodup)]
      exact ih hsplit' (by simpa using hnodup) (by simpa using htaken)
  | atom hcolon hsemicolon hlocal _ ih =>
    rw [List.cons_append, readBody_atom hcolon hsemicolon hlocal]
    exact ih hsplit hnodup htaken

theorem read_of_taken {a name l : Atom} {rest written after front back body : List Atom}
    (h : Written written after (.word name (front ++ l :: back) body))
    (hatoms : a :: rest = written ++ after) (hnodup : (front.map key).Nodup)
    (htaken : key l ∈ front.map key) : read a rest = .error (duplicate l) := by
  generalize hlocals : front ++ l :: back = locals at h
  cases h with
  | @word start _ stop items _ _ _ hstart hname hitems hstop =>
    obtain ⟨rfl, rfl⟩ : a = start ∧ rest = name :: (items ++ stop :: after) := by
      simpa using hatoms
    have hbody : readBody a [] [] (items ++ stop :: after) = .error (duplicate l) :=
      hitems.readBody_of_taken a hlocals.symm hnodup htaken
    have hnameAt : nameAt (a :: name :: (items ++ stop :: after)) 1 a = .ok name :=
      nameAt_eq_ok_iff.2 ⟨rfl, hname⟩
    have hdrop : (a :: name :: (items ++ stop :: after)).drop 2 = items ++ stop :: after := rfl
    simp only [read, hstart, ↓reduceIte, readWord, hnameAt, hdrop]
    show (readBody a [] [] (items ++ stop :: after) >>= _) = _
    rw [hbody]
    rfl

/-! ### Competing names -/

/-- The names `x` and `y` are given one after the other in one space of names; all names would be
distinct without either of them. -/
inductive Rivals (atoms : List Atom) (x y : Atom) : Prop
  | ofDefinitions {before between after : List Definition} {d e : Definition}
    (h : Derives atoms (before ++ d :: (between ++ e :: after)))
    (hlocals : ∀ c ∈ before ++ d :: (between ++ e :: after), c.LocalsDistinct)
    (hx : d.declared? = some x) (hy : e.declared? = some y)
    (hfirst : (keys (before ++ d :: (between ++ after))).Nodup)
    (hsecond : (keys (before ++ (between ++ e :: after))).Nodup)
  | ofLocals {before after : List Definition} {name : Atom} {front between back body : List Atom}
    (h : Derives atoms
      (before ++ .word name (front ++ x :: (between ++ y :: back)) body :: after))
    (hlocals : ∀ c ∈ before ++ after, c.LocalsDistinct)
    (hnames : (keys
      (before ++ .word name (front ++ x :: (between ++ y :: back)) body :: after)).Nodup)
    (hfirst : ((front ++ x :: (between ++ back)).map key).Nodup)
    (hsecond : ((front ++ (between ++ y :: back)).map key).Nodup)

/-- Two entries of a list, all of whose entries are distinct without either of them. -/
theorem nodup_iff_ne {front between back : List Bytes} {k l : Bytes}
    (hfirst : (front ++ k :: (between ++ back)).Nodup)
    (hsecond : (front ++ (between ++ l :: back)).Nodup) :
    (front ++ k :: (between ++ l :: back)).Nodup ↔ k ≠ l := by
  rw [List.nodup_middle, List.nodup_cons] at hfirst ⊢
  simp only [List.mem_append, List.mem_cons] at hfirst ⊢
  tauto

theorem keys_cons {d : Definition} {name : Atom} (h : d.declared? = some name)
    (ds : List Definition) : keys (d :: ds) = key name :: keys ds := by
  rw [keys, List.filterMap_cons, h]
  rfl

variable {atoms : List Atom} {x y : Atom}

theorem Rivals.run_of_key_ne (h : Rivals atoms x y) (hne : key x ≠ key y) :
    ∃ s, (Analysis.of []).run atoms = .ok s := by
  cases h with
  | ofDefinitions h hlocals hx hy hfirst hsecond =>
    simp only [keys_append, keys_cons hx, keys_cons hy] at hfirst hsecond
    refine ⟨_, Analysis.run_of_derives h hlocals ?_⟩
    simp only [List.nil_append, keys_append, keys_cons hx, keys_cons hy]
    exact (nodup_iff_ne hfirst hsecond).2 hne
  | ofLocals h hlocals hnames hfirst hsecond =>
    refine ⟨_, Analysis.run_of_derives h ?_ hnames⟩
    rw [List.forall_mem_append] at hlocals
    refine List.forall_mem_append.2 ⟨hlocals.1, List.forall_mem_cons.2 ⟨?_, hlocals.2⟩⟩
    simp only [List.map_append, List.map_cons] at hfirst hsecond
    simp only [LocalsDistinct, locals, List.map_append, List.map_cons]
    exact (nodup_iff_ne hfirst hsecond).2 hne

theorem Rivals.run_of_key_eq (h : Rivals atoms x y) (heq : key x = key y) :
    (Analysis.of []).run atoms = .error (duplicate y) := by
  cases h with
  | @ofDefinitions before between after d e h hlocals hx hy hfirst hsecond =>
    rw [← List.cons_append, ← List.append_assoc] at h hlocals hfirst
    refine Analysis.run_of_taken h hlocals ?_ hy ?_
    · rw [keys_append] at hfirst
      exact hfirst.of_append_left
    · rw [List.nil_append, keys_append, keys_cons hx, heq]
      simp
  | @ofLocals before after name front between back body h hlocals hnames hfirst hsecond =>
    have hnames' : (keys ([] ++ before)).Nodup := by
      rw [keys_append] at hnames
      exact hnames.of_append_left
    obtain ⟨rest, hrest, hrun⟩ :=
      Analysis.run_of_front h (List.forall_mem_append.1 hlocals).1 hnames'
    rw [← List.cons_append, ← List.append_assoc] at hrest hfirst
    cases hrest with
    | @cons written after' _ _ hwritten _ =>
      obtain ⟨a, tail, rfl⟩ := List.exists_cons_of_ne_nil hwritten.ne_nil
      have hread : read a (tail ++ after') = .error (duplicate y) := by
        refine read_of_taken hwritten rfl ?_ ?_
        · rw [List.map_append] at hfirst
          exact hfirst.of_append_left
        · rw [List.map_append, List.map_cons, heq]
          simp
      rw [hrun, List.cons_append, Analysis.run_cons, hread]
      rfl

end Definition

open Definition in
/-- **The second of two competing names** is refused exactly if the two have the same upper-case
form; otherwise the program is accepted. This comes to comparing names as keywords are compared
exactly if the two are not confusable. -/
theorem analyze_of_rivals {atoms : List Atom} {x y : Atom} (h : Rivals atoms x y) :
    ((analyze false atoms).result = .error (.source (duplicate y)) ↔
      x.text.toUpper = y.text.toUpper) ∧
    (x.text.toUpper ≠ y.text.toUpper → ∃ t, (analyze false atoms).result = .ok t) ∧
    (((analyze false atoms).result = .error (.source (duplicate y)) ↔
        Bytes.equalFold x.text y.text = true) ↔ ¬ Bytes.Confusable x.text y.text) := by
  have haccepted : x.text.toUpper ≠ y.text.toUpper → ∃ t, (analyze false atoms).result = .ok t := by
    intro hne
    obtain ⟨s, hs⟩ := h.run_of_key_ne hne
    exact ⟨s.tables, Analysis.analyze_of_run_ok hs⟩
  have hrefused : (analyze false atoms).result = .error (.source (duplicate y)) ↔
      x.text.toUpper = y.text.toUpper := by
    constructor
    · intro herror
      by_contra hne
      obtain ⟨t, ht⟩ := haccepted hne
      rw [ht] at herror
      cases herror
    · intro heq
      exact Analysis.analyze_of_run_error (h.run_of_key_eq heq)
  refine ⟨hrefused, haccepted, ?_⟩
  rw [hrefused]
  exact Bytes.toUpper_eq_iff_equalFold_iff

namespace LookAlikes

open Definition

/-- A word on the first line of a file. -/
def word (text : Bytes) : Atom :=
  ⟨text, .word, "m", 1⟩

/-- The kelvin sign, which folds to `k` and is its own upper-case form. -/
def kelvin : Atom := word [0xE2, 0x84, 0xAA]

/-- The dotless i, which is its own folding and has the upper-case form `I`. -/
def dotless : Atom := word [0xC4, 0xB1]

/-- Two variables whose names would be one keyword. -/
def twoVariables : List Atom :=
  [word "VARIABLE", word "k", word "VARIABLE", kelvin]

/-- A word with two variables whose names would be different keywords. -/
def twoLocals : List Atom :=
  [word ":", word "w", word "LOCAL", word "I", word "LOCAL", dotless, word ";"]

theorem rivals_twoVariables : Rivals twoVariables (word "k") kelvin := by
  have hfirst : Written [word "VARIABLE", word "k"] [word "VARIABLE", kelvin]
      (.global (word "k") 1) := by
    refine .cell (by decide +kernel) (isName_iff.1 (by decide +kernel)) ?_
    rintro a ⟨⟩
    decide +kernel
  have hsecond : Written [word "VARIABLE", kelvin] [] (.global kelvin 1) := by
    refine .cell (by decide +kernel) (isName_iff.1 (by decide +kernel)) ?_
    rintro a ⟨⟩
  have h : Derives twoVariables ([] ++ .global (word "k") 1 :: ([] ++ .global kelvin 1 :: [])) :=
    .cons hfirst (.cons hsecond .nil)
  exact .ofDefinitions h (by simp [LocalsDistinct, locals]) rfl rfl (by decide +kernel)
    (by decide +kernel)

theorem rivals_twoLocals : Rivals twoLocals (word "I") dotless := by
  have hitems : Items [word "LOCAL", word "I", word "LOCAL", dotless] [word "I", dotless] [] :=
    .localVariable (by decide +kernel) (isName_iff.1 (by decide +kernel))
      (.localVariable (by decide +kernel) (isName_iff.1 (by decide +kernel)) .nil)
  have hwritten : Written twoLocals [] (.word (word "w") [word "I", dotless] []) :=
    .word (by decide +kernel) (isName_iff.1 (by decide +kernel)) hitems (by decide +kernel)
  have h : Derives twoLocals
      ([] ++ .word (word "w") ([] ++ word "I" :: ([] ++ dotless :: [])) [] :: []) :=
    .cons hwritten .nil
  exact .ofLocals h (by simp) (by decide +kernel) (by decide +kernel) (by decide +kernel)

end LookAlikes

open LookAlikes Definition in
theorem analyze_of_rivals_lookAlikes :
    (∃ t, (analyze false twoVariables).result = .ok t) ∧
    Bytes.equalFold (word "k").text kelvin.text = true ∧
    (analyze false twoLocals).result = .error (.source (duplicate dotless)) ∧
    Bytes.equalFold (word "I").text dotless.text = false :=
  ⟨(analyze_of_rivals rivals_twoVariables).2.1 (by decide +kernel), by decide +kernel,
    (analyze_of_rivals rivals_twoLocals).1.2 (by decide +kernel), by decide +kernel⟩

end ForthFrontend
