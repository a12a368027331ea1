import ForthFrontend.Definition
import ForthFrontend.Proofs.Text.Utf8
import Mathlib.Data.List.Nodup

/-!
# The grammar of definitions

`Definition.Written` lists the forms a definition can be written in, and `Definition.Derives` puts
definitions one behind another. Neither refers to the functions that read definitions. A variable is
the only form that depends on what follows it: `VARIABLE name` stands for itself only if no `ALLOT`
comes two atoms later.

## Main results

* `Definition.read_eq_ok_iff`: reading accepts the written forms with distinct locals, and gives the
  definition that was written.
* `Definition.Derives.unique`: a sequence of atoms is derived in one way.
-/

namespace ForthFrontend

/-! ### Keywords and numerals -/

theorem Bytes.foldKey_cons {b : UInt8} (hb : b < 0x80) (rest : Bytes) :
    Bytes.foldKey (b :: rest) = Case.fold b.toNat :: Bytes.foldKey rest := by
  have hsplit : Utf8.split b rest = (.scalar b.toNat [b], rest) := by
    rw [Utf8.split.eq_def, if_pos hb]
  rw [Bytes.foldKey, Utf8.scalars, Utf8.units_cons, hsplit]
  rfl

/-- An atom is one word at most. -/
theorem Atom.isWord_eq_false {a : Atom} {s t : Bytes} (h : a.isWord s = true)
    (hne : s.foldKey ≠ t.foldKey) : a.isWord t = false := by
  have hs : a.text.foldKey = s.foldKey := by
    simpa [Atom.isWord, Bytes.equalFold] using (Bool.and_eq_true_iff.1 h).2
  rw [Atom.isWord, Bytes.equalFold, hs, Bool.and_eq_false_iff]
  exact .inr (by simpa using hne)

theorem Atom.isWord_absent {s : Bytes} (hs : s.foldKey ≠ []) : Atom.absent.isWord s = false := by
  have hnil : Bytes.foldKey [] = [] := by rw [Bytes.foldKey, Utf8.scalars, Utf8.units_nil]; rfl
  rw [Atom.isWord, Bytes.equalFold, Atom.absent, hnil, Bool.and_eq_false_iff]
  exact .inr (by simpa using hs.symm)

namespace Decimal

/-- The bytes a decimal numeral can begin with. -/
def beginsNumeral (b : UInt8) : Bool :=
  b == 0x2B || b == 0x2D || Bytes.isDigit b

theorem isDigit_of_digitValue? {b : UInt8} {v : Nat} (h : digitValue? b = some v) (hv : v < 10) :
    Bytes.isDigit b = true := by
  unfold digitValue? at h
  split at h
  · assumption
  · -- letters stand for values from ten on
    simp only [Bool.and_eq_true, decide_eq_true_eq, UInt8.le_iff_toNat_le,
      UInt8.reduceToNat] at h
    split at h
    · obtain rfl := Option.some.inj h
      omega
    · split at h
      · obtain rfl := Option.some.inj h
        omega
      · cases h

theorem foldl_addDigit_none (base : Nat) (s : Bytes) : s.foldl (addDigit base) none = none := by
  induction s with
  | nil => rfl
  | cons b s ih => exact ih

theorem beginsNumeral_of_readInt64? {s : Bytes} {n : Int64} (h : readInt64? s = some n) :
    ∃ b rest, s = b :: rest ∧ beginsNumeral b = true := by
  obtain ⟨v, hv, -⟩ := Option.map_eq_some_iff.1 h
  obtain ⟨m, hm, -⟩ := Option.bind_eq_some_iff.1 hv
  by_cases hsign : ∃ b rest, s = b :: rest ∧ (b == 0x2B || b == 0x2D) = true
  · obtain ⟨b, rest, rfl, hb⟩ := hsign
    exact ⟨b, rest, rfl, by rw [beginsNumeral, hb]; rfl⟩
  · cases s with
    | nil => cases hm
    | cons b rest =>
      refine ⟨b, rest, rfl, ?_⟩
      have hns : takeSign (b :: rest) = (false, b :: rest) := by
        rw [takeSign]
        · rintro rest' h
          exact hsign ⟨b, rest, rfl, by rw [(List.cons.inj h).1]; rfl⟩
        · rintro rest' h
          exact hsign ⟨b, rest, rfl, by rw [(List.cons.inj h).1]; rfl⟩
      rw [hns] at hm
      -- without a sign, the first byte has to be a digit for any value to come out
      have hdigit : addDigit 10 (some 0) b ≠ none := by
        intro hnone
        rw [digitsValue?, if_neg (by simp), List.foldl_cons, hnone, foldl_addDigit_none] at hm
        cases hm
      obtain ⟨w, hw⟩ := Option.ne_none_iff_exists'.1 hdigit
      obtain ⟨d, hd, hw⟩ := Option.bind_eq_some_iff.1 hw
      have hlt : d < 10 := by
        split at hw
        · assumption
        · cases hw
      rw [beginsNumeral, isDigit_of_digitValue? hd hlt, Bool.or_true]

/-- A numeral is no keyword: it begins with a sign or a digit, which folding does not change. -/
theorem foldKey_ne_of_readInt64? {s keyword : Bytes} {n : Int64} (h : readInt64? s = some n)
    (hkeyword : keyword.foldKey.head?.all (0x3A ≤ ·) = true) : s.foldKey ≠ keyword.foldKey := by
  obtain ⟨b, rest, rfl, hb⟩ := beginsNumeral_of_readInt64? h
  have hlt : b.toNat < 0x3A := by
    simp only [beginsNumeral, Bytes.isDigit, Bool.or_eq_true, Bool.and_eq_true, beq_iff_eq,
      decide_eq_true_eq, UInt8.le_iff_toNat_le, ← UInt8.toNat_inj, UInt8.reduceToNat] at hb
    omega
  have hfold : Case.fold b.toNat = b.toNat := by
    rw [Case.fold, if_pos (by omega), if_neg (by omega)]
  have hascii : b < 0x80 := by
    rw [UInt8.lt_iff_toNat_lt]
    exact Nat.lt_trans hlt (by decide)
  intro heq
  rw [Bytes.foldKey_cons hascii, hfold] at heq
  rw [← heq] at hkeyword
  have hle : 0x3A ≤ b.toNat := by simpa using hkeyword
  omega

end Decimal

namespace Definition

/-! ### The forms -/

/-- Names are bare words other than `:` and `;`. -/
def IsName (a : Atom) : Prop :=
  a.kind = .word ∧ a.text ≠ [] ∧ a.text ≠ colon ∧ a.text ≠ semicolon

theorem isName_iff {a : Atom} : isName a = true ↔ IsName a := by
  simp [isName, IsName, and_assoc]

/-- What stands between the name of a word and its end, with the variables it declares and the atoms
of its body. -/
inductive Items : List Atom → List Atom → List Atom → Prop where
  | nil : Items [] [] []
  | localVariable {keyword name : Atom} {items locals body : List Atom}
      (hkeyword : keyword.isWord "LOCAL" = true) (hname : IsName name)
      (hitems : Items items locals body) :
      Items (keyword :: name :: items) (name :: locals) body
  | atom {a : Atom} {items locals body : List Atom} (hcolon : a.isWord colon = false)
      (hsemicolon : a.isWord semicolon = false) (hlocal : a.isWord "LOCAL" = false)
      (hitems : Items items locals body) : Items (a :: items) locals (a :: body)

/-- The value that an atom in front of `CONSTANT` stands for. -/
inductive Denotes : Atom → ConstantValue → Prop where
  | text {a : Atom} (hkind : a.kind = .dumpString) :
      Denotes a (.text (Bytes.trimBoth (· == Bytes.quote) a.text))
  | number {a : Atom} {n : Int64} (hkind : a.kind = .word)
      (hn : Decimal.readInt64? a.text = some n) : Denotes a (.number n)

/-- The definition can be written as `written`, provided that `after` is what follows. -/
inductive Written : List Atom → List Atom → Definition → Prop where
  | word {start name stop : Atom} {items locals body after : List Atom}
      (hstart : start.isWord colon = true) (hname : IsName name) (hitems : Items items locals body)
      (hstop : stop.isWord semicolon = true) :
      Written (start :: name :: items ++ [stop]) after (.word name locals body)
  | cell {keyword name : Atom} {after : List Atom} (hkeyword : keyword.isWord "VARIABLE" = true)
      (hname : IsName name) (hafter : ∀ a, after[1]? = some a → a.isWord "ALLOT" = false) :
      Written [keyword, name] after (.global name 1)
  | cells {keyword name count allot : Atom} {n : Int64} {after : List Atom}
      (hkeyword : keyword.isWord "VARIABLE" = true) (hname : IsName name)
      (hcount : Decimal.readInt64? count.text = some n) (hn : 0 ≤ n)
      (hallot : allot.isWord "ALLOT" = true) :
      Written [keyword, name, count, allot] after (.global name (1 + n))
  | library {keyword name : Atom} {after : List Atom} (hkeyword : keyword.isWord "LIBRARY" = true)
      (hname : IsName name) : Written [keyword, name] after (.library name)
  | external {keyword name library className method : Atom} {after : List Atom}
      (hkeyword : keyword.isWord "EXTERN" = true) (hname : IsName name) (hlibrary : IsName library)
      (hclass : IsName className) (hmethod : IsName method) :
      Written [keyword, name, library, className, method] after
        (.external name library className method)
  | constant {value keyword name : Atom} {v : ConstantValue} {after : List Atom}
      (hvalue : Denotes value v) (hkeyword : keyword.isWord "CONSTANT" = true)
      (hname : IsName name) : Written [value, keyword, name] after (.constant name v)

/-- The atoms are the definitions, one behind another. -/
inductive Derives : List Atom → List Definition → Prop where
  | nil : Derives [] []
  | cons {written after : List Atom} {d : Definition} {ds : List Definition}
      (hd : Written written after d) (hds : Derives after ds) : Derives (written ++ after) (d :: ds)

/-- What names are compared by. -/
def key (a : Atom) : Bytes :=
  a.text.toUpper

/-- The variables a definition declares for itself. -/
def locals : Definition → List Atom
  | .word _ locals _ => locals
  | _ => []

/-- No two variables of the word have the same name. -/
def LocalsDistinct (d : Definition) : Prop :=
  (d.locals.map key).Nodup

/-! ### Reading the parts -/

theorem nameAt_eq_ok_iff {atoms : List Atom} {offset : Nat} {owner name : Atom} :
    nameAt atoms offset owner = .ok name ↔ atoms[offset]? = some name ∧ IsName name := by
  have hget : atoms.getD offset Atom.absent = atoms[offset]?.getD Atom.absent := by simp
  rw [nameAt, hget]
  cases hatom : atoms[offset]? with
  | none => simp [Atom.absent]
  | some a =>
    by_cases hempty : a.text = []
    · -- an atom without text is no name, so the two complaints need not be told apart
      have hne : ∀ name, some a = some name → ¬ IsName name := by
        rintro name h hname
        exact hname.2.1 (Option.some.inj h ▸ hempty)
      simp only [Option.getD_some, hempty, List.isEmpty_nil, ↓reduceIte, reduceCtorEq, false_iff,
        not_and]
      exact hne name
    · have hempty' : a.text.isEmpty = false := by simpa using hempty
      cases hname : isName a with
      | true =>
        simp only [Option.getD_some, hempty', hname, Bool.false_eq_true, ↓reduceIte,
          Except.ok.injEq, Option.some.injEq, ← isName_iff]
        constructor
        · rintro rfl
          exact ⟨rfl, hname⟩
        · exact fun h => h.1
      | false =>
        simp only [Option.getD_some, hempty', hname, Bool.false_eq_true, ↓reduceIte, reduceCtorEq,
          Option.some.injEq, ← isName_iff, false_iff, not_and]
        rintro rfl
        simp [hname]

theorem any_sameName_iff {locals : List Atom} {name : Atom} :
    (locals.any fun l => sameName l.text name.text) = true ↔ key name ∈ locals.map key := by
  simp only [List.any_eq_true, List.mem_map, sameName, key, beq_iff_eq]

/-- What is read up to the end of a word is a run of items. -/
theorem readBody_sound {start : Atom} {locals body atoms locals' body' rest : List Atom}
    (h : readBody start locals body atoms = .ok ((locals', body'), rest))
    (hlocals : (locals.map key).Nodup) :
    ∃ items stop moreLocals moreBody, atoms = items ++ stop :: rest ∧
      stop.isWord semicolon = true ∧ Items items moreLocals moreBody ∧
      locals' = locals.reverse ++ moreLocals ∧ body' = body.reverse ++ moreBody ∧
      (locals'.map key).Nodup := by
  fun_induction readBody start locals body atoms with
  | case1 => cases h
  | case2 locals body a rest' hstop =>
    cases h
    exact ⟨[], a, [], [], rfl, hstop, .nil, by simp, by simp,
      by simpa [List.nodup_reverse] using hlocals⟩
  | case3 => cases h
  | case4 => cases h
  | case5 => cases h
  | case6 => cases h
  | case7 locals body a _ _ hlocal name rest' hname hany ih =>
    have hname' : IsName name := isName_iff.1 (by simpa using hname)
    have hfresh : key name ∉ locals.map key := fun hmem => hany (any_sameName_iff.2 hmem)
    obtain ⟨items, stop, moreLocals, moreBody, rfl, hstop, hitems, rfl, rfl, hnodup⟩ :=
      ih h (List.nodup_cons.2 ⟨hfresh, hlocals⟩)
    exact ⟨a :: name :: items, stop, name :: moreLocals, moreBody, rfl, hstop,
      .localVariable hlocal hname' hitems, by simp, rfl, hnodup⟩
  | case8 locals body a rest' hsemicolon hcolon hlocal ih =>
    obtain ⟨items, stop, moreLocals, moreBody, rfl, hstop, hitems, rfl, rfl, hnodup⟩ :=
      ih h hlocals
    exact ⟨a :: items, stop, moreLocals, a :: moreBody, rfl, hstop,
      .atom (by simpa using hcolon) (by simpa using hsemicolon) (by simpa using hlocal) hitems,
      rfl, by simp, hnodup⟩

/-- A variable of the word is refused if its name is taken. -/
theorem readBody_localVariable {start keyword name : Atom} {locals body rest : List Atom}
    (hkeyword : keyword.isWord "LOCAL" = true) (hname : IsName name) :
    readBody start locals body (keyword :: name :: rest) =
      if key name ∈ locals.map key then .error (duplicate name)
      else readBody start (name :: locals) body rest := by
  have hsemicolon : keyword.isWord semicolon = false :=
    Atom.isWord_eq_false hkeyword (by decide +kernel)
  have hcolon : keyword.isWord colon = false :=
    Atom.isWord_eq_false hkeyword (by decide +kernel)
  rw [readBody.eq_def]
  simp only [hsemicolon, hcolon, hkeyword, isName_iff.2 hname, any_sameName_iff,
    Bool.false_eq_true, ↓reduceIte, Bool.not_true]

theorem readBody_atom {start a : Atom} {locals body rest : List Atom}
    (hcolon : a.isWord colon = false) (hsemicolon : a.isWord semicolon = false)
    (hlocal : a.isWord "LOCAL" = false) :
    readBody start locals body (a :: rest) = readBody start locals (a :: body) rest := by
  rw [readBody.eq_def]
  simp only [hsemicolon, hcolon, hlocal, Bool.false_eq_true, ↓reduceIte]

theorem key_not_mem_of_nodup {locals moreLocals : List Atom} {name : Atom}
    (h : ((locals.reverse ++ name :: moreLocals).map key).Nodup) : key name ∉ locals.map key := by
  simp only [List.map_append, List.map_cons, List.nodup_middle, List.nodup_cons, List.mem_append,
    not_or] at h
  simpa using h.1.1

/-- A run of items is read up to the end of the word. -/
theorem Items.readBody_eq {items moreLocals moreBody : List Atom}
    (h : Items items moreLocals moreBody) (start : Atom) {locals body rest : List Atom}
    {stop : Atom} (hstop : stop.isWord semicolon = true)
    (hnodup : ((locals.reverse ++ moreLocals).map key).Nodup) :
    readBody start locals body (items ++ stop :: rest) =
      .ok ((locals.reverse ++ moreLocals, body.reverse ++ moreBody), rest) := by
  induction h generalizing locals body with
  | nil =>
    rw [List.nil_append, readBody.eq_def]
    simp only [hstop, ↓reduceIte, List.append_nil]
  | @localVariable keyword name items moreLocals moreBody hkeyword hname _ ih =>
    rw [List.cons_append, List.cons_append, readBody_localVariable hkeyword hname,
      if_neg (key_not_mem_of_nodup hnodup), ih (by simpa using hnodup)]
    simp
  | @atom a items moreLocals moreBody hcolon hsemicolon hlocal _ ih =>
    rw [List.cons_append, readBody_atom hcolon hsemicolon hlocal, ih hnodup]
    simp

theorem readValue_eq_ok_iff {a : Atom} {v : ConstantValue} :
    readValue a = .ok v ↔ Denotes a v := by
  constructor
  · intro h
    unfold readValue at h
    split at h
    · next hkind =>
      obtain rfl := Except.ok.inj h
      exact .text hkind
    · next hkind =>
      split at h
      · next n hn =>
        obtain rfl := Except.ok.inj h
        exact .number hkind hn
      · cases h
    · cases h
  · intro h
    cases h with
    | text hkind => simp only [readValue, hkind]
    | number hkind hn => simp only [readValue, hkind, hn]

theorem readCount_eq_ok_iff {count : Atom} {n : Int64} :
    readCount count = .ok n ↔ Decimal.readInt64? count.text = some n ∧ 0 ≤ n := by
  unfold readCount
  cases hread : Decimal.readInt64? count.text with
  | none => simp
  | some m =>
    by_cases hneg : m < 0
    · simp only [hneg, ↓reduceIte, reduceCtorEq, Option.some.injEq, false_iff, not_and]
      rintro rfl
      exact Int64.not_le.2 hneg
    · simp only [hneg, ↓reduceIte, Except.ok.injEq, Option.some.injEq, iff_self_and]
      rintro rfl
      exact Int64.not_lt.1 hneg

/-! ### Reading a definition -/

section Read

variable {a : Atom} {rest after : List Atom} {d : Definition}

/-- The definition and what follows it make up the atoms, and its locals are distinct. -/
def Splits (atoms after : List Atom) (d : Definition) : Prop :=
  ∃ written, atoms = written ++ after ∧ Written written after d ∧ d.LocalsDistinct

theorem getElem?_one_eq_some {x : Atom} (h : (a :: rest)[1]? = some x) :
    ∃ rest', rest = x :: rest' := by
  cases rest with
  | nil => cases h
  | cons y rest' => exact ⟨rest', by rw [Option.some.inj h]⟩

theorem splits_of_readWord (ha : a.isWord colon = true)
    (h : readWord a (a :: rest) = .ok (d, after)) : Splits (a :: rest) after d := by
  obtain ⟨name, hnameAt, h⟩ := bind_eq_ok.1 h
  obtain ⟨hget, hname⟩ := nameAt_eq_ok_iff.1 hnameAt
  obtain ⟨rest, rfl⟩ := getElem?_one_eq_some hget
  obtain ⟨⟨⟨locals, body⟩, after'⟩, hbody, h⟩ := bind_eq_ok.1 h
  obtain ⟨rfl, rfl⟩ := Prod.mk.inj (pure_eq_ok.1 h)
  obtain ⟨items, stop, moreLocals, moreBody, hrest, hstop, hitems, rfl, rfl, hnodup⟩ :=
    readBody_sound hbody (by simp)
  have hrest : rest = items ++ stop :: after' := hrest
  refine ⟨a :: name :: items ++ [stop], by simp [hrest], ?_, hnodup⟩
  exact .word ha hname hitems hstop

theorem splits_of_readVariable (ha : a.isWord "VARIABLE" = true)
    (h : readVariable a (a :: rest) = .ok (d, after)) : Splits (a :: rest) after d := by
  obtain ⟨name, hnameAt, h⟩ := bind_eq_ok.1 h
  obtain ⟨hget, hname⟩ := nameAt_eq_ok_iff.1 hnameAt
  obtain ⟨rest, rfl⟩ := getElem?_one_eq_some hget
  have habsent : Atom.absent.isWord "ALLOT" = false := Atom.isWord_absent (by decide +kernel)
  split at h
  · next hallot =>
    obtain ⟨n, hcount, h⟩ := bind_eq_ok.1 h
    obtain ⟨rfl, rfl⟩ := Prod.mk.inj (pure_eq_ok.1 h)
    obtain ⟨hcount, hn⟩ := readCount_eq_ok_iff.1 hcount
    -- nothing past the end of the sequence is the word `ALLOT`
    match rest, hallot, hcount with
    | [], hallot, _ => exact absurd hallot (by simp [habsent])
    | [count], hallot, _ => exact absurd hallot (by simp [habsent])
    | count :: allot :: rest, hallot, hcount =>
      exact ⟨[a, name, count, allot], rfl, .cells ha hname hcount hn hallot, List.nodup_nil⟩
  · next hallot =>
    obtain ⟨rfl, rfl⟩ := Prod.mk.inj (pure_eq_ok.1 h)
    refine ⟨[a, name], rfl, .cell ha hname ?_, List.nodup_nil⟩
    intro b hb
    have hget : (a :: name :: rest).getD 3 Atom.absent = b := by
      have hrest : rest[1]? = some b := hb
      simp [hrest]
    rw [hget] at hallot
    simpa using hallot

theorem splits_of_readLibrary (ha : a.isWord "LIBRARY" = true)
    (h : readLibrary a (a :: rest) = .ok (d, after)) : Splits (a :: rest) after d := by
  obtain ⟨name, hnameAt, h⟩ := bind_eq_ok.1 h
  obtain ⟨rfl, rfl⟩ := Prod.mk.inj (pure_eq_ok.1 h)
  obtain ⟨hget, hname⟩ := nameAt_eq_ok_iff.1 hnameAt
  obtain ⟨rest, rfl⟩ := getElem?_one_eq_some hget
  exact ⟨[a, name], rfl, .library ha hname, List.nodup_nil⟩

theorem splits_of_readExternal (ha : a.isWord "EXTERN" = true)
    (h : readExternal a (a :: rest) = .ok (d, after)) : Splits (a :: rest) after d := by
  obtain ⟨name, hnameAt, h⟩ := bind_eq_ok.1 h
  obtain ⟨library, hlibraryAt, h⟩ := bind_eq_ok.1 h
  obtain ⟨className, hclassAt, h⟩ := bind_eq_ok.1 h
  obtain ⟨method, hmethodAt, h⟩ := bind_eq_ok.1 h
  obtain ⟨rfl, rfl⟩ := Prod.mk.inj (pure_eq_ok.1 h)
  obtain ⟨hget₁, hname⟩ := nameAt_eq_ok_iff.1 hnameAt
  obtain ⟨hget₂, hlibrary⟩ := nameAt_eq_ok_iff.1 hlibraryAt
  obtain ⟨hget₃, hclass⟩ := nameAt_eq_ok_iff.1 hclassAt
  obtain ⟨hget₄, hmethod⟩ := nameAt_eq_ok_iff.1 hmethodAt
  obtain ⟨rest, rfl⟩ := getElem?_one_eq_some hget₁
  obtain ⟨rest, rfl⟩ := getElem?_one_eq_some (a := name) hget₂
  obtain ⟨rest, rfl⟩ := getElem?_one_eq_some (a := library) hget₃
  obtain ⟨rest, rfl⟩ := getElem?_one_eq_some (a := className) hget₄
  exact ⟨[a, name, library, className, method], rfl,
    .external ha hname hlibrary hclass hmethod, List.nodup_nil⟩

theorem splits_of_readConstant (hkeyword : (rest.headD Atom.absent).isWord "CONSTANT" = true)
    (h : readConstant a (a :: rest) = .ok (d, after)) : Splits (a :: rest) after d := by
  obtain ⟨name, hnameAt, h⟩ := bind_eq_ok.1 h
  obtain ⟨v, hvalue, h⟩ := bind_eq_ok.1 h
  obtain ⟨rfl, rfl⟩ := Prod.mk.inj (pure_eq_ok.1 h)
  obtain ⟨hget, hname⟩ := nameAt_eq_ok_iff.1 hnameAt
  cases rest with
  | nil => cases hget
  | cons keyword rest =>
    obtain ⟨rest, rfl⟩ := getElem?_one_eq_some (a := keyword) hget
    exact ⟨[a, keyword, name], rfl, .constant (readValue_eq_ok_iff.1 hvalue) hkeyword hname,
      List.nodup_nil⟩

theorem splits_of_read (h : read a rest = .ok (d, after)) : Splits (a :: rest) after d := by
  simp only [read] at h
  split at h
  · next ha => exact splits_of_readWord ha h
  split at h
  · next ha => exact splits_of_readVariable ha h
  split at h
  · next ha => exact splits_of_readLibrary ha h
  split at h
  · next ha => exact splits_of_readExternal ha h
  split at h
  · next hkeyword => exact splits_of_readConstant hkeyword h
  · cases h

/-- The value of a constant is none of the words that begin another definition. -/
theorem Denotes.isWord_eq_false {v : ConstantValue} (h : Denotes a v) {keyword : Bytes}
    (hkeyword : keyword.foldKey.head?.all (0x3A ≤ ·) = true) : a.isWord keyword = false := by
  cases h with
  | text hkind => simp [Atom.isWord, hkind]
  | number _ hn =>
    rw [Atom.isWord, Bytes.equalFold, Bool.and_eq_false_iff]
    exact .inr (by simpa using Decimal.foldKey_ne_of_readInt64? hn hkeyword)

theorem read_of_written {written : List Atom} (h : Written written after d)
    (hlocals : d.LocalsDistinct) (hatoms : a :: rest = written ++ after) :
    read a rest = .ok (d, after) := by
  cases h with
  | @word start name stop items locals body _ hstart hname hitems hstop =>
    obtain ⟨rfl, rfl⟩ : a = start ∧ rest = name :: (items ++ stop :: after) := by
      simpa using hatoms
    have hbody : readBody a [] [] (items ++ stop :: after) = .ok ((locals, body), after) :=
      hitems.readBody_eq a hstop hlocals
    simp only [read, hstart, ↓reduceIte]
    refine bind_eq_ok.2 ⟨name, nameAt_eq_ok_iff.2 ⟨rfl, hname⟩, ?_⟩
    exact bind_eq_ok.2 ⟨_, hbody, rfl⟩
  | @cell keyword name _ hkeyword hname hafter =>
    obtain ⟨rfl, rfl⟩ : a = keyword ∧ rest = name :: after := by simpa using hatoms
    have hcolon : a.isWord colon = false := Atom.isWord_eq_false hkeyword (by decide +kernel)
    have hallot : ((a :: name :: after).getD 3 Atom.absent).isWord "ALLOT" = false := by
      cases hget : after[1]? with
      | none => simpa [hget] using Atom.isWord_absent (by decide +kernel)
      | some b => simpa [hget] using hafter b hget
    simp only [read, hcolon, hkeyword, Bool.false_eq_true, ↓reduceIte]
    refine bind_eq_ok.2 ⟨name, nameAt_eq_ok_iff.2 ⟨rfl, hname⟩, ?_⟩
    simp only [hallot, Bool.false_eq_true, ↓reduceIte]
    rfl
  | @cells keyword name count allot n _ hkeyword hname hcount hn hallot =>
    obtain ⟨rfl, rfl⟩ : a = keyword ∧ rest = name :: count :: allot :: after := by
      simpa using hatoms
    have hcolon : a.isWord colon = false := Atom.isWord_eq_false hkeyword (by decide +kernel)
    simp only [read, hcolon, hkeyword, Bool.false_eq_true, ↓reduceIte]
    refine bind_eq_ok.2 ⟨name, nameAt_eq_ok_iff.2 ⟨rfl, hname⟩, ?_⟩
    have hget : (a :: name :: count :: allot :: after).getD 3 Atom.absent = allot := rfl
    rw [hget, if_pos hallot]
    exact bind_eq_ok.2 ⟨n, readCount_eq_ok_iff.2 ⟨hcount, hn⟩, rfl⟩
  | @library keyword name _ hkeyword hname =>
    obtain ⟨rfl, rfl⟩ : a = keyword ∧ rest = name :: after := by simpa using hatoms
    have hcolon : a.isWord colon = false := Atom.isWord_eq_false hkeyword (by decide +kernel)
    have hvariable : a.isWord "VARIABLE" = false :=
      Atom.isWord_eq_false hkeyword (by decide +kernel)
    simp only [read, hcolon, hvariable, hkeyword, Bool.false_eq_true, ↓reduceIte]
    exact bind_eq_ok.2 ⟨name, nameAt_eq_ok_iff.2 ⟨rfl, hname⟩, rfl⟩
  | @external keyword name library className method _ hkeyword hname hlibrary hclass hmethod =>
    obtain ⟨rfl, rfl⟩ : a = keyword ∧ rest = name :: library :: className :: method :: after := by
      simpa using hatoms
    have hcolon : a.isWord colon = false := Atom.isWord_eq_false hkeyword (by decide +kernel)
    have hvariable : a.isWord "VARIABLE" = false :=
      Atom.isWord_eq_false hkeyword (by decide +kernel)
    have hlib : a.isWord "LIBRARY" = false := Atom.isWord_eq_false hkeyword (by decide +kernel)
    simp only [read, hcolon, hvariable, hlib, hkeyword, Bool.false_eq_true, ↓reduceIte]
    refine bind_eq_ok.2 ⟨name, nameAt_eq_ok_iff.2 ⟨rfl, hname⟩, ?_⟩
    refine bind_eq_ok.2 ⟨library, nameAt_eq_ok_iff.2 ⟨rfl, hlibrary⟩, ?_⟩
    refine bind_eq_ok.2 ⟨className, nameAt_eq_ok_iff.2 ⟨rfl, hclass⟩, ?_⟩
    exact bind_eq_ok.2 ⟨method, nameAt_eq_ok_iff.2 ⟨rfl, hmethod⟩, rfl⟩
  | @constant value keyword name v _ hvalue hkeyword hname =>
    obtain ⟨rfl, rfl⟩ : a = value ∧ rest = keyword :: name :: after := by simpa using hatoms
    have hcolon : a.isWord colon = false := hvalue.isWord_eq_false (by decide +kernel)
    have hvariable : a.isWord "VARIABLE" = false := hvalue.isWord_eq_false (by decide +kernel)
    have hlib : a.isWord "LIBRARY" = false := hvalue.isWord_eq_false (by decide +kernel)
    have hext : a.isWord "EXTERN" = false := hvalue.isWord_eq_false (by decide +kernel)
    simp only [read, hcolon, hvariable, hlib, hext, List.headD_cons, hkeyword, Bool.false_eq_true,
      ↓reduceIte]
    refine bind_eq_ok.2 ⟨name, nameAt_eq_ok_iff.2 ⟨rfl, hname⟩, ?_⟩
    exact bind_eq_ok.2 ⟨v, readValue_eq_ok_iff.2 hvalue, rfl⟩

/-- **Reading is the grammar.** The definition at the front of a sequence is the one that is written
there, if its locals are distinct. -/
theorem read_eq_ok_iff : read a rest = .ok (d, after) ↔ Splits (a :: rest) after d := by
  constructor
  · exact splits_of_read
  · rintro ⟨written, hatoms, hwritten, hlocals⟩
    exact read_of_written hwritten hlocals hatoms

end Read

theorem Written.ne_nil {written after : List Atom} {d : Definition} (h : Written written after d) :
    written ≠ [] := by
  cases h <;> simp

/-- **A sequence is derived in one way.** -/
theorem Derives.unique {atoms : List Atom} {ds es : List Definition} (hd : Derives atoms ds)
    (hds : ∀ d ∈ ds, d.LocalsDistinct) (he : Derives atoms es)
    (hes : ∀ e ∈ es, e.LocalsDistinct) : ds = es := by
  induction hd generalizing es with
  | nil =>
    generalize hatoms : ([] : List Atom) = atoms at he
    cases he with
    | nil => rfl
    | cons h _ => exact absurd (List.append_eq_nil_iff.1 hatoms.symm).1 h.ne_nil
  | @cons written after d ds h _ ih =>
    generalize hatoms : written ++ after = atoms at he
    cases he with
    | nil => exact absurd (List.append_eq_nil_iff.1 hatoms).1 h.ne_nil
    | @cons written' after' e es h' he =>
      rw [List.forall_mem_cons] at hds hes
      obtain ⟨a, rest, hcons⟩ := List.exists_cons_of_ne_nil h.ne_nil
      -- both are what reading gives, which is one thing
      have hread : read a (rest ++ after) = .ok (d, after) :=
        read_of_written h hds.1 (by rw [hcons]; rfl)
      have hread' : read a (rest ++ after) = .ok (e, after') :=
        read_of_written h' hes.1 (by rw [← hatoms, hcons]; rfl)
      obtain ⟨rfl, rfl⟩ := Prod.mk.inj (Except.ok.inj (hread.symm.trans hread'))
      rw [ih hds.2 he hes.2]

end Definition

end ForthFrontend
