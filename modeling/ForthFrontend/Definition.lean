import ForthFrontend.Failure

/-!
# Definitions

A program is a sequence of definitions, each of one of these forms:

* `LIBRARY name`
* `value CONSTANT name`, the value being a dump string or a decimal numeral
* `VARIABLE name`, or `VARIABLE name n ALLOT` for `n` more cells
* `: name ... ;`, where `LOCAL name` inside declares a variable of the word
* `EXTERN name library class method`

Keywords are words in any letter case and can be used as names. This module reads one definition
from the front of a sequence of atoms and does not look at names defined before it.

## Main definitions

* `Definition`: the forms.
* `Definition.isName`: which atoms can be names.
* `Definition.read`: the definition at the front of a sequence, and the atoms after it.
-/

namespace ForthFrontend

/-- One definition of a program, with the atoms that name things in it. -/
inductive Definition where
  | library (name : Atom)
  | constant (name : Atom) (value : ConstantValue)
  | global (name : Atom) (size : Int64)
  | word (name : Atom) (locals body : List Atom)
  | external (name library className method : Atom)
  deriving Repr, DecidableEq, Inhabited

namespace Definition

/-- The word that begins a word definition. -/
def colon : Bytes := ":"

/-- The word that ends a word definition. -/
def semicolon : Bytes := ";"

/-- Can the atom be a name? Names are words other than `:` and `;`. -/
def isName (a : Atom) : Bool :=
  a.kind == .word && !a.text.isEmpty && a.text != colon && a.text != semicolon

/-- The atom at `offset`, which has to be a name. If nothing is there, the complaint is about
`owner`. -/
def nameAt (atoms : List Atom) (offset : Nat) (owner : Atom) : Except SourceError Atom :=
  let a := atoms.getD offset Atom.absent
  if a.text.isEmpty then .error (.atAtom .malformedDefinition owner)
  else if isName a then .ok a
  else .error (.atAtom .malformedDefinition a)

/-- The error that `a` names something that is named already. -/
def duplicate (a : Atom) : SourceError :=
  { SourceError.atAtom .duplicateDefinition a with target := a.text }

/-- Do two texts name the same thing? -/
def sameName (s t : Bytes) : Bool :=
  s.toUpper == t.toUpper

/-- Reads the rest of a word definition up to its end; `locals` and `body` hold what was read so
far, latest first. -/
def readBody (start : Atom) (locals body : List Atom) :
    List Atom → Except SourceError ((List Atom × List Atom) × List Atom)
  | [] => .error (.atAtom .unterminatedWord start)
  | a :: rest =>
    if a.isWord semicolon then .ok ((locals.reverse, body.reverse), rest)
    else if a.isWord colon then .error (.atAtom .unterminatedWord start)
    else if a.isWord "LOCAL" then
      match rest with
      | [] => .error (.atAtom .malformedDefinition a)
      | name :: rest =>
        if !isName name then .error (.atAtom .malformedDefinition a)
        else if locals.any fun l => sameName l.text name.text then .error (duplicate name)
        else readBody start (name :: locals) body rest
    else readBody start locals (a :: body) rest

/-- Reads a word definition that begins with `start`. -/
def readWord (start : Atom) (atoms : List Atom) : Except SourceError (Definition × List Atom) := do
  let name ← nameAt atoms 1 start
  let ((locals, body), rest) ← readBody start [] [] (atoms.drop 2)
  return (.word name locals body, rest)

/-- The number of cells that `count` names, if it names a number of cells. -/
def readCount (count : Atom) : Except SourceError Int64 :=
  match Decimal.readInt64? count.text with
  | some n => if n < 0 then .error (.atAtom .malformedDefinition count) else .ok n
  | none => .error (.atAtom .malformedDefinition count)

/-- Reads a variable definition that begins with `start`. -/
def readVariable (start : Atom) (atoms : List Atom) :
    Except SourceError (Definition × List Atom) := do
  let name ← nameAt atoms 1 start
  if (atoms.getD 3 Atom.absent).isWord "ALLOT" then
    let extra ← readCount (atoms.getD 2 Atom.absent)
    return (.global name (1 + extra), atoms.drop 4)
  else return (.global name 1, atoms.drop 2)

/-- The value of a constant: a dump string without the quotation marks around it, or a number. -/
def readValue (a : Atom) : Except SourceError ConstantValue :=
  match a.kind with
  | .dumpString => .ok (.text (Bytes.trimBoth (· == Bytes.quote) a.text))
  | .word =>
    match Decimal.readInt64? a.text with
    | some n => .ok (.number n)
    | none => .error (.atAtom .malformedDefinition a)
  | _ => .error (.atAtom .malformedDefinition a)

/-- Reads a constant definition whose value is `value`. -/
def readConstant (value : Atom) (atoms : List Atom) :
    Except SourceError (Definition × List Atom) := do
  let name ← nameAt atoms 2 (atoms.getD 1 Atom.absent)
  let v ← readValue value
  return (.constant name v, atoms.drop 3)

/-- Reads a library clause that begins with `start`. -/
def readLibrary (start : Atom) (atoms : List Atom) :
    Except SourceError (Definition × List Atom) := do
  let name ← nameAt atoms 1 start
  return (.library name, atoms.drop 2)

/-- Reads the binding of an external word that begins with `start`. -/
def readExternal (start : Atom) (atoms : List Atom) :
    Except SourceError (Definition × List Atom) := do
  let name ← nameAt atoms 1 start
  let library ← nameAt atoms 2 start
  let className ← nameAt atoms 3 start
  let method ← nameAt atoms 4 start
  return (.external name library className method, atoms.drop 5)

/-- Reads the definition that begins with `a` and goes on with `rest`. -/
def read (a : Atom) (rest : List Atom) : Except SourceError (Definition × List Atom) :=
  let atoms := a :: rest
  if a.isWord colon then readWord a atoms
  else if a.isWord "VARIABLE" then readVariable a atoms
  else if a.isWord "LIBRARY" then readLibrary a atoms
  else if a.isWord "EXTERN" then readExternal a atoms
  else if (rest.headD Atom.absent).isWord "CONSTANT" then readConstant a atoms
  else .error (.atAtom .unexpectedAtom a)

/-- The body of a word is read from the atoms after its name only. -/
theorem length_of_readBody {start : Atom} {atoms rest : List Atom} {locals body : List Atom}
    {parts : List Atom × List Atom}
    (h : readBody start locals body atoms = .ok (parts, rest)) :
    rest.length ≤ atoms.length := by
  fun_induction readBody start locals body atoms with
  | case1 => cases h
  | case2 locals body a rest' hs =>
    cases h
    exact Nat.le_succ _
  | case3 => cases h
  | case4 => cases h
  | case5 => cases h
  | case6 => cases h
  | case7 locals body a _ _ _ name rest' _ _ ih =>
    have := ih h
    simp only [List.length_cons]
    omega
  | case8 locals body a rest' _ _ _ ih =>
    have := ih h
    simp only [List.length_cons]
    omega

/-- A computation that goes on after another one succeeds only if both do. -/
theorem bind_eq_ok {ε α β : Type} {x : Except ε α} {f : α → Except ε β} {b : β} :
    (x >>= f) = .ok b ↔ ∃ a, x = .ok a ∧ f a = .ok b := by
  cases x with
  | error e =>
    constructor
    · intro h
      cases h
    · rintro ⟨a, h, -⟩
      cases h
  | ok a =>
    constructor
    · intro h
      exact ⟨a, rfl, h⟩
    · rintro ⟨a', h, hf⟩
      cases h
      exact hf

/-- A result that is returned as it is. -/
theorem pure_eq_ok {ε α : Type} {a b : α} : (pure a : Except ε α) = .ok b ↔ a = b :=
  ⟨Except.ok.inj, congrArg _⟩

/-- Dropping atoms from a sequence that is not empty shortens it. -/
theorem length_drop_cons_lt (a : Atom) (rest : List Atom) (n : Nat) :
    ((a :: rest).drop (n + 1)).length < (a :: rest).length := by
  simp only [List.drop_succ_cons, List.length_drop, List.length_cons]
  omega

theorem length_of_readWord {a : Atom} {rest after : List Atom} {d : Definition}
    (h : readWord a (a :: rest) = .ok (d, after)) : after.length < (a :: rest).length := by
  obtain ⟨_, _, h⟩ := bind_eq_ok.1 h
  obtain ⟨⟨_, after'⟩, hb, h⟩ := bind_eq_ok.1 h
  obtain ⟨-, rfl⟩ := Prod.mk.inj (pure_eq_ok.1 h)
  exact Nat.lt_of_le_of_lt (length_of_readBody hb) (length_drop_cons_lt a rest 1)

theorem length_of_readVariable {a : Atom} {rest after : List Atom} {d : Definition}
    (h : readVariable a (a :: rest) = .ok (d, after)) : after.length < (a :: rest).length := by
  obtain ⟨_, _, h⟩ := bind_eq_ok.1 h
  split at h
  · obtain ⟨_, _, h⟩ := bind_eq_ok.1 h
    obtain ⟨-, rfl⟩ := Prod.mk.inj (pure_eq_ok.1 h)
    exact length_drop_cons_lt a rest 3
  · obtain ⟨-, rfl⟩ := Prod.mk.inj (pure_eq_ok.1 h)
    exact length_drop_cons_lt a rest 1

theorem length_of_readConstant {a : Atom} {rest after : List Atom} {d : Definition}
    (h : readConstant a (a :: rest) = .ok (d, after)) : after.length < (a :: rest).length := by
  obtain ⟨_, _, h⟩ := bind_eq_ok.1 h
  obtain ⟨_, _, h⟩ := bind_eq_ok.1 h
  obtain ⟨-, rfl⟩ := Prod.mk.inj (pure_eq_ok.1 h)
  exact length_drop_cons_lt a rest 2

theorem length_of_readLibrary {a : Atom} {rest after : List Atom} {d : Definition}
    (h : readLibrary a (a :: rest) = .ok (d, after)) : after.length < (a :: rest).length := by
  obtain ⟨_, _, h⟩ := bind_eq_ok.1 h
  obtain ⟨-, rfl⟩ := Prod.mk.inj (pure_eq_ok.1 h)
  exact length_drop_cons_lt a rest 1

theorem length_of_readExternal {a : Atom} {rest after : List Atom} {d : Definition}
    (h : readExternal a (a :: rest) = .ok (d, after)) : after.length < (a :: rest).length := by
  obtain ⟨_, _, h⟩ := bind_eq_ok.1 h
  obtain ⟨_, _, h⟩ := bind_eq_ok.1 h
  obtain ⟨_, _, h⟩ := bind_eq_ok.1 h
  obtain ⟨_, _, h⟩ := bind_eq_ok.1 h
  obtain ⟨-, rfl⟩ := Prod.mk.inj (pure_eq_ok.1 h)
  exact length_drop_cons_lt a rest 4

/-- A definition takes at least one atom. -/
theorem length_of_read {a : Atom} {rest after : List Atom} {d : Definition}
    (h : read a rest = .ok (d, after)) : after.length < (a :: rest).length := by
  unfold read at h
  simp only at h
  split at h
  · exact length_of_readWord h
  · split at h
    · exact length_of_readVariable h
    · split at h
      · exact length_of_readLibrary h
      · split at h
        · exact length_of_readExternal h
        · split at h
          · exact length_of_readConstant h
          · cases h

end Definition

end ForthFrontend
