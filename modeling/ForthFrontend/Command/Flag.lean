import ForthFrontend.Yaml.Data

/-!
# Flags

The arguments of a command are words and flags. A flag has a long name and possibly a letter. A
switch needs no value; any other flag takes one, after an equals sign or as the next argument.
Letters can be combined, and the last of them may be followed by its value at once. After two dashes
all arguments are words.

Before the command is known its word has to be found among the arguments. At that point an unknown
flag counts as one that takes a value.

## Main definitions

* `Flag`, `FlagValue`: flags and what they hold.
* `Arguments`, `Flag.parse`: the flags and words among arguments.
* `Flag.words`, `Flag.dropWord`: the words in front of an unknown command, and the arguments without
  one of them.
-/

namespace ForthFrontend

/-- What a flag holds. -/
inductive FlagValue where
  | switch (on : Bool)
  | number (value : Int64)
  | text (value : Bytes)
  deriving Repr, DecidableEq, Inhabited

namespace FlagValue

/-- The value as data. -/
def data : FlagValue → Yaml.Data
  | switch on => .boolean on
  | number n => .integer n.toInt
  | text s => .text s

/-- The name of the kind of value in usage texts; a switch has none. -/
def kindName : FlagValue → Bytes
  | switch _ => []
  | number _ => "int"
  | text _ => "string"

end FlagValue

/-- A flag. -/
structure Flag where
  name : Bytes
  letter : Option Char := none
  /-- The value if the flag is not given, which also determines the kind of value. -/
  default : FlagValue
  purpose : Bytes
  deriving Repr, DecidableEq, Inhabited

/-- The flags given among arguments, the last first, and the words in order. -/
structure Arguments where
  flags : List (Bytes × FlagValue) := []
  words : List Bytes := []
  deriving Repr, DecidableEq, Inhabited

namespace Arguments

/-- Is a switch given and on? -/
def isOn (a : Arguments) (name : Bytes) : Bool :=
  a.flags.lookup name == some (.switch true)

/-- The text of a flag, or `fallback` if it is not given. -/
def text (a : Arguments) (name : Bytes) (fallback : Bytes := []) : Bytes :=
  match a.flags.lookup name with
  | some (.text s) => s
  | _ => fallback

end Arguments

namespace Flag

/-- Does the flag need no value? -/
def isSwitch (f : Flag) : Bool :=
  match f.default with
  | .switch _ => true
  | _ => false

/-- The value of a flag that a text stands for. -/
def read (f : Flag) (s : Bytes) : Option FlagValue :=
  match f.default with
  | .switch _ => (Yaml.Data.truth? s).map .switch
  | .number _ => (Decimal.readBased? s).map .number
  | .text _ => some (.text s)

/-- Has the flag the letter? -/
def hasLetter (f : Flag) (b : UInt8) : Bool :=
  f.letter.any fun c => Bytes.ofAscii c == b

/-- The byte that flags begin with. -/
def dash : UInt8 := 0x2D

/-- The byte between a flag and its value. -/
def equals : UInt8 := 0x3D

/-- Two dashes, after which all arguments are words. -/
def endMark : Bytes := "--"

/-- A flag with its value. -/
def given (f : Flag) (s : Bytes) : Option (Bytes × FlagValue) :=
  (f.read s).map fun v => (f.name, v)

/-- What a flag argument yields: the flags it gives, the last first, and whether it takes the next
argument as a value. -/
structure Taken where
  flags : List (Bytes × FlagValue)
  usesNext : Bool := false
  deriving Repr, DecidableEq, Inhabited

/-- A flag by its long name, with the next argument at hand. -/
def takeLong (fs : List Flag) (next : Option Bytes) (s : Bytes) : Option Taken := do
  let name := s.takeWhile (· != equals)
  if name.isEmpty || name.head? == some dash then none
  let f ← fs.find? (·.name == name)
  match s.drop name.length with
  | _ :: value => return { flags := [← f.given value] }
  | [] =>
    if f.isSwitch then return { flags := [(f.name, .switch true)] }
    else return { flags := [← f.given (← next)], usesNext := true }

/-- What letters that belong to no flag of the program begin with; they are left alone. -/
def foreignLetters : Bytes := "test."

/-- Flags by their letters, with the next argument at hand. -/
def takeLetters (fs : List Flag) (next : Option Bytes) (found : List (Bytes × FlagValue)) :
    Bytes → Option Taken
  | [] => some { flags := found }
  | c :: rest => do
    if Bytes.startsWith (c :: rest) foreignLetters then return { flags := found }
    let f ← fs.find? (·.hasLetter c)
    match rest with
    | [] =>
      if f.isSwitch then return { flags := (f.name, .switch true) :: found }
      else return { flags := (← f.given (← next)) :: found, usesNext := true }
    | d :: value =>
      if d == equals && !value.isEmpty then return { flags := (← f.given value) :: found }
      else if f.isSwitch then
        takeLetters fs next ((f.name, .switch true) :: found) (d :: value)
      else return { flags := (← f.given (d :: value)) :: found }

/-- The flags of an argument that begins with a dash. -/
def take (fs : List Flag) (next : Option Bytes) (s : Bytes) : Option Taken :=
  match s with
  | _ :: b :: rest =>
    if b == dash then takeLong fs next rest else takeLetters fs next [] (b :: rest)
  | _ => some { flags := [] }

/-- Is the argument a flag? A single dash is a word. -/
def isFlag (s : Bytes) : Bool :=
  s.head? == some dash && 1 < s.length

/-- The arguments that remain after a flag argument. -/
def remaining (t : Taken) (rest : List Bytes) : List Bytes :=
  if t.usesNext then rest.tail else rest

/-- No more arguments remain than there were. -/
theorem length_remaining_le (t : Taken) (rest : List Bytes) :
    (remaining t rest).length ≤ rest.length := by
  unfold remaining
  split
  · simp
  · exact Nat.le_refl _

/-- The flags and words among arguments, behind those found so far, latest first. -/
def parseInto (fs : List Flag) (found : Arguments) : List Bytes → Option Arguments
  | [] => some { found with words := found.words.reverse }
  | s :: rest =>
    if s == endMark then some { found with words := found.words.reverse ++ rest }
    else if isFlag s then
      match take fs rest.head? s with
      | none => none
      | some t => parseInto fs { found with flags := t.flags ++ found.flags } (remaining t rest)
    else parseInto fs { found with words := s :: found.words } rest
termination_by args => args.length
decreasing_by
  · exact Nat.lt_succ_of_le (length_remaining_le _ _)
  · simp

/-- The flags and words among arguments, or nothing if a flag is unknown or has no good value. -/
def parse (fs : List Flag) (args : List Bytes) : Option Arguments :=
  parseInto fs {} args

/-- May the argument be followed by its value? -/
def wantsValue (fs : List Flag) (s : Bytes) : Bool :=
  if s.contains equals || !isFlag s then false
  else
    match s with
    | [_, b] => !(fs.any fun f => f.isSwitch && f.hasLetter b)
    | _ :: b :: name => b == dash && !(fs.any fun f => f.isSwitch && f.name == name)
    | _ => false

/-- The words among arguments. A value at the very end hides nothing. -/
def words (fs : List Flag) : List Bytes → List Bytes
  | [] => []
  | s :: rest =>
    if s == endMark then []
    else if wantsValue fs s then
      match rest with
      | _ :: more => words fs more
      | [] => []
    else if s.isEmpty || s.head? == some dash then words fs rest
    else s :: words fs rest

/-- The arguments without the first one that is the word `x`. -/
def dropWord (fs : List Flag) (x : Bytes) : List Bytes → List Bytes
  | [] => []
  | s :: rest =>
    if s == endMark then s :: rest
    else if wantsValue fs s then
      match rest with
      | value :: more => s :: value :: dropWord fs x more
      | [] => [s]
    else if s == x then rest
    else s :: dropWord fs x rest

/-! ## Usage -/

/-- The names of a flag as they appear in its usage. -/
def usageNames (f : Flag) : Bytes :=
  let start : Bytes := match f.letter with
    | some c => "  -" ++ [Bytes.ofAscii c] ++ ", --"
    | none => "      --"
  let kind := f.default.kindName
  start ++ f.name ++ (if kind.isEmpty then [] else Bytes.space :: kind)

/-- The default of a flag as it appears in its usage; nothing for an empty one. -/
def usageDefault (f : Flag) : Bytes :=
  let shown : Bytes := match f.default with
    | .switch on => if on then "true" else []
    | .number n => if n == 0 then [] else Decimal.ofInt64 n
    | .text s => if s.isEmpty then [] else Text.quoted s
  if shown.isEmpty then [] else " (default " ++ shown ++ ")"

/-- The lines of usage of flags, with what they are for in one column. -/
def usage (fs : List Flag) : Bytes :=
  let width := (fs.map fun f => f.usageNames.length).foldl max 0
  Bytes.unlines (fs.map fun f =>
    f.usageNames ++ Bytes.blanks (width + 3 - f.usageNames.length) ++ f.purpose ++ f.usageDefault)

end Flag

end ForthFrontend
