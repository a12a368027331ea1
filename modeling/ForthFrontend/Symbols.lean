import ForthFrontend.Atom
import ForthFrontend.Text.Quoted

/-!
# Symbol tables

What a program defines: constants, global and local variables, words and external words, each table
in the order of the definitions. Sizes and addresses count cells and are 64-bit words, so they wrap.
-/

namespace ForthFrontend

/-- The value of a constant: a text or a number. -/
inductive ConstantValue where
  | text (value : Bytes)
  | number (value : Int64)
  deriving Repr, DecidableEq, Inhabited

namespace ConstantValue

/-- The text of a text value, empty for a number. -/
def asText : ConstantValue → Bytes
  | text s => s
  | number _ => []

/-- The number of a number value, zero for a text. -/
def asNumber : ConstantValue → Int64
  | text _ => 0
  | number n => n

/-- How the value is shown in listings: a text quoted, a number in decimal. -/
def render : ConstantValue → Bytes
  | text s => Text.quoted s
  | number n => Decimal.ofInt64 n

end ConstantValue

/-- A named constant. -/
structure Constant where
  name : Bytes
  value : ConstantValue
  deriving Repr, DecidableEq, Inhabited

/-- A variable of the whole program that takes `size` cells from `address` on. -/
structure GlobalVariable where
  name : Bytes
  size : Int64 := 0
  address : Int64 := 0
  deriving Repr, DecidableEq, Inhabited

/-- A variable of one word. -/
structure LocalVariable where
  name : Bytes
  word : Bytes
  address : Int64 := 0
  deriving Repr, DecidableEq, Inhabited

/-- A word with the atoms of its body. -/
structure Word where
  name : Bytes
  body : List Atom := []
  deriving Repr, DecidableEq, Inhabited

/-- A word bound to a method of a class in a platform library. -/
structure ExternalWord where
  name : Bytes
  library : Bytes
  className : Bytes
  method : Bytes
  deriving Repr, DecidableEq, Inhabited

/-- Is every part of the binding given? -/
def ExternalWord.isBound (e : ExternalWord) : Bool :=
  !(e.library.isEmpty || e.className.isEmpty || e.method.isEmpty)

/-- Everything a program defines. -/
structure SymbolTables where
  library : Bytes := []
  constants : List Constant := []
  globals : List GlobalVariable := []
  locals : List LocalVariable := []
  words : List Word := []
  externals : List ExternalWord := []
  deriving Repr, DecidableEq, Inhabited

/-- How many definitions each table holds. -/
structure Summary where
  constants : Int64 := 0
  globals : Int64 := 0
  locals : Int64 := 0
  words : Int64 := 0
  externals : Int64 := 0
  deriving Repr, DecidableEq, Inhabited

/-- The sizes of the tables. -/
def SymbolTables.summary (t : SymbolTables) : Summary where
  constants := Int64.ofNat t.constants.length
  globals := Int64.ofNat t.globals.length
  locals := Int64.ofNat t.locals.length
  words := Int64.ofNat t.words.length
  externals := Int64.ofNat t.externals.length

end ForthFrontend
