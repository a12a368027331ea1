import ForthFrontend.Text.Binary64
import ForthFrontend.Yaml.Timestamp

/-!
# What unquoted text means

An unquoted scalar of a YAML document can stand for nothing, a truth value, an integer, a floating
point number, a point in time or the merge key; anything else is text. Text that would be taken for
one of these has to be quoted, and so does text that older readers take for a truth value or for a
number to the base sixty.

## Main definitions

* `Yaml.Meaning`: what a scalar can stand for.
* `Yaml.meaning`: what an unquoted text stands for.
* `Yaml.needsQuotes`: must the text be quoted to be read as text?
-/

namespace ForthFrontend.Yaml

/-- What a scalar stands for. -/
inductive Meaning where
  | null
  | boolean (value : Bool)
  | integer (value : Int)
  | float (value : Binary64)
  | time (value : Timestamp)
  | merge
  | text
  deriving Repr, DecidableEq, Inhabited

/-- The tags of meanings, and of collections and binary data. -/
inductive Tag where
  | null
  | boolean
  | integer
  | float
  | time
  | merge
  | text
  | binary
  | sequence
  | mapping
  /-- Any other tag. -/
  | custom (name : Bytes)
  deriving Repr, DecidableEq, Inhabited

namespace Tag

/-- The short name of a tag. -/
def name : Tag → Bytes
  | null => "!!null"
  | boolean => "!!bool"
  | integer => "!!int"
  | float => "!!float"
  | time => "!!timestamp"
  | merge => "!!merge"
  | text => "!!str"
  | binary => "!!binary"
  | sequence => "!!seq"
  | mapping => "!!map"
  | custom name => name

/-- The tags with a fixed meaning. -/
def standard : List Tag :=
  [null, boolean, integer, float, time, merge, text, binary, sequence, mapping]

/-- What the long name of a standard tag begins with. -/
def longStart : Bytes := "tag:yaml.org,2002:"

/-- The tag with a given name, long or short. -/
def ofName (s : Bytes) : Tag :=
  let short : Bytes :=
    if Bytes.startsWith s longStart then "!!" ++ s.drop longStart.length else s
  (standard.find? (·.name == short)).getD (custom short)

end Tag

namespace Meaning

/-- The tag of a meaning. -/
def tag : Meaning → Tag
  | null => .null
  | boolean _ => .boolean
  | integer _ => .integer
  | float _ => .float
  | time _ => .time
  | merge => .merge
  | text => .text

end Meaning

/-- The words that stand for something by themselves. -/
def fixedWords : List (Bytes × Meaning) := [
  ("true", .boolean true), ("True", .boolean true), ("TRUE", .boolean true),
  ("false", .boolean false), ("False", .boolean false), ("FALSE", .boolean false),
  ("", .null), ("~", .null), ("null", .null), ("Null", .null), ("NULL", .null),
  (".nan", .float .undefined), (".NaN", .float .undefined), (".NAN", .float .undefined),
  (".inf", .float (.infinite false)), (".Inf", .float (.infinite false)),
  (".INF", .float (.infinite false)), ("+.inf", .float (.infinite false)),
  ("+.Inf", .float (.infinite false)), ("+.INF", .float (.infinite false)),
  ("-.inf", .float (.infinite true)), ("-.Inf", .float (.infinite true)),
  ("-.INF", .float (.infinite true)), ("<<", .merge)]

/-- The integer of a numeral in any base, if its magnitude and sign fit in a signed or, without a
sign, in an unsigned word of 64 bits. -/
def integer? (s : Bytes) : Option Int := do
  let (negative, body) := Decimal.takeSign s
  let (base, digits) := Decimal.baseOf body
  let n ← Decimal.digitsValue? base digits
  let v := Decimal.signed negative n
  if Decimal.fitsInt64 v then some v
  else if body.length == s.length && n < 18446744073709551616 then some v
  else none

/-- The text without underscores. -/
def withoutUnderscores (s : Bytes) : Bytes :=
  s.filter (· != 0x5F)

/-- What a text that begins with a digit or a sign stands for, points in time apart. -/
def numberMeaning (s : Bytes) : Meaning :=
  let digits := withoutUnderscores s
  match integer? digits with
  | some n => .integer n
  | none =>
    match Binary64.read? digits with
    | some f => .float f
    | none => .text

/-- What a text that begins with a digit or a sign stands for. -/
def numberOrTime (timed : Bool) (s : Bytes) : Meaning :=
  match (if timed then Timestamp.read? s else none) with
  | some t => .time t
  | none => numberMeaning s

/-- What a text stands for; it stands for a point in time only if `timed` is set. -/
def meaningOf (timed : Bool) (s : Bytes) : Meaning :=
  match fixedWords.lookup s with
  | some m => m
  | none =>
    match s with
    | [] => .null
    | b :: _ =>
      if b == Bytes.dot then
        match Binary64.read? s with
        | some f => .float f
        | none => .text
      else if Bytes.isDigit b || b == 0x2B || b == 0x2D then numberOrTime timed s
      else .text

/-- What an unquoted text stands for. -/
def meaning (s : Bytes) : Meaning :=
  meaningOf true s

/-- The words that older readers take for truth values. -/
def oldBooleans : List Bytes := [
  "y", "Y", "yes", "Yes", "YES", "on", "On", "ON", "n", "N", "no", "No", "NO", "off", "Off", "OFF"]

/-- Is the text one or more groups of a colon and one or two digits, the first of two being at most
five, with a fraction after them perhaps? -/
def sixtyGroups : Nat → Bytes → Bool
  | 0, _ => false
  | fuel + 1, s =>
    match s with
    | 0x3A :: a :: rest =>
      if !Bytes.isDigit a then false
      else
        let tail := match rest with
          | b :: r => if Bytes.isDigit b && a ≤ 0x35 then r else rest
          | [] => []
        match tail with
        | [] => true
        | 0x2E :: fraction => fraction.all fun b => Bytes.isDigit b || b == 0x5F
        | _ => sixtyGroups fuel tail
    | _ => false

/-- Do older readers take the text for a number to the base sixty? -/
def isSixtyNumber (s : Bytes) : Bool :=
  match (Decimal.takeSign s).2 with
  | [] => false
  | b :: rest =>
    Bytes.isDigit b &&
      sixtyGroups s.length (rest.dropWhile fun c => Bytes.isDigit c || c == 0x5F)

/-- Must the text be quoted to be read as text? -/
def needsQuotes (s : Bytes) : Bool :=
  meaning s != .text || oldBooleans.contains s || isSixtyNumber s

end ForthFrontend.Yaml
