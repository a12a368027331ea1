import ForthFrontend.Disk
import ForthFrontend.Symbols

/-!
# Failures

Everything that can go wrong, as causes. The wording of each cause is given by one function, so a
diagnostic can be compared without comparing text.

## Main definitions

* `Fault`: the rules a program or a run can break.
* `SourceError`: a broken rule with the place in the sources that broke it.
* `Failure`: everything a run can end with, and `Failure.message`, its wording.
* `Failure.is`: does the failure, or what caused it, break a given rule?
-/

namespace ForthFrontend

/-- A rule that can be broken. -/
inductive Fault where
  | sourceNotFound
  | missingIncludeTarget
  | circularInclude
  | unterminatedString
  | duplicateDefinition
  | malformedDefinition
  | unterminatedWord
  | unexpectedAtom
  | unboundExternal
  /-- The run was cancelled from outside. -/
  | cancelled
  /-- A failure of a collaborator, known by its wording only. -/
  | other (text : Bytes)
  deriving Repr, DecidableEq, Inhabited

namespace Fault

/-- The wording of a broken rule. -/
def message : Fault → Bytes
  | sourceNotFound => "source file not found"
  | missingIncludeTarget => "missing name of the include file"
  | circularInclude => "file is referenced more than once in LOAD directives"
  | unterminatedString => "unterminated string literal"
  | duplicateDefinition => "duplicate definition"
  | malformedDefinition => "malformed definition"
  | unterminatedWord => "word definition is not terminated by ;"
  | unexpectedAtom => "atom outside of any definition"
  | unboundExternal => "unbound external word"
  | cancelled => "context canceled"
  | other text => text

end Fault

/-- What an error was caused by: another broken rule or a failed operation on the disk. -/
inductive Cause where
  | fault (f : Fault)
  | disk (e : DiskError)
  deriving Repr, DecidableEq, Inhabited

namespace Cause

/-- The wording of a cause. -/
def message : Cause → Bytes
  | fault f => f.message
  | disk e => e.message

/-- Is the cause the broken rule `f`? -/
def is (c : Cause) (f : Fault) : Bool :=
  c == .fault f

end Cause

/-- A broken rule tied to the place in the sources that broke it. An empty file means that no place
is known, and an empty target that the error names none. -/
structure SourceError where
  fault : Fault
  file : Path := []
  line : Int64 := 0
  target : Bytes := []
  cause : Option Cause := none
  deriving Repr, DecidableEq, Inhabited

namespace SourceError

/-- The error that `a` breaks the rule `f`. -/
def atAtom (f : Fault) (a : Atom) : SourceError :=
  { fault := f, file := a.file, line := a.line }

/-- The target of an error as it appears in its wording. -/
def targetText (e : SourceError) : Bytes :=
  if e.target.isEmpty then [] else ": " ++ e.target

/-- The place of an error as it appears in its wording. -/
def placeText (e : SourceError) : Bytes :=
  if e.file.isEmpty then [] else " (" ++ e.file ++ "," ++ Decimal.ofInt64 e.line ++ ")"

/-- The cause of an error as it appears in its wording. -/
def causeText (e : SourceError) : Bytes :=
  match e.cause with
  | none => []
  | some c => ": " ++ c.message

/-- The wording of an error: the rule, then target, place and cause as far as they are known. -/
def message (e : SourceError) : Bytes :=
  e.fault.message ++ e.targetText ++ e.placeText ++ e.causeText

/-- Does the error, or its cause, break the rule `f`? -/
def is (e : SourceError) (f : Fault) : Bool :=
  e.fault == f || e.cause.any (·.is f)

/-- The error with the place of `a`, unless it has a place already. -/
def orAt (e : SourceError) (a : Atom) : SourceError :=
  if e.file.isEmpty then { e with file := a.file, line := a.line } else e

end SourceError

/-- Why a source file could not be read to its end. -/
inductive ReadFault where
  /-- A line fills the whole line buffer. -/
  | lineTooLong
  | disk (e : DiskError)
  deriving Repr, DecidableEq, Inhabited

/-- The wording of a reading fault. -/
def ReadFault.message : ReadFault → Bytes
  | lineTooLong => "bufio.Scanner: token too long"
  | disk e => e.message

/-- Why the options of a compilation are refused. -/
inductive OptionFault where
  | noSource
  | unknownTarget (text : Bytes)
  | forthStackSize (size : Int64)
  | returnStackSize (size : Int64)
  deriving Repr, DecidableEq, Inhabited

/-- The wording of a refused option. -/
def OptionFault.message : OptionFault → Bytes
  | noSource => "no source file given"
  | unknownTarget text => "unknown target kind " ++ Text.quoted text ++ " (want exe or dll)"
  | forthStackSize n => "forth stack size must be positive, got " ++ Decimal.ofInt64 n
  | returnStackSize n => "return stack size must be positive, got " ++ Decimal.ofInt64 n

/-- The wording of a name that is no kind of atom. -/
def unknownKindMessage (text : Bytes) : Bytes :=
  "unknown atom kind " ++ Text.quoted text

/-- Everything a run can end with instead of a result. -/
inductive Failure where
  | source (e : SourceError)
  /-- A bare cause: a cancelled run, or the failure of a collaborator or of the disk. -/
  | bare (c : Cause)
  | unreadable (path : Path) (why : ReadFault)
  | options (why : OptionFault)
  | unbound (word : ExternalWord)
  | imageUnwritten (path : Path) (why : Cause)
  | dumpUnopened (path : Path) (why : Cause)
  /-- The dump is no document of the expected shape; `why` is the wording of its reader. -/
  | dumpUndecoded (path : Path) (why : Bytes)
  | dumpKind (index : Nat) (path : Path) (kind : Bytes)
  | dumpUnwritten (path : Path) (why : Cause)
  | mapUndisplayed (why : Fault)
  /-- The output channel did not take the whole dump; `why` is its wording. -/
  | dumpUnprinted (why : Bytes)
  | unknownFormat (format : Bytes)
  deriving Repr, DecidableEq, Inhabited

namespace Failure

/-- The failure of a cancelled run. -/
def cancelled : Failure := bare (.fault .cancelled)

/-- The failure that `a` breaks the rule `f`. -/
def atAtom (f : Fault) (a : Atom) : Failure :=
  source (.atAtom f a)

/-- The wording of a failure. -/
def message : Failure → Bytes
  | source e => e.message
  | bare c => c.message
  | unreadable path why => "read " ++ path ++ ": " ++ why.message
  | options why => "options: " ++ why.message
  | unbound w =>
    Fault.unboundExternal.message ++ ": " ++ w.name ++ " (library " ++ Text.quoted w.library
      ++ ", class " ++ Text.quoted w.className ++ ", method " ++ Text.quoted w.method ++ ")"
  | imageUnwritten path why => "write image " ++ path ++ ": " ++ why.message
  | dumpUnopened path why => "open atom dump " ++ path ++ ": " ++ why.message
  | dumpUndecoded path why => "decode atom dump " ++ path ++ ": " ++ why
  | dumpKind index path kind =>
    "atom " ++ Decimal.ofNat index ++ " in " ++ path ++ ": " ++ unknownKindMessage kind
  | dumpUnwritten path why => "write atoms to " ++ path ++ ": " ++ why.message
  | mapUndisplayed why => "display map: " ++ why.message
  | dumpUnprinted why => "encode atoms: yaml: write error: " ++ why
  | unknownFormat format => "unknown atom format " ++ format

/-- Does the failure, or what caused it, break the rule `f`? -/
def is (failure : Failure) (f : Fault) : Bool :=
  match failure with
  | source e => e.is f
  | bare c => c.is f
  | unbound _ => f == .unboundExternal
  | imageUnwritten _ why | dumpUnopened _ why | dumpUnwritten _ why => why.is f
  | mapUndisplayed why => why == f
  | _ => false

/-- The source error of a failure, if it is one. -/
def sourceError? : Failure → Option SourceError
  | source e => some e
  | _ => none

/-- A source error without a place gets the place of `a`; other failures stay as they are. -/
def orAt (failure : Failure) (a : Atom) : Failure :=
  match failure with
  | source e => source (e.orAt a)
  | other => other

end Failure

end ForthFrontend
