import ForthFrontend.Yaml.Implicit
import ForthFrontend.Yaml.Character

/-!
# What can be wrong with a document

The ways in which a text fails to be a document, or a document fails to have the expected shape.

A syntax error has a line, or zero if none is known. The line of an error in a token is the line,
counted from one, where the construct in question began, unless it began on the first line; then it
is the line where reading stopped, and unknown if that is the first line too. The line of an error
in the arrangement of tokens follows the same rule with lines counted from zero.

## Main definitions

* `Yaml.Problem`: what is wrong, and `Yaml.Problem.message`, its wording.
* `Yaml.SyntaxError`: a problem and the line it is reported for.
-/

namespace ForthFrontend.Yaml

/-- What is wrong with a document. -/
inductive Problem where
  | characters (why : CharacterFault)
  | unreadable (why : Bytes)
  -- tokens
  | missingColon
  | entryNotAllowed
  | keyNotAllowed
  | valueNotAllowed
  | badName
  | noToken
  | tooDeep
  | directiveName
  | directiveNameEnd
  | unknownDirective
  | directiveEnd
  | versionNumber
  | longVersionNumber
  | versionDot
  | tagBlank
  | tagEnd
  | tagMark
  | tagUri
  | tagClose
  | uriOctet
  | uriLeadingOctet
  | uriTrailingOctet
  | zeroIndent
  | headerEnd
  | tabIndent
  | documentMark
  | unexpectedEnd
  | unknownEscape
  | hexDigits
  | escapedCharacter
  | tabViolation
  -- arrangement
  | missingDocumentStart
  | incompatibleVersion
  | duplicateVersion
  | duplicateTagDirective
  | undefinedHandle
  | missingContent
  | missingDash
  | missingKey
  | missingSequenceEnd
  | missingMappingEnd
  -- meaning
  | unknownAnchor (name : Bytes)
  | selfContaining (name : Bytes)
  | badMerge
  | badBinary
  | badKey
  | badTag (found : Tag) (text : Bytes) (wanted : Tag)
  deriving Repr, DecidableEq, Inhabited

namespace Problem

/-- The wording of a problem. -/
def message : Problem → Bytes
  | characters why => why.message
  | unreadable why => "input error: " ++ why
  | missingColon => "could not find expected ':'"
  | entryNotAllowed => "block sequence entries are not allowed in this context"
  | keyNotAllowed => "mapping keys are not allowed in this context"
  | valueNotAllowed => "mapping values are not allowed in this context"
  | badName => "did not find expected alphabetic or numeric character"
  | noToken => "found character that cannot start any token"
  | tooDeep => "exceeded max depth of 10000"
  | directiveName => "could not find expected directive name"
  | directiveNameEnd => "found unexpected non-alphabetical character"
  | unknownDirective => "found unknown directive name"
  | directiveEnd | headerEnd => "did not find expected comment or line break"
  | versionNumber => "did not find expected version number"
  | longVersionNumber => "found extremely long version number"
  | versionDot => "did not find expected digit or '.' character"
  | tagBlank => "did not find expected whitespace"
  | tagEnd => "did not find expected whitespace or line break"
  | tagMark => "did not find expected '!'"
  | tagUri => "did not find expected tag URI"
  | tagClose => "did not find the expected '>'"
  | uriOctet => "did not find URI escaped octet"
  | uriLeadingOctet => "found an incorrect leading UTF-8 octet"
  | uriTrailingOctet => "found an incorrect trailing UTF-8 octet"
  | zeroIndent => "found an indentation indicator equal to 0"
  | tabIndent => "found a tab character where an indentation space is expected"
  | documentMark => "found unexpected document indicator"
  | unexpectedEnd => "found unexpected end of stream"
  | unknownEscape => "found unknown escape character"
  | hexDigits => "did not find expected hexdecimal number"
  | escapedCharacter => "found invalid Unicode character escape code"
  | tabViolation => "found a tab character that violates indentation"
  | missingDocumentStart => "did not find expected <document start>"
  | incompatibleVersion => "found incompatible YAML document"
  | duplicateVersion => "found duplicate %YAML directive"
  | duplicateTagDirective => "found duplicate %TAG directive"
  | undefinedHandle => "found undefined tag handle"
  | missingContent => "did not find expected node content"
  | missingDash => "did not find expected '-' indicator"
  | missingKey => "did not find expected key"
  | missingSequenceEnd => "did not find expected ',' or ']'"
  | missingMappingEnd => "did not find expected ',' or '\x7d'"
  | unknownAnchor name => "unknown anchor '" ++ name ++ "' referenced"
  | selfContaining name => "anchor '" ++ name ++ "' value contains itself"
  | badMerge => "map merge requires map or sequence of maps as the value"
  | badBinary => "!!binary value contains invalid base64 data"
  | badKey => "invalid map key"
  | badTag found text wanted =>
    "cannot decode " ++ found.name ++ " `" ++ text ++ "` as a " ++ wanted.name

end Problem

/-- A place in the characters of a document; lines and columns count from zero. -/
structure Mark where
  index : Nat := 0
  line : Nat := 0
  column : Nat := 0
  deriving Repr, DecidableEq, Inhabited

/-- A problem and the line it is reported for, zero if there is none. -/
structure SyntaxError where
  line : Nat := 0
  problem : Problem
  deriving Repr, DecidableEq, Inhabited

namespace SyntaxError

/-- The first of two lines that is not the first line of the document, or zero. -/
def lineOf (began stopped : Nat) : Nat :=
  if began != 0 then began else stopped

/-- An error in a token that began at one place and was given up at another. -/
def inToken (began stopped : Mark) (p : Problem) : SyntaxError :=
  let line := lineOf began.line stopped.line
  ⟨if line == 0 then 0 else line + 1, p⟩

/-- An error in the arrangement of tokens. -/
def inArrangement (began stopped : Nat) (p : Problem) : SyntaxError :=
  ⟨lineOf began stopped, p⟩

/-- The line of a syntax error as it appears in its wording. -/
def place (e : SyntaxError) : Bytes :=
  if e.line == 0 then [] else "line " ++ Decimal.ofNat e.line ++ ": "

/-- The wording of a syntax error. -/
def message (e : SyntaxError) : Bytes :=
  "yaml: " ++ e.place ++ e.problem.message

end SyntaxError

end ForthFrontend.Yaml
