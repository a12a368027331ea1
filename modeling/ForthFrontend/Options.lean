import ForthFrontend.Failure
import ForthFrontend.Text.Space

/-!
# Options of a compilation

What a compilation is asked to do. The kind of image is kept as the text it was given as and is
checked, with the other values that later stages rely on, before a compilation starts.
-/

namespace ForthFrontend

/-- The kinds of images. -/
inductive Target where
  /-- A standalone executable. -/
  | exe
  /-- A linkable library. -/
  | dll
  deriving Repr, DecidableEq, Inhabited

namespace Target

/-- The name of a kind of image, which is also the extension of such images. -/
def name : Target → Bytes
  | exe => "exe"
  | dll => "dll"

/-- The kind of image that a text names, in any letter case and with white space around it. -/
def ofText? (text : Bytes) : Option Target :=
  [exe, dll].find? (·.name == (Bytes.trimSpace text).toLower)

/-- The kind of image that a text names, or the complaint that it names none. -/
def ofText (text : Bytes) : Except OptionFault Target :=
  match ofText? text with
  | some target => .ok target
  | none => .error (.unknownTarget text)

end Target

/-- The options of a single compilation. -/
structure CompileOptions where
  source : Path
  /-- The image to write; if empty, its name is made from the source and the kind of image. -/
  output : Path := []
  target : Bytes := Target.name .exe
  checkStack : Bool := true
  /-- The capacity of the data stack in cells. -/
  forthStackSize : Int64 := 524288
  /-- The capacity of the return stack in cells. -/
  returnStackSize : Int64 := 1024
  /-- Are string literals left open at the end of a line refused? -/
  strictStrings : Bool := false
  /-- How many workers read included files ahead; one or less means that nothing is read ahead. -/
  parallel : Int64 := 1
  deriving Repr, DecidableEq, Inhabited

namespace CompileOptions

/-- The path of the image. -/
def outputPath (o : CompileOptions) : Path :=
  if o.output.isEmpty then
    o.source.stem ++ Bytes.dot :: (if o.target.isEmpty then Target.name .exe else o.target)
  else o.output

/-- Checks the values that later stages rely on. -/
def validate (o : CompileOptions) : Except OptionFault Unit := do
  if Bytes.isBlank o.source then throw .noSource
  let _ ← Target.ofText o.target
  if o.forthStackSize ≤ 0 then throw (.forthStackSize o.forthStackSize)
  if o.returnStackSize ≤ 0 then throw (.returnStackSize o.returnStackSize)

end CompileOptions

end ForthFrontend
