import ForthFrontend.Failure

/-!
# Journals

A run keeps a journal of what it did. The journal is what the log file shows, cut off below a chosen
level, and what statements about a run refer to when they speak about the order of its steps.
-/

namespace ForthFrontend

/-- The stages of a compilation. -/
inductive Stage where
  | parse
  | analyze
  | generate
  deriving Repr, DecidableEq, Inhabited

/-- The name of a stage. -/
def Stage.name : Stage → Bytes
  | parse => "parse"
  | analyze => "analyze"
  | generate => "generate"

/-- Something a run did or met. -/
inductive Event where
  | sourceUnopened (path : Path)
  | sourceComposed (path : Path)
  | includePrefetched (path : Path)
  | includeSpliced (path : Path)
  | includeTargetMissing (directive : Atom)
  | includeRepeated (directive : Atom) (target : Bytes)
  | symbolsResolved
  | imageUnwritten (path : Path)
  | imageWritten (path : Path)
  | stageStarted (stage : Stage)
  | stageFailed (stage : Stage)
  | stageFinished (stage : Stage)
  | compilationFinished
  | compilationFailed
  | parsingFailed
  | dumpUnloaded (path : Path)
  | dumpUnwritten (path : Path)
  | dumpSaved (path : Path)
  deriving Repr, DecidableEq, Inhabited

/-- How important an event is. -/
inductive Level where
  | debug
  | info
  | warn
  | error
  deriving Repr, DecidableEq, Inhabited

namespace Level

/-- The name of a level. -/
def name : Level → Bytes
  | debug => "DEBUG"
  | info => "INFO"
  | warn => "WARN"
  | error => "ERROR"

/-- The number of a level; more important levels have greater numbers. -/
def rank : Level → Int
  | debug => -4
  | info => 0
  | warn => 4
  | error => 8

end Level

namespace Event

/-- The level of an event. -/
def level : Event → Level
  | sourceUnopened _ | includeTargetMissing _ | includeRepeated _ _ | imageUnwritten _
  | stageFailed _ | compilationFailed | parsingFailed | dumpUnloaded _ | dumpUnwritten _ => .error
  | imageWritten _ | compilationFinished => .info
  | sourceComposed _ | includePrefetched _ | includeSpliced _ | symbolsResolved
  | stageStarted _ | stageFinished _ | dumpSaved _ => .debug

/-- The wording of an event. -/
def message : Event → Bytes
  | sourceUnopened _ => "Failed to open source"
  | sourceComposed _ => "Composed source"
  | includePrefetched _ => "Prefetched include"
  | includeSpliced _ => "Spliced include"
  | includeTargetMissing _ => "LOAD without file name"
  | includeRepeated _ _ => "Circular include"
  | symbolsResolved => "Resolved symbols"
  | imageUnwritten _ => "Failed to write image"
  | imageWritten _ => "Image written"
  | stageStarted _ => "Stage started"
  | stageFailed _ => "Stage failed"
  | stageFinished _ => "Stage finished"
  | compilationFinished => "Compilation finished"
  | compilationFailed => "Compilation failed"
  | parsingFailed => "Parsing failed"
  | dumpUnloaded _ => "Loading atom dump failed"
  | dumpUnwritten _ => "Failed to write atom dump"
  | dumpSaved _ => "Saved atom dump"

end Event

/-- The events of a run, in order. -/
abbrev Journal := List Event

/-- A result or failure together with the journal of how it came about. -/
structure Traced (α : Type) where
  journal : Journal
  result : Except Failure α

/-- A run that may change the disk: journal, result or failure, and the disk it leaves. -/
structure Recorded (α : Type) extends Traced α where
  disk : Disk

end ForthFrontend
