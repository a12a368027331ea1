import ForthFrontend.Journal

/-!
# Writing results

The files a run leaves behind are written through one function, so that a cancelled run writes
nothing and every attempt is recorded.

## Main definitions

* `Output.write`: writes a file unless the run is cancelled.
* `Output.save`: the same, with the outcome in the journal.
-/

namespace ForthFrontend.Output

/-- Writes a file, unless the run is cancelled: the disk this leaves, and why it failed if it
did. -/
def write (d : Disk) (cancelled : Bool) (path : Path) (content : Bytes) : Disk × Option Cause :=
  if cancelled then (d, some (.fault .cancelled))
  else
    let change := d.write path content
    (change.disk, change.error?.map .disk)

/-- How the outcome of writing a file is recorded and reported. -/
structure Report where
  done : Path → Event
  undone : Path → Event
  failure : Path → Cause → Failure

/-- Writes a file and records the outcome. -/
def save (report : Report) (d : Disk) (cancelled : Bool) (path : Path) (content : Bytes) :
    Recorded Path :=
  match write d cancelled path content with
  | (after, none) => { journal := [report.done path], result := .ok path, disk := after }
  | (after, some why) =>
    { journal := [report.undone path], result := .error (report.failure path why), disk := after }

end ForthFrontend.Output
