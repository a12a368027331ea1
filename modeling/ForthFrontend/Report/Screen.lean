import ForthFrontend.Report.Notice

/-!
# Screens

Where the notices of a run are shown. On a terminal, a listing in styled text that is too tall is
not written out but opened in the pager, and the pager may fail. The output channel may take only so
many bytes; who writes a document to it learns that, who tells a notice does not.

## Main definitions

* `Terminal`, `Limit`, `Screen`: what notices are shown on.
* `Screen.pager?`: the pager that a listing is opened in.
* `Screen.appearance`, `Screen.fault?`: how a notice is shown, and why it cannot be shown.
* `Screen.refusal?`, `Screen.reached`: what the output channel has no room for, and what it takes.
-/

namespace ForthFrontend

/-- The terminal behind the output channel. -/
structure Terminal where
  width : Int64
  /-- The lines of the terminal. If there are none, its size is not known. -/
  height : Int64
  /-- The wording of the failure of the pager, if it fails. -/
  pagerFault? : Option Bytes := none
  deriving Repr, DecidableEq, Inhabited

/-- How a channel refuses what it has no room for. -/
structure Limit where
  room : Nat
  why : Bytes
  deriving Repr, DecidableEq, Inhabited

/-- What notices are shown on. -/
structure Screen where
  look : Look := .plain
  /-- The terminal behind the output channel, if there is one. -/
  terminal? : Option Terminal := none
  /-- The limit of the output channel, if it has one. -/
  limit? : Option Limit := none
  deriving Repr, DecidableEq, Inhabited

/-- Does a text fit on the terminal, next to what else the pager shows? -/
def Terminal.fits (t : Terminal) (text : Bytes) : Bool :=
  t.height ≤ 0 || (text.count Bytes.lf + 1 : Int) ≤ t.height.toInt - Pager.chrome.toInt

/-- The title of a listing; other notices have none. -/
def Notice.title? : Notice → Option Bytes
  | map _ => some "map"
  | atoms _ => some "atoms"
  | _ => none

namespace Screen

/-- The pager that a notice is opened in: a listing in styled text that does not fit. -/
def pager? (s : Screen) (n : Notice) : Option Pager :=
  match s.look, s.terminal?, n.title? with
  | .styled _, some t, some title =>
    let text := (n.present s.look).out
    if t.fits text then none else some (.start title text t.width.toInt t.height.toInt)
  | _, _, _ => none

/-- The notice as it is shown. -/
def appearance (s : Screen) (n : Notice) : Notice :=
  (s.pager? n).elim n .paged

/-- Why a notice cannot be shown, if it cannot: it is opened in the pager, and the pager fails. -/
def fault? (s : Screen) (n : Notice) : Option Fault :=
  (s.pager? n).bind fun _ => s.terminal?.bind fun t => t.pagerFault?.map .other

/-- The limit that a document meets, if there is no room for it. -/
def refusal? (s : Screen) (document : Bytes) : Option Limit :=
  s.limit?.filter fun l => l.room < document.length

/-- What reaches the channels, the output channel as far as it has room. -/
def reached (s : Screen) (shown : Shown) : Shown :=
  { shown with out := s.limit?.elim shown.out fun l => shown.out.take l.room }

end Screen

end ForthFrontend
