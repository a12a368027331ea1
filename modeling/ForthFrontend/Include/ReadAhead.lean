import ForthFrontend.Include

/-!
# Reading files ahead

Files that directives name can be composed before the directives are resolved. The outcome of each
composition, atoms or failure, is held under the identity of the file until it is taken, and it can
be taken once. A file that is held already is not composed again.

Several workers may compose files at once, so outcomes arrive in any order. A `Schedule` says in
which order the jobs of a request finish.

## Main definitions

* `Include.Job`: a file to compose, with the identity to hold its outcome under.
* `Include.ReadAhead`: the outcomes held.
* `Include.ReadAhead.request`: composes the files of some jobs that are not held yet.
* `Include.ReadAhead.take`: gives an outcome away.
-/

namespace ForthFrontend.Include

/-- What composing a file gives. -/
abbrev Outcome := Except Failure (List Atom)

/-- A file to compose ahead: the identity to hold its outcome under and the path to open. -/
structure Job where
  identity : Path
  path : Path
  deriving Repr, DecidableEq, Inhabited

/-- A finished job with its outcome. -/
structure Held where
  job : Job
  outcome : Outcome

/-- The outcomes held, at most one for each identity. -/
abbrev ReadAhead := List Held

/-- The order in which the jobs of each request finish, requests being numbered. -/
structure Schedule where
  order : Nat → List Job → List Job
  perm : ∀ n jobs, (order n jobs).Perm jobs

/-- Jobs finish in the order they are given in. -/
def Schedule.inOrder : Schedule where
  order := fun _ jobs => jobs
  perm := fun _ jobs => List.Perm.refl jobs

namespace ReadAhead

/-- Is an outcome held under `id`? -/
def has (r : ReadAhead) (id : Path) : Bool :=
  r.any (·.job.identity == id)

/-- The outcome held under `id`. -/
def get? (r : ReadAhead) (id : Path) : Option Outcome :=
  (r.find? (·.job.identity == id)).map Held.outcome

/-- What is held under other identities than `id`. -/
def erase (r : ReadAhead) (id : Path) : ReadAhead :=
  r.filter (·.job.identity != id)

/-- Gives away the outcome held under `id`. -/
def take (r : ReadAhead) (id : Path) : Option Outcome × ReadAhead :=
  (r.get? id, r.erase id)

/-- Holds a finished job, in place of what was held under its identity. -/
def store (r : ReadAhead) (h : Held) : ReadAhead :=
  h :: r.erase h.job.identity

/-- The jobs whose identities are not held. -/
def missing (r : ReadAhead) (jobs : List Job) : List Job :=
  jobs.filter fun j => !r.has j.identity

/-- Composes the files of the jobs in the order given and holds the outcomes. -/
def run (compose : Path → Outcome) (r : ReadAhead) (finished : List Job) : ReadAhead :=
  finished.foldl (fun r j => r.store ⟨j, compose j.path⟩) r

/-- Composes the files of the jobs that are not held yet; `order` says in which order they finish.
A cancelled request with something to compose fails and holds nothing new. -/
def request (compose : Path → Outcome) (order : List Job → List Job) (cancelled : Bool)
    (jobs : List Job) (r : ReadAhead) : Except Failure ReadAhead :=
  let todo := r.missing jobs
  if cancelled && !todo.isEmpty then .error .cancelled else .ok (r.run compose (order todo))

end ReadAhead

end ForthFrontend.Include
