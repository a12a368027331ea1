import ForthFrontend.Manifest
import ForthFrontend.Proofs.Disk

/-!
# Disks with the same tree

Two disks match if they have the same directories and the same files, with contents that are related
in a given way, and the same flaw, if any. Walks look at the tree only, so paths lead to the same
places on both. Writing makes directories and sets contents without reading any, so it fails on both
or on neither, and the disks it leaves match again.

## Main definitions

* `Disk.Matches`: same tree, related contents.

## Main results

* `Disk.Matches.locate_eq`, `Disk.Matches.find_cases`: paths on matching disks.
* `Disk.Matches.write`: writing on matching disks.
* `Disk.Matches.generate_eq`: generating an image on matching disks.
-/

namespace ForthFrontend

namespace Disk

/-- Both are directories, or both are files with related contents. -/
inductive Entry.Matches (R : Bytes → Bytes → Prop) : Entry → Entry → Prop
  | directory : Matches R .directory .directory
  | file {content content' : Bytes} (h : R content content') :
    Matches R (.file content) (.file content')

/-- The disks have the same tree and the same flaw, and files that stand at the same location have
related contents. -/
structure Matches (R : Bytes → Bytes → Prop) (d d' : Disk) : Prop where
  workDir : d'.workDir = d.workDir
  flaw? : d'.flaw? = d.flaw?
  lookup? : ∀ l, Option.Rel (Entry.Matches R) (d.lookup? l) (d'.lookup? l)

namespace Matches

variable {R : Bytes → Bytes → Prop} {d d' : Disk}

/-! ### Walks -/

theorem cases (h : d.Matches R d') (l : Location) :
    (d.lookup? l = none ∧ d'.lookup? l = none) ∨
    (d.lookup? l = some .directory ∧ d'.lookup? l = some .directory) ∨
    ∃ content content', R content content' ∧ d.lookup? l = some (.file content) ∧
      d'.lookup? l = some (.file content') := by
  have hrel := h.lookup? l
  generalize d.lookup? l = x, d'.lookup? l = y at hrel
  cases hrel with
  | none => exact .inl ⟨rfl, rfl⟩
  | some he =>
    cases he with
    | directory => exact .inr (.inl ⟨rfl, rfl⟩)
    | file hc => exact .inr (.inr ⟨_, _, hc, rfl, rfl⟩)

theorem isNone_lookup? (h : d.Matches R d') (l : Location) :
    (d'.lookup? l).isNone = (d.lookup? l).isNone := by
  obtain ⟨hl, hl'⟩ | ⟨hl, hl'⟩ | ⟨_, _, -, hl, hl'⟩ := h.cases l <;> simp [hl, hl']

theorem start_eq (h : d.Matches R d') (p : Path) : d'.start p = d.start p := by
  rw [start, start, h.workDir]

theorem identity_eq (h : d.Matches R d') (p : Path) : d'.identity p = d.identity p := by
  rw [identity, identity, destination, destination, h.start_eq]

theorem step_eq (h : d.Matches R d') : d'.step = d.step := by
  funext l e
  rw [step, step, h.isNone_lookup?]
  obtain ⟨hl, hl'⟩ | ⟨hl, hl'⟩ | ⟨_, _, -, hl, hl'⟩ := h.cases l <;> rw [hl, hl']

theorem locate_eq (h : d.Matches R d') (p : Path) : d'.locate p = d.locate p := by
  rw [locate, locate, h.step_eq, h.start_eq]

/-- **A path leads to the same place** on matching disks, or nowhere for the same reason. -/
theorem find_cases (h : d.Matches R d') (p : Path) :
    (∃ c, d.find p = .error c ∧ d'.find p = .error c) ∨
    ∃ e e', e.Matches R e' ∧ d.find p = .ok e ∧ d'.find p = .ok e' := by
  rw [find, find, h.locate_eq]
  cases d.locate p with
  | error c => exact .inl ⟨c, rfl, rfl⟩
  | ok l =>
    simp only [bind, Except.bind]
    obtain ⟨hl, hl'⟩ | ⟨hl, hl'⟩ | ⟨_, _, hc, hl, hl'⟩ := h.cases l <;> rw [hl, hl']
    · exact .inl ⟨_, rfl, rfl⟩
    · exact .inr ⟨_, _, .directory, rfl, rfl⟩
    · exact .inr ⟨_, _, .file hc, rfl, rfl⟩

theorem hasPath_eq (h : d.Matches R d') (p : Path) : d'.hasPath p = d.hasPath p := by
  obtain ⟨c, hfind, hfind'⟩ | ⟨e, e', -, hfind, hfind'⟩ := h.find_cases p
  · rw [hasPath, hasPath, hfind, hfind']
  · rw [hasPath, hasPath, hfind, hfind']
    rfl

theorem includePath_eq (h : d.Matches R d') (source target : Path) :
    d'.includePath source target = d.includePath source target := by
  simp only [includePath, h.hasPath_eq]

/-! ### Changes -/

theorem put (h : d.Matches R d') {e e' : Entry} (he : e.Matches R e') (l : Location) :
    (d.put l e).Matches R (d'.put l e') := by
  refine ⟨h.workDir, h.flaw?, fun m => ?_⟩
  by_cases hm : m = l
  · subst hm
    by_cases hroot : m = []
    · subst hroot
      exact .some .directory
    · rw [lookup?_put_self hroot, lookup?_put_self hroot]
      exact .some he
  · rw [lookup?_put_of_ne hm, lookup?_put_of_ne hm]
    exact h.lookup? m

theorem creationPoint_eq (h : d.Matches R d') (p : Path) :
    d'.creationPoint p = d.creationPoint p := by
  rw [creationPoint, creationPoint, h.step_eq, h.start_eq]
  cases checkPath p with
  | error c => rfl
  | ok u =>
    simp only [bind, Except.bind]
    cases (lastElement p).1.elements.foldlM d.step (d.start p) with
    | error c => rfl
    | ok l =>
      simp only
      obtain ⟨hl, hl'⟩ | ⟨hl, hl'⟩ | ⟨_, _, -, hl, hl'⟩ := h.cases l <;> rw [hl, hl']

end Matches

/-- Both attempts fail for the same reason or neither fails, and the disks they leave match. -/
structure Change.Matches (R : Bytes → Bytes → Prop) (c c' : Change) : Prop where
  error? : c'.error? = c.error?
  disk : c.disk.Matches R c'.disk

namespace Matches

variable {R : Bytes → Bytes → Prop} {d d' : Disk}

theorem refuse (h : d.Matches R d') (action : DiskAction) (p : Path) (cause : DiskCause) :
    (d.refuse action p cause).Matches R (d'.refuse action p cause) :=
  ⟨rfl, h⟩

theorem andThen {c c' : Change} (h : c.Matches R c') {next : Disk → Change}
    (hnext : ∀ {d d'}, d.Matches R d' → (next d).Matches R (next d')) :
    (c.andThen next).Matches R (c'.andThen next) := by
  rw [Change.andThen, Change.andThen, h.error?]
  split
  · exact h
  · exact hnext h.disk

theorem makeDirectory (h : d.Matches R d') (p : Path) :
    (d.makeDirectory p).Matches R (d'.makeDirectory p) := by
  rw [Disk.makeDirectory, Disk.makeDirectory, h.creationPoint_eq]
  cases d.creationPoint p with
  | error c => exact h.refuse _ p c
  | ok l => exact ⟨rfl, h.put .directory l⟩

theorem makeDirectories (h : d.Matches R d') (p : Path) :
    (d.makeDirectories p).Matches R (d'.makeDirectories p) := by
  -- the induction is on the path, whose parents are made first
  induction hn : p.length using Nat.strongRecOn generalizing p with
  | ind n ih =>
    rw [Disk.makeDirectories.eq_def d p, Disk.makeDirectories.eq_def d' p]
    obtain ⟨c, hfind, hfind'⟩ | ⟨e, e', he, hfind, hfind'⟩ := h.find_cases p
    · rw [hfind, hfind']
      simp only
      split
      · next hparent =>
        exact andThen (ih _ (hn ▸ length_parentPath_lt hparent) _ rfl)
          fun hd => hd.makeDirectory p
      · exact h.makeDirectory p
    · rw [hfind, hfind']
      cases he with
      | directory => exact ⟨rfl, h⟩
      | file => exact h.refuse _ p _

theorem makeWay (h : d.Matches R d') (p : Path) : (d.makeWay p).Matches R (d'.makeWay p) := by
  rw [Disk.makeWay, Disk.makeWay]
  split
  · exact ⟨rfl, h⟩
  · exact h.makeDirectories _

theorem overwrite (h : d.Matches R d') (hR : ∀ content, R content content) (p : Path)
    (content : Bytes) : (d.overwrite p content).Matches R (d'.overwrite p content) := by
  rw [Disk.overwrite, Disk.overwrite, h.creationPoint_eq]
  cases d.creationPoint p with
  | error c => exact h.refuse _ p c
  | ok l =>
    have hdir : (d'.lookup? l == some .directory) = (d.lookup? l == some .directory) := by
      obtain ⟨hl, hl'⟩ | ⟨hl, hl'⟩ | ⟨_, _, -, hl, hl'⟩ := h.cases l <;> simp [hl, hl']
    simp only [hdir]
    split
    · exact h.refuse _ p _
    · rw [reaching, reaching, breach?, breach?, h.flaw?]
      exact ⟨rfl, h.put (.file (hR _)) l⟩

/-- **Writing** fails on both disks or on neither, and leaves disks that match. -/
theorem write (h : d.Matches R d') (hR : ∀ content, R content content) (p : Path)
    (content : Bytes) : (d.write p content).Matches R (d'.write p content) :=
  andThen (h.makeWay p) fun hd => hd.overwrite hR p content

theorem save_eq (h : d.Matches R d') (hR : ∀ content, R content content) (report : Output.Report)
    (cancelled : Bool) (p : Path) (content : Bytes) :
    (Output.save report d' cancelled p content).toTraced =
      (Output.save report d cancelled p content).toTraced := by
  have hwrite :
      (Output.write d' cancelled p content).2 = (Output.write d cancelled p content).2 := by
    rw [Output.write, Output.write]
    split
    · rfl
    · exact congrArg (Option.map Cause.disk) (h.write hR p content).error?
  rw [Output.save, Output.save]
  generalize Output.write d cancelled p content = x at hwrite
  generalize Output.write d' cancelled p content = y at hwrite
  obtain ⟨disk, why⟩ := x
  obtain ⟨disk', why'⟩ := y
  obtain rfl : why' = why := hwrite
  cases why' <;> rfl

/-- **Generating an image** comes to the same on matching disks. -/
theorem generate_eq (h : d.Matches R d') (hR : ∀ content, R content content) (cancelled : Bool)
    (t : SymbolTables) (o : CompileOptions) :
    (Manifest.generate d' cancelled t o).toTraced =
      (Manifest.generate d cancelled t o).toTraced := by
  rw [Manifest.generate, Manifest.generate]
  split
  · rfl
  · exact h.save_eq hR _ _ _ _

end Matches

end Disk

end ForthFrontend
