import ForthFrontend.Proofs.Include.Step
import Mathlib.Logic.Relation

/-!
# Include trees

The atoms of a file are read from left to right in pairs of a directive and its target. Unfolding
every pair into the file it names gives a tree, which is infinite if files include each other in a
circle. Serial resolution, which rewrites one flat sequence, accepts exactly the finite trees in
which every file composes and no file occurs twice, and its result is the tree read depth first.

A directive at the very end of an included file would take its target from the including file. The
description by trees is for programs in which no file ends like that.

## Main definitions

* `Include.targets`, `Include.isLoose`: the pairs of a sequence, and a directive left over.
* `Include.IncludeTree`: unfolded sequences, with `IncludeTree.expand` and
  `IncludeTree.occurrences`.
* `Include.Unfolds`: a tree is the unfolding of a sequence.
* `Include.Paired`: no file that is reachable from a path has a directive left over.

## Main results

* `Include.Unfolds.run_eq`: a run replaces a sequence by its expansion.
* `Include.unfolds_of_run_eq_ok`: a run that succeeds has gone through a finite tree.
* `Include.resolve_eq_ok_iff_unfolds`: the two together.
-/

namespace ForthFrontend.Include

/-- The paths that the directives of a sequence name, each directive paired with the atom after
it. -/
def targets (d : Disk) : List Atom → List Path
  | a :: t :: rest =>
    if isDirective a then d.includePath a.file t.text :: targets d rest
    else targets d (t :: rest)
  | _ => []

/-- Is a directive without a target left over when the sequence is read in pairs? -/
def isLoose : List Atom → Bool
  | [] => false
  | [a] => isDirective a
  | a :: t :: rest => if isDirective a then isLoose rest else isLoose (t :: rest)

theorem targets_cons {d : Disk} {a : Atom} (ha : isDirective a = false) (rest : List Atom) :
    targets d (a :: rest) = targets d rest := by
  cases rest <;> simp [targets, ha]

theorem isLoose_cons {a : Atom} (ha : isDirective a = false) (rest : List Atom) :
    isLoose (a :: rest) = isLoose rest := by
  cases rest <;> simp [isLoose, ha]

theorem targets_pair {d : Disk} {a : Atom} (ha : isDirective a = true) (t : Atom)
    (rest : List Atom) :
    targets d (a :: t :: rest) = d.includePath a.file t.text :: targets d rest := by
  simp [targets, ha]

theorem isLoose_pair {a : Atom} (ha : isDirective a = true) (t : Atom) (rest : List Atom) :
    isLoose (a :: t :: rest) = isLoose rest := by
  simp [isLoose, ha]

/-- Induction over a sequence read in pairs. -/
theorem pair_induction {motive : List Atom → Prop} (nil : motive [])
    (cons : ∀ a rest, isDirective a = false → motive rest → motive (a :: rest))
    (loose : ∀ a, isDirective a = true → motive [a])
    (pair : ∀ a t rest, isDirective a = true → motive rest → motive (a :: t :: rest)) :
    ∀ atoms, motive atoms
  | [] => nil
  | [a] => by
    cases ha : isDirective a with
    | false => exact cons a [] ha nil
    | true => exact loose a ha
  | a :: t :: rest => by
    cases ha : isDirective a with
    | false => exact cons a (t :: rest) ha (pair_induction nil cons loose pair (t :: rest))
    | true => exact pair a t rest ha (pair_induction nil cons loose pair rest)

/-- Behind a sequence without a directive left over, pairs begin anew. -/
theorem targets_append (d : Disk) {l : List Atom} (hl : isLoose l = false) (m : List Atom) :
    targets d (l ++ m) = targets d l ++ targets d m := by
  induction l using pair_induction with
  | nil => simp [targets]
  | cons a rest ha ih =>
    rw [List.cons_append, targets_cons ha, targets_cons ha, ih (isLoose_cons ha rest ▸ hl)]
  | loose a ha => simp [isLoose, ha] at hl
  | pair a t rest ha ih =>
    rw [List.cons_append, List.cons_append, targets_pair ha, targets_pair ha,
      ih (isLoose_pair ha t rest ▸ hl), List.cons_append]

theorem isLoose_append {l : List Atom} (hl : isLoose l = false) (m : List Atom) :
    isLoose (l ++ m) = isLoose m := by
  induction l using pair_induction with
  | nil => rfl
  | cons a rest ha ih =>
    rw [List.cons_append, isLoose_cons ha, ih (isLoose_cons ha rest ▸ hl)]
  | loose a ha => simp [isLoose, ha] at hl
  | pair a t rest ha ih =>
    rw [List.cons_append, List.cons_append, isLoose_pair ha, ih (isLoose_pair ha t rest ▸ hl)]

theorem isLoose_of_directiveFree {l : List Atom} (h : DirectiveFree l) : isLoose l = false := by
  induction l with
  | nil => rfl
  | cons a l ih =>
    rw [isLoose_cons (h a List.mem_cons_self)]
    exact ih fun b hb => h b (List.mem_cons_of_mem _ hb)

/-! ### Trees -/

/-- A sequence of atoms in which every directive and its target stand for the file they name. -/
inductive IncludeTree where
  | done
  | atom (a : Atom) (rest : IncludeTree)
  /-- A file that composes, with its own atoms unfolded. -/
  | file (path : Path) (content rest : IncludeTree)
  /-- A file that does not compose. -/
  | broken (path : Path) (rest : IncludeTree)

namespace IncludeTree

/-- The atoms of a tree, files standing in the places of the directives that name them. -/
def expand : IncludeTree → List Atom
  | done => []
  | atom a rest => a :: rest.expand
  | file _ content rest => content.expand ++ rest.expand
  | broken _ rest => rest.expand

/-- The paths of the files that occur in a tree. -/
def occurrences : IncludeTree → List Path
  | done => []
  | atom _ rest => rest.occurrences
  | file path content rest => path :: (content.occurrences ++ rest.occurrences)
  | broken path rest => path :: rest.occurrences

/-- Does every file of the tree compose? -/
def isWhole : IncludeTree → Bool
  | done => true
  | atom _ rest => rest.isWhole
  | file _ content rest => content.isWhole && rest.isWhole
  | broken _ _ => false

/-- One tree behind another. -/
def append : IncludeTree → IncludeTree → IncludeTree
  | done, u => u
  | atom a rest, u => atom a (rest.append u)
  | file path content rest, u => file path content (rest.append u)
  | broken path rest, u => broken path (rest.append u)

theorem expand_append (t u : IncludeTree) : (t.append u).expand = t.expand ++ u.expand := by
  induction t with
  | done => rfl
  | atom a rest ih => simp [append, expand, ih]
  | file path content rest _ ih => simp [append, expand, ih]
  | broken path rest ih => simp [append, expand, ih]

theorem occurrences_append (t u : IncludeTree) :
    (t.append u).occurrences = t.occurrences ++ u.occurrences := by
  induction t with
  | done => rfl
  | atom a rest ih => simp [append, occurrences, ih]
  | file path content rest _ ih => simp [append, occurrences, ih]
  | broken path rest ih => simp [append, occurrences, ih]

theorem isWhole_append (t u : IncludeTree) : (t.append u).isWhole = (t.isWhole && u.isWhole) := by
  induction t with
  | done => simp [append, isWhole]
  | atom a rest ih => simp [append, isWhole, ih]
  | file path content rest _ ih => simp [append, isWhole, ih, Bool.and_assoc]
  | broken path rest ih => simp [append, isWhole]

end IncludeTree

/-- The tree is the unfolding of the sequence. A directive left over at the end stays an atom. -/
inductive Unfolds (s : Setting) : List Atom → IncludeTree → Prop where
  | done : Unfolds s [] .done
  | atom {a : Atom} {rest : List Atom} {t : IncludeTree} (ha : isDirective a = false)
      (hrest : Unfolds s rest t) : Unfolds s (a :: rest) (.atom a t)
  | loose {a : Atom} (ha : isDirective a = true) : Unfolds s [a] (.atom a .done)
  | file {a target : Atom} {rest content : List Atom} {t u : IncludeTree}
      (ha : isDirective a = true)
      (hc : s.compose (s.disk.includePath a.file target.text) = .ok content)
      (hcontent : Unfolds s content t) (hrest : Unfolds s rest u) :
      Unfolds s (a :: target :: rest) (.file (s.disk.includePath a.file target.text) t u)
  | broken {a target : Atom} {rest : List Atom} {f : Failure} {t : IncludeTree}
      (ha : isDirective a = true)
      (hc : s.compose (s.disk.includePath a.file target.text) = .error f)
      (hrest : Unfolds s rest t) :
      Unfolds s (a :: target :: rest) (.broken (s.disk.includePath a.file target.text) t)

namespace Unfolds

variable {s : Setting}

/-- Unfoldings of neighbouring sequences stand behind one another. -/
theorem append {l m : List Atom} {t u : IncludeTree} (h : Unfolds s l t) (hl : isLoose l = false)
    (hm : Unfolds s m u) : Unfolds s (l ++ m) (t.append u) := by
  induction h with
  | done => exact hm
  | atom ha _ ih => exact .atom ha (ih (isLoose_cons ha _ ▸ hl))
  | loose ha => simp [isLoose, ha] at hl
  | file ha hc hcontent _ _ ih => exact .file ha hc hcontent (ih (isLoose_pair ha _ _ ▸ hl))
  | broken ha hc _ ih => exact .broken ha hc (ih (isLoose_pair ha _ _ ▸ hl))

/-- How a sequence that begins with an atom other than a directive unfolds. -/
theorem of_cons {a : Atom} (ha : isDirective a = false) {rest : List Atom} {t : IncludeTree}
    (h : Unfolds s (a :: rest) t) : ∃ u, Unfolds s rest u ∧ t = .atom a u := by
  cases h with
  | atom _ hrest => exact ⟨_, hrest, rfl⟩
  | loose ha' => rw [ha] at ha'; cases ha'
  | file ha' _ _ _ => rw [ha] at ha'; cases ha'
  | broken ha' _ _ => rw [ha] at ha'; cases ha'

/-- How a sequence that begins with a directive and its target unfolds. -/
theorem of_pair {a target : Atom} (ha : isDirective a = true) {rest : List Atom} {t : IncludeTree}
    (h : Unfolds s (a :: target :: rest) t) :
    (∃ content u v, s.compose (s.disk.includePath a.file target.text) = .ok content ∧
      Unfolds s content u ∧ Unfolds s rest v ∧
      t = .file (s.disk.includePath a.file target.text) u v) ∨
    ∃ f v, s.compose (s.disk.includePath a.file target.text) = .error f ∧ Unfolds s rest v ∧
      t = .broken (s.disk.includePath a.file target.text) v := by
  cases h with
  | atom ha' _ => rw [ha] at ha'; cases ha'
  | file _ hc hcontent hrest => exact .inl ⟨_, _, _, hc, hcontent, hrest, rfl⟩
  | broken _ hc hrest => exact .inr ⟨_, _, hc, hrest, rfl⟩

/-- The unfolding of a sequence comes apart where the sequence does. -/
theorem split {l m : List Atom} (hl : isLoose l = false) {t : IncludeTree}
    (h : Unfolds s (l ++ m) t) :
    ∃ t₁ t₂, Unfolds s l t₁ ∧ Unfolds s m t₂ ∧ t = t₁.append t₂ := by
  induction l using pair_induction generalizing t with
  | nil => exact ⟨.done, t, .done, h, rfl⟩
  | cons a rest ha ih =>
    obtain ⟨u, hrest, rfl⟩ := of_cons ha h
    obtain ⟨t₁, t₂, h₁, h₂, rfl⟩ := ih (isLoose_cons ha rest ▸ hl) hrest
    exact ⟨.atom a t₁, t₂, .atom ha h₁, h₂, rfl⟩
  | loose a ha => simp [isLoose, ha] at hl
  | pair a target rest ha ih =>
    rw [isLoose_pair ha] at hl
    obtain ⟨content, u, v, hc, hcontent, hrest, rfl⟩ | ⟨f, v, hc, hrest, rfl⟩ := of_pair ha h
    · obtain ⟨t₁, t₂, h₁, h₂, rfl⟩ := ih hl hrest
      exact ⟨.file _ u t₁, t₂, .file ha hc hcontent h₁, h₂, rfl⟩
    · obtain ⟨t₁, t₂, h₁, h₂, rfl⟩ := ih hl hrest
      exact ⟨.broken _ t₁, t₂, .broken ha hc h₁, h₂, rfl⟩

/-- A sequence without directives unfolds to itself. -/
theorem of_directiveFree {l : List Atom} (h : DirectiveFree l) :
    ∃ t, Unfolds s l t ∧ t.isWhole = true ∧ t.occurrences = [] ∧ t.expand = l := by
  induction l with
  | nil => exact ⟨.done, .done, rfl, rfl, rfl⟩
  | cons a l ih =>
    obtain ⟨t, ht, hw, ho, he⟩ := ih fun b hb => h b (List.mem_cons_of_mem _ hb)
    exact ⟨.atom a t, .atom (h a List.mem_cons_self) ht, hw, ho, by rw [IncludeTree.expand, he]⟩

/-- A sequence has one unfolding. -/
theorem unique {l : List Atom} {t u : IncludeTree} (ht : Unfolds s l t) (hu : Unfolds s l u) :
    t = u := by
  induction ht generalizing u with
  | done => cases hu; rfl
  | atom ha _ ih =>
    obtain ⟨v, hrest, rfl⟩ := of_cons ha hu
    rw [ih hrest]
  | loose ha =>
    cases hu with
    | atom ha' _ => rw [ha] at ha'; cases ha'
    | loose _ => rfl
  | file ha hc _ _ ihc ihr =>
    obtain ⟨content, v, w, hc', hcontent, hrest, rfl⟩ | ⟨f, v, hc', -, -⟩ := of_pair ha hu
    · obtain rfl := Except.ok.inj (hc.symm.trans hc')
      rw [ihc hcontent, ihr hrest]
    · rw [hc] at hc'; cases hc'
  | broken ha hc _ ih =>
    obtain ⟨content, v, w, hc', -, -, -⟩ | ⟨f, v, -, hrest, rfl⟩ := of_pair ha hu
    · rw [hc] at hc'; cases hc'
    · rw [ih hrest]

end Unfolds

/-! ### Programs without directives left over -/

/-- One of the pairs of the file at `p` names the path `q`. -/
def Names (s : Setting) (p q : Path) : Prop :=
  ∃ content, s.compose p = .ok content ∧ q ∈ targets s.disk content

/-- No file that is reachable from `p` through pairs has a directive left over. -/
def Paired (s : Setting) (p : Path) : Prop :=
  ∀ q content, Relation.ReflTransGen (Names s) p q → s.compose q = .ok content →
    isLoose content = false

namespace Paired

variable {s : Setting} {p : Path} {content : List Atom}

theorem isLoose_eq (h : Paired s p) (hc : s.compose p = .ok content) : isLoose content = false :=
  h p content .refl hc

theorem of_mem_targets (h : Paired s p) (hc : s.compose p = .ok content) {q : Path}
    (hq : q ∈ targets s.disk content) : Paired s q :=
  fun r content' hr hc' => h r content' (.head ⟨content, hc, hq⟩ hr) hc'

end Paired

/-- No file occurs twice in the tree, and none that was included before. -/
def IncludeTree.Fresh (s : Setting) (visited : List Path) (t : IncludeTree) : Prop :=
  (t.occurrences.map s.disk.identity).Nodup ∧
    ∀ id ∈ t.occurrences.map s.disk.identity, id ∉ visited

/-- **A run expands.** A sequence with a whole and fresh unfolding is replaced by its expansion,
whatever stands before and behind it, and the files that occur in it count as included. -/
theorem Unfolds.run_eq {s : Setting} (hs : s.readsAhead = false) {l : List Atom} {t : IncludeTree}
    (h : Unfolds s l t) (hl : isLoose l = false) (hp : ∀ p ∈ targets s.disk l, Paired s p)
    (hw : t.isWhole = true) {visited : List Path} (hfresh : t.Fresh s visited)
    {front : List Atom} (hf : DirectiveFree front) (rest : List Atom) :
    DirectiveFree t.expand ∧
    (Resolution.plain s (front ++ l ++ rest) visited).run.result =
      (Resolution.plain s (front ++ t.expand ++ rest)
        ((t.occurrences.map s.disk.identity).reverse ++ visited)).run.result := by
  induction h generalizing visited front rest with
  | done => exact ⟨directiveFree_nil, rfl⟩
  | @atom a l t ha _ ih =>
    rw [isLoose_cons ha] at hl
    rw [targets_cons ha] at hp
    obtain ⟨hfree, hrun⟩ := ih hl hp hw hfresh (hf.concat ha) rest
    refine ⟨(directiveFree_nil.concat ha).append hfree, ?_⟩
    simpa [IncludeTree.expand, IncludeTree.occurrences] using hrun
  | loose ha => simp [isLoose, ha] at hl
  | @file a target l content t u ha hc _ _ ihc ihr =>
    rw [isLoose_pair ha] at hl
    rw [targets_pair ha] at hp
    obtain ⟨hpath, hpl⟩ := List.forall_mem_cons.1 hp
    obtain ⟨hwt, hwu⟩ : t.isWhole = true ∧ u.isWhole = true := by
      simpa [IncludeTree.isWhole] using hw
    simp only [IncludeTree.Fresh, IncludeTree.occurrences, List.map_cons, List.map_append,
      List.nodup_cons, List.nodup_append, List.forall_mem_cons, List.mem_append, not_or] at hfresh
    obtain ⟨⟨⟨hidt, hidu⟩, hnt, hnu, hdisj⟩, hid, hvis⟩ := hfresh
    -- first the file in place of the directive, then what follows the pair
    have hft : t.Fresh s (s.disk.identity (s.disk.includePath a.file target.text) :: visited) := by
      refine ⟨hnt, fun id hm => ?_⟩
      rw [List.mem_cons, not_or]
      exact ⟨fun e => hidt (e ▸ hm), hvis id (.inl hm)⟩
    obtain ⟨hfreet, hrunt⟩ := ihc (hpath.isLoose_eq hc)
      (fun q hq => hpath.of_mem_targets hc hq) hwt hft hf (l ++ rest)
    have hfu : u.Fresh s ((t.occurrences.map s.disk.identity).reverse ++
        s.disk.identity (s.disk.includePath a.file target.text) :: visited) := by
      refine ⟨hnu, fun id hm => ?_⟩
      rw [List.mem_append, List.mem_reverse, List.mem_cons, not_or, not_or]
      exact ⟨fun ht => hdisj id ht id hm rfl, fun e => hidu (e ▸ hm), hvis id (.inr hm)⟩
    obtain ⟨hfreeu, hrunu⟩ := ihr hl hpl hwu hfu (hf.append hfreet) rest
    refine ⟨hfreet.append hfreeu, ?_⟩
    have hseq : front ++ a :: target :: l ++ rest = front ++ a :: target :: (l ++ rest) := by simp
    rw [hseq, Resolution.run_spliced hs hf ha hid hc, hrunt, ← List.append_assoc, hrunu]
    simp [IncludeTree.expand, IncludeTree.occurrences]
  | broken => cases hw

/-- **A run goes through a tree.** If a serial run succeeds, the sequence it starts from has a whole
unfolding without repeated files, and the result is its expansion. -/
theorem unfolds_of_run_eq_ok {s : Setting} (hs : s.readsAhead = false) {l : List Atom}
    {visited : List Path} (hl : isLoose l = false) (hp : ∀ p ∈ targets s.disk l, Paired s p)
    {out : List Atom} (h : (Resolution.plain s l visited).run.result = .ok out) :
    ∃ t, Unfolds s l t ∧ t.isWhole = true ∧ t.Fresh s visited ∧ out = t.expand := by
  refine Resolution.serial_induction hs
    (motive := fun l visited result => isLoose l = false →
      (∀ p ∈ targets s.disk l, Paired s p) → result = .ok out →
      ∃ t, Unfolds s l t ∧ t.isWhole = true ∧ t.Fresh s visited ∧ out = t.expand)
    ?free ?last ?again ?failed ?spliced l visited hl hp h
  case free =>
    intro l visited hf _ _ h
    obtain ⟨t, ht, hw, ho, he⟩ := Unfolds.of_directiveFree (s := s) hf
    refine ⟨t, ht, hw, ?_, by rw [he, Except.ok.inj h]⟩
    simp [IncludeTree.Fresh, ho]
  case last => intro _ _ _ _ _ _ _ h; cases h
  case again => intro _ _ _ _ _ _ _ _ _ _ h; cases h
  case failed => intro _ _ _ _ _ _ _ _ _ _ _ _ h; cases h
  case spliced =>
    intro front a target rest visited content result hf ha hv hc ih hl hp h
    have hfl := isLoose_of_directiveFree hf
    rw [isLoose_append hfl, isLoose_pair ha] at hl
    rw [targets_append _ hfl, targets_pair ha] at hp
    have hpath : Paired s (s.disk.includePath a.file target.text) := hp _ (by simp)
    have hcl := hpath.isLoose_eq hc
    have hfcl : isLoose (front ++ content) = false := by rw [isLoose_append hfl, hcl]
    obtain ⟨t, ht, hw, ⟨hnodup, hvis⟩, rfl⟩ := ih (by rw [isLoose_append hfcl, hl]) (by
      intro p hmem
      rw [targets_append _ hfcl, targets_append _ hfl, List.mem_append, List.mem_append] at hmem
      rcases hmem with (hmem | hmem) | hmem
      · exact hp p (by simp [hmem])
      · exact hpath.of_mem_targets hc hmem
      · exact hp p (by simp [hmem])) h
    obtain ⟨t₁₂, t₃, h₁₂, h₃, rfl⟩ := Unfolds.split hfcl ht
    obtain ⟨t₁, t₂, h₁, h₂, rfl⟩ := Unfolds.split hfl h₁₂
    obtain ⟨u, hu, -, ho, -⟩ := Unfolds.of_directiveFree (s := s) hf
    obtain rfl := h₁.unique hu
    simp only [IncludeTree.occurrences_append, ho, List.nil_append, List.map_append] at hnodup hvis
    simp only [IncludeTree.isWhole_append, Bool.and_eq_true] at hw
    refine ⟨t₁.append (.file _ t₂ t₃), h₁.append hfl (.file ha hc h₂ h₃), ?_, ⟨?_, ?_⟩, ?_⟩
    · simp [IncludeTree.isWhole_append, IncludeTree.isWhole, hw]
    · simp only [IncludeTree.occurrences_append, ho, List.nil_append, IncludeTree.occurrences,
        List.map_cons, List.map_append, List.nodup_cons]
      exact ⟨fun hm => hvis _ hm List.mem_cons_self, hnodup⟩
    · simp only [IncludeTree.occurrences_append, ho, List.nil_append, IncludeTree.occurrences,
        List.map_cons, List.map_append, List.forall_mem_cons]
      exact ⟨hv, fun id hm hmem => hvis id hm (List.mem_cons_of_mem _ hmem)⟩
    · simp [IncludeTree.expand_append, IncludeTree.expand]

/-- **Serial resolution accepts include trees.** In a program whose files leave no directive over,
the resolution of the entry file's atoms succeeds with `out` exactly if their unfolding is a finite
tree in which every file composes, no identity occurs twice and the identity of the entry file does
not occur, and `out` is that tree read depth first. -/
theorem resolve_eq_ok_iff_unfolds {s : Setting} (hs : s.readsAhead = false) {entry : Path}
    {atoms : List Atom} (hc : s.compose entry = .ok atoms) (hp : Paired s entry)
    (out : List Atom) :
    (resolve s false entry atoms).result = .ok out ↔
      ∃ t, Unfolds s atoms t ∧ t.isWhole = true ∧
        (t.occurrences.map s.disk.identity).Nodup ∧
        s.disk.identity entry ∉ t.occurrences.map s.disk.identity ∧ out = t.expand := by
  have hl := hp.isLoose_eq hc
  have htargets : ∀ p ∈ targets s.disk atoms, Paired s p := fun _ => hp.of_mem_targets hc
  have hresolve : (resolve s false entry atoms).result =
      (Resolution.plain s atoms [s.disk.identity entry]).run.result := rfl
  rw [hresolve]
  constructor
  · intro h
    obtain ⟨t, ht, hw, ⟨hnodup, hvis⟩, rfl⟩ := unfolds_of_run_eq_ok hs hl htargets h
    exact ⟨t, ht, hw, hnodup, fun hm => hvis _ hm (by simp), rfl⟩
  · rintro ⟨t, ht, hw, hnodup, hentry, rfl⟩
    have hfresh : t.Fresh s [s.disk.identity entry] :=
      ⟨hnodup, fun id hm hmem => hentry (List.mem_singleton.1 hmem ▸ hm)⟩
    obtain ⟨hfree, hrun⟩ := ht.run_eq hs hl htargets hw hfresh directiveFree_nil []
    rw [List.nil_append, List.append_nil, List.nil_append, List.append_nil] at hrun
    rw [hrun, Resolution.run_free hs hfree]

/-! ### A program of three files -/

namespace ThreeFiles

/-- The entry file `m` includes `a`, which includes `b`. -/
def disk : Disk where
  workDir := []
  entries := [(["m"], .file "p LOAD a q"), (["a"], .file "LOAD b"), (["b"], .file "x")]

def entryAtoms : List Atom := [wordOf "p" "m", wordOf "LOAD" "m", wordOf "a" "m", wordOf "q" "m"]

theorem compose_entry : (Setting.serial disk false).compose "m" = .ok entryAtoms := by
  decide +kernel

theorem paired : Paired (Setting.serial disk false) "m" := by
  have ha : (Setting.serial disk false).compose "a" = .ok [wordOf "LOAD" "a", wordOf "b" "a"] := by
    decide +kernel
  have hb : (Setting.serial disk false).compose "b" = .ok [wordOf "x" "b"] := by decide +kernel
  have files : ∀ q, Relation.ReflTransGen (Names (Setting.serial disk false)) "m" q →
      q = "m" ∨ q = "a" ∨ q = "b" := by
    intro q h
    induction h with
    | refl => exact .inl rfl
    | tail _ hnames ih =>
      obtain ⟨content, hc, hq⟩ := hnames
      have hm : targets disk entryAtoms = [Bytes.ofString "a"] := by decide +kernel
      have hta : targets disk [wordOf "LOAD" "a", wordOf "b" "a"] = [Bytes.ofString "b"] := by
        decide +kernel
      have htb : targets disk [wordOf "x" "b"] = [] := by decide +kernel
      rcases ih with rfl | rfl | rfl
      · obtain rfl := Except.ok.inj (compose_entry.symm.trans hc)
        exact .inr (.inl (List.mem_singleton.1 (hm ▸ hq)))
      · obtain rfl := Except.ok.inj (ha.symm.trans hc)
        exact .inr (.inr (List.mem_singleton.1 (hta ▸ hq)))
      · obtain rfl := Except.ok.inj (hb.symm.trans hc)
        cases (htb ▸ hq : _ ∈ [])
  intro q content hq hc
  rcases files q hq with rfl | rfl | rfl
  · obtain rfl := Except.ok.inj (compose_entry.symm.trans hc)
    decide +kernel
  · obtain rfl := Except.ok.inj (ha.symm.trans hc)
    decide +kernel
  · obtain rfl := Except.ok.inj (hb.symm.trans hc)
    decide +kernel

end ThreeFiles

/-- The program of three files resolves to the atoms of its tree and to nothing else. -/
theorem resolve_eq_ok_iff_unfolds_threeFiles :
    (Setting.serial ThreeFiles.disk false).readsAhead = false ∧
    (Setting.serial ThreeFiles.disk false).compose "m" = .ok ThreeFiles.entryAtoms ∧
    Paired (Setting.serial ThreeFiles.disk false) "m" ∧
    ∀ out, (resolve (Setting.serial ThreeFiles.disk false) false "m"
        ThreeFiles.entryAtoms).result = .ok out ↔
      ∃ t, Unfolds (Setting.serial ThreeFiles.disk false) ThreeFiles.entryAtoms t ∧
        t.isWhole = true ∧ (t.occurrences.map ThreeFiles.disk.identity).Nodup ∧
        ThreeFiles.disk.identity "m" ∉ t.occurrences.map ThreeFiles.disk.identity ∧
        out = t.expand :=
  ⟨Setting.readsAhead_serial _ _, ThreeFiles.compose_entry, ThreeFiles.paired,
    resolve_eq_ok_iff_unfolds (Setting.readsAhead_serial _ _) ThreeFiles.compose_entry
      ThreeFiles.paired⟩

end ForthFrontend.Include
