import ForthFrontend.Proofs.Disk.Sibling
import ForthFrontend.Proofs.Include.ReadAhead
import ForthFrontend.Proofs.Scan

/-!
# Including a file is including its text

A directive on a line of its own can be replaced by the text of the file it names. The two programs
are resolved in step: the part in front of the directive is resolved first and in the same way, and
behind it the sequences differ only in the lines of their atoms and in the names, but not the
directories, of the files that atoms come from. What a step does depends on nothing else.

## Main definitions

* `Atom.view`: what resolution depends on.
* `Include.Meets`: the paths that the directives of a run name.

## Main results

* `Include.Resolution.reaches_append`: a sequence in front of another one is resolved first.
* `Include.Resolution.run_agree`: sequences with the same view are resolved in step.
* `Include.parse_load_eq_parse_inlined`: a directive and the text of its file mean the same.
-/

namespace ForthFrontend

/-- What the resolution of directives depends on. -/
def Atom.view (a : Atom) : Bytes × AtomKind × Path :=
  (a.text, a.kind, a.file.dir)

namespace Include

/-- Some directive that the run of a program meets names the path. -/
def Meets (s : Setting) (entry path : Path) : Prop :=
  ∃ front directive target rest, Passes s entry (front ++ directive :: target :: rest) ∧
    DirectiveFree front ∧ isDirective directive = true ∧
    path = s.disk.includePath directive.file target.text

/-! ### Views -/

section Views

variable {a b t u : Atom} {l m : List Atom}

theorem isDirective_of_view (h : a.view = b.view) : isDirective a = isDirective b := by
  simp only [Atom.view, Prod.mk.injEq] at h
  rw [isDirective, isDirective, Atom.isWord, Atom.isWord, h.1, h.2.1]

theorem includePath_of_view (d : Disk) (h : a.view = b.view) (ht : t.view = u.view) :
    d.includePath a.file t.text = d.includePath b.file u.text := by
  simp only [Atom.view, Prod.mk.injEq] at h ht
  rw [Disk.includePath, Disk.includePath, h.2.2, ht.1]

theorem directiveFree_of_view (h : l.map Atom.view = m.map Atom.view) (hm : DirectiveFree m) :
    DirectiveFree l := by
  intro a ha
  obtain ⟨b, hb, hview⟩ := List.mem_map.1 (h ▸ List.mem_map_of_mem ha)
  rw [isDirective_of_view hview.symm]
  exact hm b hb

/-- Both fail, or both succeed with the same view. -/
def Agree (x y : Except Failure (List Atom)) : Prop :=
  x.toOption.map (·.map Atom.view) = y.toOption.map (·.map Atom.view)

end Views

namespace Resolution

variable {s : Setting}

/-! ### Runs as sequences of steps -/

section Steps

variable {r r' : Resolution s} {front rest included : List Atom} {d t : Atom} {visited : List Path}

theorem next_spliced (hs : s.readsAhead = false) (hf : DirectiveFree front)
    (hd : isDirective d = true)
    (hv : s.disk.identity (s.disk.includePath d.file t.text) ∉ visited)
    (hc : s.compose (s.disk.includePath d.file t.text) = .ok included) :
    Next (plain s (front ++ d :: t :: rest) visited) (plain s (front ++ included ++ rest)
      (s.disk.identity (s.disk.includePath d.file t.text) :: visited)) := by
  rw [Next, step_serial hs,
    replaceFirst_spliced hf hd rfl hv ((fetch_plain _ visited _ _).trans hc)]
  rfl

/-- A step that goes on has included the file that the first directive names. -/
theorem visited_of_next (hs : s.readsAhead = false) (h : Next r r') :
    ∃ front d t rest, r.atoms = front ++ d :: t :: rest ∧ DirectiveFree front ∧
      isDirective d = true ∧
      r'.visited = s.disk.identity (s.disk.includePath d.file t.text) :: r.visited := by
  rw [Next, step_serial hs] at h
  obtain hf | ⟨front, d, hf, hd, ha⟩ | ⟨front, d, t, rest, hf, hd, ha⟩ :=
    firstDirective_cases r.atoms
  · rw [replaceFirst_free hf] at h
    cases h
  · rw [replaceFirst_last hf hd ha] at h
    cases h
  · refine ⟨front, d, t, rest, ha, hf, hd, ?_⟩
    by_cases hv : s.disk.identity (s.disk.includePath d.file t.text) ∈ r.visited
    · rw [replaceFirst_repeated hf hd ha hv] at h
      cases h
    · cases hc : (r.fetch (s.disk.identity (s.disk.includePath d.file t.text))
          (s.disk.includePath d.file t.text)).1 with
      | error f =>
        rw [replaceFirst_failed hf hd ha hv hc] at h
        cases h
      | ok included =>
        rw [replaceFirst_spliced hf hd ha hv hc] at h
        cases h
        rfl

theorem run_result_of_reaches (h : Relation.ReflTransGen Next r r') :
    r.run.result = r'.run.result := by
  induction h with
  | refl => rfl
  | tail _ hnext ih =>
    rw [ih, run_result, hnext]

/-- No directive that is met from here on names a file with the identity `x`. -/
def Avoids (x : Path) (r : Resolution s) : Prop :=
  ∀ r', Relation.ReflTransGen Next r r' → ∀ front d t rest, r'.atoms = front ++ d :: t :: rest →
    DirectiveFree front → isDirective d = true →
    s.disk.identity (s.disk.includePath d.file t.text) ≠ x

theorem Avoids.of_reaches {x : Path} (h : Avoids x r) (hr : Relation.ReflTransGen Next r r') :
    Avoids x r' :=
  fun r'' hr'' => h r'' (hr.trans hr'')

theorem Avoids.of_pair {x : Path} (h : Avoids x (plain s (front ++ d :: t :: rest) visited))
    (hf : DirectiveFree front) (hd : isDirective d = true) :
    s.disk.identity (s.disk.includePath d.file t.text) ≠ x :=
  h _ .refl front d t rest rfl hf hd

/-- A file that no directive names is not included. -/
theorem Avoids.notMem_visited {x : Path} (hs : s.readsAhead = false) (h : Avoids x r)
    (hx : x ∉ r.visited) (hr : Relation.ReflTransGen Next r r') : x ∉ r'.visited := by
  induction hr with
  | refl => exact hx
  | tail hreach hnext ih =>
    obtain ⟨front, d, t, rest, ha, hf, hd, hvisited⟩ := visited_of_next hs hnext
    rw [hvisited, List.mem_cons, not_or]
    exact ⟨(h _ hreach front d t rest ha hf hd).symm, ih⟩

end Steps

/-! ### Two disks -/

section Disks

variable {disk disk' : Disk} {entry : Path} {content content' : Bytes}

theorem compose_of_replaces (h : disk.Replaces disk' entry content')
    (hentry : disk.read entry = .ok content) {path : Path}
    (hne : disk.identity path ≠ disk.identity entry) :
    (Setting.serial disk' false).compose path = (Setting.serial disk false).compose path := by
  show Source.compose disk' false false path = Source.compose disk false false path
  rw [Source.compose, Source.compose, Source.openFile, Source.openFile, h.openFile_eq hentry hne]

theorem includePath_of_replaces (h : disk.Replaces disk' entry content')
    (hentry : disk.read entry = .ok content) {d d' t t' : Atom} (hd : d'.view = d.view)
    (ht : t'.view = t.view) : (Setting.serial disk' false).disk.includePath d'.file t'.text =
      disk.includePath d.file t.text :=
  (includePath_of_view disk' hd ht).trans (h.includePath_eq hentry _ _)

theorem identity_of_replaces (h : disk.Replaces disk' entry content') (path : Path) :
    (Setting.serial disk' false).disk.identity path = disk.identity path :=
  h.identity_eq path

/-- Where one sequence has its first directive, a sequence with the same view has one that names the
same path on the other disk. -/
theorem exists_pair_of_view (h : disk.Replaces disk' entry content')
    (hentry : disk.read entry = .ok content) {l front rest : List Atom} {d t : Atom}
    (hf : DirectiveFree front) (hd : isDirective d = true)
    (hview : l.map Atom.view = (front ++ d :: t :: rest).map Atom.view) :
    ∃ front' d' t' rest', l = front' ++ d' :: t' :: rest' ∧ DirectiveFree front' ∧
      isDirective d' = true ∧ front'.map Atom.view = front.map Atom.view ∧
      rest'.map Atom.view = rest.map Atom.view ∧
      (Setting.serial disk' false).disk.includePath d'.file t'.text =
        disk.includePath d.file t.text := by
  rw [List.map_append, List.map_eq_append_iff] at hview
  obtain ⟨front', pair, rfl, hfront, hpair⟩ := hview
  obtain ⟨d', tail, rfl, hd', htail⟩ := List.map_eq_cons_iff.1 hpair
  obtain ⟨t', rest', rfl, ht', hrest⟩ := List.map_eq_cons_iff.1 htail
  exact ⟨front', d', t', rest', rfl, directiveFree_of_view hfront hf,
    (isDirective_of_view hd').trans hd, hfront, hrest, includePath_of_replaces h hentry hd' ht'⟩

theorem ne_entry_of_notMem {path : Path} {visited : List Path}
    (hvisited : disk.identity entry ∈ visited) (hv : disk.identity path ∉ visited) :
    disk.identity path ≠ disk.identity entry := by
  intro heq
  exact hv (heq ▸ hvisited)

theorem next_of_replaces (h : disk.Replaces disk' entry content')
    (hentry : disk.read entry = .ok content) {front rest included : List Atom} {d t : Atom}
    {visited : List Path} (hvisited : disk.identity entry ∈ visited) (hf : DirectiveFree front)
    (hd : isDirective d = true) (hv : disk.identity (disk.includePath d.file t.text) ∉ visited)
    (hc : (Setting.serial disk false).compose (disk.includePath d.file t.text) = .ok included) :
    Next (plain (.serial disk' false) (front ++ d :: t :: rest) visited)
      (plain (.serial disk' false) (front ++ included ++ rest)
        (disk.identity (disk.includePath d.file t.text) :: visited)) := by
  have hne := ne_entry_of_notMem hvisited hv
  have hpath := includePath_of_replaces h hentry (d := d) (t := t) rfl rfl
  have hid := identity_of_replaces h (disk.includePath d.file t.text)
  have hnext : Next (plain (.serial disk' false) (front ++ d :: t :: rest) visited) _ :=
    next_spliced (Setting.readsAhead_serial disk' false) hf hd (by rw [hpath, hid]; exact hv)
      (by rw [hpath, compose_of_replaces h hentry hne]; exact hc)
  rwa [hpath, hid] at hnext

/-- **A sequence in front of another one is resolved first**, and in the same way on every disk that
differs in the entry file only. -/
theorem reaches_append (hentry : disk.read entry = .ok content) {atoms out : List Atom}
    {visited : List Path} (hvisited : disk.identity entry ∈ visited)
    (hrun : (plain (.serial disk false) atoms visited).run.result = .ok out) :
    DirectiveFree out ∧ ∃ after, disk.identity entry ∈ after ∧
      ∀ (disk' : Disk) (content' : Bytes) (rest : List Atom),
        disk.Replaces disk' entry content' → Relation.ReflTransGen Next
          (plain (.serial disk' false) (atoms ++ rest) visited)
          (plain (.serial disk' false) (out ++ rest) after) := by
  revert hvisited hrun
  refine serial_induction (Setting.readsAhead_serial disk false)
    (motive := fun atoms visited result => disk.identity entry ∈ visited → result = .ok out →
      DirectiveFree out ∧ ∃ after, disk.identity entry ∈ after ∧
        ∀ (disk' : Disk) (content' : Bytes) (rest : List Atom),
          disk.Replaces disk' entry content' → Relation.ReflTransGen Next
            (plain (.serial disk' false) (atoms ++ rest) visited)
            (plain (.serial disk' false) (out ++ rest) after)) ?_ ?_ ?_ ?_ ?_ atoms visited
  · rintro atoms visited hf hvisited ⟨⟩
    exact ⟨hf, visited, hvisited, fun _ _ _ _ => .refl⟩
  · rintro front d visited - - - ⟨⟩
  · rintro front d t rest visited - - - - ⟨⟩
  · rintro front d t rest visited f - - - - - ⟨⟩
  · intro front d t rest visited included result hf hd hv hc ih hvisited hresult
    obtain ⟨hout, after, hafter, hreach⟩ := ih (List.mem_cons_of_mem _ hvisited) hresult
    refine ⟨hout, after, hafter, fun disk' content' rest' h => ?_⟩
    have hrest := hreach disk' content' rest' h
    rw [List.append_assoc] at hrest ⊢
    exact .head (next_of_replaces h hentry hvisited hf hd hv hc) hrest

/-- **Sequences with the same view are resolved in step**, on disks that differ in the entry file
only and with visited files that differ in one file that is never named. -/
theorem run_agree (h : disk.Replaces disk' entry content')
    (hentry : disk.read entry = .ok content) {x : Path} {l m : List Atom}
    {visited visited' : List Path} (hview : l.map Atom.view = m.map Atom.view)
    (hvisited : disk.identity entry ∈ visited)
    (hsame : ∀ id, id ≠ x → (id ∈ visited' ↔ id ∈ visited))
    (havoids : Avoids x (plain (.serial disk false) m visited)) :
    Agree (plain (.serial disk' false) l visited').run.result
      (plain (.serial disk false) m visited).run.result := by
  have hserial := Setting.readsAhead_serial disk false
  have hserial' := Setting.readsAhead_serial disk' false
  revert l visited' hview hvisited hsame havoids
  refine serial_induction hserial (motive := fun m visited result =>
    ∀ {l : List Atom} {visited' : List Path}, l.map Atom.view = m.map Atom.view →
      disk.identity entry ∈ visited → (∀ id, id ≠ x → (id ∈ visited' ↔ id ∈ visited)) →
      Avoids x (plain (.serial disk false) m visited) →
      Agree (plain (.serial disk' false) l visited').run.result result) ?_ ?_ ?_ ?_ ?_ m visited
  · intro m visited hf l visited' hview _ _ _
    rw [run_free hserial' (directiveFree_of_view hview hf)]
    exact congrArg some hview
  · intro front d visited hf hd l visited' hview _ _ _
    rw [List.map_append, List.map_eq_append_iff] at hview
    obtain ⟨front', last, rfl, hfront, hlast⟩ := hview
    obtain ⟨d', rest', rfl, hd', hrest'⟩ := List.map_eq_cons_iff.1 hlast
    obtain rfl := List.map_eq_nil_iff.1 hrest'
    rw [run_last hserial' (directiveFree_of_view hfront hf) ((isDirective_of_view hd').trans hd)]
    rfl
  · intro front d t rest visited hf hd hv l visited' hview hvisited hsame havoids
    obtain ⟨front', d', t', rest', rfl, hf', hd', -, -, hpath⟩ :=
      exists_pair_of_view h hentry hf hd hview
    have hv' := (hsame _ (havoids.of_pair hf hd)).2 hv
    rw [run_repeated hserial' hf' hd' (by rw [hpath, identity_of_replaces h]; exact hv')]
    rfl
  · intro front d t rest visited f hf hd hv hc l visited' hview hvisited hsame havoids
    obtain ⟨front', d', t', rest', rfl, hf', hd', -, -, hpath⟩ :=
      exists_pair_of_view h hentry hf hd hview
    have hv' := mt (hsame _ (havoids.of_pair hf hd)).1 hv
    -- the entry file was visited, so this is not the file in which the disks differ
    have hcompose := compose_of_replaces h hentry (ne_entry_of_notMem hvisited hv)
    rw [run_failed hserial' hf' hd' (by rw [hpath, identity_of_replaces h]; exact hv')
      (by rw [hpath]; exact hcompose.trans hc)]
    rfl
  · intro front d t rest visited included result hf hd hv hc ih l visited' hview hvisited hsame
      havoids
    obtain ⟨front', d', t', rest', rfl, hf', hd', hfront, hrest, hpath⟩ :=
      exists_pair_of_view h hentry hf hd hview
    have hv' := mt (hsame _ (havoids.of_pair hf hd)).1 hv
    have hcompose := compose_of_replaces h hentry (ne_entry_of_notMem hvisited hv)
    rw [run_spliced hserial' hf' hd' (by rw [hpath, identity_of_replaces h]; exact hv')
      (by rw [hpath]; exact hcompose.trans hc)]
    -- the same file is spliced in, so the views stay the same behind the splice
    refine ih ?_ (List.mem_cons_of_mem _ hvisited) ?_
      (havoids.of_reaches (.single (next_spliced hserial hf hd hv hc)))
    · simp only [List.map_append, hfront, hrest]
    · intro id hx
      rw [hpath, identity_of_replaces h, List.mem_cons, List.mem_cons, hsame id hx]
      rfl

end Disks

end Resolution

/-! ### Programs -/

/-- Where lines are scanned shows in their view only by the directory. -/
theorem view_scanned {path path' : Path} (hdir : path.dir = path'.dir) (number number' : Nat)
    (inComment : Bool) (lines : List Bytes) :
    (Source.scanned path number inComment lines).map Atom.view =
      (Source.scanned path' number' inComment lines).map Atom.view := by
  induction lines generalizing number number' inComment with
  | nil => rfl
  | cons text lines ih =>
    rw [Source.scanned, Source.scanned, List.map_append, List.map_append, List.map_map,
      List.map_map, ih (number + 1) (number' + 1)]
    congr 1
    refine List.map_congr_left fun t _ => ?_
    simp only [Function.comp, Scan.Place.atom, Atom.view, hdir]

/-- The line that includes the sibling. -/
def loadLine : Bytes := "LOAD x.4th"

theorem isShort_loadLine : Source.IsShort loadLine := by
  decide +kernel

theorem commentAfter_loadLine : Source.commentAfter false (Source.lines loadLine) = false := by
  decide +kernel

theorem scanned_loadLine (path : Path) (number : Nat) :
    Source.scanned path number false (Source.lines loadLine) =
      [⟨"LOAD", .word, path, Int64.ofNat number⟩, ⟨"x.4th", .word, path, Int64.ofNat number⟩] := by
  have hlines : Source.lines loadLine = [loadLine] := by decide +kernel
  have hkeep : Source.keepLine false loadLine =
      ([⟨.word, "LOAD"⟩, ⟨.word, "x.4th"⟩], false) := by decide +kernel
  simp [hlines, Source.scanned, hkeep, Scan.Place.atom]

theorem isDirective_load (file : Path) (line : Int64) :
    isDirective ⟨"LOAD", .word, file, line⟩ = true :=
  show isDirective ⟨"LOAD", .word, [], 0⟩ = true by decide +kernel

/-- A program of three parts, the first two of which leave no comment open. -/
theorem compose_of_parts {disk : Disk} {path : Path} {c m r : Bytes}
    (hread : disk.read path = .ok (c ++ Bytes.lf :: (m ++ Bytes.lf :: r)))
    (hc : Source.commentAfter false (Source.lines c) = false)
    (hm : Source.commentAfter false (Source.lines m) = false)
    (hshort : Source.IsShort c ∧ Source.IsShort m ∧ Source.IsShort r) : ∃ i j,
    (Setting.serial disk false).compose path = .ok (Source.scanned path 1 false (Source.lines c) ++
      (Source.scanned path i false (Source.lines m) ++
        Source.scanned path j false (Source.lines r))) := by
  have hall : Source.IsShort (c ++ Bytes.lf :: (m ++ Bytes.lf :: r)) := by
    rwa [Source.isShort_append_iff, Source.isShort_append_iff]
  have hcompose := Source.compose_of_short hread hall
  rw [Source.scanned_lines_append, hc, Source.scanned_lines_append, hm] at hcompose
  exact ⟨_, _, hcompose⟩

theorem compose_of_parts_long {disk : Disk} {path : Path} {c m r : Bytes}
    (hread : disk.read path = .ok (c ++ Bytes.lf :: (m ++ Bytes.lf :: r)))
    (hlong : ¬ (Source.IsShort c ∧ Source.IsShort m ∧ Source.IsShort r)) :
    ∃ f, (Setting.serial disk false).compose path = .error f := by
  rw [← Source.isShort_append_iff, ← Source.isShort_append_iff] at hlong
  exact Source.compose_of_long false hread hlong

/-- The entry file is `main.4th`, and `x.4th` stands next to it. -/
structure Siblings (disk : Disk) (entry : Path) (main sibling : Bytes) : Prop where
  read : disk.read entry = .ok main
  name : entry.afterLastSlash = "main.4th"
  lookup? : disk.lookup? ("x.4th" :: (disk.destination entry).tail) = some (.file sibling)

/-- The path of the sibling. -/
def besides (entry : Path) : Path :=
  Path.join entry.dir "x.4th"

theorem dir_besides (entry : Path) : (besides entry).dir = entry.dir := by
  rw [besides, Path.join_dir (by decide), Path.dir_clean_append (by decide)]

namespace Siblings

variable {disk : Disk} {entry : Path} {c₁ c₂ : Bytes}

theorem locate_eq (h : Siblings disk entry c₁ c₂) :
    disk.locate (besides entry) = .ok ("x.4th" :: (disk.destination entry).tail) :=
  Disk.locate_sibling h.read (by rw [h.name]; decide) (by decide) (by decide)
    (by rw [h.name]; decide) (by simp [h.lookup?])

theorem identity_ne (h : Siblings disk entry c₁ c₂) :
    disk.identity (besides entry) ≠ disk.identity entry := by
  have hmain := Disk.destination_eq_cons (d := disk) (p := entry) (by rw [h.name]; decide)
  intro heq
  rw [Disk.identity, Disk.identity, ← Disk.locate_eq_ok h.locate_eq, hmain, h.name] at heq
  exact absurd (Disk.eq_of_path_cons_eq heq) (by decide)

theorem includePath_eq (h : Siblings disk entry c₁ c₂) :
    disk.includePath entry "x.4th" = besides entry := by
  have hfound : disk.hasPath (besides entry) = true := by
    rw [Disk.hasPath, Disk.find, h.locate_eq]
    simp [bind, Except.bind, h.lookup?, Except.isOk, Except.toBool]
  rw [Disk.includePath, if_neg (by decide)]
  exact if_pos hfound

theorem read_besides (h : Siblings disk entry c₁ c₂) : disk.read (besides entry) = .ok c₂ :=
  Disk.read_eq_ok_iff.2 ⟨_, h.locate_eq, h.lookup?⟩

end Siblings

section Load

variable {disk disk' : Disk} {entry : Path} {c₁ c₂ content : Bytes} {front rest : List Atom}
  {visited : List Path} {number : Nat}

theorem includePath_load (h : Siblings disk entry c₁ c₂)
    (hload : disk.Replaces disk' entry content) :
    (Setting.serial disk' false).disk.includePath entry "x.4th" = besides entry :=
  (hload.includePath_eq h.read _ _).trans h.includePath_eq

theorem run_load_of_short (h : Siblings disk entry c₁ c₂)
    (hload : disk.Replaces disk' entry content) (hfront : DirectiveFree front)
    (hv : disk.identity (besides entry) ∉ visited) (hshort : Source.IsShort c₂) :
    (Resolution.plain (.serial disk' false) (front ++
      (Source.scanned entry number false (Source.lines loadLine) ++ rest)) visited).run.result =
    (Resolution.plain (.serial disk' false) (front ++
      Source.scanned (besides entry) 1 false (Source.lines c₂) ++ rest)
      (disk.identity (besides entry) :: visited)).run.result := by
  have hpath := includePath_load h hload
  have hid := Resolution.identity_of_replaces hload (besides entry)
  have hcompose := (Resolution.compose_of_replaces hload h.read h.identity_ne).trans
    (Source.compose_of_short h.read_besides hshort)
  rw [scanned_loadLine]
  have hrun : (Resolution.plain (.serial disk' false) (front ++
      ⟨"LOAD", .word, entry, Int64.ofNat number⟩ :: ⟨"x.4th", .word, entry, Int64.ofNat number⟩ ::
        rest) visited).run.result = _ :=
    Resolution.run_spliced (Setting.readsAhead_serial disk' false) hfront (isDirective_load _ _)
      (by rw [hpath, hid]; exact hv) (by rw [hpath]; exact hcompose)
  rwa [hpath, hid] at hrun

theorem run_load_of_long (number : Nat) (rest : List Atom) (visited : List Path)
    (h : Siblings disk entry c₁ c₂) (hload : disk.Replaces disk' entry content)
    (hfront : DirectiveFree front) (hlong : ¬ Source.IsShort c₂) :
    ∃ f, (Resolution.plain (.serial disk' false) (front ++
      (Source.scanned entry number false (Source.lines loadLine) ++ rest)) visited).run.result =
        .error f := by
  have hpath := includePath_load h hload
  have hid := Resolution.identity_of_replaces hload (besides entry)
  obtain ⟨f, hf⟩ := Source.compose_of_long false h.read_besides hlong
  have hcompose := (Resolution.compose_of_replaces hload h.read h.identity_ne).trans hf
  rw [scanned_loadLine]
  by_cases hv : disk.identity (besides entry) ∈ visited
  · refine ⟨_, Resolution.run_repeated (Setting.readsAhead_serial disk' false) hfront
      (isDirective_load _ _) ?_⟩
    rw [hpath, hid]
    exact hv
  · refine ⟨_, Resolution.run_failed (Setting.readsAhead_serial disk' false) hfront
      (isDirective_load _ _) ?_ (by rw [hpath]; exact hcompose)⟩
    rw [hpath, hid]
    exact hv

end Load

/-- Whatever follows the first part of a program, the first part is resolved before it. -/
def Leads (disk : Disk) (entry : Path) (c : Bytes) (out : List Atom) (after : List Path) : Prop :=
  ∀ (disk' : Disk) (content' : Bytes) (rest : List Atom), disk.Replaces disk' entry content' →
    Relation.ReflTransGen Resolution.Next
      (Resolution.plain (.serial disk' false)
        (Source.scanned entry 1 false (Source.lines c) ++ rest) [disk.identity entry])
      (Resolution.plain (.serial disk' false) (out ++ rest) after)

/-- A program that resolves is a first part for every program that begins with its text. -/
theorem exists_leads {disk : Disk} {entry : Path} {c : Bytes} {out : List Atom}
    (hread : disk.read entry = .ok c)
    (hout : (parse (.serial disk false) false entry).result = .ok out) :
    Source.IsShort c ∧ DirectiveFree out ∧
      ∃ after, disk.identity entry ∈ after ∧ Leads disk entry c out after := by
  cases hc : (Setting.serial disk false).compose entry with
  | error f =>
    rw [parse_of_error hc] at hout
    cases hout
  | ok atoms =>
    obtain ⟨content, hcontent, hshort, rfl⟩ := Source.exists_read_of_compose hc
    obtain rfl : c = content := Except.ok.inj (hread.symm.trans hcontent)
    rw [parse_of_ok hc] at hout
    obtain ⟨hfree, after, hafter, hreach⟩ :=
      Resolution.reaches_append hread List.mem_cons_self hout
    exact ⟨hshort, hfree, after, hafter, hreach⟩

/-- A program of three parts comes to the second part with the first one resolved. -/
theorem Leads.exists_reaches {disk disk' : Disk} {entry : Path} {c m r : Bytes} {out : List Atom}
    {after : List Path} (hfirst : Leads disk entry c out after)
    (h : disk.Replaces disk' entry (c ++ Bytes.lf :: (m ++ Bytes.lf :: r)))
    (hc : Source.commentAfter false (Source.lines c) = false)
    (hm : Source.commentAfter false (Source.lines m) = false)
    (hshort : Source.IsShort c ∧ Source.IsShort m ∧ Source.IsShort r) :
    ∃ i j first, (Setting.serial disk' false).compose entry = .ok first ∧
      Relation.ReflTransGen Resolution.Next (Resolution.start (.serial disk' false) entry first)
        (Resolution.plain (.serial disk' false) (out ++
          (Source.scanned entry i false (Source.lines m) ++
            Source.scanned entry j false (Source.lines r))) after) := by
  obtain ⟨i, j, hcompose⟩ := compose_of_parts h.read hc hm hshort
  refine ⟨i, j, _, hcompose, ?_⟩
  rw [Resolution.start_eq_plain, Resolution.identity_of_replaces h]
  exact hfirst disk' _ _ h

theorem avoids_of_meets {s : Setting} {entry x : Path} {first : List Atom}
    (hc : s.compose entry = .ok first) (h : ∀ p, Meets s entry p → s.disk.identity p ≠ x) :
    Resolution.Avoids x (Resolution.start s entry first) := by
  intro r hr front d t rest ha hf hd
  exact h _ ⟨front, d, t, rest, ⟨first, r, hc, hr, ha⟩, hf, hd, rfl⟩

/-- Behind the first part the two programs are resolved in step. -/
theorem run_load_agrees {disk load inlined : Disk} {entry : Path} {c₁ c₂ c c' : Bytes}
    {out : List Atom} {after : List Path} (h : Siblings disk entry c₁ c₂)
    (hload : disk.Replaces load entry c) (hinlined : disk.Replaces inlined entry c')
    (hfree : DirectiveFree out) (hafter : disk.identity entry ∈ after)
    (hx : disk.identity (besides entry) ∉ after) (hshort : Source.IsShort c₂)
    {i i' j j' : Nat} {lines : List Bytes}
    (havoids : Resolution.Avoids (disk.identity (besides entry))
      (Resolution.plain (.serial inlined false) (out ++
        (Source.scanned entry i' false (Source.lines c₂) ++
          Source.scanned entry j' false lines)) after)) :
    Agree
      (Resolution.plain (.serial load false) (out ++
        (Source.scanned entry i false (Source.lines loadLine) ++
          Source.scanned entry j false lines)) after).run.result
      (Resolution.plain (.serial inlined false) (out ++
        (Source.scanned entry i' false (Source.lines c₂) ++
          Source.scanned entry j' false lines)) after).run.result := by
  rw [run_load_of_short h hload hfree hx hshort]
  refine Resolution.run_agree (hinlined.symm_trans hload) hinlined.read ?_ ?_ ?_ havoids
  · rw [List.append_assoc, List.map_append, List.map_append, List.map_append, List.map_append,
      view_scanned (dir_besides entry) 1 i', view_scanned rfl j j']
  · rw [hinlined.identity_eq]
    exact hafter
  · intro id hid
    rw [List.mem_cons, or_iff_right hid]

theorem parse_agree {disk load inlined : Disk} {entry : Path} {c₁ c₂ c₃ : Bytes}
    (h : Siblings disk entry c₁ c₂)
    (hload : disk.Replaces load entry (c₁ ++ Bytes.lf :: (loadLine ++ Bytes.lf :: c₃)))
    (hinlined : disk.Replaces inlined entry (c₁ ++ Bytes.lf :: (c₂ ++ Bytes.lf :: c₃)))
    (hc₁ : Source.commentAfter false (Source.lines c₁) = false)
    (hc₂ : Source.commentAfter false (Source.lines c₂) = false)
    (hparse : ∃ out, (parse (.serial disk false) false entry).result = .ok out)
    (hother : ∀ p, Meets (.serial inlined false) entry p →
      disk.identity p ≠ disk.identity (besides entry)) :
    Agree (parse (.serial load false) false entry).result
      (parse (.serial inlined false) false entry).result := by
  obtain ⟨out, hout⟩ := hparse
  obtain ⟨hshort₁, hfree, after, hafter, hfirst⟩ := exists_leads h.read hout
  by_cases hshort₃ : Source.IsShort c₃
  · obtain ⟨i, j, first, hcompose, hreach⟩ := hfirst.exists_reaches hload hc₁
      commentAfter_loadLine ⟨hshort₁, isShort_loadLine, hshort₃⟩
    rw [parse_of_ok hcompose, Resolution.run_result_of_reaches hreach]
    by_cases hshort₂ : Source.IsShort c₂
    · obtain ⟨i', j', first', hcompose', hreach'⟩ := hfirst.exists_reaches hinlined hc₁ hc₂
        ⟨hshort₁, hshort₂, hshort₃⟩
      have havoids : Resolution.Avoids (disk.identity (besides entry)) _ :=
        avoids_of_meets hcompose' fun p hp => by
          rw [Resolution.identity_of_replaces hinlined]
          exact hother p hp
      -- the first part, which the program with the text resolves too, has not included the sibling
      have hx : disk.identity (besides entry) ∉ after := by
        refine havoids.notMem_visited (Setting.readsAhead_serial inlined false) ?_ hreach'
        rw [Resolution.start_eq_plain, Resolution.identity_of_replaces hinlined]
        simpa [Resolution.plain] using h.identity_ne
      rw [parse_of_ok hcompose', Resolution.run_result_of_reaches hreach']
      exact run_load_agrees h hload hinlined hfree hafter hx hshort₂ (havoids.of_reaches hreach')
    · -- a line of the sibling that is too long is so in both programs
      obtain ⟨f, hf⟩ := run_load_of_long i (Source.scanned entry j false (Source.lines c₃)) after
        h hload hfree hshort₂
      obtain ⟨g, hg⟩ := compose_of_parts_long hinlined.read fun hall => hshort₂ hall.2.1
      rw [hf, parse_of_error hg]
      rfl
  · obtain ⟨f, hf⟩ := compose_of_parts_long hload.read fun hall => hshort₃ hall.2.2
    obtain ⟨g, hg⟩ := compose_of_parts_long hinlined.read fun hall => hshort₃ hall.2.2
    rw [parse_of_error hf, parse_of_error hg]
    rfl

theorem Agree.texts_eq {x y : Except Failure (List Atom)} (h : Agree x y) :
    ((∃ out, x = .ok out) ↔ ∃ out, y = .ok out) ∧
    ∀ out out', x = .ok out → y = .ok out' →
      out.map (fun a => (a.text, a.kind)) = out'.map (fun a => (a.text, a.kind)) := by
  cases x with
  | error f =>
    cases y with
    | error g => exact ⟨⟨nofun, nofun⟩, nofun⟩
    | ok m => cases h
  | ok l =>
    cases y with
    | error g => cases h
    | ok m =>
      refine ⟨⟨fun _ => ⟨m, rfl⟩, fun _ => ⟨l, rfl⟩⟩, ?_⟩
      rintro out out' ⟨⟩ ⟨⟩
      have hview : l.map Atom.view = m.map Atom.view := Option.some.inj h
      have htexts := congrArg (List.map fun v => (v.1, v.2.1)) hview
      rw [List.map_map, List.map_map] at htexts
      exact htexts

/-- **Including a file is including its text.** Take disks that differ in the entry file only. If
the first part of the program resolves on its own, neither it nor the sibling leaves a comment open,
and no directive of the program with the text of the sibling names the sibling, then the program
with a directive for the sibling and the program with its text succeed together, and with the same
texts and kinds of atoms. -/
theorem parse_load_eq_parse_inlined {disk load inlined : Disk} {entry : Path} {c₁ c₂ c₃ : Bytes}
    (h : Siblings disk entry c₁ c₂)
    (hload : disk.Replaces load entry (c₁ ++ Bytes.lf :: (loadLine ++ Bytes.lf :: c₃)))
    (hinlined : disk.Replaces inlined entry (c₁ ++ Bytes.lf :: (c₂ ++ Bytes.lf :: c₃)))
    (hc₁ : Source.commentAfter false (Source.lines c₁) = false)
    (hc₂ : Source.commentAfter false (Source.lines c₂) = false)
    (hparse : ∃ out, (parse (.serial disk false) false entry).result = .ok out)
    (hother : ∀ p, Meets (.serial inlined false) entry p →
      disk.identity p ≠ disk.identity (besides entry)) :
    ((∃ out, (parse (.serial load false) false entry).result = .ok out) ↔
      ∃ out, (parse (.serial inlined false) false entry).result = .ok out) ∧
    ∀ out out', (parse (.serial load false) false entry).result = .ok out →
      (parse (.serial inlined false) false entry).result = .ok out' →
      out.map (fun a => (a.text, a.kind)) = out'.map (fun a => (a.text, a.kind)) :=
  (parse_agree h hload hinlined hc₁ hc₂ hparse hother).texts_eq

namespace Nested

/-- The sibling includes a third file. -/
def disk : Disk where
  workDir := []
  entries := [(["main.4th"], .file "( n ) a"), (["x.4th"], .file "LOAD z.4th"),
    (["z.4th"], .file "z")]

def load : Disk :=
  disk.put (disk.destination "main.4th")
    (.file ("( n ) a" ++ Bytes.lf :: (loadLine ++ Bytes.lf :: Bytes.ofString "b")))

def inlined : Disk :=
  disk.put (disk.destination "main.4th")
    (.file ("( n ) a" ++ Bytes.lf :: ("LOAD z.4th" ++ Bytes.lf :: Bytes.ofString "b")))

def first : List Atom :=
  [⟨"a", .word, "main.4th", 1⟩, ⟨"LOAD", .word, "main.4th", 2⟩, ⟨"z.4th", .word, "main.4th", 2⟩,
    ⟨"b", .word, "main.4th", 3⟩]

theorem siblings : Siblings disk "main.4th" "( n ) a" "LOAD z.4th" where
  read := by decide +kernel
  name := by decide +kernel
  lookup? := by decide +kernel

/-- The one directive of the program names the third file. -/
theorem eq_of_meets {p : Path} (h : Meets (.serial inlined false) "main.4th" p) : p = "z.4th" := by
  obtain ⟨front, d, t, rest, ⟨atoms, r, hc, hr, ha⟩, -, hd, rfl⟩ := h
  have hcompose : (Setting.serial inlined false).compose "main.4th" = .ok first := by
    decide +kernel
  obtain rfl := Except.ok.inj (hc.symm.trans hcompose)
  have hnamed := namesIn_iff_mem_namedPaths.1 (namesIn_append inlined front rest t hd)
  rw [← ha] at hnamed
  rw [Resolution.start_eq_plain] at hr
  have hfirst : first = [⟨"a", .word, "main.4th", 1⟩] ++ ⟨"LOAD", .word, "main.4th", 2⟩ ::
      ⟨"z.4th", .word, "main.4th", 2⟩ :: [⟨"b", .word, "main.4th", 3⟩] := rfl
  have hz : (Setting.serial inlined false).compose ((Setting.serial inlined false).disk.includePath
      "main.4th" "z.4th") = .ok [⟨"z", .word, "z.4th", 1⟩] := by decide +kernel
  have hreach := Resolution.reaches_spliced (Setting.readsAhead_serial inlined false) hfirst
    (by decide +kernel) (by decide +kernel) (by decide +kernel) hz hr
  rcases hreach with rfl | hreach
  · have hpaths : namedPaths inlined first = [Bytes.ofString "z.4th"] := by decide +kernel
    exact List.mem_singleton.1 (hpaths ▸ hnamed)
  · rw [Resolution.eq_of_reaches_free (Setting.readsAhead_serial inlined false)
      (by decide +kernel) hreach] at hnamed
    have hpaths : namedPaths inlined [⟨"a", .word, "main.4th", 1⟩, ⟨"z", .word, "z.4th", 1⟩,
        ⟨"b", .word, "main.4th", 3⟩] = [] := by decide +kernel
    exact absurd (hpaths ▸ hnamed) List.not_mem_nil

end Nested

/-- A sibling that includes a third file. -/
theorem parse_load_eq_parse_inlined_nested :
    Siblings Nested.disk "main.4th" "( n ) a" "LOAD z.4th" ∧
    (∀ p, Meets (.serial Nested.inlined false) "main.4th" p →
      Nested.disk.identity p ≠ Nested.disk.identity (besides "main.4th")) ∧
    ∃ out out', (parse (.serial Nested.load false) false "main.4th").result = .ok out ∧
      (parse (.serial Nested.inlined false) false "main.4th").result = .ok out' ∧
      out.map (fun a => (a.text, a.kind)) = out'.map (fun a => (a.text, a.kind)) := by
  have hother : ∀ p, Meets (.serial Nested.inlined false) "main.4th" p →
      Nested.disk.identity p ≠ Nested.disk.identity (besides "main.4th") := by
    intro p hp
    rw [Nested.eq_of_meets hp]
    decide +kernel
  have hparse : (parse (.serial Nested.disk false) false "main.4th").result =
      .ok [⟨"a", .word, "main.4th", 1⟩] := by decide +kernel
  have hinlined : (parse (.serial Nested.inlined false) false "main.4th").result =
      .ok [⟨"a", .word, "main.4th", 1⟩, ⟨"z", .word, "z.4th", 1⟩, ⟨"b", .word, "main.4th", 3⟩] := by
    decide +kernel
  have hload : Nested.disk.Replaces Nested.load "main.4th" _ := .put Nested.siblings.read _
  have hinline : Nested.disk.Replaces Nested.inlined "main.4th" _ := .put Nested.siblings.read _
  obtain ⟨hiff, htexts⟩ := parse_load_eq_parse_inlined Nested.siblings hload hinline
    (by decide +kernel) (by decide +kernel) ⟨_, hparse⟩ hother
  obtain ⟨out, hout⟩ := hiff.2 ⟨_, hinlined⟩
  exact ⟨Nested.siblings, hother, out, _, hout, hinlined, htexts _ _ hout hinlined⟩

end Include

end ForthFrontend
