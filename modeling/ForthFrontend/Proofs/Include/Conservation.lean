import ForthFrontend.Proofs.Include.Step
import ForthFrontend.Proofs.Source
import Mathlib.Data.List.Nodup

/-!
# Nothing is lost, duplicated or reordered

Every splice takes one directive and its target out of the sequence and puts the atoms of one file
in. `Include.Balanced` keeps the account: the files loaded so far, the directives and targets
consumed, and what the sequence must then consist of. It holds before the first step, every splice
keeps it, and so it holds of the result of every successful program. Nothing is assumed about where
directives stand: one that ends a file takes its target from the file around it, and a target can be
the directive word itself.

## Main results

* `Include.Balanced.splice`: what a splice does to the account.
* `Include.Balanced.of_run_eq_ok`: the account of a run that succeeds.
* `Include.parse_conserves_atoms`: the account of a program.
-/

namespace ForthFrontend.Include

/-- The account of a sequence that came out of the atoms `first` of the entry file: the files
`loaded` with their atoms, latest first, and the directives and targets consumed for them. -/
structure Balanced (s : Setting) (entry : Path) (first : List Atom)
    (loaded : List (Path × List Atom)) (directives consumed atoms : List Atom) : Prop where
  composed : ∀ f ∈ loaded, s.compose f.1 = .ok f.2
  distinct : (s.disk.identity entry :: loaded.map fun f => s.disk.identity f.1).Nodup
  areDirectives : ∀ a ∈ directives, isDirective a = true
  directives_length : directives.length = loaded.length
  consumed_length : consumed.length = loaded.length
  /-- What is there and what was consumed is what was composed. -/
  balance : (atoms ++ directives ++ consumed).Perm (first ++ loaded.flatMap Prod.snd)
  origin : ∀ a ∈ atoms, a.file ∈ entry :: loaded.map Prod.fst
  /-- The atoms of a file stand in the order of the file. -/
  ordered : ∀ path content, s.compose path = .ok content →
    (atoms.filter fun a => a.file == path).Sublist content

namespace Balanced

variable {s : Setting} {entry : Path} {first : List Atom}

/-- The identities that a run with this account has included. -/
def included (s : Setting) (entry : Path) (loaded : List (Path × List Atom)) : List Path :=
  (loaded.map fun f => s.disk.identity f.1) ++ [s.disk.identity entry]

/-- The account before the first step. -/
theorem start (hc : s.compose entry = .ok first) : Balanced s entry first [] [] [] first where
  composed := by simp
  distinct := by simp
  areDirectives := by simp
  directives_length := rfl
  consumed_length := rfl
  balance := by simp
  origin := by simpa using Setting.file_of_mem_compose hc
  ordered := by
    intro path content hpath
    by_cases hp : path = entry
    · subst hp
      obtain rfl := Except.ok.inj (hc.symm.trans hpath)
      exact List.filter_sublist
    · have hnone : first.filter (fun a => a.file == path) = [] := by
        rw [List.filter_eq_nil_iff]
        intro a ha
        have hfile := Setting.file_of_mem_compose hc a ha
        simpa [hfile] using Ne.symm hp
      rw [hnone]
      exact List.nil_sublist content

variable {loaded : List (Path × List Atom)} {directives consumed : List Atom}

/-- A file that was not included yet has no atom in the sequence. -/
theorem file_ne_of_fresh {atoms : List Atom}
    (h : Balanced s entry first loaded directives consumed atoms) {path : Path}
    (hv : s.disk.identity path ∉ included s entry loaded) : ∀ a ∈ atoms, a.file ≠ path := by
  rintro a ha rfl
  refine hv ?_
  rcases List.mem_cons.1 (h.origin a ha) with he | hl
  · rw [he]
    simp [included]
  · obtain ⟨f, hf, he⟩ := List.mem_map.1 hl
    exact List.mem_append_left _ (List.mem_map.2 ⟨f, hf, congrArg s.disk.identity he⟩)

/-- A splice moves one directive and one target to the other side of the account and enters the
atoms of one file. -/
theorem splice {front rest content : List Atom} {d t : Atom} {path : Path}
    (h : Balanced s entry first loaded directives consumed (front ++ d :: t :: rest))
    (hd : isDirective d = true) (hv : s.disk.identity path ∉ included s entry loaded)
    (hc : s.compose path = .ok content) :
    Balanced s entry first ((path, content) :: loaded) (d :: directives) (t :: consumed)
      (front ++ content ++ rest) where
  composed := List.forall_mem_cons.2 ⟨hc, h.composed⟩
  distinct := by
    have hne : s.disk.identity path ≠ s.disk.identity entry := fun e => hv (by simp [included, e])
    have hnot : s.disk.identity path ∉ loaded.map fun f => s.disk.identity f.1 :=
      fun hm => hv (List.mem_append_left _ hm)
    have hdistinct := List.nodup_cons.1 h.distinct
    rw [List.map_cons, List.nodup_cons, List.mem_cons, List.nodup_cons]
    exact ⟨fun hm => hm.elim (fun e => hne e.symm) hdistinct.1, hnot, hdistinct.2⟩
  areDirectives := List.forall_mem_cons.2 ⟨hd, h.areDirectives⟩
  directives_length := by simp [h.directives_length]
  consumed_length := by simp [h.consumed_length]
  balance := by
    have hold := h.balance
    rw [List.flatMap_cons]
    calc (front ++ content ++ rest ++ d :: directives ++ t :: consumed).Perm
          (content ++ (front ++ d :: t :: rest ++ directives ++ consumed)) := by
            rw [List.perm_iff_count]
            intro a
            simp only [List.count_append, List.count_cons]
            omega
      _ |>.Perm (content ++ (first ++ loaded.flatMap Prod.snd)) := hold.append_left content
      _ |>.Perm (first ++ (content ++ loaded.flatMap Prod.snd)) := by
            rw [List.perm_iff_count]
            intro a
            simp only [List.count_append]
            omega
  origin := by
    intro a ha
    rw [List.append_assoc, List.mem_append, List.mem_append] at ha
    rw [List.map_cons, List.mem_cons, List.mem_cons]
    rcases ha with ha | ha | ha
    · exact (List.mem_cons.1 (h.origin a (by simp [ha]))).imp_right .inr
    · exact .inr (.inl (Setting.file_of_mem_compose hc a ha))
    · exact (List.mem_cons.1 (h.origin a (by simp [ha]))).imp_right .inr
  ordered := by
    intro path' content' hpath'
    have hold := h.ordered path' content' hpath'
    rw [List.filter_append, List.filter_append]
    by_cases hp : path' = path
    · -- all atoms of the file are those that came in just now
      subst hp
      have hne := h.file_ne_of_fresh hv
      have hfront : front.filter (fun a => a.file == path') = [] :=
        List.filter_eq_nil_iff.2 fun a ha => by simpa using hne a (by simp [ha])
      have hrest : rest.filter (fun a => a.file == path') = [] :=
        List.filter_eq_nil_iff.2 fun a ha => by simpa using hne a (by simp [ha])
      obtain rfl := Except.ok.inj (hc.symm.trans hpath')
      rw [hfront, hrest, List.nil_append, List.append_nil]
      exact List.filter_sublist
    · have hnone : content.filter (fun a => a.file == path') = [] := by
        rw [List.filter_eq_nil_iff]
        intro a ha
        have hfile := Setting.file_of_mem_compose hc a ha
        simpa [hfile] using Ne.symm hp
      rw [hnone, List.append_nil]
      refine List.Sublist.trans ?_ hold
      rw [← List.filter_append]
      exact List.Sublist.filter _ (List.Sublist.append_left
        ((List.sublist_cons_self t rest).trans (List.sublist_cons_self d _)) front)

/-- The account of a run that succeeds: it can be continued to one of the result. -/
theorem of_run_eq_ok (hs : s.readsAhead = false) {atoms out : List Atom}
    (h : Balanced s entry first loaded directives consumed atoms)
    (hrun : (Resolution.plain s atoms (included s entry loaded)).run.result = .ok out) :
    DirectiveFree out ∧ ∃ loaded directives consumed,
      Balanced s entry first loaded directives consumed out := by
  refine Resolution.serial_induction hs
    (motive := fun atoms visited result => ∀ loaded directives consumed,
      visited = included s entry loaded →
      Balanced s entry first loaded directives consumed atoms → result = .ok out →
      DirectiveFree out ∧ ∃ loaded directives consumed,
        Balanced s entry first loaded directives consumed out)
    ?free ?last ?again ?failed ?spliced atoms _ loaded directives consumed rfl h hrun
  case free =>
    intro atoms visited hf loaded directives consumed _ h hout
    obtain rfl := Except.ok.inj hout
    exact ⟨hf, loaded, directives, consumed, h⟩
  case last => intro _ _ _ _ _ _ _ _ _ _ hout; cases hout
  case again => intro _ _ _ _ _ _ _ _ _ _ _ _ _ hout; cases hout
  case failed => intro _ _ _ _ _ _ _ _ _ _ _ _ _ _ _ hout; cases hout
  case spliced =>
    intro front d t rest visited content result _ hd hv hc ih loaded directives consumed hvis h hout
    subst hvis
    exact ih _ _ _ rfl (h.splice hd hv hc) hout

/-- Atoms of one identity carry one spelling of their file. -/
theorem file_eq_of_identity_eq {atoms : List Atom}
    (h : Balanced s entry first loaded directives consumed atoms) {a b : Atom} (ha : a ∈ atoms)
    (hb : b ∈ atoms) (he : s.disk.identity a.file = s.disk.identity b.file) : a.file = b.file := by
  have hnodup : ((entry :: loaded.map Prod.fst).map s.disk.identity).Nodup := by
    simpa [Function.comp_def] using h.distinct
  exact List.inj_on_of_nodup_map hnodup (h.origin a ha) (h.origin b hb) he

end Balanced

/-- A program that was cancelled has no atoms. -/
theorem not_cancelled_of_parse_eq_ok {s : Setting} {cancelled : Bool} {entry : Path}
    {out : List Atom} (h : (parse s cancelled entry).result = .ok out) : cancelled = false := by
  cases cancelled with
  | false => rfl
  | true =>
    have hc : Source.compose s.disk s.strict true entry =
      .error (Source.notFound entry (.fault .cancelled)) := rfl
    simp only [parse, hc] at h
    cases h

/-- **Conservation of atoms.** A program that resolves serially has loaded files `loaded`, no
identity twice and none of them that of the entry file. Its atoms, together with one directive and
one target for each loaded file, are the atoms of the entry file and of the loaded files. No atom of
it is a directive, the atoms of every file stand in the order of the file, and atoms whose files
have one identity name one file. -/
theorem parse_conserves_atoms {s : Setting} (hs : s.readsAhead = false) {cancelled : Bool}
    {entry : Path} {out : List Atom} (h : (parse s cancelled entry).result = .ok out) :
    ∃ (first : List Atom) (loaded : List (Path × List Atom)) (directives consumed : List Atom),
      s.compose entry = .ok first ∧
      (∀ f ∈ loaded, s.compose f.1 = .ok f.2) ∧
      (loaded.map fun f => s.disk.identity f.1).Nodup ∧
      (∀ f ∈ loaded, s.disk.identity f.1 ≠ s.disk.identity entry) ∧
      (∀ a ∈ out, isDirective a = false) ∧
      (∀ a ∈ directives, isDirective a = true) ∧
      directives.length = loaded.length ∧ consumed.length = loaded.length ∧
      (out ++ directives ++ consumed).Perm (first ++ loaded.flatMap Prod.snd) ∧
      (∀ a ∈ out, a.file = entry ∨ ∃ f ∈ loaded, a.file = f.1) ∧
      (∀ path content, s.compose path = .ok content →
        (out.filter fun a => a.file == path).Sublist content) ∧
      ∀ a ∈ out, ∀ b ∈ out, s.disk.identity a.file = s.disk.identity b.file →
        a.file = b.file := by
  obtain rfl := not_cancelled_of_parse_eq_ok h
  cases hc : s.compose entry with
  | error f =>
    rw [parse_of_error hc] at h
    cases h
  | ok first =>
    rw [parse_of_ok hc, Resolution.start_eq_plain] at h
    obtain ⟨hfree, loaded, directives, consumed, hb⟩ :=
      Balanced.of_run_eq_ok hs (Balanced.start hc) h
    obtain ⟨hentry, hdistinct⟩ := List.nodup_cons.1 hb.distinct
    refine ⟨first, loaded, directives, consumed, rfl, hb.composed, hdistinct, ?_, hfree,
      hb.areDirectives, hb.directives_length, hb.consumed_length, hb.balance, ?_, hb.ordered,
      fun a ha b hb' he => hb.file_eq_of_identity_eq ha hb' he⟩
    · intro f hf he
      exact hentry (List.mem_map.2 ⟨f, hf, he⟩)
    · intro a ha
      rcases List.mem_cons.1 (hb.origin a ha) with he | hl
      · exact .inl he
      · obtain ⟨f, hf, he⟩ := List.mem_map.1 hl
        exact .inr ⟨f, hf, he.symm⟩

/-! ### A directive that ends a file -/

namespace BorrowedTarget

/-- The file `a` ends with a directive, which takes its target from the entry file `m`. -/
def disk : Disk where
  workDir := []
  entries := [(["m"], .file "LOAD a b q"), (["a"], .file "x LOAD"), (["b"], .file "y")]

def result : List Atom := [wordOf "x" "a", wordOf "y" "b", wordOf "q" "m"]

theorem parse_eq_ok : (parse (Setting.serial disk false) false "m").result = .ok result := by
  decide +kernel

end BorrowedTarget

/-- The account of a program in which a file borrows a target from the file around it. -/
theorem parse_conserves_atoms_borrowedTarget :
    (Setting.serial BorrowedTarget.disk false).readsAhead = false ∧
    (parse (Setting.serial BorrowedTarget.disk false) false "m").result =
      .ok BorrowedTarget.result ∧
    ∃ (first : List Atom) (loaded : List (Path × List Atom)) (directives consumed : List Atom),
      (Setting.serial BorrowedTarget.disk false).compose "m" = .ok first ∧
      (∀ f ∈ loaded, (Setting.serial BorrowedTarget.disk false).compose f.1 = .ok f.2) ∧
      directives.length = loaded.length ∧ consumed.length = loaded.length ∧
      (BorrowedTarget.result ++ directives ++ consumed).Perm
        (first ++ loaded.flatMap Prod.snd) := by
  refine ⟨Setting.readsAhead_serial _ _, BorrowedTarget.parse_eq_ok, ?_⟩
  obtain ⟨first, loaded, directives, consumed, hfirst, hloaded, -, -, -, -, hd, hc, hperm, -⟩ :=
    parse_conserves_atoms (Setting.readsAhead_serial _ _) BorrowedTarget.parse_eq_ok
  exact ⟨first, loaded, directives, consumed, hfirst, hloaded, hd, hc, hperm⟩

end ForthFrontend.Include

