import ForthFrontend.Manifest
import ForthFrontend.Proofs.Analysis.Position
import Mathlib.Data.List.Forall2

/-!
# Programs at other places

An analysis reads the texts and the kinds of atoms. Their places it only copies: into the bodies of
words and into errors. So a program that is moved, atom by atom, to other places has the tables and
the errors of the program it was, moved in the same way, and an image shows nothing of the places.

Two programs that say the same are both moved copies of a third one, in which the place of each atom
is its index. What goes wrong in that program names an index, and the two programs go wrong at their
atoms with this index.

## Main definitions

* `Relocation`: a change of places, and what it does to atoms, definitions, tables and errors.
* `Relocation.numbered`: a program with indices for places.

## Main results

* `Definition.read_move`, `Analysis.run_move`: reading and analysis commute with a relocation.
* `Manifest.generate_move`: images do not depend on places.
* `analyze_depends_on_texts`: programs that say the same have the same image, or fail alike.
-/

namespace ForthFrontend

/-- A change of places. What comes from nowhere stays there, as what is looked for behind the end of
a program does. -/
structure Relocation where
  place : Path × Int64 → Path × Int64
  nowhere : place ([], 0) = ([], 0)

namespace Relocation

/-- Everything from nowhere. -/
def erase : Relocation where
  place _ := ([], 0)
  nowhere := rfl

/-- The result of a moved computation: what it gives moved by `f`, or its error at the new place. -/
def outcome {α : Type} (ρ : Relocation) (f : α → α) : Except SourceError α → Except SourceError α
  | .ok a => .ok (f a)
  | .error e =>
    .error { e with file := (ρ.place (e.file, e.line)).1, line := (ρ.place (e.file, e.line)).2 }

end Relocation

/-! ### Moving the parts of a program -/

section Move

variable (ρ : Relocation)

def Atom.move (a : Atom) : Atom :=
  { a with file := (ρ.place (a.file, a.line)).1, line := (ρ.place (a.file, a.line)).2 }

def Definition.move : Definition → Definition
  | .library name => .library (name.move ρ)
  | .constant name value => .constant (name.move ρ) value
  | .global name size => .global (name.move ρ) size
  | .word name locals body => .word (name.move ρ) (locals.map (·.move ρ)) (body.map (·.move ρ))
  | .external name lib className method =>
    .external (name.move ρ) (lib.move ρ) (className.move ρ) (method.move ρ)

/-- Only the bodies of words hold places. -/
def SymbolTables.move (t : SymbolTables) : SymbolTables :=
  { t with words := t.words.map fun w => { w with body := w.body.map (·.move ρ) } }

def Analysis.move (s : Analysis) : Analysis :=
  { s with tables := s.tables.move ρ }

end Move

/-- The tables without the places of the atoms in the bodies of words. -/
def SymbolTables.unplaced (t : SymbolTables) : SymbolTables :=
  t.move .erase

namespace Atom

variable (ρ : Relocation) (a : Atom)

@[simp] theorem move_text : (a.move ρ).text = a.text := rfl

@[simp] theorem move_kind : (a.move ρ).kind = a.kind := rfl

@[simp] theorem move_isWord (name : Bytes) : (a.move ρ).isWord name = a.isWord name := rfl

@[simp] theorem move_isName : Definition.isName (a.move ρ) = Definition.isName a := rfl

theorem move_absent : absent.move ρ = absent := by
  rw [move, absent, ρ.nowhere]

/-- What is looked for by position moves with the program. -/
theorem getD_map_move (atoms : List Atom) (offset : Nat) :
    (atoms.map (·.move ρ)).getD offset absent = (atoms.getD offset absent).move ρ := by
  have h := List.getD_map (n := offset) atoms absent (·.move ρ)
  rwa [move_absent] at h

end Atom

theorem SymbolTables.unplaced_move (ρ : Relocation) (t : SymbolTables) :
    (t.move ρ).unplaced = t.unplaced := by
  simp only [unplaced, move, List.map_map, Function.comp_def]
  rfl

/-! ### Reading moved definitions -/

namespace Relocation

variable {α β : Type} (ρ : Relocation)

/-- Computations that commute with a relocation do so one behind another. -/
theorem outcome_bind {f : α → α} {g : β → β} {x x' : Except SourceError α}
    {k k' : α → Except SourceError β} (hx : x' = ρ.outcome f x)
    (hk : ∀ a, k' (f a) = ρ.outcome g (k a)) : (x' >>= k') = ρ.outcome g (x >>= k) := by
  subst hx
  cases x with
  | error e => rfl
  | ok a => exact hk a

end Relocation

namespace Definition

/-- What reading a definition gives, at the new places. -/
def moveRead (ρ : Relocation) : Definition × List Atom → Definition × List Atom :=
  Prod.map (·.move ρ) (List.map (·.move ρ))

section Read

variable (ρ : Relocation) (start : Atom) (atoms : List Atom)

theorem nameAt_move (offset : Nat) (owner : Atom) :
    nameAt (atoms.map (·.move ρ)) offset (owner.move ρ) =
      ρ.outcome (·.move ρ) (nameAt atoms offset owner) := by
  simp only [nameAt, Atom.getD_map_move, Atom.move_text, Atom.move_isName]
  split
  · rfl
  · split <;> rfl

theorem any_sameName_move (locals : List Atom) (name : Atom) :
    ((locals.map (·.move ρ)).any fun l => sameName l.text (name.move ρ).text) =
      locals.any fun l => sameName l.text name.text := by
  simp only [List.any_map, Function.comp_def, Atom.move_text]

theorem readBody_move (locals body : List Atom) :
    readBody (start.move ρ) (locals.map (·.move ρ)) (body.map (·.move ρ))
        (atoms.map (·.move ρ)) =
      ρ.outcome (Prod.map (Prod.map (List.map (·.move ρ)) (List.map (·.move ρ)))
        (List.map (·.move ρ))) (readBody start locals body atoms) := by
  -- both take the same branch, because the conditions are about texts and kinds
  fun_induction readBody start locals body atoms with
  | case1 => rfl
  | case2 locals body a rest hsemicolon =>
    rw [List.map_cons, readBody.eq_def]
    simp only [Atom.move_isWord, hsemicolon, ↓reduceIte, ← List.map_reverse]
    rfl
  | case3 locals body a rest hsemicolon hcolon =>
    rw [List.map_cons, readBody.eq_def]
    simp only [Atom.move_isWord, hsemicolon, hcolon, ↓reduceIte]
    rfl
  | case4 locals body a hsemicolon hcolon hlocal =>
    rw [List.map_cons, List.map_nil, readBody.eq_def]
    simp only [Atom.move_isWord, hsemicolon, hcolon, hlocal, ↓reduceIte]
    rfl
  | case5 locals body a hsemicolon hcolon hlocal name rest hname =>
    rw [List.map_cons, List.map_cons, readBody.eq_def]
    simp only [Atom.move_isWord, hsemicolon, hcolon, hlocal, Atom.move_isName, hname, ↓reduceIte]
    rfl
  | case6 locals body a hsemicolon hcolon hlocal name rest hname hany =>
    rw [List.map_cons, List.map_cons, readBody.eq_def]
    simp only [Atom.move_isWord, hsemicolon, hcolon, hlocal, Atom.move_isName, hname,
      any_sameName_move, hany, ↓reduceIte]
    rfl
  | case7 locals body a hsemicolon hcolon hlocal name rest hname hany ih =>
    rw [List.map_cons, List.map_cons, readBody.eq_def]
    simp only [Atom.move_isWord, hsemicolon, hcolon, hlocal, Atom.move_isName, hname,
      any_sameName_move, hany, ↓reduceIte]
    exact ih
  | case8 locals body a rest hsemicolon hcolon hlocal ih =>
    rw [List.map_cons, readBody.eq_def]
    simp only [Atom.move_isWord, hsemicolon, hcolon, hlocal]
    exact ih

theorem readWord_move : readWord (start.move ρ) (atoms.map (·.move ρ)) =
    ρ.outcome (moveRead ρ) (readWord start atoms) := by
  refine ρ.outcome_bind (nameAt_move ρ atoms 1 start) fun name => ?_
  rw [← List.map_drop]
  exact ρ.outcome_bind (readBody_move ρ start (atoms.drop 2) [] []) fun _ => rfl

theorem readCount_move (count : Atom) :
    readCount (count.move ρ) = ρ.outcome id (readCount count) := by
  simp only [readCount, Atom.move_text]
  split
  · split <;> rfl
  · rfl

theorem readVariable_move : readVariable (start.move ρ) (atoms.map (·.move ρ)) =
    ρ.outcome (moveRead ρ) (readVariable start atoms) := by
  refine ρ.outcome_bind (nameAt_move ρ atoms 1 start) fun name => ?_
  simp only [Atom.getD_map_move, Atom.move_isWord, ← List.map_drop]
  split
  · exact ρ.outcome_bind (readCount_move ρ _) fun _ => rfl
  · rfl

theorem readValue_move (a : Atom) :
    readValue (a.move ρ) = ρ.outcome id (readValue a) := by
  simp only [readValue, Atom.move_text, Atom.move_kind]
  split
  · rfl
  · split <;> rfl
  · rfl

theorem readConstant_move : readConstant (start.move ρ) (atoms.map (·.move ρ)) =
    ρ.outcome (moveRead ρ) (readConstant start atoms) := by
  rw [readConstant, Atom.getD_map_move]
  refine ρ.outcome_bind (nameAt_move ρ atoms 2 _) fun name => ?_
  rw [← List.map_drop]
  exact ρ.outcome_bind (readValue_move ρ start) fun _ => rfl

theorem readLibrary_move : readLibrary (start.move ρ) (atoms.map (·.move ρ)) =
    ρ.outcome (moveRead ρ) (readLibrary start atoms) := by
  refine ρ.outcome_bind (nameAt_move ρ atoms 1 start) fun name => ?_
  rw [← List.map_drop]
  rfl

theorem readExternal_move : readExternal (start.move ρ) (atoms.map (·.move ρ)) =
    ρ.outcome (moveRead ρ) (readExternal start atoms) := by
  refine ρ.outcome_bind (nameAt_move ρ atoms 1 start) fun name => ?_
  refine ρ.outcome_bind (nameAt_move ρ atoms 2 start) fun library => ?_
  refine ρ.outcome_bind (nameAt_move ρ atoms 3 start) fun className => ?_
  refine ρ.outcome_bind (nameAt_move ρ atoms 4 start) fun method => ?_
  rw [← List.map_drop]
  rfl

/-- **Reading commutes with a relocation.** -/
theorem read_move (a : Atom) (rest : List Atom) :
    read (a.move ρ) (rest.map (·.move ρ)) = ρ.outcome (moveRead ρ) (read a rest) := by
  have hhead : (rest.map (·.move ρ)).headD Atom.absent = (rest.headD Atom.absent).move ρ := by
    cases rest with
    | nil => exact (Atom.move_absent ρ).symm
    | cons b rest => rfl
  simp only [read, hhead, Atom.move_isWord, ← List.map_cons]
  split
  · exact readWord_move ρ a (a :: rest)
  · split
    · exact readVariable_move ρ a (a :: rest)
    · split
      · exact readLibrary_move ρ a (a :: rest)
      · split
        · exact readExternal_move ρ a (a :: rest)
        · split
          · exact readConstant_move ρ a (a :: rest)
          · rfl

end Read

end Definition

/-! ### Analysing moved programs -/

namespace Analysis

open Definition

variable (ρ : Relocation)

theorem declare_move (s : Analysis) (name : Atom) :
    (s.move ρ).declare (name.move ρ) = ρ.outcome (·.move ρ) (s.declare name) := by
  simp only [declare, Atom.move_text]
  show (if s.names.contains name.text.toUpper then _ else _) = _
  split <;> rfl

theorem numberLocals_move (word : Bytes) (address : Nat) (locals : List Atom) :
    numberLocals word address (locals.map (·.move ρ)) = numberLocals word address locals := by
  induction locals generalizing address with
  | nil => rfl
  | cons l locals ih =>
    rw [List.map_cons, numberLocals, numberLocals, ih]
    rfl

theorem add_move (s : Analysis) (d : Definition) :
    (s.move ρ).add (d.move ρ) = ρ.outcome (·.move ρ) (s.add d) := by
  cases d with
  | library name => rfl
  | word name locals body =>
    refine ρ.outcome_bind (declare_move ρ s name) fun s => ?_
    show Except.ok _ = Except.ok _
    simp only [move, SymbolTables.move, numberLocals_move, Atom.move_text, List.map_append,
      List.map_cons, List.map_nil]
  | _ => exact ρ.outcome_bind (declare_move ρ s _) fun _ => rfl

/-- **Analysis commutes with a relocation.** -/
theorem run_move (s : Analysis) (atoms : List Atom) :
    (s.move ρ).run (atoms.map (·.move ρ)) = ρ.outcome (·.move ρ) (s.run atoms) := by
  fun_induction run s atoms with
  | case1 => exact run_nil _
  | case2 s a rest e hread =>
    rw [List.map_cons, run_cons, read_move, hread]
    rfl
  | case3 s a rest d after hread e hadd =>
    rw [List.map_cons, run_cons, read_move, hread]
    show ((s.move ρ).add (d.move ρ) >>= _) = _
    rw [add_move, hadd]
    rfl
  | case4 s a rest d after hread next hadd ih =>
    rw [List.map_cons, run_cons, read_move, hread]
    show ((s.move ρ).add (d.move ρ) >>= _) = _
    rw [add_move, hadd]
    exact ih

end Analysis

/-! ### Images of moved programs -/

namespace Manifest

variable (ρ : Relocation) (t : SymbolTables)

theorem text_move (o : CompileOptions) : text (t.move ρ) o = text t o := by
  have hword : ∀ w : Word, word { w with body := w.body.map (·.move ρ) } = word w := by
    intro w
    simp only [word, Atom.texts, List.map_map, Function.comp_def, Atom.move_text]
  have hwords : (t.move ρ).words.map word = t.words.map word := by
    simp only [SymbolTables.move, List.map_map, Function.comp_def, hword]
  rw [text, text, fields, fields, hwords]
  rfl

/-- **Images do not depend on places.** -/
theorem generate_move (d : Disk) (cancelled : Bool) (o : CompileOptions) :
    generate d cancelled (t.move ρ) o = generate d cancelled t o := by
  rw [generate, generate, text_move]
  rfl

end Manifest

/-! ### Programs that say the same -/

/-- The atoms have the same text and kind. -/
def Atom.Alike (a b : Atom) : Prop :=
  a.text = b.text ∧ a.kind = b.kind

namespace Relocation

/-- An index as a place. It is not the place of what comes from nowhere. -/
def index (i : Nat) : Path :=
  List.replicate (i + 1) 0

/-- The program with the index of each atom for its place. -/
def numbered (atoms : List Atom) : List Atom :=
  atoms.mapIdx fun i a => { a with file := index i, line := 0 }

/-- Indices to the places of the atoms with these indices. -/
def onto (atoms : List Atom) : Relocation where
  place
    | ([], line) => ([], line)
    | (b :: file, line) =>
      (atoms[file.length]?.map fun a => (a.file, a.line)).getD (b :: file, line)
  nowhere := rfl

theorem onto_index {atoms : List Atom} {i : Nat} {a : Atom} (h : atoms[i]? = some a) :
    (onto atoms).place (index i, 0) = (a.file, a.line) := by
  simp [onto, index, List.replicate_succ, h]

/-- An error at an index moves to the atom with this index. -/
theorem outcome_onto_error {α : Type} (f : α → α) {atoms : List Atom} {e : SourceError} {i : Nat}
    {a : Atom} (hplace : (e.file, e.line) = (index i, 0)) (ha : atoms[i]? = some a) :
    (onto atoms).outcome f (.error e) = .error { e with file := a.file, line := a.line } := by
  rw [outcome, hplace, onto_index ha]

/-- The errors of a numbered program stand at indices. -/
theorem exists_index_of_run {s : Analysis} {atoms : List Atom} {e : SourceError}
    (h : s.run (numbered atoms) = .error e) :
    ∃ i < atoms.length, (e.file, e.line) = (index i, 0) := by
  obtain ⟨-, c, hc, hfile, hline⟩ := Analysis.blames_of_run h
  obtain ⟨i, hi, rfl⟩ := List.mem_mapIdx.1 hc
  exact ⟨i, hi, Prod.ext hfile hline⟩

/-- A program is a moved copy of every numbered program that says the same. -/
theorem map_move_numbered {as bs : List Atom} (h : List.Forall₂ Atom.Alike as bs) :
    (numbered as).map (·.move (onto bs)) = bs := by
  refine List.ext_getElem (by simp [numbered, h.length_eq]) fun i hi hb => ?_
  have ha : i < as.length := h.length_eq ▸ hb
  obtain ⟨htext, hkind⟩ : as[i].Alike bs[i] := h.get ha hb
  simp only [numbered, List.getElem_map, List.getElem_mapIdx, Atom.move,
    onto_index (List.getElem?_eq_getElem hb), htext, hkind]

/-- What an analysis finds is what it finds in a numbered program that says the same, moved. -/
theorem run_eq_outcome_numbered {as bs : List Atom} (h : List.Forall₂ Atom.Alike as bs) :
    Analysis.run {} bs =
      (onto bs).outcome (·.move (onto bs)) (Analysis.run {} (numbered as)) := by
  rw [← Analysis.run_move, map_move_numbered h]
  rfl

end Relocation

/-- **The place of a program does not matter.** Two programs of atoms with the same texts and kinds
are both accepted or both refused. If they are accepted, their tables differ in the places of the
atoms in the bodies of words, and their images are the same. If they are refused, then by the same
error, and it stands at atoms with the same index. -/
theorem analyze_depends_on_texts (cancelled : Bool) (as bs : List Atom)
    (h : List.Forall₂ Atom.Alike as bs) :
    (∃ t u, (analyze cancelled as).result = .ok t ∧ (analyze cancelled bs).result = .ok u ∧
      t.unplaced = u.unplaced ∧ (∀ o, Manifest.text t o = Manifest.text u o) ∧
      ∀ d stopped o, Manifest.generate d stopped t o = Manifest.generate d stopped u o) ∨
    (∃ (i : Nat) (a b : Atom) (e : SourceError), as[i]? = some a ∧ bs[i]? = some b ∧
      (analyze cancelled as).result =
        .error (.source { e with file := a.file, line := a.line }) ∧
      (analyze cancelled bs).result =
        .error (.source { e with file := b.file, line := b.line })) ∨
    cancelled = true ∧ (analyze cancelled as).result = .error .cancelled ∧
      (analyze cancelled bs).result = .error .cancelled := by
  have hempty : bs.isEmpty = as.isEmpty := by
    cases h <;> rfl
  unfold analyze
  rw [hempty]
  split
  · next hcancelled => exact .inr (.inr ⟨(Bool.and_eq_true_iff.1 hcancelled).1, rfl, rfl⟩)
  · have hsame : List.Forall₂ Atom.Alike as as := List.forall₂_same.2 fun _ _ => ⟨rfl, rfl⟩
    -- one numbered program stands for both
    rw [Relocation.run_eq_outcome_numbered hsame, Relocation.run_eq_outcome_numbered h]
    cases hnumbered : Analysis.run {} (Relocation.numbered as) with
    | ok s =>
      refine .inl ⟨_, _, rfl, rfl, ?_, fun o => ?_, fun d stopped o => ?_⟩
      · exact (SymbolTables.unplaced_move _ s.tables).trans (SymbolTables.unplaced_move _ _).symm
      · exact (Manifest.text_move _ s.tables o).trans (Manifest.text_move _ _ o).symm
      · exact (Manifest.generate_move _ s.tables d stopped o).trans
          (Manifest.generate_move _ _ d stopped o).symm
    | error e =>
      obtain ⟨i, hi, hplace⟩ := Relocation.exists_index_of_run hnumbered
      have ha : as[i]? = some as[i] := List.getElem?_eq_getElem hi
      have hb : bs[i]? = some (bs.get ⟨i, h.length_eq ▸ hi⟩) := List.getElem?_eq_getElem _
      refine .inr (.inl ⟨i, _, _, e, ha, hb, ?_, ?_⟩)
      · rw [Relocation.outcome_onto_error _ hplace ha]
      · rw [Relocation.outcome_onto_error _ hplace hb]

namespace Reflowed

/-- The texts as words on one line. -/
def onLine (texts : List Bytes) : List Atom :=
  texts.map fun text => ⟨text, .word, "a", 1⟩

/-- The texts as words of another file, each on a line of its own. -/
def onLines (texts : List Bytes) : List Atom :=
  texts.mapIdx fun i text => ⟨text, .word, "b", Int64.ofNat (i + 1)⟩

theorem alike (texts : List Bytes) : List.Forall₂ Atom.Alike (onLine texts) (onLines texts) := by
  refine List.forall₂_iff_get.2 ⟨by simp [onLine, onLines], fun i _ _ => ?_⟩
  simp [onLine, onLines, Atom.Alike]

/-- A word with a body, whose tables show where it is written. -/
def accepted : List Bytes := [":", "w", "x", "y", ";"]

/-- A variable that is declared twice. -/
def refused : List Bytes := ["VARIABLE", "v", "VARIABLE", "V"]

end Reflowed

open Reflowed in
theorem analyze_depends_on_texts_reflowed :
    (∃ t u, (analyze false (onLine accepted)).result = .ok t ∧
      (analyze false (onLines accepted)).result = .ok u ∧ t ≠ u ∧ t.unplaced = u.unplaced ∧
      ∀ d stopped o, Manifest.generate d stopped t o = Manifest.generate d stopped u o) ∧
    ∃ e : SourceError,
      (analyze false (onLine refused)).result = .error (.source { e with file := "a", line := 1 }) ∧
      (analyze false (onLines refused)).result =
        .error (.source { e with file := "b", line := 4 }) := by
  constructor
  · have hne : (analyze false (onLine accepted)).result.toOption ≠
        (analyze false (onLines accepted)).result.toOption := by decide +kernel
    obtain ⟨t, u, ht, hu, hunplaced, -, himage⟩ | ⟨i, a, b, e, -, -, ht, -⟩ | ⟨hcancelled, -⟩ :=
      analyze_depends_on_texts false _ _ (alike accepted)
    · refine ⟨t, u, ht, hu, ?_, hunplaced, himage⟩
      rintro rfl
      exact hne (by rw [ht, hu])
    · have hok : (analyze false (onLine accepted)).result.isOk = true := by decide +kernel
      rw [ht] at hok
      cases hok
    · cases hcancelled
  · obtain ⟨t, u, ht, -⟩ | ⟨i, a, b, e, ha, hb, hea, heb⟩ | ⟨hcancelled, -⟩ :=
      analyze_depends_on_texts false _ _ (alike refused)
    · have hok : (analyze false (onLine refused)).result.isOk = false := by decide +kernel
      rw [ht] at hok
      cases hok
    · have hplaces :
          ((analyze false (onLine refused)).result, (analyze false (onLines refused)).result) =
            (.error (.source ⟨.duplicateDefinition, "a", 1, "V", none⟩),
              .error (.source ⟨.duplicateDefinition, "b", 4, "V", none⟩)) := by decide +kernel
      rw [hea, heb] at hplaces
      simp only [Prod.mk.injEq, Except.error.injEq, Failure.source.injEq,
        SourceError.mk.injEq] at hplaces
      obtain ⟨⟨-, hfile, hline, -⟩, -, hfile', hline', -⟩ := hplaces
      exact ⟨e, by rw [hea, hfile, hline], by rw [heb, hfile', hline']⟩
    · cases hcancelled

end ForthFrontend
