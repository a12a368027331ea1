import ForthFrontend.Proofs.Scan.Gap
import Mathlib.Data.List.Forall2

/-!
# Blanks at the ends of lines

Carriage returns, spaces, tabs and form feeds in front of a line feed stand behind the last token of
their line. They close no literal and end no word that did not end there anyway, so every line keeps
its tokens, and with them the comment state it leaves.

## Main definitions

* `Source.Padded`: a text with blanks put in front of some of its line feeds.
* `Source.withReturns`: a text with a carriage return in front of every line feed.

## Main results

* `Token.split_append_blanks`: blanks at the end of a line have no tokens.
* `Source.Padded.trails_lines`: the lines of a padded text.
* `Source.Padded.atoms_eq`: a padded text has the same atoms, or the same error.
-/

namespace ForthFrontend

/-- Blanks at the end of a text have no tokens and change none. -/
theorem Token.split_append_blanks {blanks : Bytes} (hblanks : ∀ c ∈ blanks, isGap c = true)
    (s : Bytes) : split (s ++ blanks) = split s := by
  have hends : Ends blanks := by
    intro c hc
    exact hblanks c (List.mem_of_mem_head? hc)
  have hquote : Bytes.quote ∉ blanks := by
    intro hmem
    exact absurd (hblanks _ hmem) (by decide)
  have hnone : split blanks = [] := by
    have hsplit := split_gap_append hblanks []
    rwa [List.append_nil, split_nil] at hsplit
  rw [split_append hends (.inr hquote), hnone, List.append_nil]

namespace Source

/-! ### Padded texts -/

/-- Tab, form feed, carriage return and space: what padding consists of. -/
def isPadding (c : UInt8) : Bool :=
  c == 0x09 || c == 0x0C || c == Bytes.cr || c == Bytes.space

/-- The second text is the first with padding put in front of some of its line feeds. -/
inductive Padded : Bytes → Bytes → Prop
  | rest (text : Bytes) : Padded text text
  | line {s t : Bytes} (text padding : Bytes) (hpadding : ∀ c ∈ padding, isPadding c = true)
    (h : Padded s t) : Padded (text ++ Bytes.lf :: s) (text ++ padding ++ Bytes.lf :: t)

/-- The text with a carriage return in front of every line feed. -/
def withReturns (content : Bytes) : Bytes :=
  content.flatMap fun c => if c = Bytes.lf then [Bytes.cr, Bytes.lf] else [c]

/-- Carriage returns in front of line feeds are padding. -/
theorem padded_withReturns (content : Bytes) : Padded content (withReturns content) := by
  -- the text in front of the next line feed is kept, so it is carried along
  suffices h : ∀ text, Padded (text ++ content) (text ++ withReturns content) from h []
  induction content with
  | nil => exact fun text => .rest (text ++ [])
  | cons c content ih =>
    intro text
    by_cases hc : c = Bytes.lf
    · have hreturns : withReturns (c :: content) = [Bytes.cr] ++ Bytes.lf :: withReturns content := by
        simp [withReturns, hc]
      rw [hreturns, hc, ← List.append_assoc]
      exact .line text [Bytes.cr] (List.forall_mem_singleton.2 rfl) (ih [])
    · have hreturns : withReturns (c :: content) = c :: withReturns content := by
        simp [withReturns, hc]
      rw [hreturns, List.append_cons, List.append_cons text c (withReturns content)]
      exact ih (text ++ [c])

theorem isGap_of_isPadding {c : UInt8} (h : isPadding c = true) : Token.isGap c = true := by
  simp only [isPadding, Bool.or_eq_true, beq_iff_eq] at h
  obtain ((rfl | rfl) | rfl) | rfl := h <;> decide

theorem lf_notMem_padding {padding : Bytes} (h : ∀ c ∈ padding, isPadding c = true) :
    Bytes.lf ∉ padding := by
  intro hmem
  exact absurd (h _ hmem) (by decide)

/-! ### Lines -/

/-- The second line is the first with padding at its end. -/
def Trails (text text' : Bytes) : Prop :=
  ∃ padding, (∀ c ∈ padding, isPadding c = true) ∧ text' = text ++ padding

theorem Trails.refl (text : Bytes) : Trails text text :=
  ⟨[], by simp, by simp⟩

theorem trails_splitOn {padding : Bytes} (hpadding : ∀ c ∈ padding, isPadding c = true)
    (text : Bytes) :
    List.Forall₂ Trails (text.splitOn Bytes.lf) ((text ++ padding).splitOn Bytes.lf) := by
  induction hn : text.length using Nat.strongRecOn generalizing text with
  | ind n ih =>
    by_cases hlf : Bytes.lf ∈ text
    · obtain ⟨front, back, rfl, -⟩ := List.eq_append_cons_of_mem hlf
      rw [List.append_assoc, List.cons_append, splitOn_lf_append, splitOn_lf_append]
      refine List.rel_append (List.forall₂_same.2 fun line _ => .refl line)
        (ih back.length ?_ back rfl)
      rw [List.length_append, List.length_cons] at hn
      omega
    · -- the last line is the one that is padded
      have hlf' : Bytes.lf ∉ text ++ padding := by
        rw [List.mem_append, not_or]
        exact ⟨hlf, lf_notMem_padding hpadding⟩
      rw [List.splitOn_eq_singleton hlf, List.splitOn_eq_singleton hlf']
      exact .cons ⟨padding, hpadding, rfl⟩ .nil

/-- **The lines of a padded text** are the lines of the text with padding at their ends. -/
theorem Padded.trails_lines {s t : Bytes} (h : Padded s t) :
    List.Forall₂ Trails (lines s) (lines t) := by
  induction h with
  | rest text => exact List.forall₂_same.2 fun line _ => .refl line
  | line text padding hpadding _ ih =>
    rw [lines_append, lines_append]
    exact List.rel_append (trails_splitOn hpadding text) ih

/-- What a line keeps does not depend on the return at its end. -/
theorem keepLine_eq (inComment : Bool) (text : Bytes) :
    keepLine inComment text = Scan.keep inComment (Token.split text) := by
  rw [keepLine, dropReturn]
  split
  · next hlast =>
    obtain ⟨front, rfl⟩ := List.getLast?_eq_some_iff.1 (beq_iff_eq.1 hlast)
    rw [List.dropLast_concat, Token.split_append_blanks (List.forall_mem_singleton.2 rfl)]
  · rfl

theorem Trails.keepLine_eq {text text' : Bytes} (h : Trails text text') (inComment : Bool) :
    keepLine inComment text' = keepLine inComment text := by
  obtain ⟨padding, hpadding, rfl⟩ := h
  rw [Source.keepLine_eq, Source.keepLine_eq,
    Token.split_append_blanks fun c hc => isGap_of_isPadding (hpadding c hc)]

/-- Padding at the ends of lines changes no atom. -/
theorem scanned_of_trails {ls ms : List Bytes} (h : List.Forall₂ Trails ls ms) (path : Path)
    (number : Nat) (inComment : Bool) :
    scanned path number inComment ms = scanned path number inComment ls := by
  induction h generalizing number inComment with
  | nil => rfl
  | cons hline _ ih => rw [scanned, scanned, hline.keepLine_eq, ih]

/-! ### Files -/

/-- The atoms of a text whose lines fit into the line buffer. -/
theorem atoms_of_short {content : Bytes} (hshort : IsShort content) (strict : Bool) (path : Path) :
    atoms strict path content =
      match if strict then (scanned path 1 false (lines content)).find? Atom.opensString
        else none with
      | none => .ok (scanned path 1 false (lines content))
      | some a => .error (.source (.unclosed a)) := by
  cases strict with
  | false => exact atoms_of_closed hshort (by simp)
  | true =>
    simp only [↓reduceIte]
    cases hopen : (scanned path 1 false (lines content)).find? Atom.opensString with
    | none => exact atoms_of_closed hshort fun _ => hopen
    | some a => exact scanLines_of_unclosed [] hshort hopen

/-- **Padding changes neither the atoms of a text nor its error**, if all lines fit. -/
theorem Padded.atoms_eq {s t : Bytes} (h : Padded s t) (hs : IsShort s) (ht : IsShort t)
    (strict : Bool) (path : Path) : atoms strict path t = atoms strict path s := by
  rw [atoms_of_short hs, atoms_of_short ht, scanned_of_trails h.trails_lines]

end Source

end ForthFrontend
