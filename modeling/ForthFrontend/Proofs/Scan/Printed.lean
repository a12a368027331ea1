import ForthFrontend.Proofs.Include.Conservation
import ForthFrontend.Proofs.Include.Position

/-!
# Scanning a printed program

A program is printed by putting its texts on one line with a space between neighbours. A literal
keeps its two quotation marks, so it is read back whatever stands next to it. A word is read back
if a gap follows and if it does not begin like a literal, for then no quotation mark further down
the line can close it. Strict scanning lets no other word through, and markers never become atoms,
so the line of a strict program gives its atoms again.

## Main definitions

* `Token.IsWhole`: the tokens that are read back.
* `Atom.IsStable`: the atoms that scanning the line they stand on gives again.

## Main results

* `Token.split_text_append`: a whole token in front of a gap is the first token of the line.
* `Token.split_joinWith`: whole tokens with spaces between them are the tokens of the line.
* `Include.forall_mem_of_parse`: what holds of the atoms of every file holds of the atoms of a
  program.
* `Include.line_sequenceText_of_parse`: scanning a printed strict program gives it again.
-/

namespace ForthFrontend

namespace Token

/-! ### Whole tokens -/

/-- A literal with both of its quotation marks, or a word that does not begin like a literal. -/
inductive IsWhole : Token → Prop
  | display {body : Bytes} (hbody : Bytes.quote ∉ body) :
    IsWhole ⟨.displayString, displayOpening ++ body ++ [Bytes.quote]⟩
  | dump {body : Bytes} (hbody : Bytes.quote ∉ body) :
    IsWhole ⟨.dumpString, dumpOpening ++ body ++ [Bytes.quote]⟩
  | word {b : UInt8} {rest : Bytes} (hgap : ∀ c ∈ b :: rest, isGap c = false)
    (hopen : opensString ⟨.word, b :: rest⟩ = false) : IsWhole ⟨.word, b :: rest⟩

theorem IsWhole.opensString_eq {t : Token} (h : t.IsWhole) : t.opensString = false := by
  cases h with
  | display hbody => rfl
  | dump hbody => rfl
  | word hgap hopen => exact hopen

section Literal

variable {opening body s text after : Bytes}

theorem dropWhile_quote (hbody : Bytes.quote ∉ body) (after : Bytes) :
    (body ++ Bytes.quote :: after).dropWhile (· != Bytes.quote) = Bytes.quote :: after := by
  rw [List.dropWhile_append_of_pos]
  · rfl
  · intro c hc
    rw [bne_iff_ne]
    rintro rfl
    exact hbody hc

theorem takeWhile_quote (hbody : Bytes.quote ∉ body) (after : Bytes) :
    (body ++ Bytes.quote :: after).takeWhile (· != Bytes.quote) = body := by
  rw [List.takeWhile_append_of_pos]
  · exact List.append_nil body
  · intro c hc
    rw [bne_iff_ne]
    rintro rfl
    exact hbody hc

/-- A literal is found up to its second quotation mark. -/
theorem literal?_append (opening : Bytes) (hbody : Bytes.quote ∉ body) (after : Bytes) :
    literal? opening (opening ++ body ++ [Bytes.quote] ++ after) =
      some (opening ++ body ++ [Bytes.quote], after) := by
  have hshape : opening ++ body ++ [Bytes.quote] ++ after =
      opening ++ (body ++ Bytes.quote :: after) := by simp
  have hstarts : Bytes.startsWith (opening ++ (body ++ Bytes.quote :: after)) opening = true :=
    List.isPrefixOf_iff_prefix.2 (List.prefix_append _ _)
  rw [hshape, literal?, if_pos hstarts, List.drop_left]
  simp only [dropWhile_quote hbody, takeWhile_quote hbody]

/-- What is found as a literal has no quotation mark between its two. -/
theorem exists_body_of_literal? (h : literal? opening s = some (text, after)) :
    ∃ body, Bytes.quote ∉ body ∧ text = opening ++ body ++ [Bytes.quote] := by
  rw [literal?] at h
  split at h
  · simp only at h
    split at h
    · cases h
    · obtain ⟨htext, -⟩ := Prod.mk.inj (Option.some.inj h)
      refine ⟨_, ?_, htext.symm⟩
      intro hmem
      simpa using List.all_eq_true.1 List.all_takeWhile _ hmem
  · cases h

theorem literal?_of_not_startsWith (h : Bytes.startsWith s opening = false) :
    literal? opening s = none := by
  rw [literal?, h]
  rfl

end Literal

/-! ### The first token of a line -/

/-- The text is empty or begins with a gap. -/
def Ends (after : Bytes) : Prop :=
  ∀ c ∈ after.head?, isGap c = true

theorem ends_nil : Ends [] := by
  intro c hc
  cases hc

theorem ends_space (after : Bytes) : Ends (Bytes.space :: after) := by
  rintro c ⟨⟩
  rfl

/-- A word is taken up to the gap that ends it. -/
theorem takeWhile_dropWhile_word {word after : Bytes} (hword : ∀ c ∈ word, isGap c = false)
    (hafter : Ends after) : (word ++ after).takeWhile (!isGap ·) = word ∧
      (word ++ after).dropWhile (!isGap ·) = after := by
  rw [List.takeWhile_append_of_pos (by simpa using hword),
    List.dropWhile_append_of_pos (by simpa using hword)]
  cases after with
  | nil => simp
  | cons c after =>
    have hc : isGap c = true := hafter c rfl
    simp [hc]

/-- No literal begins with a word and goes on behind the gap that ends the word. -/
theorem startsWith_append (b : UInt8) (rest : Bytes) {after : Bytes} (hafter : Ends after) :
    Bytes.startsWith (b :: rest ++ after) displayOpening =
        Bytes.startsWith (b :: rest) displayOpening ∧
      Bytes.startsWith (b :: rest ++ after) dumpOpening =
        Bytes.startsWith (b :: rest) dumpOpening := by
  constructor
  · cases rest with
    | cons c rest => rfl
    | nil =>
      cases after with
      | nil => rfl
      | cons c after =>
        have hgap : isGap c = true := hafter c rfl
        have hne : Bytes.quote ≠ c := by
          rintro rfl
          exact absurd hgap (by decide)
        simp [Bytes.startsWith, displayOpening, List.isPrefixOf, hne]
  · rfl

/-- **A whole token in front of a gap** is the first token. -/
theorem IsWhole.exists_first {t : Token} (h : t.IsWhole) :
    ∃ b rest, t.text = b :: rest ∧ isGap b = false ∧
      ∀ after, Ends after → first b (rest ++ after) = (t, after) := by
  cases h with
  | @display body hbody =>
    refine ⟨Bytes.dot, Bytes.quote :: (body ++ [Bytes.quote]), rfl, by decide, ?_⟩
    intro after _
    have hliteral := literal?_append displayOpening hbody after
    rw [first, show Bytes.dot :: (Bytes.quote :: (body ++ [Bytes.quote]) ++ after) =
      displayOpening ++ body ++ [Bytes.quote] ++ after from rfl, hliteral]
  | @dump body hbody =>
    refine ⟨Bytes.quote, body ++ [Bytes.quote], rfl, by decide, ?_⟩
    intro after _
    have hliteral := literal?_append dumpOpening hbody after
    have hnone : literal? displayOpening (Bytes.quote :: (body ++ [Bytes.quote] ++ after)) = none :=
      literal?_of_not_startsWith rfl
    rw [first, hnone, show Bytes.quote :: (body ++ [Bytes.quote] ++ after) =
      dumpOpening ++ body ++ [Bytes.quote] ++ after from rfl, hliteral]
  | @word b rest hgap hopen =>
    obtain ⟨hb, hrest⟩ := List.forall_mem_cons.1 hgap
    refine ⟨b, rest, rfl, hb, ?_⟩
    intro after hafter
    have hstarts := startsWith_append b rest hafter
    have hopens : Bytes.startsWith (b :: rest) displayOpening = false ∧
        Bytes.startsWith (b :: rest) dumpOpening = false := by
      simpa [opensString] using hopen
    obtain ⟨htake, hdrop⟩ := takeWhile_dropWhile_word hrest hafter
    rw [first, ← List.cons_append, literal?_of_not_startsWith (hstarts.1.trans hopens.1),
      literal?_of_not_startsWith (hstarts.2.trans hopens.2), htake, hdrop]

/-- The first token of a text is whole, unless it is a word that begins like a literal. -/
theorem isWhole_first {b : UInt8} {rest : Bytes} (hb : isGap b = false)
    (hopen : (first b rest).1.opensString = false) : (first b rest).1.IsWhole := by
  rw [first] at hopen ⊢
  split at hopen
  · next h =>
    obtain ⟨body, hbody, rfl⟩ := exists_body_of_literal? h
    exact .display hbody
  · split at hopen
    · next h =>
      obtain ⟨body, hbody, rfl⟩ := exists_body_of_literal? h
      exact .dump hbody
    · refine .word (List.forall_mem_cons.2 ⟨hb, ?_⟩) hopen
      intro c hc
      simpa using List.all_eq_true.1 List.all_takeWhile _ hc

/-! ### The tokens of a line -/

theorem collect_eq_append (found : List Token) (s : Bytes) :
    collect found s = found.reverse ++ split s := by
  rw [split]
  induction hn : s.length using Nat.strongRecOn generalizing found s with
  | ind n ih =>
    rw [collect, collect.eq_def []]
    split
    · simp
    · next b rest hs =>
      have hlt : (first b rest).2.length < n := by
        have h1 := (List.dropWhile_suffix (l := s) isGap).length_le
        have h2 := length_first_le b rest
        rw [hs, List.length_cons] at h1
        omega
      rw [ih _ hlt _ _ rfl, ih _ hlt [_] _ rfl]
      simp

/-- The tokens of a text are its first token and the tokens behind it. -/
theorem split_eq (s : Bytes) : split s = match s.dropWhile isGap with
    | [] => []
    | b :: rest => (first b rest).1 :: split (first b rest).2 := by
  rw [split, collect]
  split
  · next hs => rw [hs]; rfl
  · next hs => rw [hs]; exact collect_eq_append [_] _

theorem split_nil : split [] = [] :=
  split_eq []

theorem split_space_cons (s : Bytes) : split (Bytes.space :: s) = split s := by
  rw [split_eq, split_eq s]
  rfl

/-- **A whole token in front of a gap** comes first among the tokens. -/
theorem split_text_append {t : Token} (ht : t.IsWhole) {after : Bytes} (hafter : Ends after) :
    split (t.text ++ after) = t :: split after := by
  obtain ⟨b, rest, htext, hb, hfirst⟩ := ht.exists_first
  have hdrop : (t.text ++ after).dropWhile isGap = b :: (rest ++ after) := by
    rw [htext, List.cons_append, List.dropWhile_cons_of_neg (by simp [hb])]
  rw [split_eq, hdrop]
  simp only [hfirst after hafter]

/-- **Whole tokens with spaces between them** are the tokens of the line. -/
theorem split_joinWith {ts : List Token} (hts : ∀ t ∈ ts, t.IsWhole) :
    split (Bytes.joinWith [Bytes.space] (ts.map text)) = ts := by
  induction ts with
  | nil => exact split_nil
  | cons t ts ih =>
    obtain ⟨ht, hts⟩ := List.forall_mem_cons.1 hts
    cases ts with
    | nil =>
      have hlast := split_text_append ht ends_nil
      rw [List.append_nil, split_nil] at hlast
      simpa [Bytes.joinWith] using hlast
    | cons u ts =>
      have hjoin : Bytes.joinWith [Bytes.space] ((t :: u :: ts).map text) =
          t.text ++ Bytes.space :: Bytes.joinWith [Bytes.space] ((u :: ts).map text) := by
        simp [Bytes.joinWith, List.intercalate_cons_cons]
      rw [hjoin, split_text_append ht (ends_space _), split_space_cons, ih hts]

theorem isWhole_of_mem_collect {found : List Token} {s : Bytes} {t : Token}
    (ht : t ∈ collect found s) (hopen : t.opensString = false) : t ∈ found ∨ t.IsWhole := by
  fun_induction collect found s with
  | case1 found s hnil => exact .inl (List.mem_reverse.1 ht)
  | case2 found s b rest hs ih =>
    have hb : isGap b = false := by
      simpa [hs] using List.head?_dropWhile_not (p := isGap) (l := s)
    rcases ih ht with ht | ht
    · rcases List.mem_cons.1 ht with rfl | ht
      · exact .inr (isWhole_first hb hopen)
      · exact .inl ht
    · exact .inr ht

theorem isWhole_of_mem_split {line : Bytes} {t : Token} (ht : t ∈ split line)
    (hopen : t.opensString = false) : t.IsWhole :=
  (isWhole_of_mem_collect ht hopen).resolve_left List.not_mem_nil

end Token

namespace Scan

/-! ### Printed tokens -/

theorem marker?_of_mem_keep {inComment : Bool} {ts : List Token} {t : Token}
    (ht : t ∈ (keep inComment ts).1) : t.marker? = none := by
  induction ts generalizing inComment with
  | nil => cases ht
  | cons u ts ih =>
    rw [keep] at ht
    split at ht
    · cases ht
    · exact ih ht
    · exact ih ht
    · next hmarker =>
      split at ht
      · exact ih ht
      · rcases List.mem_cons.1 ht with rfl | ht
        · exact hmarker
        · exact ih ht

/-- Outside a comment, tokens that are no markers are kept and open none. -/
theorem keep_of_unmarked {ts : List Token} (hts : ∀ t ∈ ts, t.marker? = none) :
    keep false ts = (ts, false) := by
  induction ts with
  | nil => rfl
  | cons t ts ih =>
    obtain ⟨ht, hts⟩ := List.forall_mem_cons.1 hts
    simp only [keep, ht, ih hts, Bool.false_eq_true, ↓reduceIte]

/-- **A line of whole tokens** that are no markers is scanned to their atoms, strictly or not. -/
theorem line_joinWith {ts : List Token} (hwhole : ∀ t ∈ ts, t.IsWhole)
    (hmarker : ∀ t ∈ ts, t.marker? = none) (place : Place) :
    line place false (Bytes.joinWith [Bytes.space] (ts.map Token.text)) =
      ⟨.ok (ts.map place.atom), false⟩ := by
  have hkeep := keep_of_unmarked hmarker
  have hopen : place.strict = true → ∀ t ∈ (keep false ts).1, t.opensString = false := by
    intro _ t ht
    rw [hkeep] at ht
    exact (hwhole t ht).opensString_eq
  rw [line, Token.split_joinWith hwhole, tokens_of_closed [] hopen, hkeep]
  rfl

end Scan

/-! ### Printed programs -/

namespace Atom

/-- The token that an atom was made from. -/
def token (a : Atom) : Token :=
  ⟨a.kind, a.text⟩

/-- Scanning a line on which the atom stands between spaces gives it again. -/
structure IsStable (a : Atom) : Prop where
  whole : a.token.IsWhole
  marker : a.token.marker? = none

theorem sequenceText_eq (atoms : List Atom) : sequenceText atoms =
    Bytes.joinWith [Bytes.space] ((atoms.map token).map Token.text) := by
  rw [sequenceText, texts, List.map_map]
  rfl

end Atom

/-- **Printed atoms that are stable** are scanned to the same texts and kinds. -/
theorem Scan.line_sequenceText {atoms : List Atom} (h : ∀ a ∈ atoms, a.IsStable)
    (place : Scan.Place) : Scan.line place false (Atom.sequenceText atoms) =
      ⟨.ok (atoms.map fun a => { a with file := place.file, line := place.line }), false⟩ := by
  rw [Atom.sequenceText_eq, Scan.line_joinWith, List.map_map]
  · rfl
  · exact List.forall_mem_map.2 fun a ha => (h a ha).whole
  · exact List.forall_mem_map.2 fun a ha => (h a ha).marker

namespace Source

theorem exists_kept_of_mem_scanned {path : Path} {number : Nat} {inComment : Bool}
    {lines : List Bytes} {a : Atom} (ha : a ∈ scanned path number inComment lines) :
    ∃ state text, a.token ∈ (keepLine state text).1 := by
  induction lines generalizing number inComment with
  | nil => cases ha
  | cons text lines ih =>
    rcases List.mem_append.1 ha with ha | ha
    · obtain ⟨t, ht, rfl⟩ := List.mem_map.1 ha
      exact ⟨inComment, text, ht⟩
    · exact ih ha

/-- The atoms of a file that is composed strictly are stable. -/
theorem isStable_of_mem_compose {d : Disk} {path : Path} {found : List Atom}
    (h : compose d true false path = .ok found) : ∀ a ∈ found, a.IsStable := by
  intro a ha
  have hloose := compose_loose_of_ok h
  have hclosed : a.token.opensString = false := by
    rw [compose_strict_of_ok hloose] at h
    split at h
    · next hnone => exact Bool.eq_false_iff.2 (List.find?_eq_none.1 hnone a ha)
    · cases h
  obtain ⟨content, -, -, rfl⟩ := exists_read_of_compose hloose
  obtain ⟨state, text, hkept⟩ := exists_kept_of_mem_scanned ha
  exact ⟨Token.isWhole_of_mem_split (Scan.mem_of_mem_keep hkept) hclosed,
    Scan.marker?_of_mem_keep hkept⟩

end Source

namespace Include

section Everywhere

variable {s : Setting} {P : Atom → Prop}

/-- A step keeps what holds of the atoms of every file. -/
theorem Resolution.forall_mem_next
    (hfiles : ∀ path found, s.compose path = .ok found → ∀ a ∈ found, P a)
    {r r' : Resolution s} (hr : ∀ a ∈ r.atoms, P a) (hnext : Next r r') :
    ∀ a ∈ r'.atoms, P a := by
  obtain ⟨front, d, t, rest, included, -, -, hatoms, -, hfetch, rfl⟩ := next_cases hnext
  obtain ⟨q, hq, -⟩ := r.readAhead.exists_compose_of_fetch (s.disk.includePath d.file t.text) rfl
  have hincluded : ∀ a ∈ included, P a := hfiles q included (hq.symm.trans hfetch)
  rw [hatoms] at hr
  intro a ha
  simp only [spliceAt, List.mem_append] at ha
  obtain (ha | ha) | ha := ha
  · exact hr a (List.mem_append_left _ ha)
  · exact hincluded a ha
  · exact hr a (List.mem_append_right _ (List.mem_cons_of_mem _ (List.mem_cons_of_mem _ ha)))

/-- A run keeps what holds of the atoms of every file. -/
theorem Resolution.forall_mem_run
    (hfiles : ∀ path found, s.compose path = .ok found → ∀ a ∈ found, P a)
    {r : Resolution s} (hr : ∀ a ∈ r.atoms, P a) {out : List Atom}
    (hout : r.run.result = .ok out) : ∀ a ∈ out, P a := by
  revert hr hout
  refine run_induction (motive := fun r result =>
    (∀ a ∈ r.atoms, P a) → result = .ok out → ∀ a ∈ out, P a) ?finished ?spliced r
  case finished =>
    rintro r result hstep hr rfl
    rw [atoms_of_step hstep]
    exact hr
  case spliced =>
    intro r next result hnext ih hr hout
    exact ih (forall_mem_next hfiles hr hnext) hout

/-- **What holds of the atoms of every file** holds of the atoms of a program. -/
theorem forall_mem_of_parse
    (hfiles : ∀ path found, s.compose path = .ok found → ∀ a ∈ found, P a) {cancelled : Bool}
    {entry : Path} {out : List Atom} (h : (parse s cancelled entry).result = .ok out) :
    ∀ a ∈ out, P a := by
  obtain rfl := not_cancelled_of_parse_eq_ok h
  cases hc : s.compose entry with
  | error f =>
    rw [parse_of_error hc] at h
    cases h
  | ok first =>
    rw [parse_of_ok hc] at h
    exact Resolution.forall_mem_run hfiles (hfiles entry first hc) h

end Everywhere

/-- **Printing a strict program and scanning it again changes nothing** but the places of its
atoms, whether the second scan is strict or not. -/
theorem line_sequenceText_of_parse {s : Setting} (hstrict : s.strict = true) {cancelled : Bool}
    {entry : Path} {atoms : List Atom} (h : (parse s cancelled entry).result = .ok atoms)
    (place : Scan.Place) : Scan.line place false (Atom.sequenceText atoms) =
      ⟨.ok (atoms.map fun a => { a with file := place.file, line := place.line }), false⟩ := by
  have hfiles : ∀ path found, s.compose path = .ok found → ∀ a ∈ found, a.IsStable := by
    intro path found hc
    rw [Setting.compose, hstrict] at hc
    exact Source.isStable_of_mem_compose hc
  exact Scan.line_sequenceText (forall_mem_of_parse hfiles h) place

namespace Reprinted

/-- The entry file has comments over two lines, a string that looks like one, and a word with
quotation marks inside; the file it includes ends with a string. -/
def disk : Disk where
  workDir := []
  entries := [(["m"], .file "( a\nb ) .\" ( x\" a\"b\"\nLOAD f \\ c\n. z"),
    (["f"], .file "\" 1\"2")]

def setting : Setting :=
  { disk := disk, strict := true, workers := 3 }

def program : List Atom :=
  [⟨".\" ( x\"", .displayString, "m", 2⟩, ⟨"a\"b\"", .word, "m", 2⟩,
    ⟨"\" 1\"", .dumpString, "f", 1⟩, ⟨"2", .word, "f", 1⟩, ⟨".", .word, "m", 4⟩,
    ⟨"z", .word, "m", 4⟩]

theorem parse_eq_ok : (parse setting false "m").result = .ok program := by decide +kernel

end Reprinted

/-- A program of two files is read back from one line. -/
theorem line_sequenceText_of_parse_twoFiles :
    (parse Reprinted.setting false "m").result = .ok Reprinted.program ∧
    Scan.line ⟨"p", 7, false⟩ false ".\" ( x\" a\"b\" \" 1\" 2 . z" =
      ⟨.ok (Reprinted.program.map fun a => { a with file := "p", line := 7 }), false⟩ := by
  have htext : Atom.sequenceText Reprinted.program = ".\" ( x\" a\"b\" \" 1\" 2 . z" := by
    decide +kernel
  rw [← htext]
  exact ⟨Reprinted.parse_eq_ok, line_sequenceText_of_parse rfl Reprinted.parse_eq_ok _⟩

end Include

end ForthFrontend
