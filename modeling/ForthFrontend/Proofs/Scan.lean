import ForthFrontend.Source

/-!
# What a scan keeps

Which tokens of a line become atoms does not depend on the place of the line, and neither does the
comment state behind it: `Scan.keep` gives both. A scan that refuses open literals ends at the first
kept token that opens one; any other scan keeps everything. Lines are put together accordingly, and
`Source.scanned` gives the atoms of a file without the rules that can end its reading.

## Main results

* `Scan.tokens_of_closed`, `Scan.tokens_of_unclosed`: what scanning tokens gives.
* `Source.scanLines_of_closed`, `Source.scanLines_of_unclosed`: the same for lines.
* `Token.unclosed_of_mem_split`: behind a token that opens a literal its line has no quotation mark.
-/

namespace ForthFrontend

/-- Does the atom begin like a string literal without being one? -/
def Atom.opensString (a : Atom) : Bool :=
  Token.opensString ⟨a.kind, a.text⟩

/-- The error that a literal is left open. -/
def SourceError.unclosed (a : Atom) : SourceError :=
  { fault := .unterminatedString, file := a.file, line := a.line, target := a.text }

namespace Scan

/-- The tokens that become atoms, and whether a comment is open behind them. -/
def keep (inComment : Bool) : List Token → List Token × Bool
  | [] => ([], inComment)
  | t :: rest =>
    match t.marker? with
    | some .lineComment => ([], inComment)
    | some .commentOpen => keep true rest
    | some .commentClose => keep false rest
    | none =>
      if inComment then keep inComment rest
      else (t :: (keep inComment rest).1, (keep inComment rest).2)

/-- The atom that a token of a line becomes. -/
def Place.atom (place : Place) (t : Token) : Atom :=
  ⟨t.text, t.kind, place.file, place.line⟩

section Tokens

variable {place : Place} {inComment : Bool} {ts : List Token}

/-- A scan that meets no refused token keeps everything. -/
theorem tokens_of_closed (found : List Atom)
    (hclosed : place.strict = true → ∀ t ∈ (keep inComment ts).1, t.opensString = false) :
    tokens place found inComment ts =
      ⟨.ok (found.reverse ++ (keep inComment ts).1.map place.atom), (keep inComment ts).2⟩ := by
  induction ts generalizing found inComment with
  | nil => simp [tokens, keep]
  | cons t ts ih =>
    rw [keep] at hclosed ⊢
    rw [tokens]
    cases hmarker : t.marker? with
    | some m =>
      simp only [hmarker] at hclosed ⊢
      cases m with
      | lineComment => simp
      | commentOpen => exact ih found hclosed
      | commentClose => exact ih found hclosed
    | none =>
      cases inComment with
      | true =>
        simp only [hmarker, ↓reduceIte] at hclosed ⊢
        exact ih found hclosed
      | false =>
        simp only [hmarker, Bool.false_eq_true, ↓reduceIte, List.forall_mem_cons] at hclosed ⊢
        -- the token is kept, since only a strict scan looks at how it begins
        have hkept : (place.strict && t.opensString) = false := by
          cases hs : place.strict with
          | false => rfl
          | true => exact (hclosed hs).1
        rw [if_neg (by simp [hkept]), ih _ fun hs => (hclosed hs).2]
        simp [Place.atom]

/-- A scan that refuses open literals ends at the first one. -/
theorem tokens_of_unclosed (found : List Atom) (hstrict : place.strict = true) {t : Token}
    (hopen : (keep inComment ts).1.find? Token.opensString = some t) :
    (tokens place found inComment ts).result = .error (.unclosed (place.atom t)) := by
  induction ts generalizing found inComment with
  | nil => cases hopen
  | cons t' ts ih =>
    rw [keep] at hopen
    rw [tokens]
    cases hmarker : t'.marker? with
    | some m =>
      simp only [hmarker] at hopen ⊢
      cases m with
      | lineComment => cases hopen
      | commentOpen => exact ih found hopen
      | commentClose => exact ih found hopen
    | none =>
      cases inComment with
      | true =>
        simp only [hmarker, ↓reduceIte] at hopen ⊢
        exact ih found hopen
      | false =>
        simp only [hmarker, Bool.false_eq_true, ↓reduceIte, hstrict, Bool.true_and] at hopen ⊢
        by_cases hfirst : t'.opensString = true
        · rw [List.find?_cons_of_pos hfirst] at hopen
          obtain rfl := Option.some.inj hopen
          rw [if_pos hfirst]
          rfl
        · rw [List.find?_cons_of_neg hfirst] at hopen
          rw [if_neg hfirst]
          exact ih _ hopen

theorem mem_of_mem_keep {t : Token} (ht : t ∈ (keep inComment ts).1) : t ∈ ts := by
  induction ts generalizing inComment with
  | nil => cases ht
  | cons t' ts ih =>
    rw [keep] at ht
    split at ht
    · cases ht
    · exact List.mem_cons_of_mem _ (ih ht)
    · exact List.mem_cons_of_mem _ (ih ht)
    · split at ht
      · exact List.mem_cons_of_mem _ (ih ht)
      · rcases List.mem_cons.1 ht with rfl | ht
        · exact List.mem_cons_self
        · exact List.mem_cons_of_mem _ (ih ht)

end Tokens

end Scan

namespace Source

/-- What one line keeps. -/
def keepLine (inComment : Bool) (text : Bytes) : List Token × Bool :=
  Scan.keep inComment (Token.split (dropReturn text))

theorem keepLine_nil (inComment : Bool) : keepLine inComment [] = ([], inComment) := by
  cases inComment <;> decide +kernel

/-- Is a comment open behind the lines? -/
def commentAfter (inComment : Bool) (lines : List Bytes) : Bool :=
  lines.foldl (fun state text => (Scan.line ⟨[], 0, false⟩ state (dropReturn text)).inComment)
    inComment

theorem commentAfter_cons (inComment : Bool) (text : Bytes) (lines : List Bytes) :
    commentAfter inComment (text :: lines) = commentAfter (keepLine inComment text).2 lines := by
  rw [commentAfter, List.foldl_cons, Scan.line, Scan.tokens_of_closed [] (by simp)]
  rfl

theorem commentAfter_append (inComment : Bool) (l m : List Bytes) :
    commentAfter inComment (l ++ m) = commentAfter (commentAfter inComment l) m :=
  List.foldl_append

/-- The atoms of lines, the first of which has the given number. -/
def scanned (path : Path) (number : Nat) (inComment : Bool) : List Bytes → List Atom
  | [] => []
  | text :: rest =>
    (keepLine inComment text).1.map (Scan.Place.atom ⟨path, Int64.ofNat number, false⟩)
      ++ scanned path (number + 1) (keepLine inComment text).2 rest

theorem scanned_append (path : Path) (number : Nat) (inComment : Bool) (l m : List Bytes) :
    scanned path number inComment (l ++ m) =
      scanned path number inComment l ++
        scanned path (number + l.length) (commentAfter inComment l) m := by
  induction l generalizing number inComment with
  | nil => rfl
  | cons text l ih =>
    rw [List.cons_append, scanned, scanned, ih, List.append_assoc, List.length_cons,
      Nat.add_assoc, Nat.add_comm 1, commentAfter_cons]

/-! ### Lines of texts put together -/

theorem splitOn_lf_append (c r : Bytes) :
    (c ++ Bytes.lf :: r).splitOn Bytes.lf = c.splitOn Bytes.lf ++ r.splitOn Bytes.lf :=
  List.splitOnP_append_cons c r (by simp)

/-- The lines of a text are its pieces between line feeds; an empty piece at the end is none. -/
theorem splitOn_lf_eq (c : Bytes) :
    c.splitOn Bytes.lf = lines c ∨ c.splitOn Bytes.lf = lines c ++ [[]] := by
  rw [lines]
  split
  · next hlast =>
    obtain ⟨front, hfront⟩ := List.getLast?_eq_some_iff.1 (beq_iff_eq.1 hlast)
    exact .inr (by rw [hfront, List.dropLast_concat])
  · exact .inl rfl

theorem lines_append (c r : Bytes) :
    lines (c ++ Bytes.lf :: r) = c.splitOn Bytes.lf ++ lines r := by
  have hne : r.splitOn Bytes.lf ≠ [] := List.splitOn_ne_nil _ _
  have hlast : (c.splitOn Bytes.lf ++ r.splitOn Bytes.lf).getLast? =
      (r.splitOn Bytes.lf).getLast? := by
    rw [List.getLast?_append]
    cases hr : (r.splitOn Bytes.lf).getLast? with
    | none => exact absurd (List.getLast?_eq_none_iff.1 hr) hne
    | some text => rfl
  simp only [lines, splitOn_lf_append, hlast]
  split
  · rw [List.dropLast_append_of_ne_nil hne]
  · rfl

theorem scanned_splitOn (path : Path) (number : Nat) (inComment : Bool) (c : Bytes) :
    scanned path number inComment (c.splitOn Bytes.lf) =
      scanned path number inComment (lines c) := by
  rcases splitOn_lf_eq c with hc | hc
  · rw [hc]
  · rw [hc, scanned_append]
    simp [scanned, keepLine_nil]

theorem commentAfter_splitOn (inComment : Bool) (c : Bytes) :
    commentAfter inComment (c.splitOn Bytes.lf) = commentAfter inComment (lines c) := by
  rcases splitOn_lf_eq c with hc | hc
  · rw [hc]
  · rw [hc, commentAfter_append, commentAfter_cons, keepLine_nil]
    rfl

/-- Behind a line feed a scan goes on in the comment state that the text in front of it leaves. -/
theorem scanned_lines_append (path : Path) (number : Nat) (inComment : Bool) (c r : Bytes) :
    scanned path number inComment (lines (c ++ Bytes.lf :: r)) =
      scanned path number inComment (lines c) ++
        scanned path (number + (c.splitOn Bytes.lf).length) (commentAfter inComment (lines c))
          (lines r) := by
  rw [lines_append, scanned_append, scanned_splitOn, commentAfter_splitOn]

/-- Does every line of a text fit into the line buffer? -/
def IsShort (content : Bytes) : Prop :=
  ∀ text ∈ lines content, text.length < maxLine

instance (content : Bytes) : Decidable (IsShort content) :=
  inferInstanceAs (Decidable (∀ text ∈ lines content, text.length < maxLine))

theorem isShort_append_iff (c r : Bytes) :
    IsShort (c ++ Bytes.lf :: r) ↔ IsShort c ∧ IsShort r := by
  rw [IsShort, lines_append, List.forall_mem_append]
  refine and_congr_left fun _ => ?_
  rcases splitOn_lf_eq c with hc | hc
  · rw [hc]
    rfl
  · rw [hc, List.forall_mem_append, List.forall_mem_singleton]
    exact and_iff_left (by decide)

section Lines

variable {strict : Bool} {path : Path} {number : Nat} {inComment : Bool} {lines : List Bytes}

theorem line_of_closed {text : Bytes}
    (hclosed : strict = true → ∀ t ∈ (keepLine inComment text).1, t.opensString = false) :
    Scan.line ⟨path, Int64.ofNat number, strict⟩ inComment (dropReturn text) =
      ⟨.ok ((keepLine inComment text).1.map (Scan.Place.atom ⟨path, Int64.ofNat number, false⟩)),
        (keepLine inComment text).2⟩ :=
  Scan.tokens_of_closed [] hclosed

theorem line_of_unclosed {text : Bytes} {t : Token}
    (hopen : (keepLine inComment text).1.find? Token.opensString = some t) :
    (Scan.line ⟨path, Int64.ofNat number, true⟩ inComment (dropReturn text)).result =
      .error (.unclosed (Scan.Place.atom ⟨path, Int64.ofNat number, false⟩ t)) :=
  Scan.tokens_of_unclosed [] rfl hopen

theorem find?_map_atom (place : Scan.Place) (ts : List Token) :
    (ts.map place.atom).find? Atom.opensString = (ts.find? Token.opensString).map place.atom :=
  List.find?_map

theorem scanLines_of_closed (found : List Atom)
    (hshort : ∀ text ∈ lines, text.length < maxLine)
    (hclosed : strict = true → ∀ a ∈ scanned path number inComment lines, a.opensString = false) :
    scanLines strict path number inComment found lines =
      .ok (found.reverse ++ scanned path number inComment lines) := by
  induction lines generalizing number inComment found with
  | nil => simp [scanLines, scanned]
  | cons text lines ih =>
    obtain ⟨hlen, hrest⟩ := List.forall_mem_cons.1 hshort
    simp only [scanned, List.forall_mem_append, List.forall_mem_map] at hclosed
    rw [scanLines, if_neg (Nat.not_le.2 hlen), line_of_closed fun hs => (hclosed hs).1]
    simp only
    rw [ih _ hrest fun hs => (hclosed hs).2]
    simp [scanned, List.reverseAux_eq]

/-- Short lines with an open literal are refused at the first one. -/
theorem scanLines_of_unclosed (found : List Atom)
    (hshort : ∀ text ∈ lines, text.length < maxLine) {a : Atom}
    (hopen : (scanned path number inComment lines).find? Atom.opensString = some a) :
    scanLines true path number inComment found lines = .error (.source (.unclosed a)) := by
  induction lines generalizing number inComment found with
  | nil => cases hopen
  | cons text lines ih =>
    obtain ⟨hlen, hrest⟩ := List.forall_mem_cons.1 hshort
    rw [scanLines, if_neg (Nat.not_le.2 hlen)]
    rw [scanned, List.find?_append, find?_map_atom] at hopen
    cases hline : (keepLine inComment text).1.find? Token.opensString with
    | some t =>
      -- what a line refuses first is what the lines from it on refuse first
      rw [hline] at hopen
      obtain rfl := Option.some.inj hopen
      simp only [line_of_unclosed hline]
    | none =>
      rw [hline] at hopen
      have hclosed : ∀ t ∈ (keepLine inComment text).1, t.opensString = false := by
        simpa using List.find?_eq_none.1 hline
      simp only [line_of_closed fun _ => hclosed]
      exact ih _ hrest hopen

/-- A line that fills the line buffer ends the reading, if nothing ended it before. -/
theorem scanLines_of_long (found : List Atom) (hlong : ∃ text ∈ lines, maxLine ≤ text.length) :
    ∃ f, scanLines strict path number inComment found lines = .error f := by
  induction lines generalizing number inComment found with
  | nil =>
    obtain ⟨text, ht, -⟩ := hlong
    cases ht
  | cons text lines ih =>
    rw [scanLines]
    by_cases hlen : maxLine ≤ text.length
    · exact ⟨_, if_pos hlen⟩
    · rw [if_neg hlen]
      have hrest : ∃ text ∈ lines, maxLine ≤ text.length := by
        obtain ⟨x, hx, hxlen⟩ := hlong
        rcases List.mem_cons.1 hx with rfl | hx
        · exact absurd hxlen hlen
        · exact ⟨x, hx, hxlen⟩
      simp only
      split
      · exact ⟨_, rfl⟩
      · exact ih _ hrest

/-- A broken rule of lines is a literal left open. -/
theorem exists_unclosed_of_scanLines {found : List Atom} {e : SourceError}
    (h : scanLines strict path number inComment found lines = .error (.source e)) :
    ∃ a ∈ scanned path number inComment lines, a.opensString = true ∧ e = .unclosed a := by
  induction lines generalizing number inComment found with
  | nil => cases h
  | cons text lines ih =>
    rw [scanLines] at h
    rw [scanned]
    split at h
    · cases h
    · by_cases hopen : strict = true ∧
          ∃ t, (keepLine inComment text).1.find? Token.opensString = some t
      · obtain ⟨rfl, t, ht⟩ := hopen
        simp only [line_of_unclosed ht] at h
        obtain rfl := Failure.source.inj (Except.error.inj h)
        have hopen : t.opensString = true := List.find?_some ht
        exact ⟨_, List.mem_append_left _ (List.mem_map_of_mem (List.mem_of_find?_eq_some ht)),
          hopen, rfl⟩
      · have hclosed : strict = true →
            ∀ t ∈ (keepLine inComment text).1, t.opensString = false := by
          intro hs t ht
          have hnone := fun t ht => hopen ⟨hs, t, ht⟩
          simpa using List.find?_eq_none.1 (Option.eq_none_iff_forall_ne_some.2 hnone) t ht
        simp only [line_of_closed hclosed] at h
        obtain ⟨a, ha, hopen, rfl⟩ := ih h
        exact ⟨a, List.mem_append_right _ ha, hopen, rfl⟩

theorem exists_token_of_mem_scanned {a : Atom} (ha : a ∈ scanned path number inComment lines) :
    ∃ i text, lines[i]? = some text ∧ ∃ t ∈ Token.split (dropReturn text),
      a = Scan.Place.atom ⟨path, Int64.ofNat (number + i), false⟩ t := by
  induction lines generalizing number inComment with
  | nil => cases ha
  | cons text lines ih =>
    rcases List.mem_append.1 ha with ha | ha
    · obtain ⟨t, ht, rfl⟩ := List.mem_map.1 ha
      exact ⟨0, text, rfl, t, Scan.mem_of_mem_keep ht, rfl⟩
    · obtain ⟨i, text', htext, t, ht, rfl⟩ := ih ha
      refine ⟨i + 1, text', htext, t, ht, ?_⟩
      rw [Nat.add_assoc, Nat.add_comm 1]

end Lines

end Source

/-! ### Open literals -/

namespace Token

/-- The text is the opening of a literal, and neither in what follows it nor in the rest of the line
is there a quotation mark. -/
def Unclosed (text after : Bytes) : Prop :=
  ∃ opening body, (opening = displayOpening ∨ opening = dumpOpening) ∧ text = opening ++ body ∧
    Bytes.quote ∉ body ++ after

/-- A text that begins like a literal, but is none, has no further quotation mark behind it. -/
theorem unclosed_of_literal? {opening text after : Bytes}
    (hopening : opening = displayOpening ∨ opening = dumpOpening)
    (hstart : Bytes.startsWith text opening = true)
    (h : literal? opening (text ++ after) = none) : Unclosed text after := by
  obtain ⟨body, rfl⟩ := List.isPrefixOf_iff_prefix.1 hstart
  refine ⟨opening, body, hopening, rfl, fun hmem => ?_⟩
  have hstarts : Bytes.startsWith (opening ++ body ++ after) opening = true := by
    rw [List.append_assoc]
    exact List.isPrefixOf_iff_prefix.2 (List.prefix_append _ _)
  rw [literal?, if_pos hstarts, List.append_assoc, List.drop_left] at h
  simp only at h
  split at h
  · next hnil =>
    -- the search for the end of the literal went through the whole line
    rw [← List.takeWhile_append_dropWhile (p := (· != Bytes.quote)) (l := body ++ after), hnil,
      List.append_nil] at hmem
    simpa using List.all_eq_true.1 List.all_takeWhile _ hmem
  · cases h

theorem unclosed_of_first {b : UInt8} {rest : Bytes} (h : (first b rest).1.opensString = true) :
    b :: rest = (first b rest).1.text ++ (first b rest).2 ∧
      Unclosed (first b rest).1.text (first b rest).2 := by
  rw [first] at h ⊢
  cases hdisplay : literal? displayOpening (b :: rest) with
  | some r =>
    rw [hdisplay] at h
    cases h
  | none =>
    cases hdump : literal? dumpOpening (b :: rest) with
    | some r =>
      rw [hdisplay, hdump] at h
      cases h
    | none =>
      have hwhole : b :: rest = b :: rest.takeWhile (!isGap ·) ++ rest.dropWhile (!isGap ·) := by
        rw [List.cons_append, List.takeWhile_append_dropWhile]
      simp only [hdisplay, hdump] at h ⊢
      refine ⟨hwhole, ?_⟩
      rw [hwhole] at hdisplay hdump
      rw [opensString, Bool.and_eq_true, Bool.or_eq_true] at h
      rcases h.2 with hstart | hstart
      · exact unclosed_of_literal? (.inl rfl) hstart hdisplay
      · exact unclosed_of_literal? (.inr rfl) hstart hdump

theorem suffix_of_literal? {opening s text after : Bytes}
    (h : literal? opening s = some (text, after)) : after <:+ s := by
  rw [literal?] at h
  split at h
  · simp only at h
    split at h
    · cases h
    · next b rest hrest =>
      obtain ⟨-, rfl⟩ := Prod.mk.inj (Option.some.inj h)
      have hbody : b :: rest <:+ s.drop opening.length := hrest ▸ List.dropWhile_suffix _
      exact (List.suffix_cons b rest).trans (hbody.trans (List.drop_suffix _ _))
  · cases h

theorem suffix_first (b : UInt8) (rest : Bytes) : (first b rest).2 <:+ b :: rest := by
  rw [first]
  split
  · next h => exact suffix_of_literal? h
  · split
    · next h => exact suffix_of_literal? h
    · exact (List.dropWhile_suffix _).trans (List.suffix_cons b rest)

/-- Every token of a line is the first token of some rest of the line. -/
theorem exists_first_of_mem_collect {found : List Token} {s : Bytes} {t : Token}
    (ht : t ∈ collect found s) : t ∈ found ∨ ∃ before b rest, s = before ++ b :: rest ∧
      t = (first b rest).1 := by
  fun_induction collect found s with
  | case1 found s hnil => exact .inl (List.mem_reverse.1 ht)
  | case2 found s b rest hs ih =>
    have hgap : s = s.takeWhile isGap ++ b :: rest := by
      rw [← hs, List.takeWhile_append_dropWhile]
    rcases ih ht with ht | ⟨before, b', rest', hafter, rfl⟩
    · rcases List.mem_cons.1 ht with rfl | ht
      · exact .inr ⟨_, b, rest, hgap, rfl⟩
      · exact .inl ht
    · -- a later token begins in the rest behind this one
      obtain ⟨text, htext⟩ := suffix_first b rest
      refine .inr ⟨s.takeWhile isGap ++ text ++ before, b', rest', ?_, rfl⟩
      rw [List.append_assoc, List.append_assoc, ← hafter, htext]
      exact hgap

/-- **A token that opens a literal** has no further quotation mark on its line. -/
theorem unclosed_of_mem_split {line : Bytes} {t : Token} (ht : t ∈ split line)
    (hopen : t.opensString = true) :
    ∃ before after, line = before ++ t.text ++ after ∧ Unclosed t.text after := by
  rcases exists_first_of_mem_collect ht with ht | ⟨before, b, rest, rfl, rfl⟩
  · cases ht
  · obtain ⟨htext, hunclosed⟩ := unclosed_of_first hopen
    exact ⟨before, _, by rw [htext, List.append_assoc], hunclosed⟩

end Token

/-! ### Files -/

namespace Source

variable {d : Disk} {strict : Bool} {path : Path} {content : Bytes}

theorem compose_of_openFile {entry : Disk.Entry} (h : d.openFile path = .ok entry) :
    compose d strict false path = match entry.content path with
      | .error e => .error (.unreadable path (.disk e))
      | .ok content => atoms strict path content := by
  rw [compose, openFile, if_neg (by decide), h]
  rfl

theorem compose_of_read (h : d.read path = .ok content) :
    compose d strict false path = atoms strict path content := by
  rw [Disk.read] at h
  cases hopen : d.openFile path with
  | error e =>
    rw [hopen] at h
    cases h
  | ok entry =>
    have hcontent : entry.content path = .ok content := by rwa [hopen] at h
    rw [compose_of_openFile hopen, hcontent]

/-- A file that cannot be read fails in the same way, whatever is done with its content. -/
theorem compose_of_unread {e : DiskError} (h : d.read path = .error e) :
    ∃ f, (∀ strict, compose d strict false path = .error f) ∧
      ∀ e', f = .source e' → e'.fault = .sourceNotFound := by
  rw [Disk.read] at h
  cases hopen : d.openFile path with
  | error e' =>
    refine ⟨notFound path (.disk e'), fun strict => ?_, ?_⟩
    · rw [compose, openFile, hopen]
      rfl
    · rintro e'' ⟨⟩
      rfl
  | ok entry =>
    have hcontent : entry.content path = .error e := by rwa [hopen] at h
    refine ⟨.unreadable path (.disk e), fun strict => ?_, ?_⟩
    · rw [compose_of_openFile hopen, hcontent]
    · rintro e'' ⟨⟩

theorem ne_nil_of_read (h : d.read path = .ok content) : path ≠ [] := by
  rintro rfl
  cases h

theorem atoms_of_closed (hshort : IsShort content)
    (hclosed : strict = true →
      (scanned path 1 false (lines content)).find? Atom.opensString = none) :
    atoms strict path content = .ok (scanned path 1 false (lines content)) :=
  scanLines_of_closed [] hshort fun hs => by simpa using hclosed hs

theorem atoms_of_long (hlong : ¬ IsShort content) : ∃ f, atoms strict path content = .error f := by
  refine scanLines_of_long [] ?_
  simpa [IsShort] using hlong

theorem compose_of_short (hread : d.read path = .ok content) (hshort : IsShort content) :
    compose d false false path = .ok (scanned path 1 false (lines content)) := by
  rw [compose_of_read hread, atoms_of_closed hshort (by simp)]

theorem compose_of_long (strict : Bool) (hread : d.read path = .ok content)
    (hlong : ¬ IsShort content) : ∃ f, compose d strict false path = .error f := by
  rw [compose_of_read hread]
  exact atoms_of_long hlong

/-- The lines of a file that composes are short, and it composes to the atoms of its lines. -/
theorem exists_read_of_compose {found : List Atom} (h : compose d false false path = .ok found) :
    ∃ content, d.read path = .ok content ∧ IsShort content ∧
      found = scanned path 1 false (lines content) := by
  cases hread : d.read path with
  | error e =>
    obtain ⟨f, hf, -⟩ := compose_of_unread hread
    rw [hf false] at h
    cases h
  | ok content =>
    refine ⟨content, rfl, ?_⟩
    by_cases hshort : IsShort content
    · rw [compose_of_short hread hshort] at h
      exact ⟨hshort, (Except.ok.inj h).symm⟩
    · obtain ⟨f, hf⟩ := compose_of_long false hread hshort
      rw [hf] at h
      cases h

/-- **A file composes under strict scanning** if it composes at all and no atom of it opens a
literal; else the first such atom is refused. -/
theorem compose_strict_of_ok {found : List Atom} (h : compose d false false path = .ok found) :
    compose d true false path = match found.find? Atom.opensString with
      | none => .ok found
      | some a => .error (.source (.unclosed a)) := by
  obtain ⟨content, hread, hshort, rfl⟩ := exists_read_of_compose h
  rw [compose_of_read hread]
  cases hopen : (scanned path 1 false (lines content)).find? Atom.opensString with
  | none => exact atoms_of_closed hshort fun _ => hopen
  | some a => exact scanLines_of_unclosed [] hshort hopen

theorem compose_strict_of_error {f : Failure} (h : compose d false false path = .error f) :
    ∃ g, compose d true false path = .error g := by
  cases hread : d.read path with
  | error e =>
    obtain ⟨f, hf, -⟩ := compose_of_unread hread
    exact ⟨f, hf true⟩
  | ok content =>
    by_cases hshort : IsShort content
    · rw [compose_of_short hread hshort] at h
      cases h
    · exact compose_of_long true hread hshort

theorem exists_append_dropReturn (text : Bytes) :
    ∃ rest, text = dropReturn text ++ rest ∧ Bytes.quote ∉ rest := by
  rw [dropReturn]
  split
  · next hlast =>
    obtain ⟨front, rfl⟩ := List.getLast?_eq_some_iff.1 (beq_iff_eq.1 hlast)
    exact ⟨[Bytes.cr], by simp, by decide⟩
  · exact ⟨[], by simp, by simp⟩

/-- **A literal that is refused** stands open on a line of the file. -/
theorem exists_line_of_compose {e : SourceError}
    (h : compose d strict false path = .error (.source e))
    (hfault : e.fault = .unterminatedString) :
    e.file = path ∧ ∃ content i text before after, d.read path = .ok content ∧
      (lines content)[i]? = some text ∧ e.line = Int64.ofNat (i + 1) ∧
      text = before ++ e.target ++ after ∧ Token.Unclosed e.target after := by
  cases hread : d.read path with
  | error c =>
    obtain ⟨f, hf, hnotFound⟩ := compose_of_unread hread
    rw [hf strict] at h
    have hother := hnotFound e (Except.error.inj h)
    rw [hfault] at hother
    cases hother
  | ok content =>
    rw [compose_of_read hread] at h
    obtain ⟨a, ha, hopen, rfl⟩ := exists_unclosed_of_scanLines h
    obtain ⟨i, text, htext, t, ht, rfl⟩ := exists_token_of_mem_scanned ha
    obtain ⟨before, after, hline, opening, body, hopening, hbody, hquote⟩ :=
      Token.unclosed_of_mem_split ht hopen
    -- the return at the end of a line is not scanned, but it is no quotation mark either
    obtain ⟨rest, hrest, hreturn⟩ := exists_append_dropReturn text
    refine ⟨rfl, content, i, text, before, after ++ rest, rfl, htext, ?_, ?_, opening, body,
      hopening, hbody, ?_⟩
    · rw [Nat.add_comm]
      rfl
    · rw [hrest, hline, List.append_assoc]
      rfl
    · rw [← List.append_assoc, List.mem_append, not_or]
      exact ⟨hquote, hreturn⟩

end Source

end ForthFrontend
