import ForthFrontend.Proofs.Scan.Meaning

/-!
# Text behind a gap

A gap separates what stands in front of it from what stands behind it, with two exceptions. A word
that begins like a literal waits for a quotation mark, which may come behind the gap, and a word
that begins with a backslash ends the line. Where neither occurs in front of the gap, the tokens of
a line are those of its two parts, and the second part is scanned from the comment state that the
first one leaves.

## Main results

* `Token.first_append`: the first token of a text does not depend on what stands behind a gap.
* `Token.split_append`: the tokens of a text in front of a gap, and of what follows.
* `Scan.tokens_append`: scanning tokens one behind another.
* `Scan.line_append_gap`: scanning distributes over gaps.
-/

namespace ForthFrontend

namespace Token

/-! ### Tokens in front of a gap -/

section Append

variable {opening s text after r : Bytes}

/-- A closed literal is found whatever stands behind it. -/
theorem literal?_append_of_some (h : literal? opening s = some (text, after)) (r : Bytes) :
    literal? opening (s ++ r) = some (text, after ++ r) := by
  obtain rfl := append_of_literal? h
  obtain ⟨body, hbody, rfl⟩ := exists_body_of_literal? h
  rw [List.append_assoc _ after]
  exact literal?_append opening hbody (after ++ r)

/-- A text without a quotation mark closes no literal. -/
theorem literal?_append_of_none (hquote : Bytes.quote ∉ r) (h : literal? opening s = none) :
    literal? opening (s ++ r) = none := by
  by_contra hsome
  obtain ⟨⟨text, after⟩, hsome⟩ := Option.ne_none_iff_exists'.1 hsome
  have happend := append_of_literal? hsome
  obtain ⟨body, -, rfl⟩ := exists_body_of_literal? hsome
  apply not_hasClosed_of_literal? h
  refine ⟨opening ++ body ++ [Bytes.quote], ?_, body, rfl⟩
  -- the closing quotation mark stands in `s`, since there is none in `r`
  rcases List.append_eq_append_iff.1 happend with ⟨rest, hs, -⟩ | ⟨rest, htext, hr⟩
  · exact ⟨rest, hs.symm⟩
  · rcases List.eq_nil_or_concat rest with rfl | ⟨front, last, rfl⟩
    · rw [List.append_nil] at htext
      exact ⟨[], by rw [htext, List.append_nil]⟩
    · rw [List.concat_eq_append, ← List.append_assoc] at htext
      obtain rfl : Bytes.quote = last := (List.cons.inj (List.append_inj' htext rfl).2).1
      exact absurd (by rw [hr]; simp) hquote

theorem ends_append (hs : Ends s) (hr : Ends r) : Ends (s ++ r) := by
  cases s with
  | nil => exact hr
  | cons c s => exact hs

theorem ends_dropWhile (s : Bytes) : Ends (s.dropWhile (!isGap ·)) := by
  intro c hc
  have hnot := List.head?_dropWhile_not (p := (!isGap ·)) (l := s)
  rw [Option.mem_def.1 hc] at hnot
  simpa using hnot

/-- **The first token** of a text does not depend on what stands behind a gap, unless it waits for a
quotation mark and there is one. -/
theorem first_append {b : UInt8} {rest : Bytes} (hr : Ends r)
    (h : (first b rest).1.opensString = false ∨ Bytes.quote ∉ r) :
    first b (rest ++ r) = ((first b rest).1, (first b rest).2 ++ r) := by
  rw [first] at h ⊢
  rw [first, ← List.cons_append]
  cases hdisplay : literal? displayOpening (b :: rest) with
  | some found => rw [literal?_append_of_some hdisplay]
  | none =>
    cases hdump : literal? dumpOpening (b :: rest) with
    | some found =>
      obtain ⟨body, -, htext⟩ := exists_body_of_literal? hdump
      have happend := append_of_literal? hdump
      rw [htext] at happend
      obtain rfl : Bytes.quote = b := (List.cons.inj happend).1
      have hnone : literal? displayOpening (Bytes.quote :: rest ++ r) = none :=
        literal?_of_not_startsWith rfl
      rw [hnone, literal?_append_of_some hdump]
    | none =>
      simp only [hdisplay, hdump] at h
      have hword : ∀ c ∈ rest.takeWhile (!isGap ·), isGap c = false := by
        intro c hc
        simpa using List.all_eq_true.1 List.all_takeWhile c hc
      have hafter : Ends (rest.dropWhile (!isGap ·) ++ r) := ends_append (ends_dropWhile rest) hr
      have hwhole : rest ++ r =
          rest.takeWhile (!isGap ·) ++ (rest.dropWhile (!isGap ·) ++ r) := by
        rw [← List.append_assoc, List.takeWhile_append_dropWhile]
      have hnone : literal? displayOpening (b :: rest ++ r) = none ∧
          literal? dumpOpening (b :: rest ++ r) = none := by
        rcases h with hopen | hquote
        · -- how the whole text begins can be told from the word
          have hstarts := startsWith_append b (rest.takeWhile (!isGap ·)) hafter
          rw [List.cons_append, ← hwhole, ← List.cons_append] at hstarts
          have hopens : Bytes.startsWith (b :: rest.takeWhile (!isGap ·)) displayOpening = false ∧
              Bytes.startsWith (b :: rest.takeWhile (!isGap ·)) dumpOpening = false := by
            simpa [opensString] using hopen
          exact ⟨literal?_of_not_startsWith (hstarts.1.trans hopens.1),
            literal?_of_not_startsWith (hstarts.2.trans hopens.2)⟩
        · exact ⟨literal?_append_of_none hquote hdisplay, literal?_append_of_none hquote hdump⟩
      obtain ⟨htake, hdrop⟩ := takeWhile_dropWhile_word hword hafter
      rw [hnone.1, hnone.2]
      simp only [hwhole, htake, hdrop]

/-- **The tokens of a text in front of a gap** are followed by those of what comes behind it, unless
a word waits for a quotation mark and there is one. -/
theorem split_append {l : Bytes} (hr : Ends r)
    (h : (∀ t ∈ split l, t.opensString = false) ∨ Bytes.quote ∉ r) :
    split (l ++ r) = split l ++ split r := by
  -- the induction is on how much of the text is left
  induction hn : l.length using Nat.strongRecOn generalizing l with
  | ind n ih =>
    rw [split_eq l] at h ⊢
    rw [split_eq (l ++ r), List.dropWhile_append]
    cases hdrop : l.dropWhile isGap with
    | nil => exact (split_eq r).symm
    | cons b rest =>
      simp only [hdrop, List.forall_mem_cons] at h
      have hfirst := first_append hr (h.imp_left And.left)
      have hlt : (first b rest).2.length < n := by
        have hle := (List.dropWhile_suffix (l := l) isGap).length_le
        have hle' := length_first_le b rest
        rw [hdrop, List.length_cons] at hle
        omega
      have htail := ih _ hlt (h.imp_left And.right) rfl
      simp only [List.isEmpty_cons, Bool.false_eq_true, ↓reduceIte, List.cons_append, hfirst, htail]

/-- A gap in front of a text has no tokens. -/
theorem split_gap_append {gap : Bytes} (hgap : ∀ c ∈ gap, isGap c = true) (s : Bytes) :
    split (gap ++ s) = split s := by
  rw [split_eq, split_eq s, List.dropWhile_append_of_pos hgap]

end Append

end Token

namespace Scan

/-! ### Scanning one text behind another -/

section Tokens

variable {place : Place} {inComment : Bool} {ts : List Token}

/-- The atoms found before stand in front of those of a scan. -/
theorem tokens_found (place : Place) (found : List Atom) (inComment : Bool) (ts : List Token) :
    tokens place found inComment ts =
      ⟨(tokens place [] inComment ts).result.map (found.reverse ++ ·),
        (tokens place [] inComment ts).inComment⟩ := by
  induction ts generalizing found inComment with
  | nil => simp [tokens, Except.map]
  | cons t ts ih =>
    rw [tokens, tokens]
    cases t.marker? with
    | some m =>
      cases m with
      | lineComment => simp [Except.map]
      | commentOpen => exact ih found true
      | commentClose => exact ih found false
    | none =>
      simp only
      split
      · exact ih found inComment
      · split
        · rfl
        · rw [ih (_ :: found), ih [_]]
          cases (tokens place [] inComment ts).result <;> simp [Except.map]

/-- **Tokens one behind another** are scanned so, if none of the first part ends the line or leaves
a literal open. -/
theorem tokens_append (hopen : ∀ t ∈ ts, t.opensString = false)
    (hend : ∀ t ∈ ts, t.endsLine = false) (found : List Atom) (us : List Token) :
    tokens place found inComment (ts ++ us) =
      tokens place (((keep inComment ts).1.map place.atom).reverse ++ found)
        (keep inComment ts).2 us := by
  induction ts generalizing found inComment with
  | nil => rfl
  | cons t ts ih =>
    rw [List.forall_mem_cons] at hopen hend
    rw [List.cons_append, tokens, keep, Token.marker?_eq, if_neg (by simp [hend.1])]
    cases t.says? with
    | some comment => cases comment <;> exact ih hopen.2 hend.2 found
    | none =>
      cases inComment with
      | true => exact ih hopen.2 hend.2 found
      | false =>
        simp only [Option.map_none, Bool.false_eq_true, ↓reduceIte, hopen.1, Bool.and_false]
        rw [ih hopen.2 hend.2]
        simp [Place.atom]

end Tokens

/-- **Scanning distributes over gaps.** If no word of the first part begins with a backslash or like
a literal, its scan succeeds, and the scan of the whole goes on with that of the second part: with
its atoms behind those of the first part and its comment state, or with its error. -/
theorem line_append_gap (place : Place) (inComment : Bool) (first gap second : Bytes)
    (hne : gap ≠ []) (hgap : ∀ c ∈ gap, Token.isGap c = true)
    (hwords : ∀ t ∈ Token.split first, t.kind = .word →
      Bytes.startsWith t.text "\\" = false ∧ Bytes.startsWith t.text "\"" = false ∧
        Bytes.startsWith t.text ".\"" = false) :
    ∃ atoms state, line place inComment first = ⟨.ok atoms, state⟩ ∧
      line place inComment (first ++ gap ++ second) =
        ⟨(line place state second).result.map (atoms ++ ·),
          (line place state second).inComment⟩ := by
  have hopen : ∀ t ∈ Token.split first, t.opensString = false := by
    intro t ht
    by_cases hkind : t.kind = .word
    · have hstarts := (hwords t ht hkind).2
      simp only [Token.opensString, Bool.and_eq_false_iff, Bool.or_eq_false_iff]
      exact .inr ⟨hstarts.2, hstarts.1⟩
    · simp [Token.opensString, hkind]
  have hend : ∀ t ∈ Token.split first, t.endsLine = false := by
    intro t ht
    by_cases hkind : t.kind = .word
    · simp [Token.endsLine, (hwords t ht hkind).1]
    · simp [Token.endsLine, hkind]
  have hends : Token.Ends (gap ++ second) := by
    cases gap with
    | nil => exact absurd rfl hne
    | cons c gap =>
      rintro _ ⟨⟩
      exact hgap c List.mem_cons_self
  have hsplit : Token.split (first ++ gap ++ second) = Token.split first ++ Token.split second := by
    rw [List.append_assoc, Token.split_append hends (.inl hopen), Token.split_gap_append hgap]
  refine ⟨(keep inComment (Token.split first)).1.map place.atom,
    (keep inComment (Token.split first)).2, ?_, ?_⟩
  · exact tokens_of_closed [] fun _ t ht => hopen t (mem_of_mem_keep ht)
  · rw [line, hsplit, tokens_append hopen hend, List.append_nil, tokens_found]
    simp [line]

/-- A comment and a marker within a literal stand in front of the gap, an open literal and the end
of the line behind it. -/
theorem line_append_gap_openLiteral :
    let first : Bytes := "a ( b) \"c \\ d\"e"
    (line ⟨"f", 3, false⟩ true first).result = .ok [⟨"\"c \\ d\"", .dumpString, "f", 3⟩,
      ⟨"e", .word, "f", 3⟩] ∧
    (line ⟨"f", 3, false⟩ true (first ++ "\r\n\t" ++ "\"g \\ h")).result =
      .ok [⟨"\"c \\ d\"", .dumpString, "f", 3⟩, ⟨"e", .word, "f", 3⟩, ⟨"\"g", .word, "f", 3⟩] := by
  intro first
  obtain ⟨atoms, state, hfirst, hwhole⟩ :=
    line_append_gap ⟨"f", 3, false⟩ true first "\r\n\t" "\"g \\ h" (by decide +kernel)
      (by decide +kernel) (by decide +kernel)
  have hatoms : (line ⟨"f", 3, false⟩ true first).result =
      .ok [⟨"\"c \\ d\"", .dumpString, "f", 3⟩, ⟨"e", .word, "f", 3⟩] := by decide +kernel
  have hstate : (line ⟨"f", 3, false⟩ true first).inComment = false := by decide +kernel
  rw [hfirst] at hatoms hstate
  obtain rfl := Except.ok.inj hatoms
  obtain rfl : state = false := hstate
  refine ⟨by rw [hfirst], ?_⟩
  rw [hwhole]
  decide +kernel

end Scan

end ForthFrontend
