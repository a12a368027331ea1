import ForthFrontend.Proofs.Scan.Printed

/-!
# The meaning of a line

The scanner goes along a line and keeps a comment state. What it finds can be said without it. A
line is cut into gaps and tokens in one way only, since the text behind a gap fixes the token that
begins it. Which tokens become atoms can then be told from their positions: the latest token in
front of a position that says anything about the comment decides, and the first word with a
backslash ends the line.

## Main definitions

* `Token.Begins`: the token that a text begins with.
* `Splitting.IsOf`: a line is cut into gaps and tokens.
* `Scan.commentAt`, `Scan.meant`: the comment state at a position and the tokens that are kept.

## Main results

* `Token.begins_first`, `Token.Begins.unique`: a text begins with its first token and no other.
* `Splitting.exists_isOf`, `Splitting.IsOf.unique`: every line is cut in exactly one way.
* `Scan.keep_eq_meant`: a scan keeps what the positions say.
* `Scan.line_eq_meant`: scanning a line.
-/

namespace ForthFrontend

/-! ### The token that begins a text -/

namespace Token

/-- The text is an opening with a quotation mark at its end. -/
def IsClosed (opening text : Bytes) : Prop :=
  ∃ body, text = opening ++ body ++ [Bytes.quote]

/-- A closed literal with this opening begins the text. -/
def HasClosed (opening s : Bytes) : Prop :=
  ∃ text, text <+: s ∧ IsClosed opening text

/-- The shortest closed literal with this opening that begins `s`. -/
structure IsShortestClosed (opening s text : Bytes) : Prop where
  begins : text <+: s
  closed : IsClosed opening text
  least : ∀ other, other <+: s → IsClosed opening other → text.length ≤ other.length

/-- The longest run of bytes outside gaps that begins `s`. -/
structure IsLongestRun (s text : Bytes) : Prop where
  begins : text <+: s
  run : ∀ c ∈ text, isGap c = false
  greatest : ∀ other, other <+: s → (∀ c ∈ other, isGap c = false) → other.length ≤ text.length

/-- The token that the text `s` begins with. -/
inductive Begins (s : Bytes) : Token → Prop
  | display {text : Bytes} (h : IsShortestClosed displayOpening s text) :
    Begins s ⟨.displayString, text⟩
  | dump {text : Bytes} (hdisplay : ¬ HasClosed displayOpening s)
    (h : IsShortestClosed dumpOpening s text) : Begins s ⟨.dumpString, text⟩
  | word {text : Bytes} (hdisplay : ¬ HasClosed displayOpening s)
    (hdump : ¬ HasClosed dumpOpening s) (h : IsLongestRun s text) : Begins s ⟨.word, text⟩

section Unique

variable {opening s text text' : Bytes}

theorem eq_of_begins (h : text <+: s) (h' : text' <+: s) (hlength : text.length = text'.length) :
    text = text' :=
  (List.prefix_of_prefix_length_le h h' (Nat.le_of_eq hlength)).eq_of_length hlength

theorem IsShortestClosed.hasClosed (h : IsShortestClosed opening s text) : HasClosed opening s :=
  ⟨text, h.begins, h.closed⟩

theorem IsShortestClosed.unique (h : IsShortestClosed opening s text)
    (h' : IsShortestClosed opening s text') : text = text' :=
  eq_of_begins h.begins h'.begins
    (Nat.le_antisymm (h.least _ h'.begins h'.closed) (h'.least _ h.begins h.closed))

theorem IsLongestRun.unique (h : IsLongestRun s text) (h' : IsLongestRun s text') : text = text' :=
  eq_of_begins h.begins h'.begins
    (Nat.le_antisymm (h'.greatest _ h.begins h.run) (h.greatest _ h'.begins h'.run))

/-- **A text begins with one token at most.** -/
theorem Begins.unique {t t' : Token} (h : Begins s t) (h' : Begins s t') : t = t' := by
  cases h with
  | display h =>
    cases h' with
    | display h' => rw [h.unique h']
    | dump hdisplay _ => exact absurd h.hasClosed hdisplay
    | word hdisplay _ _ => exact absurd h.hasClosed hdisplay
  | dump hdisplay h =>
    cases h' with
    | display h' => exact absurd h'.hasClosed hdisplay
    | dump _ h' => rw [h.unique h']
    | word _ hdump _ => exact absurd h.hasClosed hdump
  | word hdisplay hdump h =>
    cases h' with
    | display h' => exact absurd h'.hasClosed hdisplay
    | dump _ h' => exact absurd h'.hasClosed hdump
    | word _ _ h' => rw [h.unique h']

end Unique

section Literal

variable {opening s text after : Bytes}

theorem append_of_literal? (h : literal? opening s = some (text, after)) : text ++ after = s := by
  rw [literal?] at h
  split at h
  · next hstarts =>
    obtain ⟨body, rfl⟩ := List.isPrefixOf_iff_prefix.1 hstarts
    rw [List.drop_left] at h
    simp only at h
    split at h
    · cases h
    · next c rest hdrop =>
      obtain ⟨rfl, rfl⟩ := Prod.mk.inj (Option.some.inj h)
      -- the search for the end stopped at a quotation mark
      have hc : c = Bytes.quote := by
        simpa [hdrop] using List.head?_dropWhile_not (p := (· != Bytes.quote)) (l := body)
      have hbody := List.takeWhile_append_dropWhile (p := (· != Bytes.quote)) (l := body)
      rw [hdrop, hc] at hbody
      simpa using hbody
  · cases h

/-- What is found as a literal is the shortest that is closed. -/
theorem isShortestClosed_of_literal? (h : literal? opening s = some (text, after)) :
    IsShortestClosed opening s text := by
  obtain rfl := append_of_literal? h
  obtain ⟨body, hbody, rfl⟩ := exists_body_of_literal? h
  refine ⟨List.prefix_append _ _, ⟨body, rfl⟩, ?_⟩
  rintro _ hother ⟨body', rfl⟩
  by_contra hshort
  -- a shorter one would end with a quotation mark of the body
  have hlength : (opening ++ body' ++ [Bytes.quote]).length ≤ (opening ++ body).length := by
    simp only [List.length_append, List.length_singleton] at hshort ⊢
    omega
  have hwithin : opening ++ body' ++ [Bytes.quote] <+: opening ++ body := by
    refine List.prefix_of_prefix_length_le hother ?_ hlength
    rw [List.append_assoc (opening ++ body)]
    exact List.prefix_append _ _
  rw [List.append_assoc, List.prefix_append_right_inj] at hwithin
  exact hbody (hwithin.subset (by simp))

/-- Where no literal is found none is closed. -/
theorem not_hasClosed_of_literal? (h : literal? opening s = none) : ¬ HasClosed opening s := by
  rintro ⟨_, ⟨after, rfl⟩, body, rfl⟩
  obtain ⟨front, back, hsplit, hfront⟩ :=
    List.eq_append_cons_of_mem (List.mem_append_right body (List.mem_singleton_self Bytes.quote))
  have hshape : opening ++ body ++ [Bytes.quote] ++ after =
      opening ++ front ++ [Bytes.quote] ++ (back ++ after) := by
    rw [List.append_assoc opening, hsplit]
    simp
  rw [hshape, literal?_append opening hfront] at h
  cases h

end Literal

/-- A token and what comes after it make up the text. -/
theorem text_append_first (b : UInt8) (rest : Bytes) :
    (first b rest).1.text ++ (first b rest).2 = b :: rest := by
  rw [first]
  split
  · next h => exact append_of_literal? h
  · split
    · next h => exact append_of_literal? h
    · exact congrArg (b :: ·) List.takeWhile_append_dropWhile

/-- A token takes at least the byte that it begins with. -/
theorem head?_text_first (b : UInt8) (rest : Bytes) : (first b rest).1.text.head? = some b := by
  have htext := text_append_first b rest
  cases hfirst : (first b rest).1.text with
  | nil =>
    have hlength := congrArg List.length htext
    have hle := length_first_le b rest
    rw [hfirst, List.nil_append, List.length_cons] at hlength
    omega
  | cons c text =>
    rw [hfirst] at htext
    exact congrArg some (List.cons.inj htext).1

/-- The bytes up to the next gap are the longest run. -/
theorem isLongestRun_takeWhile (s : Bytes) : IsLongestRun s (s.takeWhile (!isGap ·)) := by
  refine ⟨List.takeWhile_prefix _, ?_, ?_⟩
  · intro c hc
    simpa using List.all_eq_true.1 List.all_takeWhile c hc
  · rintro other ⟨after, rfl⟩ hother
    rw [List.takeWhile_append_of_pos (by simpa using hother)]
    simp

/-- **A text begins with its first token.** -/
theorem begins_first {b : UInt8} {rest : Bytes} (hb : isGap b = false) :
    Begins (b :: rest) (first b rest).1 := by
  rw [first]
  split
  · next hdisplay => exact .display (isShortestClosed_of_literal? hdisplay)
  · next hdisplay =>
    have hnone := not_hasClosed_of_literal? hdisplay
    split
    · next hdump => exact .dump hnone (isShortestClosed_of_literal? hdump)
    · next hdump =>
      refine .word hnone (not_hasClosed_of_literal? hdump) ?_
      have hrun := isLongestRun_takeWhile (b :: rest)
      rwa [List.takeWhile_cons_of_pos (by simp [hb])] at hrun

end Token

/-! ### Cutting a line -/

/-- A way to cut a line: tokens, each with the gap in front of it, and the gap behind the last. -/
structure Splitting where
  pieces : List (Bytes × Token)
  rest : Bytes

namespace Splitting

/-- The line that was cut. -/
def join (pieces : List (Bytes × Token)) (rest : Bytes) : Bytes :=
  pieces.flatMap (fun piece => piece.1 ++ piece.2.text) ++ rest

/-- The tokens without the gaps. -/
def tokens (p : Splitting) : List Token :=
  p.pieces.map Prod.snd

/-- **The line is cut into gaps and tokens**: a gap has gap bytes only, a token begins outside gaps,
and it is the token that begins what is left of the line there. -/
structure IsOf (p : Splitting) (line : Bytes) : Prop where
  join_eq : join p.pieces p.rest = line
  gap : ∀ piece ∈ p.pieces, ∀ c ∈ piece.1, Token.isGap c = true
  rest : ∀ c ∈ p.rest, Token.isGap c = true
  start : ∀ piece ∈ p.pieces, ∃ b ∈ piece.2.text.head?, Token.isGap b = false
  token : ∀ before piece behind, p.pieces = before ++ piece :: behind →
    Token.Begins (piece.2.text ++ join behind p.rest) piece.2

section

variable {gap rest line : Bytes} {t : Token} {pieces : List (Bytes × Token)}

theorem isOf_nil_iff : IsOf ⟨[], rest⟩ line ↔ rest = line ∧ ∀ c ∈ rest, Token.isGap c = true := by
  constructor
  · exact fun h => ⟨h.join_eq, h.rest⟩
  · rintro ⟨hline, hrest⟩
    refine ⟨hline, by simp, hrest, by simp, ?_⟩
    intro before piece behind h
    exact absurd h.symm (by simp)

/-- A line is cut at its first token, and then what is left of it. -/
theorem isOf_cons_iff : IsOf ⟨(gap, t) :: pieces, rest⟩ line ↔ ∃ after,
    line = gap ++ (t.text ++ after) ∧ (∀ c ∈ gap, Token.isGap c = true) ∧
      (∃ b ∈ t.text.head?, Token.isGap b = false) ∧ Token.Begins (t.text ++ after) t ∧
        IsOf ⟨pieces, rest⟩ after := by
  constructor
  · rintro ⟨hline, hgap, hrest, hstart, htoken⟩
    rw [List.forall_mem_cons] at hgap hstart
    refine ⟨join pieces rest, ?_, hgap.1, hstart.1, htoken [] _ _ rfl, rfl, hgap.2, hrest,
      hstart.2, ?_⟩
    · rw [← hline]
      simp [join]
    · rintro before piece behind rfl
      exact htoken ((gap, t) :: before) piece behind rfl
  · rintro ⟨after, rfl, hgap, hstart, htoken, hafter⟩
    refine ⟨?_, List.forall_mem_cons.2 ⟨hgap, hafter.gap⟩, hafter.rest,
      List.forall_mem_cons.2 ⟨hstart, hafter.start⟩, ?_⟩
    · rw [← hafter.join_eq]
      simp [join]
    · intro before piece behind h
      cases before with
      | nil =>
        obtain ⟨rfl, rfl⟩ := List.cons.inj h
        show Token.Begins (t.text ++ join pieces rest) t
        rwa [hafter.join_eq]
      | cons first before => exact hafter.token before piece behind (List.cons.inj h).2

/-- The gap in front of a token is all that can be dropped. -/
theorem takeWhile_dropWhile_gap {text : Bytes} (hgap : ∀ c ∈ gap, Token.isGap c = true)
    (hstart : ∃ b ∈ text.head?, Token.isGap b = false) (after : Bytes) :
    (gap ++ (text ++ after)).takeWhile Token.isGap = gap ∧
      (gap ++ (text ++ after)).dropWhile Token.isGap = text ++ after := by
  obtain ⟨b, hb, hout⟩ := hstart
  obtain ⟨tail, rfl⟩ := List.head?_eq_some_iff.1 hb
  rw [List.takeWhile_append_of_pos hgap, List.dropWhile_append_of_pos hgap]
  simp [hout]

end

/-- **Every line can be cut**, into the tokens that the scanner finds. -/
theorem exists_isOf (line : Bytes) :
    ∃ p : Splitting, p.IsOf line ∧ p.tokens = Token.split line := by
  -- the induction is on how much of the line is left
  induction hn : line.length using Nat.strongRecOn generalizing line with
  | ind n ih =>
    have hline := List.takeWhile_append_dropWhile (p := Token.isGap) (l := line)
    have hgap : ∀ c ∈ line.takeWhile Token.isGap, Token.isGap c = true :=
      List.all_eq_true.1 List.all_takeWhile
    rw [Token.split_eq]
    cases hdrop : line.dropWhile Token.isGap with
    | nil =>
      rw [hdrop, List.append_nil] at hline
      exact ⟨⟨[], line⟩, isOf_nil_iff.2 ⟨rfl, hline ▸ hgap⟩, rfl⟩
    | cons b rest =>
      have hb : Token.isGap b = false := by
        simpa [hdrop] using List.head?_dropWhile_not (p := Token.isGap) (l := line)
      have htext := Token.text_append_first b rest
      have hle := Token.length_first_le b rest
      have hlength := congrArg List.length hline
      rw [hdrop, List.length_append, List.length_cons] at hlength
      obtain ⟨p, hp, htokens⟩ := ih _ (by omega) (Token.first b rest).2 rfl
      refine ⟨⟨(line.takeWhile Token.isGap, (Token.first b rest).1) :: p.pieces, p.rest⟩, ?_,
        congrArg _ htokens⟩
      refine isOf_cons_iff.2 ⟨(Token.first b rest).2, ?_, hgap,
        ⟨b, Token.head?_text_first b rest, hb⟩, ?_, hp⟩
      · rw [htext, ← hdrop, hline]
      · rw [htext]
        exact Token.begins_first hb

/-- A line of gap bytes only has no token. -/
theorem not_isOf_cons {rest rest' line : Bytes} {piece : Bytes × Token}
    {pieces : List (Bytes × Token)} (h : IsOf ⟨[], rest⟩ line) :
    ¬ IsOf ⟨piece :: pieces, rest'⟩ line := by
  intro hcons
  obtain ⟨rfl, hrest⟩ := isOf_nil_iff.1 h
  obtain ⟨b, hb, hout⟩ := hcons.start piece List.mem_cons_self
  have hmem : b ∈ join (piece :: pieces) rest' := by
    simp [join, List.mem_of_mem_head? hb]
  rw [hcons.join_eq] at hmem
  exact absurd (hrest b hmem) (by simp [hout])

/-- **A line is cut in one way only.** -/
theorem IsOf.unique {p q : Splitting} {line : Bytes} (hp : p.IsOf line) (hq : q.IsOf line) :
    p = q := by
  obtain ⟨pieces, rest⟩ := p
  obtain ⟨pieces', rest'⟩ := q
  induction pieces generalizing pieces' line with
  | nil =>
    cases pieces' with
    | nil => rw [(isOf_nil_iff.1 hp).1, (isOf_nil_iff.1 hq).1]
    | cons piece' pieces' => exact absurd hq (not_isOf_cons hp)
  | cons piece pieces ih =>
    cases pieces' with
    | nil => exact absurd hp (not_isOf_cons hq)
    | cons piece' pieces' =>
      obtain ⟨gap, t⟩ := piece
      obtain ⟨gap', t'⟩ := piece'
      obtain ⟨after, rfl, hgap, hstart, htoken, hafter⟩ := isOf_cons_iff.1 hp
      obtain ⟨after', hline, hgap', hstart', htoken', hafter'⟩ := isOf_cons_iff.1 hq
      -- both cut the same gap off, so the same text is left, and it begins with one token
      obtain ⟨htake, hdrop⟩ := takeWhile_dropWhile_gap hgap hstart after
      obtain ⟨htake', hdrop'⟩ := takeWhile_dropWhile_gap hgap' hstart' after'
      rw [hline] at htake hdrop
      obtain rfl : gap = gap' := htake.symm.trans htake'
      have htext : t.text ++ after = t'.text ++ after' := hdrop.symm.trans hdrop'
      rw [← htext] at htoken'
      obtain rfl := htoken.unique htoken'
      obtain rfl := List.append_cancel_left htext
      have heq := ih hafter pieces' hafter'
      obtain ⟨rfl, rfl⟩ := Splitting.mk.inj heq
      rfl

end Splitting

/-! ### What the positions say -/

namespace Token

/-- What a word says about the comment behind it, if anything: that it is open after an opening
parenthesis at the start, or else that it is closed after a closing one at the end. -/
def says? (t : Token) : Option Bool :=
  if t.kind == .word then
    if Bytes.startsWith t.text "(" then some true
    else if Bytes.endsWith t.text ")" then some false
    else none
  else none

/-- Is the token a word that starts with a backslash? -/
def endsLine (t : Token) : Bool :=
  t.kind == .word && Bytes.startsWith t.text "\\"

theorem marker?_eq (t : Token) : t.marker? =
    if t.endsLine then some .lineComment
    else t.says?.map fun comment => if comment then .commentOpen else .commentClose := by
  rw [marker?, says?, endsLine]
  split_ifs <;> simp_all

end Token

namespace Scan

/-- The tokens in front of the first that ends the line. -/
def beforeEnd (ts : List Token) : List Token :=
  ts.takeWhile (!·.endsLine)

/-- Is a comment open in front of the position? The latest token before it that says anything
decides, and if there is none, so does the state at the start. -/
def commentAt (start : Bool) (ts : List Token) (i : Nat) : Bool :=
  ((ts.take i).reverse.findSome? Token.says?).getD start

/-- Does the token say nothing itself, and is no comment open in front of its position? -/
def isMeant (start : Bool) (ts : List Token) : Token × Nat → Bool :=
  fun (t, i) => t.says?.isNone && !commentAt start ts i

/-- The tokens that become atoms. -/
def meant (start : Bool) (ts : List Token) : List Token :=
  (ts.zipIdx.filter (isMeant start ts)).map Prod.fst

section

variable (start : Bool) (t : Token) (ts : List Token)

theorem commentAt_cons_succ (i : Nat) :
    commentAt start (t :: ts) (i + 1) = commentAt (t.says?.getD start) ts i := by
  rw [commentAt, commentAt, List.take_succ_cons, List.reverse_cons, List.findSome?_append]
  cases (ts.take i).reverse.findSome? Token.says? with
  | some comment => rfl
  | none => cases h : t.says? <;> simp [h]

theorem meant_cons : meant start (t :: ts) =
    (if t.says?.isNone && !start then [t] else []) ++ meant (t.says?.getD start) ts := by
  have hfirst : isMeant start (t :: ts) (t, 0) = (t.says?.isNone && !start) := rfl
  -- a position behind the token is one of the rest, moved by one
  have hrest : isMeant start (t :: ts) ∘ Prod.map id (· + 1) =
      isMeant (t.says?.getD start) ts := by
    funext ⟨u, i⟩
    exact congrArg (u.says?.isNone && !·) (commentAt_cons_succ start t ts i)
  rw [meant, List.zipIdx_cons', List.filter_cons, List.filter_map, hfirst, hrest, meant]
  split <;> simp

end

/-- **A scan keeps what the positions say**, and the comment state behind it is that of the last
position. -/
theorem keep_eq_meant (start : Bool) (ts : List Token) : keep start ts =
    (meant start (beforeEnd ts), commentAt start (beforeEnd ts) (beforeEnd ts).length) := by
  induction ts generalizing start with
  | nil => rfl
  | cons t ts ih =>
    rw [keep, Token.marker?_eq]
    by_cases hend : t.endsLine = true
    · have hnil : beforeEnd (t :: ts) = [] := List.takeWhile_cons_of_neg (by simp [hend])
      rw [if_pos hend, hnil]
      rfl
    · have hcons : beforeEnd (t :: ts) = t :: beforeEnd ts :=
        List.takeWhile_cons_of_pos (by simp [hend])
      rw [if_neg hend, hcons, meant_cons, List.length_cons, commentAt_cons_succ]
      cases hsays : t.says? with
      | some comment => cases comment <;> exact ih _
      | none => cases start <;> simp [ih]

/-- **The meaning of a line** that is scanned with literals left open allowed. The line is cut into
gaps and tokens in exactly one way. The atoms are the tokens in front of the end of the line that
say nothing about the comment and at whose position none is open, with the file and the number of
the line; the comment state is that at the end. -/
theorem line_eq_meant (file : Path) (number : Int64) (start : Bool) (text : Bytes) :
    ∃ p : Splitting, p.IsOf text ∧ (∀ q : Splitting, q.IsOf text → q = p) ∧
      line ⟨file, number, false⟩ start text =
        ⟨.ok ((meant start (beforeEnd p.tokens)).map fun t => ⟨t.text, t.kind, file, number⟩),
          commentAt start (beforeEnd p.tokens) (beforeEnd p.tokens).length⟩ := by
  obtain ⟨p, hp, htokens⟩ := Splitting.exists_isOf text
  refine ⟨p, hp, fun q hq => hq.unique hp, ?_⟩
  rw [line, tokens_of_closed [] (by simp), htokens, keep_eq_meant]
  rfl

/-- A marker within a string, words next to strings, a word that both opens and closes, and a word
that ends the line within a comment. -/
example :
    (line ⟨"f", 7, false⟩ true "a) .\" ( x\"b \"c\"d (e) f g) \"h ( \\ i)").result.toOption =
      some [⟨".\" ( x\"", .displayString, "f", 7⟩, ⟨"b", .word, "f", 7⟩,
        ⟨"\"c\"", .dumpString, "f", 7⟩, ⟨"d", .word, "f", 7⟩, ⟨"\"h", .word, "f", 7⟩] := by
  decide +kernel

end Scan

end ForthFrontend
