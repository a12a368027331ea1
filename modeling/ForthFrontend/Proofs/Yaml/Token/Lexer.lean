import ForthFrontend.Proofs.Yaml.Token.Plain
import ForthFrontend.Proofs.Yaml.Token.Queue

/-!
# The tokens of a document in block style

What the lexer makes of the parts of a document besides scalars: a dash, a name with its colon, the
beginning and the end. Between two parts the lexer stands at white space that leads to a column, and
the columns of the open blocks decide which blocks end and begin there.

## Main definitions

* `Yaml.Leads`: white space that leads to a token.
* `Yaml.Lexer.At`: the lexer in front of a token, with given open blocks.

## Main results

* `Yaml.Lexer.At.entry`: the dash of an item.
* `Yaml.Lexer.At.key`: the name of a field and its colon.
* `Yaml.Lexer.makes_start`, `Yaml.Lexer.At.finish`: the beginning and the end of a document.
-/

namespace ForthFrontend.Yaml

/-! ### White space before a token -/

/-- White space in a line, or a line break and the indentation of the next line, leads to a token at
a column. A key may begin there if one was allowed before, or on a new line. -/
inductive Leads (column : Nat) : List Nat → Bool → Bool → Nat → List Nat → Prop where
  | blanks {r : List Nat} (n : Nat) (allowed : Bool) : Sequel r →
      Leads column (List.replicate n 0x20 ++ r) allowed allowed (column + n) r
  | line {r : List Nat} (n : Nat) (allowed : Bool) : Sequel r →
      Leads column (0x0A :: (List.replicate n 0x20 ++ r)) allowed true n r

theorem Leads.length_le {column column' : Nat} {text r : List Nat} {allowed allowed' : Bool}
    (h : Leads column text allowed allowed' column' r) : r.length ≤ text.length := by
  cases h with
  | blanks => simp
  | line =>
    simp only [List.length_cons, List.length_append]
    omega

namespace Lexer

theorem skipGap_blanks {limit fuel n : Nat} {allowed : Bool} {c : Cursor} {r : List Nat}
    (hr : Sequel r) (hc : c.rest = List.replicate n 0x20 ++ r) :
    skipGap false limit (fuel + 1) allowed c = (allowed, c.advance n) := by
  have hskip : c.skipWhile (fun v => v == 0x20 || ((false || !allowed) && v == 0x09)) =
      c.advance n := by
    have hrun : c.rest.takeWhile (fun v => v == 0x20 || ((false || !allowed) && v == 0x09)) =
        List.replicate n 0x20 := by
      rw [hc]
      refine takeWhile_run (fun v hv => ?_) fun v hv => ?_
      · rw [List.eq_of_mem_replicate hv]
        rfl
      · have := (hr v hv).1
        simp only [isBlank, Bool.or_eq_false_iff] at this
        simp [this]
    rw [Cursor.skipWhile, hrun, List.length_replicate]
  have hrest : (c.advance n).rest = r := by simp [hc]
  have hhash : (c.advance n).sees 0x23 = false :=
    sees_eq_false fun v hv => (hr v (hrest ▸ hv)).2.2
  have hbreak : (c.advance n).atBreak = false := atBreak_of_stops (hrest ▸ hr.stops)
  rw [skipGap]
  simp only [hskip, hhash, hbreak, Bool.false_eq_true, ↓reduceIte]

theorem skipGap_line {limit fuel n : Nat} {allowed : Bool} {c : Cursor} {r : List Nat}
    (hr : Sequel r) (hc : c.rest = 0x0A :: (List.replicate n 0x20 ++ r)) :
    skipGap false limit (fuel + 2) allowed c = (true, (c.newLine 1).advance n) := by
  have hskip : c.skipWhile (fun v => v == 0x20 || ((false || !allowed) && v == 0x09)) = c := by
    rw [Cursor.skipWhile, hc, List.takeWhile_cons_of_neg (by simp)]
    rfl
  have hhash : c.sees 0x23 = false := sees_eq_false (by simp [hc])
  have hbreak : c.atBreak = true := (atBreak_of_isKept (.inl rfl) hc).2
  have hnext : c.skipBreak = c.newLine 1 := by
    rw [Cursor.skipBreak, Cursor.takeBreak_of_isKept (.inl rfl) hc]
  rw [skipGap]
  simp only [hskip, hhash, hbreak, hnext, Bool.not_false, Bool.or_true, Bool.false_eq_true,
    ↓reduceIte]
  exact skipGap_blanks hr (by simp [hc])

/-- **White space is skipped** up to the token that it leads to. -/
theorem skipGap_leads {limit column' : Nat} {allowed allowed' : Bool} {c : Cursor} {r : List Nat}
    (h : Leads c.mark.column c.rest allowed allowed' column' r) (hlimit : 2 ≤ limit) :
    ∃ c', skipGap false limit limit allowed c = (allowed', c') ∧ c'.rest = r ∧
      c'.mark.column = column' := by
  obtain ⟨fuel, rfl⟩ : ∃ k, limit = k + 2 := ⟨limit - 2, by omega⟩
  generalize hc : c.rest = text at h
  cases h with
  | blanks n _ hr => exact ⟨_, skipGap_blanks hr hc, by simp [hc], by simp⟩
  | line n _ hr => exact ⟨_, skipGap_line hr hc, by simp [hc], by simp⟩

/-- No comment stands on the line of a token. -/
theorem skipLineComment_leads {column' : Nat} {allowed allowed' : Bool} {c : Cursor} {r : List Nat}
    (h : Leads c.mark.column c.rest allowed allowed' column' r) : skipLineComment c = c := by
  generalize hc : c.rest = text at h
  have hsees : (c.advance (c.rest.takeWhile isBlank).length).sees 0x23 = false := by
    cases h with
    | blanks n _ hr =>
      have hrun : c.rest.takeWhile isBlank = List.replicate n 0x20 := by
        rw [hc]
        refine takeWhile_run (fun v hv => ?_) fun v hv => (hr v hv).1
        rw [List.eq_of_mem_replicate hv]
        rfl
      refine sees_eq_false fun v hv => ?_
      rw [hrun, List.length_replicate, Cursor.rest_advance, hc,
        List.drop_left' List.length_replicate] at hv
      exact (hr v hv).2.2
    | line n _ hr =>
      refine sees_eq_false ?_
      rw [hc, List.takeWhile_cons_of_neg (by simp [isBlank])]
      simp [hc]
  unfold skipLineComment
  simp only [hsees, Bool.and_false, Bool.false_eq_true, ↓reduceIte]

theorem skipLineComment_sequel {c : Cursor} (h : Sequel c.rest) : skipLineComment c = c :=
  skipLineComment_leads (c := c) (.blanks 0 true h)

/-! ### In front of a token -/

/-- The lexer stands at a token, outside flow collections. -/
structure Facing (l : Lexer) (blocks : List Nat) (allowed : Bool) (column : Nat) (r : List Nat) :
    Prop where
  started : l.started = true
  outerKeys : l.outerKeys = []
  blocks_eq : l.blocks = blocks
  shallow : blocks.length < maxDepth
  allowed_eq : l.keyAllowed = allowed
  column_eq : l.cursor.mark.column = column
  rest_eq : l.cursor.rest = r
  limit : r.length + lookahead ≤ l.limit
  optional : ∀ k ∈ l.key, k.required = false

theorem Facing.inFlow_eq {l : Lexer} {blocks : List Nat} {allowed : Bool} {column : Nat}
    {r : List Nat} (h : l.Facing blocks allowed column r) : l.inFlow = false := by
  rw [inFlow, h.outerKeys]
  rfl

/-- The lexer stands at white space that leads to a token. -/
structure At (l : Lexer) (blocks : List Nat) (allowed : Bool) (column : Nat) (r : List Nat) :
    Prop where
  facing : l.skipped.Facing blocks allowed column r
  recent : ∀ k ∈ l.key, l.nextNumber ≤ k.token + if allowed then 2 else 1

/-- The lexer behind a token stands at what follows it. -/
theorem at_of_leads {l : Lexer} {blocks : List Nat} {allowed : Bool} {column : Nat} {r : List Nat}
    (hstarted : l.started = true) (houter : l.outerKeys = []) (hblocks : l.blocks = blocks)
    (hshallow : blocks.length < maxDepth)
    (hleads : Leads l.cursor.mark.column l.cursor.rest l.keyAllowed allowed column r)
    (hlimit : r.length + lookahead ≤ l.limit) (hoptional : ∀ k ∈ l.key, k.required = false)
    (hrecent : ∀ k ∈ l.key, l.nextNumber ≤ k.token + if allowed then 2 else 1) :
    l.At blocks allowed column r := by
  have hflow : l.inFlow = false := by
    rw [inFlow, houter]
    rfl
  obtain ⟨c, hgap, hrest, hcolumn⟩ := skipGap_leads hleads
    (show 2 ≤ l.limit by rw [lookahead] at hlimit; omega)
  have hskipped : l.skipped = { l with keyAllowed := allowed, cursor := c } := by
    rw [skipped, hflow, hgap]
  refine ⟨?_, hrecent⟩
  rw [hskipped]
  exact ⟨hstarted, houter, hblocks, hshallow, rfl, hcolumn, hrest, hlimit, hoptional⟩

/-- The blocks that end at a column. -/
def closing (column : Nat) (blocks : List Nat) : List Token.Shape :=
  (blocks.takeWhile (column < ·)).map fun _ => .blockEnd

/-- The blocks that are open at a column. -/
def around (column : Nat) (blocks : List Nat) : List Nat :=
  blocks.drop (blocks.takeWhile (column < ·)).length

theorem closing_of_le {c column : Nat} (h : c ≤ column) (blocks : List Nat) :
    closing column (c :: blocks) = [] := by
  rw [closing, List.takeWhile_cons_of_neg (by simpa using h)]
  rfl

theorem around_of_le {c column : Nat} (h : c ≤ column) (blocks : List Nat) :
    around column (c :: blocks) = c :: blocks := by
  rw [around, List.takeWhile_cons_of_neg (by simpa using h)]
  rfl

/-- Does a block have to be opened at a column? -/
def opens (column : Nat) (blocks : List Nat) : Bool :=
  !blocks.head?.any (column ≤ ·)

/-- The open blocks when one is open at a column. -/
def opened (column : Nat) (blocks : List Nat) : List Nat :=
  if opens column blocks then column :: blocks else blocks

section At

variable {l : Lexer} {blocks : List Nat} {allowed : Bool} {column : Nat} {r : List Nat}

theorem At.tidy (h : l.At blocks allowed column r) : l.Tidy where
  recent := by
    intro k hk
    have := h.recent k hk
    split at this <;> omega
  outer := by
    have : l.outerKeys = [] := h.facing.outerKeys
    simp [this]
  fuel := by
    have : r.length + lookahead ≤ l.limit := h.facing.limit
    omega

/-- The blocks that end before a token are closed. -/
theorem At.approach_eq (h : l.At blocks allowed column r) :
    l.approach = { l.skipped with
      blocks := around column blocks
      queue := l.queue ++ (closing column blocks).map fun shape => ⟨shape, l.mark.line⟩ } := by
  rw [approach, closeBlocks, if_neg (by simp [h.facing.inFlow_eq])]
  simp only [mark, h.facing.column_eq, h.facing.blocks_eq, around, closing, List.map_map]
  rfl

theorem length_around (column : Nat) (blocks : List Nat) :
    (around column blocks).length ≤ blocks.length := by
  rw [around, List.length_drop]
  omega

theorem At.facing_approach (h : l.At blocks allowed column r) :
    l.approach.Facing (around column blocks) allowed column r := by
  have hshallow := Nat.lt_of_le_of_lt (length_around column blocks) h.facing.shallow
  rw [h.approach_eq]
  exact ⟨h.facing.started, h.facing.outerKeys, rfl, hshallow, h.facing.allowed_eq,
    h.facing.column_eq, h.facing.rest_eq, h.facing.limit, h.facing.optional⟩

theorem At.fetch_eq (h : l.At blocks allowed column r) : l.fetch = l.approach.fetchNext :=
  Lexer.fetch_eq h.facing.started

/-- Neither a directive nor the mark of a document stands at the token. -/
theorem fetchNext_eq {v : Nat} (hrest : l.cursor.rest = v :: r)
    (hv : l.cursor.mark.column ≠ 0 ∨ v ≠ 0x25 ∧ v ≠ 0x2D ∧ v ≠ 0x2E) :
    l.fetchNext = (l.fetchAt v).map finishLine := by
  have hhead : l.cursor.head? = some v := by
    rw [Cursor.head?, hrest]
    rfl
  have hdirective : (l.mark.column == 0 && v == 0x25) = false := by
    rw [mark]
    rcases hv with hv | hv
    · simp [hv]
    · simp [hv.1]
  have hmark : l.cursor.atDocumentMark = false := by
    rcases hv with hv | ⟨-, hdash, hdot⟩
    · exact atDocumentMark_of_column hv
    · simp [Cursor.atDocumentMark, hrest, hdash.symm, hdot.symm]
  simp only [fetchNext, hhead, hdirective, hmark, Bool.false_eq_true, ↓reduceIte]

theorem dropKey_eq (h : ∀ k ∈ l.key, k.required = false) :
    l.dropKey = .ok { l with key := none } := by
  unfold dropKey
  split
  · next k hk => rw [if_neg (by simp [h k hk])]
  · next hk => rw [← hk]

/-- A token that is put in front of the next one stands at the end of the queue. -/
theorem insert_nextNumber (l : Lexer) (line : Nat) (shape : Token.Shape) :
    l.insert l.nextNumber line shape = l.push line shape := by
  have hindex : l.nextNumber - l.taken = l.queue.length := by
    rw [nextNumber]
    omega
  rw [insert, push, hindex]
  simp

theorem openBlock_eq (hflow : l.inFlow = false) (hdepth : l.blocks.length < maxDepth)
    (column number line : Nat) (shape : Token.Shape) :
    l.openBlock column number line shape =
      .ok (if opens column l.blocks then
        { l with blocks := column :: l.blocks }.insert number line shape else l) := by
  rw [openBlock, hflow, Bool.false_or, opens]
  cases l.blocks.head?.any (column ≤ ·) with
  | true => rfl
  | false =>
    rw [if_neg (by simp), if_neg (Nat.not_le.2 hdepth)]
    rfl

theorem At.queue_approach (h : l.At blocks allowed column r) : l.approach.queue =
    l.queue ++ (closing column blocks).map fun shape => ⟨shape, l.mark.line⟩ := by
  rw [h.approach_eq]

theorem At.shapes_approach (h : l.At blocks allowed column r) :
    l.approach.shapes = l.shapes ++ closing column blocks := by
  rw [shapes, h.queue_approach]
  simp [shapes, Function.comp_def]

/-- A step that only adds tokens to the queue. -/
theorem At.makes {n : Lexer} {more : List Token} (h : l.At blocks allowed column r)
    (hfetch : l.fetch = .ok n) (hqueue : n.queue = l.approach.queue ++ more) (hmore : more ≠ []) :
    Makes l n where
  tidy := h.tidy
  fetch_eq := hfetch
  longer := by
    have := List.length_pos_iff.2 hmore
    rw [hqueue, h.queue_approach, List.length_append, List.length_append]
    omega
  kept := by
    rw [hqueue, h.queue_approach, List.append_assoc]
    exact (List.take_prefix _ _).trans (List.prefix_append _ _)

/-- The mark of a block that has to be opened at a column. -/
def opening (shape : Token.Shape) (column : Nat) (blocks : List Nat) : List Token.Shape :=
  if opens column blocks then [shape] else []

/-- Opening a block at the end of the queue. -/
theorem Facing.openBlock_nextNumber (h : l.Facing blocks allowed column r) (line : Nat)
    (shape : Token.Shape) :
    l.openBlock column l.nextNumber line shape = .ok { l with
      blocks := opened column blocks
      queue := l.queue ++ (opening shape column blocks).map fun s => ⟨s, line⟩ } := by
  rw [openBlock_eq h.inFlow_eq (h.blocks_eq ▸ h.shallow), h.blocks_eq, opened, opening]
  cases opens column blocks with
  | true =>
    rw [if_pos rfl]
    exact congrArg Except.ok (insert_nextNumber { l with blocks := column :: blocks } line shape)
  | false =>
    rw [if_neg (by simp), if_neg (by simp), if_neg (by simp), ← h.blocks_eq]
    simp

/-- **The dash of an item.** -/
theorem At.entry (h : l.At blocks true column (0x2D :: 0x20 :: r)) (hr : Sequel r)
    (hcolumn : column ≠ 0) (hdepth : (opened column (around column blocks)).length < maxDepth) :
    ∃ n, Makes l n ∧ n.shapes = l.shapes ++ (closing column blocks ++
        opening .blockSequenceStart column (around column blocks) ++ [.blockEntry]) ∧
      n.At (opened column (around column blocks)) true (column + 2) r := by
  have hm := h.facing_approach
  have hword : l.approach.cursor.wordEndsAt 1 = true := by
    simp [Cursor.wordEndsAt, hm.rest_eq, isBlank]
  have hat : l.approach.fetchAt 0x2D = l.approach.fetchBlockEntry := by
    simp [fetchAt, hword]
  let line := l.approach.mark.line
  let more := (opening .blockSequenceStart column (around column blocks)).map
    fun s => (⟨s, line⟩ : Token)
  let n : Lexer := { l.approach with
    blocks := opened column (around column blocks)
    queue := l.approach.queue ++ more ++ [⟨.blockEntry, line⟩]
    key := none
    cursor := l.approach.cursor.advance 1
    keyAllowed := true }
  have hfetch : l.fetch = .ok n := by
    have hcol : l.approach.mark.column = column := hm.column_eq
    have hlast : n.finishLine = n := by
      rw [finishLine, if_pos (by simp [n])]
    rw [h.fetch_eq, fetchNext_eq hm.rest_eq (.inl (hm.column_eq ▸ hcolumn)), hat, fetchBlockEntry,
      if_neg (by simp [hm.allowed_eq]), hcol, hm.openBlock_nextNumber]
    simp only [bind, Except.bind]
    rw [dropKey_eq]
    · exact congrArg Except.ok hlast
    · exact hm.optional
  have hrest : n.cursor.rest = List.replicate 1 0x20 ++ r := by
    simp [n, hm.rest_eq]
  refine ⟨n, h.makes hfetch (List.append_assoc _ _ _) (by simp), ?_, ?_⟩
  · have hshapes : n.shapes = l.approach.shapes ++
        (opening .blockSequenceStart column (around column blocks) ++ [.blockEntry]) := by
      simp [shapes, n, more, Function.comp_def]
    rw [hshapes, h.shapes_approach]
    simp
  · have hlimit := hm.limit
    refine at_of_leads hm.started hm.outerKeys rfl hdepth ?_ ?_ (by simp [n]) (by simp [n])
    · rw [hrest, show n.cursor.mark.column = column + 1 by simp [n, hm.column_eq]]
      exact .blanks 1 true hr
    · simp only [List.length_cons] at hlimit
      simp only [n]
      omega

end At

/-! ### Plain scalars -/

/-- The characters that begin a plain scalar. -/
structure BeginsPlain (v : Nat) (r : List Nat) : Prop where
  not_blank : isBlank v = false
  not_break : isBreak v = false
  not_leading : v ∉ Scalar.leadingIndicators
  inside : v = 0x2D ∨ v = 0x3F ∨ v = 0x3A →
    ∃ u, r.head? = some u ∧ isBlank u = false ∧ isBreak u = false

theorem BeginsPlain.fetchAt_eq {l : Lexer} {v : Nat} {r : List Nat} (h : BeginsPlain v r)
    (hflow : l.inFlow = false) (hrest : l.cursor.rest = v :: r) : l.fetchAt v = l.fetchPlain := by
  have hne : ∀ {u : Nat}, u ∈ Scalar.leadingIndicators → (v == u) = false := by
    rintro u hu
    rw [beq_eq_false_iff_ne]
    rintro rfl
    exact h.not_leading hu
  have hword : v = 0x2D ∨ v = 0x3F ∨ v = 0x3A → l.cursor.wordEndsAt 1 = false := by
    intro hv
    obtain ⟨u, hu, hblank, hbreak⟩ := h.inside hv
    simp [Cursor.wordEndsAt, hrest, hu, hblank, hbreak]
  have hmark : ∀ {u : Nat}, u = 0x2D ∨ u = 0x3F ∨ u = 0x3A →
      (v == u && l.cursor.wordEndsAt 1) = false := by
    intro u hu
    cases hv : v == u with
    | false => rfl
    | true =>
      rw [beq_iff_eq] at hv
      rw [hword (hv ▸ hu)]
      rfl
  have hplain : l.atPlain = true := by
    have hindicator : ∀ u ∈ indicators, (u = 0x2D ∨ u = 0x3F ∨ u = 0x3A) ∨
        u ∈ Scalar.leadingIndicators := by decide +kernel
    unfold atPlain
    rw [hrest]
    by_cases hv : v = 0x2D ∨ v = 0x3F ∨ v = 0x3A
    · obtain ⟨u, hu, hblank, -⟩ := h.inside hv
      have hends := hword hv
      rcases hv with rfl | rfl | rfl
      · simp [hu, hblank]
      · simp [hflow, hends]
      · simp [hflow, hends]
    · have hnot : indicators.contains v = false := by
        rw [List.contains_eq_mem, decide_eq_false_iff_not]
        intro hmem
        rcases hindicator v hmem with hv' | hv'
        · exact hv hv'
        · exact h.not_leading hv'
      simp only [h.not_blank, h.not_break, hnot, Bool.not_false, Bool.and_self, Bool.true_or]
  have hleading : ∀ u ∈ [0x5B, 0x7B, 0x5D, 0x7D, 0x2C, 0x2A, 0x26, 0x21, 0x7C, 0x3E, 0x27, 0x22],
      u ∈ Scalar.leadingIndicators := by decide +kernel
  simp only [List.forall_mem_cons] at hleading
  obtain ⟨h₁, h₂, h₃, h₄, h₅, h₆, h₇, h₈, h₉, h₁₀, h₁₁, h₁₂, -⟩ := hleading
  simp only [fetchAt, hflow, hplain, hne h₁, hne h₂, hne h₃, hne h₄, hne h₅, hne h₆, hne h₇, hne h₈,
    hne h₉, hne h₁₀, hne h₁₁, hne h₁₂, hmark, Bool.false_or, Bool.false_and, Bool.false_eq_true,
    ↓reduceIte, true_or, or_true]

/-! ### Names and their colons -/

/-- The lexer behind a name that may turn out to be a key. -/
def named (l : Lexer) (w : List Nat) : Lexer :=
  { l with
    key := some ⟨l.nextNumber, l.mark, l.blocks.head? == some l.mark.column⟩
    queue := l.queue ++ [⟨.scalar (encodeAll w) .plain, l.mark.line⟩]
    cursor := l.cursor.advance w.length
    keyAllowed := false }

/-- The lexer behind the colon of a key. -/
def valued (l : Lexer) (w : List Nat) : Lexer :=
  { l with
    blocks := opened l.mark.column l.blocks
    key := none
    queue := l.queue ++ (opening .blockMappingStart l.mark.column l.blocks ++
      [Token.Shape.key, .scalar (encodeAll w) .plain, .value]).map (⟨·, l.mark.line⟩)
    cursor := l.cursor.advance (w.length + 1)
    keyAllowed := false }

/-- A name: a word of small letters. -/
structure IsName (w : List Nat) : Prop where
  nonempty : w ≠ []
  letters : ∀ v ∈ w, 0x61 ≤ v ∧ v ≤ 0x7A
  short : w.length ≤ maxKey

theorem IsName.plainWord {w : List Nat} (h : IsName w) : PlainWord w where
  nonempty := h.nonempty
  solid := by
    intro v hv
    have := h.letters v hv
    simp only [isBlank, isBreak, Bool.or_eq_false_iff, beq_eq_false_iff_ne]
    omega
  closed := by
    intro hlast
    have := h.letters _ (List.mem_of_getLast? hlast)
    omega

section Names

variable {l : Lexer} {blocks : List Nat} {column : Nat} {w r : List Nat} {v : Nat}

theorem IsName.beginsPlain (h : IsName (v :: w)) (r : List Nat) : BeginsPlain v r := by
  have hletters : ∀ u < 0x7B, 0x61 ≤ u → u ∉ Scalar.leadingIndicators := by decide +kernel
  have hv := h.letters v (by simp)
  obtain ⟨hblank, hbreak⟩ := h.plainWord.solid v (by simp)
  exact ⟨hblank, hbreak, hletters v (by omega) hv.1, by omega⟩

/-- The key that may have begun when a token is made that can be part of one. -/
def notedKey (l : Lexer) : Option PendingKey :=
  if l.keyAllowed then some ⟨l.nextNumber, l.mark, l.blocks.head? == some l.mark.column⟩ else l.key

theorem Facing.noteKey_eq {allowed : Bool} (h : l.Facing blocks allowed column r) :
    l.noteKey = .ok { l with key := l.notedKey } := by
  rw [noteKey, notedKey, h.inFlow_eq]
  split
  · rw [dropKey_eq h.optional]
    rfl
  · rfl

theorem fetchPlain_eq {m : Lexer} {t : Scanned} (hnote : l.noteKey = .ok m)
    (hread : readPlain m.limit m.inFlow m.plainIndent m.cursor = .ok t) :
    l.fetchPlain =
      .ok { m.takeRead (scalarToken t .plain) with keyAllowed := t.gap.multiline } := by
  simp only [fetchPlain, hnote, bind, Except.bind, hread]
  rfl

theorem sequel_colon (r : List Nat) : Sequel (0x3A :: r) :=
  sequel_cons.2 (by decide)

/-- The name of a field is read as a plain scalar. -/
theorem At.fetch_name (h : l.At blocks true column (w ++ 0x3A :: v :: r)) (hw : IsName w)
    (hv : isBlank v = true ∨ isBreak v = true) : l.fetch = .ok (l.approach.named w) := by
  have hm := h.facing_approach
  obtain ⟨u, w', rfl⟩ := List.exists_cons_of_ne_nil hw.nonempty
  have hu := hw.letters u (by simp)
  have hrest : l.approach.cursor.rest = u :: (w' ++ 0x3A :: v :: r) := hm.rest_eq
  have hmark : l.approach.cursor.atDocumentMark = false := by
    simp only [Cursor.atDocumentMark, hrest]
    simp
    omega
  have hhash : l.approach.cursor.sees 0x23 = false := by
    refine sees_eq_false ?_
    simp [hrest]
    omega
  have hlimit : 0 < l.approach.limit := by
    have := hm.limit
    rw [lookahead] at this
    omega
  have hread : readPlain l.approach.limit l.approach.inFlow l.approach.plainIndent
      l.approach.cursor =
        .ok { text := (u :: w').reverse
              cursor := l.approach.cursor.advance (u :: w').length } := by
    rw [hm.inFlow_eq]
    exact readPlain_key hw.plainWord hm.rest_eq hv hmark hhash hlimit
  have hfinish : (l.approach.named (u :: w')).finishLine = l.approach.named (u :: w') := by
    have hsequel : Sequel (l.approach.named (u :: w')).cursor.rest := by
      simpa [named, hrest] using sequel_colon (v :: r)
    rw [finishLine, if_neg (by simp [named]), skipLineComment_sequel hsequel]
  rw [h.fetch_eq, fetchNext_eq hrest (.inr (by omega)),
    (hw.beginsPlain _).fetchAt_eq hm.inFlow_eq hrest, fetchPlain_eq hm.noteKey_eq hread,
    notedKey, hm.allowed_eq, ← hfinish]
  simp [Except.map, named, takeRead, push, scalarToken, mark]

theorem insertIdx_length_append {α : Type} (q q' : List α) (x : α) :
    (q ++ q').insertIdx q.length x = q ++ x :: q' := by
  induction q with
  | nil => rfl
  | cons t q ih => rw [List.cons_append, List.length_cons, List.insertIdx_succ_cons, ih]; rfl

theorem closeBlocks_eq_self {isOutside : Nat → Bool}
    (h : ∀ b ∈ l.blocks.head?, isOutside b = false) (line : Nat) :
    l.closeBlocks isOutside line = l := by
  have hnone : l.blocks.takeWhile isOutside = [] := by
    cases hb : l.blocks with
    | nil => rfl
    | cons b bs => rw [List.takeWhile_cons_of_neg (by simp [h b (by simp [hb])])]
  unfold closeBlocks
  split
  · rfl
  · simp [hnone]

theorem head?_around (column : Nat) (blocks : List Nat) :
    ∀ b ∈ (around column blocks).head?, b ≤ column := by
  induction blocks with
  | nil => simp [around]
  | cons b blocks ih =>
    unfold around at ih ⊢
    by_cases hb : column < b
    · simpa [hb] using ih
    · simpa [hb] using Nat.not_lt.1 hb

/-- A key on the line of the lexer and not too far away is live. -/
theorem liveKey_eq {k : PendingKey} (hkey : l.key = some k) (hline : l.mark.line = k.mark.line)
    (hindex : l.mark.index ≤ k.mark.index + maxKey) : l.liveKey = .ok (some k) := by
  have hlive : l.isLive k = .ok true := by
    rw [isLive, if_neg]
    simp only [Bool.or_eq_true, decide_eq_true_eq]
    omega
  simp only [liveKey, hkey, hlive, bind, Except.bind]
  rfl

/-- The colon behind a name makes the name a key. -/
theorem Facing.fetch_colon {column' : Nat} {allowed : Bool} {r' : List Nat}
    (hm : l.Facing blocks true column (w ++ 0x3A :: v :: r)) (hw : IsName w)
    (hblocks : ∀ b ∈ blocks.head?, b ≤ column) (hv : isBlank v = true ∨ isBreak v = true)
    (hleads : Leads (column + w.length + 1) (v :: r) false allowed column' r') :
    (l.named w).fetch = .ok (l.valued w) := by
  have hrest : (l.named w).cursor.rest = 0x3A :: v :: r := by simp [named, hm.rest_eq]
  have hcol : (l.named w).cursor.mark.column = column + w.length := by simp [named, hm.column_eq]
  have hskipped : (l.named w).skipped = l.named w := by
    obtain ⟨fuel, hfuel⟩ : ∃ k, l.limit = k + 1 := by
      have := hm.limit
      rw [lookahead] at this
      exact ⟨l.limit - 1, by omega⟩
    have hgap : skipGap (l.named w).inFlow (l.named w).limit (l.named w).limit
        (l.named w).keyAllowed (l.named w).cursor = (false, (l.named w).cursor) := by
      rw [show (l.named w).inFlow = false from hm.inFlow_eq,
        show (l.named w).limit = l.limit from rfl, hfuel]
      exact skipGap_blanks (n := 0) (sequel_colon (v :: r)) hrest
    rw [skipped, hgap]
    rfl
  have happroach : (l.named w).approach = l.named w := by
    rw [approach, hskipped]
    refine closeBlocks_eq_self (fun b hb => ?_) _
    have := hblocks b (hm.blocks_eq ▸ hb)
    rw [decide_eq_false_iff_not, mark, hcol]
    omega
  have hword : (l.named w).cursor.wordEndsAt 1 = true := by
    simpa [Cursor.wordEndsAt, hrest] using hv
  have hat : (l.named w).fetchAt 0x3A = (l.named w).fetchValue := by
    simp [fetchAt, hword]
  have hlive : (l.named w).liveKey =
      .ok (some ⟨l.nextNumber, l.mark, l.blocks.head? == some l.mark.column⟩) :=
    liveKey_eq rfl rfl (Nat.add_le_add_left hw.short _)
  have hinsert : (l.named w).insert l.nextNumber l.mark.line .key = { l.named w with
      queue := l.queue ++ [⟨.key, l.mark.line⟩, ⟨.scalar (encodeAll w) .plain, l.mark.line⟩] } := by
    have hindex : l.nextNumber - l.taken = l.queue.length := by
      rw [nextNumber]
      omega
    simp only [insert, named, hindex, insertIdx_length_append]
  have hfinish : (l.valued w).finishLine = l.valued w := by
    have hleads' : Leads (l.valued w).cursor.mark.column (l.valued w).cursor.rest false allowed
        column' r' := by
      simpa [valued, hm.column_eq, hm.rest_eq, ← Nat.add_assoc] using hleads
    rw [finishLine, if_neg (by simp [valued]), skipLineComment_leads hleads']
  rw [Lexer.fetch_eq (l := l.named w) hm.started, happroach, fetchNext_eq hrest (.inr (by decide)),
    hat, fetchValue, hlive]
  simp only [bind, Except.bind]
  rw [hinsert, openBlock_eq (by exact hm.inFlow_eq) (by exact hm.blocks_eq ▸ hm.shallow), ← hfinish]
  refine congrArg (fun n : Lexer => Except.ok n.finishLine) ?_
  have hindex : l.nextNumber - l.taken = l.queue.length := by
    rw [nextNumber]
    omega
  have hblocks' : (l.named w).blocks = l.blocks := rfl
  simp only [hblocks', mark]
  cases hopens : opens l.cursor.mark.column l.blocks with
  | true =>
    simp [insert, valued, named, take, push, opened, opening, hopens, mark, hindex,
      insertIdx_length_append, Cursor.advance_advance]
  | false =>
    simp [valued, named, take, push, opened, opening, hopens, mark, Cursor.advance_advance]

theorem Facing.tidy_named (hm : l.Facing blocks true column r) : (l.named w).Tidy where
  recent := by
    simp only [named, nextNumber, Option.mem_def, Option.some.injEq, forall_eq',
      List.length_append, List.length_singleton]
    omega
  outer := by
    rw [show (l.named w).outerKeys = [] from hm.outerKeys]
    simp
  fuel := Nat.le_of_add_left_le hm.limit

/-- **The name of a field and its colon.** -/
theorem At.key {column' : Nat} {allowed : Bool} {r' : List Nat}
    (h : l.At blocks true column (w ++ 0x3A :: v :: r)) (hw : IsName w)
    (hv : isBlank v = true ∨ isBreak v = true)
    (hleads : Leads (column + w.length + 1) (v :: r) false allowed column' r')
    (hdepth : (opened column (around column blocks)).length < maxDepth) :
    ∃ n, Fetches l n ∧ n.shapes = l.shapes ++ (closing column blocks ++
        opening .blockMappingStart column (around column blocks) ++
        [.key, .scalar (encodeAll w) .plain, .value]) ∧
      n.At (opened column (around column blocks)) allowed column' r' ∧ n.key = none := by
  have hm := h.facing_approach
  have hname : Makes l (l.approach.named w) := h.makes (h.fetch_name hw hv) rfl (by simp)
  have hcolon : Makes (l.approach.named w) (l.approach.valued w) := by
    refine ⟨hm.tidy_named, hm.fetch_colon hw (head?_around column blocks) hv hleads, ?_, ?_⟩
    · simp only [named, valued, List.length_append, List.length_map, List.length_cons,
        List.length_nil]
      omega
    · have hqueue : (l.approach.named w).queue = l.approach.queue ++
          [⟨.scalar (encodeAll w) .plain, l.approach.mark.line⟩] := rfl
      rw [hqueue, List.take_append_of_le_length (by simp)]
      exact (List.take_prefix _ _).trans (List.prefix_append _ _)
  refine ⟨l.approach.valued w, .step hname (.step hcolon (.refl _)), ?_, ?_, rfl⟩
  · have hshapes : (l.approach.valued w).shapes = l.approach.shapes ++
        (opening .blockMappingStart column (around column blocks) ++
          [.key, .scalar (encodeAll w) .plain, .value]) := by
      simp [shapes, valued, mark, hm.column_eq, hm.blocks_eq, Function.comp_def]
    rw [hshapes, h.shapes_approach]
    simp
  · have hlimit := hm.limit
    have hlen := hleads.length_le
    refine at_of_leads hm.started hm.outerKeys ?_ hdepth ?_ ?_ (by simp [valued]) (by simp [valued])
    · rw [valued, mark, hm.column_eq, hm.blocks_eq]
    · simpa [valued, hm.column_eq, hm.rest_eq, ← Nat.add_assoc] using hleads
    · simp only [List.length_append, List.length_cons] at hlimit hlen
      simp only [valued]
      omega

end Names

/-! ### Beginning and end -/

section Ends

variable {l : Lexer} {blocks : List Nat} {allowed : Bool} {vs : List Nat}

/-- **The beginning of a document.** -/
theorem makes_start (h : Sequel vs) : ∃ n, Makes (ofCharacters vs) n ∧
    n.shapes = (ofCharacters vs).shapes ++ [.streamStart] ∧ n.At [] true 0 vs := by
  refine ⟨{ (ofCharacters vs).push 0 .streamStart with started := true, keyAllowed := true },
    ⟨⟨by simp [ofCharacters], by simp [ofCharacters], by simp [ofCharacters, lookahead]⟩, rfl,
      by simp [ofCharacters, push], by simp [ofCharacters, push]⟩, rfl, ?_⟩
  refine at_of_leads rfl rfl rfl (by decide) (.blanks 0 true h) ?_ (by simp [ofCharacters, push])
    (by simp [ofCharacters, push])
  simp only [ofCharacters, push, lookahead]
  omega

theorem closing_append_around (column : Nat) (blocks : List Nat) :
    closing column blocks ++ (around column blocks).map (fun _ => .blockEnd) =
      blocks.map fun _ => Token.Shape.blockEnd := by
  obtain ⟨rest, hrest⟩ := List.takeWhile_prefix (fun b => decide (column < b)) (l := blocks)
  have haround : around column blocks = rest := by
    have hdrop : (blocks.takeWhile (column < ·) ++ rest).drop
        (blocks.takeWhile (column < ·)).length = rest := List.drop_left
    rwa [hrest] at hdrop
  rw [closing, haround, ← List.map_append, hrest]

/-- **The end of a document** closes all blocks. -/
theorem At.finish (h : l.At blocks allowed 0 []) : ∃ n, Makes l n ∧
    n.shapes = l.shapes ++ (blocks.map (fun _ => .blockEnd) ++ [.streamEnd]) ∧
    n.At [] false 0 [] := by
  have hm := h.facing_approach
  let line := l.approach.mark.line
  let n : Lexer := { l.approach with
    blocks := []
    key := none
    queue := l.approach.queue ++
      ((around 0 blocks).map (fun _ => ⟨.blockEnd, line⟩) ++ [⟨.streamEnd, line⟩])
    keyAllowed := false }
  have hfetch : l.fetch = .ok n := by
    have hhead : l.approach.cursor.head? = none := by
      rw [Cursor.head?, hm.rest_eq]
      rfl
    have hcol : (l.approach.mark.column == 0) = true := by
      rw [mark, hm.column_eq]
      rfl
    have hclose : l.approach.closeBlocks (fun _ => true) line = { l.approach with
        blocks := []
        queue := l.approach.queue ++ (around 0 blocks).map fun _ => ⟨.blockEnd, line⟩ } := by
      have hall : (around 0 blocks ++ []).takeWhile (fun _ => true) = around 0 blocks :=
        takeWhile_run (by simp) (by simp)
      rw [List.append_nil] at hall
      rw [closeBlocks, if_neg (by simp [hm.inFlow_eq]), hm.blocks_eq]
      simp [hall]
    rw [h.fetch_eq, fetchNext, hhead, fetchEnd]
    simp only [hcol, ↓reduceIte]
    rw [hclose, dropKey_eq (by exact hm.optional)]
    exact congrArg (fun q => Except.ok { n with queue := q }) (List.append_assoc _ _ _)
  refine ⟨n, h.makes hfetch rfl (by simp), ?_, ?_⟩
  · have hshapes : n.shapes = l.approach.shapes ++
        ((around 0 blocks).map (fun _ => .blockEnd) ++ [.streamEnd]) := by
      simp [shapes, n]
    rw [hshapes, h.shapes_approach, ← closing_append_around 0 blocks]
    simp
  · refine at_of_leads hm.started hm.outerKeys rfl (by decide) ?_ hm.limit (by simp [n])
      (by simp [n])
    have hleads : Leads 0 (List.replicate 0 0x20 ++ []) false false (0 + 0) [] :=
      .blanks 0 false sequel_nil
    simpa [n, hm.rest_eq, hm.column_eq] using hleads

end Ends

end Lexer

end ForthFrontend.Yaml
