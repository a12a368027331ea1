import ForthFrontend.Yaml.Token.Lexer

/-!
# Tokens on demand

The lexer makes tokens ahead of those that are taken, because the marks of a key are put into the
queue where the key began. What it makes does not depend on what was taken in between, as long as
the places of keys that may still come stand among the tokens that are not taken.

## Main definitions

* `Yaml.Lexer.Tidy`: a key that may still come began at one of the last two tokens.
* `Yaml.Lexer.Fetches`: making tokens, one step after another.
* `Yaml.Lexer.Feeds`: the tokens that are taken from a lexer, one after another.

## Main results

* `Yaml.Lexer.fetch_drop`: making tokens and taking one can be exchanged.
* `Yaml.Lexer.feeds_of_fetches`: the tokens that are made are those that are taken.
-/

namespace ForthFrontend.Yaml.Lexer

/-! ### Taking a token -/

theorem map_bind {α : Type} {x : Except SyntaxError α} {f g : α → Except SyntaxError Lexer}
    (h : ∀ a, x = .ok a → f a = (g a).map drop) : (x >>= f) = (x >>= g).map drop := by
  cases x with
  | error e => rfl
  | ok a => exact h a rfl

theorem bind_drop {x : Except SyntaxError Lexer} {f : Lexer → Except SyntaxError Lexer}
    (h : ∀ l, x = .ok l → f l.drop = (f l).map drop) : (x.map drop >>= f) = (x >>= f).map drop := by
  cases x with
  | error e => rfl
  | ok l => exact h l rfl

theorem ite_drop {c : Prop} [Decidable c] {x y x' y' : Except SyntaxError Lexer}
    (hx : x' = x.map drop) (hy : y' = y.map drop) :
    (if c then x' else y') = (if c then x else y).map drop := by
  split
  · exact hx
  · exact hy

section Drop

variable {l : Lexer} (hq : l.queue ≠ [])

@[simp]
theorem inFlow_drop (l : Lexer) : l.drop.inFlow = l.inFlow := rfl

@[simp]
theorem mark_drop (l : Lexer) : l.drop.mark = l.mark := rfl

@[simp]
theorem cursor_drop (l : Lexer) : l.drop.cursor = l.cursor := rfl

@[simp]
theorem blocks_drop (l : Lexer) : l.drop.blocks = l.blocks := rfl

@[simp]
theorem key_drop (l : Lexer) : l.drop.key = l.key := rfl

@[simp]
theorem outerKeys_drop (l : Lexer) : l.drop.outerKeys = l.outerKeys := rfl

@[simp]
theorem keyAllowed_drop (l : Lexer) : l.drop.keyAllowed = l.keyAllowed := rfl

include hq

theorem nextNumber_drop : l.drop.nextNumber = l.nextNumber := by
  have := List.length_pos_iff.2 hq
  simp only [nextNumber, drop, List.length_tail]
  omega

theorem push_drop (line : Nat) (shape : Token.Shape) :
    l.drop.push line shape = (l.push line shape).drop := by
  simp [push, drop, List.tail_append_of_ne_nil hq]

theorem take_drop (n : Nat) (shape : Token.Shape) :
    l.drop.take n shape = (l.take n shape).drop := by
  simp [take, push, drop, mark, List.tail_append_of_ne_nil hq]

theorem takeRead_drop (read : Token.Shape × Cursor) :
    l.drop.takeRead read = (l.takeRead read).drop := by
  simp [takeRead, push, drop, mark, List.tail_append_of_ne_nil hq]

/-- Reading a token and putting it into the queue. -/
theorem read_drop {α : Type} (x : Except SyntaxError α) (f : α → Token.Shape × Cursor)
    (allowed : α → Bool) :
    (x >>= fun a => pure { l.drop.takeRead (f a) with keyAllowed := allowed a }) =
      (x >>= fun a => pure { l.takeRead (f a) with keyAllowed := allowed a } :
        Except SyntaxError Lexer).map drop := by
  refine map_bind fun a _ => ?_
  rw [takeRead_drop hq]
  rfl

theorem insert_drop {number : Nat} (hn : l.taken < number) (line : Nat) (shape : Token.Shape) :
    l.drop.insert number line shape = (l.insert number line shape).drop := by
  obtain ⟨t, q, heq⟩ := List.exists_cons_of_ne_nil hq
  have hindex : number - l.taken = number - (l.taken + 1) + 1 := by omega
  simp only [insert, drop, heq, List.tail_cons]
  rw [hindex, List.insertIdx_succ_cons, List.tail_cons]

theorem closeBlocks_drop (isOutside : Nat → Bool) (line : Nat) :
    l.drop.closeBlocks isOutside line = (l.closeBlocks isOutside line).drop := by
  unfold closeBlocks
  rw [inFlow_drop]
  split
  · rfl
  · simp [drop, List.tail_append_of_ne_nil hq]

theorem openBlock_drop {number : Nat} (hn : l.taken < number) (column line : Nat)
    (shape : Token.Shape) : l.drop.openBlock column number line shape =
      (l.openBlock column number line shape).map drop := by
  unfold openBlock
  rw [inFlow_drop, blocks_drop]
  split
  · rfl
  · split
    · rfl
    · have hinsert := insert_drop (l := { l with blocks := column :: l.blocks }) hq hn line shape
      exact congrArg Except.ok hinsert

omit hq in
theorem dropKey_drop (l : Lexer) : l.drop.dropKey = l.dropKey.map drop := by
  unfold dropKey
  rw [key_drop]
  split
  · split <;> rfl
  · rfl

theorem noteKey_drop : l.drop.noteKey = l.noteKey.map drop := by
  unfold noteKey
  rw [nextNumber_drop hq, inFlow_drop, dropKey_drop, mark_drop, blocks_drop, keyAllowed_drop]
  split
  · exact bind_drop fun l' _ => rfl
  · rfl

end Drop

/-- What giving up a key leaves unchanged. -/
theorem queue_of_dropKey {l l' : Lexer} (h : l.dropKey = .ok l') :
    l'.queue = l.queue ∧ l'.taken = l.taken := by
  unfold dropKey at h
  split at h
  · split at h
    · cases h
    · cases h
      exact ⟨rfl, rfl⟩
  · cases h
    exact ⟨rfl, rfl⟩

theorem queue_of_noteKey {l l' : Lexer} (h : l.noteKey = .ok l') : l'.queue = l.queue := by
  unfold noteKey at h
  split at h
  · cases hd : l.dropKey with
    | error e =>
      rw [hd] at h
      cases h
    | ok m =>
      rw [hd] at h
      cases h
      exact (queue_of_dropKey hd).1
  · cases h
    rfl

theorem key_of_liveKey {l : Lexer} {k : PendingKey} (h : l.liveKey = .ok (some k)) :
    l.key = some k := by
  unfold liveKey at h
  cases hkey : l.key with
  | none =>
    rw [hkey] at h
    cases h
  | some j =>
    rw [hkey] at h
    dsimp only at h
    cases hlive : l.isLive j with
    | error e =>
      rw [hlive] at h
      cases h
    | ok b =>
      rw [hlive] at h
      cases b with
      | false => cases h
      | true =>
        cases h
        rfl

theorem queue_insert_ne_nil {l : Lexer} (hq : l.queue ≠ []) (number line : Nat)
    (shape : Token.Shape) : (l.insert number line shape).queue ≠ [] := by
  obtain ⟨t, q, heq⟩ := List.exists_cons_of_ne_nil hq
  simp only [insert, heq]
  cases number - l.taken <;> simp

theorem queue_of_openBlock {l l' : Lexer} {column number line : Nat} {shape : Token.Shape}
    (h : l.openBlock column number line shape = .ok l') (hq : l.queue ≠ []) : l'.queue ≠ [] := by
  unfold openBlock at h
  split at h
  · cases h
    exact hq
  · split at h
    · cases h
    · cases h
      exact queue_insert_ne_nil hq number line shape

theorem queue_closeBlocks_ne_nil {l : Lexer} (hq : l.queue ≠ []) (isOutside : Nat → Bool)
    (line : Nat) : (l.closeBlocks isOutside line).queue ≠ [] := by
  unfold closeBlocks
  split
  · exact hq
  · simp [hq]

/-! ### Making tokens -/

section CloseBlocks

variable (l : Lexer) (isOutside : Nat → Bool) (line : Nat)

@[simp]
theorem key_closeBlocks : (l.closeBlocks isOutside line).key = l.key := by
  unfold closeBlocks
  split <;> rfl

@[simp]
theorem taken_closeBlocks : (l.closeBlocks isOutside line).taken = l.taken := by
  unfold closeBlocks
  split <;> rfl

end CloseBlocks

/-- The lexer in front of the next token. -/
def skipped (l : Lexer) : Lexer :=
  let gap := skipGap l.inFlow l.limit l.limit l.keyAllowed l.cursor
  { l with keyAllowed := gap.1, cursor := gap.2 }

/-- The lexer in front of the next token, with the blocks closed that end there. -/
def approach (l : Lexer) : Lexer :=
  l.skipped.closeBlocks (l.skipped.mark.column < ·) l.mark.line

/-- Makes the token that begins at the cursor. -/
def fetchNext (l : Lexer) : Except SyntaxError Lexer :=
  match l.cursor.head? with
  | none => l.fetchEnd
  | some v =>
    if l.mark.column == 0 && v == 0x25 then l.fetchDirective
    else if l.cursor.atDocumentMark then l.fetchDocumentMark
    else (l.fetchAt v).map finishLine

theorem fetch_eq {l : Lexer} (h : l.started = true) : l.fetch = l.approach.fetchNext := by
  rw [fetch, if_neg (by simp [h])]
  rfl

theorem approach_drop {l : Lexer} (hq : l.queue ≠ []) : l.drop.approach = l.approach.drop :=
  closeBlocks_drop (l := l.skipped) hq _ _

section Fetch

variable {l : Lexer} (hq : l.queue ≠ [])

include hq

theorem fetchEnd_drop : l.drop.fetchEnd = l.fetchEnd.map drop := by
  -- the place of the cursor may have to be mended first
  have hmend : ∀ {m : Lexer}, m.queue ≠ [] →
      ((m.drop.closeBlocks (fun _ => true) m.mark.line).dropKey >>= fun l =>
        pure { l.push l.mark.line .streamEnd with keyAllowed := false }) =
      ((m.closeBlocks (fun _ => true) m.mark.line).dropKey >>= fun l =>
        pure { l.push l.mark.line .streamEnd with keyAllowed := false }).map drop := by
    intro m hm
    rw [closeBlocks_drop hm, dropKey_drop]
    refine bind_drop fun l' h => ?_
    have hq' : l'.queue ≠ [] := (queue_of_dropKey h).1 ▸ queue_closeBlocks_ne_nil hm _ _
    rw [mark_drop, push_drop hq']
    rfl
  unfold fetchEnd
  cases hcol : l.mark.column == 0 with
  | true =>
    simp only [mark_drop, hcol, ↓reduceIte]
    exact hmend hq
  | false =>
    simp only [mark_drop, hcol, Bool.false_eq_true, ↓reduceIte]
    let fresh : Mark := { l.mark with column := 0, line := l.mark.line + 1 }
    exact hmend (m := { l with cursor.mark := fresh }) hq

theorem fetchDirective_drop : l.drop.fetchDirective = l.fetchDirective.map drop := by
  unfold fetchDirective
  rw [mark_drop, closeBlocks_drop hq, dropKey_drop]
  refine bind_drop fun l' h => ?_
  have hq' : l'.queue ≠ [] := (queue_of_dropKey h).1 ▸ queue_closeBlocks_ne_nil hq _ _
  exact read_drop hq' _ _ _

theorem fetchDocumentMark_drop : l.drop.fetchDocumentMark = l.fetchDocumentMark.map drop := by
  unfold fetchDocumentMark
  rw [mark_drop, closeBlocks_drop hq, dropKey_drop]
  refine bind_drop fun l' h => ?_
  have hq' : l'.queue ≠ [] := (queue_of_dropKey h).1 ▸ queue_closeBlocks_ne_nil hq _ _
  simp only [cursor_drop, take_drop hq']
  rfl

theorem fetchFlowStart_drop (shape : Token.Shape) :
    l.drop.fetchFlowStart shape = (l.fetchFlowStart shape).map drop := by
  unfold fetchFlowStart
  rw [noteKey_drop hq]
  refine bind_drop fun l' h => ?_
  have hq' : l'.queue ≠ [] := queue_of_noteKey h ▸ hq
  have htake := take_drop (l := { l' with outerKeys := l'.key :: l'.outerKeys, key := none }) hq'
    1 shape
  dsimp only [outerKeys_drop, key_drop]
  split
  · rfl
  · exact congrArg (fun m : Lexer => Except.ok { m with keyAllowed := true }) htake

theorem fetchFlowEnd_drop (shape : Token.Shape) :
    l.drop.fetchFlowEnd shape = (l.fetchFlowEnd shape).map drop := by
  unfold fetchFlowEnd
  rw [dropKey_drop]
  refine bind_drop fun l' h => ?_
  have hq' : l'.queue ≠ [] := (queue_of_dropKey h).1 ▸ hq
  dsimp only [outerKeys_drop]
  cases l'.outerKeys with
  | nil =>
    dsimp only
    rw [take_drop hq']
    rfl
  | cons key outer =>
    have htake := take_drop (l := { l' with key := key, outerKeys := outer }) hq' 1 shape
    exact congrArg (fun m : Lexer => Except.ok { m with keyAllowed := false }) htake

theorem fetchFlowEntry_drop : l.drop.fetchFlowEntry = l.fetchFlowEntry.map drop := by
  unfold fetchFlowEntry
  rw [dropKey_drop]
  refine bind_drop fun l' h => ?_
  have hq' : l'.queue ≠ [] := (queue_of_dropKey h).1 ▸ hq
  rw [take_drop hq']
  rfl

theorem taken_lt_nextNumber : l.taken < l.nextNumber := by
  have := List.length_pos_iff.2 hq
  rw [nextNumber]
  omega

theorem fetchBlockEntry_drop : l.drop.fetchBlockEntry = l.fetchBlockEntry.map drop := by
  unfold fetchBlockEntry
  rw [inFlow_drop, keyAllowed_drop, mark_drop, nextNumber_drop hq,
    openBlock_drop hq (taken_lt_nextNumber hq)]
  split
  · rfl
  · refine bind_drop fun l' h => ?_
    rw [dropKey_drop]
    refine bind_drop fun l'' h' => ?_
    have hq' : l''.queue ≠ [] := (queue_of_dropKey h').1 ▸ queue_of_openBlock h hq
    rw [take_drop hq']
    rfl

theorem fetchKey_drop : l.drop.fetchKey = l.fetchKey.map drop := by
  unfold fetchKey
  rw [inFlow_drop, keyAllowed_drop, mark_drop, nextNumber_drop hq,
    openBlock_drop hq (taken_lt_nextNumber hq)]
  split
  · rfl
  · refine bind_drop fun l' h => ?_
    rw [dropKey_drop]
    refine bind_drop fun l'' h' => ?_
    have hq' : l''.queue ≠ [] := (queue_of_dropKey h').1 ▸ queue_of_openBlock h hq
    rw [take_drop hq']
    rfl

theorem fetchName_drop (shape : Bytes → Token.Shape) :
    l.drop.fetchName shape = (l.fetchName shape).map drop := by
  unfold fetchName
  rw [noteKey_drop hq]
  refine bind_drop fun l' h => ?_
  have hq' : l'.queue ≠ [] := queue_of_noteKey h ▸ hq
  exact read_drop hq' _ _ _

theorem fetchTag_drop : l.drop.fetchTag = l.fetchTag.map drop := by
  unfold fetchTag
  rw [noteKey_drop hq]
  refine bind_drop fun l' h => ?_
  have hq' : l'.queue ≠ [] := queue_of_noteKey h ▸ hq
  exact read_drop hq' _ _ _

theorem fetchBlockScalar_drop (folded : Bool) :
    l.drop.fetchBlockScalar folded = (l.fetchBlockScalar folded).map drop := by
  unfold fetchBlockScalar
  rw [dropKey_drop]
  refine bind_drop fun l' h => ?_
  have hq' : l'.queue ≠ [] := (queue_of_dropKey h).1 ▸ hq
  exact read_drop hq' _ _ _

theorem fetchQuoted_drop (single : Bool) :
    l.drop.fetchQuoted single = (l.fetchQuoted single).map drop := by
  unfold fetchQuoted
  rw [noteKey_drop hq]
  refine bind_drop fun l' h => ?_
  have hq' : l'.queue ≠ [] := queue_of_noteKey h ▸ hq
  exact read_drop hq' _ _ _

theorem fetchPlain_drop : l.drop.fetchPlain = l.fetchPlain.map drop := by
  unfold fetchPlain
  rw [noteKey_drop hq]
  refine bind_drop fun l' h => ?_
  have hq' : l'.queue ≠ [] := queue_of_noteKey h ▸ hq
  exact read_drop hq' _ _ _

/-- The colon of a value puts the marks of its key behind the token that is taken. -/
theorem fetchValue_drop (hkey : ∀ k ∈ l.key, l.taken < k.token) :
    l.drop.fetchValue = l.fetchValue.map drop := by
  have hlive : l.drop.liveKey = l.liveKey := rfl
  unfold fetchValue
  rw [hlive]
  refine map_bind fun k hk => ?_
  cases k with
  | some k =>
    have hk' := hkey k (key_of_liveKey hk)
    dsimp only
    have hins := queue_insert_ne_nil hq k.token k.mark.line .key
    rw [insert_drop hq hk', openBlock_drop hins hk']
    refine bind_drop fun l' h => ?_
    have hq' : l'.queue ≠ [] := queue_of_openBlock h hins
    have htake := take_drop (l := { l' with key := none }) hq' 1 .value
    exact congrArg (fun m : Lexer => Except.ok { m with keyAllowed := false }) htake
  | none =>
    dsimp only
    rw [inFlow_drop, keyAllowed_drop, mark_drop, nextNumber_drop hq, take_drop hq,
      openBlock_drop hq (taken_lt_nextNumber hq)]
    split
    · rfl
    · split
      · rfl
      · refine bind_drop fun l' h => ?_
        rw [take_drop (queue_of_openBlock h hq)]
        rfl

theorem fetchAt_drop (hkey : ∀ k ∈ l.key, l.taken < k.token) (v : Nat) :
    l.drop.fetchAt v = (l.fetchAt v).map drop := by
  have hplain : l.drop.atPlain = l.atPlain := rfl
  unfold fetchAt
  rw [inFlow_drop, cursor_drop, hplain]
  refine ite_drop (fetchFlowStart_drop hq _) ?_
  refine ite_drop (fetchFlowStart_drop hq _) ?_
  refine ite_drop (fetchFlowEnd_drop hq _) ?_
  refine ite_drop (fetchFlowEnd_drop hq _) ?_
  refine ite_drop (fetchFlowEntry_drop hq) ?_
  refine ite_drop (fetchBlockEntry_drop hq) ?_
  refine ite_drop (fetchKey_drop hq) ?_
  refine ite_drop (fetchValue_drop hq hkey) ?_
  refine ite_drop (fetchName_drop hq _) ?_
  refine ite_drop (fetchName_drop hq _) ?_
  refine ite_drop (fetchTag_drop hq) ?_
  refine ite_drop (fetchBlockScalar_drop hq _) ?_
  refine ite_drop (fetchBlockScalar_drop hq _) ?_
  refine ite_drop (fetchQuoted_drop hq _) ?_
  refine ite_drop (fetchQuoted_drop hq _) ?_
  exact ite_drop (fetchPlain_drop hq) rfl

omit hq in
theorem finishLine_drop (h : 2 ≤ l.queue.length) : l.drop.finishLine = l.finishLine.drop := by
  have hlast : l.queue.tail.getLast? = l.queue.getLast? := by
    cases hl : l.queue with
    | nil => rfl
    | cons t q =>
      cases q with
      | nil =>
        rw [hl] at h
        simp at h
      | cons u q => rw [List.tail_cons, List.getLast?_cons_cons]
  unfold finishLine
  simp only [drop, hlast]
  split <;> rfl

omit hq in
@[simp]
theorem queue_finishLine (l : Lexer) : l.finishLine.queue = l.queue := by
  unfold finishLine
  split <;> rfl

theorem fetchNext_drop (hkey : ∀ k ∈ l.key, l.taken < k.token)
    (hgrow : ∀ l', l.fetchNext = .ok l' → 2 ≤ l'.queue.length) :
    l.drop.fetchNext = l.fetchNext.map drop := by
  unfold fetchNext at hgrow ⊢
  rw [cursor_drop, mark_drop]
  cases hhead : l.cursor.head? with
  | none => exact fetchEnd_drop hq
  | some v =>
    simp only [hhead] at hgrow ⊢
    by_cases hdirective : (l.mark.column == 0 && v == 0x25) = true
    · rw [if_pos hdirective, if_pos hdirective]
      exact fetchDirective_drop hq
    by_cases hmark : l.cursor.atDocumentMark = true
    · rw [if_neg hdirective, if_neg hdirective, if_pos hmark, if_pos hmark]
      exact fetchDocumentMark_drop hq
    rw [if_neg hdirective, if_neg hmark] at hgrow ⊢
    rw [if_neg hdirective, if_neg hmark, fetchAt_drop hq hkey]
    cases hat : l.fetchAt v with
    | error e => rfl
    | ok m =>
      have hlen := hgrow m.finishLine (by rw [hat]; rfl)
      rw [queue_finishLine] at hlen
      exact congrArg Except.ok (finishLine_drop hlen)

/-- **Making tokens and taking one** can be exchanged. -/
theorem fetch_drop (hkey : ∀ k ∈ l.key, l.taken < k.token)
    (hgrow : ∀ l', l.fetch = .ok l' → 2 ≤ l'.queue.length) : l.drop.fetch = l.fetch.map drop := by
  cases hs : l.started with
  | false =>
    have hs' : l.drop.started = false := hs
    unfold fetch
    rw [hs, hs', push_drop hq]
    rfl
  | true =>
    rw [fetch_eq hs] at hgrow
    rw [fetch_eq hs, fetch_eq (l := l.drop) hs, approach_drop hq]
    refine fetchNext_drop (queue_closeBlocks_ne_nil (l := l.skipped) hq _ _) ?_ hgrow
    rw [approach, key_closeBlocks, taken_closeBlocks]
    exact hkey

end Fetch

/-! ### Taking the tokens that are made -/

/-- A key that may still come began at one of the last two tokens, and flow collections are not
part of keys. -/
structure Tidy (l : Lexer) : Prop where
  recent : ∀ k ∈ l.key, l.nextNumber ≤ k.token + 2
  outer : ∀ k ∈ l.outerKeys, k = none
  fuel : lookahead ≤ l.limit

/-- One step of making tokens: all but the last two tokens are final. -/
structure Makes (l l' : Lexer) : Prop where
  tidy : l.Tidy
  fetch_eq : l.fetch = .ok l'
  longer : l.queue.length < l'.queue.length
  kept : l.queue.take (l.queue.length - 2) <+: l'.queue

/-- Making tokens, one step after another. -/
inductive Fetches : Lexer → Lexer → Prop where
  | refl (l : Lexer) : Fetches l l
  | step {l m n : Lexer} : Makes l m → Fetches m n → Fetches l n

theorem Fetches.trans {l m n : Lexer} (h : Fetches l m) (h' : Fetches m n) : Fetches l n := by
  induction h with
  | refl => exact h'
  | step hmakes _ ih => exact .step hmakes (ih h')

theorem Fetches.length_le {l m : Lexer} (h : Fetches l m) : l.queue.length ≤ m.queue.length := by
  induction h with
  | refl => exact Nat.le_refl _
  | step hmakes _ ih => exact Nat.le_trans (Nat.le_of_lt hmakes.longer) ih

/-- The shapes of the tokens that are made and not yet taken. -/
def shapes (l : Lexer) : List Token.Shape :=
  l.queue.map Token.shape

/-- The tokens that are taken from a lexer, one after another. If `fails` is set, an error follows
them. -/
def Feeds (fails : Bool) : List Token.Shape → Lexer → Prop
  | [], l => fails = true → ∃ e, l.peek = .error e
  | shape :: rest, l => ∃ t l', l.peek = .ok (t, l') ∧ l'.peek = .ok (t, l') ∧ t.shape = shape ∧
      Feeds fails rest l'.drop

theorem Tidy.taken_lt {l : Lexer} (h : l.Tidy) (hlen : 3 ≤ l.queue.length) :
    ∀ k ∈ l.key, l.taken < k.token := by
  intro k hk
  have := h.recent k hk
  rw [nextNumber] at this
  omega

theorem Tidy.drop {l : Lexer} (h : l.Tidy) (hq : l.queue ≠ []) : l.drop.Tidy where
  recent := by
    rw [nextNumber_drop hq]
    exact h.recent
  outer := h.outer
  fuel := h.fuel

/-- With enough tokens in the queue none of them can turn out to belong to a key that is taken. -/
theorem Tidy.headIsPending_eq {l : Lexer} (h : l.Tidy) (hlen : 3 ≤ l.queue.length) :
    l.headIsPending = .ok false := by
  have hfind : (l.key :: l.outerKeys).find? (fun k => k.any (·.token == l.taken)) = none := by
    rw [List.find?_eq_none]
    intro k hk
    rcases List.mem_cons.1 hk with rfl | hk
    · cases hkey : l.key with
      | none => simp
      | some k =>
        have := h.taken_lt hlen k hkey
        simp only [Option.any_some, beq_iff_eq]
        omega
    · simp [h.outer k hk]
  unfold headIsPending
  rw [hfind]

theorem Tidy.fill_eq {l : Lexer} (h : l.Tidy) (hlen : 3 ≤ l.queue.length) (fuel : Nat) :
    l.fill fuel = .ok l := by
  cases fuel with
  | zero => rfl
  | succ fuel =>
    rw [fill, if_neg (by rw [lookahead]; omega), h.headIsPending_eq hlen]
    rfl

theorem Fetches.tidy {l n : Lexer} (h : Fetches l n) (hn : n.Tidy) : l.Tidy := by
  cases h with
  | refl => exact hn
  | step hmakes _ => exact hmakes.tidy

section Fetches

variable {l n : Lexer} {fuel : Nat}

/-- Filling the queue stops at one of the steps of making tokens. -/
theorem Fetches.fill (h : Fetches l n) (hn : n.Tidy) (hlen : 3 ≤ n.queue.length)
    (hfuel : 3 ≤ fuel + l.queue.length) :
    ∃ m, l.fill fuel = .ok m ∧ Fetches m n ∧ 3 ≤ m.queue.length := by
  induction h generalizing fuel with
  | refl l => exact ⟨l, hn.fill_eq hlen fuel, .refl l, hlen⟩
  | @step l m n hmakes hrest ih =>
    by_cases hl : 3 ≤ l.queue.length
    · exact ⟨l, hmakes.tidy.fill_eq hl fuel, .step hmakes hrest, hl⟩
    · obtain ⟨fuel, rfl⟩ : ∃ k, fuel = k + 1 := ⟨fuel - 1, by omega⟩
      have := hmakes.longer
      have hfuel' : 3 ≤ fuel + m.queue.length := by omega
      obtain ⟨k, hk, hfetches⟩ := ih hn hlen hfuel'
      refine ⟨k, ?_, hfetches⟩
      rw [Lexer.fill, if_pos (by rw [lookahead]; omega), hmakes.fetch_eq]
      exact hk

/-- Filling the queue fails if too few tokens are made before an error. -/
theorem Fetches.fill_error (h : Fetches l n) (hlen : n.queue.length < 3)
    (herror : ∃ e, n.fetch = .error e) (hfuel : 3 ≤ fuel + l.queue.length) :
    ∃ e, l.fill fuel = .error e := by
  induction h generalizing fuel with
  | refl l =>
    obtain ⟨fuel, rfl⟩ : ∃ k, fuel = k + 1 := ⟨fuel - 1, by omega⟩
    obtain ⟨e, he⟩ := herror
    refine ⟨e, ?_⟩
    rw [Lexer.fill, if_pos (by rw [lookahead]; omega), he]
    rfl
  | @step l m n hmakes hrest ih =>
    have hl : l.queue.length < 3 := by
      have := hrest.length_le
      have := hmakes.longer
      omega
    obtain ⟨fuel, rfl⟩ : ∃ k, fuel = k + 1 := ⟨fuel - 1, by omega⟩
    have := hmakes.longer
    have hfuel' : 3 ≤ fuel + m.queue.length := by omega
    obtain ⟨e, he⟩ := ih hlen herror hfuel'
    refine ⟨e, ?_⟩
    rw [Lexer.fill, if_pos (by rw [lookahead]; omega), hmakes.fetch_eq]
    exact he

theorem Makes.drop {m : Lexer} (h : Makes l m) (hlen : 3 ≤ l.queue.length) :
    Makes l.drop m.drop where
  tidy := h.tidy.drop (List.ne_nil_of_length_pos (by omega))
  fetch_eq := by
    have := h.longer
    rw [fetch_drop (List.ne_nil_of_length_pos (by omega)) (h.tidy.taken_lt hlen), h.fetch_eq]
    · rfl
    · intro l' hl'
      rw [h.fetch_eq] at hl'
      cases hl'
      omega
  longer := by
    have := h.longer
    simp only [Lexer.drop, List.length_tail]
    omega
  kept := by
    obtain ⟨rest, hrest⟩ := h.kept
    obtain ⟨t, q, hq⟩ := List.exists_cons_of_ne_nil (List.ne_nil_of_length_pos (l := l.queue)
      (by omega))
    have htake : l.queue.length - 2 = q.length - 2 + 1 := by
      rw [hq] at hlen ⊢
      simp only [List.length_cons] at hlen ⊢
      omega
    rw [htake, hq, List.take_succ_cons, List.cons_append] at hrest
    refine ⟨rest, ?_⟩
    simp only [Lexer.drop, hq, List.tail_cons, ← hrest]

theorem Fetches.head_eq (h : Fetches l n) (hlen : 3 ≤ l.queue.length) :
    n.queue.head? = l.queue.head? := by
  induction h with
  | refl => rfl
  | @step l m n hmakes _ ih =>
    have := hmakes.longer
    rw [ih (by omega)]
    obtain ⟨rest, hrest⟩ := hmakes.kept
    obtain ⟨t, q, hq⟩ := List.exists_cons_of_ne_nil (List.ne_nil_of_length_pos (l := l.queue)
      (by omega))
    obtain ⟨k, hk⟩ : ∃ k, l.queue.length - 2 = k + 1 := ⟨l.queue.length - 3, by omega⟩
    rw [hk, hq, List.take_succ_cons, List.cons_append] at hrest
    rw [← hrest, hq]
    rfl

/-- Taking a token does not change what is made after it. -/
theorem Fetches.drop (h : Fetches l n) (hlen : 3 ≤ l.queue.length) : Fetches l.drop n.drop := by
  induction h with
  | refl l => exact .refl l.drop
  | step hmakes _ ih =>
    have := hmakes.longer
    exact .step (hmakes.drop hlen) (ih (by omega))

end Fetches

/-- **The tokens that are made are those that are taken**, up to the last two. -/
theorem feeds_of_fetches {fails : Bool} {l n : Lexer} (h : Fetches l n) (hn : n.Tidy)
    (hfails : fails = true → ∃ e, n.fetch = .error e) :
    Feeds fails (n.shapes.take (n.shapes.length - 2)) l := by
  induction hk : n.queue.length using Nat.strongRecOn generalizing l n with
  | ind k ih =>
    have hfuel : 3 ≤ l.limit + l.queue.length := Nat.le_add_right_of_le (h.tidy hn).fuel
    have hshapes : n.shapes.length = n.queue.length := List.length_map _
    by_cases hlen : 3 ≤ n.queue.length
    · obtain ⟨m, hfill, hm, hmlen⟩ := h.fill hn hlen hfuel
      obtain ⟨t, q, hq⟩ := List.exists_cons_of_ne_nil (List.ne_nil_of_length_pos (l := m.queue)
        (by omega))
      obtain ⟨q', hq'⟩ : ∃ q', n.queue = t :: q' := by
        have := hm.head_eq hmlen
        rw [hq] at this
        exact List.head?_eq_some_iff.1 this
      have hpeek : m.peek = .ok (t, m) := by
        rw [peek, (hm.tidy hn).fill_eq hmlen]
        simp only [bind, Except.bind, hq]
        rfl
      have hpeek' : l.peek = .ok (t, m) := by
        rw [peek, hfill]
        simp only [bind, Except.bind, hq]
        rfl
      have hnq : n.queue ≠ [] := by simp [hq']
      have hdrop : Feeds fails (n.drop.shapes.take (n.drop.shapes.length - 2)) m.drop := by
        refine ih n.drop.queue.length ?_ (hm.drop hmlen) (hn.drop hnq) (fun hf => ?_) rfl
        · simp only [drop, List.length_tail]
          omega
        · obtain ⟨e, he⟩ := hfails hf
          refine ⟨e, ?_⟩
          rw [fetch_drop hnq (hn.taken_lt hlen) (by simp [he]), he]
          rfl
      have htake : n.shapes.take (n.shapes.length - 2) =
          t.shape :: n.drop.shapes.take (n.drop.shapes.length - 2) := by
        obtain ⟨j, hj⟩ : ∃ j, n.shapes.length - 2 = j + 1 := ⟨n.shapes.length - 3, by omega⟩
        have hj' : n.drop.shapes.length - 2 = j := by
          simp only [shapes, drop, hq', List.length_map, List.length_cons, List.tail_cons] at hj ⊢
          omega
        rw [hj, hj']
        simp only [shapes, drop, hq', List.map_cons, List.tail_cons, List.take_succ_cons]
      rw [htake]
      exact ⟨t, m, hpeek', hpeek, rfl, hdrop⟩
    · have hzero : n.shapes.length - 2 = 0 := by omega
      rw [hzero, List.take_zero]
      intro hf
      obtain ⟨e, he⟩ := h.fill_error (by omega) (hfails hf) hfuel
      refine ⟨e, ?_⟩
      rw [peek, he]
      rfl

end ForthFrontend.Yaml.Lexer
