import ForthFrontend.Proofs.Yaml.Implicit
import ForthFrontend.Proofs.Yaml.Token.Style

/-!
# The tokens of blocks

A piece of a document is scanned from one position of the lexer to another. Pieces follow each
other, and so a block is scanned if each of its entries is. The end of a block is a token that comes
with the first token behind the block; at the beginning of a line it counts as made already.

A piece that holds a literal block with a leading tab is refused. Then the lexer stops before all
the tokens of the piece are made.

## Main definitions

* `Yaml.blockChars`: the characters of the entries of a block.
* `Yaml.Lexer.Inside`, `Yaml.Lexer.Fresh`: positions within a line and at the beginning of one.
* `Yaml.Lexer.Scans`: the lexer goes from one position to another and makes tokens.
* `Yaml.Lexer.ScansBlock`, `Yaml.Lexer.ScansValue`: the lexer goes through entries of a block, and
  through the value of an entry.

## Main results

* `Yaml.Lexer.Scans.trans`: one piece after another.
* `Yaml.Lexer.scansValue_text`, `Yaml.Lexer.scansValue_plain`: scalars.
* `Yaml.Lexer.ScansBlock.blockChars`: the entries of a block.
* `Yaml.Lexer.scansBlock_item`, `Yaml.Lexer.scansBlock_field`: an item of a list and a field of a
  record.
-/

namespace ForthFrontend.Yaml

/-! ### The characters of blocks -/

/-- The characters of the entries of a block at column `c`. The first of them stands at this column
already, and the others are indented. -/
def blockChars {ι : Type} (c : Nat) (text : ι → List Nat) : List ι → List Nat
  | [] => []
  | x :: xs => text x ++ xs.flatMap fun y => List.replicate c 0x20 ++ text y

section BlockChars

variable {ι : Type} {c : Nat} {text : ι → List Nat} {x : ι} {xs : List ι}

theorem blockChars_cons_cons (c : Nat) (text : ι → List Nat) (x y : ι) (xs : List ι) :
    blockChars c text (x :: y :: xs) =
      text x ++ (List.replicate c 0x20 ++ blockChars c text (y :: xs)) := by
  simp [blockChars]

theorem replicate_append_blockChars (c : Nat) (text : ι → List Nat) (hne : xs ≠ []) :
    List.replicate c 0x20 ++ blockChars c text xs =
      xs.flatMap fun x => List.replicate c 0x20 ++ text x := by
  obtain ⟨x, xs, rfl⟩ := List.exists_cons_of_ne_nil hne
  simp [blockChars]

theorem sequel_blockChars (h : ∀ r, Sequel (text x ++ r)) (r : List Nat) :
    Sequel (blockChars c text (x :: xs) ++ r) := by
  rw [blockChars, List.append_assoc]
  exact h _

theorem mem_blockChars {v : Nat} (h : v ∈ blockChars c text xs) :
    v = 0x20 ∨ ∃ x ∈ xs, v ∈ text x := by
  cases xs with
  | nil => cases h
  | cons x xs =>
    simp only [blockChars, List.mem_append, List.mem_flatMap, List.mem_replicate] at h
    rcases h with h | ⟨y, hy, ⟨-, rfl⟩ | h⟩
    · exact .inr ⟨x, by simp, h⟩
    · exact .inl rfl
    · exact .inr ⟨y, by simp [hy], h⟩

theorem length_le_blockChars (h : x ∈ xs) :
    (text x).length ≤ (blockChars c text xs).length := by
  induction xs with
  | nil => cases h
  | cons y xs ih =>
    cases xs with
    | nil => simp_all [blockChars]
    | cons z xs =>
      rw [blockChars_cons_cons, List.length_append, List.length_append]
      rcases List.mem_cons.1 h with rfl | h
      · omega
      · have := ih h
        omega

/-- There are at most as many entries as characters. -/
theorem length_le_length_blockChars (h : ∀ x ∈ xs, text x ≠ []) :
    xs.length ≤ (blockChars c text xs).length := by
  induction xs with
  | nil => simp
  | cons y xs ih =>
    have hy := List.length_pos_iff.2 (h y (by simp))
    cases xs with
    | nil => simpa [blockChars] using Nat.succ_le_of_lt hy
    | cons z xs =>
      have := ih fun x hx => h x (by simp [hx])
      rw [blockChars_cons_cons, List.length_append, List.length_append, List.length_cons]
      omega

end BlockChars

namespace Lexer

open Scalar (chars isTabbed)

/-- A predicate on lexers that have made certain tokens. -/
abbrev Position := List Token.Shape → Lexer → Prop

/-- The lexer stands in a line. -/
structure Inside (blocks : List Nat) (allowed : Bool) (column : Nat) (r : List Nat)
    (made : List Token.Shape) (l : Lexer) : Prop where
  place : l.At blocks allowed column r
  key : allowed = true ∨ l.key = none
  made_eq : made = l.shapes

/-- The lexer stands at the beginning of a line. Blocks that the line ends count as closed. -/
def Fresh (blocks : List Nat) (column : Nat) (r : List Nat) : Position := fun made l =>
  ∃ outer, l.At outer true column r ∧ around column outer = blocks ∧
    made = l.shapes ++ closing column outer

/-- **Scanning a piece of a document.** If the piece is sound, its tokens are made; otherwise the
lexer fails before the last of them. -/
structure Scans (sound : Bool) (shapes : List Token.Shape) (pre post : Position) : Prop where
  result : ∀ {made l}, sound = true → pre made l → ∃ n, Fetches l n ∧ post (made ++ shapes) n
  failure : ∀ {made l}, sound = false → pre made l → ∃ n, Fetches l n ∧ n.Tidy ∧
    (∃ e, n.fetch = .error e) ∧ n.shapes <+: made ++ shapes ∧ n.shapes ≠ made ++ shapes

section Scans

variable {sound sound' : Bool} {shapes shapes' : List Token.Shape} {pre post post' : Position}

theorem ne_append_of_isPrefix {α : Type} {s t : List α} (h : s <+: t) (hne : s ≠ t) (u : List α) :
    s ≠ t ++ u := by
  intro heq
  have hle := h.length_le
  have hlt : s.length ≠ t.length := fun hlen => hne (h.eq_of_length hlen)
  rw [heq, List.length_append] at hle hlt
  omega

/-- **One piece after another.** -/
theorem Scans.trans (h : Scans sound shapes pre post) (h' : Scans sound' shapes' post post') :
    Scans (sound && sound') (shapes ++ shapes') pre post' where
  result := by
    intro made l hsound hl
    rw [Bool.and_eq_true] at hsound
    obtain ⟨m, hlm, hm⟩ := h.result hsound.1 hl
    obtain ⟨n, hmn, hn⟩ := h'.result hsound.2 hm
    exact ⟨n, hlm.trans hmn, by rwa [← List.append_assoc]⟩
  failure := by
    intro made l hsound hl
    rw [← List.append_assoc]
    cases hs : sound with
    | true =>
      obtain ⟨m, hlm, hm⟩ := h.result hs hl
      rw [hs, Bool.true_and] at hsound
      obtain ⟨n, hmn, hn⟩ := h'.failure hsound hm
      exact ⟨n, hlm.trans hmn, hn⟩
    | false =>
      obtain ⟨n, hln, htidy, herror, hfront, hne⟩ := h.failure hs hl
      exact ⟨n, hln, htidy, herror, hfront.trans (List.prefix_append _ _),
        ne_append_of_isPrefix hfront hne shapes'⟩

theorem Scans.mono {pre' : Position} (h : Scans sound shapes pre post)
    (hpre : ∀ made l, pre' made l → pre made l) (hpost : ∀ made l, post made l → post' made l) :
    Scans sound shapes pre' post' where
  result := by
    intro made l hsound hl
    obtain ⟨n, hln, hn⟩ := h.result hsound (hpre _ _ hl)
    exact ⟨n, hln, hpost _ _ hn⟩
  failure hsound hl := h.failure hsound (hpre _ _ hl)

/-- A piece that is always sound. -/
theorem scans_of_result
    (h : ∀ {made l}, pre made l → ∃ n, Fetches l n ∧ post (made ++ shapes) n) :
    Scans true shapes pre post where
  result _ := h
  failure hsound := by cases hsound

end Scans

/-! ### Positions -/

section Positions

variable {b c column : Nat} {blocks outer : List Nat} {allowed : Bool} {r : List Nat}

theorem closing_cons_of_lt (h : column < c) (blocks : List Nat) :
    closing column (c :: blocks) = .blockEnd :: closing column blocks := by
  rw [closing, List.takeWhile_cons_of_pos (by simpa using h)]
  rfl

theorem around_cons_of_lt (h : column < c) (blocks : List Nat) :
    around column (c :: blocks) = around column blocks := by
  rw [around, List.takeWhile_cons_of_pos (by simpa using h)]
  rfl

/-- A position inside a block can be taken as one that closes nothing. -/
theorem Inside.fresh {made : List Token.Shape} {l : Lexer}
    (h : Inside (c :: blocks) true column r made l) (hc : c ≤ column) :
    Fresh (c :: blocks) column r made l := by
  refine ⟨c :: blocks, h.place, around_of_le hc blocks, ?_⟩
  rw [closing_of_le hc, List.append_nil, h.made_eq]

/-- A line begins behind a token that ends the line before. -/
theorem At.fresh {l : Lexer} (h : l.At outer true column r) :
    Fresh (around column outer) column r (l.shapes ++ closing column outer) l :=
  ⟨outer, h, rfl, rfl⟩

end Positions

/-! ### Scalars -/

/-- **Scanning the value** of an entry of a block at column `c`. -/
def ScansValue (sound : Bool) (shapes : List Token.Shape) (allowed : Bool) (column c : Nat)
    (blocks text : List Nat) : Prop :=
  ∀ ⦃col r⦄, col ≤ c → Sequel r →
    Scans sound (shapes ++ closing col (c :: blocks))
      (Inside (c :: blocks) allowed column (text ++ (List.replicate col 0x20 ++ r)))
      (Fresh (around col (c :: blocks)) col r)

section Scalars

variable {c column : Nat} {blocks : List Nat} {allowed : Bool}

theorem shapes_ne_nil (s : Bytes) : Scalar.shapes s ≠ [] := by
  unfold Scalar.shapes
  split <;> simp

/-- **A text.** -/
theorem scansValue_text (s : Bytes) (hc : c < column) :
    ScansValue (!isTabbed s) (Scalar.shapes s) allowed column c blocks
      (endChars (chars ⟨false, c + 2, 2⟩ s)) := by
  intro col r hcol hr
  refine ⟨?_, ?_⟩
  · rintro made l hsound ⟨hl, hkey, rfl⟩
    obtain ⟨n, hln, hshapes, hn⟩ := hl.text hc hkey (by simpa using hsound) hcol hr
    refine ⟨n, hln, ?_⟩
    rw [← List.append_assoc, ← hshapes]
    exact hn.fresh
  · rintro made l hsound ⟨hl, -, rfl⟩
    refine ⟨l, .refl l, hl.tidy, hl.text_tab hc (by simpa using hsound), List.prefix_append _ _, ?_⟩
    intro heq
    rw [List.self_eq_append_right, List.append_eq_nil_iff] at heq
    exact shapes_ne_nil s heq.1

/-- **A plain scalar.** -/
theorem scansValue_plain {v : Nat} {ws : List Nat} (hwords : PlainWords (v :: ws))
    (hbegins : BeginsPlain v ws) (hc : c < column) :
    ScansValue true [.scalar (encodeAll (v :: ws)) .plain] allowed column c blocks
      (v :: ws ++ [0x0A]) := by
  intro col r hcol hr
  refine scans_of_result ?_
  rintro made l ⟨hl, -, rfl⟩
  rw [List.append_assoc, List.singleton_append] at hl
  obtain ⟨n, hln, hshapes, hn⟩ := hl.plain hc hwords hbegins hcol hr
  refine ⟨n, .step hln (.refl n), ?_⟩
  rw [← List.append_assoc, ← hshapes]
  exact hn.fresh

theorem toNat_of_mem_ofInt {n : Int} {b : UInt8} (h : b ∈ Decimal.ofInt n) :
    0x30 ≤ b.toNat ∧ b.toNat ≤ 0x39 ∨ b.toNat = 0x2D := by
  have hb := isNumeralByte_of_mem_ofInt h
  simp only [isNumeralByte, Bytes.isDigit, Bool.or_eq_true, Bool.and_eq_true, decide_eq_true_eq,
    beq_iff_eq, UInt8.le_iff_toNat_le, UInt8.reduceToNat] at hb
  rcases hb with hb | rfl
  · exact .inl hb
  · exact .inr rfl

theorem encodeAll_ascii_ofInt (n : Int) :
    encodeAll (ascii (Decimal.ofInt n)) = Decimal.ofInt n := by
  refine encodeAll_ascii fun b hb => ?_
  have := toNat_of_mem_ofInt hb
  omega

/-- An integer can stand without quotes. -/
theorem ascii_ofInt (n : Int) : ∃ v ws, ascii (Decimal.ofInt n) = v :: ws ∧
    PlainWords (v :: ws) ∧ BeginsPlain v ws := by
  have hchar : ∀ v < 0x3A, 0x30 ≤ v ∨ v = 0x2D → isBlank v = false ∧ isBreak v = false ∧
      v ∉ Scalar.leadingIndicators := by decide +kernel
  have hword : ∀ v ∈ ascii (Decimal.ofInt n), isBlank v = false ∧ isBreak v = false ∧
      v ∉ Scalar.leadingIndicators ∧ v < 0x3A := by
    intro v hv
    obtain ⟨b, hb, rfl⟩ := List.mem_map.1 hv
    have hrange := toNat_of_mem_ofInt hb
    obtain ⟨hblank, hbreak, hleading⟩ := hchar b.toNat (by omega) (by omega)
    exact ⟨hblank, hbreak, hleading, by omega⟩
  obtain ⟨v, ws, hvs, hminus⟩ : ∃ v ws, ascii (Decimal.ofInt n) = v :: ws ∧
      (v = 0x2D → ws ≠ []) := by
    obtain ⟨d, rest, hd, -, heq⟩ := Decimal.ofNat_eq_cons n.natAbs
    have hdigit : ∀ d < 10, (Decimal.digit d).toNat ≠ 0x2D := by decide
    unfold Decimal.ofInt
    rw [heq]
    split
    · exact ⟨_, _, rfl, by simp⟩
    · exact ⟨_, _, rfl, fun h => absurd h (hdigit d hd)⟩
  rw [hvs] at hword
  have hv := hword v (by simp)
  have hsolid : ∀ u ∈ v :: ws, isBlank u = false ∧ isBreak u = false :=
    fun u hu => ⟨(hword u hu).1, (hword u hu).2.1⟩
  refine ⟨v, ws, hvs, .last ⟨List.cons_ne_nil v ws, hsolid, fun hlast => ?_⟩, hv.1, hv.2.1,
    hv.2.2.1, fun hmark => ?_⟩
  · exact absurd (hword _ (List.mem_of_getLast? hlast)).2.2.2 (by decide)
  · have hne : ws ≠ [] := hminus (by omega)
    obtain ⟨u, us, rfl⟩ := List.exists_cons_of_ne_nil hne
    exact ⟨u, rfl, hsolid u (by simp)⟩

/-- **An integer.** -/
theorem scansValue_integer (n : Int) (hc : c < column) :
    ScansValue true [.scalar (Decimal.ofInt n) .plain] allowed column c blocks
      (ascii (Decimal.ofInt n) ++ [0x0A]) := by
  obtain ⟨v, ws, hvs, hwords, hbegins⟩ := ascii_ofInt n
  have htext := encodeAll_ascii_ofInt n
  rw [hvs] at htext ⊢
  rw [← htext]
  exact scansValue_plain hwords hbegins hc

end Scalars

/-! ### Entries of blocks -/

/-- **Scanning entries of a block** at column `c`. The block may have to be opened before the first
of them, with the token `start`. The line behind the entries is indented by `col`. -/
def ScansBlock (start : Token.Shape) (sound : Bool) (shapes : List Token.Shape) (c : Nat)
    (blocks text : List Nat) : Prop :=
  ∀ ⦃outer col r⦄, opened c outer = c :: blocks → col ≤ c → Sequel r →
    Scans sound (opening start c outer ++ shapes ++ closing col (c :: blocks))
      (Fresh outer c (text ++ (List.replicate col 0x20 ++ r)))
      (Fresh (around col (c :: blocks)) col r)

section Blocks

variable {start : Token.Shape} {c : Nat} {blocks : List Nat}

theorem opens_cons_self (c : Nat) (blocks : List Nat) : opens c (c :: blocks) = false := by
  simp [opens]

theorem opened_cons_self (c : Nat) (blocks : List Nat) :
    opened c (c :: blocks) = c :: blocks := by
  rw [opened, opens_cons_self, if_neg (by simp)]

theorem opening_cons_self (start : Token.Shape) (c : Nat) (blocks : List Nat) :
    opening start c (c :: blocks) = [] := by
  rw [opening, opens_cons_self, if_neg (by simp)]

/-- Entries and more entries. -/
theorem ScansBlock.append {sound sound' : Bool} {shapes shapes' : List Token.Shape}
    {text text' : List Nat} (h : ScansBlock start sound shapes c blocks text)
    (h' : ScansBlock start sound' shapes' c blocks text') (htext : ∀ r, Sequel (text' ++ r)) :
    ScansBlock start (sound && sound') (shapes ++ shapes') c blocks
      (text ++ (List.replicate c 0x20 ++ text')) := by
  intro outer col r houter hcol hr
  have hfirst := h houter (Nat.le_refl c) (htext (List.replicate col 0x20 ++ r))
  have hsecond := h' (opened_cons_self c blocks) hcol hr
  rw [closing_of_le (Nat.le_refl c), around_of_le (Nat.le_refl c), List.append_nil] at hfirst
  rw [opening_cons_self, List.nil_append] at hsecond
  simpa only [List.append_assoc] using hfirst.trans hsecond

/-- **The entries of a block**, one after another. -/
theorem ScansBlock.blockChars {ι : Type} {sound : ι → Bool} {shapesOf : ι → List Token.Shape}
    {text : ι → List Nat} {xs : List ι} (hne : xs ≠ [])
    (h : ∀ x ∈ xs, ScansBlock start (sound x) (shapesOf x) c blocks (text x))
    (htext : ∀ x ∈ xs, ∀ r, Sequel (text x ++ r)) :
    ScansBlock start (xs.all sound) (xs.flatMap shapesOf) c blocks (blockChars c text xs) := by
  induction xs with
  | nil => exact absurd rfl hne
  | cons x xs ih =>
    rcases xs with _ | ⟨y, xs⟩
    · simpa [Yaml.blockChars] using h x (by simp)
    · have hrest := ih (by simp) (fun z hz => h z (by simp [hz])) fun z hz => htext z (by simp [hz])
      have hsequel : ∀ r, Sequel (Yaml.blockChars c text (y :: xs) ++ r) :=
        sequel_blockChars (htext y (by simp))
      rw [blockChars_cons_cons]
      exact (h x (by simp)).append hrest hsequel

/-- The dash of an item in a block. -/
theorem scans_entry {outer : List Nat} {r : List Nat} (hc : c ≠ 0)
    (houter : opened c outer = c :: blocks) (hdepth : (c :: blocks).length < maxDepth)
    (hr : Sequel r) :
    Scans true (opening .blockSequenceStart c outer ++ [.blockEntry])
      (Fresh outer c (0x2D :: 0x20 :: r)) (Inside (c :: blocks) true (c + 2) r) := by
  refine scans_of_result ?_
  rintro made l ⟨real, hl, rfl, rfl⟩
  obtain ⟨n, hln, hshapes, hn⟩ := hl.entry hr hc (houter ▸ hdepth)
  rw [houter] at hn
  refine ⟨n, .step hln (.refl n), hn, .inl rfl, ?_⟩
  simp [hshapes]

/-- The name of a field in a block. -/
theorem scans_key {outer : List Nat} {w r r' : List Nat} {v column' : Nat} {allowed : Bool}
    (houter : opened c outer = c :: blocks) (hdepth : (c :: blocks).length < maxDepth)
    (hw : IsName w) (hv : isBlank v = true ∨ isBreak v = true)
    (hleads : Leads (c + w.length + 1) (v :: r) false allowed column' r') :
    Scans true (opening .blockMappingStart c outer ++ [.key, .scalar (encodeAll w) .plain, .value])
      (Fresh outer c (w ++ 0x3A :: v :: r)) (Inside (c :: blocks) allowed column' r') := by
  refine scans_of_result ?_
  rintro made l ⟨real, hl, rfl, rfl⟩
  obtain ⟨n, hln, hshapes, hn, hkey⟩ := hl.key hw hv hleads (houter ▸ hdepth)
  rw [houter] at hn
  refine ⟨n, hln, hn, .inr hkey, ?_⟩
  simp [hshapes]

end Blocks

/-! ### Entries and their values -/

section Values

variable {sound allowed : Bool} {shapes : List Token.Shape} {c column : Nat}
  {blocks text : List Nat}

/-- A block inside a block. -/
theorem ScansBlock.value {start : Token.Shape}
    (h : ScansBlock start sound shapes column (c :: blocks) text) (hc : c < column) :
    ScansValue sound (start :: (shapes ++ [.blockEnd])) true column c blocks text := by
  intro col r hcol hr
  have hopens : opens column (c :: blocks) = true := by
    simpa [opens] using hc
  have hopened : opened column (c :: blocks) = column :: c :: blocks := by
    rw [opened, hopens, if_pos rfl]
  have hblock := h hopened (Nat.le_trans hcol (Nat.le_of_lt hc)) hr
  rw [opening, hopens, if_pos rfl, closing_cons_of_lt (by omega), around_cons_of_lt (by omega)]
    at hblock
  simpa using hblock.mono (fun _ _ hl => Inside.fresh hl (Nat.le_of_lt hc)) fun _ _ hl => hl

/-- **An item of a list.** -/
theorem scansBlock_item (hc : c ≠ 0) (hdepth : (c :: blocks).length < maxDepth)
    (htext : ∀ r, Sequel (text ++ r)) (h : ScansValue sound shapes true (c + 2) c blocks text) :
    ScansBlock .blockSequenceStart sound (.blockEntry :: shapes) c blocks
      (0x2D :: 0x20 :: text) := by
  intro outer col r houter hcol hr
  simpa using (scans_entry hc houter hdepth (htext _)).trans (h hcol hr)

/-- **A field of a record.** Its value stands behind a gap. -/
theorem scansBlock_field {w gap : List Nat} {v : Nat} (hw : IsName w)
    (hdepth : (c :: blocks).length < maxDepth) (hv : isBlank v = true ∨ isBreak v = true)
    (hleads : ∀ r, Leads (c + w.length + 1) (v :: (gap ++ (text ++ r))) false allowed column
      (text ++ r))
    (h : ScansValue sound shapes allowed column c blocks text) :
    ScansBlock .blockMappingStart sound
      (.key :: .scalar (encodeAll w) .plain :: .value :: shapes) c blocks
      (w ++ 0x3A :: v :: (gap ++ text)) := by
  intro outer col r houter hcol hr
  simpa using (scans_key houter hdepth hw hv (hleads _)).trans (h hcol hr)

/-- A field with its value on the same line. -/
theorem scansBlock_field_blank {w : List Nat} (hw : IsName w)
    (hdepth : (c :: blocks).length < maxDepth) (htext : ∀ r, Sequel (text ++ r))
    (h : ScansValue sound shapes false (c + w.length + 2) c blocks text) :
    ScansBlock .blockMappingStart sound
      (.key :: .scalar (encodeAll w) .plain :: .value :: shapes) c blocks
      (w ++ 0x3A :: 0x20 :: text) :=
  have hleads : ∀ r, Leads (c + w.length + 1) (0x20 :: ([] ++ (text ++ r))) false false
      (c + w.length + 2) (text ++ r) := fun r => .blanks 1 false (htext r)
  scansBlock_field hw hdepth (.inl rfl) hleads h

/-- A field with its value on the next line. -/
theorem scansBlock_field_line {w : List Nat} (hw : IsName w)
    (hdepth : (c :: blocks).length < maxDepth) (htext : ∀ r, Sequel (text ++ r))
    (h : ScansValue sound shapes true column c blocks text) :
    ScansBlock .blockMappingStart sound
      (.key :: .scalar (encodeAll w) .plain :: .value :: shapes) c blocks
      (w ++ 0x3A :: 0x0A :: (List.replicate column 0x20 ++ text)) :=
  scansBlock_field hw hdepth (.inr rfl) (fun r => .line column false (htext r)) h

end Values

/-! ### Documents -/

section Documents

variable {sound : Bool} {shapes : List Token.Shape} {text : List Nat}

/-- The beginning of a document whose root is a block. -/
theorem fresh_start (htext : Sequel text) :
    ∃ l, Fetches (ofCharacters text) l ∧ Fresh [] 0 text [.streamStart] l := by
  obtain ⟨l, hmakes, hshapes, hl⟩ := makes_start htext
  exact ⟨l, .step hmakes (.refl l), [], hl, rfl, by rw [hshapes]; rfl⟩

/-- A document whose root is a block is scanned from its beginning. -/
theorem ScansBlock.root {start : Token.Shape} (h : ScansBlock start sound shapes 0 [] text) :
    Scans sound (start :: shapes) (Fresh [] 0 text) (Fresh [0] 0 []) := by
  have hopened : Lexer.opened 0 [] = [0] := rfl
  have hscans := h hopened (Nat.le_refl 0) sequel_nil
  simpa [closing, around, opening, opens] using hscans

/-- **The tokens of a document** whose root is a sound block. -/
theorem ScansBlock.feeds {start : Token.Shape} (h : ScansBlock start true shapes 0 [] text)
    (htext : Sequel text) :
    Feeds false (.streamStart :: start :: (shapes ++ [.blockEnd]) ++ [.streamEnd])
      (ofCharacters text) := by
  obtain ⟨l, hl, hfresh⟩ := fresh_start htext
  obtain ⟨m, hlm, blocks, hm, haround, hmade⟩ := h.root.result rfl hfresh
  -- two more tokens after the end, since the last two tokens in the queue are not taken yet
  obtain ⟨n₁, h₁, hshapes₁, hn₁⟩ := hm.finish
  obtain ⟨n₂, h₂, hshapes₂, hn₂⟩ := hn₁.finish
  obtain ⟨n₃, h₃, hshapes₃, hn₃⟩ := hn₂.finish
  have hshapes : n₃.shapes =
      (.streamStart :: start :: (shapes ++ [.blockEnd]) ++ [.streamEnd]) ++
        [.streamEnd, .streamEnd] := by
    rw [hshapes₃, hshapes₂, hshapes₁, ← closing_append_around 0 blocks, haround]
    simp only [List.map_cons, List.map_nil, List.nil_append]
    rw [← List.append_assoc, ← List.append_assoc, ← hmade]
    simp
  have hfeeds : Feeds false (n₃.shapes.take (n₃.shapes.length - 2)) (ofCharacters text) :=
    feeds_of_fetches ((hl.trans hlm).trans (.step h₁ (.step h₂ (.step h₃ (.refl n₃))))) hn₃.tidy
      (by simp)
  rw [hshapes, List.take_left' (by simp)] at hfeeds
  exact hfeeds

/-- **The tokens of a document** whose root is not sound: an error comes before the last of them. -/
theorem ScansBlock.feeds_error {start : Token.Shape} (h : ScansBlock start false shapes 0 [] text)
    (htext : Sequel text) :
    ∃ fed, fed <+: .streamStart :: start :: (shapes ++ [.blockEnd]) ∧
      fed ≠ .streamStart :: start :: (shapes ++ [.blockEnd]) ∧
      Feeds true fed (ofCharacters text) := by
  obtain ⟨l, hl, hfresh⟩ := fresh_start htext
  obtain ⟨n, hln, htidy, herror, hfront, hne⟩ := h.root.failure rfl hfresh
  have hfed := (List.take_prefix (n.shapes.length - 2) n.shapes).trans hfront
  have hall : .streamStart :: start :: (shapes ++ [.blockEnd]) =
      [.streamStart] ++ (start :: shapes) ++ [.blockEnd] := rfl
  rw [hall]
  refine ⟨_, hfed.trans (List.prefix_append _ _), fun heq => ?_,
    feeds_of_fetches (hl.trans hln) htidy fun _ => herror⟩
  have hlen := hfed.length_le
  rw [heq, List.length_append] at hlen
  exact absurd hlen (by simp)

end Documents

end Lexer

end ForthFrontend.Yaml
