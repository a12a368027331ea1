import ForthFrontend.Proofs.Yaml.Document
import ForthFrontend.Proofs.Yaml.Implicit
import ForthFrontend.Proofs.Yaml.Scalar.Shown

/-!
# What a written document shows

Two documents are written alike exactly if they show the same: the same names, numbers, truth values
and texts in the same order, where a text shows all of itself but one line feed before some literal
blocks. The documents here are records of values, and a value is a scalar, a list of texts in flow
style, a record of such, or a list of records of such.

Each part of a document is told apart from any other part in the same place, whatever follows. What
follows is the end or a line that is indented less, and this is also where the lines of a literal
block and the fields of a record end.

## Main definitions

* `Yaml.Document.shown`: what a document shows.
* `Yaml.Document.Behind`: what may stand behind a value.
* `Yaml.Document.IsValue`: the values of fields.

## Main results

* `Yaml.Document.writeValue_shown`: what a document shows is written like the document.
* `Yaml.Document.write_eq_write_iff`: documents are written alike exactly if they show the same.
-/

namespace ForthFrontend.Yaml.Document

open Scalar (chars)

/-! ### What is shown -/

mutual

/-- What a document shows when it is written. -/
def shown : Document → Document
  | text s => text (Scalar.shown s)
  | bare s => bare s
  | flow items => flow items
  | list items => list (shownItems items)
  | record fields => record (shownFields fields)

/-- What the items of a list show. -/
def shownItems : List Document → List Document
  | [] => []
  | item :: items => shown item :: shownItems items

/-- What the fields of a record show. -/
def shownFields : List (Bytes × Document) → List (Bytes × Document)
  | [] => []
  | (name, value) :: fields => (name, shown value) :: shownFields fields

end

theorem shownItems_eq (items : List Document) : shownItems items = items.map shown := by
  induction items with
  | nil => rfl
  | cons item items ih => rw [shownItems, ih, List.map_cons]

theorem shownFields_eq (fields : List (Bytes × Document)) :
    shownFields fields = fields.map fun f => (f.1, shown f.2) := by
  induction fields with
  | nil => rfl
  | cons f fields ih => rw [shownFields, ih, List.map_cons]

mutual

/-- **What a document shows** is written like the document. -/
theorem writeValue_shown (c : Nat) (d : Document) : writeValue 2 c (shown d) = writeValue 2 c d := by
  cases d with
  | text s => rw [shown, writeValue, writeValue, Scalar.write_shown]
  | bare s => rfl
  | flow items => rfl
  | list items =>
    cases items with
    | nil => rfl
    | cons item items =>
      have hitems := writeItems_shown (deeper 2 c) (item :: items)
      rw [shownItems] at hitems
      rw [shown, shownItems, writeValue, writeValue, hitems]
  | record fields =>
    cases fields with
    | nil => rfl
    | cons f fields =>
      have hfields := writeFields_shown (deeper 2 c) false (f :: fields)
      rw [shownFields] at hfields
      rw [shown, shownFields, writeValue, writeValue, hfields]

theorem writeItems_shown (c : Nat) (items : List Document) :
    writeItems 2 c (shownItems items) = writeItems 2 c items := by
  cases items with
  | nil => rfl
  | cons item items =>
    rw [shownItems, writeItems, writeItems, writeItem_shown c item, writeItems_shown c items]

theorem writeItem_shown (c : Nat) (d : Document) : writeItem 2 c (shown d) = writeItem 2 c d := by
  cases d with
  | text s => rw [shown, writeItem, writeItem, Scalar.write_shown]
  | bare s => rfl
  | flow items => rfl
  | list items => rw [shown, writeItem, writeItem, writeItems_shown (c + 2) items]
  | record fields => rw [shown, writeItem, writeItem, writeFields_shown (c + 2) true fields]

theorem writeFields_shown (c : Nat) (behindDash : Bool) (fields : List (Bytes × Document)) :
    writeFields 2 c behindDash (shownFields fields) = writeFields 2 c behindDash fields := by
  cases fields with
  | nil => rfl
  | cons f fields =>
    rw [shownFields, writeFields, writeFields, writeValue_shown c f.2,
      writeFields_shown c false fields]

end

/-! ### What follows a value -/

/-- What may stand behind a value: the end, or a line with a visible first character that is
indented by less than `n`. -/
inductive Behind (n : Nat) : Bytes → Prop where
  | nil : Behind n []
  | line {col : Nat} {b : UInt8} {t : Bytes} : col < n → 0x21 ≤ b.toNat → b.toNat ≤ 0x7E →
      Behind n (Bytes.blanks col ++ b :: t)

theorem scalars_append_of_ascii {s : Bytes} (h : ∀ b ∈ s, b.toNat < 0x80) (r : Bytes) :
    Utf8.scalars (s ++ r) = ascii s ++ Utf8.scalars r := by
  have hscalar : ∀ v ∈ ascii s, Utf8.IsScalar v := by
    intro v hv
    obtain ⟨b, hb, rfl⟩ := List.mem_map.1 hv
    have := h b hb
    unfold Utf8.IsScalar
    omega
  have happend := Utf8.scalars_encode_append hscalar r
  rwa [show (ascii s).flatMap Utf8.encode = s from encodeAll_ascii h] at happend

theorem scalars_cons_of_ascii {b : UInt8} (h : b.toNat < 0x80) (r : Bytes) :
    Utf8.scalars (b :: r) = b.toNat :: Utf8.scalars r :=
  scalars_append_of_ascii (s := [b]) (by simpa using h) r

section Behind

variable {n m : Nat} {r : Bytes}

theorem Behind.mono (h : Behind n r) (hle : n ≤ m) : Behind m r := by
  cases h with
  | nil => exact .nil
  | line hcol hlo hhi => exact .line (by omega) hlo hhi

/-- In the characters of a document, what follows a value is indented less than its lines. -/
theorem Behind.outdented (h : Behind n r) (hn : 0 < n) : Outdented n (Utf8.scalars r) := by
  cases h with
  | nil => exact ⟨0, hn, [], Utf8.scalars_nil, stops_nil⟩
  | @line col b t hcol hlo hhi =>
    have hblank : ∀ b ∈ Bytes.blanks col, b.toNat < 0x80 := by
      intro b hb
      rw [List.eq_of_mem_replicate hb]
      decide
    have hblanks : ascii (Bytes.blanks col) = List.replicate col 0x20 :=
      List.map_replicate
    refine ⟨col, hcol, b.toNat :: Utf8.scalars t, ?_, stops_cons.2 ?_⟩
    · rw [scalars_append_of_ascii hblank, hblanks, scalars_cons_of_ascii (by omega)]
    · simp only [isBlank, isBreak, Bool.or_eq_false_iff, beq_eq_false_iff_ne]
      omega

/-- A line that is indented by `n` is no such line. -/
theorem not_behind_blanks {b : UInt8} : ¬ Behind n (Bytes.blanks n ++ b :: r) := by
  intro h
  generalize hs : Bytes.blanks n ++ b :: r = s at h
  cases h with
  | nil => exact List.append_ne_nil_of_right_ne_nil _ (List.cons_ne_nil b r) hs
  | @line col b' t hcol hlo hhi =>
    obtain ⟨k, rfl⟩ : ∃ k, n = col + (k + 1) := ⟨n - col - 1, by omega⟩
    unfold Bytes.blanks Bytes.fill at hs
    rw [← List.replicate_append_replicate, List.replicate_succ, List.append_assoc,
      List.append_cancel_left_eq] at hs
    rw [← (List.cons.inj hs).1] at hlo
    exact absurd hlo (by decide)

end Behind

/-! ### Scalars -/

/-- A word that is written as it is, but that no text is written as. -/
structure IsWord (w : Bytes) : Prop where
  quoted : needsQuotes w = true
  visible : ∀ b ∈ w, 0x21 ≤ b.toNat ∧ b.toNat ≤ 0x7E
  begins : ∃ b rest, w = b :: rest ∧ b.toNat ∉ Scalar.leadingIndicators

theorem isWord_ofInt64 (n : Int64) : IsWord (Decimal.ofInt64 n) where
  quoted := by
    have hmeaning : meaning (Decimal.ofInt64 n) = .integer n.toInt :=
      meaningOf_ofInt true (Decimal.fitsInt64_toInt n)
    cases h : needsQuotes (Decimal.ofInt64 n) with
    | true => rfl
    | false =>
      rw [meaning_of_not_needsQuotes h] at hmeaning
      cases hmeaning
  visible := by
    intro b hb
    have := Lexer.toNat_of_mem_ofInt hb
    omega
  begins := by
    obtain ⟨v, ws, hvs, -, hbegins⟩ := Lexer.ascii_ofInt n.toInt
    obtain ⟨b, rest, hw, rfl, -⟩ := List.map_eq_cons_iff.1 hvs
    exact ⟨b, rest, hw, hbegins.not_leading⟩

theorem isWord_truth (b : Bool) : IsWord (if b then "true" else "false") := by
  cases b with
  | true => exact ⟨by decide +kernel, by decide +kernel, 0x74, [0x72, 0x75, 0x65], by decide +kernel⟩
  | false =>
    exact ⟨by decide +kernel, by decide +kernel, 0x66, [0x61, 0x6C, 0x73, 0x65], by decide +kernel⟩

theorem IsWord.isAscii {w : Bytes} (h : IsWord w) : ∀ b ∈ w, b.toNat < 0x80 := by
  intro b hb
  have := h.visible b hb
  omega

theorem IsWord.ne_lf {w : Bytes} (h : IsWord w) : ∀ b ∈ w, (b != Bytes.lf) = true := by
  intro b hb
  rw [bne_iff_ne]
  rintro rfl
  have := h.visible Bytes.lf hb
  exact absurd this.1 (by decide)

/-- A word behind a blank, up to the end of its line. -/
theorem IsWord.endLine_eq {w : Bytes} (h : IsWord w) :
    endLine (Bytes.space :: w) = Bytes.space :: (w ++ [Bytes.lf]) := by
  have hallowed : ∀ v ∈ ascii w, isAllowed v = true := by
    refine Scalar.isAllowed_of_mem_ascii fun b hb => ?_
    have := h.visible b hb
    omega
  obtain ⟨b, rest, rfl, -⟩ := h.begins
  have hne : ascii (b :: rest) ≠ [] := by simp
  have hlast : (ascii (b :: rest)).getLast?.any isBreak = false := by
    rw [List.getLast?_eq_some_getLast hne]
    obtain ⟨u, hu, hv⟩ := List.mem_map.1 (List.getLast_mem hne)
    have := h.visible u hu
    rw [← hv]
    simp only [Option.any_some, isBreak, Bool.or_eq_false_iff, beq_eq_false_iff_ne]
    omega
  have hline := endLine_space hne hallowed
  rw [encodeAll_ascii h.isAscii] at hline
  rw [hline, endChars, if_neg (by rw [hlast]; exact Bool.false_ne_true), encodeAll_cons, encodeAll_append,
    encodeAll_ascii h.isAscii]
  rfl

section Text

variable {indent : Nat} {s s' : Bytes} {r r' : Bytes}

theorem scalars_text (indent : Nat) (s r : Bytes) :
    Utf8.scalars (endLine (Bytes.space :: Scalar.write ⟨false, indent, 2⟩ s) ++ r) =
      0x20 :: (endChars (chars ⟨false, indent, 2⟩ s) ++ Utf8.scalars r) := by
  rw [endLine_text, encodeAll]
  refine Utf8.scalars_encode_append (fun v hv => ?_) r
  refine isScalar_of_isAllowed ?_
  rcases List.mem_cons.1 hv with rfl | hv
  · rfl
  · exact isAllowed_of_mem_endChars (Scalar.isAllowed_of_mem_chars _ s) v hv

/-- The first character of a text says that it is a text, unless it is written without quotes. -/
theorem mark_or_plain (indent : Nat) (s : Bytes) (r : List Nat) :
    ∃ v ws, endChars (chars ⟨false, indent, 2⟩ s) ++ r = v :: ws ∧ v ≠ 0x5B ∧
      (v ∈ Scalar.leadingIndicators ∨ Utf8.isValid s = true ∧ needsQuotes s = false ∧
        0x0A ∉ Utf8.scalars s ∧
        endChars (chars ⟨false, indent, 2⟩ s) = Utf8.scalars s ++ [0x0A]) := by
  cases hvalid : Utf8.isValid s with
  | false =>
    rw [Scalar.endChars_chars_of_not_isValid hvalid]
    exact ⟨0x21, _, rfl, by decide, .inl (by decide)⟩
  | true =>
    have hholds := Scalar.holds_of_isValid hvalid false
    obtain ⟨v, ws, hchars, hopens⟩ := hholds.opens ⟨false, indent, 2⟩
    obtain ⟨us, hus⟩ := exists_endChars v ws
    rw [Scalar.chars_of_isValid hvalid]
    refine ⟨v, us ++ r, by rw [hchars, hus]; rfl, hopens.not_mark.2.1, ?_⟩
    rcases Scalar.style_cases false (!needsQuotes s) s with
      ⟨hst, -⟩ | ⟨hst, hloose, hlf, -⟩ | ⟨hst, -⟩ | hst
    · rw [hst] at hopens
      rw [show v = _ from hopens]
      exact .inl (by decide)
    · rw [hst] at hholds ⊢
      exact .inr ⟨rfl, by simpa using hloose, hlf, hholds.endChars_charsIn (by simp) _⟩
    all_goals
      rw [hst] at hopens
      rw [show v = _ from hopens]
      exact .inl (by decide)

/-- **Texts** that are written alike show the same. -/
theorem text_inj {n : Nat} (hn : 0 < n) (hle : n ≤ indent) (hr : Behind n r) (hr' : Behind n r')
    (heq : endLine (Bytes.space :: Scalar.write ⟨false, indent, 2⟩ s) ++ r =
      endLine (Bytes.space :: Scalar.write ⟨false, indent, 2⟩ s') ++ r') :
    Scalar.shown s = Scalar.shown s' := by
  have hchars := congrArg Utf8.scalars heq
  rw [scalars_text, scalars_text] at hchars
  exact Scalar.shown_eq_of_chars_eq (by omega) ((hr.mono hle).outdented (by omega))
    ((hr'.mono hle).outdented (by omega)) (List.cons.inj hchars).2

/-- No text is written like a word. -/
theorem text_ne_word {w : Bytes} (hw : IsWord w) :
    endLine (Bytes.space :: Scalar.write ⟨false, indent, 2⟩ s) ++ r ≠
      endLine (Bytes.space :: w) ++ r' := by
  intro heq
  have hchars := congrArg Utf8.scalars heq
  have hspace : Bytes.space.toNat < 0x80 := by decide
  have hend : Bytes.lf.toNat < 0x80 := by decide
  rw [scalars_text, hw.endLine_eq, List.cons_append, scalars_cons_of_ascii hspace,
    List.append_assoc, scalars_append_of_ascii hw.isAscii, List.singleton_append,
    scalars_cons_of_ascii hend] at hchars
  have htail := (List.cons.inj hchars).2
  obtain ⟨v, ws, hv, -, hmark | ⟨hvalid, hquotes, hlf, hplain⟩⟩ :=
    mark_or_plain indent s (Utf8.scalars r)
  · obtain ⟨b, rest, rfl, hb⟩ := hw.begins
    rw [hv] at htail
    rw [(List.cons.inj htail).1] at hmark
    exact hb hmark
  · rw [hplain, List.append_assoc, List.singleton_append] at htail
    have hsame : Utf8.scalars s = ascii w := by
      refine (run_inj (p := (· != 0x0A)) ?_ ?_ (by simp) (by simp; rfl) htail).1
      · intro v hv
        rw [bne_iff_ne]
        rintro rfl
        exact hlf hv
      · intro v hv
        obtain ⟨b, hb, rfl⟩ := List.mem_map.1 hv
        have := hw.visible b hb
        rw [bne_iff_ne]
        omega
    have hs : s = w := by
      rw [← Utf8.encode_scalars hvalid, hsame]
      exact encodeAll_ascii hw.isAscii
    rw [hs, hw.quoted] at hquotes
    cases hquotes

end Text

/-! ### Flow collections -/

section Flow

variable {indent : Nat} {items items' : List Bytes} {r r' : Bytes}

/-- The texts of a flow collection behind the first one, and the bracket. -/
def flowTail (indent : Nat) (items : List Bytes) : Bytes :=
  items.flatMap (fun s => 0x2C :: Bytes.space :: Scalar.write ⟨true, indent, 2⟩ s) ++ [0x5D]

/-- A flow collection behind the opening bracket. -/
def flowBody (indent : Nat) : List Bytes → Bytes
  | [] => [0x5D]
  | s :: items => Scalar.write ⟨true, indent, 2⟩ s ++ flowTail indent items

theorem scalars_flow (indent : Nat) (s r : Bytes) :
    Utf8.scalars (Scalar.write ⟨true, indent, 2⟩ s ++ r) =
      chars ⟨true, indent, 2⟩ s ++ Utf8.scalars r := by
  rw [Scalar.write_eq, encodeAll]
  exact Utf8.scalars_encode_append
    (fun v hv => isScalar_of_isAllowed (Scalar.isAllowed_of_mem_chars _ s v hv)) r

theorem flowTail_closes (indent : Nat) (items : List Bytes) (r : Bytes) :
    ∃ v t, Utf8.scalars (flowTail indent items ++ r) = v :: t ∧
      Scalar.closes true v = true := by
  cases items with
  | nil => exact ⟨0x5D, _, scalars_cons_of_ascii (b := 0x5D) (by decide) r, rfl⟩
  | cons s items => exact ⟨0x2C, _, scalars_cons_of_ascii (b := 0x2C) (by decide) _, rfl⟩

theorem flow_item_inj (hindent : 0 < indent) {s s' : Bytes}
    (heq : Scalar.write ⟨true, indent, 2⟩ s ++ (flowTail indent items ++ r) =
      Scalar.write ⟨true, indent, 2⟩ s' ++ (flowTail indent items' ++ r')) : s = s' := by
  have hchars := congrArg Utf8.scalars heq
  rw [scalars_flow, scalars_flow] at hchars
  exact Scalar.eq_of_chars_eq_inFlow hindent (flowTail_closes indent items r)
    (flowTail_closes indent items' r') hchars

theorem flowTail_inj (hindent : 0 < indent)
    (heq : flowTail indent items ++ r = flowTail indent items' ++ r') : items = items' := by
  induction items generalizing items' with
  | nil =>
    cases items' with
    | nil => rfl
    | cons s' items' => exact absurd (List.cons.inj heq).1 (by decide)
  | cons s items ih =>
    cases items' with
    | nil => exact absurd (List.cons.inj heq).1 (by decide)
    | cons s' items' =>
      have hrest : Scalar.write ⟨true, indent, 2⟩ s ++ (flowTail indent items ++ r) =
          Scalar.write ⟨true, indent, 2⟩ s' ++ (flowTail indent items' ++ r') := by
        simpa [flowTail] using heq
      have hs := flow_item_inj hindent hrest
      subst hs
      rw [ih (List.append_cancel_left hrest)]

/-- No text in a flow collection begins like its end. -/
theorem flow_item_ne {s : Bytes} : Scalar.write ⟨true, indent, 2⟩ s ++ r ≠ 0x5D :: r' := by
  intro heq
  have hchars := congrArg Utf8.scalars heq
  rw [scalars_flow, scalars_cons_of_ascii (by decide)] at hchars
  cases hvalid : Utf8.isValid s with
  | true =>
    obtain ⟨v, ws, hv, hopens⟩ :=
      (Scalar.holds_of_isValid hvalid true).opens ⟨true, indent, 2⟩
    rw [Scalar.chars_of_isValid hvalid, hv] at hchars
    exact hopens.not_mark.2.2 (List.cons.inj hchars).1
  | false =>
    rw [Scalar.chars_of_not_isValid hvalid] at hchars
    exact absurd (List.cons.inj hchars).1 (by decide)

/-- **Flow collections** that are written alike are equal. -/
theorem flowBody_inj (hindent : 0 < indent)
    (heq : flowBody indent items ++ r = flowBody indent items' ++ r') : items = items' := by
  cases items with
  | nil =>
    cases items' with
    | nil => rfl
    | cons s' items' =>
      rw [flowBody, flowBody, List.append_assoc] at heq
      exact absurd heq.symm flow_item_ne
  | cons s items =>
    cases items' with
    | nil =>
      rw [flowBody, flowBody, List.append_assoc] at heq
      exact absurd heq flow_item_ne
    | cons s' items' =>
      rw [flowBody, flowBody, List.append_assoc, List.append_assoc] at heq
      have hs := flow_item_inj hindent heq
      subst hs
      rw [flowTail_inj hindent (List.append_cancel_left heq)]

theorem joinWith_cons (indent : Nat) (s : Bytes) (items : List Bytes) :
    Bytes.joinWith ", " ((s :: items).map (Scalar.write ⟨true, indent, 2⟩)) ++ [0x5D] =
      Scalar.write ⟨true, indent, 2⟩ s ++ flowTail indent items := by
  have hcomma : Bytes.ofString ", " = [0x2C, Bytes.space] := by decide
  unfold Bytes.joinWith
  rw [hcomma]
  induction items generalizing s with
  | nil => simp [flowTail]
  | cons t items ih =>
    rw [List.map_cons, List.map_cons, List.intercalate_cons_cons, ← List.map_cons,
      List.append_assoc, ih]
    simp [flowTail]

theorem exists_flowTail (indent : Nat) (items : List Bytes) :
    ∃ cs, (∀ v ∈ cs, isAllowed v = true) ∧ flowTail indent items = encodeAll (cs ++ [0x5D]) := by
  induction items with
  | nil => exact ⟨[], by simp, rfl⟩
  | cons s items ih =>
    obtain ⟨cs, hcs, htail⟩ := ih
    refine ⟨0x2C :: 0x20 :: (chars ⟨true, indent, 2⟩ s ++ cs), ?_, ?_⟩
    · intro v hv
      simp only [List.mem_cons, List.mem_append] at hv
      rcases hv with rfl | rfl | hv | hv
      · rfl
      · rfl
      · exact Scalar.isAllowed_of_mem_chars _ s v hv
      · exact hcs v hv
    · have hcons : flowTail indent (s :: items) = 0x2C :: Bytes.space ::
          (Scalar.write ⟨true, indent, 2⟩ s ++ flowTail indent items) := by simp [flowTail]
      rw [hcons, htail, Scalar.write_eq]
      simp
      rfl

theorem exists_flowBody (indent : Nat) (items : List Bytes) :
    ∃ cs, (∀ v ∈ cs, isAllowed v = true) ∧ flowBody indent items = encodeAll (cs ++ [0x5D]) := by
  cases items with
  | nil => exact ⟨[], by simp, rfl⟩
  | cons s items =>
    obtain ⟨cs, hcs, htail⟩ := exists_flowTail indent items
    refine ⟨chars ⟨true, indent, 2⟩ s ++ cs, ?_, ?_⟩
    · intro v hv
      rcases List.mem_append.1 hv with hv | hv
      · exact Scalar.isAllowed_of_mem_chars _ s v hv
      · exact hcs v hv
    · rw [flowBody, htail, Scalar.write_eq]
      simp

/-- A flow collection behind a blank, up to the end of its line. -/
theorem endLine_flow (indent : Nat) (items : List Bytes) :
    endLine (" [" ++ Bytes.joinWith ", " (items.map (Scalar.write ⟨true, indent, 2⟩)) ++ "]") =
      Bytes.space :: 0x5B :: (flowBody indent items ++ [Bytes.lf]) := by
  have hopen : Bytes.ofString " [" = [Bytes.space, 0x5B] := by decide
  have hclose : Bytes.ofString "]" = [0x5D] := by decide
  have hbody : Bytes.joinWith ", " (items.map (Scalar.write ⟨true, indent, 2⟩)) ++ [0x5D] =
      flowBody indent items := by
    cases items with
    | nil => rfl
    | cons s items => exact joinWith_cons indent s items
  obtain ⟨cs, hcs, hchars⟩ := exists_flowBody indent items
  have hallowed : ∀ v ∈ 0x5B :: (cs ++ [0x5D]), isAllowed v = true := by
    intro v hv
    simp only [List.mem_cons, List.mem_append, List.not_mem_nil, or_false] at hv
    rcases hv with rfl | hv | rfl
    · rfl
    · exact hcs v hv
    · rfl
  have hline := endLine_space (List.cons_ne_nil 0x5B (cs ++ [0x5D])) hallowed
  have hend : endChars (0x5B :: (cs ++ [0x5D])) = 0x5B :: (cs ++ [0x5D] ++ [0x0A]) := by
    have := Lexer.endChars_quote (0x5B :: cs) (v := 0x5D) rfl
    simpa using this
  rw [hend] at hline
  rw [hopen, hclose, List.append_assoc, hbody, hchars]
  refine Eq.trans hline ?_
  rw [encodeAll_cons, encodeAll_cons, encodeAll_append _ [0x0A]]
  rfl

end Flow

/-! ### Values of one line -/

/-- Documents that are written in the line of their field. -/
inductive IsSimple : Document → Prop where
  | text (s : Bytes) : IsSimple (.text s)
  | word {w : Bytes} : IsWord w → IsSimple (.bare w)
  | flow (items : List Bytes) : IsSimple (.flow items)

theorem isSimple_integer (n : Int64) : IsSimple (.integer n) :=
  .word (isWord_ofInt64 n)

theorem isSimple_boolean (b : Bool) : IsSimple (.boolean b) :=
  .word (isWord_truth b)

/-- Documents with a property are told apart as values of fields at column `c`, whatever follows. -/
def Tells (good : Document → Prop) (c : Nat) : Prop :=
  ∀ ⦃d d' : Document⦄ ⦃r r' : Bytes⦄, good d → good d' → Behind (c + 1) r → Behind (c + 1) r' →
    writeValue 2 c d ++ r = writeValue 2 c d' ++ r' → shown d = shown d'

theorem lt_deeper (c : Nat) : c < deeper 2 c := by
  unfold deeper
  omega

section Simple

variable {c : Nat} {s w : Bytes} {items : List Bytes} {r r' : Bytes}

theorem writeValue_flow (c : Nat) (items : List Bytes) : writeValue 2 c (.flow items) =
    Bytes.space :: 0x5B :: (flowBody (deeper 2 (deeper 2 c)) items ++ [Bytes.lf]) := by
  rw [writeValue]
  exact endLine_flow _ items

theorem text_ne_flow : writeValue 2 c (.text s) ++ r ≠ writeValue 2 c (.flow items) ++ r' := by
  intro heq
  have hchars := congrArg Utf8.scalars heq
  have hspace : Bytes.space.toNat < 0x80 := by decide
  rw [writeValue, scalars_text, writeValue_flow, List.cons_append, List.cons_append,
    scalars_cons_of_ascii hspace, scalars_cons_of_ascii (by decide)] at hchars
  obtain ⟨v, ws, hv, hbracket, -⟩ := mark_or_plain (deeper 2 c) s (Utf8.scalars r)
  rw [hv] at hchars
  exact hbracket (List.cons.inj (List.cons.inj hchars).2).1

theorem word_ne_flow (hw : IsWord w) :
    writeValue 2 c (.bare w) ++ r ≠ writeValue 2 c (.flow items) ++ r' := by
  intro heq
  rw [writeValue, hw.endLine_eq, writeValue_flow] at heq
  obtain ⟨b, rest, rfl, hb⟩ := hw.begins
  rw [show b = 0x5B from (List.cons.inj (List.cons.inj heq).2).1] at hb
  exact hb (by decide)

/-- **Values of one line** are told apart. -/
theorem tells_simple (c : Nat) : Tells IsSimple c := by
  intro d d' r r' h h' hr hr' heq
  have hindent := lt_deeper c
  cases h with
  | text s =>
    cases h' with
    | text s' =>
      rw [writeValue, writeValue] at heq
      rw [shown, shown, text_inj (Nat.succ_pos c) hindent hr hr' heq]
    | word hw =>
      rw [writeValue, writeValue] at heq
      exact absurd heq (text_ne_word hw)
    | flow items => exact absurd heq text_ne_flow
  | @word w hw =>
    cases h' with
    | text s' =>
      rw [writeValue, writeValue] at heq
      exact absurd heq.symm (text_ne_word hw)
    | @word w' hw' =>
      rw [writeValue, writeValue, hw.endLine_eq, hw'.endLine_eq, List.cons_append,
        List.cons_append, List.append_assoc, List.append_assoc] at heq
      have hline := (List.cons.inj heq).2
      rw [(run_inj hw.ne_lf hw'.ne_lf (by simp) (by simp) hline).1]
    | flow items => exact absurd heq (word_ne_flow hw)
  | flow items =>
    cases h' with
    | text s' => exact absurd heq.symm text_ne_flow
    | word hw' => exact absurd heq.symm (word_ne_flow hw')
    | flow items' =>
      rw [writeValue_flow, writeValue_flow, List.cons_append, List.cons_append, List.cons_append,
        List.cons_append, List.append_assoc, List.append_assoc] at heq
      have hbody := (List.cons.inj (List.cons.inj heq).2).2
      have hdeep := lt_deeper (deeper 2 c)
      rw [flowBody_inj (by omega) hbody]

end Simple

/-! ### Records -/

/-- Is the text a name of a field, made of letters and underscores? -/
def isLabel (name : Bytes) : Bool :=
  !name.isEmpty && name.all fun b => 0x41 ≤ b && b ≤ 0x7A

/-- A field whose value has a property. -/
structure IsLabelled (good : Document → Prop) (f : Bytes × Document) : Prop where
  label : isLabel f.1 = true
  value : good f.2

section Fields

variable {good : Document → Prop} {c : Nat} {fields fields' : List (Bytes × Document)} {r r' : Bytes}

theorem toNat_of_mem_label {name : Bytes} (h : isLabel name = true) {b : UInt8} (hb : b ∈ name) :
    0x41 ≤ b.toNat ∧ b.toNat ≤ 0x7A := by
  rw [isLabel, Bool.and_eq_true] at h
  have hletter := List.all_eq_true.1 h.2 b hb
  simpa [UInt8.le_iff_toNat_le] using hletter

theorem exists_cons_of_isLabel {name : Bytes} (h : isLabel name = true) :
    ∃ b rest, name = b :: rest ∧ 0x41 ≤ b.toNat ∧ b.toNat ≤ 0x7A := by
  cases name with
  | nil => cases h
  | cons b rest => exact ⟨b, rest, rfl, toNat_of_mem_label h List.mem_cons_self⟩

/-- Labels end at the colon. -/
theorem label_inj {name name' : Bytes} (h : isLabel name = true) (h' : isLabel name' = true)
    (heq : name ++ 0x3A :: r = name' ++ 0x3A :: r') : name = name' ∧ r = r' := by
  have hcolon : ∀ {name : Bytes}, isLabel name = true → ∀ b ∈ name, (b != 0x3A) = true := by
    intro name h b hb
    rw [bne_iff_ne]
    rintro rfl
    exact absurd (toNat_of_mem_label h hb).1 (by decide)
  obtain ⟨hname, hrest⟩ := run_inj (hcolon h) (hcolon h') (by simp) (by simp) heq
  exact ⟨hname, (List.cons.inj hrest).2⟩

/-- The fields of a record on lines of their own. -/
theorem writeFields_cons (c : Nat) (f : Bytes × Document) (fields : List (Bytes × Document)) :
    writeFields 2 c false (f :: fields) = Bytes.blanks c ++ writeFields 2 c true (f :: fields) := by
  simp [writeFields]

theorem writeFields_dash (c : Nat) (f : Bytes × Document) (fields : List (Bytes × Document)) :
    writeFields 2 c true (f :: fields) ++ r =
      f.1 ++ 0x3A :: (writeValue 2 c f.2 ++ (writeFields 2 c false fields ++ r)) := by
  simp [writeFields]

/-- The further fields of a record stand behind the value of a field. -/
theorem behind_fields (h : ∀ f ∈ fields, IsLabelled good f) (hr : Behind c r) :
    Behind (c + 1) (writeFields 2 c false fields ++ r) := by
  cases fields with
  | nil => exact hr.mono (by omega)
  | cons f fields =>
    obtain ⟨b, rest, hname, hlo, hhi⟩ := exists_cons_of_isLabel (h f (by simp)).label
    rw [writeFields_cons, List.append_assoc, writeFields_dash, hname]
    exact .line (by omega) (by omega) (by omega)

/-- A record that is over does not go on with a field. -/
theorem writeFields_ne_behind {f : Bytes × Document} (h : IsLabelled good f) (hr : Behind c r) :
    writeFields 2 c false (f :: fields) ++ r' ≠ r := by
  rintro rfl
  obtain ⟨b, rest, hname, -⟩ := exists_cons_of_isLabel h.label
  rw [writeFields_cons, List.append_assoc, writeFields_dash, hname] at hr
  exact not_behind_blanks hr

/-- **Records** are told apart if their values are. -/
theorem writeFields_inj (hgood : Tells good c) (h : ∀ f ∈ fields, IsLabelled good f)
    (h' : ∀ f ∈ fields', IsLabelled good f) (hr : Behind c r) (hr' : Behind c r')
    (heq : writeFields 2 c false fields ++ r = writeFields 2 c false fields' ++ r') :
    shownFields fields = shownFields fields' := by
  induction fields generalizing fields' with
  | nil =>
    cases fields' with
    | nil => rfl
    | cons f' fields' => exact absurd heq.symm (writeFields_ne_behind (h' f' (by simp)) hr)
  | cons f fields ih =>
    cases fields' with
    | nil => exact absurd heq (writeFields_ne_behind (h f (by simp)) hr')
    | cons f' fields' =>
      have hrest : ∀ g ∈ fields, IsLabelled good g := fun g hg => h g (by simp [hg])
      have hrest' : ∀ g ∈ fields', IsLabelled good g := fun g hg => h' g (by simp [hg])
      rw [writeFields_cons, writeFields_cons, List.append_assoc, List.append_assoc,
        List.append_cancel_left_eq, writeFields_dash, writeFields_dash] at heq
      obtain ⟨hname, hvalue⟩ := label_inj (h f (by simp)).label (h' f' (by simp)).label heq
      have hshown : shown f.2 = shown f'.2 :=
        hgood (h f (by simp)).value (h' f' (by simp)).value (behind_fields hrest hr)
          (behind_fields hrest' hr') hvalue
      -- values that show the same are written alike, so what follows them is the same
      rw [← writeValue_shown c f.2, hshown, writeValue_shown] at hvalue
      rw [shownFields, shownFields, hname, hshown,
        ih hrest hrest' (List.append_cancel_left hvalue)]

end Fields

/-- Records of values of one line. -/
inductive IsRow : Document → Prop where
  | record {fields : List (Bytes × Document)} : fields ≠ [] →
      (∀ f ∈ fields, IsLabelled IsSimple f) → IsRow (.record fields)

theorem IsRow.single {name : Bytes} {d : Document} (hname : isLabel name = true) (h : IsSimple d) :
    IsRow (.record [(name, d)]) :=
  .record (List.cons_ne_nil _ _) (List.forall_mem_singleton.2 ⟨hname, h⟩)

theorem IsRow.cons {name : Bytes} {d : Document} {fields : List (Bytes × Document)}
    (hname : isLabel name = true) (h : IsSimple d) (hrest : IsRow (.record fields)) :
    IsRow (.record ((name, d) :: fields)) := by
  obtain ⟨-, hfields⟩ := hrest
  exact .record (List.cons_ne_nil _ _) (List.forall_mem_cons.2 ⟨⟨hname, h⟩, hfields⟩)

/-! ### Lists -/

section Items

variable {c : Nat} {d d' : Document} {items items' : List Document} {r r' : Bytes}

theorem writeItems_cons (c : Nat) (d : Document) (items : List Document) :
    writeItems 2 c (d :: items) ++ r =
      Bytes.blanks c ++ 0x2D :: (writeItem 2 c d ++ (writeItems 2 c items ++ r)) := by
  simp [writeItems]

theorem behind_items (hr : Behind c r) : Behind (c + 1) (writeItems 2 c items ++ r) := by
  cases items with
  | nil => exact hr.mono (by omega)
  | cons d items =>
    rw [writeItems_cons]
    exact .line (by omega) (by decide) (by decide)

theorem writeItem_inj (h : IsRow d) (h' : IsRow d') (hr : Behind (c + 1) r)
    (hr' : Behind (c + 1) r') (heq : writeItem 2 c d ++ r = writeItem 2 c d' ++ r') :
    shown d = shown d' := by
  obtain @⟨fields, hne, h⟩ := h
  obtain @⟨fields', hne', h'⟩ := h'
  obtain ⟨f, fields, rfl⟩ := List.exists_cons_of_ne_nil hne
  obtain ⟨f', fields', rfl⟩ := List.exists_cons_of_ne_nil hne'
  rw [writeItem, writeItem, List.cons_append, List.cons_append] at heq
  -- the first field stands behind the dash, where the others have blanks
  have hlines := congrArg (Bytes.blanks (c + 2) ++ ·) (List.cons.inj heq).2
  rw [← List.append_assoc, ← List.append_assoc, ← writeFields_cons, ← writeFields_cons] at hlines
  rw [shown, shown, writeFields_inj (tells_simple (c + 2)) h h' (hr.mono (by omega))
    (hr'.mono (by omega)) hlines]

/-- **Lists of records** are told apart. -/
theorem writeItems_inj (h : ∀ d ∈ items, IsRow d) (h' : ∀ d ∈ items', IsRow d) (hr : Behind c r)
    (hr' : Behind c r') (heq : writeItems 2 c items ++ r = writeItems 2 c items' ++ r') :
    shownItems items = shownItems items' := by
  induction items generalizing items' with
  | nil =>
    cases items' with
    | nil => rfl
    | cons d' items' =>
      rw [writeItems_cons, show writeItems 2 c [] ++ r = r from rfl] at heq
      rw [heq] at hr
      exact absurd hr not_behind_blanks
  | cons d items ih =>
    cases items' with
    | nil =>
      rw [writeItems_cons, show writeItems 2 c [] ++ r' = r' from rfl] at heq
      rw [← heq] at hr'
      exact absurd hr' not_behind_blanks
    | cons d' items' =>
      rw [writeItems_cons, writeItems_cons, List.append_cancel_left_eq] at heq
      have hitem := (List.cons.inj heq).2
      have hshown : shown d = shown d' :=
        writeItem_inj (h d (by simp)) (h' d' (by simp)) (behind_items hr) (behind_items hr') hitem
      rw [← writeItem_shown c d, hshown, writeItem_shown] at hitem
      rw [shownItems, shownItems, hshown, ih (fun x hx => h x (by simp [hx]))
        (fun x hx => h' x (by simp [hx])) (List.append_cancel_left hitem)]

end Items

/-! ### Documents -/

/-- The values of fields at the outermost level. -/
inductive IsValue : Document → Prop where
  | simple {d : Document} : IsSimple d → IsValue d
  | row {d : Document} : IsRow d → IsValue d
  | list {items : List Document} : items ≠ [] → (∀ d ∈ items, IsRow d) → IsValue (.list items)

section Values

variable {c : Nat} {d d' : Document} {items : List Document} {r r' : Bytes}

theorem IsSimple.exists_cons (h : IsSimple d) (c : Nat) :
    ∃ rest, writeValue 2 c d = Bytes.space :: rest := by
  cases h with
  | text s =>
    rw [writeValue, endLine_text]
    exact ⟨_, rfl⟩
  | word hw =>
    rw [writeValue, hw.endLine_eq]
    exact ⟨_, rfl⟩
  | flow items => exact ⟨_, writeValue_flow c items⟩

theorem IsRow.exists_cons (h : IsRow d) (c : Nat) : ∃ b rest, 0x41 ≤ b.toNat ∧
    writeValue 2 c d ++ r = Bytes.lf :: (Bytes.blanks (deeper 2 c) ++ b :: rest) := by
  obtain @⟨fields, hne, h⟩ := h
  obtain ⟨f, fields, rfl⟩ := List.exists_cons_of_ne_nil hne
  obtain ⟨b, rest, hname, hlo, -⟩ := exists_cons_of_isLabel (h f (by simp)).label
  rw [writeValue, writeFields_cons, List.cons_append, List.append_assoc, writeFields_dash, hname]
  exact ⟨b, _, hlo, rfl⟩

theorem writeValue_list_eq (hne : items ≠ []) (c : Nat) :
    writeValue 2 c (.list items) = Bytes.lf :: writeItems 2 (deeper 2 c) items := by
  obtain ⟨d, items, rfl⟩ := List.exists_cons_of_ne_nil hne
  rw [writeValue]

theorem simple_ne (h : IsSimple d) {rest : Bytes} : writeValue 2 c d ++ r ≠ Bytes.lf :: rest := by
  intro heq
  obtain ⟨tail, htail⟩ := h.exists_cons c
  rw [htail] at heq
  exact absurd (List.cons.inj heq).1 (by decide)

theorem row_ne_list (h : IsRow d) (hne : items ≠ []) :
    writeValue 2 c d ++ r ≠ writeValue 2 c (.list items) ++ r' := by
  intro heq
  obtain ⟨b, rest, hlo, hrow⟩ := h.exists_cons (r := r) c
  obtain ⟨x, items, rfl⟩ := List.exists_cons_of_ne_nil hne
  rw [hrow, writeValue_list_eq hne, List.cons_append, writeItems_cons] at heq
  have hdash : b = 0x2D := (List.cons.inj (List.append_cancel_left (List.cons.inj heq).2)).1
  rw [hdash] at hlo
  exact absurd hlo (by decide)

/-- **Records of one line each** are told apart. -/
theorem row_inj (h : IsRow d) (h' : IsRow d') (hr : Behind (c + 1) r) (hr' : Behind (c + 1) r')
    (heq : writeValue 2 c d ++ r = writeValue 2 c d' ++ r') : shown d = shown d' := by
  obtain @⟨fields, hne, h⟩ := h
  obtain @⟨fields', hne', h'⟩ := h'
  obtain ⟨f, fields, rfl⟩ := List.exists_cons_of_ne_nil hne
  obtain ⟨f', fields', rfl⟩ := List.exists_cons_of_ne_nil hne'
  rw [writeValue, writeValue, List.cons_append, List.cons_append] at heq
  have hindent := lt_deeper c
  rw [shown, shown, writeFields_inj (tells_simple (deeper 2 c)) h h' (hr.mono hindent)
    (hr'.mono hindent) (List.cons.inj heq).2]

/-- **Values of fields** are told apart. -/
theorem tells_value (c : Nat) : Tells IsValue c := by
  intro d d' r r' h h' hr hr' heq
  have hindent := lt_deeper c
  cases h with
  | simple h =>
    cases h' with
    | simple h' => exact tells_simple c h h' hr hr' heq
    | row h' =>
      obtain ⟨b, rest, -, hrow⟩ := h'.exists_cons (r := r') c
      exact absurd (heq.trans hrow) (simple_ne h)
    | list hne' =>
      rw [writeValue_list_eq hne'] at heq
      exact absurd heq (simple_ne h)
  | row h =>
    cases h' with
    | simple h' =>
      obtain ⟨b, rest, -, hrow⟩ := h.exists_cons (r := r) c
      exact absurd (heq.symm.trans hrow) (simple_ne h')
    | row h' => exact row_inj h h' hr hr' heq
    | list hne' => exact absurd heq (row_ne_list h hne')
  | list hne h =>
    cases h' with
    | simple h' =>
      rw [writeValue_list_eq hne] at heq
      exact absurd heq.symm (simple_ne h')
    | row h' => exact absurd heq.symm (row_ne_list h' hne)
    | list hne' h' =>
      rw [writeValue_list_eq hne, writeValue_list_eq hne', List.cons_append,
        List.cons_append] at heq
      rw [shown, shown, writeItems_inj h h' (hr.mono hindent) (hr'.mono hindent)
        (List.cons.inj heq).2]

end Values

/-- **Documents are written alike** exactly if they show the same. -/
theorem write_eq_write_iff {fields fields' : List (Bytes × Document)}
    (h : ∀ f ∈ fields, IsLabelled IsValue f) (h' : ∀ f ∈ fields', IsLabelled IsValue f) :
    write 2 fields = write 2 fields' ↔ shownFields fields = shownFields fields' := by
  unfold write
  constructor
  · intro heq
    exact writeFields_inj (tells_value 0) h h' .nil .nil (congrArg (· ++ []) heq)
  · intro heq
    rw [← writeFields_shown 0 false fields, heq, writeFields_shown]

end ForthFrontend.Yaml.Document
