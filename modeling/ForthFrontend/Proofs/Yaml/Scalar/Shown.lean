import ForthFrontend.Proofs.Yaml.Token.Style

/-!
# What a written text shows

A text can be told from how it is written, with one exception. The line breaks at the beginning of a
literal block are written right behind the header, so the first of them takes the place of the line
break that ends the header. The header of a text that begins with a line feed and a space is also
that of the text without the line feed: both say how far the lines are indented.

Reading cannot be used here, because a literal block that begins with a tab is written but cannot be
read.

## Main definitions

* `Yaml.Outdented`: what may stand behind the lines of a block.
* `Yaml.Scalar.settle`: the values that a literal block shows.
* `Yaml.Scalar.shown`: the text that a scalar shows.

## Main results

* `Yaml.WholeLines.lineChars_inj`: the lines of a block show their values.
* `Yaml.Scalar.shown_eq_of_chars_eq`: texts outside flow collections that are written alike show the
  same.
* `Yaml.Scalar.eq_of_chars_eq_inFlow`: texts in flow collections that are written alike are equal.
* `Yaml.Scalar.write_shown`: what a text shows is written like the text.
-/

namespace ForthFrontend.Yaml

open Utf8 (IsScalar)

/-- Runs of elements with a property are told apart by what follows them. -/
theorem run_inj {α : Type} {p : α → Bool} {run run' rest rest' : List α}
    (hrun : ∀ v ∈ run, p v = true) (hrun' : ∀ v ∈ run', p v = true)
    (hrest : ∀ v ∈ rest.head?, p v = false) (hrest' : ∀ v ∈ rest'.head?, p v = false)
    (h : run ++ rest = run' ++ rest') : run = run' ∧ rest = rest' := by
  have hsame : run = run' := by
    rw [← takeWhile_run hrun hrest, h, takeWhile_run hrun' hrest']
  subst hsame
  exact ⟨rfl, List.append_cancel_left h⟩

/-! ### Lines -/

/-- What may stand behind the lines of a block: the end, or a line that is indented less. -/
def Outdented (indent : Nat) (r : List Nat) : Prop :=
  ∃ col < indent, ∃ t, r = List.replicate col 0x20 ++ t ∧ Stops t

/-- The values of whole lines. The first line may have begun before, and then it has to end. -/
inductive WholeLines : Bool → List Nat → Prop where
  | nil : WholeLines true []
  | ended {fresh : Bool} {v : Nat} {vs : List Nat} : isBreak v = true → WholeLines true vs →
      WholeLines fresh (v :: vs)
  | within {fresh : Bool} {v : Nat} {vs : List Nat} : isBreak v = false → WholeLines false vs →
      WholeLines fresh (v :: vs)

theorem wholeLines_of_getLast? {fresh : Bool} {vs : List Nat} (hne : vs = [] → fresh = true)
    (h : ∀ v ∈ vs.getLast?, isBreak v = true) : WholeLines fresh vs := by
  induction vs generalizing fresh with
  | nil =>
    rw [hne rfl]
    exact .nil
  | cons v vs ih =>
    have hrest : ∀ w ∈ vs.getLast?, isBreak w = true := by
      intro w hw
      refine h w ?_
      rw [List.getLast?_cons, Option.mem_def.1 hw]
      rfl
    by_cases hv : isBreak v = true
    · exact .ended hv (ih (fun _ => rfl) hrest)
    · refine .within (by simpa using hv) (ih ?_ hrest)
      rintro rfl
      exact absurd (h v rfl) hv

section Lines

variable {indent : Nat} {fresh : Bool} {v : Nat} {vs vs' r r' : List Nat}

theorem lineChars_break (hv : isBreak v = true) :
    lineChars indent fresh (v :: vs) = v :: lineChars indent true vs := by
  simp [lineChars, Scalar.indentChars, hv]

theorem lineChars_of_not_break (hv : isBreak v = false) :
    lineChars indent fresh (v :: vs) =
      (if fresh then List.replicate indent 0x20 else []) ++ v :: lineChars indent false vs := by
  simp [lineChars, Scalar.indentChars, hv]

/-- A block goes on with a line break or with as many blanks as its lines have. -/
theorem not_outdented_lineChars : ¬ Outdented indent (lineChars indent true (v :: vs) ++ r) := by
  rintro ⟨col, hcol, t, heq, ht⟩
  by_cases hv : isBreak v = true
  · rw [lineChars_break hv] at heq
    cases col with
    | zero =>
      rw [List.replicate_zero, List.nil_append] at heq
      subst heq
      rw [(stops_cons.1 ht).2] at hv
      cases hv
    | succ col =>
      have hspace : v = 0x20 := (List.cons.inj heq).1
      subst hspace
      cases hv
  · obtain ⟨k, rfl⟩ : ∃ k, indent = col + (k + 1) := ⟨indent - col - 1, by omega⟩
    rw [lineChars_of_not_break (by simpa using hv), if_pos rfl,
      ← List.replicate_append_replicate, List.replicate_succ, List.append_assoc, List.append_assoc,
      List.append_cancel_left_eq] at heq
    subst heq
    cases (stops_cons.1 ht).1

/-- Where one block ends a line, another one that goes on in the line differs. -/
theorem lineChars_break_ne {w : Nat} {ws : List Nat} (hindent : 0 < indent)
    (hv : isBreak v = true) (hw : isBreak w = false) :
    lineChars indent fresh (v :: vs) ++ r ≠ lineChars indent fresh (w :: ws) ++ r' := by
  intro heq
  obtain ⟨k, rfl⟩ : ∃ k, indent = k + 1 := ⟨indent - 1, by omega⟩
  rw [lineChars_break hv, lineChars_of_not_break hw] at heq
  cases fresh with
  | true =>
    have hspace : v = 0x20 := (List.cons.inj heq).1
    subst hspace
    cases hv
  | false =>
    have hvw : v = w := (List.cons.inj heq).1
    rw [hvw, hw] at hv
    cases hv

/-- **The lines of a block** show their values. -/
theorem WholeLines.lineChars_inj (hindent : 0 < indent) (h : WholeLines fresh vs)
    (h' : WholeLines fresh vs') (hr : Outdented indent r) (hr' : Outdented indent r')
    (heq : lineChars indent fresh vs ++ r = lineChars indent fresh vs' ++ r') : vs = vs' := by
  induction h generalizing vs' with
  | nil =>
    cases vs' with
    | nil => rfl
    | cons w ws =>
      rw [show r = lineChars indent true (w :: ws) ++ r' from heq] at hr
      exact absurd hr not_outdented_lineChars
  | @ended fresh v vs hv _ ih =>
    cases h' with
    | nil =>
      rw [show r' = lineChars indent true (v :: vs) ++ r from heq.symm] at hr'
      exact absurd hr' not_outdented_lineChars
    | @ended _ w ws hw h' =>
      rw [lineChars_break hv, lineChars_break hw] at heq
      obtain ⟨rfl, htail⟩ := List.cons.inj heq
      rw [ih h' htail]
    | within hw => exact absurd heq (lineChars_break_ne hindent hv hw)
  | @within fresh v vs hv _ ih =>
    cases h' with
    | nil =>
      rw [show r' = lineChars indent true (v :: vs) ++ r from heq.symm] at hr'
      exact absurd hr' not_outdented_lineChars
    | ended hw => exact absurd heq.symm (lineChars_break_ne hindent hw hv)
    | @within _ w ws hw h' =>
      rw [lineChars_of_not_break hv, lineChars_of_not_break hw, List.append_assoc,
        List.append_assoc, List.append_cancel_left_eq] at heq
      obtain ⟨rfl, htail⟩ := List.cons.inj heq
      rw [ih h' htail]

end Lines

namespace Scalar

/-! ### Literal blocks -/

/-- The values that a literal block shows: whether a line feed stands before a first line that
begins with a space is not seen. -/
def settle (vs : List Nat) : List Nat :=
  if vs.head? = some 0x0A ∧ vs.tail.head? = some 0x20 ∧ 0x0A ∈ vs.tail then vs.tail else vs

theorem settle_of_head? {vs : List Nat} (h : vs.head? ≠ some 0x0A) : settle vs = vs :=
  if_neg fun hlost => h hlost.1

theorem chompOf_eq_strip_iff (vs : List Nat) :
    chompOf vs = .strip ↔ vs.getLast?.any isBreak = false := by
  rcases List.eq_nil_or_concat vs with rfl | ⟨u, v, rfl⟩
  · simp [chompOf]
  · rcases List.eq_nil_or_concat u with rfl | ⟨u, w, rfl⟩
    · cases hv : isBreak v <;> simp [chompOf, hv]
    · cases hv : isBreak v <;> cases hw : isBreak w <;> simp [chompOf, hv, hw]

/-- What the header says about the end of a text tells whether a line feed was added there. -/
theorem eq_of_endChars_eq {vs vs' : List Nat} (hchomp : chompOf vs = chompOf vs')
    (h : endChars vs = endChars vs') : vs = vs' := by
  have hiff : vs.getLast?.any isBreak = false ↔ vs'.getLast?.any isBreak = false := by
    rw [← chompOf_eq_strip_iff, ← chompOf_eq_strip_iff, hchomp]
  have hlast : vs.getLast?.any isBreak = vs'.getLast?.any isBreak := by
    rw [Bool.eq_iff_iff, ← Bool.not_eq_false, ← Bool.not_eq_false, hiff]
  unfold endChars at h
  rw [hlast] at h
  split at h
  · exact h
  · exact List.append_cancel_right h

theorem headerChars_inj {vs vs' : List Nat} (h : headerChars 2 vs = headerChars 2 vs') :
    isHinted vs = isHinted vs' ∧ chompOf vs = chompOf vs' := by
  rw [headerChars_eq, headerChars_eq] at h
  revert h
  generalize isHinted vs = hinted, isHinted vs' = hinted', chompOf vs = chomp,
    chompOf vs' = chomp'
  cases hinted <;> cases hinted' <;> cases chomp <;> cases chomp' <;> simp [chompChars]

theorem not_isBreak_of_mem_headerChars {vs : List Nat} :
    ∀ v ∈ headerChars 2 vs, (!isBreak v) = true := by
  rw [headerChars_eq]
  cases isHinted vs <;> cases chompOf vs <;> decide

theorem isBreak_headerBreak (vs : List Nat) : isBreak (headerBreak vs) = true := by
  unfold headerBreak
  cases h : vs.head?.filter isBreak with
  | none => rfl
  | some v => exact (Option.filter_eq_some_iff.1 h).2

/-- The lines of a block that loses a line break are those of the block without it, if the two
headers are alike. -/
theorem settle_of_lost {vs vs' : List Nat} (hlf : 0x0A ∈ vs') (hhint : isHinted vs = isHinted vs')
    (hchomp : chompOf vs = chompOf vs') (hbreak : headerBreak vs = headerBreak vs')
    (hlines : readBack (endChars vs) = readBack (endChars vs'))
    (h : vs.head?.any isBreak = true) (h' : vs'.head?.any isBreak = false) :
    settle vs = vs' ∧ settle vs' = vs' := by
  obtain ⟨v, ws, rfl⟩ := List.exists_cons_of_ne_nil (show vs ≠ [] by rintro rfl; cases h)
  obtain ⟨w, ws', rfl⟩ := List.exists_cons_of_ne_nil (List.ne_nil_of_mem hlf)
  have hv : isBreak v = true := h
  have hw : isBreak w = false := h'
  have hspace : w = 0x20 := by simpa [isHinted, hv, hw] using hhint
  have hfeed : v = 0x0A := by simpa [headerBreak, Option.filter, hv, hw] using hbreak
  subst hspace hfeed
  obtain ⟨us, hus⟩ := exists_endChars 0x0A ws
  obtain ⟨us', hus'⟩ := exists_endChars 0x20 ws'
  have hcons := endChars_append (List.cons_ne_nil 0x20 ws') [0x0A]
  rw [List.singleton_append, List.singleton_append] at hcons
  rw [hus, hus', readBack_cons, readBack_cons, if_pos hv, if_neg (by simp [hw])] at hlines
  have hsame : 0x0A :: ws = 0x0A :: 0x20 :: ws' := by
    refine eq_of_endChars_eq ?_ ?_
    · rw [hchomp, chompOf_cons rfl (List.cons_ne_nil 0x20 ws')]
    · rw [hus, hlines, hcons, hus']
  rw [hsame]
  exact ⟨if_pos ⟨rfl, rfl, hlf⟩, settle_of_head? (by simp)⟩

theorem wholeLines_readBack_endChars (vs : List Nat) :
    WholeLines true (readBack (endChars vs)) := by
  refine wholeLines_of_getLast? (fun _ => rfl) fun v hv => ?_
  obtain ⟨w, hw, hbreak⟩ := getLast?_endChars vs
  unfold readBack at hv
  split at hv
  · rw [List.getLast?_tail] at hv
    split at hv
    · cases hv
    · rw [hw] at hv
      cases hv
      exact hbreak
  · rw [hw] at hv
    cases hv
    exact hbreak

/-- **A literal block** shows its values, but for one line feed. -/
theorem settle_eq_of_literalChars_eq {indent : Nat} (hindent : 0 < indent) {vs vs' r r' : List Nat}
    (hlf : 0x0A ∈ vs) (hlf' : 0x0A ∈ vs') (hr : Outdented indent r) (hr' : Outdented indent r')
    (heq : endChars (literalChars ⟨false, indent, 2⟩ vs) ++ r =
      endChars (literalChars ⟨false, indent, 2⟩ vs') ++ r') : settle vs = settle vs' := by
  rw [endChars_literalChars indent (List.ne_nil_of_mem hlf),
    endChars_literalChars indent (List.ne_nil_of_mem hlf'), List.append_assoc, List.append_assoc,
    List.cons_append, List.cons_append] at heq
  obtain ⟨hheader, hrest⟩ := run_inj not_isBreak_of_mem_headerChars not_isBreak_of_mem_headerChars
    (by simp [isBreak_headerBreak]) (by simp [isBreak_headerBreak]) heq
  obtain ⟨hhint, hchomp⟩ := headerChars_inj hheader
  obtain ⟨hbreak, hrest⟩ := List.cons.inj hrest
  have hlines : readBack (endChars vs) = readBack (endChars vs') :=
    (wholeLines_readBack_endChars vs).lineChars_inj hindent (wholeLines_readBack_endChars vs') hr
      hr' hrest
  obtain ⟨v, ws, rfl⟩ := List.exists_cons_of_ne_nil (List.ne_nil_of_mem hlf)
  obtain ⟨w, ws', rfl⟩ := List.exists_cons_of_ne_nil (List.ne_nil_of_mem hlf')
  obtain ⟨us, hus⟩ := exists_endChars v ws
  obtain ⟨us', hus'⟩ := exists_endChars w ws'
  cases hv : isBreak v with
  | true =>
    cases hw : isBreak w with
    | true =>
      have hvw : v = w := by simpa [headerBreak, Option.filter, hv, hw] using hbreak
      rw [hus, hus', readBack_cons, readBack_cons, if_pos hv, if_pos hw] at hlines
      rw [eq_of_endChars_eq hchomp (by rw [hus, hus', hvw, hlines])]
    | false =>
      obtain ⟨hleft, hright⟩ := settle_of_lost hlf' hhint hchomp hbreak hlines hv hw
      rw [hleft, hright]
  | false =>
    cases hw : isBreak w with
    | true =>
      obtain ⟨hright, hleft⟩ :=
        settle_of_lost hlf hhint.symm hchomp.symm hbreak.symm hlines.symm hw hv
      rw [hleft, hright]
    | false =>
      rw [hus, hus', readBack_cons, readBack_cons, if_neg (by simp [hv]),
        if_neg (by simp [hw])] at hlines
      rw [eq_of_endChars_eq hchomp (by rw [hus, hus', hlines])]

/-! ### Styles -/

/-- The values that can be written in a style. -/
inductive Holds (inFlow : Bool) (vs : List Nat) : Style → Prop where
  | plain : vs ≠ [] → plainAllowed inFlow vs = true → Holds inFlow vs .plain
  | single : 0x0A ∉ vs → singleAllowed vs = true → Holds inFlow vs .single
  | double : (∀ v ∈ vs, IsScalar v) → Holds inFlow vs .double
  | literal : inFlow = false → 0x0A ∈ vs → Holds inFlow vs .literal

theorem holds_style {inFlow loose : Bool} {s : Bytes} (hs : ∀ v ∈ Utf8.scalars s, IsScalar v)
    (hne : style inFlow loose s = .plain → Utf8.scalars s ≠ []) :
    Holds inFlow (Utf8.scalars s) (style inFlow loose s) := by
  rcases style_cases inFlow loose s with
    ⟨hst, hlf, hflow, -⟩ | ⟨hst, -, -, hallowed⟩ | ⟨hst, hlf, hallowed⟩ | hst
  · rw [hst]
    exact .literal hflow hlf
  · have := hne hst
    rw [hst]
    exact .plain this hallowed
  · rw [hst]
    exact .single hlf hallowed
  · rw [hst]
    exact .double hs

/-- The characters that a scalar in a style can begin with. -/
def Opens : Style → Nat → Prop
  | .plain, v => v ∉ leadingIndicators
  | .single, v => v = 0x27
  | .double, v => v = 0x22
  | .literal, v => v = 0x7C
  | .folded, _ => False

/-- The first character of a scalar shows its style. -/
theorem Opens.unique {st st' : Style} {v : Nat} (h : Opens st v) (h' : Opens st' v) : st = st' := by
  have hmarks : 0x27 ∈ leadingIndicators ∧ 0x22 ∈ leadingIndicators ∧
      0x7C ∈ leadingIndicators := by decide
  cases st <;> cases st' <;> simp_all [Opens]

/-- No scalar in a style begins like a tag or a flow collection. -/
theorem Opens.not_mark {st : Style} {v : Nat} (h : Opens st v) :
    v ≠ 0x21 ∧ v ≠ 0x5B ∧ v ≠ 0x5D := by
  have hmarks : 0x21 ∈ leadingIndicators ∧ 0x5B ∈ leadingIndicators ∧
      0x5D ∈ leadingIndicators := by decide
  cases st with
  | plain =>
    refine ⟨?_, ?_, ?_⟩
    · rintro rfl
      exact h hmarks.1
    · rintro rfl
      exact h hmarks.2.1
    · rintro rfl
      exact h hmarks.2.2
  | folded => exact h.elim
  | _ =>
    rw [show v = _ from h]
    decide

theorem Holds.opens {inFlow : Bool} {vs : List Nat} {st : Style} (h : Holds inFlow vs st)
    (place : Place) : ∃ v ws, charsIn place vs st = v :: ws ∧ Opens st v := by
  cases h with
  | plain hne hallowed =>
    obtain ⟨v, ws, rfl⟩ := List.exists_cons_of_ne_nil hne
    refine ⟨v, ws, rfl, ?_⟩
    simp only [plainAllowed, badStart, Bool.not_eq_true', Bool.or_eq_false_iff] at hallowed
    simpa [Opens] using hallowed.1.2.1.1
  | single => exact ⟨0x27, _, rfl, rfl⟩
  | double => exact ⟨0x22, _, rfl, rfl⟩
  | literal => exact ⟨0x7C, _, rfl, rfl⟩

/-- The characters behind a scalar: the line feed that ends its line, or in a flow collection the
comma or the bracket. -/
def closes (inFlow : Bool) (v : Nat) : Bool :=
  if inFlow then v == 0x2C || v == 0x5D else v == 0x0A

theorem closes_of_plainAllowed {inFlow : Bool} {vs : List Nat}
    (h : plainAllowed inFlow vs = true) : ∀ v ∈ vs, closes inFlow v = false := by
  intro v hv
  cases inFlow with
  | false =>
    have hbreak := ((isPlain_of_plainAllowed h).solid v hv).1
    simp only [isBreak, Bool.or_eq_false_iff] at hbreak
    exact hbreak.1.1.1.1
  | true =>
    have hleading : 0x2C ∈ leadingIndicators ∧ 0x5D ∈ leadingIndicators := by decide
    have hflow : 0x2C ∈ flowIndicators ∧ 0x5D ∈ flowIndicators := by decide
    simp only [plainAllowed, Bool.not_eq_true', Bool.or_eq_false_iff] at h
    obtain ⟨⟨-, hstart⟩, hinside⟩ := h
    refine Bool.eq_false_iff.2 fun hcloses => ?_
    have hmark : v = 0x2C ∨ v = 0x5D := by simpa [closes] using hcloses
    obtain ⟨a, b, rfl⟩ := List.append_of_mem hv
    rcases List.eq_nil_or_concat a with rfl | ⟨a, prev, rfl⟩
    · simp only [badStart, List.nil_append, Bool.or_eq_false_iff] at hstart
      rcases hmark with rfl | rfl
      · simp [hleading] at hstart
      · simp [hleading] at hstart
    · have hbad : badInside true prev v b.head? = false :=
        badInside_of_anyBadInside hinside (a := a) (by simp)
      simp only [badInside, Bool.or_eq_false_iff] at hbad
      rcases hmark with rfl | rfl
      · simp [hflow] at hbad
      · simp [hflow] at hbad

/-- The reader finds one text between quotes. -/
theorem eq_of_readQuoted {n : Nat} {single : Bool} {c : Cursor} {vs vs' r r' : List Nat}
    (h : ∃ t, readQuoted n single c = .ok t ∧ t.text.reverse = vs ∧ t.cursor.rest = r)
    (h' : ∃ t, readQuoted n single c = .ok t ∧ t.text.reverse = vs' ∧ t.cursor.rest = r') :
    vs = vs' := by
  obtain ⟨t, hread, rfl, -⟩ := h
  obtain ⟨t', hread', rfl, -⟩ := h'
  rw [hread] at hread'
  cases hread'
  rfl

/-- **A scalar that is no block** shows its values. -/
theorem Holds.charsIn_inj {place : Place} (hindent : 0 < place.indent) {vs vs' r r' : List Nat}
    {st : Style} (h : Holds place.inFlow vs st) (h' : Holds place.inFlow vs' st)
    (hst : st ≠ .literal) (hr : ∃ v t, r = v :: t ∧ closes place.inFlow v = true)
    (hr' : ∃ v t, r' = v :: t ∧ closes place.inFlow v = true)
    (heq : charsIn place vs st ++ r = charsIn place vs' st ++ r') : vs = vs' := by
  obtain ⟨v, t, rfl, hv⟩ := hr
  obtain ⟨v', t', rfl, hv'⟩ := hr'
  cases h with
  | plain _ hallowed =>
    cases h' with
    | plain _ hallowed' =>
      refine (run_inj (p := fun v => !closes place.inFlow v) ?_ ?_ ?_ ?_ heq).1
      · intro w hw
        rw [closes_of_plainAllowed hallowed w hw]
        rfl
      · intro w hw
        rw [closes_of_plainAllowed hallowed' w hw]
        rfl
      · simp [hv]
      · simp [hv']
  | single hlf hallowed =>
    cases h' with
    | single hlf' hallowed' =>
      have hquote : ∀ {w : Nat} {t : List Nat}, closes place.inFlow w = true →
          (w :: t).head? ≠ some 0x27 := by
        intro w t hw hquote
        cases hquote
        cases hflow : place.inFlow <;> simp [closes, hflow] at hw
      simp only [charsIn, List.append_assoc, List.singleton_append] at heq
      exact eq_of_readQuoted (c := ⟨_, {}, 0⟩)
        (readQuoted_single (isSingle_of_singleAllowed hallowed hlf) hindent (hquote hv) rfl
          (Nat.le_refl _))
        (readQuoted_single (isSingle_of_singleAllowed hallowed' hlf') hindent (hquote hv') heq
          (Nat.le_refl _))
  | double hs =>
    cases h' with
    | double hs' =>
      simp only [charsIn, List.append_assoc, List.singleton_append] at heq
      exact eq_of_readQuoted (c := ⟨_, {}, 0⟩) (readQuoted_double hs rfl (Nat.le_refl _))
        (readQuoted_double hs' heq (Nat.le_refl _))
  | literal => exact absurd rfl hst

/-- The characters of a scalar with its end: outside flow collections the end of its line belongs to
it. -/
def ended (inFlow : Bool) (cs : List Nat) : List Nat :=
  if inFlow then cs else endChars cs

/-- What may stand behind a scalar. -/
def Follows (inFlow : Bool) (indent : Nat) (r : List Nat) : Prop :=
  if inFlow then ∃ v t, r = v :: t ∧ closes true v = true else Outdented indent r

theorem ended_append (inFlow : Bool) {cs : List Nat} (hne : cs ≠ []) (ws : List Nat) :
    ended inFlow (ws ++ cs) = ws ++ ended inFlow cs := by
  cases inFlow with
  | false => exact endChars_append hne ws
  | true => rfl

theorem exists_ended (inFlow : Bool) (v : Nat) (vs : List Nat) :
    ∃ ws, ended inFlow (v :: vs) = v :: ws := by
  cases inFlow with
  | false => exact exists_endChars v vs
  | true => exact ⟨vs, rfl⟩

section Ended

variable {inFlow : Bool} {indent : Nat} {vs vs' r r' : List Nat} {st st' : Style}

theorem Holds.endChars_charsIn (h : Holds false vs st) (hst : st ≠ .literal) (place : Place) :
    endChars (charsIn place vs st) = charsIn place vs st ++ [0x0A] := by
  refine if_neg ?_
  cases h with
  | plain hne hallowed =>
    have hlast := (isPlain_of_plainAllowed hallowed).solid _ (List.getLast_mem hne)
    rw [charsIn, List.getLast?_eq_some_getLast hne]
    simp [hlast.1]
  | single =>
    rw [charsIn, List.getLast?_concat]
    decide
  | double =>
    rw [show charsIn place vs .double = 0x22 :: vs.flatMap doubleChars ++ [0x22] from rfl,
      List.getLast?_concat]
    decide
  | literal => exact absurd rfl hst

theorem Holds.exists_closed (h : Holds inFlow vs st) (hst : st ≠ .literal)
    (hr : Follows inFlow indent r) (place : Place) :
    ∃ v t, ended inFlow (charsIn place vs st) ++ r = charsIn place vs st ++ v :: t ∧
      closes inFlow v = true := by
  cases inFlow with
  | false =>
    refine ⟨0x0A, r, ?_, rfl⟩
    rw [show ended false _ = _ from h.endChars_charsIn hst place]
    simp
  | true =>
    obtain ⟨v, t, rfl, hv⟩ := hr
    exact ⟨v, t, rfl, hv⟩

/-- **A scalar in its style** shows the style and the values, but for a line feed before a block. -/
theorem Holds.ended_inj (hindent : 0 < indent) (h : Holds inFlow vs st) (h' : Holds inFlow vs' st')
    (hr : Follows inFlow indent r) (hr' : Follows inFlow indent r')
    (heq : ended inFlow (charsIn ⟨inFlow, indent, 2⟩ vs st) ++ r =
      ended inFlow (charsIn ⟨inFlow, indent, 2⟩ vs' st') ++ r') :
    st = st' ∧ (st ≠ .literal → vs = vs') ∧ (st = .literal → settle vs = settle vs') := by
  have hstyle : st = st' := by
    obtain ⟨v, ws, hchars, hopens⟩ := h.opens ⟨inFlow, indent, 2⟩
    obtain ⟨v', ws', hchars', hopens'⟩ := h'.opens ⟨inFlow, indent, 2⟩
    obtain ⟨us, hus⟩ := exists_ended inFlow v ws
    obtain ⟨us', hus'⟩ := exists_ended inFlow v' ws'
    rw [hchars, hchars', hus, hus'] at heq
    rw [(List.cons.inj heq).1] at hopens
    exact hopens.unique hopens'
  subst hstyle
  refine ⟨rfl, fun hst => ?_, fun hst => ?_⟩
  · obtain ⟨v, t, hv, hclose⟩ := h.exists_closed hst hr ⟨inFlow, indent, 2⟩
    obtain ⟨v', t', hv', hclose'⟩ := h'.exists_closed hst hr' ⟨inFlow, indent, 2⟩
    rw [hv, hv'] at heq
    exact h.charsIn_inj hindent h' hst ⟨v, t, rfl, hclose⟩ ⟨v', t', rfl, hclose'⟩ heq
  · subst hst
    cases h with
    | literal hflow hlf =>
      cases h' with
      | literal _ hlf' =>
        subst hflow
        exact settle_eq_of_literalChars_eq hindent hlf hlf' hr hr' heq

end Ended

/-! ### Texts -/

theorem holds_of_isValid {s : Bytes} (hvalid : Utf8.isValid s = true) (inFlow : Bool) :
    Holds inFlow (Utf8.scalars s) (style inFlow (!needsQuotes s) s) :=
  holds_style (fun _ hv => Utf8.isScalar_of_mem_scalars hv) (scalars_ne_nil_of_plain hvalid)

theorem holds_binaryLetters {s : Bytes} (hvalid : Utf8.isValid s = false) (inFlow : Bool) :
    Holds inFlow (Utf8.scalars (binaryLetters s)) (style inFlow true (binaryLetters s)) := by
  refine holds_style (fun v hv => ?_) fun _ => scalars_binaryLetters_ne_nil hvalid
  rw [scalars_binaryLetters] at hv
  obtain ⟨b, hb, rfl⟩ := List.mem_map.1 hv
  have := binaryLetters_ascii hb
  unfold IsScalar
  omega

/-- The characters of a text that is valid UTF-8. -/
theorem chars_of_isValid {s : Bytes} (hvalid : Utf8.isValid s = true) (place : Place) :
    chars place s =
      charsIn place (Utf8.scalars s) (style place.inFlow (!needsQuotes s) s) :=
  if_pos hvalid

/-- The characters of the tag of bytes, with the blank behind it. -/
def tagChars : List Nat :=
  0x21 :: 0x21 :: (binaryName ++ [0x20])

/-- The characters of a text that is not valid UTF-8: a tag and letters. -/
theorem chars_of_not_isValid {s : Bytes} (hvalid : Utf8.isValid s = false) (place : Place) :
    chars place s = tagChars ++ charsIn place (Utf8.scalars (binaryLetters s))
      (style place.inFlow true (binaryLetters s)) := by
  rw [chars, if_neg (by simp [hvalid]), ascii_binary, scalars_binaryLetters, tagChars]
  simp

/-- The characters of such a text with its end. -/
theorem ended_chars_of_not_isValid {s : Bytes} (hvalid : Utf8.isValid s = false) (place : Place) :
    ended place.inFlow (chars place s) = tagChars ++ ended place.inFlow
      (charsIn place (Utf8.scalars (binaryLetters s))
        (style place.inFlow true (binaryLetters s))) := by
  rw [chars_of_not_isValid hvalid]
  exact ended_append _ (charsIn_ne_nil fun _ => scalars_binaryLetters_ne_nil hvalid) _

theorem binaryLetters_inj {s s' : Bytes} (h : binaryLetters s = binaryLetters s') : s = s' := by
  have hdecode := decode?_binaryLetters s
  rw [h, decode?_binaryLetters] at hdecode
  exact (Option.some.inj hdecode).symm

theorem settle_binaryLetters (s : Bytes) :
    settle (Utf8.scalars (binaryLetters s)) = Utf8.scalars (binaryLetters s) := by
  refine settle_of_head? ?_
  rw [scalars_binaryLetters]
  intro hhead
  obtain ⟨ws, hws⟩ := List.head?_eq_some_iff.1 hhead
  have hback := (readBack_binaryLetters s).2
  have hlf : isBreak 0x0A = true := rfl
  rw [hws, readBack_cons, if_pos hlf] at hback
  exact List.cons_ne_self _ _ hback.symm

section Texts

variable {inFlow : Bool} {indent : Nat} {s s' : Bytes} {r r' : List Nat}

/-- No valid text is written like one that is not. -/
theorem isValid_of_chars_eq (hvalid : Utf8.isValid s = true)
    (heq : ended inFlow (chars ⟨inFlow, indent, 2⟩ s) ++ r =
      ended inFlow (chars ⟨inFlow, indent, 2⟩ s') ++ r') : Utf8.isValid s' = true := by
  cases hvalid' : Utf8.isValid s' with
  | true => rfl
  | false =>
    obtain ⟨v, ws, hchars, hopens⟩ := (holds_of_isValid hvalid inFlow).opens ⟨inFlow, indent, 2⟩
    obtain ⟨us, hus⟩ := exists_ended inFlow v ws
    have htag := ended_chars_of_not_isValid hvalid' ⟨inFlow, indent, 2⟩
    rw [chars_of_isValid hvalid, hchars, hus, htag] at heq
    exact absurd (List.cons.inj heq).1 hopens.not_mark.1

/-- Texts that are not valid UTF-8 and are written alike are equal. -/
theorem eq_of_binary_eq (hindent : 0 < indent) (hvalid : Utf8.isValid s = false)
    (hvalid' : Utf8.isValid s' = false) (hr : Follows inFlow indent r)
    (hr' : Follows inFlow indent r')
    (heq : ended inFlow (chars ⟨inFlow, indent, 2⟩ s) ++ r =
      ended inFlow (chars ⟨inFlow, indent, 2⟩ s') ++ r') : s = s' := by
  have htag := ended_chars_of_not_isValid hvalid ⟨inFlow, indent, 2⟩
  have htag' := ended_chars_of_not_isValid hvalid' ⟨inFlow, indent, 2⟩
  rw [htag, htag', List.append_assoc, List.append_assoc, List.append_cancel_left_eq] at heq
  obtain ⟨-, hsame, hsettle⟩ := (holds_binaryLetters hvalid inFlow).ended_inj hindent
    (holds_binaryLetters hvalid' inFlow) hr hr' heq
  have hletters : Utf8.scalars (binaryLetters s) = Utf8.scalars (binaryLetters s') := by
    by_cases hst : style inFlow true (binaryLetters s) = .literal
    · simpa only [settle_binaryLetters] using hsettle hst
    · exact hsame hst
  rw [scalars_binaryLetters, scalars_binaryLetters] at hletters
  refine binaryLetters_inj ?_
  rw [← encodeAll_ascii fun b hb => binaryLetters_ascii (s := s) hb, hletters,
    encodeAll_ascii fun b hb => binaryLetters_ascii hb]

/-- Texts that are written alike are equal, or literal blocks that show the same. -/
theorem eq_or_settle_eq_of_chars_eq (inFlow : Bool) (hindent : 0 < indent) (hr : Follows inFlow indent r)
    (hr' : Follows inFlow indent r')
    (heq : ended inFlow (chars ⟨inFlow, indent, 2⟩ s) ++ r =
      ended inFlow (chars ⟨inFlow, indent, 2⟩ s') ++ r') :
    s = s' ∨ inFlow = false ∧ isLiteral s = true ∧ isLiteral s' = true ∧
      settle (Utf8.scalars s) = settle (Utf8.scalars s') := by
  cases hvalid : Utf8.isValid s with
  | false =>
    have hvalid' : Utf8.isValid s' = false := by
      refine Bool.eq_false_iff.2 fun hvalid' => ?_
      rw [isValid_of_chars_eq hvalid' heq.symm] at hvalid
      cases hvalid
    exact .inl (eq_of_binary_eq hindent hvalid hvalid' hr hr' heq)
  | true =>
    have hvalid' := isValid_of_chars_eq hvalid heq
    rw [chars_of_isValid hvalid, chars_of_isValid hvalid'] at heq
    obtain ⟨hstyle, hsame, hsettle⟩ := (holds_of_isValid hvalid inFlow).ended_inj hindent
      (holds_of_isValid hvalid' inFlow) hr hr' heq
    by_cases hst : style inFlow (!needsQuotes s) s = .literal
    · have hflow : inFlow = false := by
        have hholds := holds_of_isValid hvalid inFlow
        rw [hst] at hholds
        cases hholds
        assumption
      subst hflow
      refine .inr ⟨rfl, ?_, ?_, hsettle hst⟩
      · simp [isLiteral, hvalid, hst]
      · simp [isLiteral, hvalid', ← hstyle, hst]
    · left
      have hs : encodeAll (Utf8.scalars s) = s := Utf8.encode_scalars hvalid
      have hs' : encodeAll (Utf8.scalars s') = s' := Utf8.encode_scalars hvalid'
      rw [← hs, ← hs', hsame hst]

end Texts

/-- The text that a scalar outside flow collections shows: whether a line feed stands before a
literal block that begins with a space is not seen. -/
def shown (s : Bytes) : Bytes :=
  if isLiteral s then encodeAll (settle (Utf8.scalars s)) else s

/-- **Texts outside flow collections** that are written alike show the same. -/
theorem shown_eq_of_chars_eq {indent : Nat} (hindent : 0 < indent) {s s' : Bytes} {r r' : List Nat}
    (hr : Outdented indent r) (hr' : Outdented indent r')
    (heq : endChars (chars ⟨false, indent, 2⟩ s) ++ r =
      endChars (chars ⟨false, indent, 2⟩ s') ++ r') : shown s = shown s' := by
  rcases eq_or_settle_eq_of_chars_eq false hindent hr hr' heq with
    rfl | ⟨-, hliteral, hliteral', hsettle⟩
  · rfl
  · rw [shown, shown, if_pos hliteral, if_pos hliteral', hsettle]

/-- **Texts in flow collections** that are written alike are equal. -/
theorem eq_of_chars_eq_inFlow {indent : Nat} (hindent : 0 < indent) {s s' : Bytes}
    {r r' : List Nat} (hr : ∃ v t, r = v :: t ∧ closes true v = true)
    (hr' : ∃ v t, r' = v :: t ∧ closes true v = true)
    (heq : chars ⟨true, indent, 2⟩ s ++ r = chars ⟨true, indent, 2⟩ s' ++ r') : s = s' :=
  (eq_or_settle_eq_of_chars_eq true hindent hr hr' heq).resolve_right fun h => by
    cases h.1

/-! ### Writing what is shown -/

theorem literalAllowed_tail {v : Nat} {vs : List Nat} (hne : vs ≠ [])
    (h : literalAllowed (v :: vs) = true) : literalAllowed vs = true := by
  obtain ⟨w, ws, rfl⟩ := List.exists_cons_of_ne_nil hne
  simp only [literalAllowed, Bool.not_eq_true', Bool.or_eq_false_iff, List.any_cons,
    List.getLast?_cons_cons, hasSpaceBreak, pairs, List.tail_cons, List.zip_cons_cons] at h ⊢
  exact ⟨⟨h.1.1, h.1.2.2⟩, h.2.2⟩

/-- A literal block that begins with a space has the characters of the block with a line feed before
it. -/
theorem literalChars_cons_lf {indent : Nat} {vs : List Nat} (h : vs.head? = some 0x20) :
    literalChars ⟨false, indent, 2⟩ (0x0A :: vs) = literalChars ⟨false, indent, 2⟩ vs := by
  obtain ⟨ws, rfl⟩ := List.head?_eq_some_iff.1 h
  have hheader : headerChars 2 (0x0A :: 0x20 :: ws) = headerChars 2 (0x20 :: ws) := by
    rw [headerChars_eq, headerChars_eq, chompOf_cons rfl (List.cons_ne_nil 0x20 ws)]
    rfl
  have hlf : isBreak 0x0A = true := rfl
  have hspace : isBreak 0x20 = false := rfl
  simp [literalChars, hheader, indentChars, hlf, hspace]

theorem literalAllowed_of_isLiteral {s : Bytes} (h : isLiteral s = true) :
    Utf8.isValid s = true ∧ style false (!needsQuotes s) s = .literal ∧
      literalAllowed (Utf8.scalars s) = true := by
  simp only [isLiteral, Bool.and_eq_true, beq_iff_eq] at h
  obtain ⟨hvalid, hst⟩ := h
  refine ⟨hvalid, hst, ?_⟩
  rcases style_cases false (!needsQuotes s) s with
    ⟨-, -, -, hallowed⟩ | ⟨hst', -⟩ | ⟨hst', -⟩ | hst'
  · exact hallowed
  all_goals
    rw [hst] at hst'
    cases hst'

theorem isLiteral_encodeAll {vs : List Nat} (hvs : ∀ v ∈ vs, IsScalar v) (hlf : 0x0A ∈ vs)
    (h : literalAllowed vs = true) : isLiteral (encodeAll vs) = true := by
  have hvalid : Utf8.isValid (encodeAll vs) = true := Utf8.isValid_encode hvs
  have hscalars : Utf8.scalars (encodeAll vs) = vs := Utf8.scalars_encode hvs
  simp [isLiteral, hvalid, style, hscalars, hlf, h]

/-- The characters of a text that is written as a literal block. -/
theorem chars_of_isLiteral {s : Bytes} (h : isLiteral s = true) (indent : Nat) :
    chars ⟨false, indent, 2⟩ s = literalChars ⟨false, indent, 2⟩ (Utf8.scalars s) := by
  obtain ⟨hvalid, hst, -⟩ := literalAllowed_of_isLiteral h
  rw [chars_of_isValid hvalid, hst]
  rfl

/-- **What a text shows** is written like the text. -/
theorem write_shown (indent : Nat) (s : Bytes) :
    write ⟨false, indent, 2⟩ (shown s) = write ⟨false, indent, 2⟩ s := by
  unfold shown settle
  split
  · next hliteral =>
    obtain ⟨hvalid, -, hallowed⟩ := literalAllowed_of_isLiteral hliteral
    split
    · next hlost =>
      obtain ⟨hfeed, hspace, hlf⟩ := hlost
      obtain ⟨ws, hws⟩ := List.head?_eq_some_iff.1 hfeed
      have hscalar : ∀ v ∈ ws, IsScalar v := by
        intro v hv
        exact Utf8.isScalar_of_mem_scalars (hws ▸ List.mem_cons_of_mem 0x0A hv)
      rw [hws, List.tail_cons] at hspace hlf
      rw [hws] at hallowed
      have hliteral' : isLiteral (encodeAll ws) = true :=
        isLiteral_encodeAll hscalar hlf (literalAllowed_tail (List.ne_nil_of_mem hlf) hallowed)
      have hscalars : Utf8.scalars (encodeAll ws) = ws := Utf8.scalars_encode hscalar
      rw [hws, List.tail_cons, write_eq, write_eq, chars_of_isLiteral hliteral,
        chars_of_isLiteral hliteral', hscalars, hws, literalChars_cons_lf hspace]
    · rw [show encodeAll (Utf8.scalars s) = s from Utf8.encode_scalars hvalid]
  · rfl

/-- What is shown is the text, or begins with a space. -/
theorem shown_eq_or_head? (s : Bytes) : shown s = s ∨ (shown s).head? = some Bytes.space := by
  unfold shown settle
  split
  · next hliteral =>
    split
    · next hlost =>
      obtain ⟨ws, hws⟩ := List.head?_eq_some_iff.1 hlost.2.1
      exact .inr (by rw [hws]; rfl)
    · exact .inl (Utf8.encode_scalars (literalAllowed_of_isLiteral hliteral).1)
  · exact .inl rfl

end Scalar

end ForthFrontend.Yaml
