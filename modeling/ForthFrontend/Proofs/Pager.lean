import ForthFrontend.Pager
import Mathlib.Data.List.Induction

/-!
# Where the window of the pager stands

Every move of the window stops at the end of the listing. Resizing the terminal does not move the
window, so a window that grows may reach beyond the end. It stays there until it is moved up or to
an end of the listing, or until the terminal is resized again; moving down leaves it where it is.
However this goes, the window has a line and shows at least one line of the listing.

## Main definitions

* `Pager.updates`: the pager after some messages.
* `Pager.overhangs`: does the window reach beyond the end, with lines above it?
* `Pager.Message.drawsBack`: the messages that bring the window back.

## Main results

* `Pager.overhangs_update`: what one message does to a window.
* `Pager.overhangs_updates_iff`: how a window comes to reach beyond the end.
* `Pager.updates_start_within_iff`: where the window stands after any messages.
-/

namespace ForthFrontend.Pager

/-! ### Windows -/

/-- The pager after some messages. -/
def updates (p : Pager) (ms : List Message) : Pager :=
  ms.foldl update p

theorem updates_concat (p : Pager) (ms : List Message) (m : Message) :
    p.updates (ms ++ [m]) = (p.updates ms).update m :=
  List.foldl_append

/-- Does the window reach beyond the end of the listing although there are lines above it? -/
def overhangs (p : Pager) : Bool :=
  p.maxOffset < p.offset

/-- The window has a line and shows a line of the listing. -/
structure IsSteady (p : Pager) : Prop where
  one_le_height : 1 ≤ p.height
  offset_lt : p.offset < p.lines.length

theorem one_le_windowHeight (height : Int) : 1 ≤ windowHeight height :=
  Nat.le_max_right _ _

theorem isSteady_start (title content : Bytes) (width height : Int) :
    (start title content width height).IsSteady where
  one_le_height := one_le_windowHeight height
  offset_lt := List.length_pos_iff.2 (List.splitOn_ne_nil _ _)

theorem overhangs_start (title content : Bytes) (width height : Int) :
    (start title content width height).overhangs = false :=
  decide_eq_false (Nat.not_lt_zero _)

/-! ### Moves

A move keeps listing and size. One that is carried out ends within the listing; one that is not
leaves the window where it is. -/

/-- The pager has the same listing and size, and its window was not moved or ends within the
listing. -/
structure Moved (p q : Pager) : Prop where
  lines_eq : q.lines = p.lines
  height_eq : q.height = p.height
  offset_cases : q.offset = p.offset ∨ q.offset ≤ p.maxOffset

namespace Moved

variable {p q : Pager}

theorem refl (p : Pager) : Moved p p := ⟨rfl, rfl, .inl rfl⟩

theorem maxOffset_eq (h : Moved p q) : q.maxOffset = p.maxOffset := by
  rw [maxOffset, maxOffset, h.lines_eq, h.height_eq]

theorem isSteady (h : Moved p q) (hp : p.IsSteady) : q.IsSteady := by
  have hheight := hp.one_le_height
  have hoffset := hp.offset_lt
  have hmax : p.maxOffset = p.lines.length - p.height := rfl
  constructor
  · rwa [h.height_eq]
  · rw [h.lines_eq]
    rcases h.offset_cases with heq | hle
    · rwa [heq]
    · omega

theorem overhangs_eq_false (h : Moved p q) (hp : p.overhangs = false) : q.overhangs = false := by
  rw [overhangs, decide_eq_false_iff_not] at hp ⊢
  rw [h.maxOffset_eq]
  rcases h.offset_cases with heq | hle
  · rwa [heq]
  · omega

end Moved

theorem moved_moveTo (p : Pager) (offset : Nat) : Moved p (p.moveTo offset) :=
  ⟨rfl, rfl, .inr (Nat.min_le_right _ _)⟩

theorem overhangs_moveTo (p : Pager) (offset : Nat) : (p.moveTo offset).overhangs = false :=
  decide_eq_false (Nat.not_lt.2 (Nat.min_le_right offset p.maxOffset))

theorem moved_up (p : Pager) (n : Nat) : Moved p (p.up n) := by
  unfold up
  split
  · exact .refl p
  · exact p.moved_moveTo _

theorem moved_down (p : Pager) (n : Nat) : Moved p (p.down n) := by
  unfold down
  split
  · exact .refl p
  · exact p.moved_moveTo _

theorem moved_act (p : Pager) (a : Action) : Moved p (p.act a) := by
  cases a with
  | leave => exact ⟨rfl, rfl, .inl rfl⟩
  | toTop =>
    show Moved p (if p.offset == 0 then p else p.moveTo 0)
    split
    · exact .refl p
    · exact p.moved_moveTo 0
  | toBottom => exact p.moved_moveTo _
  | lineUp => exact p.moved_up _
  | lineDown => exact p.moved_down _
  | pageUp => exact p.moved_up _
  | pageDown => exact p.moved_down _
  | halfPageUp => exact p.moved_up _
  | halfPageDown => exact p.moved_down _

/-- A window beyond the end is not moved down. -/
theorem down_of_overhangs {p : Pager} (h : p.overhangs = true) (n : Nat) : p.down n = p := by
  have hle : p.maxOffset ≤ p.offset := Nat.le_of_lt (of_decide_eq_true h)
  rw [down, if_pos]
  simp [hle]

/-- A window beyond the end comes back when it is moved up. -/
theorem overhangs_up {p : Pager} (h : p.overhangs = true) {n : Nat} (hn : n ≠ 0) :
    (p.up n).overhangs = false := by
  have hpos : p.offset ≠ 0 := Nat.ne_zero_of_lt (of_decide_eq_true h)
  rw [up, if_neg]
  · exact p.overhangs_moveTo _
  · simp [hpos, hn]

/-! ### Messages -/

/-- Does the action bring back a window that reaches beyond the end? -/
def Action.drawsBack : Action → Bool
  | toTop | toBottom | lineUp | pageUp | halfPageUp => true
  | leave | lineDown | pageDown | halfPageDown => false

namespace Message

/-- Does the message bring back a window that reaches beyond the end, whatever its size? -/
def drawsBack (m : Message) : Bool :=
  m == wheelUp || m.action?.any Action.drawsBack

/-- Is the terminal resized? -/
def isResize : Message → Bool
  | resize _ _ => true
  | _ => false

/-- A message that neither resizes nor brings back a window that reaches beyond the end. -/
def leavesPlace (m : Message) : Bool :=
  !m.isResize && !m.drawsBack

theorem exists_resize {m : Message} (h : m.isResize = true) :
    ∃ width height, m = resize width height := by
  cases m with
  | resize width height => exact ⟨width, height, rfl⟩
  | _ => cases h

end Message

theorem moved_update (p : Pager) {m : Message} (hm : m.isResize = false) :
    Moved p (p.update m) := by
  cases m with
  | resize width height => cases hm
  | wheelUp => exact p.moved_up _
  | wheelDown => exact p.moved_down _
  | key name =>
    show Moved p ((Message.key name).action?.elim p p.act)
    cases (Message.key name).action? with
    | none => exact .refl p
    | some a => exact p.moved_act a

theorem IsSteady.update {p : Pager} (hp : p.IsSteady) (m : Message) : (p.update m).IsSteady := by
  cases hm : m.isResize with
  | false => exact (p.moved_update hm).isSteady hp
  | true =>
    obtain ⟨width, height, rfl⟩ := Message.exists_resize hm
    exact ⟨one_le_windowHeight height, hp.offset_lt⟩

theorem lines_update (p : Pager) (m : Message) : (p.update m).lines = p.lines := by
  cases hm : m.isResize with
  | false => exact (p.moved_update hm).lines_eq
  | true =>
    obtain ⟨width, height, rfl⟩ := Message.exists_resize hm
    rfl

/-- A window of more than one line can be moved up by half of it. A window of one line never
reaches beyond the end. -/
theorem IsSteady.half_ne_zero {p : Pager} (hp : p.IsSteady) (h : p.overhangs = true) :
    p.height / 2 ≠ 0 := by
  have hlt : p.lines.length - p.height < p.offset := of_decide_eq_true h
  have hoffset := hp.offset_lt
  omega

theorem overhangs_act {p : Pager} (hp : p.IsSteady) (h : p.overhangs = true) (a : Action) :
    (p.act a).overhangs = !a.drawsBack := by
  have hpos : p.offset ≠ 0 := Nat.ne_zero_of_lt (of_decide_eq_true h)
  cases a with
  | leave => exact h
  | toTop =>
    show (if p.offset == 0 then p else p.moveTo 0).overhangs = false
    rw [if_neg (by simpa using hpos)]
    exact p.overhangs_moveTo 0
  | toBottom => exact p.overhangs_moveTo _
  | lineUp => exact overhangs_up h Nat.one_ne_zero
  | lineDown => exact (congrArg _ (down_of_overhangs h _)).trans h
  | pageUp => exact overhangs_up h (Nat.one_le_iff_ne_zero.1 hp.one_le_height)
  | pageDown => exact (congrArg _ (down_of_overhangs h _)).trans h
  | halfPageUp => exact overhangs_up h (hp.half_ne_zero h)
  | halfPageDown => exact (congrArg _ (down_of_overhangs h _)).trans h

theorem overhangs_resize (p : Pager) (width height : Int) :
    (p.update (.resize width height)).overhangs =
      decide (p.lines.length - windowHeight height < p.offset) := rfl

/-- **What one message does to a window**, unless it resizes the terminal: a window reaches beyond
the end if it did before and the message does not bring it back. -/
theorem overhangs_update {p : Pager} (hp : p.IsSteady) {m : Message} (hm : m.isResize = false) :
    (p.update m).overhangs = (p.overhangs && !m.drawsBack) := by
  cases h : p.overhangs with
  | false => exact (p.moved_update hm).overhangs_eq_false h
  | true =>
    rw [Bool.true_and]
    cases m with
    | resize width height => cases hm
    | wheelUp => exact overhangs_up h (by decide)
    | wheelDown => exact (congrArg _ (down_of_overhangs h _)).trans h
    | key name =>
      have hkey : (Message.key name).drawsBack =
          (Message.key name).action?.any Action.drawsBack := rfl
      rw [hkey]
      show ((Message.key name).action?.elim p p.act).overhangs = _
      cases (Message.key name).action? with
      | none => exact h
      | some a => exact overhangs_act hp h a

/-! ### Runs -/

theorem IsSteady.updates {p : Pager} (hp : p.IsSteady) (ms : List Message) :
    (p.updates ms).IsSteady := by
  induction ms generalizing p with
  | nil => exact hp
  | cons m ms ih => exact ih (hp.update m)

theorem lines_updates (p : Pager) (ms : List Message) : (p.updates ms).lines = p.lines := by
  induction ms generalizing p with
  | nil => rfl
  | cons m ms ih => exact (ih (p.update m)).trans (p.lines_update m)

/-- Where a message was added to a sequence, each message is the one added, or the one added follows
it. -/
theorem concat_eq_append_cons {ms front back : List Message} {m r : Message}
    (h : ms ++ [m] = front ++ r :: back) :
    (ms = front ∧ m = r ∧ back = []) ∨ ∃ back', back = back' ++ [m] ∧ ms = front ++ r :: back' := by
  rcases List.eq_nil_or_concat back with rfl | ⟨back', m', rfl⟩
  · obtain ⟨hms, hm⟩ := List.append_inj' h rfl
    exact .inl ⟨hms, List.singleton_inj.1 hm, rfl⟩
  · rw [List.concat_eq_append, ← List.cons_append, ← List.append_assoc] at h
    obtain ⟨hms, hm⟩ := List.append_inj' h rfl
    exact .inr ⟨back', by rw [List.concat_eq_append, hm], hms⟩

/-- **A window reaches beyond the end** exactly if the last resizing left it there and no message
since then brought it back. -/
theorem overhangs_updates_iff {p : Pager} (hp : p.IsSteady) (h : p.overhangs = false)
    (ms : List Message) :
    (p.updates ms).overhangs = true ↔
      ∃ front width height back, ms = front ++ .resize width height :: back ∧
        (∀ m ∈ back, m.leavesPlace = true) ∧
        p.lines.length - windowHeight height < (p.updates front).offset := by
  -- the induction adds messages at the end, where the last one decides
  induction ms using List.reverseRecOn with
  | nil => simp [updates, h]
  | append_singleton ms m ih =>
    rw [updates_concat]
    cases hm : m.isResize with
    | true =>
      obtain ⟨width, height, rfl⟩ := Message.exists_resize hm
      rw [overhangs_resize, decide_eq_true_iff, lines_updates]
      constructor
      · intro hlt
        exact ⟨ms, width, height, [], rfl, by simp, hlt⟩
      · rintro ⟨front, width', height', back, heq, hback, hlt⟩
        obtain ⟨rfl, hr, -⟩ | ⟨back', rfl, -⟩ := concat_eq_append_cons heq
        · cases hr
          exact hlt
        · cases hback (.resize width height) (by simp)
    | false =>
      rw [overhangs_update (hp.updates ms) hm, Bool.and_eq_true, ih]
      constructor
      · rintro ⟨⟨front, width, height, back, rfl, hback, hlt⟩, hplace⟩
        refine ⟨front, width, height, back ++ [m], by simp, ?_, hlt⟩
        intro m' hm'
        rcases List.mem_append.1 hm' with hm' | hm'
        · exact hback m' hm'
        · rw [List.mem_singleton.1 hm', Message.leavesPlace, hm, hplace]
          rfl
      · rintro ⟨front, width, height, back, heq, hback, hlt⟩
        obtain ⟨-, rfl, -⟩ | ⟨back', rfl, rfl⟩ := concat_eq_append_cons heq
        · cases hm
        · have hplace := hback m (by simp)
          rw [Message.leavesPlace, Bool.and_eq_true] at hplace
          exact ⟨⟨front, width, height, back', rfl,
            fun m' hm' => hback m' (List.mem_append_left _ hm'), hlt⟩, hplace.2⟩

/-- **Where the window stands.** Whatever the listing, the size of the terminal and the messages,
the window has a line and shows a line of the listing. It ends within the listing, or begins at its
first line, exactly if the last resizing left it so or a message since then brought it back. -/
theorem updates_start_within_iff (title content : Bytes) (width height : Int)
    (ms : List Message) :
    let p := start title content width height
    1 ≤ (p.updates ms).height ∧
    (p.updates ms).offset < (p.updates ms).lines.length ∧
    ((p.updates ms).offset ≤ (p.updates ms).lines.length - (p.updates ms).height ↔
      ∀ front width height back, ms = front ++ .resize width height :: back →
        (∀ m ∈ back, m.leavesPlace = true) →
        (p.updates front).offset ≤ p.lines.length - windowHeight height) := by
  intro p
  have hp : p.IsSteady := isSteady_start title content width height
  obtain ⟨hheight, hoffset⟩ := hp.updates ms
  refine ⟨hheight, hoffset, ?_⟩
  have hwithin : (p.updates ms).offset ≤ (p.updates ms).lines.length - (p.updates ms).height ↔
      ¬ (p.updates ms).overhangs = true := by
    rw [overhangs, decide_eq_true_iff, Nat.not_lt]
    rfl
  rw [hwithin, overhangs_updates_iff hp (overhangs_start title content width height)]
  simp only [not_exists, not_and, Nat.not_lt]

-- a window of two lines at the end of ten lines grows to six lines
example : ((start "t" "1\n2\n3\n4\n5\n6\n7\n8\n9\n10" 60 5).updates
    [.key "G", .resize 60 9]).overhangs = true := by decide

end ForthFrontend.Pager
