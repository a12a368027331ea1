import ForthFrontend.Proofs.Text.Decimal
import ForthFrontend.Yaml.Implicit

/-!
# What numerals and names mean

The numeral of a 64-bit integer, written without quotes, stands for that integer: it is no fixed
word, no point in time and has no digits to another base. A text that needs no quotes stands for
itself.

## Main results

* `Yaml.meaningOf_ofInt64`: what a numeral stands for.
* `Yaml.meaning_of_not_needsQuotes`: what a text without quotes stands for.
-/

namespace ForthFrontend.Yaml

/-- The bytes of numerals: digits and the minus sign. -/
def isNumeralByte (b : UInt8) : Bool :=
  Bytes.isDigit b || b == 0x2D

/-- No fixed word consists of digits and minus signs. -/
theorem lookup_fixedWords_of_numeral {s : Bytes} (hs : s ≠ [])
    (h : ∀ b ∈ s, isNumeralByte b = true) : fixedWords.lookup s = none := by
  have hwords : ∀ w ∈ fixedWords, w.1 = [] ∨ ∃ b ∈ w.1, isNumeralByte b = false := by
    decide +kernel
  rw [List.lookup_eq_none_iff]
  intro w hw
  rw [bne_iff_ne]
  rintro rfl
  rcases hwords w hw with hnil | ⟨b, hb, hfalse⟩
  · exact hs hnil
  · rw [h b hb] at hfalse
    cases hfalse

/-- Digits alone name no point in time, since a date has dashes. -/
theorem read?_of_digits {s : Bytes} (h : ∀ b ∈ s, Bytes.isDigit b = true) :
    Timestamp.read? s = none := by
  have hexpect : Timestamp.expect? 0x2D (s.drop 4) = none := by
    cases hs : s.drop 4 with
    | nil => rfl
    | cons b rest =>
      have hb := h b (List.mem_of_mem_drop (hs ▸ List.mem_cons_self))
      have hne : ∀ b : UInt8, Bytes.isDigit b = true → (b == 0x2D) = false := by
        rintro b hb
        rw [beq_eq_false_iff_ne]
        rintro rfl
        cases hb
      simp [Timestamp.expect?, hne b hb]
  have hdate : Timestamp.date? s = none := by
    simp only [Timestamp.date?, hexpect, Option.bind_eq_bind]
    cases Decimal.digitsValue? 10 (s.take 4) <;> rfl
  simp only [Timestamp.read?, hdate, Option.bind_eq_bind]
  split <;> rfl

/-- A minus sign begins no point in time. -/
theorem read?_of_minus (s : Bytes) : Timestamp.read? (0x2D :: s) = none := by
  have hnone : Bytes.isDigit 0x2D = false := by decide
  simp [Timestamp.read?, hnone]

theorem withoutUnderscores_of_numeral {s : Bytes} (h : ∀ b ∈ s, isNumeralByte b = true) :
    withoutUnderscores s = s := by
  refine List.filter_eq_self.2 fun b hb => ?_
  rw [bne_iff_ne]
  rintro rfl
  cases h _ hb

theorem isNumeralByte_of_mem_ofInt {n : Int} {b : UInt8} (h : b ∈ Decimal.ofInt n) :
    isNumeralByte b = true := by
  unfold Decimal.ofInt at h
  unfold isNumeralByte
  split at h
  · rcases List.mem_cons.1 h with rfl | h
    · rfl
    · rw [Decimal.isDigit_of_mem_ofNat h, Bool.true_or]
  · rw [Decimal.isDigit_of_mem_ofNat h, Bool.true_or]

theorem integer?_of_decimal {s body : Bytes} {negative : Bool} {n : Nat}
    (hsign : Decimal.takeSign s = (negative, body)) (hbase : Decimal.baseOf body = (10, body))
    (hvalue : Decimal.digitsValue? 10 body = some n)
    (hfits : Decimal.fitsInt64 (Decimal.signed negative n) = true) :
    integer? s = some (Decimal.signed negative n) := by
  unfold integer?
  rw [hsign]
  dsimp only
  rw [hbase]
  dsimp only
  rw [hvalue, Option.bind_eq_bind, Option.bind_some, if_pos hfits]

/-- The integer of the numeral of an integer of 64 bits. -/
theorem integer?_ofInt {n : Int} (h : Decimal.fitsInt64 n = true) :
    integer? (Decimal.ofInt n) = some n := by
  have hbase := Decimal.baseOf_ofNat n.natAbs
  have hvalue := Decimal.digitsValue?_ofNat n.natAbs
  unfold Decimal.ofInt
  split
  · have hn : Decimal.signed true n.natAbs = n := by
      simp only [Decimal.signed, ↓reduceIte]
      omega
    have hsign : Decimal.takeSign (0x2D :: Decimal.ofNat n.natAbs) =
      (true, Decimal.ofNat n.natAbs) := rfl
    rw [integer?_of_decimal hsign hbase hvalue (by rw [hn, h]), hn]
  · have hn : Decimal.signed false n.natAbs = n := by
      simp only [Decimal.signed, Bool.false_eq_true, ↓reduceIte]
      omega
    have hsign := Decimal.takeSign_ofNat n.natAbs
    rw [integer?_of_decimal hsign hbase hvalue (by rw [hn, h]), hn]

/-- **The numeral of an integer** stands for the integer. -/
theorem meaningOf_ofInt (timed : Bool) {n : Int} (h : Decimal.fitsInt64 n = true) :
    meaningOf timed (Decimal.ofInt n) = .integer n := by
  have hbytes : ∀ b ∈ Decimal.ofInt n, isNumeralByte b = true :=
    fun b hb => isNumeralByte_of_mem_ofInt hb
  have htime : Timestamp.read? (Decimal.ofInt n) = none := by
    unfold Decimal.ofInt
    split
    · exact read?_of_minus _
    · exact read?_of_digits fun b hb => Decimal.isDigit_of_mem_ofNat hb
  have hnumber : numberOrTime timed (Decimal.ofInt n) = .integer n := by
    simp only [numberOrTime, htime, numberMeaning, withoutUnderscores_of_numeral hbytes,
      integer?_ofInt h, ite_self]
  have hcons : ∃ b rest, Decimal.ofInt n = b :: rest := by
    unfold Decimal.ofInt
    obtain ⟨d, rest, -, -, heq⟩ := Decimal.ofNat_eq_cons n.natAbs
    split
    · exact ⟨_, _, rfl⟩
    · exact ⟨_, _, heq⟩
  obtain ⟨b, rest, heq⟩ := hcons
  have hb := hbytes b (by simp [heq])
  have hdot : (b == Bytes.dot) = false := by
    rw [beq_eq_false_iff_ne]
    rintro rfl
    cases hb
  have hstart : (Bytes.isDigit b || b == 0x2B || b == 0x2D) = true := by
    rw [isNumeralByte] at hb
    rcases Bool.or_eq_true_iff.1 hb with hb | hb
    · rw [hb, Bool.true_or, Bool.true_or]
    · rw [hb, Bool.or_true]
  unfold meaningOf
  rw [lookup_fixedWords_of_numeral (by simp [heq]) hbytes]
  rw [heq] at hnumber ⊢
  simp only [hdot, hstart, hnumber, Bool.false_eq_true, ↓reduceIte]

/-- **A text that needs no quotes** stands for itself. -/
theorem meaning_of_not_needsQuotes {s : Bytes} (h : needsQuotes s = false) : meaning s = .text := by
  unfold needsQuotes at h
  rw [Bool.or_eq_false_iff, Bool.or_eq_false_iff] at h
  simpa using h.1.1

end ForthFrontend.Yaml
