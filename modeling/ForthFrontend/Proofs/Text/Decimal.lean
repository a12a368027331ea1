import ForthFrontend.Text.Decimal

/-!
# Decimal numerals

The digits of a number have the number as their value, and only the numeral of zero begins with a
zero.

## Main results

* `Decimal.digitsValue?_ofNat`: the value of a numeral.
* `Decimal.isDigit_of_mem_ofNat`: the bytes of a numeral.
* `Decimal.ofNat_eq_cons`: the first digit of a numeral.
-/

namespace ForthFrontend.Decimal

theorem digitValue?_digit {d : Nat} (h : d < 10) : digitValue? (digit d) = some d := by
  have hall : ∀ d < 10, digitValue? (digit d) = some d := by decide
  exact hall d h

theorem isDigit_digit {d : Nat} (h : d < 10) : Bytes.isDigit (digit d) = true := by
  have hall : ∀ d < 10, Bytes.isDigit (digit d) = true := by decide
  exact hall d h

theorem digit_ne_zero {d : Nat} (h : d < 10) (h0 : 0 < d) : digit d ≠ 0x30 := by
  have hall : ∀ d < 10, 0 < d → digit d ≠ 0x30 := by decide
  exact hall d h h0

/-- Reading digits that were put in front of `tail` goes on with `tail` from their number. -/
theorem foldl_digitsInto {fuel n : Nat} (h : n < fuel) (tail : Bytes) :
    (digitsInto 10 fuel n tail).foldl (addDigit 10) (some 0) =
      tail.foldl (addDigit 10) (some n) := by
  induction fuel generalizing n tail with
  | zero => omega
  | succ fuel ih =>
    unfold digitsInto
    split
    · next hn => simp [addDigit, digitValue?_digit hn, hn]
    · have hlt : n % 10 < 10 := Nat.mod_lt n (by omega)
      have hn : n / 10 * 10 + n % 10 = n := by omega
      rw [ih (by omega)]
      simp [addDigit, digitValue?_digit hlt, hlt, hn]

theorem isDigit_of_mem_digitsInto {fuel n : Nat} {tail : Bytes} {b : UInt8}
    (h : b ∈ digitsInto 10 fuel n tail) (htail : ∀ b ∈ tail, Bytes.isDigit b = true) :
    Bytes.isDigit b = true := by
  induction fuel generalizing n tail with
  | zero => exact htail b h
  | succ fuel ih =>
    unfold digitsInto at h
    split at h
    · next hn =>
      rcases List.mem_cons.1 h with rfl | h
      · exact isDigit_digit hn
      · exact htail b h
    · exact ih h (List.forall_mem_cons.2 ⟨isDigit_digit (Nat.mod_lt n (by omega)), htail⟩)

theorem digitsInto_eq_cons {fuel n : Nat} (h : n < fuel) (tail : Bytes) :
    ∃ d rest, d < 10 ∧ (0 < n → 0 < d) ∧ digitsInto 10 fuel n tail = digit d :: rest := by
  induction fuel generalizing n tail with
  | zero => omega
  | succ fuel ih =>
    unfold digitsInto
    split
    · next hn => exact ⟨n, tail, hn, id, rfl⟩
    · obtain ⟨d, rest, hd, hpos, heq⟩ := ih (n := n / 10) (by omega) (digit (n % 10) :: tail)
      exact ⟨d, rest, hd, fun _ => hpos (by omega), heq⟩

/-- The first digit of a numeral, which is zero only in the numeral of zero. -/
theorem ofNat_eq_cons (n : Nat) :
    ∃ d rest, d < 10 ∧ (0 < n → 0 < d) ∧ ofNat n = digit d :: rest :=
  digitsInto_eq_cons (Nat.lt_succ_self n) []

theorem isDigit_of_mem_ofNat {n : Nat} {b : UInt8} (h : b ∈ ofNat n) : Bytes.isDigit b = true :=
  isDigit_of_mem_digitsInto h (by simp)

/-- **The value of a numeral.** -/
theorem digitsValue?_ofNat (n : Nat) : digitsValue? 10 (ofNat n) = some n := by
  obtain ⟨d, rest, -, -, heq⟩ := ofNat_eq_cons n
  rw [digitsValue?, if_neg (by simp [heq]), ofNat, foldl_digitsInto (Nat.lt_succ_self n)]
  rfl

/-- A numeral without a leading zero is read to the base ten. -/
theorem baseOf_ofNat (n : Nat) : baseOf (ofNat n) = (10, ofNat n) := by
  rcases Nat.eq_zero_or_pos n with rfl | hn
  · rfl
  · obtain ⟨d, rest, hd, hpos, heq⟩ := ofNat_eq_cons n
    have hne := digit_ne_zero hd (hpos hn)
    rw [heq, baseOf]
    · intro c d' rest' h
      exact hne (List.cons.inj h).1
    · intro c h
      exact hne (List.cons.inj h).1

/-- A number without a sign is not read as a signed one. -/
theorem takeSign_ofNat (n : Nat) : takeSign (ofNat n) = (false, ofNat n) := by
  obtain ⟨d, rest, hd, -, heq⟩ := ofNat_eq_cons n
  have hplus : ∀ d < 10, digit d ≠ 0x2B := by decide
  have hminus : ∀ d < 10, digit d ≠ 0x2D := by decide
  rw [heq, takeSign]
  · intro rest' h
    exact hplus d hd (List.cons.inj h).1
  · intro rest' h
    exact hminus d hd (List.cons.inj h).1

theorem fitsInt64_toInt (n : Int64) : fitsInt64 n.toInt = true := by
  have hlo := n.le_toInt
  have hhi := n.toInt_lt
  simp only [fitsInt64, Bool.and_eq_true, decide_eq_true_eq]
  omega

end ForthFrontend.Decimal
