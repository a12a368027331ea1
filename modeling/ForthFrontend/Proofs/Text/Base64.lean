import ForthFrontend.Text.Base64

/-!
# Encoding and decoding base64

Decoding the letters of a byte string gives the byte string back. Line feeds between the letters do
not matter, so the letters can be broken into lines.

## Main definitions

* `Base64.letters`: the letters that encoding uses.

## Main results

* `Base64.decodeGroups_encode`: reading the groups of an encoding.
* `Base64.decode?_of_filter`: the bytes of an encoding that was broken into lines.
-/

namespace ForthFrontend.Base64

/-- The letters that encoding uses. -/
def letters : Bytes :=
  alphabet ++ [pad]

theorem value?_letter {v : Nat} (h : v < 64) : value? (letter v) = some v := by
  have hall : ∀ v < 64, value? (letter v) = some v := by decide +kernel
  exact hall v h

theorem letter_ne_pad {v : Nat} (h : v < 64) : (letter v == pad) = false := by
  have hall : ∀ v < 64, (letter v == pad) = false := by decide +kernel
  exact hall v h

theorem letter_mem_letters (v : Nat) : letter v ∈ letters := by
  unfold letter letters
  rw [List.getD_eq_getElem?_getD]
  cases h : alphabet[v]? with
  | none => simp
  | some b => exact List.mem_append_left _ (List.mem_of_getElem? h)

theorem mem_letters_of_mem_encode {s : Bytes} {b : UInt8} (h : b ∈ encode s) : b ∈ letters := by
  have hpad : pad ∈ letters := by simp [letters]
  fun_induction encode s with
  | case1 a b c rest n ih =>
    simp only [List.mem_cons] at h
    rcases h with rfl | rfl | rfl | rfl | h
    · exact letter_mem_letters _
    · exact letter_mem_letters _
    · exact letter_mem_letters _
    · exact letter_mem_letters _
    · exact ih h
  | case2 a b n =>
    simp only [List.mem_cons, List.not_mem_nil, or_false] at h
    rcases h with rfl | rfl | rfl | rfl
    · exact letter_mem_letters _
    · exact letter_mem_letters _
    · exact letter_mem_letters _
    · exact hpad
  | case3 a n =>
    simp only [List.mem_cons, List.not_mem_nil, or_false] at h
    rcases h with rfl | rfl | rfl | rfl
    · exact letter_mem_letters _
    · exact letter_mem_letters _
    · exact hpad
    · exact hpad
  | case4 => cases h

/-- The letters of an encoding are printable and are no white space. -/
theorem toNat_of_mem_encode {s : Bytes} {b : UInt8} (h : b ∈ encode s) :
    0x2B ≤ b.toNat ∧ b.toNat ≤ 0x7A := by
  have hall : letters.all (fun b => 0x2B ≤ b.toNat && b.toNat ≤ 0x7A) = true := by decide +kernel
  simpa using List.all_eq_true.1 hall b (mem_letters_of_mem_encode h)

/-- A byte is the one with its value. -/
theorem toUInt8_eq {n : Nat} {b : UInt8} (h : n % 256 = b.toNat) : n.toUInt8 = b := by
  apply UInt8.toNat_inj.1
  simpa using h

/-- Reading the groups of an encoding gives the encoded bytes. -/
theorem decodeGroups_encode (found s : Bytes) :
    decodeGroups found (encode s) = some (found.reverse ++ s) := by
  fun_induction encode s generalizing found with
  | case1 a b c rest n ih =>
    have ha := a.toNat_lt
    have hb := b.toNat_lt
    have hc := c.toNat_lt
    have hn : n = (a.toNat * 256 + b.toNat) * 256 + c.toNat := rfl
    have hgroup : groupValue (n / 262144) (n / 4096 % 64) (n / 64 % 64) (n % 64) = n := by
      unfold groupValue
      omega
    simp only [decodeGroups, value?_letter (v := n / 262144) (by omega),
      value?_letter (v := n / 4096 % 64) (by omega), value?_letter (v := n / 64 % 64) (by omega),
      value?_letter (v := n % 64) (by omega), letter_ne_pad (v := n / 64 % 64) (by omega),
      letter_ne_pad (v := n % 64) (by omega), Option.bind_eq_bind, Option.bind_some,
      Bool.false_eq_true, ↓reduceIte, hgroup]
    rw [ih]
    rw [toUInt8_eq (b := c) (by omega), toUInt8_eq (b := b) (by omega),
      toUInt8_eq (b := a) (by omega)]
    simp
  | case2 a b n =>
    have ha := a.toNat_lt
    have hb := b.toNat_lt
    have hn : n = (a.toNat * 256 + b.toNat) * 256 := rfl
    simp only [decodeGroups, value?_letter (v := n / 262144) (by omega),
      value?_letter (v := n / 4096 % 64) (by omega), value?_letter (v := n / 64 % 64) (by omega),
      letter_ne_pad (v := n / 64 % 64) (by omega), Option.bind_eq_bind, Option.bind_some,
      Bool.false_eq_true, ↓reduceIte, beq_self_eq_true, List.isEmpty_nil]
    rw [toUInt8_eq (b := b) (by omega), toUInt8_eq (b := a) (by omega)]
    simp
  | case3 a n =>
    have ha := a.toNat_lt
    have hn : n = a.toNat * 65536 := rfl
    simp only [decodeGroups, value?_letter (v := n / 262144) (by omega),
      value?_letter (v := n / 4096 % 64) (by omega), Option.bind_eq_bind, Option.bind_some,
      ↓reduceIte, beq_self_eq_true, List.isEmpty_nil, Bool.and_true]
    rw [toUInt8_eq (b := a) (by omega)]
    simp
  | case4 => simp [decodeGroups]

/-- **The bytes of an encoding** that was broken into lines. -/
theorem decode?_of_filter {s t : Bytes} (h : t.filter (· != Bytes.lf) = encode s) :
    decode? t = some s := by
  have hcr : ∀ b ∈ encode s, (b != Bytes.cr) = true := by
    intro b hb
    have hrange := toNat_of_mem_encode hb
    rw [bne_iff_ne]
    rintro rfl
    exact absurd hrange.1 (by decide)
  have hfilter : (t.filter fun b => b != Bytes.lf && b != Bytes.cr) = encode s := by
    calc (t.filter fun b => b != Bytes.lf && b != Bytes.cr)
        = (t.filter (· != Bytes.lf)).filter (· != Bytes.cr) := by
          rw [List.filter_filter]
          simp only [Bool.and_comm]
      _ = encode s := by
          rw [h]
          exact List.filter_eq_self.2 hcr
  rw [decode?, hfilter, decodeGroups_encode]
  rfl

end ForthFrontend.Base64
