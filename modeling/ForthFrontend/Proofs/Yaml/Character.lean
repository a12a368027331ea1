import ForthFrontend.Proofs.Text.Utf8
import ForthFrontend.Yaml.Token.Property

/-!
# The characters of an encoded document

Reading the characters of a document gives back the characters that were encoded, if all of them may
stand in a document and the first one is no byte order mark.

## Main results

* `Yaml.decodeOctets_encodeAll`: decoding undoes encoding.
* `Yaml.characters_encodeAll`: the characters of a document that begins with an ASCII character.
-/

namespace ForthFrontend.Yaml

open Utf8 (IsScalar)

theorem isAllowed_iff {v : Nat} : isAllowed v = true ↔
    v = 0x09 ∨ v = 0x0A ∨ v = 0x0D ∨ v = 0x85 ∨ 0x20 ≤ v ∧ v ≤ 0x7E ∨ 0xA0 ≤ v ∧ v ≤ 0xD7FF ∨
      0xE000 ≤ v ∧ v ≤ 0xFFFD ∧ v ≠ 0xFEFF ∨ 0x10000 ≤ v ∧ v ≤ 0x10FFFF := by
  simp [isAllowed, or_assoc, and_assoc]

theorem isScalar_of_isAllowed {v : Nat} (h : isAllowed v = true) : IsScalar v := by
  rw [isAllowed_iff] at h
  unfold IsScalar
  omega

theorem isNoScalar_eq_false {v : Nat} (h : IsScalar v) : isNoScalar v = false := by
  unfold IsScalar at h
  simp only [isNoScalar, Bool.or_eq_false_iff, Bool.and_eq_false_iff, decide_eq_false_iff_not]
  omega

theorem allowed_eq_ok {v : Nat} (h : isAllowed v = true) : allowed v = .ok v := by
  rw [allowed, isNoScalar_eq_false (isScalar_of_isAllowed h), h]
  rfl

theorem announced_eq (b : UInt8) : announced b =
    if b.toNat < 0x80 then some 1
    else if 0xC0 ≤ b.toNat ∧ b.toNat < 0xE0 then some 2
    else if 0xE0 ≤ b.toNat ∧ b.toNat < 0xF0 then some 3
    else if 0xF0 ≤ b.toNat ∧ b.toNat < 0xF8 then some 4
    else none := by
  simp only [announced, UInt8.lt_iff_toNat_lt, UInt8.le_iff_toNat_le, UInt8.reduceToNat,
    Bool.and_eq_true, decide_eq_true_eq]

theorem sequenceValue_eq {width v : Nat} {b : UInt8} {tail : Bytes} (h : isAllowed v = true)
    (hlen : width ≤ tail.length + 1) (hcont : ∀ c ∈ tail, Utf8.isContinuation c = true)
    (hv : tail.foldl (fun v c => v * 64 + Utf8.payload c) (leadBits width b) = v)
    (hleast : leastOf width ≤ v) : sequenceValue width b tail = .ok v := by
  have hall : tail.all Utf8.isContinuation = true := List.all_eq_true.2 hcont
  simp only [sequenceValue, hall, hv]
  rw [if_neg (by omega), if_neg (by simp), if_neg (by omega), allowed_eq_ok h]

/-- The bytes of a character are one sequence whose value is the character. -/
theorem sequenceValue_encode {v : Nat} (h : isAllowed v = true) :
    ∃ b tail width, Utf8.encode v = b :: tail ∧ announced b = some width ∧
      tail.length = width - 1 ∧ sequenceValue width b tail = .ok v := by
  have hscalar := isScalar_of_isAllowed h
  unfold IsScalar at hscalar
  unfold Utf8.encode
  split
  · have hb : (Utf8.octet v).toNat = v := by rw [Utf8.toNat_octet]; omega
    refine ⟨_, [], 1, rfl, ?_, rfl, sequenceValue_eq h (by simp) (by simp) ?_ (by simp [leastOf])⟩
    · rw [announced_eq, hb, if_pos (by omega)]
    · simp [leadBits, hb]
  · split
    · have hb : (Utf8.octet (0xC0 + v / 64)).toNat = 0xC0 + v / 64 := by
        rw [Utf8.toNat_octet]; omega
      have hc : (Utf8.octet (0x80 + v % 64)).toNat = 0x80 + v % 64 := by
        rw [Utf8.toNat_octet]; omega
      refine ⟨_, [_], 2, rfl, ?_, rfl,
        sequenceValue_eq h (by simp) ?_ ?_ (by simp [leastOf]; omega)⟩
      · rw [announced_eq, hb, if_neg (by omega), if_pos (by omega)]
      · simp only [List.forall_mem_cons, Utf8.isContinuation_eq_true]
        exact ⟨by omega, by simp⟩
      · simp only [leadBits, List.foldl_cons, List.foldl_nil, Utf8.payload, hb, hc]
        simp
        omega
    · split
      · have hb : (Utf8.octet (0xE0 + v / 4096)).toNat = 0xE0 + v / 4096 := by
          rw [Utf8.toNat_octet]; omega
        have hc : (Utf8.octet (0x80 + v / 64 % 64)).toNat = 0x80 + v / 64 % 64 := by
          rw [Utf8.toNat_octet]; omega
        have hd : (Utf8.octet (0x80 + v % 64)).toNat = 0x80 + v % 64 := by
          rw [Utf8.toNat_octet]; omega
        refine ⟨_, [_, _], 3, rfl, ?_, rfl,
          sequenceValue_eq h (by simp) ?_ ?_ (by simp [leastOf]; omega)⟩
        · rw [announced_eq, hb, if_neg (by omega), if_neg (by omega), if_pos (by omega)]
        · simp only [List.forall_mem_cons, Utf8.isContinuation_eq_true]
          exact ⟨by omega, by omega, by simp⟩
        · simp only [leadBits, List.foldl_cons, List.foldl_nil, Utf8.payload, hb, hc, hd]
          simp
          omega
      · have hb : (Utf8.octet (0xF0 + v / 262144)).toNat = 0xF0 + v / 262144 := by
          rw [Utf8.toNat_octet]; omega
        have hc : (Utf8.octet (0x80 + v / 4096 % 64)).toNat = 0x80 + v / 4096 % 64 := by
          rw [Utf8.toNat_octet]; omega
        have hd : (Utf8.octet (0x80 + v / 64 % 64)).toNat = 0x80 + v / 64 % 64 := by
          rw [Utf8.toNat_octet]; omega
        have he : (Utf8.octet (0x80 + v % 64)).toNat = 0x80 + v % 64 := by
          rw [Utf8.toNat_octet]; omega
        refine ⟨_, [_, _, _], 4, rfl, ?_, rfl,
          sequenceValue_eq h (by simp) ?_ ?_ (by simp [leastOf]; omega)⟩
        · rw [announced_eq, hb, if_neg (by omega), if_neg (by omega), if_neg (by omega),
            if_pos (by omega)]
        · simp only [List.forall_mem_cons, Utf8.isContinuation_eq_true]
          exact ⟨by omega, by omega, by omega, by simp⟩
        · simp only [leadBits, List.foldl_cons, List.foldl_nil, Utf8.payload, hb, hc, hd, he]
          simp
          omega

/-- Decoding undoes encoding. -/
theorem decodeOctets_encodeAll (found : List Nat) {vs : List Nat}
    (h : ∀ v ∈ vs, isAllowed v = true) :
    decodeOctets found (encodeAll vs) = .ok (found.reverse ++ vs) := by
  induction vs generalizing found with
  | nil => simp [encodeAll, decodeOctets]
  | cons v vs ih =>
    obtain ⟨b, tail, width, hb, hw, hlen, hv⟩ := sequenceValue_encode (h v (by simp))
    have htake : (tail ++ encodeAll vs).take (width - 1) = tail := by
      rw [← hlen, List.take_left]
    have hdrop : (tail ++ encodeAll vs).drop (width - 1) = encodeAll vs := by
      rw [← hlen, List.drop_left]
    have hcons : encodeAll (v :: vs) = b :: (tail ++ encodeAll vs) := by
      rw [encodeAll, List.flatMap_cons, hb]
      rfl
    rw [hcons, decodeOctets, hw]
    simp only [htake, hdrop, hv]
    rw [ih _ fun w hw => h w (by simp [hw])]
    simp

/-- **The characters of a document** that begins with an ASCII character are those that were
encoded. -/
theorem characters_encodeAll {v : Nat} {vs : List Nat} (hv : v < 0x80)
    (h : ∀ w ∈ v :: vs, isAllowed w = true) : characters (encodeAll (v :: vs)) = .ok (v :: vs) := by
  have hb : encodeAll (v :: vs) = Utf8.octet v :: encodeAll vs := by
    rw [encodeAll, List.flatMap_cons, Utf8.encode, if_pos hv]
    rfl
  -- no byte order mark begins with an ASCII byte
  have hne : ∀ b : UInt8, 0x80 ≤ b.toNat → Utf8.octet v ≠ b := by
    rintro _ hle rfl
    rw [Utf8.toNat_octet] at hle
    omega
  have hdecode := decodeOctets_encodeAll [] h
  rw [hb] at hdecode ⊢
  unfold characters
  split
  · next heq => exact absurd (List.cons.inj heq).1 (hne _ (by decide))
  · next heq => exact absurd (List.cons.inj heq).1 (hne _ (by decide))
  · next heq => exact absurd (List.cons.inj heq).1 (hne _ (by decide))
  · exact hdecode

end ForthFrontend.Yaml
