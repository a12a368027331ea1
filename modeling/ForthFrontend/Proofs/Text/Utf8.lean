import ForthFrontend.Text.Utf8

/-!
# Encoding and decoding UTF-8

A unit that is split off a text is the encoding of its value, and an encoding is split off as a
whole. So the scalar values of a valid text determine it, and every sequence of scalar values is the
sequence of scalar values of its encoding.

## Main definitions

* `Utf8.IsScalar`: the numbers that have an encoding.

## Main results

* `Utf8.scalars_encode`: the scalar values of an encoding.
* `Utf8.encode_scalars`: the encoding of the scalar values of a valid text.
* `Utf8.scalar_mem_units`: an ASCII byte is a unit wherever it stands.
-/

namespace ForthFrontend.Utf8

/-- The numbers that have an encoding: surrogates have none. -/
def IsScalar (v : Nat) : Prop :=
  v < 0xD800 ∨ 0xDFFF < v ∧ v ≤ 0x10FFFF

theorem toNat_octet (n : Nat) : (octet n).toNat = n % 256 := by
  simp [octet]

/-- A byte is the octet of its value. -/
theorem octet_eq {n : Nat} {b : UInt8} (h : n = b.toNat) : octet n = b := by
  apply UInt8.toNat_inj.1
  rw [toNat_octet, h]
  exact Nat.mod_eq_of_lt b.toNat_lt

theorem between_eq_true {lo hi b : UInt8} :
    between lo hi b = true ↔ lo.toNat ≤ b.toNat ∧ b.toNat ≤ hi.toNat := by
  simp [between, UInt8.le_iff_toNat_le]

theorem isContinuation_eq_true {b : UInt8} :
    isContinuation b = true ↔ 0x80 ≤ b.toNat ∧ b.toNat ≤ 0xBF :=
  between_eq_true

/-- The second byte of a sequence of three: the ranges that exclude overlong forms and
surrogates. -/
theorem isSecond_three {lead b : UInt8} (hl : 0xE0 ≤ lead.toNat ∧ lead.toNat ≤ 0xEF) :
    isSecond lead b = true ↔ (0x80 ≤ b.toNat ∧ b.toNat ≤ 0xBF) ∧
      (lead.toNat = 0xE0 → 0xA0 ≤ b.toNat) ∧ (lead.toNat = 0xED → b.toNat ≤ 0x9F) := by
  unfold isSecond secondRange
  simp only [beq_iff_eq, ← UInt8.toNat_inj, UInt8.reduceToNat]
  split
  · simp only [between_eq_true, UInt8.reduceToNat]; omega
  · split
    · simp only [between_eq_true, UInt8.reduceToNat]; omega
    · split
      · omega
      · split
        · omega
        · simp only [between_eq_true, UInt8.reduceToNat]; omega

/-- The second byte of a sequence of four: the ranges that exclude overlong forms and values past
the last scalar value. -/
theorem isSecond_four {lead b : UInt8} (hl : 0xF0 ≤ lead.toNat ∧ lead.toNat ≤ 0xF4) :
    isSecond lead b = true ↔ (0x80 ≤ b.toNat ∧ b.toNat ≤ 0xBF) ∧
      (lead.toNat = 0xF0 → 0x90 ≤ b.toNat) ∧ (lead.toNat = 0xF4 → b.toNat ≤ 0x8F) := by
  unfold isSecond secondRange
  simp only [beq_iff_eq, ← UInt8.toNat_inj, UInt8.reduceToNat]
  split
  · omega
  · split
    · omega
    · split
      · simp only [between_eq_true, UInt8.reduceToNat]; omega
      · split
        · simp only [between_eq_true, UInt8.reduceToNat]; omega
        · simp only [between_eq_true, UInt8.reduceToNat]; omega

/-- A unit that is split off is the encoding of its value. -/
theorem split_eq_scalar {b : UInt8} {rest : Bytes} {v : Nat} {bs tail : Bytes}
    (h : split b rest = (.scalar v bs, tail)) : IsScalar v ∧ bs = encode v := by
  have hlt := b.toNat_lt
  unfold split at h
  simp only [UInt8.lt_iff_toNat_lt, UInt8.reduceToNat] at h
  split at h
  · cases h
    next hb =>
    refine ⟨.inl (by omega), ?_⟩
    rw [encode, if_pos hb, octet_eq rfl]
  · split at h
    · next hb =>
      have hb := between_eq_true.1 hb
      simp only [UInt8.reduceToNat] at hb
      split at h
      · next c tail =>
        split at h
        · next hc =>
          have hc := isContinuation_eq_true.1 hc
          cases h
          unfold payload IsScalar encode
          rw [if_neg (by omega), if_pos (by omega), octet_eq (b := b) (by omega),
            octet_eq (b := c) (by omega)]
          exact ⟨.inl (by omega), rfl⟩
        · cases h
      · cases h
    · split at h
      · next hb =>
        have hb := between_eq_true.1 hb
        simp only [UInt8.reduceToNat] at hb
        split at h
        · next c d tail =>
          split at h
          · next hcd =>
            obtain ⟨hc, hd⟩ := Bool.and_eq_true_iff.1 hcd
            have hc := (isSecond_three hb).1 hc
            have hd := isContinuation_eq_true.1 hd
            cases h
            unfold payload IsScalar encode
            rw [if_neg (by omega), if_neg (by omega), if_pos (by omega),
              octet_eq (b := b) (by omega), octet_eq (b := c) (by omega),
              octet_eq (b := d) (by omega)]
            exact ⟨by omega, rfl⟩
          · cases h
        · cases h
      · split at h
        · next hb =>
          have hb := between_eq_true.1 hb
          simp only [UInt8.reduceToNat] at hb
          split at h
          · next c d e tail =>
            split at h
            · next hcde =>
              obtain ⟨hcd, he⟩ := Bool.and_eq_true_iff.1 hcde
              obtain ⟨hc, hd⟩ := Bool.and_eq_true_iff.1 hcd
              have hc := (isSecond_four hb).1 hc
              have hd := isContinuation_eq_true.1 hd
              have he := isContinuation_eq_true.1 he
              cases h
              unfold payload IsScalar encode
              rw [if_neg (by omega), if_neg (by omega), if_neg (by omega),
                octet_eq (b := b) (by omega), octet_eq (b := c) (by omega),
                octet_eq (b := d) (by omega), octet_eq (b := e) (by omega)]
              exact ⟨by omega, rfl⟩
            · cases h
          · cases h
        · cases h

/-- An encoding is split off as a whole. -/
theorem split_encode {v : Nat} (hv : IsScalar v) (rest : Bytes) :
    ∃ b tail, encode v = b :: tail ∧ split b (tail ++ rest) = (.scalar v (encode v), rest) := by
  have hv' : v < 0xD800 ∨ 0xDFFF < v ∧ v ≤ 0x10FFFF := hv
  unfold encode
  split
  · refine ⟨_, [], rfl, ?_⟩
    have hb : (octet v).toNat = v := by rw [toNat_octet]; omega
    unfold split
    rw [if_pos (by rw [UInt8.lt_iff_toNat_lt, hb]; simpa), hb]
    rfl
  · split
    · refine ⟨_, [_], rfl, ?_⟩
      have hb : (octet (0xC0 + v / 64)).toNat = 0xC0 + v / 64 := by rw [toNat_octet]; omega
      have hc : (octet (0x80 + v % 64)).toNat = 0x80 + v % 64 := by rw [toNat_octet]; omega
      unfold split
      rw [if_neg (by simp only [UInt8.lt_iff_toNat_lt, hb, UInt8.reduceToNat]; omega),
        if_pos (by simp only [between_eq_true, hb, UInt8.reduceToNat]; omega)]
      simp only [List.cons_append, List.nil_append]
      rw [if_pos (by simp only [isContinuation_eq_true, hc]; omega), payload, hb, hc]
      congr 2
      omega
    · split
      · refine ⟨_, [_, _], rfl, ?_⟩
        have hb : (octet (0xE0 + v / 4096)).toNat = 0xE0 + v / 4096 := by rw [toNat_octet]; omega
        have hc : (octet (0x80 + v / 64 % 64)).toNat = 0x80 + v / 64 % 64 := by
          rw [toNat_octet]; omega
        have hd : (octet (0x80 + v % 64)).toNat = 0x80 + v % 64 := by rw [toNat_octet]; omega
        unfold split
        rw [if_neg (by simp only [UInt8.lt_iff_toNat_lt, hb, UInt8.reduceToNat]; omega),
          if_neg (by simp only [between_eq_true, hb, UInt8.reduceToNat]; omega),
          if_pos (by simp only [between_eq_true, hb, UInt8.reduceToNat]; omega)]
        simp only [List.cons_append, List.nil_append]
        rw [if_pos (by
          rw [Bool.and_eq_true_iff, isSecond_three (by omega), isContinuation_eq_true]
          omega), payload, payload, hb, hc, hd]
        congr 2
        omega
      · refine ⟨_, [_, _, _], rfl, ?_⟩
        have hb : (octet (0xF0 + v / 262144)).toNat = 0xF0 + v / 262144 := by
          rw [toNat_octet]; omega
        have hc : (octet (0x80 + v / 4096 % 64)).toNat = 0x80 + v / 4096 % 64 := by
          rw [toNat_octet]; omega
        have hd : (octet (0x80 + v / 64 % 64)).toNat = 0x80 + v / 64 % 64 := by
          rw [toNat_octet]; omega
        have he : (octet (0x80 + v % 64)).toNat = 0x80 + v % 64 := by rw [toNat_octet]; omega
        unfold split
        rw [if_neg (by simp only [UInt8.lt_iff_toNat_lt, hb, UInt8.reduceToNat]; omega),
          if_neg (by simp only [between_eq_true, hb, UInt8.reduceToNat]; omega),
          if_neg (by simp only [between_eq_true, hb, UInt8.reduceToNat]; omega),
          if_pos (by simp only [between_eq_true, hb, UInt8.reduceToNat]; omega)]
        simp only [List.cons_append, List.nil_append]
        rw [if_pos (by
          rw [Bool.and_eq_true_iff, Bool.and_eq_true_iff, isSecond_four (by omega),
            isContinuation_eq_true, isContinuation_eq_true]
          omega), payload, payload, payload, hb, hc, hd, he]
        congr 2
        omega

/-- Induction over the units of a text. -/
theorem units_induction {motive : Bytes → Prop} (nil : motive [])
    (cons : ∀ b rest, motive (split b rest).2 → motive (b :: rest)) (s : Bytes) : motive s := by
  induction hn : s.length using Nat.strongRecOn generalizing s with
  | ind n ih =>
    cases s with
    | nil => exact nil
    | cons b rest =>
      have hle := length_split_le b rest
      have hlt : (split b rest).2.length < n := by
        simp only [List.length_cons] at hn
        omega
      exact cons b rest (ih _ hlt _ rfl)

theorem collect_eq (found : List Unit) (s : Bytes) :
    collect found s = found.reverse ++ units s := by
  induction s using units_induction generalizing found with
  | nil => simp [units, collect]
  | cons b rest ih =>
    rw [units, collect, collect, ih, ih [_]]
    simp

theorem units_nil : units [] = [] := by
  rw [units, collect]
  rfl

theorem scalars_nil : scalars [] = [] := by
  rw [scalars, units_nil]
  rfl

/-- The first unit of a text, and the units after it. -/
theorem units_cons (b : UInt8) (rest : Bytes) :
    units (b :: rest) = (split b rest).1 :: units (split b rest).2 := by
  rw [units, collect, collect_eq]
  rfl

/-- The units of an encoding in front of a text. -/
theorem units_encode_append {vs : List Nat} (h : ∀ v ∈ vs, IsScalar v) (s : Bytes) :
    units (vs.flatMap encode ++ s) = (vs.map fun v => .scalar v (encode v)) ++ units s := by
  induction vs with
  | nil => rfl
  | cons v vs ih =>
    obtain ⟨b, tail, hb, hsplit⟩ := split_encode (h v (by simp)) (vs.flatMap encode ++ s)
    rw [List.flatMap_cons, hb, List.cons_append, List.cons_append, List.append_assoc, units_cons,
      hsplit, ih fun w hw => h w (by simp [hw])]
    rfl

/-- The scalar values of an encoding in front of a text. -/
theorem scalars_encode_append {vs : List Nat} (h : ∀ v ∈ vs, IsScalar v) (s : Bytes) :
    scalars (vs.flatMap encode ++ s) = vs ++ scalars s := by
  rw [scalars, units_encode_append h, List.map_append, List.map_map]
  exact congrArg (· ++ scalars s) (List.map_id' vs)

/-- **The scalar values of an encoding** are the values that were encoded. -/
theorem scalars_encode {vs : List Nat} (h : ∀ v ∈ vs, IsScalar v) :
    scalars (vs.flatMap encode) = vs := by
  simpa [scalars_nil] using scalars_encode_append h []

/-- An encoding is valid. -/
theorem isValid_encode {vs : List Nat} (h : ∀ v ∈ vs, IsScalar v) :
    isValid (vs.flatMap encode) = true := by
  have hunits := units_encode_append h []
  rw [List.append_nil, units_nil, List.append_nil] at hunits
  rw [isValid, hunits, List.all_map]
  exact List.all_eq_true.2 fun v _ => rfl

/-- A unit of a text that is no stray byte is the encoding of a scalar value. -/
theorem unit_of_not_stray {s : Bytes} {u : Unit} (hu : u ∈ units s) (hs : u.isStray = false) :
    IsScalar u.value ∧ u.bytes = encode u.value := by
  induction s using units_induction with
  | nil =>
    rw [units_nil] at hu
    cases hu
  | cons b rest ih =>
    rw [units_cons] at hu
    rcases List.mem_cons.1 hu with rfl | hu
    · cases hsplit : (split b rest).1 with
      | stray c => simp [hsplit, Unit.isStray] at hs
      | scalar v bs => exact split_eq_scalar (Prod.ext hsplit rfl)
    · exact ih hu

/-- The bytes of the units of a text are the text. -/
theorem bytes_units (s : Bytes) : (units s).flatMap Unit.bytes = s := by
  induction s using units_induction with
  | nil => rw [units_nil]; rfl
  | cons b rest ih => rw [units_cons, List.flatMap_cons, ih, bytes_split]

/-- The scalar values of a text have an encoding: a stray byte counts as a character that has
one. -/
theorem isScalar_of_mem_scalars {s : Bytes} {v : Nat} (hv : v ∈ scalars s) : IsScalar v := by
  have hreplacement : IsScalar replacement := .inr (by decide)
  obtain ⟨u, hu, rfl⟩ := List.mem_map.1 hv
  cases hs : u.isStray with
  | true =>
    cases u with
    | scalar => cases hs
    | stray => exact hreplacement
  | false => exact (unit_of_not_stray hu hs).1

/-- **A valid text** is the encoding of its scalar values. -/
theorem encode_scalars {s : Bytes} (h : isValid s = true) : (scalars s).flatMap encode = s := by
  have hunits : ∀ u ∈ units s, encode u.value = u.bytes := by
    intro u hu
    have hs := List.all_eq_true.1 h u hu
    exact (unit_of_not_stray hu (by simpa using hs)).2.symm
  calc (scalars s).flatMap encode = (units s).flatMap fun u => encode u.value := by
        rw [scalars, List.flatMap_map]
    _ = (units s).flatMap Unit.bytes := by
        simp only [List.flatMap_def, List.map_congr_left hunits]
    _ = s := bytes_units s

/-! ### ASCII -/

/-- An ASCII byte stands in no encoding but its own. -/
theorem eq_of_mem_encode {v : Nat} (hv : IsScalar v) {b : UInt8} (hb : b < 0x80)
    (hmem : b ∈ encode v) : v = b.toNat := by
  have hv' : v < 0xD800 ∨ 0xDFFF < v ∧ v ≤ 0x10FFFF := hv
  simp only [UInt8.lt_iff_toNat_lt, UInt8.reduceToNat] at hb
  unfold encode at hmem
  split at hmem
  · rw [List.mem_singleton.1 hmem, toNat_octet]
    omega
  -- every byte of a longer encoding is 0x80 or more
  · split at hmem
    · simp only [List.mem_cons, List.not_mem_nil, or_false] at hmem
      rcases hmem with rfl | rfl <;> rw [toNat_octet] at hb <;> omega
    · split at hmem
      · simp only [List.mem_cons, List.not_mem_nil, or_false] at hmem
        rcases hmem with rfl | rfl | rfl <;> rw [toNat_octet] at hb <;> omega
      · simp only [List.mem_cons, List.not_mem_nil, or_false] at hmem
        rcases hmem with rfl | rfl | rfl | rfl <;> rw [toNat_octet] at hb <;> omega

theorem encode_ascii {b : UInt8} (hb : b < 0x80) : encode b.toNat = [b] := by
  have hlt : b.toNat < 0x80 := UInt8.lt_iff_toNat_lt.1 hb
  rw [encode, if_pos hlt, octet_eq rfl]

/-- A stray byte is no ASCII byte. -/
theorem not_ascii_of_stray {s : Bytes} {c : UInt8} (h : .stray c ∈ units s) : ¬ c < 0x80 := by
  induction s using units_induction with
  | nil =>
    rw [units_nil] at h
    cases h
  | cons b rest ih =>
    rw [units_cons] at h
    rcases List.mem_cons.1 h with hfirst | hrest
    · intro hc
      have hbytes := bytes_split b rest
      rw [← hfirst] at hbytes
      obtain rfl : c = b := (List.cons.inj hbytes).1
      rw [split.eq_def, if_pos hc] at hfirst
      cases hfirst
    · exact ih hrest

/-- An ASCII byte of a text is a unit of its own. -/
theorem scalar_mem_units {s : Bytes} {b : UInt8} (hb : b < 0x80) (hmem : b ∈ s) :
    .scalar b.toNat [b] ∈ units s := by
  rw [← bytes_units s] at hmem
  obtain ⟨u, hu, hbu⟩ := List.mem_flatMap.1 hmem
  cases u with
  | stray c =>
    obtain rfl : b = c := List.mem_singleton.1 hbu
    exact absurd hb (not_ascii_of_stray hu)
  | scalar v bs =>
    obtain ⟨hv, hbs⟩ := unit_of_not_stray hu rfl
    have hbs : bs = encode v := hbs
    obtain rfl : v = b.toNat := eq_of_mem_encode hv hb (hbs ▸ hbu)
    rw [hbs, encode_ascii hb] at hu
    exact hu

end ForthFrontend.Utf8
