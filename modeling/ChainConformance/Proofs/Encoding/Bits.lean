import ChainConformance.Encoding.Bits
import Mathlib.Data.List.Induction

/-!
# Bits and groups of bits

Numbers and lists of bits of a fixed width are the same thing: `toNat_ofNat` and `ofNat_toNat`.
`groups_flatten_append` cuts a list into the groups that it was put together from,
`flatten_map_pad_groups` puts the filled groups of a list together again.
-/

namespace ChainConformance.Bits

/-! ## Numbers -/

@[simp] theorem length_ofNat (width n : Nat) : (ofNat width n).length = width := by
  induction width with
  | zero => rfl
  | succ width ih => simp [ofNat, ih]

theorem toNat_append_singleton (bits : List Bool) (b : Bool) :
    toNat (bits ++ [b]) = 2 * toNat bits + b.toNat := by
  simp [toNat]

/-- The lowest bit stands last. -/
theorem ofNat_succ (width n : Nat) :
    ofNat (width + 1) n = ofNat width (n / 2) ++ [n.testBit 0] := by
  induction width with
  | zero => rfl
  | succ width ih => rw [ofNat, ih, ofNat, Nat.testBit_succ, List.cons_append]

/-- The bits of the upper part of a number stand before those of the lower part. -/
theorem ofNat_add (upper lower n : Nat) :
    ofNat (upper + lower) n = ofNat upper (n >>> lower) ++ ofNat lower n := by
  induction upper with
  | zero => rw [Nat.zero_add, ofNat, List.nil_append]
  | succ upper ih =>
    rw [Nat.succ_add, ofNat, ofNat, ih, Nat.testBit_shiftRight, Nat.add_comm lower,
      List.cons_append]

theorem toNat_ofNat {width n : Nat} (h : n < Nat.pow 2 width) : toNat (ofNat width n) = n := by
  induction width generalizing n with
  | zero =>
    have e : n = 0 := Nat.lt_one_iff.mp h
    rw [e]
    rfl
  | succ width ih =>
    have half : n / 2 < Nat.pow 2 width := Nat.div_lt_of_lt_mul (by rw [Nat.mul_comm]; exact h)
    rw [ofNat_succ, toNat_append_singleton, ih half, Nat.testBit_zero]
    rcases Nat.mod_two_eq_zero_or_one n with e | e <;> simp [e] <;> omega

theorem ofNat_toNat (bits : List Bool) : ofNat bits.length (toNat bits) = bits := by
  induction bits using List.reverseRecOn with
  | nil => rfl
  | append_singleton bits b ih =>
    have half : (2 * toNat bits + b.toNat) / 2 = toNat bits := by
      cases b with
      | false => simp
      | true => simp; omega
    have low : (2 * toNat bits + b.toNat).testBit 0 = b := by
      cases b <;> simp [Nat.testBit_zero]
    rw [List.length_append, List.length_singleton, ofNat_succ, toNat_append_singleton, half, low,
      ih]

theorem ofNat_toNat_of_length {width : Nat} {bits : List Bool} (h : bits.length = width) :
    ofNat width (toNat bits) = bits := by
  rw [← h, ofNat_toNat]

theorem toNat_lt (bits : List Bool) : toNat bits < Nat.pow 2 bits.length := by
  induction bits using List.reverseRecOn with
  | nil => decide
  | append_singleton bits b ih =>
    have double : Nat.pow 2 (bits ++ [b]).length = 2 * Nat.pow 2 bits.length := by
      rw [List.length_append, List.length_singleton, Nat.mul_comm]
      rfl
    rw [toNat_append_singleton, double]
    have := Bool.toNat_le b
    omega

/-! ## Bytes -/

theorem length_ofBytes (b : Bytes) : (ofBytes b).length = 8 * b.length := by
  induction b with
  | nil => rfl
  | cons x rest ih =>
    rw [ofBytes, List.flatMap_cons, List.length_append, length_ofNat, ← ofBytes, ih,
      List.length_cons]
    omega

theorem toNat_ofNat_byte (x : UInt8) : toNat (ofNat 8 x.toNat) = x.toNat :=
  toNat_ofNat x.toNat_lt

/-! ## Groups -/

section
variable {α : Type} {size : Nat}

theorem groups_append {group : List α} (h : group.length = size + 1) (xs : List α) :
    groups size (group ++ xs) = group :: groups size xs := by
  cases group with
  | nil => simp at h
  | cons x rest =>
    have length : rest.length = size := Nat.succ.inj h
    rw [List.cons_append, groups, List.take_left' length, List.drop_left' length]

theorem groups_flatten_append {chunks : List (List α)}
    (h : ∀ chunk ∈ chunks, chunk.length = size + 1) (xs : List α) :
    groups size (chunks.flatten ++ xs) = chunks ++ groups size xs := by
  induction chunks with
  | nil => rfl
  | cons chunk chunks ih =>
    rw [List.flatten_cons, List.append_assoc, groups_append (h chunk (by simp)),
      ih fun c member => h c (by simp [member]), List.cons_append]

theorem groups_flatten {chunks : List (List α)} (h : ∀ chunk ∈ chunks, chunk.length = size + 1) :
    groups size chunks.flatten = chunks := by
  simpa [groups] using groups_flatten_append h []

theorem flatten_groups (size : Nat) (xs : List α) : (groups size xs).flatten = xs := by
  fun_induction groups size xs with
  | case1 => rfl
  | case2 x rest ih => rw [List.flatten_cons, ih, List.cons_append, List.take_append_drop]

/-- All groups are full if the length allows it. -/
theorem length_of_mem_groups {xs group : List α} (full : xs.length % (size + 1) = 0)
    (h : group ∈ groups size xs) : group.length = size + 1 := by
  fun_induction groups size xs with
  | case1 => simp at h
  | case2 x rest ih =>
    have room : size ≤ rest.length := by
      rcases Nat.lt_or_ge rest.length size with short | room
      · rw [List.length_cons, Nat.mod_eq_of_lt (by omega)] at full
        omega
      · exact room
    rcases List.mem_cons.mp h with rfl | h
    · simp [room]
    · refine ih ?_ h
      have e : (x :: rest).length = (rest.drop size).length + (size + 1) := by simp; omega
      rwa [e, Nat.add_mod_right] at full

theorem length_le_of_mem_groups {xs group : List α} (h : group ∈ groups size xs) :
    group.length ≤ size + 1 := by
  fun_induction groups size xs with
  | case1 => simp at h
  | case2 x rest ih =>
    rcases List.mem_cons.mp h with rfl | h
    · simp only [List.length_cons, List.length_take]
      omega
    · exact ih h

/-- All groups but the last are full, and the last is not empty. -/
theorem exists_groups (size : Nat) {xs : List α} (some : xs ≠ []) :
    ∃ full last, groups size xs = full ++ [last] ∧ (∀ group ∈ full, group.length = size + 1) ∧
      last ≠ [] ∧ last.length ≤ size + 1 := by
  fun_induction groups size xs with
  | case1 => exact absurd rfl some
  | case2 x rest ih =>
    by_cases empty : rest.drop size = []
    · refine ⟨[], x :: rest.take size, by rw [empty, groups, List.nil_append], by simp, by simp, ?_⟩
      simp only [List.length_cons, List.length_take]
      omega
    · obtain ⟨full, last, e, lengths, ends⟩ := ih empty
      have room : size < rest.length := by
        rw [List.drop_eq_nil_iff] at empty
        omega
      refine ⟨(x :: rest.take size) :: full, last, by rw [e, List.cons_append], ?_, ends⟩
      refine List.forall_mem_cons.mpr ⟨?_, lengths⟩
      rw [List.length_cons, List.length_take, Nat.min_eq_left (Nat.le_of_lt room)]

/-- As many groups as it takes to hold all elements. -/
theorem length_groups (size : Nat) (xs : List α) :
    (groups size xs).length = (xs.length + size) / (size + 1) := by
  fun_induction groups size xs with
  | case1 => exact (Nat.div_eq_of_lt (by simp)).symm
  | case2 x rest ih =>
    rw [List.length_cons, ih, List.length_drop, List.length_cons, ← Nat.add_div_right _ (by omega)]
    rcases Nat.lt_or_ge rest.length size with short | room
    · -- nothing is left for a second group
      have one : ∀ n, size + 1 ≤ n → n < 2 * (size + 1) → n / (size + 1) = 1 :=
        fun n low high => Nat.div_eq_of_lt_le (by omega) (by omega)
      rw [one _ (by omega) (by omega), one _ (by omega) (by omega)]
    · congr 1
      omega

end

/-! ## Filling up the last group -/

theorem length_pad {size : Nat} {group : List Bool} (h : group.length ≤ size) :
    (pad size group).length = size := by
  simp [pad]
  omega

/-- Filling up adds fewer bits than a group has. -/
theorem flatten_map_pad_groups (size : Nat) (bits : List Bool) :
    ∃ k ≤ size, ((groups size bits).map (pad (size + 1))).flatten =
      bits ++ List.replicate k false := by
  fun_induction groups size bits with
  | case1 => exact ⟨0, Nat.zero_le _, rfl⟩
  | case2 x rest ih =>
    rcases Nat.lt_or_ge rest.length size with short | room
    · refine ⟨size - rest.length, Nat.sub_le _ _, ?_⟩
      rw [List.take_of_length_le (Nat.le_of_lt short), List.drop_of_length_le (Nat.le_of_lt short)]
      simp [pad, groups]
    · obtain ⟨k, few, e⟩ := ih
      refine ⟨k, few, ?_⟩
      have full : size - min size rest.length = 0 := by omega
      rw [List.map_cons, List.flatten_cons, e, ← List.append_assoc]
      simp [pad, full]

end ChainConformance.Bits
