import ChainConformance.Asn1.Writer

/-!
# What DER bytes say

The encodings of elements determine the elements. Proved here:

* `encode_injective`: an element is determined by its bytes, whatever its size;
* `encode_append_injective`: a short element is determined by the bytes that it starts;
* `sequence_eq_singleton`: a sequence that reads like one short element consists of it.
-/

namespace ChainConformance.Der

theorem length_of_short {n : Nat} (h : n < 128) : length n = [UInt8.ofNat n] := if_pos h

theorem length_minimal_div {n : Nat} (h : n ≠ 0) :
    (Bytes.minimal n).length = (Bytes.minimal (n / 256)).length + 1 := by
  rw [Bytes.minimal, dif_neg h, List.length_append, List.length_singleton]

theorem length_minimal_mono {m n : Nat} (h : m ≤ n) :
    (Bytes.minimal m).length ≤ (Bytes.minimal n).length := by
  induction n using Nat.strongRecOn generalizing m with
  | ind n ih =>
    by_cases zero : m = 0
    · rw [zero, Bytes.minimal, dif_pos rfl]
      exact Nat.zero_le _
    · have positive : n ≠ 0 := by omega
      have smaller := ih (n / 256) (by omega) (Nat.div_le_div_right h)
      rw [length_minimal_div zero, length_minimal_div positive]
      omega

theorem length_length (n : Nat) :
    (length n).length = if n < 128 then 1 else (Bytes.minimal n).length + 1 := by
  rw [length]
  split <;> simp

theorem length_length_mono {m n : Nat} (h : m ≤ n) : (length m).length ≤ (length n).length := by
  have := length_minimal_mono h
  rw [length_length, length_length]
  split
  · split <;> omega
  · split <;> omega

theorem length_encode (tag : UInt8) (contents : Bytes) :
    (encode tag contents).length = (length contents.length).length + contents.length + 1 := by
  simp [encode]

theorem length_encode_mono {tag : UInt8} {contents contents' : Bytes}
    (h : contents.length ≤ contents'.length) :
    (encode tag contents).length ≤ (encode tag contents').length := by
  have := length_length_mono h
  rw [length_encode, length_encode]
  omega

/-- An element is determined by its bytes. -/
theorem encode_injective {tag tag' : UInt8} {contents contents' : Bytes}
    (h : encode tag contents = encode tag' contents') : tag = tag' ∧ contents = contents' := by
  have size := congrArg List.length h
  rw [length_encode, length_encode] at size
  -- a longer content makes a longer element, so the contents have one length
  have same : contents.length = contents'.length := by
    rcases Nat.lt_trichotomy contents.length contents'.length with less | equal | more
    · have := length_length_mono (Nat.le_of_lt less)
      omega
    · exact equal
    · have := length_length_mono (Nat.le_of_lt more)
      omega
  obtain ⟨tags, rest⟩ := List.cons.inj h
  rw [same] at rest
  exact ⟨tags, List.append_cancel_left rest⟩

/-- Short elements that start the same bytes are the same, and so is what follows. -/
theorem encode_append_injective {tag tag' : UInt8} {contents contents' rest rest' : Bytes}
    (short : contents.length < 128) (short' : contents'.length < 128)
    (h : encode tag contents ++ rest = encode tag' contents' ++ rest') :
    tag = tag' ∧ contents = contents' ∧ rest = rest' := by
  simp only [encode, length_of_short short, length_of_short short', List.cons_append,
    List.nil_append, List.cons.injEq] at h
  obtain ⟨tags, counts, after⟩ := h
  have same : contents.length = contents'.length := by
    have values := congrArg UInt8.toNat counts
    rwa [UInt8.toNat_ofNat_of_lt' (Nat.lt_trans short (by decide)),
      UInt8.toNat_ofNat_of_lt' (Nat.lt_trans short' (by decide))] at values
  obtain ⟨inside, left⟩ := List.append_inj after same
  exact ⟨tags, inside, left⟩

theorem sequence_eq_singleton {tag : UInt8} {parts : List Bytes} {contents : Bytes}
    (short : contents.length < 120)
    (h : sequence (parts.map (encode tag)) = sequence [encode tag contents]) :
    parts = [contents] := by
  have inside := (encode_injective h).2
  rw [List.flatten_singleton] at inside
  cases parts with
  | nil => cases inside
  | cons first others =>
    rw [List.map_cons, List.flatten_cons] at inside
    have size := congrArg List.length inside
    rw [List.length_append, length_encode, length_encode,
      length_of_short (Nat.lt_trans short (by decide)), List.length_singleton] at size
    have small : first.length < 128 := by omega
    rw [← List.append_nil (encode tag contents)] at inside
    obtain ⟨-, rfl, left⟩ := encode_append_injective small (Nat.lt_trans short (by decide)) inside
    cases others with
    | nil => rfl
    | cons second others =>
      rw [List.map_cons, List.flatten_cons, encode] at left
      cases left

end ChainConformance.Der
