import ChainConformance.Encoding.Base32
import ChainConformance.Proofs.Encoding.Bits

/-!
# Base-32 texts and byte strings

`IsText b s` says what the base-32 text of a byte string is: the symbols of `s` spell the bits of
`b`, five a symbol, and then fewer than five bits `false`. Proved here:

* `decode_eq_ok_iff`: `decode` accepts the text of each byte string and nothing else;
* `isText_encode`: what `encode` writes is that text.
-/

namespace ChainConformance.Base32

/-- The symbols of `s` spell the bits of `b` and then fewer than five bits `false`. -/
def IsText (b s : Bytes) : Prop :=
  ∃ ns : List Nat, (∀ n ∈ ns, n < 32) ∧ s = ns.map symbol ∧
    ∃ k < 5, ns.flatMap (Bits.ofNat 5) = Bits.ofBytes b ++ List.replicate k false

/-! ## Symbols -/

theorem value?_symbol : ∀ n < 32, value? (symbol n) = some n := by decide

theorem symbol_of_value? {c : UInt8} {n : Nat} (h : value? c = some n) : n < 32 ∧ symbol n = c := by
  have table : ∀ i < 256, ∀ n ∈ value? (UInt8.ofNat i), n < 32 ∧ symbol n = UInt8.ofNat i := by
    decide +kernel
  have e := table c.toNat c.toNat_lt
  rw [UInt8.ofNat_toNat] at e
  exact e n h

theorem values_map_symbol {ns : List Nat} (h : ∀ n ∈ ns, n < 32) (offset : Nat) :
    values offset (ns.map symbol) = .ok ns := by
  induction ns generalizing offset with
  | nil => rfl
  | cons n rest ih =>
    have head := value?_symbol n (h n (by simp))
    have tail := ih (fun m member => h m (by simp [member])) (offset + 1)
    simp only [List.map_cons, values, head, tail, Except.map]

theorem map_symbol_of_values {offset : Nat} {s : Bytes} {ns : List Nat}
    (h : values offset s = .ok ns) : (∀ n ∈ ns, n < 32) ∧ s = ns.map symbol := by
  induction s generalizing offset ns with
  | nil =>
    cases h
    simp
  | cons c rest ih =>
    rw [values] at h
    cases first : value? c with
    | none => simp [first] at h
    | some n =>
      cases others : values (offset + 1) rest with
      | error fault => simp [first, others, Except.map] at h
      | ok ms =>
        simp only [first, others, Except.map, Except.ok.injEq] at h
        obtain ⟨small, e⟩ := symbol_of_value? first
        obtain ⟨below, rfl⟩ := ih others
        subst h
        exact ⟨by simpa [small] using below, by rw [List.map_cons, e]⟩

/-! ## Bits of symbols -/

theorem length_flatMap_ofNat (width : Nat) (ns : List Nat) :
    (ns.flatMap (Bits.ofNat width)).length = width * ns.length := by
  induction ns with
  | nil => rfl
  | cons n rest ih =>
    rw [List.flatMap_cons, List.length_append, Bits.length_ofNat, ih, List.length_cons]
    exact (Nat.mul_succ width rest.length).symm ▸ Nat.add_comm _ _

theorem map_toNat_groups (b : Bytes) :
    (Bits.groups 7 (Bits.ofBytes b)).map (fun byte => UInt8.ofNat (Bits.toNat byte)) = b := by
  rw [Bits.ofBytes, List.flatMap_def, Bits.groups_flatten (by simp), List.map_map]
  have e : ∀ x : UInt8, UInt8.ofNat (Bits.toNat (Bits.ofNat 8 x.toNat)) = x := by
    intro x
    rw [Bits.toNat_ofNat_byte, UInt8.ofNat_toNat]
  simp [Function.comp_def, e]

/-- Whole bytes of bits are the bits of the bytes that they are cut into. -/
theorem ofBytes_map_toNat_groups {bits : List Bool} (whole : bits.length % 8 = 0) :
    Bits.ofBytes ((Bits.groups 7 bits).map fun byte => UInt8.ofNat (Bits.toNat byte)) = bits := by
  have e : ∀ byte ∈ Bits.groups 7 bits,
      Bits.ofNat 8 (UInt8.ofNat (Bits.toNat byte)).toNat = byte := by
    intro byte member
    have length := Bits.length_of_mem_groups whole member
    have small := Bits.toNat_lt byte
    rw [length] at small
    rw [UInt8.toNat_ofNat_of_lt' small, Bits.ofNat_toNat_of_length length]
  rw [Bits.ofBytes, List.flatMap_map, List.flatMap_def, List.map_congr_left e, List.map_id',
    Bits.flatten_groups]

/-- The bits of the bytes are among those of the symbols. -/
theorem bits_le_of_isText {b s : Bytes} (h : IsText b s) : 8 * b.length ≤ 5 * s.length := by
  obtain ⟨ns, -, rfl, k, -, spelled⟩ := h
  have := congrArg List.length spelled
  rw [length_flatMap_ofNat, List.length_append, Bits.length_ofBytes, List.length_replicate] at this
  rw [List.length_map]
  omega

theorem length_le_of_isText {b s : Bytes} (h : IsText b s) : b.length ≤ s.length := by
  have := bits_le_of_isText h
  omega

/-! ## Decoding -/

theorem decode_of_isText {b s : Bytes} (h : IsText b s) : decode s = .ok b := by
  obtain ⟨ns, below, rfl, k, few, spelled⟩ := h
  have length : 5 * ns.length = 8 * b.length + k := by
    have := congrArg List.length spelled
    rwa [length_flatMap_ofNat, List.length_append, Bits.length_ofBytes,
      List.length_replicate] at this
  have used : ns.length * 5 / 8 * 8 = (Bits.ofBytes b).length := by
    rw [Bits.length_ofBytes]
    omega
  have admitted : ¬ (ns.length % 8 = 1 ∨ ns.length % 8 = 3 ∨ ns.length % 8 = 6) := by omega
  rw [decode, List.length_map, if_neg admitted, values_map_symbol below]
  simp only [bind, Except.bind, spelled, used, List.drop_left, List.take_left, map_toNat_groups]
  simp

theorem isText_of_decode {b s : Bytes} (h : decode s = .ok b) : IsText b s := by
  rw [decode] at h
  split at h
  · exact absurd h (by simp)
  · next admitted =>
    cases read : values 0 s with
    | error fault => simp [read, bind, Except.bind] at h
    | ok ns =>
      obtain ⟨below, rfl⟩ := map_symbol_of_values read
      rw [List.length_map] at admitted
      simp only [read, bind, Except.bind, List.length_map] at h
      split at h
      · exact absurd h (by simp)
      · next zeros =>
        cases h
        -- the bits that are used, as many as whole bytes take, and the others, which are `false`
        generalize used : ns.length * 5 / 8 * 8 = count at zeros ⊢
        have length := length_flatMap_ofNat 5 ns
        have whole : ((ns.flatMap (Bits.ofNat 5)).take count).length = count := by
          rw [List.length_take]
          omega
        have unused : (ns.flatMap (Bits.ofNat 5)).drop count =
            List.replicate (5 * ns.length - count) false := by
          refine List.eq_replicate_iff.mpr ⟨by rw [List.length_drop, length], fun bit member => ?_⟩
          have := List.any_eq_false.mp (Bool.eq_false_iff.mpr zeros) bit member
          simpa using this
        have few : 5 * ns.length - count < 5 := by
          have lengths : ns.length % 8 = 0 ∨ ns.length % 8 = 2 ∨ ns.length % 8 = 4 ∨
              ns.length % 8 = 5 ∨ ns.length % 8 = 7 := by omega
          rcases lengths with e | e | e | e | e <;> omega
        refine ⟨ns, below, rfl, 5 * ns.length - count, few, ?_⟩
        rw [ofBytes_map_toNat_groups (by omega), ← unused, List.take_append_drop]

theorem decode_eq_ok_iff {b s : Bytes} : decode s = .ok b ↔ IsText b s :=
  ⟨isText_of_decode, decode_of_isText⟩

/-! ## Encoding -/

theorem isText_encode (b : Bytes) : IsText b (encode b) := by
  obtain ⟨k, few, spelled⟩ := Bits.flatten_map_pad_groups 4 (Bits.ofBytes b)
  have full : ∀ chunk ∈ (Bits.groups 4 (Bits.ofBytes b)).map (Bits.pad 5), chunk.length = 5 := by
    intro chunk member
    obtain ⟨group, cut, rfl⟩ := List.mem_map.mp member
    exact Bits.length_pad (Bits.length_le_of_mem_groups cut)
  refine ⟨((Bits.groups 4 (Bits.ofBytes b)).map (Bits.pad 5)).map Bits.toNat, ?_, ?_, k,
    Nat.lt_succ_of_le few, ?_⟩
  · intro n member
    obtain ⟨chunk, cut, rfl⟩ := List.mem_map.mp member
    have small := Bits.toNat_lt chunk
    rwa [full chunk cut] at small
  · simp [encode, Function.comp_def]
  · rw [List.flatMap_map, List.flatMap_def, ← spelled]
    refine congrArg List.flatten ?_
    exact (List.map_congr_left fun chunk member =>
      Bits.ofNat_toNat_of_length (full chunk member)).trans (List.map_id _)

/-- The bits of the bytes are rounded up to whole symbols. -/
theorem length_encode (b : Bytes) : (encode b).length = (8 * b.length + 4) / 5 := by
  rw [encode, List.length_map, Bits.length_groups, Bits.length_ofBytes]

end ChainConformance.Base32
