import ChainConformance.Wire.Varint

/-!
# Which byte strings are varints

`Sevens s n` is the rule of the format: seven bits a byte, the lowest first, the high bit set in all
bytes but the last. A varint has ten bytes at most and a value below 2^64 (`IsVarint`); it need not
be the shortest one. Proved here:

* `readVarint?_eq_some_iff`: the reader takes a varint off the front, and refuses what has none;
* `isVarint_varint`: the writer writes one;
* `length_varint_le_of_sevens`: the one that is written is the shortest.
-/

namespace ChainConformance.Wire

/-- Groups of seven bits with the number that they denote. -/
inductive Sevens : Bytes → Nat → Prop
  | last {x : UInt8} (h : x < 128) : Sevens [x] x.toNat
  | more {x : UInt8} {s : Bytes} {n : Nat} (h : ¬ x < 128) (rest : Sevens s n) :
      Sevens (x :: s) (x.toNat - 128 + 128 * n)

/-- At most ten groups that denote a number of 64 bits. -/
def IsVarint (s : Bytes) (n : Nat) : Prop := Sevens s n ∧ s.length ≤ 10 ∧ n < UInt64.size

/-- One more than the largest number that fits after `place` groups. -/
def room (place : Nat) : Nat := 2 * Nat.pow 128 (9 - place)

theorem room_succ {place : Nat} (h : place < 9) : room place = 128 * room (place + 1) := by
  have e : 9 - place = (9 - (place + 1)) + 1 := by omega
  rw [room, room, e]
  change 2 * (Nat.pow 128 (9 - (place + 1)) * 128) = _
  omega

theorem room_pos (place : Nat) : 0 < room place := Nat.mul_pos (by decide) (Nat.pow_pos (by decide))

theorem Sevens.length_pos {s : Bytes} {n : Nat} (h : Sevens s n) : 0 < s.length := by
  cases h <;> simp

theorem IsVarint.length_pos {s : Bytes} {n : Nat} (h : IsVarint s n) : 0 < s.length :=
  h.1.length_pos

/-! ## Reading -/

theorem readVarint?_of_sevens {place n : Nat} {v : Bytes} (rest : Bytes) (groups : Sevens v n)
    (length : place + v.length ≤ 10) (small : n < room place) :
    readVarint? place (v ++ rest) = some (n, rest) := by
  induction groups generalizing place with
  | @last x low =>
    rw [List.singleton_append, readVarint?]
    by_cases tenth : place = 9
    · have : x < 2 := by
        rw [tenth] at small
        exact UInt8.lt_iff_toNat_lt.mpr small
      rw [if_pos tenth, if_pos this]
    · rw [if_neg tenth, if_pos low]
  | @more x s n high groups ih =>
    have := groups.length_pos
    rw [List.length_cons] at length
    have early : place < 9 := by omega
    rw [room_succ early] at small
    have smaller : n < room (place + 1) := by omega
    have inner := ih (by omega) smaller
    rw [List.cons_append, readVarint?, if_neg (Nat.ne_of_lt early), if_neg high, inner,
      Option.map_some]

theorem sevens_of_readVarint? {place n : Nat} {s rest : Bytes} (h : place ≤ 9)
    (read : readVarint? place s = some (n, rest)) :
    ∃ v, s = v ++ rest ∧ Sevens v n ∧ place + v.length ≤ 10 ∧ n < room place := by
  induction s generalizing place n with
  | nil => simp [readVarint?] at read
  | cons x tail ih =>
    rw [readVarint?] at read
    split at read
    · next tenth =>
      split at read
      · next small =>
        cases read
        have value := UInt8.lt_iff_toNat_lt.mp small
        refine ⟨[x], rfl, .last (UInt8.lt_trans small (by decide)), by simp [tenth], ?_⟩
        rw [tenth]
        exact value
      · exact absurd read (by simp)
    · next early =>
      have early : place < 9 := by omega
      split at read
      · next low =>
        cases read
        refine ⟨[x], rfl, .last low, by simp; omega, ?_⟩
        have value := UInt8.lt_iff_toNat_lt.mp low
        have := room_pos (place + 1)
        rw [room_succ early]
        simp at value
        omega
      · next high =>
        obtain ⟨⟨m, rest'⟩, inner, e⟩ := Option.map_eq_some_iff.mp read
        cases e
        obtain ⟨v, rfl, groups, length, small⟩ := ih early inner
        refine ⟨x :: v, rfl, .more high groups, by simp; omega, ?_⟩
        have value := x.toNat_lt
        have small : m < room (place + 1) := small
        rw [room_succ early]
        change x.toNat - 128 + 128 * m < _
        omega

/-- The reader takes off one varint. -/
theorem readVarint?_eq_some_iff {s rest : Bytes} {n : Nat} :
    readVarint? 0 s = some (n, rest) ↔ ∃ v, s = v ++ rest ∧ IsVarint v n := by
  constructor
  · intro read
    obtain ⟨v, e, groups, length, small⟩ := sevens_of_readVarint? (Nat.zero_le 9) read
    exact ⟨v, e, groups, by omega, small⟩
  · rintro ⟨v, rfl, groups, length, small⟩
    exact readVarint?_of_sevens rest groups (by omega) small

/-! ## Writing -/

theorem sevens_varint (n : Nat) : Sevens (varint n) n := by
  fun_induction varint n with
  | case1 n low =>
    have e : (UInt8.ofNat n).toNat = n := UInt8.toNat_ofNat_of_lt' (Nat.lt_trans low (by decide))
    have below : UInt8.ofNat n < 128 := by
      rw [UInt8.lt_iff_toNat_lt, e]
      exact low
    have group := Sevens.last below
    rwa [e] at group
  | case2 n high ih =>
    have e : (UInt8.ofNat (128 + n % 128)).toNat = 128 + n % 128 :=
      UInt8.toNat_ofNat_of_lt' (show 128 + n % 128 < 256 by omega)
    have groups := Sevens.more (x := UInt8.ofNat (128 + n % 128)) (by
      rw [UInt8.lt_iff_toNat_lt, e]
      simp) ih
    have value : 128 + n % 128 - 128 + 128 * (n / 128) = n := by omega
    rwa [e, value] at groups

theorem length_varint_le {place n : Nat} (h : place ≤ 9) (small : n < room place) :
    place + (varint n).length ≤ 10 := by
  fun_induction varint n generalizing place with
  | case1 n low =>
    rw [List.length_singleton]
    omega
  | case2 n high ih =>
    have early : place < 9 := by
      rcases Nat.lt_or_ge place 9 with early | late
      · exact early
      · have tenth : place = 9 := by omega
        rw [tenth] at small
        change n < 2 at small
        omega
    rw [room_succ early] at small
    have smaller : n / 128 < room (place + 1) := by omega
    have := ih early smaller
    rw [List.length_cons]
    omega

/-- What is written for a number of 64 bits is a varint. -/
theorem isVarint_varint {n : Nat} (h : n < UInt64.size) : IsVarint (varint n) n :=
  ⟨sevens_varint n, by simpa using length_varint_le (Nat.zero_le 9) h, h⟩

/-- No groups that denote a number are fewer than those written for it or for a smaller one. -/
theorem length_varint_le_of_sevens {v : Bytes} {m n : Nat} (groups : Sevens v n) (h : m ≤ n) :
    (varint m).length ≤ v.length := by
  induction groups generalizing m with
  | @last x low =>
    have value := UInt8.lt_iff_toNat_lt.mp low
    have small : m < 128 := Nat.lt_of_le_of_lt h value
    rw [varint, if_pos small]
    exact Nat.le_refl 1
  | @more x s n high groups ih =>
    by_cases small : m < 128
    · rw [varint, if_pos small]
      simp
    · have value := x.toNat_lt
      have smaller : m / 128 ≤ n := by omega
      rw [varint, if_neg small]
      exact Nat.succ_le_succ (ih smaller)

theorem length_varint_mono {m n : Nat} (h : m ≤ n) : (varint m).length ≤ (varint n).length :=
  length_varint_le_of_sevens (sevens_varint n) h

end ChainConformance.Wire
