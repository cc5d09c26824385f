import ChainConformance.X509.DistinguishedName

/-!
# Identifiers that keep their form

An object identifier is taken apart into numbers and put together again when a name is issued.
`Oid.IsPlain` describes the contents that come out as they went in. Proved here:

* `arcsFrom_flatMap`: numbers in groups of seven bits are read back;
* `normalOid?_eq_self_iff`: the identifiers that stay as they are.
-/

namespace ChainConformance

open X509.DistinguishedName

/-- The contents are empty, or a byte below 128 and numbers of nine bytes at most, each in as few
groups of seven bits as it takes. -/
def Oid.IsPlain (oid : Bytes) : Prop :=
  oid = [] ∨ ∃ (first : UInt8) (numbers : List Nat), first < 128 ∧
    (∀ n ∈ numbers, (Der.base128 n).length ≤ 9) ∧ oid = first :: numbers.flatMap Der.base128

/-! ## One number -/

namespace Der

/-- A group that is not the last one of its number. -/
theorem toNat_high (n : Nat) : (UInt8.ofNat (128 + n % 128)).toNat = 128 + n % 128 := by
  rw [UInt8.toNat_ofNat']
  omega

theorem high_not_low (n : Nat) : ¬ UInt8.ofNat (128 + n % 128) < 128 := by
  rw [UInt8.lt_iff_toNat_lt, toNat_high]
  exact Nat.not_lt.mpr (Nat.le_add_right 128 _)

theorem toNat_low (n : Nat) : (UInt8.ofNat (n % 128)).toNat = n % 128 := by
  rw [UInt8.toNat_ofNat']
  omega

theorem low_lt (n : Nat) : UInt8.ofNat (n % 128) < 128 := by
  rw [UInt8.lt_iff_toNat_lt, toNat_low]
  exact Nat.mod_lt n (by decide)

theorem base128_go_zero (after : Bytes) : base128.go 0 after = after := by
  rw [base128.go, if_pos rfl]

theorem base128_go_of_ne {n : Nat} (positive : n ≠ 0) (after : Bytes) :
    base128.go n after = base128.go (n / 128) (UInt8.ofNat (128 + n % 128) :: after) := by
  rw [base128.go, if_neg positive]

theorem base128_go_append (n : Nat) (after rest : Bytes) :
    base128.go n after ++ rest = base128.go n (after ++ rest) := by
  fun_induction base128.go n after with
  | case1 after => rw [base128_go_zero]
  | case2 n after positive ih => rw [ih, base128_go_of_ne positive, List.cons_append]

theorem length_base128_go (n : Nat) (after : Bytes) :
    (base128.go n after).length = (base128.go n []).length + after.length := by
  have split := base128_go_append n [] after
  rw [List.nil_append] at split
  rw [← split, List.length_append]

theorem base128_of_lt {n : Nat} (h : n < 128) : base128 n = [UInt8.ofNat n] := by
  rw [base128, Nat.div_eq_of_lt h, base128_go_zero, Nat.mod_eq_of_lt h]

end Der

namespace Oid

/-- The groups in front of the last one add up to a number. -/
theorem arcsFrom_go {n : Nat} (positive : n ≠ 0) (isOpen : Bool) (after : Bytes) :
    arcsFrom 0 isOpen (Der.base128.go n after) = arcsFrom n true after := by
  fun_induction Der.base128.go n after with
  | case1 after => exact absurd rfl positive
  | case2 n after _ ih =>
    have step (m : Nat) (o : Bool) : arcsFrom m o (UInt8.ofNat (128 + n % 128) :: after) =
        arcsFrom (m * 128 + n % 128) true after := by
      have value : (128 + n % 128) % 128 = n % 128 := by omega
      rw [arcsFrom, if_neg (Der.high_not_low n), Der.toNat_high, value]
    by_cases one : n / 128 = 0
    · rw [one, Der.base128_go_zero, step]
      congr 1
      omega
    · rw [ih one, step]
      congr 1
      omega

theorem arcsFrom_base128 (n : Nat) (rest : Bytes) :
    arcsFrom 0 false (Der.base128 n ++ rest) = n :: arcsFrom 0 false rest := by
  have step (m : Nat) (o : Bool) : arcsFrom m o (UInt8.ofNat (n % 128) :: rest) =
      (m * 128 + n % 128) :: arcsFrom 0 false rest := by
    rw [arcsFrom, if_pos (Der.low_lt n), Der.toNat_low, Nat.mod_mod]
  rw [Der.base128, Der.base128_go_append, List.singleton_append]
  by_cases one : n / 128 = 0
  · rw [one, Der.base128_go_zero, step]
    congr 1
    omega
  · rw [arcsFrom_go one, step]
    congr 1
    omega

/-! ## All numbers -/

theorem arcsFrom_flatMap (numbers : List Nat) :
    arcsFrom 0 false (numbers.flatMap Der.base128) = numbers := by
  induction numbers with
  | nil => rfl
  | cons n numbers ih => rw [List.flatMap_cons, arcsFrom_base128, ih]

theorem fits_go (count n : Nat) (after : Bytes) :
    normalOid?.fits count (Der.base128.go n after) =
      normalOid?.fits (count + (Der.base128.go n []).length) after := by
  fun_induction Der.base128.go n after generalizing count with
  | case1 after => rw [Der.base128_go_zero, List.length_nil, Nat.add_zero]
  | case2 n after positive ih =>
    rw [ih, normalOid?.fits, if_neg (Der.high_not_low n), Der.base128_go_of_ne positive,
      Der.length_base128_go (n / 128) [_]]
    rfl

theorem fits_flatMap (numbers : List Nat) :
    normalOid?.fits 0 (numbers.flatMap Der.base128) = true ↔
      ∀ n ∈ numbers, (Der.base128 n).length ≤ 9 := by
  induction numbers with
  | nil => simp [normalOid?.fits]
  | cons n numbers ih =>
    have length : (Der.base128 n).length = (Der.base128.go (n / 128) []).length + 1 := by
      rw [Der.base128, Der.length_base128_go]
      rfl
    rw [List.flatMap_cons, List.forall_mem_cons, ← ih, length, Der.base128, Der.base128_go_append,
      fits_go, List.singleton_append, normalOid?.fits, if_pos (Der.low_lt n)]
    simp [Nat.lt_succ_iff]

/-- Nothing is a byte `1` in front of its own shortest form: that form would start with the same
byte, and so on without an end. -/
theorem ne_one_cons (s : Bytes) : s ≠ 1 :: (arcsFrom 0 false s).flatMap Der.base128 := by
  induction s with
  | nil => simp
  | cons x rest ih =>
    intro h
    obtain ⟨rfl, inner⟩ := List.cons.inj h
    have one : arcsFrom 0 false ((1 : UInt8) :: rest) = 1 :: arcsFrom 0 false rest := by
      rw [arcsFrom, if_pos (by decide)]
      rfl
    rw [one, List.flatMap_cons, Der.base128_of_lt (by decide)] at inner
    exact ih inner

/-- The shortest form of contents that are not empty. -/
theorem ofArcs_arcs (x : UInt8) (rest : Bytes) :
    ofArcs (arcs (x :: rest)) =
      Der.base128 x.toNat ++ (arcsFrom 0 false rest).flatMap Der.base128 := by
  have parts : 40 * (x.toNat / 40) + x.toNat % 40 = x.toNat := by omega
  by_cases zero : x = 0 ∧ rest = []
  · obtain ⟨rfl, rfl⟩ := zero
    decide +kernel
  · have split : arcs (x :: rest) =
        x.toNat / 40 :: x.toNat % 40 :: arcsFrom 0 false rest := by
      rw [arcs]
      exact fun first last => zero ⟨first, last⟩
    rw [split, ofArcs, Der.oidContents, parts]

/-- The identifiers that stay as they are. -/
theorem normalOid?_eq_self_iff {oid : Bytes} : normalOid? oid = some oid ↔ IsPlain oid := by
  cases oid with
  | nil => exact ⟨fun _ => Or.inl rfl, fun _ => rfl⟩
  | cons x rest =>
    rw [normalOid?, Option.ite_none_right_eq_some, Option.some.injEq, ofArcs_arcs, List.drop_one,
      List.tail_cons]
    constructor
    · rintro ⟨fit, kept⟩
      by_cases low : x < 128
      · rw [Der.base128_of_lt (UInt8.lt_iff_toNat_lt.mp low), UInt8.ofNat_toNat,
          List.singleton_append, List.cons.injEq] at kept
        rw [← kept.2, fits_flatMap] at fit
        exact Or.inr ⟨x, _, low, fit, congrArg _ kept.2.symm⟩
      · -- the first number then takes two bytes, of which the second is the first one less 128
        have bound := x.toNat_lt
        have high : ¬ x.toNat < 128 := fun h => low (UInt8.lt_iff_toNat_lt.mpr h)
        have one : x.toNat / 128 = 1 := by omega
        have two : Der.base128 x.toNat = [129, UInt8.ofNat (x.toNat % 128)] := by
          rw [Der.base128, one, Der.base128_go_of_ne (by decide), Der.base128_go_zero]
          rfl
        rw [two, List.cons_append, List.singleton_append, List.cons.injEq] at kept
        obtain ⟨rfl, kept⟩ := kept
        exact absurd kept.symm (ne_one_cons rest)
    · rintro (empty | ⟨first, numbers, low, short, e⟩)
      · cases empty
      · cases e
        rw [fits_flatMap, arcsFrom_flatMap, Der.base128_of_lt (UInt8.lt_iff_toNat_lt.mp low),
          UInt8.ofNat_toNat]
        exact ⟨short, rfl⟩

end Oid

end ChainConformance
