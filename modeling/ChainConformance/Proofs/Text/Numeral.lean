import ChainConformance.Proofs.Text.Pieces
import ChainConformance.Text.Numeral

/-!
# What numerals denote

`IsNumeral n s` says without the reader that `s` is written for `n`. Proved here:

* `read_eq_ok_iff`: below the limit, numerals are read as what they denote, and nothing else is
  read;
* `isNumeral_decimal`: what is written for a number is a numeral of it;
* `not_mem_of_isNumeral`, `visible_of_isNumeral`: what is in no numeral, blanks among it.
-/

namespace ChainConformance.Text

namespace Numeral

/-- An optional plus sign and at least one decimal digit; the digits denote `n`. -/
inductive IsNumeral (n : Nat) : List Char → Prop
  | mk {sign digits : List Char} (signed : sign = [] ∨ sign = ['+']) (some : digits ≠ [])
      (all : ∀ c ∈ digits, isDigit c = true) (value : Nat.ofDigitChars 10 digits 0 = n) :
      IsNumeral n (sign ++ digits)

theorem le_ofDigitChars (digits : List Char) (value : Nat) :
    value ≤ Nat.ofDigitChars 10 digits value := by
  induction digits generalizing value with
  | nil => exact Nat.le_of_eq Nat.ofDigitChars_nil.symm
  | cons c digits ih =>
    rw [Nat.ofDigitChars_cons]
    have := ih (10 * value + (c.toNat - '0'.toNat))
    omega

/-- The limit is checked at every digit, but the value only grows. -/
theorem readDigits_eq_ok_iff {limit value n : Nat} {digits : List Char} :
    readDigits limit value digits = .ok n ↔ (∀ c ∈ digits, isDigit c = true) ∧
      Nat.ofDigitChars 10 digits value = n ∧ (digits ≠ [] → n < limit) := by
  induction digits generalizing value with
  | nil => simp [readDigits]
  | cons c digits ih =>
    have next : value * 10 + digitValue c = 10 * value + (c.toNat - '0'.toNat) := by
      rw [digitValue, Nat.mul_comm]
    rw [readDigits, next, List.forall_mem_cons, Nat.ofDigitChars_cons]
    split
    · next digit =>
      split
      · next small =>
        rw [ih]
        constructor
        · rintro ⟨all, rfl, below⟩
          refine ⟨⟨digit, all⟩, rfl, fun _ => ?_⟩
          cases digits with
          | nil => exact small
          | cons d digits => exact below (List.cons_ne_nil d digits)
        · rintro ⟨⟨-, all⟩, rfl, below⟩
          exact ⟨all, rfl, fun _ => below (List.cons_ne_nil c digits)⟩
      · next large =>
        refine ⟨fun h => (by cases h), ?_⟩
        rintro ⟨-, rfl, below⟩
        exact absurd (Nat.lt_of_le_of_lt (le_ofDigitChars digits _)
          (below (List.cons_ne_nil c digits))) large
    · next other => exact ⟨fun h => (by cases h), fun h => absurd h.1.1 other⟩

/-- The first character decides which of the two forms is read. -/
theorem read_eq_ok_iff {limit n : Nat} {s : List Char} :
    read limit s = .ok n ↔ IsNumeral n s ∧ n < limit := by
  constructor
  · intro h
    rw [read.eq_def] at h
    split at h
    · cases h
    · cases h
    · next c rest =>
      obtain ⟨all, value, below⟩ := readDigits_eq_ok_iff.mp h
      exact ⟨.mk (.inr rfl) (List.cons_ne_nil c rest) all value, below (List.cons_ne_nil c rest)⟩
    · next c rest _ _ =>
      obtain ⟨all, value, below⟩ := readDigits_eq_ok_iff.mp h
      exact ⟨.mk (.inl rfl) (List.cons_ne_nil c rest) all value, below (List.cons_ne_nil c rest)⟩
  · rintro ⟨@⟨sign, digits, signed, some, all, value⟩, below⟩
    obtain ⟨c, rest, rfl⟩ := List.exists_cons_of_ne_nil some
    have whole : readDigits limit 0 (c :: rest) = .ok n :=
      readDigits_eq_ok_iff.mpr ⟨all, value, fun _ => below⟩
    rcases signed with rfl | rfl
    · have plain : c ≠ '+' := by
        rintro rfl
        cases all '+' List.mem_cons_self
      rw [List.nil_append, read.eq_def]
      split
      · next e => cases e
      · next e => exact absurd (List.cons.inj e).1 plain
      · next e => exact absurd (List.cons.inj e).1 plain
      · next e =>
        cases e
        exact whole
    · exact whole

theorem isNumeral_decimal (n : Nat) : IsNumeral n (decimal n).toList := by
  rw [decimal, String.toList_ofList]
  have digits : ∀ c ∈ Nat.toDigits 10 n, isDigit c = true := fun c member => by
    have digit := Nat.isDigit_of_mem_toDigits (by decide) (by decide) member
    exact digit
  exact .mk (.inl rfl) Nat.toDigits_ne_nil digits Nat.ofDigitChars_ten_toDigits

/-- A numeral consists of digits, apart from a plus sign. -/
theorem mem_of_isNumeral {n : Nat} {s : List Char} {c : Char} (h : IsNumeral n s) (member : c ∈ s) :
    isDigit c = true ∨ c = '+' := by
  obtain ⟨signed, -, all, -⟩ := h
  rcases List.mem_append.mp member with sign | digit
  · rcases signed with rfl | rfl
    · cases sign
    · exact .inr (List.mem_singleton.mp sign)
  · exact .inl (all c digit)

/-- A character that is no digit and no plus sign is in no numeral. -/
theorem not_mem_of_isNumeral {n : Nat} {s : List Char} {c : Char} (h : IsNumeral n s)
    (other : isDigit c = false) (unsigned : c ≠ '+') : c ∉ s := by
  intro member
  rcases mem_of_isNumeral h member with digit | sign
  · cases other.symm.trans digit
  · exact unsigned sign

theorem visible_of_isNumeral {n : Nat} {s : List Char} {c : Char} (h : IsNumeral n s)
    (member : c ∈ s) : isBlank c = false := by
  have far : ∀ code ∈ blanks, isDigit (Char.ofNat code) = false ∧ Char.ofNat code ≠ '+' := by
    decide
  rw [Bool.eq_false_iff]
  intro blank
  have other := far c.toNat (List.contains_iff_mem.mp blank)
  rw [Char.ofNat_toNat] at other
  exact not_mem_of_isNumeral h other.1 other.2 member

theorem ne_nil_of_isNumeral {n : Nat} {s : List Char} (h : IsNumeral n s) : s ≠ [] := by
  obtain ⟨-, some, -, -⟩ := h
  exact List.append_ne_nil_of_right_ne_nil _ some

end Numeral

end ChainConformance.Text
