import ChainConformance.Encoding.Base64
import ChainConformance.Text.Blank
import Mathlib.Control.Basic
import Mathlib.Data.Option.Basic

/-!
# Base-64 texts and byte strings

A text that is written for a byte string is made of symbols and of padding at its end, and is read
back: `mem_encode` and `decode?_encode`. The proof goes group by group; `decodeGroup?_symbols` and
its two siblings are the groups of three bytes, of two and of one.
-/

namespace ChainConformance.Base64

/-! ## Symbols -/

theorem value?_symbol : ∀ n < 64, value? (symbol n) = some n := by decide

theorem symbol_ne_padding : ∀ n < 64, symbol n ≠ '=' := by decide

/-- The characters of base-64 texts. -/
def IsCharacter (c : Char) : Prop := c = '=' ∨ ∃ n < 64, c = symbol n

/-- They are neither blanks nor dashes. -/
theorem IsCharacter.visible {c : Char} (h : IsCharacter c) :
    Text.isBlank c = false ∧ c ≠ '-' ∧ c ≠ '\n' := by
  have table : ∀ n < 64, Text.isBlank (symbol n) = false ∧ symbol n ≠ '-' ∧ symbol n ≠ '\n' := by
    decide
  rcases h with rfl | ⟨n, small, rfl⟩
  · decide
  · exact table n small

/-! ## Groups -/

section
variable {x y z w : Nat} (hx : x < 64) (hy : y < 64)
include hx hy

theorem decodeGroup?_symbols (hz : z < 64) (hw : w < 64) :
    decodeGroup? (symbol x) (symbol y) (symbol z) (symbol w) =
      some [UInt8.ofNat (x * 4 + y / 16), UInt8.ofNat (y % 16 * 16 + z / 4),
        UInt8.ofNat (z % 4 * 64 + w)] := by
  simp [decodeGroup?, value?_symbol x hx, value?_symbol y hy, value?_symbol z hz,
    value?_symbol w hw, symbol_ne_padding z hz, symbol_ne_padding w hw]

theorem decodeGroup?_one_padding (hz : z < 64) (unused : z % 4 = 0) :
    decodeGroup? (symbol x) (symbol y) (symbol z) '=' =
      some [UInt8.ofNat (x * 4 + y / 16), UInt8.ofNat (y % 16 * 16 + z / 4)] := by
  simp [decodeGroup?, value?_symbol x hx, value?_symbol y hy, value?_symbol z hz,
    symbol_ne_padding z hz, unused]

theorem decodeGroup?_two_paddings (unused : y % 16 = 0) :
    decodeGroup? (symbol x) (symbol y) '=' '=' = some [UInt8.ofNat (x * 4 + y / 16)] := by
  simp [decodeGroup?, value?_symbol x hx, value?_symbol y hy, unused]

end

/-! ## Texts -/

theorem ofNat_of_eq {a : UInt8} {n : Nat} (h : n = a.toNat) : UInt8.ofNat n = a := by
  rw [h, UInt8.ofNat_toNat]

/-- What is written is read back. -/
theorem decode?_encode (b : Bytes) : decode? (encode b) = some b := by
  fun_induction encode b with
  | case1 => rfl
  | case2 a =>
    have ha := a.toNat_lt
    rw [decode?, decodeGroup?_two_paddings (by omega) (by omega) (by omega),
      ofNat_of_eq (a := a) (by omega)]
    rfl
  | case3 a b =>
    have ha := a.toNat_lt
    have hb := b.toNat_lt
    rw [decode?, decodeGroup?_one_padding (by omega) (by omega) (by omega) (by omega),
      ofNat_of_eq (a := a) (by omega), ofNat_of_eq (a := b) (by omega)]
    rfl
  | case4 a b c rest ih =>
    have ha := a.toNat_lt
    have hb := b.toNat_lt
    have hc := c.toNat_lt
    rw [decode?, decodeGroup?_symbols (by omega) (by omega) (by omega) (by omega), ih,
      ofNat_of_eq (a := a) (by omega), ofNat_of_eq (a := b) (by omega),
      ofNat_of_eq (a := c) (by omega)]
    rfl

theorem isCharacter_symbol {n : Nat} (small : n < 64) : IsCharacter (symbol n) :=
  Or.inr ⟨n, small, rfl⟩

theorem isCharacter_padding : IsCharacter '=' := Or.inl rfl

theorem mem_encode (b : Bytes) : ∀ c ∈ encode b, IsCharacter c := by
  fun_induction encode b with
  | case1 => simp
  | case2 a =>
    have ha := a.toNat_lt
    simp only [List.forall_mem_cons]
    exact ⟨isCharacter_symbol (by omega), isCharacter_symbol (by omega), isCharacter_padding,
      isCharacter_padding, by simp⟩
  | case3 a b =>
    have ha := a.toNat_lt
    have hb := b.toNat_lt
    simp only [List.forall_mem_cons]
    exact ⟨isCharacter_symbol (by omega), isCharacter_symbol (by omega),
      isCharacter_symbol (by omega), isCharacter_padding, by simp⟩
  | case4 a b c rest ih =>
    have ha := a.toNat_lt
    have hb := b.toNat_lt
    have hc := c.toNat_lt
    simp only [List.forall_mem_cons]
    exact ⟨isCharacter_symbol (by omega), isCharacter_symbol (by omega),
      isCharacter_symbol (by omega), isCharacter_symbol (by omega), ih⟩

end ChainConformance.Base64
