import ChainConformance.Json.Basic

/-!
# Reading records out of JSON

The forms in which the values of this library may be written. A record is an object with each field
once and anything else besides, or an array of exactly its fields in order; of a map key given
twice the last counts; a word may stand alone or as the only key of an object with `null`.
-/

namespace ChainConformance.Json

/-- The text of a string. -/
def asString? : Json → Option String
  | .string s => s.text
  | _ => none

/-- An integer below `limit`. -/
def asNat? (limit : Nat) : Json → Option Nat
  | .int n => if 0 ≤ n ∧ n.toNat < limit then some n.toNat else none
  | _ => none

theorem lt_of_asNat? {limit n : Nat} {v : Json} (read : v.asNat? limit = some n) : n < limit := by
  cases v with
  | int i =>
    rw [asNat?, Option.ite_none_right_eq_some] at read
    obtain ⟨⟨-, bound⟩, ⟨⟩⟩ := read
    exact bound
  | null | bool | decimal | string | array | object => cases read

def asList? {α : Type} (f : Json → Option α) : Json → Option (List α)
  | .array items => items.mapM f
  | _ => none

def asUInt32? (v : Json) : Option UInt32 := (v.asNat? UInt32.size).map UInt32.ofNat

def asUInt64? (v : Json) : Option UInt64 := (v.asNat? UInt64.size).map UInt64.ofNat

/-- One of the given words. -/
def asWord? {α : Type} (f : String → Option α) : Json → Option α
  | .string s => s.text.bind f
  | .object [(k, .null)] => k.text.bind f
  | _ => none

/-- The values under a key, in order. -/
def under (key : String) (members : List (Literal × Json)) : List Json :=
  members.filterMap fun m => if m.1.text = some key then some m.2 else none

/-- The values of the fields of a record. -/
def asRecord? (fields : List String) : Json → Option (List Json)
  | .object members =>
    if members.all (·.1.text.isSome) then
      fields.mapM fun field =>
        match under field members with
        | [v] => some v
        | _ => none
    else none
  | .array items => if items.length = fields.length then some items else none
  | _ => none

/-- The entries of a map, in order. -/
def asEntries? {κ α : Type} (key : Literal → Option κ) (f : Json → Option α) :
    Json → Option (List (κ × α))
  | .object members => members.mapM fun m => do
    let k ← key m.1
    let v ← f m.2
    return (k, v)
  | _ => none

/-- A key that is a number below 2^32 in its shortest form, written without escapes. -/
def Literal.asUInt32? (s : Literal) : Option UInt32 := do
  guard s.plain
  let text ← s.text
  let n := Nat.ofDigitChars 10 text.toList 0
  guard (text = Text.decimal n ∧ n < UInt32.size)
  return UInt32.ofNat n

end ChainConformance.Json
