import ChainConformance.Json.Decode
import ChainConformance.Proofs.Json.RoundTrip
import ChainConformance.Proofs.Outcome

/-!
# Decoding what this library writes

The values that this library makes of texts, numbers, lists, records and maps give back what they
were made of. Proved here:

* `asUInt32?_nat`, `asUInt64?_nat`, `asWord?_str`, `asList?_list`: values without members;
* `asRecord?_obj`: the fields of a record, in the order in which they are asked for;
* `asEntries?_obj`: the entries of a map, whose keys may be numbers (`Literal.asUInt32?_decimal`).
-/

namespace ChainConformance.Json

/-! ## Values without members -/

theorem asNat?_nat {limit n : Nat} (small : n < limit) : (nat n).asNat? limit = some n := by
  have bounds : 0 ≤ (n : Int) ∧ (n : Int).toNat < limit := ⟨Int.natCast_nonneg n, small⟩
  rw [nat, asNat?, if_pos bounds, Int.toNat_natCast]

theorem asUInt32?_nat (n : UInt32) : (nat n.toNat).asUInt32? = some n := by
  rw [asUInt32?, asNat?_nat n.toNat_lt, Option.map_some, UInt32.ofNat_toNat]

theorem asUInt64?_nat (n : UInt64) : (nat n.toNat).asUInt64? = some n := by
  rw [asUInt64?, asNat?_nat n.toNat_lt, Option.map_some, UInt64.ofNat_toNat]

theorem asString?_str (s : String) : (str s).asString? = some s := rfl

theorem written_nat (n : Nat) : Written (nat n) := .int n

theorem written_list {α : Type} {write : α → Json} {xs : List α}
    (parts : ∀ x ∈ xs, Written (write x)) : Written (list write xs) := by
  apply Written.array
  intro v member
  obtain ⟨x, present, rfl⟩ := List.mem_map.mp member
  exact parts x present

section
variable {α : Type}

theorem asWord?_str {f : String → Option α} {name : α → String} (x : α)
    (named : f (name x) = some x) : (str (name x)).asWord? f = some x :=
  named

/-- What is read back item by item is read back as a list. -/
theorem asList?_list {f : Json → Option α} {write : α → Json} {xs : List α}
    (undone : ∀ x ∈ xs, f (write x) = some x) : (list write xs).asList? f = some xs :=
  mapM_map_undone undone

/-! ## Records -/

theorem under_cons (key : String) (m : String × Json) (members : List (String × Json)) :
    under key (literals (m :: members)) =
      if m.1 = key then m.2 :: under key (literals members) else under key (literals members) := by
  have text : (Literal.ofString m.1).text = some m.1 := rfl
  rw [under, literals, List.map_cons, List.filterMap_cons, text]
  by_cases same : m.1 = key
  · rw [if_pos same, if_pos (congrArg some same)]
    rfl
  · rw [if_neg same, if_neg fun h => same (Option.some.inj h)]
    rfl

theorem under_of_not_mem {key : String} {members : List (String × Json)}
    (absent : key ∉ members.map (·.1)) : under key (literals members) = [] := by
  induction members with
  | nil => rfl
  | cons m rest ih =>
    rw [List.map_cons, List.mem_cons, not_or] at absent
    rw [under_cons, if_neg (Ne.symm absent.1), ih absent.2]

/-- Where no field occurs twice, each has its value. -/
theorem under_of_mem {members : List (String × Json)} (distinct : (members.map (·.1)).Nodup)
    {m : String × Json} (member : m ∈ members) : under m.1 (literals members) = [m.2] := by
  induction members with
  | nil => cases member
  | cons x rest ih =>
    rw [List.map_cons, List.nodup_cons] at distinct
    rcases List.mem_cons.mp member with rfl | later
    · rw [under_cons, if_pos rfl, under_of_not_mem distinct.1]
    · have other : x.1 ≠ m.1 := by
        intro same
        exact distinct.1 (same ▸ List.mem_map_of_mem later)
      rw [under_cons, if_neg other, ih distinct.2 later]

/-- A record gives back its fields. -/
theorem asRecord?_obj {members : List (String × Json)} (distinct : (members.map (·.1)).Nodup) :
    (obj members).asRecord? (members.map (·.1)) = some (members.map (·.2)) := by
  have texts : (literals members).all (·.1.text.isSome) = true := by
    rw [List.all_eq_true]
    intro m member
    obtain ⟨_, -, rfl⟩ := List.mem_map.mp member
    rfl
  change (if (literals members).all (·.1.text.isSome) = true then _ else none) = _
  rw [if_pos texts]
  refine mapM_map_eq_some fun m member => ?_
  have one := under_of_mem distinct member
  rw [literals] at one
  rw [one]

/-- So a record gives back the values that are put under its fields. -/
theorem asRecord?_of_eq {v : Json} {fields : List String} {values : List Json}
    (record : v = obj (fields.zip values)) (distinct : fields.Nodup)
    (all : fields.length = values.length) : v.asRecord? fields = some values := by
  have names : (fields.zip values).map (·.1) = fields := List.map_fst_zip all.le
  have parts : (fields.zip values).map (·.2) = values := List.map_snd_zip all.ge
  have whole := asRecord?_obj (names.symm ▸ distinct)
  rw [names, parts] at whole
  rw [record, whole]

/-! ## Maps -/

/-- A map gives back its entries, if its keys and values are read back. -/
theorem asEntries?_obj {κ : Type} {key : Literal → Option κ} (name : κ → String)
    {f : Json → Option α} (write : α → Json) {entries : List (κ × α)}
    (keys : ∀ e ∈ entries, key (.ofString (name e.1)) = some e.1)
    (values : ∀ e ∈ entries, f (write e.2) = some e.2) :
    (obj (entries.map fun e => (name e.1, write e.2))).asEntries? key f = some entries := by
  rw [obj, asEntries?, List.map_map]
  refine mapM_map_undone fun e member => ?_
  simp [keys e member, values e member]

end

/-- A number in its shortest form is a key. -/
theorem Literal.asUInt32?_decimal (n : UInt32) :
    (Literal.ofString (Text.decimal n.toNat)).asUInt32? = some n := by
  have plain : (Text.decimal n.toNat).toList.all isPlain = true := by
    rw [List.all_eq_true, Text.decimal, String.toList_ofList]
    intro c member
    have digit := isDigit_of_mem_toDigits member
    have quote := ne_of_isDigit digit (x := '"') (by decide)
    have backslash := ne_of_isDigit digit (x := '\\') (by decide)
    have visible : 0x20 ≤ c.toNat := by
      have low : '0' ≤ c := by
        rw [isDigit, Bool.and_eq_true, decide_eq_true_eq] at digit
        exact digit.1
      have first : '0'.toNat ≤ c.toNat := low
      exact le_trans (by decide) first
    simp [isPlain, quote, backslash, visible]
  have value : Nat.ofDigitChars 10 (Text.decimal n.toNat).toList 0 = n.toNat := by
    rw [Text.decimal, String.toList_ofList, Nat.ofDigitChars_ten_toDigits]
  simp [Literal.asUInt32?, Literal.ofString, plain, value, n.toNat_lt, UInt32.ofNat_toNat]

end ChainConformance.Json
