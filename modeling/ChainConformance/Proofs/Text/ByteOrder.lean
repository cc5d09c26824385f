import ChainConformance.Bytes

/-!
# The order of texts and of their bytes

Texts are compared character by character, their UTF-8 forms byte by byte. Both orders are the same:

* `utf8EncodeChar_lt`: the form of a smaller character is smaller at a byte that both forms have, so
  that nothing which follows can change the order;
* `ofString_lt_iff`: a text is smaller exactly if its UTF-8 form is.
-/

namespace ChainConformance.Bytes

theorem utf8EncodeChar_lt {c d : Char} (less : c < d) (s t : Bytes) :
    String.utf8EncodeChar c ++ s < String.utf8EncodeChar d ++ t := by
  have less : c.val.toNat < d.val.toNat := less
  have bound : d.val.toNat < 0x110000 := by
    rcases d.valid with low | high <;> omega
  have second (n : Nat) : n / 4096 = n / 64 / 64 := (Nat.div_div_eq_div_mul n 64 64).symm
  have first (n : Nat) : n / 262144 = n / 64 / 64 / 64 := by
    rw [Nat.div_div_eq_div_mul, Nat.div_div_eq_div_mul]
  simp only [String.utf8EncodeChar]
  -- a longer form starts with a higher byte; forms of one length are numbers to the base 64
  repeat' split
  all_goals
    simp only [List.cons_append, List.nil_append, List.cons_lt_cons_iff, UInt8.lt_iff_toNat_lt,
      ← UInt8.toNat_inj, UInt8.toNat_ofNat', first, second]
    omega

theorem append_lt_append_iff {front s t : Bytes} : front ++ s < front ++ t ↔ s < t := by
  induction front with
  | nil => rfl
  | cons x front ih => simp [ih]

/-- The order of texts is that of their UTF-8 forms. -/
theorem ofString_lt_iff {a b : String} : ofString a < ofString b ↔ a < b := by
  rw [String.lt_iff, ← String.ofList_toList (s := a), ← String.ofList_toList (s := b),
    ofString_ofList, ofString_ofList, String.toList_ofList, String.toList_ofList]
  generalize a.toList = s
  generalize b.toList = t
  have start (c : Char) (s : List Char) :
      [] < (c :: s).flatMap String.utf8EncodeChar := by
    obtain ⟨x, xs, e⟩ := List.exists_cons_of_ne_nil (String.utf8EncodeChar_ne_nil (c := c))
    rw [List.flatMap_cons, e]
    exact List.nil_lt_cons ..
  induction s generalizing t with
  | nil =>
    cases t with
    | nil => simp
    | cons d t => exact iff_of_true (start d t) (List.nil_lt_cons ..)
  | cons c s ih =>
    cases t with
    | nil => exact iff_of_false (List.not_lt_nil _) (List.not_lt_nil _)
    | cons d t =>
      rw [List.cons_lt_cons_iff, List.flatMap_cons, List.flatMap_cons]
      rcases Nat.lt_trichotomy c.toNat d.toNat with less | same | more
      · exact iff_of_true (utf8EncodeChar_lt less _ _) (.inl less)
      · cases Char.toNat_inj.mp same
        exact (append_lt_append_iff.trans (ih t)).trans (by simp)
      · refine iff_of_false (List.lt_asymm (utf8EncodeChar_lt more _ _)) ?_
        rintro (less | ⟨rfl, -⟩)
        · exact Nat.lt_asymm less more
        · exact Nat.lt_irrefl _ more

end ChainConformance.Bytes
