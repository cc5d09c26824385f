import ChainConformance.Proofs.Asn1.Rereading

/-!
# Reading what is written, or nothing

Off the bytes that are written for a value, a strict reader gives that value, or it refuses them.
`Decides` says when it does which. Proved here:

* `decides_element?`, `decides_checked?`, `decides_guard`: for single elements;
* `decides_inside?`, `whole?_eq_some_iff`: for elements with contents, and whole byte strings;
* `decidesWhole_pair`, `decidesWhole_many?`: for values one after the other.
-/

namespace ChainConformance.Strict

variable {α : Type} {f : Bytes → Option (α × Bytes)} {s : Bytes} {x : α} {fine : Prop}

/-- The bytes are read as the value if it is fine, whatever follows, and not at all otherwise. -/
def Decides (f : Bytes → Option (α × Bytes)) (s : Bytes) (x : α) (fine : Prop) : Prop :=
  ∀ rest y after, f (s ++ rest) = some (y, after) ↔ fine ∧ y = x ∧ after = rest

/-- The bytes are read as the value up to their end if it is fine, and not so otherwise. -/
def DecidesWhole (f : Bytes → Option (α × Bytes)) (s : Bytes) (x : α) (fine : Prop) : Prop :=
  ∀ y, f s = some (y, []) ↔ fine ∧ y = x

theorem Decides.whole (h : Decides f s x fine) : DecidesWhole f s x fine := by
  intro y
  have alone := h [] y []
  rw [List.append_nil] at alone
  rw [alone, eq_self_iff_true, and_true]

/-- To go on after the value is to go on with what follows it. -/
theorem Decides.bind_eq_some_iff {β : Type} {g : α × Bytes → Option β} {rest : Bytes} {b : β}
    (h : Decides f s x fine) :
    (f (s ++ rest)).bind g = some b ↔ fine ∧ g (x, rest) = some b := by
  rw [Option.bind_eq_some_iff]
  constructor
  · rintro ⟨⟨y, after⟩, read, next⟩
    obtain ⟨good, rfl, rfl⟩ := (h _ _ _).mp read
    exact ⟨good, next⟩
  · rintro ⟨good, next⟩
    exact ⟨(x, rest), (h _ _ _).mpr ⟨good, rfl, rfl⟩, next⟩

theorem Decides.congr {fine' : Prop} (h : Decides f s x fine) (same : fine ↔ fine') :
    Decides f s x fine' := by
  rwa [← propext same]

/-! ## Single elements -/

theorem decides_element? {e : Element} (small : e.contents.length < lengthLimit) :
    Decides element? e.encode e (isTag e.tag = true) := by
  intro rest y after
  constructor
  · intro read
    obtain ⟨known, -, bytes⟩ := element?_eq_some_iff.mp read
    -- the tag stands in the first byte
    obtain ⟨tags, -⟩ := List.cons.inj bytes
    rw [← tags] at known
    cases (element?_encode known small rest).symm.trans read
    exact ⟨known, rfl, rfl⟩
  · rintro ⟨known, rfl, rfl⟩
    exact element?_encode known small _

theorem decides_checked? {tag : UInt8} {check : Bytes → Bool} {contents : Bytes}
    (known : isTag tag = true) (small : contents.length < lengthLimit) :
    Decides (checked? tag check) (Der.encode tag contents) contents (check contents = true) := by
  intro rest y after
  have read : contents? tag (Der.encode tag contents ++ rest) = some (contents, rest) :=
    contents?_eq_some_iff.mpr ⟨known, small, rfl⟩
  simp only [checked?, read, Option.pure_def, Option.bind_eq_bind, Option.bind_some,
    Option.bind_eq_some_iff, Option.guard_eq_some', Option.some.injEq, Prod.mk.injEq]
  constructor
  · rintro ⟨-, passes, rfl, rfl⟩
    exact ⟨passes, rfl, rfl⟩
  · rintro ⟨passes, rfl, rfl⟩
    exact ⟨(), passes, rfl, rfl⟩

/-- A check of what is read is one more condition. -/
theorem decides_guard {p : α → Prop} [DecidablePred p] (h : Decides f s x fine) :
    Decides (fun s => do
      let (x, rest) ← f s
      guard (p x)
      return (x, rest)) s x (fine ∧ p x) := by
  intro rest y after
  simp only [Option.pure_def, Option.bind_eq_bind, h.bind_eq_some_iff, Option.bind_eq_some_iff,
    Option.guard_eq_some', Option.some.injEq, Prod.mk.injEq, exists_const, and_assoc,
    @eq_comm _ y, @eq_comm _ after]

/-! ## Elements with contents -/

theorem decides_inside? {tag : UInt8} {contents : Bytes} (known : isTag tag = true)
    (small : contents.length < lengthLimit) (h : DecidesWhole f contents x fine) :
    Decides (inside? tag f) (Der.encode tag contents) x fine := by
  intro rest y after
  have read : contents? tag (Der.encode tag contents ++ rest) = some (contents, rest) :=
    contents?_eq_some_iff.mpr ⟨known, small, rfl⟩
  simp only [inside?, read, Option.pure_def, Option.bind_eq_bind, Option.bind_some,
    Option.bind_eq_some_iff, Option.guard_eq_some', Option.some.injEq, Prod.mk.injEq, Prod.exists,
    List.isEmpty_iff]
  constructor
  · rintro ⟨_, _, inner, -, rfl, rfl, rfl⟩
    obtain ⟨good, rfl⟩ := (h _).mp inner
    exact ⟨good, rfl, rfl⟩
  · rintro ⟨good, rfl, rfl⟩
    exact ⟨_, [], (h _).mpr ⟨good, rfl⟩, (), rfl, rfl, rfl⟩

/-- What is too long is refused as a whole. -/
theorem whole?_eq_some_iff (h : s.length < lengthLimit → Decides f s x fine) {y : α} :
    whole? f s = some y ↔ fine ∧ s.length < lengthLimit ∧ y = x := by
  by_cases small : s.length < lengthLimit
  · have alone := h small []
    rw [List.append_nil] at alone
    simp only [whole?, Option.pure_def, Option.bind_eq_bind, Option.bind_eq_some_iff,
      Option.guard_eq_some', Option.some.injEq, Prod.exists, List.isEmpty_iff, alone]
    constructor
    · rintro ⟨-, -, _, _, ⟨good, rfl, -⟩, -, -, rfl⟩
      exact ⟨good, small, rfl⟩
    · rintro ⟨good, -, rfl⟩
      exact ⟨(), small, _, _, ⟨good, rfl, rfl⟩, (), rfl, rfl⟩
  · simp [whole?, small]

/-! ## One after the other -/

theorem decidesWhole_pair {β γ : Type} {g : Bytes → Option (β × Bytes)} {s' : Bytes} {x' : β}
    {fine' : Prop} (first : Decides f s x fine) (second : DecidesWhole g s' x' fine')
    (mk : α → β → γ) :
    DecidesWhole (fun s => do
      let (x, rest) ← f s
      let (y, rest) ← g rest
      return (mk x y, rest)) (s ++ s') (mk x x') (fine ∧ fine') := by
  intro y
  simp only [Option.pure_def, Option.bind_eq_bind, first.bind_eq_some_iff, Option.bind_eq_some_iff,
    Option.some.injEq, Prod.mk.injEq, Prod.exists, and_assoc]
  refine and_congr_right fun _ => ⟨?_, ?_⟩
  · rintro ⟨_, _, read, rfl, rfl⟩
    obtain ⟨good, rfl⟩ := (second _).mp read
    exact ⟨good, rfl⟩
  · rintro ⟨good, rfl⟩
    exact ⟨_, [], (second _).mpr ⟨good, rfl⟩, rfl, rfl⟩

section
variable {write : α → Bytes} {fits : α → Prop} {xs : List α}

theorem manyFrom?_eq_some_iff
    (each : ∀ x ∈ xs, write x ≠ [] ∧ Decides f (write x) x (fits x)) {steps : Nat}
    (enough : (xs.flatMap write).length ≤ steps) {ys : List α} :
    manyFrom? f steps (xs.flatMap write) = some ys ↔ (∀ x ∈ xs, fits x) ∧ ys = xs := by
  induction xs generalizing steps ys with
  | nil =>
    rw [List.flatMap_nil, manyFrom?, Option.some.injEq, eq_comm]
    simp
  | cons x xs ih =>
    obtain ⟨nonempty, read⟩ := each x List.mem_cons_self
    obtain ⟨first, others, written⟩ := List.exists_cons_of_ne_nil nonempty
    rw [List.flatMap_cons] at enough ⊢
    rw [List.length_append, written, List.length_cons] at enough
    cases steps with
    | zero => omega
    | succ steps =>
      have shorter : (xs.flatMap write).length ≤ steps := by omega
      have later (ys : List α) : manyFrom? f steps (xs.flatMap write) = some ys ↔ _ :=
        ih (fun y member => each y (List.mem_cons_of_mem x member)) shorter
      have now {β : Type} {g : α × Bytes → Option β} {b : β} :
          (f (write x ++ xs.flatMap write)).bind g = some b ↔ _ := read.bind_eq_some_iff
      rw [written, List.cons_append] at now ⊢
      simp only [manyFrom?, Option.pure_def, Option.bind_eq_bind, now, Option.bind_eq_some_iff,
        Option.some.injEq, List.forall_mem_cons, and_assoc, later]
      refine and_congr_right fun _ => ⟨?_, ?_⟩
      · rintro ⟨_, goods, rfl, rfl⟩
        exact ⟨goods, rfl⟩
      · rintro ⟨goods, rfl⟩
        exact ⟨xs, goods, rfl, rfl⟩

/-- A list is fine if all of its members are. -/
theorem decidesWhole_many? (each : ∀ x ∈ xs, write x ≠ [] ∧ Decides f (write x) x (fits x)) :
    DecidesWhole (many? f) (xs.flatMap write) xs (∀ x ∈ xs, fits x) := by
  intro ys
  simp only [many?, Option.map_eq_some_iff, Prod.mk.injEq, and_true,
    manyFrom?_eq_some_iff each (Nat.le_refl _), exists_eq_right]

end

end ChainConformance.Strict
