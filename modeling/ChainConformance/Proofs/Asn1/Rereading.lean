import ChainConformance.Proofs.Asn1.Strict

/-!
# Reading, writing and reading again

A strict reader may accept more than what the writer makes of a value. `Rereads` says that it gives
the value again when it reads what is written for it. Proved here:

* `rereads_inside`, `rereadsWhole_pair`, `many?_flatten`: for elements with contents, and values one
  after the other;
* `rereads_element?`, `rereads_contents?`, `rereads_guard`: for single elements, and what is checked
  of them;
* `optional?_encode`, `optional?_of_beyond`: for elements that may be missing.
-/

namespace ChainConformance

theorem Der.length_lt_encode (tag : UInt8) (contents : Bytes) :
    contents.length < (encode tag contents).length := by
  rw [length_encode]
  omega

namespace Strict

variable {α : Type} {f : Bytes → Option (α × Bytes)} {write : α → Bytes}

/-- The reader gives this value for some bytes. -/
def Gives (f : Bytes → Option (α × Bytes)) (x : α) : Prop := ∃ s rest, f s = some (x, rest)

/-- What the reader gives, it gives again for what is written for it, whatever follows. -/
def Rereads (f : Bytes → Option (α × Bytes)) (write : α → Bytes) : Prop :=
  ∀ x, Gives f x → (write x).length < lengthLimit → ∀ rest, f (write x ++ rest) = some (x, rest)

/-- What the reader gives for a whole byte string, it gives again for what is written for it. -/
def RereadsWhole (f : Bytes → Option (α × Bytes)) (write : α → Bytes) : Prop :=
  ∀ x s, f s = some (x, []) → (write x).length < lengthLimit → f (write x) = some (x, [])

/-- Nothing needs to follow. -/
theorem Rereads.alone (again : Rereads f write) {x : α} (given : Gives f x)
    (small : (write x).length < lengthLimit) : f (write x) = some (x, []) := by
  rw [← List.append_nil (write x)]
  exact again x given small []

/-! ## Elements with contents -/

theorem exists_of_inside? {tag : UInt8} {x : α} {s rest : Bytes}
    (h : inside? tag f s = some (x, rest)) : ∃ contents, f contents = some (x, []) := by
  simp only [inside?, Option.pure_def, Option.bind_eq_bind, Option.bind_eq_some_iff,
    Option.guard_eq_some', Option.some.injEq, Prod.mk.injEq, Prod.exists,
    List.isEmpty_iff] at h
  obtain ⟨contents, _, -, y, _, read, -, rfl, rfl, -⟩ := h
  exact ⟨contents, read⟩

theorem rereads_inside {tag : UInt8} (known : isTag tag = true) (whole : RereadsWhole f write) :
    Rereads (inside? tag f) fun x => Der.encode tag (write x) := by
  rintro x ⟨s, after, h⟩ small rest
  obtain ⟨contents, read⟩ := exists_of_inside? h
  have shorter := Nat.lt_trans (Der.length_lt_encode tag (write x)) small
  exact inside?_encode known shorter (whole x contents read shorter) rest

theorem whole?_eq_some {x : α} {s : Bytes} (read : f s = some (x, []))
    (small : s.length < lengthLimit) : whole? f s = some x := by
  simp [whole?, read, small]

/-- A check of what is read holds again. -/
theorem rereads_guard {p : α → Prop} [DecidablePred p] (again : Rereads f write) :
    Rereads (fun s => do
      let (x, rest) ← f s
      guard (p x)
      return (x, rest)) write := by
  rintro x ⟨s, after, h⟩ small rest
  simp only [Option.pure_def, Option.bind_eq_bind, Option.bind_eq_some_iff, Option.guard_eq_some',
    Option.some.injEq, Prod.mk.injEq, Prod.exists] at h
  obtain ⟨x, _, read, -, fine, rfl, -⟩ := h
  simp [again x ⟨_, _, read⟩ small rest, fine]

/-! ## One after the other -/

/-- Two values are read again one after the other. -/
theorem rereadsWhole_pair {β γ : Type} {g : Bytes → Option (β × Bytes)} {write' : β → Bytes}
    {both : γ → Bytes} (again : Rereads f write) (again' : Rereads g write') (mk : α → β → γ)
    (written : ∀ x y, both (mk x y) = write x ++ write' y) :
    RereadsWhole (fun s => do
      let (x, rest) ← f s
      let (y, rest) ← g rest
      return (mk x y, rest)) both := by
  intro z s h small
  simp only [Option.pure_def, Option.bind_eq_bind, Option.bind_eq_some_iff, Option.some.injEq,
    Prod.mk.injEq, Prod.exists] at h
  obtain ⟨x, _, read, y, _, read', rfl, rfl⟩ := h
  rw [written, List.length_append] at small
  have first := again x ⟨_, _, read⟩ (by omega)
  have second := again'.alone ⟨_, _, read'⟩ (by omega)
  simp [written, first, second]

theorem gives_of_mem_manyFrom? {xs : List α} {steps : Nat} {s : Bytes}
    (h : manyFrom? f steps s = some xs) : ∀ x ∈ xs, Gives f x := by
  induction steps generalizing s xs with
  | zero =>
    cases s with
    | nil =>
      cases h
      exact List.forall_mem_nil _
    | cons => cases h
  | succ steps ih =>
    cases s with
    | nil =>
      cases h
      exact List.forall_mem_nil _
    | cons b s =>
      simp only [manyFrom?, Option.pure_def, Option.bind_eq_bind, Option.bind_eq_some_iff,
        Option.some.injEq, Prod.exists] at h
      obtain ⟨v, rest, first, vs, others, rfl⟩ := h
      exact List.forall_mem_cons.mpr ⟨⟨_, _, first⟩, ih others⟩

theorem gives_of_mem_many? {xs : List α} {s rest : Bytes} (h : many? f s = some (xs, rest)) :
    ∀ x ∈ xs, Gives f x := by
  obtain ⟨ys, read, e⟩ := Option.map_eq_some_iff.mp h
  cases e
  exact gives_of_mem_manyFrom? read

/-- What is written one after the other is read again up to its end. -/
theorem many?_flatten {xs : List α} (again : Rereads f write) (some : ∀ x, write x ≠ [])
    (given : ∀ x ∈ xs, Gives f x) (small : ((xs.map write).flatten).length < lengthLimit) :
    many? f (xs.map write).flatten = .some (xs, []) := by
  rw [← List.flatMap_def]
  refine many?_flatMap fun x member => ⟨some x, again x (given x member) ?_⟩
  have inside := List.sublist_flatten_of_mem (List.mem_map_of_mem (f := write) member)
  exact Nat.lt_of_le_of_lt inside.length_le small

/-! ## Single elements -/

theorem rereads_element? : Rereads element? Element.encode := by
  rintro e ⟨s, after, h⟩ small rest
  obtain ⟨known, short, -⟩ := element?_eq_some_iff.mp h
  exact element?_encode known short rest

theorem contents?_eq_some_iff {tag : UInt8} {s rest contents : Bytes} :
    contents? tag s = some (contents, rest) ↔
      isTag tag = true ∧ contents.length < lengthLimit ∧ s = Der.encode tag contents ++ rest := by
  simp only [contents?, Option.pure_def, Option.bind_eq_bind, Option.bind_eq_some_iff,
    Option.guard_eq_some', Option.some.injEq, Prod.mk.injEq, Prod.exists, element?_eq_some_iff]
  constructor
  · rintro ⟨e, after, ⟨known, small, rfl⟩, -, rfl, rfl, rfl⟩
    exact ⟨known, small, rfl⟩
  · rintro ⟨known, small, rfl⟩
    exact ⟨⟨tag, contents⟩, rest, ⟨known, small, rfl⟩, (), rfl, rfl, rfl⟩

/-- The contents of an element with a tag, if they pass a check. -/
def checked? (tag : UInt8) (check : Bytes → Bool) (s : Bytes) : Option (Bytes × Bytes) := do
  let (contents, rest) ← contents? tag s
  guard (check contents)
  return (contents, rest)

theorem checked?_eq_some_iff {tag : UInt8} {check : Bytes → Bool} {s rest contents : Bytes} :
    checked? tag check s = some (contents, rest) ↔ check contents = true ∧ isTag tag = true ∧
      contents.length < lengthLimit ∧ s = Der.encode tag contents ++ rest := by
  simp only [checked?, Option.pure_def, Option.bind_eq_bind, Option.bind_eq_some_iff,
    Option.guard_eq_some', Option.some.injEq, Prod.mk.injEq, Prod.exists, contents?_eq_some_iff]
  constructor
  · rintro ⟨c, after, read, -, fine, rfl, rfl⟩
    exact ⟨fine, read⟩
  · rintro ⟨fine, read⟩
    exact ⟨contents, rest, read, (), fine, rfl, rfl⟩

theorem rereads_contents? (tag : UInt8) : Rereads (contents? tag) (Der.encode tag) := by
  rintro contents ⟨s, after, h⟩ - rest
  obtain ⟨known, small, -⟩ := contents?_eq_some_iff.mp h
  exact contents?_eq_some_iff.mpr ⟨known, small, rfl⟩

theorem rereads_oid? : Rereads oid? (Der.encode 0x06) :=
  rereads_guard (p := (isOid · = true)) (rereads_contents? 0x06)

theorem rereads_integer? : Rereads integer? (Der.encode 0x02) :=
  rereads_guard (p := (isInteger · = true)) (rereads_contents? 0x02)

theorem rereads_bitString? : Rereads bitString? (Der.encode 0x03) :=
  rereads_guard (p := (isBitString · = true)) (rereads_contents? 0x03)

theorem gives_bitString? {contents : Bytes} (h : isBitString contents = true)
    (small : contents.length < lengthLimit) : Gives bitString? contents :=
  ⟨_, [], checked?_eq_some_iff.mpr ⟨h, rfl, small, rfl⟩⟩

/-! ## Elements that may be missing -/

/-- The bytes do not start with an element of the context class with this number or a lower one. -/
def Beyond (number : Nat) (s : Bytes) : Prop :=
  ∀ tag ∈ s.head?, isTag tag = true ∧ (0x80 ≤ tag → tag < 0xC0 → number < tag.toNat % 32)

theorem beyond_nil (number : Nat) : Beyond number [] := nofun

theorem beyond_encode {number : Nat} {tag : UInt8} (known : isTag tag = true)
    (higher : 0x80 ≤ tag → tag < 0xC0 → number < tag.toNat % 32) (contents rest : Bytes) :
    Beyond number (Der.encode tag contents ++ rest) := by
  rintro first h
  cases h
  exact ⟨known, higher⟩

theorem Beyond.mono {m n : Nat} {s : Bytes} (h : Beyond n s) (less : m ≤ n) : Beyond m s :=
  fun tag first =>
    ⟨(h tag first).1, fun low high => Nat.lt_of_le_of_lt less ((h tag first).2 low high)⟩

theorem optional?_of_beyond {number steps : Nat} {s : Bytes} (h : Beyond number s) :
    optional? number (steps + 1) s = some (none, s) := by
  cases s with
  | nil => rfl
  | cons tag s =>
    obtain ⟨known, beyond⟩ := h tag rfl
    by_cases context : 0x80 ≤ tag ∧ tag < 0xC0
    · simp [optional?, contextTag?, context, beyond context.1 context.2]
    · simp [optional?, contextTag?, context, known]

theorem optional?_encode {number steps : Nat} (tag : UInt8) {contents : Bytes}
    (known : isTag tag = true) (context : 0x80 ≤ tag ∧ tag < 0xC0)
    (same : tag.toNat % 32 = number) (small : contents.length < lengthLimit) (rest : Bytes) :
    optional? number (steps + 1) (Der.encode tag contents ++ rest) =
      some (some ⟨tag, contents⟩, rest) := by
  have read := element?_encode (e := ⟨tag, contents⟩) known small rest
  have first : contextTag? (Der.encode tag contents ++ rest) = some tag := if_pos context
  rw [Element.encode] at read
  simp [optional?, first, read, same]

end Strict

end ChainConformance
