import Mathlib.Data.List.Forall2

/-!
# Inversion of computations that can fail

When a composed computation has a value, and when it has an error. Readers, printers and builders
are taken apart with these lemmas.
-/

namespace ChainConformance

variable {ε ε' α β : Type}

theorem pure_eq_ok_iff {a b : α} : (pure a : Except ε α) = .ok b ↔ a = b := by
  simp [pure, Except.pure]

@[simp] theorem throw_eq_error {e : ε} : (throw e : Except ε α) = .error e := rfl

@[simp] theorem error_bind {e : ε} {f : α → Except ε β} : .error e >>= f = .error e := rfl

theorem ok_bind {a : α} {f : α → Except ε β} : .ok a >>= f = f a := rfl

@[simp] theorem map_error {e : ε} {f : α → β} : f <$> (.error e : Except ε α) = .error e := rfl

theorem bind_eq_ok_iff {x : Except ε α} {f : α → Except ε β} {b : β} :
    x >>= f = .ok b ↔ ∃ a, x = .ok a ∧ f a = .ok b := by
  cases x <;> simp [bind, Except.bind]

theorem bind_eq_error_iff {x : Except ε α} {f : α → Except ε β} {e : ε} :
    x >>= f = .error e ↔ x = .error e ∨ ∃ a, x = .ok a ∧ f a = .error e := by
  cases x <;> simp [bind, Except.bind]

theorem getDM_throw_eq_ok_iff {x : Option α} {e : ε} {a : α} :
    x.getDM (throw e : Except ε α) = .ok a ↔ x = some a := by
  cases x <;> simp [Option.getDM, pure_eq_ok_iff]

/-- What has to hold for a computation to go on holds if there is a value. -/
theorem unless_throw_eq_ok_iff {p : Prop} [Decidable p] {e : ε} {x : Except ε β}
    {next : α → Except ε β} {b : β} :
    (if p then x else throw e >>= next) = .ok b ↔ p ∧ x = .ok b := by
  by_cases h : p <;> simp [h]

/-- Whether there is a value can be computed. -/
theorem exists_ok_of_toBool {x : Except ε α} (h : x.toBool = true) : ∃ a, x = .ok a := by
  cases x with
  | ok a => exact ⟨a, rfl⟩
  | error e => cases h

theorem exists_error_iff {x : Except ε α} : (∃ e, x = .error e) ↔ ¬ ∃ a, x = .ok a := by
  cases x <;> simp

/-- What all errors of the parts have in common, the errors of the whole have too. -/
theorem error_of_bind {P : ε → Prop} {x : Except ε α} {f : α → Except ε β}
    (first : ∀ e, x = .error e → P e) (next : ∀ a e, f a = .error e → P e) :
    ∀ e, x >>= f = .error e → P e := by
  intro e h
  rcases bind_eq_error_iff.mp h with here | ⟨a, -, later⟩
  · exact first e here
  · exact next a e later

theorem map_eq_ok_iff {x : Except ε α} {f : α → β} {b : β} :
    x.map f = .ok b ↔ ∃ a, x = .ok a ∧ f a = b := by
  cases x <;> simp [Except.map]

theorem mapError_eq_ok_iff {x : Except ε α} {f : ε → ε'} {a : α} :
    x.mapError f = .ok a ↔ x = .ok a := by
  cases x <;> simp [Except.mapError]

theorem mapError_eq_error_iff {x : Except ε α} {f : ε → ε'} {e : ε'} :
    x.mapError f = .error e ↔ ∃ e', x = .error e' ∧ f e' = e := by
  cases x <;> simp [Except.mapError]

theorem mapM_nil_eq_ok {f : α → Except ε β} : ([] : List α).mapM f = .ok [] := by
  rw [List.mapM_nil]
  rfl

theorem mapM_cons_eq_ok_iff {f : α → Except ε β} {x : α} {rest : List α} {ys : List β} :
    (x :: rest).mapM f = .ok ys ↔ ∃ y zs, f x = .ok y ∧ rest.mapM f = .ok zs ∧ ys = y :: zs := by
  rw [List.mapM_cons]
  simp only [bind_eq_ok_iff, pure, Except.pure, Except.ok.injEq]
  constructor
  · rintro ⟨y, first, zs, others, e⟩
    exact ⟨y, zs, first, others, e.symm⟩
  · rintro ⟨y, zs, first, others, e⟩
    exact ⟨y, first, zs, others, e.symm⟩

/-- A list is computed exactly when each of its members is. -/
theorem mapM_eq_ok_iff {f : α → Except ε β} {xs : List α} {ys : List β} :
    xs.mapM f = .ok ys ↔ List.Forall₂ (fun x y => f x = .ok y) xs ys := by
  induction xs generalizing ys with
  | nil =>
    rw [mapM_nil_eq_ok, List.forall₂_nil_left_iff, Except.ok.injEq, eq_comm]
  | cons x rest ih =>
    rw [mapM_cons_eq_ok_iff, List.forall₂_cons_left_iff]
    simp only [ih]

theorem exists_of_mem_left {R : α → β → Prop} {xs : List α} {ys : List β} {x : α}
    (h : List.Forall₂ R xs ys) (member : x ∈ xs) : ∃ y ∈ ys, R x y := by
  induction h with
  | nil => cases member
  | cons first _ ih =>
    rcases List.mem_cons.mp member with rfl | later
    · exact ⟨_, List.mem_cons_self, first⟩
    · obtain ⟨y, present, related⟩ := ih later
      exact ⟨y, List.mem_cons_of_mem _ present, related⟩

theorem exists_of_mem_right {R : α → β → Prop} {xs : List α} {ys : List β} {y : β}
    (h : List.Forall₂ R xs ys) (member : y ∈ ys) : ∃ x ∈ xs, R x y :=
  exists_of_mem_left h.flip member

theorem exists_of_getElem? {R : α → β → Prop} {xs : List α} {ys : List β} {i : Nat} {x : α}
    (h : List.Forall₂ R xs ys) (position : xs[i]? = some x) : ∃ y, ys[i]? = some y ∧ R x y := by
  obtain ⟨bound, rfl⟩ := List.getElem?_eq_some_iff.mp position
  have bound' : i < ys.length := h.length_eq ▸ bound
  exact ⟨ys[i], List.getElem?_eq_getElem bound', h.get bound bound'⟩

/-- The error of a list is the error of the first member that has one. -/
theorem mapM_eq_error_first {f : α → Except ε β} {xs : List α} {e : ε} (h : xs.mapM f = .error e) :
    ∃ good x others, xs = good ++ x :: others ∧ (∀ y ∈ good, ∃ v, f y = .ok v) ∧
      f x = .error e := by
  induction xs with
  | nil =>
    rw [mapM_nil_eq_ok] at h
    cases h
  | cons x rest ih =>
    rw [List.mapM_cons, bind_eq_error_iff] at h
    rcases h with first | ⟨v, value, others⟩
    · exact ⟨[], x, rest, rfl, List.forall_mem_nil _, first⟩
    · rw [bind_eq_error_iff] at others
      rcases others with others | ⟨zs, _, impossible⟩
      · obtain ⟨good, z, left, rfl, fine, refused⟩ := ih others
        exact ⟨x :: good, z, left, rfl, List.forall_mem_cons.mpr ⟨⟨v, value⟩, fine⟩, refused⟩
      · cases impossible

theorem mapM_eq_error {f : α → Except ε β} {xs : List α} {e : ε} (h : xs.mapM f = .error e) :
    ∃ x ∈ xs, f x = .error e := by
  obtain ⟨good, x, others, rfl, -, refused⟩ := mapM_eq_error_first h
  exact ⟨x, List.mem_append_right good List.mem_cons_self, refused⟩

/-- What is made of each member of a list is read as a whole if each part is. -/
theorem mapM_map_eq_some {γ : Type} {write : α → β} {read : β → Option γ} {value : α → γ}
    {xs : List α} (parts : ∀ x ∈ xs, read (write x) = some (value x)) :
    (xs.map write).mapM read = some (xs.map value) := by
  induction xs with
  | nil => rfl
  | cons x rest ih =>
    obtain ⟨first, others⟩ := List.forall_mem_cons.mp parts
    rw [List.map_cons, List.mapM_cons, first, ih others]
    rfl

theorem mapM_map_undone {write : α → β} {read : β → Option α} {xs : List α}
    (undone : ∀ x ∈ xs, read (write x) = some x) : (xs.map write).mapM read = some xs := by
  have whole : (xs.map write).mapM read = some (xs.map id) := mapM_map_eq_some undone
  rw [List.map_id] at whole
  exact whole

/-- Each member of a list has a counterpart exactly when the list has one. -/
theorem exists_forall₂_iff {R : α → β → Prop} {xs : List α} :
    (∃ ys, List.Forall₂ R xs ys) ↔ ∀ x ∈ xs, ∃ y, R x y := by
  induction xs with
  | nil => simp
  | cons x rest ih =>
    rw [List.forall_mem_cons, ← ih]
    constructor
    · rintro ⟨ys, related⟩
      obtain ⟨y, others, first, tails, -⟩ := List.forall₂_cons_left_iff.mp related
      exact ⟨⟨y, first⟩, others, tails⟩
    · rintro ⟨⟨y, first⟩, ys, others⟩
      exact ⟨y :: ys, .cons first others⟩

/-- A list whose members all are images is the image of a list. -/
theorem exists_map_of_forall₂ {γ : Type} {R : α → β → Prop} {f : β → γ} {xs : List α} {zs : List γ}
    (h : List.Forall₂ (fun x z => ∃ y, R x y ∧ z = f y) xs zs) :
    ∃ ys, List.Forall₂ R xs ys ∧ zs = ys.map f := by
  induction h with
  | nil => exact ⟨[], .nil, rfl⟩
  | cons first _ ih =>
    obtain ⟨y, related, rfl⟩ := first
    obtain ⟨ys, others, rfl⟩ := ih
    exact ⟨y :: ys, .cons related others, rfl⟩

end ChainConformance
