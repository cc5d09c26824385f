import ChainConformance.Proofs.TrustGraph.Reachability
import Mathlib.Data.List.Lex
import Mathlib.Order.Bounds.Defs

/-!
# The path that is found is the first one

A path is told by the numbers of its edges, each the place of its first declaration. Paths between
two names are compared by these numbers, the earlier edges first. Proved here:

* `searchWithin_first`: what the search adds to a path comes before everything else that leads on
  from there through new and distinct nodes;
* `path?_eq_some_iff`: a path is found if and only if it comes before all others;
* `path?_is_least`: the numbers of the path that is found are the least of all;
* `path?_of_more`: that path stays the same if edges off it are broken as well.

A branch may fail because of the nodes that the search has come through, so the induction compares
what the search adds with what leads on from the same path, not with all paths from the node.
-/

namespace ChainConformance.TrustGraph

/-- The edges between neighbours in a list of names. -/
def hops : List String → List Edge
  | a :: b :: rest => ⟨a, b⟩ :: hops (b :: rest)
  | _ => []

/-- The numbers of the edges of a path, if they are all declared. -/
def numbers? (g : TrustGraph) (p : List String) : Option (List Nat) := (hops p).mapM g.edgeIndex?

/-- The numbers of the first path come before those of the second, in lexicographic order. -/
def Before (g : TrustGraph) (p q : List String) : Prop :=
  ∃ ns ms, g.numbers? p = some ns ∧ g.numbers? q = some ms ∧ ns < ms

/-- A path from one name to another along sound edges through distinct nodes. -/
structure IsPath (g : TrustGraph) (broken : List Edge) (src dst : String) (p : List String) :
    Prop where
  starts : p.head? = some src
  ends : p.getLast? = some dst
  distinct : p.Nodup
  sound : p.IsChain (g.Sound broken)

/-- The names lead on from `current`, the end of `path`, along sound edges to `dst`. They are new
and distinct. -/
structure LeadsOn (g : TrustGraph) (broken : List Edge) (dst : String) (path : List String)
    (current : String) (names : List String) : Prop where
  sound : (current :: names).IsChain (g.Sound broken)
  distinct : names.Nodup
  new : ∀ x ∈ names, x ∉ path
  ends : (current :: names).getLast? = some dst

variable {g : TrustGraph} {broken : List Edge} {src dst : String}

/-! ## Numbers -/

theorem isChain_sound_iff {p : List String} :
    p.IsChain (g.Sound broken) ↔ ∀ e ∈ hops p, e ∈ g.edges ∧ e ∉ broken := by
  induction p with
  | nil => simp [hops]
  | cons a rest ih =>
    cases rest with
    | nil => simp [hops]
    | cons b rest => rw [List.isChain_cons_cons, ih, hops, List.forall_mem_cons, Sound]

/-- An edge that no earlier one equals has the number of the edges before it. -/
theorem edgeIndex?_eq_some {e : Edge} {front back : List Edge}
    (edges : g.edges = front ++ e :: back) (first : e ∉ front) :
    g.edgeIndex? e = some front.length := by
  have absent : front.findIdx? (· = e) = none := by
    rw [List.findIdx?_eq_none_iff]
    intro x member
    exact decide_eq_false fun same => first (same ▸ member)
  rw [edgeIndex?, indexOf?, edges, List.findIdx?_append, absent, List.findIdx?_cons]
  simp

theorem numbers?_cons {a b : String} {rest : List String} {i : Nat} {ns : List Nat}
    (first : g.edgeIndex? ⟨a, b⟩ = some i) (others : g.numbers? (b :: rest) = some ns) :
    g.numbers? (a :: b :: rest) = some (i :: ns) := by
  rw [numbers?] at others
  rw [numbers?, hops, List.mapM_cons, first, others]
  rfl

theorem exists_number {e : Edge} (declared : e ∈ g.edges) : ∃ i, g.edgeIndex? e = some i :=
  Option.isSome_iff_exists.mp (indexOf?_isSome.mpr declared)

/-- All edges of a path have numbers. -/
theorem exists_numbers {p : List String} (sound : p.IsChain (g.Sound broken)) :
    ∃ ns, g.numbers? p = some ns := by
  induction p with
  | nil => exact ⟨[], rfl⟩
  | cons a rest ih =>
    cases rest with
    | nil => exact ⟨[], rfl⟩
    | cons b rest =>
      obtain ⟨first, others⟩ := List.isChain_cons_cons.mp sound
      obtain ⟨i, found⟩ := exists_number first.1
      obtain ⟨ns, numbered⟩ := ih others
      exact ⟨i :: ns, numbers?_cons found numbered⟩

theorem Before.asymm {p q : List String} (h : g.Before p q) : ¬ g.Before q p := by
  obtain ⟨ns, ms, numbered, numbered', less⟩ := h
  rintro ⟨ms', ns', again', again, more⟩
  rw [numbered'] at again'
  rw [numbered] at again
  cases again'
  cases again
  exact lt_asymm less more

/-! ## What leads on -/

section
variable {path names : List String} {current next : String}

theorem LeadsOn.tail (h : g.LeadsOn broken dst path current (next :: names)) :
    g.Sound broken current next ∧ next ∉ path ∧
      g.LeadsOn broken dst (path ++ [next]) next names := by
  obtain ⟨sound, others⟩ := List.isChain_cons_cons.mp h.sound
  obtain ⟨once, distinct⟩ := List.nodup_cons.mp h.distinct
  refine ⟨sound, h.new next List.mem_cons_self, others, distinct, ?_, ?_⟩
  · intro x member old
    rcases List.mem_append.mp old with old | same
    · exact h.new x (List.mem_cons_of_mem next member) old
    · exact once (List.mem_singleton.mp same ▸ member)
  · have ends := h.ends
    rwa [List.getLast?_cons_cons] at ends

theorem LeadsOn.walk (h : g.LeadsOn broken dst path current names) :
    g.WalkOff broken path current dst := by
  induction names generalizing path current with
  | nil =>
    have here : current = dst := by simpa using h.ends
    exact here ▸ .here current
  | cons next names ih =>
    obtain ⟨sound, new, onward⟩ := h.tail
    exact .step sound new ((ih onward).mono fun x old => List.mem_append_left _ old)

/-- A step that has not arrived goes along the first edge from which the search gets on: along all
earlier ones to new nodes it fails. -/
theorem searchWithin_step {depth : Nat} {p : List String} (away : current ≠ dst)
    (h : g.searchWithin broken dst (depth + 1) path current = some p) :
    ∃ i next, g.edgeIndex? ⟨current, next⟩ = some i ∧ g.Sound broken current next ∧ next ∉ path ∧
      g.searchWithin broken dst depth (path ++ [next]) next = some p ∧
      ∀ j other, g.edgeIndex? ⟨current, other⟩ = some j → j < i → g.Sound broken current other →
        other ∉ path → g.searchWithin broken dst depth (path ++ [other]) other = none := by
  rw [searchWithin, if_neg away] at h
  obtain ⟨front, e, back, edges, found, before⟩ := List.findSome?_eq_some_iff.mp h
  have first : e ∉ front := by
    intro earlier
    rw [before e earlier] at found
    cases found
  split at found
  · next allowed =>
    obtain ⟨rfl, unbroken, new⟩ := allowed
    have declared : e ∈ g.edges := by
      rw [edges]
      exact List.mem_append_right front List.mem_cons_self
    refine ⟨front.length, e.destination, edgeIndex?_eq_some edges first, ⟨declared, unbroken⟩, new,
      found, fun j other number earlier sound new' => ?_⟩
    have place := getElem?_of_indexOf? number
    rw [edges, List.getElem?_append_left earlier] at place
    have passed := before _ (List.mem_of_getElem? place)
    rwa [if_pos ⟨rfl, sound.2, new'⟩] at passed
  · cases found

/-- What the search adds to a path has lower numbers than everything else that leads on. -/
theorem searchWithin_first {depth : Nat} {p : List String} (enough : g.freeNodes path < depth)
    (h : g.searchWithin broken dst depth path current = some p) :
    ∃ added ns, p = path ++ added ∧ g.numbers? (current :: added) = some ns ∧
      ∀ names, g.LeadsOn broken dst path current names →
        ∃ ms, g.numbers? (current :: names) = some ms ∧ (names = added ∨ ns < ms) := by
  induction depth generalizing path current p with
  | zero => exact absurd enough (Nat.not_lt_zero _)
  | succ depth ih =>
    by_cases arrived : current = dst
    · rw [searchWithin, if_pos arrived, Option.some.injEq] at h
      refine ⟨[], [], by simp [h], rfl, fun names leads => ?_⟩
      cases names with
      | nil => exact ⟨[], rfl, .inl rfl⟩
      | cons next names =>
        obtain ⟨sound, -, onward⟩ := leads.tail
        obtain ⟨i, number⟩ := exists_number sound.1
        obtain ⟨ms, numbered⟩ := exists_numbers onward.sound
        exact ⟨i :: ms, numbers?_cons number numbered, .inr (List.nil_lt_cons _ _)⟩
    · obtain ⟨i, next, number, sound, new, found, passed⟩ := searchWithin_step arrived h
      have deep {b : String} (sound : g.Sound broken current b) (new : b ∉ path) :
          g.freeNodes (path ++ [b]) < depth := by
        have fewer : g.freeNodes (path ++ [b]) < g.freeNodes path :=
          freeNodes_append_lt (destination_mem_nodes sound.1) new
        omega
      obtain ⟨added, ns, rfl, numbered, least⟩ := ih (deep sound new) found
      refine ⟨next :: added, i :: ns, by simp, numbers?_cons number numbered, fun names leads => ?_⟩
      cases names with
      | nil => exact absurd (by simpa using leads.ends) arrived
      | cons other names =>
        obtain ⟨sound', new', onward⟩ := leads.tail
        obtain ⟨j, number'⟩ := exists_number sound'.1
        rcases Nat.lt_trichotomy i j with less | same | more
        · obtain ⟨ms, numbered'⟩ := exists_numbers onward.sound
          exact ⟨j :: ms, numbers?_cons number' numbered',
            .inr (List.cons_lt_cons_iff.mpr (.inl less))⟩
        · obtain rfl : other = next := by
            have place := getElem?_of_indexOf? number
            rw [same, getElem?_of_indexOf? number'] at place
            exact congrArg Edge.destination (Option.some.inj place)
          obtain ⟨ms, numbered', order⟩ := least names onward
          refine ⟨j :: ms, numbers?_cons number' numbered', order.imp (congrArg _) fun less => ?_⟩
          exact List.cons_lt_cons_iff.mpr (.inr ⟨same, less⟩)
        · -- `other` leads on, so the search would have succeeded there before
          have reached := searchWithin_isSome_of_walk (deep sound' new') onward.walk
          rw [passed j other number' more sound' new'] at reached
          cases reached

end

/-! ## The path that is found -/

theorem IsPath.leadsOn {p : List String} (h : g.IsPath broken src dst p) :
    ∃ names, p = src :: names ∧ g.LeadsOn broken dst [src] src names := by
  obtain ⟨names, rfl⟩ := List.head?_eq_some_iff.mp h.starts
  obtain ⟨once, distinct⟩ := List.nodup_cons.mp h.distinct
  refine ⟨names, rfl, h.sound, distinct, fun x member same => ?_, h.ends⟩
  exact once (List.mem_singleton.mp same ▸ member)

theorem isPath_of_path? {p : List String} (h : g.path? broken src dst = some p) :
    g.IsPath broken src dst p := by
  obtain ⟨starts, ends, distinct, sound⟩ := path?_spec h
  exact ⟨starts, ends, distinct, sound⟩

theorem before_of_path? {p q : List String} (h : g.path? broken src dst = some p)
    (other : g.IsPath broken src dst q) : q = p ∨ g.Before p q := by
  rw [path?_eq_searchWithin] at h
  obtain ⟨added, ns, rfl, numbered, least⟩ := searchWithin_first (Nat.lt_succ_self _) h
  obtain ⟨names, rfl, leads⟩ := other.leadsOn
  obtain ⟨ms, numbered', rfl | less⟩ := least names leads
  · exact .inl rfl
  · exact .inr ⟨ns, ms, numbered, numbered', less⟩

/-- A path is found if and only if it comes before all others. -/
theorem path?_eq_some_iff {p : List String} : g.path? broken src dst = some p ↔
    g.IsPath broken src dst p ∧ ∀ q, g.IsPath broken src dst q → q = p ∨ g.Before p q := by
  constructor
  · intro h
    exact ⟨isPath_of_path? h, fun q other => before_of_path? h other⟩
  · rintro ⟨path, first⟩
    obtain ⟨names, rfl, leads⟩ := path.leadsOn
    have reached : (g.path? broken src dst).isSome :=
      searchWithin_isSome_of_walk (Nat.lt_succ_self _) leads.walk
    obtain ⟨q, found⟩ := Option.isSome_iff_exists.mp reached
    rcases first q (isPath_of_path? found) with rfl | earlier
    · exact found
    · rcases before_of_path? found path with same | later
      · rw [found, same]
      · exact absurd later earlier.asymm

/-- The numbers of the path that is found are the least among those of all paths, and no other path
has them. -/
theorem path?_is_least {p : List String} (h : g.path? broken src dst = some p) :
    ∃ ns, g.numbers? p = some ns ∧
      IsLeast {ms | ∃ q, g.IsPath broken src dst q ∧ g.numbers? q = some ms} ns ∧
      ∀ q, g.IsPath broken src dst q → ∃ ms, g.numbers? q = some ms ∧ (ms = ns → q = p) := by
  obtain ⟨path, first⟩ := path?_eq_some_iff.mp h
  obtain ⟨ns, numbered⟩ := exists_numbers path.sound
  have order (q : List String) (other : g.IsPath broken src dst q) :
      ∃ ms, g.numbers? q = some ms ∧ (q = p ∨ ns < ms) := by
    obtain ⟨ms, numbered'⟩ := exists_numbers other.sound
    refine ⟨ms, numbered', (first q other).imp_right ?_⟩
    rintro ⟨_, _, again, again', less⟩
    cases numbered.symm.trans again
    cases numbered'.symm.trans again'
    exact less
  refine ⟨ns, numbered, ⟨⟨p, path, numbered⟩, ?_⟩, fun q other => ?_⟩
  · rintro ms ⟨q, other, numbered'⟩
    obtain ⟨_, again, rfl | less⟩ := order q other
    · exact le_of_eq (Option.some.inj (numbered.symm.trans numbered'))
    · cases numbered'.symm.trans again
      exact le_of_lt less
  · obtain ⟨ms, numbered', rfl | less⟩ := order q other
    · exact ⟨ms, numbered', fun _ => rfl⟩
    · exact ⟨ms, numbered', fun same => absurd same (ne_of_gt less)⟩

/-! ## Other broken edges -/

theorem Sound.of_fewer {broken' : List Edge} (fewer : ∀ e ∈ broken, e ∈ broken') {a b : String}
    (h : g.Sound broken' a b) : g.Sound broken a b :=
  ⟨h.1, fun broken => h.2 (fewer _ broken)⟩

theorem IsPath.of_fewer {broken' : List Edge} (fewer : ∀ e ∈ broken, e ∈ broken') {p : List String}
    (h : g.IsPath broken' src dst p) : g.IsPath broken src dst p :=
  ⟨h.starts, h.ends, h.distinct, h.sound.imp fun _ _ => Sound.of_fewer fewer⟩

/-- A path that is found is found again if further edges are broken, none of them its own: it loses
competitors only. -/
theorem path?_of_more {broken' : List Edge} (fewer : ∀ e ∈ broken, e ∈ broken') {p : List String}
    (h : g.path? broken src dst = some p) (kept : ∀ e ∈ hops p, e ∉ broken') :
    g.path? broken' src dst = some p := by
  obtain ⟨path, first⟩ := path?_eq_some_iff.mp h
  have sound : p.IsChain (g.Sound broken') :=
    isChain_sound_iff.mpr fun e hop => ⟨(isChain_sound_iff.mp path.sound e hop).1, kept e hop⟩
  refine path?_eq_some_iff.mpr ⟨⟨path.starts, path.ends, path.distinct, sound⟩, fun q other => ?_⟩
  exact first q (other.of_fewer fewer)

theorem path?_eq_none_of_more {broken' : List Edge} (fewer : ∀ e ∈ broken, e ∈ broken')
    (h : g.path? broken src dst = none) : g.path? broken' src dst = none := by
  rw [← Option.not_isSome_iff_eq_none, path?_isSome] at h ⊢
  exact fun walk => h (Relation.ReflTransGen.mono (fun _ _ => Sound.of_fewer fewer) _ _ walk)

/-- From `A` the search tries `B` first, which leads to `T` through `A` alone. -/
def tangled : TrustGraph :=
  .ofPairs "TANGLED" [("S", "A"), ("A", "B"), ("B", "A"), ("A", "T"), ("S", "B")]

/-- The path over `B` has higher numbers. -/
theorem path?_is_least_of_tangled :
    tangled.path? [] "S" "T" = some ["S", "A", "T"] ∧
      IsLeast {ms | ∃ q, tangled.IsPath [] "S" "T" q ∧ tangled.numbers? q = some ms} [0, 3] := by
  have found : tangled.path? [] "S" "T" = some ["S", "A", "T"] := by decide +kernel
  have listed : tangled.numbers? ["S", "A", "T"] = some [0, 3] := by decide +kernel
  obtain ⟨ns, numbered, least, -⟩ := path?_is_least found
  cases listed.symm.trans numbered
  exact ⟨found, least⟩

end ChainConformance.TrustGraph
