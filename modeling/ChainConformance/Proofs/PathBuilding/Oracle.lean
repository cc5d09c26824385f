import ChainConformance.Proofs.PathBuilding.Layout
import ChainConformance.Proofs.TrustGraph.Reachability

/-!
# The expectation is right about the chain

A client that accepts a chain has to find certificates in it that lead from the root to the leaf
(`Leads`). Walks in the trust graph and such certificates are turned into each other. Proved here:

* `leads_of_walk`: along a walk of sound edges the chain has usable certificates;
* `walk_of_leads`: usable certificates are those of sound edges, which make a walk;
* `expected_pass_iff_leads`: the expectation is a pass if and only if there are such certificates.
-/

namespace ChainConformance.PathBuilding

open X509

/-- From this certificate on, certificates of the chain lead to the leaf: nothing speaks against
any of them, every one but the last is an authority and vouches for the next, and the last one is
the host's, for the key that belongs to the chain. -/
inductive Leads (chain : Chain) (now : Int) (host : String) : Issued → Prop
  | leaf {c : Issued} (present : Link.issued c ∈ chain.links) (usable : c.Usable now host)
      (certified : c.subjectKey = chain.key) (named : c.NamesHost host) : Leads chain now host c
  | step {c next : Issued} (present : Link.issued c ∈ chain.links) (usable : c.Usable now host)
      (authority : c.IsAuthority) (vouches : c.Vouches next) (rest : Leads chain now host next) :
      Leads chain now host c

theorem Leads.present {chain : Chain} {now : Int} {host : String} {c : Issued}
    (h : Leads chain now host c) : Link.issued c ∈ chain.links := by
  cases h with
  | leaf present _ _ _ => exact present
  | step present _ _ _ _ => exact present

section
variable {root : Root} {d : Draws} {leafName : String} {s : Scenario} {entities : Entities}
  {chain : Chain} {target : Entity}

/-! ## From walks to certificates -/

/-- The certificate of a sound edge to a node vouches for what the node issues. The source is left
out, since the root need not issue under the name that it is issued to. -/
theorem vouches_of_sound (made : s.entities root d = .ok entities) {e : Edge} {c next : Issued}
    {y : Entity} (along : IssuedAlong entities d leafName s e c) (sound : e ∉ s.broken)
    (inner : e.destination ≠ s.target) (other : e.destination ≠ s.source)
    (found : entities.get e.destination = .ok y) (issued : next.issuer = y.issuer) :
    c.Vouches next := by
  obtain ⟨subject, key⟩ := subject_of_sound along sound inner found
  constructor
  · rw [key, issued]
    rfl
  · change next.issuer.name.toSets = c.template.subject.toSets
    rw [subject, issued, subject_eq_issuer made found other]

/-- A walk of sound edges that does not come back to the source has certificates. -/
theorem leads_of_walk (made : s.entities root d = .ok entities)
    (last : entities.get s.target = .ok target) (key : chain.key = target.key)
    (edges : ∀ e ∈ s.graph.edges, ∃ c, Link.issued c ∈ chain.links ∧
      IssuedAlong entities d leafName s e c)
    {a b : String} (walk : s.graph.WalkOff s.broken [s.source] a b) (ends : b = s.target)
    (apart : a ≠ s.target) :
    ∃ c x, Leads chain d.now leafName c ∧ entities.get a = .ok x ∧ c.issuer = x.issuer := by
  induction walk with
  | here a => exact absurd ends apart
  | @step a b _ sound new _ ih =>
    obtain ⟨c, present, along⟩ := edges ⟨a, b⟩ sound.1
    obtain ⟨x, issuer, issued⟩ := along.source
    have usable := usable_of_sound along sound.2 leafName
    refine ⟨c, x, ?_, issuer, issued⟩
    by_cases leaf : b = s.target
    · obtain ⟨subject, found, certified, -⟩ := along.destination
      have found : entities.get s.target = .ok subject := leaf ▸ found
      rw [last] at found
      cases found
      exact .leaf present usable (certified.trans key.symm) (namesHost_of_sound along sound.2 leaf)
    · obtain ⟨next, y, rest, found, issued'⟩ := ih ends leaf
      have other : b ≠ s.source := fun h => new (List.mem_singleton.mpr h)
      exact .step present usable (isAuthority_of_sound along sound.2 leaf)
        (vouches_of_sound made along sound.2 leaf other found issued') rest

/-! ## From certificates to walks -/

/-- A certificate of the chain belongs to an edge that leaves the node with its issuer's key. -/
theorem edge_of_issued (made : s.entities root d = .ok entities) (keys : DistinctKeys root d s)
    (issued : ∀ c, Link.issued c ∈ chain.links → ∃ e ∈ s.graph.edges,
      IssuedAlong entities d leafName s e c)
    {c : Issued} (present : Link.issued c ∈ chain.links) {a : String} {x : Entity}
    (start : entities.get a = .ok x) (same : c.issuer.key = x.key) :
    ∃ e ∈ s.graph.edges, e.source = a ∧ IssuedAlong entities d leafName s e c := by
  obtain ⟨e, declared, along⟩ := issued c present
  obtain ⟨issuer, source, byIssuer⟩ := along.source
  rw [byIssuer] at same
  exact ⟨e, declared, node_eq_of_key made keys source start same, along⟩

/-- Certificates that lead on from an issuer make a walk of sound edges from its node. -/
theorem walk_of_leads (made : s.entities root d = .ok entities) (keys : DistinctKeys root d s)
    (last : entities.get s.target = .ok target) (key : chain.key = target.key)
    (issued : ∀ c, Link.issued c ∈ chain.links → ∃ e ∈ s.graph.edges,
      IssuedAlong entities d leafName s e c)
    (arrives : ∀ e ∈ s.broken, e.destination ≠ s.target)
    (outside : ¬ InDomain leafName "bad.example.com") {c : Issued}
    (leads : Leads chain d.now leafName c) {a : String} {x : Entity}
    (start : entities.get a = .ok x) (same : c.issuer.key = x.key) :
    Relation.ReflTransGen (s.graph.Sound s.broken) a s.target := by
  induction leads generalizing a x with
  | leaf present _ certified _ =>
    obtain ⟨e, declared, rfl, along⟩ := edge_of_issued made keys issued present start same
    obtain ⟨subject, destination, forSubject, -⟩ := along.destination
    have reaches : e.destination = s.target :=
      node_eq_of_key made keys destination last (forSubject.symm.trans (certified.trans key))
    have sound : e ∉ s.broken := fun broken => arrives e broken reaches
    rw [← reaches]
    exact Relation.ReflTransGen.single ⟨declared, sound⟩
  | step present usable authority vouches _ ih =>
    obtain ⟨e, declared, rfl, along⟩ := edge_of_issued made keys issued present start same
    obtain ⟨subject, destination, forSubject, -⟩ := along.destination
    have sound : e ∉ s.broken := by
      intro broken
      exact not_usable_of_broken along broken (arrives e broken) outside authority usable
    have onward := ih destination (vouches.1.trans forSubject)
    exact Relation.ReflTransGen.head ⟨declared, sound⟩ onward

/-! ## The expectation -/

/-- A pass is expected if and only if certificates of the chain lead from the root to the leaf,
provided that the leaf's name lies outside the decoy domain, no broken edge ends in the target, and
the keys that are drawn tell the nodes apart. -/
theorem expected_pass_iff_leads (made : s.chain root d leafName = .ok chain)
    (apart : s.source ≠ s.target) (arrives : ∀ e ∈ s.broken, e.destination ≠ s.target)
    (outside : ¬ InDomain leafName "bad.example.com") (keys : DistinctKeys root d s) :
    s.expected = .pass ↔
      ∃ c, root.issuer = .ok c.issuer ∧ Leads chain d.now leafName c := by
  obtain ⟨entities, target, made, last, key, edges, issued⟩ := chain_cases made
  have pass : s.expected = .pass ↔
      Relation.ReflTransGen (s.graph.Sound s.broken) s.source s.target := by
    rw [← TrustGraph.path?_isSome, Scenario.expected, Scenario.path?]
    cases s.graph.path? s.broken s.source s.target <;> simp
  rw [pass]
  constructor
  · intro walk
    have away := (TrustGraph.walkOff_of_reflTransGen walk).leaving
    obtain ⟨c, x, leads, found, byRoot⟩ := leads_of_walk made last key edges away rfl apart
    exact ⟨c, byRoot ▸ issuer_of_source made found, leads⟩
  · rintro ⟨c, byRoot, leads⟩
    obtain ⟨e, -, along⟩ := issued c leads.present
    obtain ⟨x, start, byIssuer⟩ := along.source
    have rootKey : x.key = root.key := by
      rw [byIssuer] at byRoot
      exact key_of_issuer byRoot
    have source := source_of_key made keys start rootKey
    rw [← source]
    exact walk_of_leads made keys last key issued arrives outside leads start
      (congrArg Issuer.key byIssuer)

end

/-! ## A detour -/

/-- Draws at the start of 2025 in which the keys are numbered from `first` on, and nothing is
signed. -/
def numberedDraws (first : Nat) : Draws where
  key i := ⟨.p256 (first + i), [], .curve Oid.p256, [UInt8.ofNat (first + i)]⟩
  serial _ := [1]
  uuid _ := ""
  now := 1735689600
  sign _ _ := []

/-- A root without a signature; its key is none of those that are numbered from zero on. -/
def unsignedRoot : Root := .generate (fun _ _ => []) (numberedDraws 9)

/-- The direct way to the first intermediate is expired; there is one over the second. -/
def detour : Scenario where
  graph := .ofPairs "DETOUR" [("I", "E"), ("J", "I"), ("R", "I"), ("R", "J"), ("I", "R")]
  source := "R"
  target := "E"
  broken := [⟨"R", "I"⟩]
  defect := some .expired
  expectFailure := false
  comment := ""

/-- The root, the second intermediate, the first one and the leaf are what a client can find. -/
theorem leads_of_detour : ∃ chain,
    detour.chain unsignedRoot (numberedDraws 0) hostname = .ok chain ∧
      ∃ c, unsignedRoot.issuer = .ok c.issuer ∧
        Leads chain (numberedDraws 0).now hostname c := by
  have succeeds : (detour.chain unsignedRoot (numberedDraws 0) hostname).toBool = true := by
    decide +kernel
  have outside : ¬ InDomain hostname "bad.example.com" := by
    rintro ⟨front, e, -⟩
    have length : 9 = (front ++ (Text.lower "bad.example.com").toList).length :=
      congrArg List.length e
    rw [List.length_append] at length
    have domain : (Text.lower "bad.example.com").toList.length = 15 := by decide
    omega
  have keys : DistinctKeys unsignedRoot (numberedDraws 0) detour := by
    unfold DistinctKeys
    decide +kernel
  cases made : detour.chain unsignedRoot (numberedDraws 0) hostname with
  | error e =>
    rw [made] at succeeds
    cases succeeds
  | ok chain =>
    exact ⟨chain, rfl, (expected_pass_iff_leads made (by decide) (by decide) outside keys).mp
      (by decide)⟩

end ChainConformance.PathBuilding
