import ObjectSpace.Proofs.Resolution.Outcomes

set_option autoImplicit false

namespace ObjectSpace

namespace Store

variable {store : Store} {caller : Caller} {targets : Set Reference}

def Findable (store : Store) (caller : Caller) (address : Address) : Prop :=
  ∃ located, store.locate? address = some located ∧
    (store.opens caller located.reference = true ∨
      ∃ source, store.opens caller source = true ∧
        Relation.TransGen (fun source target => store.refersTo source target = true)
          source located.reference)

def edges (store : Store) : List (Reference × Reference) :=
  store.incoming.entries.flatMap fun entry => entry.2.map fun source => (entry.1, source)

theorem mem_edges (consistent : store.Consistent) {source target : Reference}
    (refers : store.refersTo source target = true) : (target, source) ∈ store.edges := by
  have listed := (consistent.referred source target).mpr refers
  rw [referrers] at listed
  cases found : store.incoming.get? target with
  | none => simp [found] at listed
  | some sources =>
    have present := Table.get?_eq_some_iff.mp found
    rw [found, Option.getD_some] at listed
    exact List.mem_flatMap.mpr ⟨_, present, List.mem_map.mpr ⟨source, listed, rfl⟩⟩

def edgeSet (store : Store) : Set (Reference × Reference) :=
  {edge | store.refersTo edge.1 edge.2 = true}

theorem encard_edgeSet_le (consistent : store.Consistent) :
    store.edgeSet.encard ≤ store.edges.length := by
  have few : {edge | edge ∈ store.edges}.encard ≤ store.edges.length := by
    rw [← List.coe_toFinset, Set.encard_coe_eq_coe_finsetCard]
    exact_mod_cast List.toFinset_card_le _
  refine le_trans (Set.encard_le_encard_of_injOn (f := Prod.swap) ?_ ?_) few
  · intro edge refers
    exact mem_edges consistent refers
  · exact Prod.swap_injective.injOn

-- Each stored reference counts at most once for each target.
theorem searchCost_le_edgeSet (caller : Caller) (targets : Set Reference) :
    store.searchCost caller targets ≤
      targets.encard + targets.encard * store.edgeSet.encard := by
  have chosen : ∀ entry : Nat × Reference × Reference, ∃ target : Reference,
      entry ∈ store.examined caller targets →
        target ∈ targets ∧ store.AtDistance target entry.1 entry.2.1 := by
    intro entry
    by_cases mem : entry ∈ store.examined caller targets
    · obtain ⟨_, target, listed, distance, _⟩ := mem
      exact ⟨target, fun _ => ⟨listed, distance⟩⟩
    · exact ⟨entry.2.1, fun other => absurd other mem⟩
  choose target spec using chosen
  rw [searchCost]
  gcongr
  rw [← Set.encard_prod]
  apply Set.encard_le_encard_of_injOn (f := fun entry => (target entry, entry.2.swap))
  · intro entry mem
    exact ⟨(spec entry mem).1, mem.1⟩
  · intro entry mem other mem' same
    obtain ⟨steps, edge⟩ := entry
    obtain ⟨steps', edge'⟩ := other
    obtain ⟨same_target, swapped⟩ := Prod.mk.inj same
    obtain rfl := Prod.swap_injective swapped
    -- One target has a version at one distance only.
    have near := (spec _ mem).2
    have near' := (spec _ mem').2
    rw [same_target] at near
    exact Prod.ext (near.unique near') rfl

theorem searchCost_le (consistent : store.Consistent) (caller : Caller) (targets : Set Reference) :
    store.searchCost caller targets ≤ targets.encard + targets.encard * store.edges.length := by
  refine (searchCost_le_edgeSet caller targets).trans ?_
  gcongr
  exact encard_edgeSet_le consistent

theorem canonical_self {target : Reference} (opened : store.opens caller target = true) :
    store.Canonical caller [target] target := by
  refine ⟨⟨leads_singleton.mpr rfl, target, rfl, opened⟩, ?_, ?_⟩
  · intro other given
    rcases given with ⟨_, source, head, _⟩
    cases other with
    | nil => cases head
    | cons first rest => simp
  · intro other given length
    rcases given with ⟨leads, source, head, _⟩
    obtain ⟨first, rfl⟩ := List.length_eq_one_iff.mp length
    rw [leads_singleton.mp leads]
    exact .inl rfl

theorem Canonical.eq_self {path : List Reference} {target : Reference}
    (canonical : store.Canonical caller path target)
    (opened : store.opens caller target = true) : path = [target] := by
  have short := canonical.shortest [target] (canonical_self opened).toOpenChain
  have last := canonical.leads.2
  cases path with
  | nil => cases last
  | cons first rest =>
    obtain rfl : rest = [] := by simpa using short
    simpa using last

section Found

variable {searched : SearchResult} {address : Address}

theorem outcomeFound_ok {resolution : Resolution}
    (canonical : ∀ target path, searched.paths.get? target = some path →
      store.Canonical caller path target)
    (found : store.outcomeFound caller searched address = .ok resolution) :
    ∃ located, store.locate? address = some located ∧ resolution.kind = .path ∧
      resolution.object = located.shown ∧
      store.Canonical caller resolution.path located.reference := by
  simp only [outcomeFound] at found
  cases located : store.locate? address with
  | none => simp [located] at found
  | some target =>
    simp only [located] at found
    cases opened : store.opens caller target.reference with
    | true =>
      simp only [opened, if_true, Except.ok.injEq] at found
      subst found
      exact ⟨target, rfl, rfl, rfl, canonical_self opened⟩
    | false =>
      simp only [opened, Bool.false_eq_true, if_false] at found
      cases path : searched.paths.get? target.reference with
      | none =>
        simp only [path] at found
        split at found <;> cases found
      | some path =>
        simp only [path, Except.ok.injEq] at found
        subst found
        exact ⟨target, rfl, rfl, rfl, canonical _ _ path⟩

variable {batch : List Address} {limit : Nat}

theorem outcomeFound_of_findable
    (finished : Search.Finished store caller (store.lookupTargets caller batch) limit searched)
    (mem : address ∈ batch) (lookup : address.isLookup = true)
    (within : store.outcomeFound caller searched address ≠
      .error { object := address, cause := .searchLimitExceeded })
    (findable : store.Findable caller address) :
    ∃ resolution, store.outcomeFound caller searched address = .ok resolution := by
  obtain ⟨target, located, reaches⟩ := findable
  cases opened : store.opens caller target.reference with
  | true => simp [outcomeFound, located, opened]
  | false =>
    have listed : target.reference ∈ store.lookupTargets caller batch :=
      ⟨address, mem, by simp [searchTarget?, lookup, located, opened]⟩
    cases path : searched.paths.get? target.reference with
    | some path => simp [outcomeFound, located, opened, path]
    | none =>
      have below : searched.limitReached = false := by
        rw [Bool.eq_false_iff]
        intro reached
        simp [outcomeFound, located, opened, path, reached] at within
      rcases reaches with own | ⟨source, opens, reaches⟩
      · simp [opened] at own
      · obtain ⟨onward, leads⟩ := leads_of_transGen reaches
        have shut := finished.complete below _ listed path source onward leads
        simp [opens] at shut

theorem outcomeFound_of_not_findable
    (finished : Search.Finished store caller (store.lookupTargets caller batch) limit searched)
    (within : store.outcomeFound caller searched address ≠
      .error { object := address, cause := .searchLimitExceeded })
    (lost : ¬ store.Findable caller address) :
    store.outcomeFound caller searched address =
      .error { object := address, cause := .inaccessible caller.user } := by
  cases located : store.locate? address with
  | none => simp [outcomeFound, located]
  | some target =>
    have shut : store.opens caller target.reference = false := by
      rw [Bool.eq_false_iff]
      exact fun opened => lost ⟨target, located, .inl opened⟩
    cases path : searched.paths.get? target.reference with
    | none =>
      cases reached : searched.limitReached with
      | true => simp [outcomeFound, located, shut, path, reached] at within
      | false => simp [outcomeFound, located, shut, path, reached]
    | some path =>
      obtain ⟨leads, source, head, opens⟩ := (finished.canonical _ _ path).toOpenChain
      obtain ⟨onward, rfl⟩ := List.head?_eq_some_iff.mp head
      cases onward with
      | nil =>
        obtain rfl := leads_singleton.mp leads
        simp [opens] at shut
      | cons middle onward => exact absurd ⟨target, located, .inr ⟨source, opens, leads.transGen⟩⟩ lost

theorem outcomeFound_exceeded
    (exceeded : store.outcomeFound caller searched address =
      .error { object := address, cause := .searchLimitExceeded }) :
    searched.limitReached = true := by
  simp only [outcomeFound] at exceeded
  cases reached : searched.limitReached with
  | true => rfl
  | false =>
    simp only [reached, Bool.false_eq_true, if_false] at exceeded
    split at exceeded
    · cases exceeded
    · split at exceeded
      · cases exceeded
      · split at exceeded <;> cases exceeded

end Found

end Store

namespace Resolver

variable {store : Store} {user : Option User} {batch : List Address} {config : ResolverConfig}
variable {resolver : Resolver}

theorem lookup_finds_canonical (reachable : store.Reachable)
    (made : make user batch config = .ok resolver) :
    ∃ result, resolver.resolve.run store = .ok result ∧
      ∀ address ∈ batch, address.isLookup = true →
        ∃ outcome, result.outcome? address = some outcome ∧
          (∀ resolution, outcome = .ok resolution →
            ∃ located, store.locate? address = some located ∧
              resolution.object = located.shown ∧
              store.Canonical ⟨user, config.asAdmin⟩ resolution.path located.reference ∧
              (store.opens ⟨user, config.asAdmin⟩ located.reference = true →
                resolution.path = [located.reference])) ∧
          (outcome ≠ .error { object := address, cause := .searchLimitExceeded } →
            ((∃ resolution, outcome = .ok resolution) ↔
              store.Findable ⟨user, config.asAdmin⟩ address) ∧
            (¬ store.Findable ⟨user, config.asAdmin⟩ address →
              outcome = .error { object := address, cause := .inaccessible user })) ∧
          (outcome = .error { object := address, cause := .searchLimitExceeded } →
            config.maxSearchCount < store.searchCost ⟨user, config.asAdmin⟩
              (store.lookupTargets ⟨user, config.asAdmin⟩ batch)) := by
  obtain ⟨searched, finished, ran⟩ := resolve_ok reachable.consistent made
  refine ⟨_, ran, ?_⟩
  intro address mem lookup
  have listed : address ∈ batch.eraseDups := List.mem_eraseDups.mpr mem
  have same : ∀ place, store.outcomeOf ⟨user, config.asAdmin⟩ searched place address =
      store.outcomeFound ⟨user, config.asAdmin⟩ searched address := by
    intro place
    simp [Store.outcomeOf, lookup]
  refine ⟨_, outcome?_eq listed (store.outcomeOf ⟨user, config.asAdmin⟩ searched), ?_⟩
  rw [same]
  refine ⟨?_, ?_, ?_⟩
  · intro resolution found
    obtain ⟨located, there, _, shown, canonical⟩ :=
      Store.outcomeFound_ok finished.canonical found
    exact ⟨located, there, shown, canonical, canonical.eq_self⟩
  · intro within
    have lost := Store.outcomeFound_of_not_findable finished within
    refine ⟨⟨?_, Store.outcomeFound_of_findable finished mem lookup within⟩, lost⟩
    intro given
    rcases given with ⟨resolution, found⟩
    by_contra hidden
    cases found.symm.trans (lost hidden)
  · intro exceeded
    exact finished.exceeded (Store.outcomeFound_exceeded exceeded)

theorem sample_searchCost_le :
    Store.sample.searchCost ⟨some Store.Sample.alice, false⟩
      (Store.sample.lookupTargets ⟨some Store.Sample.alice, false⟩
        [Store.Sample.wanted .lookup]) ≤ 3 := by
  have one : (Store.sample.lookupTargets ⟨some Store.Sample.alice, false⟩
      [Store.Sample.wanted .lookup]).encard ≤ 1 := by
    refine (Set.encard_le_encard ?_).trans (Set.encard_singleton Store.Sample.target).le
    intro target given
    rcases given with ⟨address, mem, searched⟩
    obtain rfl := List.mem_singleton.mp mem
    exact Option.some.inj (searched.symm.trans (by decide))
  have edges : Store.sample.edges.length = 2 := by decide
  have bound := Store.searchCost_le Store.reachable_sample.consistent
    ⟨some Store.Sample.alice, false⟩ (Store.sample.lookupTargets
      ⟨some Store.Sample.alice, false⟩ [Store.Sample.wanted .lookup])
  rw [edges] at bound
  calc _ ≤ _ := bound
    _ ≤ (1 : ℕ∞) + 1 * (2 : Nat) := by gcongr
    _ ≤ 3 := by decide

theorem sample_lookup_finds_canonical :
    ∃ resolver result resolution, Store.sample.Reachable ∧
      make (some Store.Sample.alice) [Store.Sample.wanted .lookup] {} = .ok resolver ∧
      resolver.resolve.run Store.sample = .ok result ∧
      result.outcome? (Store.Sample.wanted .lookup) = some (.ok resolution) ∧
      resolution.object.reference = Store.Sample.target ∧
      Store.sample.Canonical ⟨some Store.Sample.alice, false⟩ resolution.path
        Store.Sample.target := by
  have made : make (some Store.Sample.alice) [Store.Sample.wanted .lookup] {} = .ok _ := rfl
  obtain ⟨result, ran, each⟩ := lookup_finds_canonical Store.reachable_sample made
  obtain ⟨outcome, there, found, complete, exceeded⟩ :=
    each (Store.Sample.wanted .lookup) List.mem_cons_self rfl
  have named : (Store.sample.locate? (Store.Sample.wanted .lookup)).map Located.reference =
      some Store.Sample.target := by decide
  obtain ⟨located, names, at_target⟩ := Option.map_eq_some_iff.mp named
  have findable : Store.sample.Findable ⟨some Store.Sample.alice, false⟩
      (Store.Sample.wanted .lookup) := by
    refine ⟨located, names, .inr ⟨Store.Sample.root, by decide, ?_⟩⟩
    rw [at_target]
    exact .head (by decide : Store.sample.refersTo _ Store.Sample.middle = true)
      (.single (by decide))
  have cheap : Store.sample.searchCost ⟨some Store.Sample.alice, false⟩
      (Store.sample.lookupTargets ⟨some Store.Sample.alice, false⟩
        [Store.Sample.wanted .lookup]) ≤ (10000 : Nat) :=
    sample_searchCost_le.trans (by decide)
  obtain ⟨resolution, rfl⟩ :=
    (complete fun exceeds => absurd (exceeded exceeds) (not_lt.mpr cheap)).1.mpr findable
  obtain ⟨located', names', shown, canonical, _⟩ := found resolution rfl
  obtain rfl : located' = located := Option.some.inj (names'.symm.trans names)
  refine ⟨_, result, resolution, Store.reachable_sample, made, ran, there, ?_, ?_⟩
  · rw [shown]
    exact at_target
  · exact at_target ▸ canonical

end Resolver

end ObjectSpace
