import ObjectSpace.Proofs.Resolution.Climb
import ObjectSpace.Proofs.Resolution.Lookups
import ObjectSpace.Proofs.Resolution.Totality

set_option autoImplicit false

namespace ObjectSpace

namespace Search

structure Extends (searched later : SearchResult) : Prop where
  kept : ∀ target path, searched.paths.get? target = some path →
    later.paths.get? target = some path
  same : searched.limitReached = false → later = searched

variable {ε σ : Type} [OfStoreError ε] {respond : Responder σ} {readable : ReadableWorkspaces}
variable {limit more count : Nat} {trees : List SearchTree} {result : SearchResult} {state : σ}

namespace Climb

variable {log log' : List (Exchange σ)} {outcome outcome' : Except ε SearchResult}

theorem kept (climb : Climb respond readable limit count trees result state log outcome)
    (pending : Pending trees result) {searched : SearchResult} (ended : outcome = .ok searched)
    {target : Reference} {path : List Reference}
    (found : result.paths.get? target = some path) :
    searched.paths.get? target = some path := by
  induction climb with
  | done =>
    cases ended
    exact found
  | unanswered => cases ended
  | exceeded =>
    cases ended
    exact found
  | unjudged => cases ended
  | level some_tree asked within told onward ih =>
    exact ih (pending.grown _ _) ended (pending.kept _ _ found)

theorem extend (climb : Climb respond readable limit count trees result state log outcome)
    (climb' : Climb respond readable more count trees result state log' outcome')
    (below : limit ≤ more) (pending : Pending trees result) {searched later : SearchResult}
    (ended : outcome = .ok searched) (ended' : outcome' = .ok later) : Extends searched later := by
  induction climb generalizing log' with
  | done =>
    cases climb' with
    | done =>
      cases ended
      cases ended'
      exact ⟨fun _ _ found => found, fun _ => rfl⟩
    | unanswered some_tree | exceeded some_tree | unjudged some_tree | level some_tree =>
      exact absurd rfl some_tree
  | unanswered => cases ended
  | exceeded =>
    -- The lower ceiling ends here, and the other search keeps what it has.
    cases ended
    exact ⟨fun _ _ found => climb'.kept pending ended' found, by simp⟩
  | unjudged => cases ended
  | @level count trees result state after between incoming states _ _ some_tree asked within told
      onward ih =>
    cases climb' with
    | done => exact absurd rfl some_tree
    | unanswered _ asked' => cases asked.symm.trans asked'
    | exceeded _ asked' exceeds =>
      cases asked.symm.trans asked'
      omega
    | unjudged => cases ended'
    | level _ asked' within' told' onward' =>
      cases asked.symm.trans asked'
      cases told.symm.trans told'
      exact ih onward' (pending.grown _ _) ended

end Climb

theorem run_extends (below : limit ≤ more) (targets : List Reference)
    {searched later : SearchResult}
    (ended : ((Search.run readable limit targets : Enquiry ε _).runWith respond state).1 =
      .ok searched)
    (ended' : ((Search.run readable more targets : Enquiry ε _).runWith respond state).1 =
      .ok later) : Extends searched later := by
  by_cases nothing : targets = [] ∨ readable.isEmpty = true
  · rw [run_nothing nothing] at ended ended'
    cases ended
    cases ended'
    exact ⟨fun _ _ found => found, fun _ => rfl⟩
  · simp only [not_or, Bool.not_eq_true] at nothing
    by_cases exceeds : limit < targets.eraseDups.length
    · rw [run_over nothing.1 nothing.2 exceeds] at ended
      cases ended
      constructor
      · intro target path found
        cases found
      · intro below
        cases below
    · have within : targets.eraseDups.length ≤ limit := by omega
      have climb := @climb_run ε σ _ respond readable limit state targets nothing.1 nothing.2 within
      have climb' := @climb_run ε σ _ respond readable more state targets nothing.1 nothing.2
        (within.trans below)
      exact climb.extend climb' below (pending_planted targets) ended ended'

end Search

namespace Store

variable {store : Store} {caller : Caller}

theorem walkAlone_ne_exceeded {index position : Nat} {holder : Address} {previous : Located}
    {hops : List Address} :
    store.walkAlone caller index position holder previous hops ≠ .error .searchLimitExceeded := by
  induction hops generalizing position holder previous with
  | nil => simp [walkAlone]
  | cons hop rest ih =>
    simp only [walkAlone]
    split
    · simp
    next next accepted =>
      intro exceeded
      cases walked : store.walkAlone caller index (position + 1) hop next rest with
      | error cause =>
        rw [walked] at exceeded
        cases exceeded
        exact ih walked
      | ok walked' =>
        rw [walked] at exceeded
        cases exceeded

theorem workspaceAlone_ne_exceeded {address : Address} :
    store.workspaceAlone caller address ≠ .error .searchLimitExceeded := by
  simp only [workspaceAlone]
  split
  · simp
  · split
    · simp
    · split <;> simp

theorem headAlone_ne_exceeded {address : Address} :
    store.headAlone caller address ≠ .error .searchLimitExceeded := by
  simp only [headAlone]
  split
  next cause failed =>
    intro exceeded
    cases exceeded
    exact workspaceAlone_ne_exceeded failed
  next workspace entered =>
    simp only [startIn]
    split
    · simp
    · split <;> simp

theorem outcomeAlone_ne_exceeded {index : Nat} {address : Address} :
    store.outcomeAlone caller index address ≠
      .error { object := address, cause := .searchLimitExceeded } := by
  simp only [outcomeAlone]
  split
  next cause failed =>
    intro exceeded
    cases exceeded
    exact headAlone_ne_exceeded failed
  next head entered =>
    split
    next cause failed =>
      intro exceeded
      cases exceeded
      exact walkAlone_ne_exceeded failed
    next => simp

theorem edgeSet_finite (consistent : store.Consistent) : store.edgeSet.Finite :=
  Set.finite_of_encard_le_coe (encard_edgeSet_le consistent)

end Store

namespace Resolver

section Outcomes

variable {searched later : SearchResult} {findings : Findings} {object address : Address}
variable {outcome : Outcome}

theorem conclude_extends (extended : Search.Extends searched later) {progress : Progress}
    (concluded : conclude findings searched object progress = .ok outcome)
    (settled : outcome ≠ .error { object, cause := .searchLimitExceeded }) :
    conclude findings later object progress = .ok outcome := by
  cases progress with
  | settled => exact concluded
  | searching head target =>
    cases path : searched.paths.get? target with
    | some path =>
      simpa [conclude, path, extended.kept target _ path] using concluded
    | none =>
      cases reached : searched.limitReached with
      | false => rwa [extended.same reached]
      | true =>
        simp only [conclude, path, reached, if_true, settle, Except.ok.injEq] at concluded
        exact absurd concluded.symm settled

theorem outcomes_extend (extended : Search.Extends searched later) {opening : Opening}
    {ended ended' : List (Address × Outcome)} (ran : opening.outcomes searched = .ok ended)
    (ran' : opening.outcomes later = .ok ended')
    (found : (Resolutions.mk ended).outcome? address = some outcome)
    (settled : outcome ≠ .error { object := address, cause := .searchLimitExceeded }) :
    (Resolutions.mk ended').outcome? address = some outcome := by
  simp only [Opening.outcomes] at ran ran'
  simp only [Resolutions.outcome?] at found ⊢
  generalize opening.progress = progress at ran ran'
  induction progress generalizing ended ended' with
  | nil =>
    cases ran
    cases found
  | cons entry rest ih =>
    rcases mapM_cons_ok.mp ran with ⟨first, others, here, onward, rfl⟩
    rcases mapM_cons_ok.mp ran' with ⟨first', others', here', onward', rfl⟩
    rcases labelled_ok here with ⟨named, concluded⟩
    rcases labelled_ok here' with ⟨named', concluded'⟩
    by_cases same : entry.1 = address
    · subst same
      simp only [List.find?_cons, named, decide_true, Option.map_some, Option.some.injEq] at found
      subst found
      have again := conclude_extends extended concluded settled
      simp [named', Except.ok.inj (concluded'.symm.trans again)]
    · simp only [List.find?_cons, named, named', same, decide_false] at found ⊢
      exact ih found onward onward'

end Outcomes

variable {σ : Type} {respond : Responder σ} {state : σ} {resolver : Resolver} {more : Nat}

def withCeiling (resolver : Resolver) (ceiling : Nat) : Resolver :=
  { resolver with config := { resolver.config with maxSearchCount := ceiling } }

theorem search_extends (below : resolver.config.maxSearchCount ≤ more) (targets : List Reference)
    {searched later : SearchResult}
    (ran : ((resolver.search targets).runWith respond state).1 = .ok searched)
    (ran' : (((resolver.withCeiling more).search targets).runWith respond state).1 = .ok later) :
    Search.Extends searched later := by
  by_cases none : targets = []
  · simp only [search, none, if_true] at ran ran'
    cases ran
    cases ran'
    exact ⟨fun _ _ found => found, fun _ => rfl⟩
  · have same : (resolver.withCeiling more).readableWorkspaces = resolver.readableWorkspaces := rfl
    simp only [search, none, if_false, same] at ran ran'
    rcases Enquiry.runWith_bind_ok (Prod.ext ran rfl) with ⟨readable, between, found, ended⟩
    rcases Enquiry.runWith_bind_ok (Prod.ext ran' rfl) with ⟨readable', between', found', ended'⟩
    cases found.symm.trans found'
    exact Search.run_extends below targets (congrArg Prod.fst ended) (congrArg Prod.fst ended')

theorem resolve_extends (below : resolver.config.maxSearchCount ≤ more)
    {result result' : Resolutions} (ran : (resolver.resolve.runWith respond state).1 = .ok result)
    (ran' : ((resolver.withCeiling more).resolve.runWith respond state).1 = .ok result')
    {address : Address} {outcome : Outcome} (found : result.outcome? address = some outcome)
    (settled : outcome ≠ .error { object := address, cause := .searchLimitExceeded }) :
    result'.outcome? address = some outcome := by
  have same : (resolver.withCeiling more).opening = resolver.opening := rfl
  rw [resolve_eq] at ran ran'
  rw [same] at ran'
  rcases Enquiry.runWith_bind_ok (Prod.ext ran rfl) with ⟨opening, after, opened, ran⟩
  rcases Enquiry.runWith_bind_ok (Prod.ext ran' rfl) with ⟨opening', after', opened', ran'⟩
  cases opened.symm.trans opened'
  rcases Enquiry.runWith_bind_ok ran with ⟨searched, _, ended, ran⟩
  rcases Enquiry.runWith_bind_ok ran' with ⟨later, _, ended', ran'⟩
  have extended := search_extends below _ (congrArg Prod.fst ended) (congrArg Prod.fst ended')
  rw [Enquiry.runWith_ofExcept] at ran ran'
  cases closed : opening.outcomes searched with
  | error error => simp [closed, Except.map] at ran
  | ok outcomes =>
    cases closed' : opening.outcomes later with
    | error error => simp [closed', Except.map] at ran'
    | ok outcomes' =>
      rw [closed] at ran
      rw [closed'] at ran'
      cases ran
      cases ran'
      exact outcomes_extend extended closed closed' found settled

section Reachable

variable {store : Store} {user : Option User} {batch : List Address} {config : ResolverConfig}

theorem lookupTargets_finite (made : make user batch config = .ok resolver) :
    (store.lookupTargets ⟨user, config.asAdmin⟩ batch).Finite := by
  rw [← sought_eq_lookupTargets made]
  exact List.finite_toSet _

theorem make_withCeiling (made : make user batch config = .ok resolver)
    (below : config.maxSearchCount ≤ more) :
    make user batch { config with maxSearchCount := more } = .ok (resolver.withCeiling more) := by
  rcases make_eq_ok_iff.mp made with ⟨some_address, valid, rfl⟩
  refine make_eq_ok_iff.mpr ⟨some_address, ?_, rfl⟩
  by_cases least : config.maxSearchCount < 1
  · simp [ResolverConfig.validate, least] at valid
  · have enough : ¬ more < 1 := by omega
    simp [ResolverConfig.validate, enough]

-- Room for every stored reference, once for each target, cuts nothing off.
theorem not_exceeded (consistent : store.Consistent)
    (made : make user batch config = .ok resolver)
    (room : (store.lookupTargets ⟨user, config.asAdmin⟩ batch).ncard * (1 + store.edgeSet.ncard) ≤
      config.maxSearchCount) {result : Resolutions}
    (ran : resolver.resolve.run store = .ok result) {address : Address} (mem : address ∈ batch) :
    result.outcome? address ≠
      some (.error { object := address, cause := .searchLimitExceeded }) := by
  rcases resolve_ok consistent made with ⟨searched, finished, ran'⟩
  cases ran.symm.trans ran'
  have listed : address ∈ batch.eraseDups := List.mem_eraseDups.mpr mem
  rw [outcome?_eq listed (store.outcomeOf ⟨user, config.asAdmin⟩ searched), Ne, Option.some.injEq]
  cases lookup : address.isLookup with
  | false =>
    simp only [Store.outcomeOf, lookup, Bool.false_eq_true, if_false]
    exact Store.outcomeAlone_ne_exceeded
  | true =>
    simp only [Store.outcomeOf, lookup, if_true]
    intro exceeded
    have above := finished.exceeded (Store.outcomeFound_exceeded exceeded)
    have cost := above.trans_le (Store.searchCost_le_edgeSet _ _)
    have targets : (store.lookupTargets ⟨user, config.asAdmin⟩ batch).Finite :=
      lookupTargets_finite made
    rw [← targets.cast_ncard_eq, ← (Store.edgeSet_finite consistent).cast_ncard_eq] at cost
    norm_cast at cost
    rw [Nat.mul_add, Nat.mul_one] at room
    omega

theorem raised_ceiling_keeps_outcomes (made : make user batch config = .ok resolver)
    (below : config.maxSearchCount ≤ more) :
    ∃ raised, make user batch { config with maxSearchCount := more } = .ok raised ∧
      (∀ (σ : Type) (respond : Responder σ) (state : σ) (result result' : Resolutions),
        (resolver.resolve.runWith respond state).1 = .ok result →
        (raised.resolve.runWith respond state).1 = .ok result' →
        ∀ address outcome, result.outcome? address = some outcome →
          outcome ≠ .error { object := address, cause := .searchLimitExceeded } →
          result'.outcome? address = some outcome) ∧
      ∀ store : Store, store.Reachable →
        ∃ result result', resolver.resolve.run store = .ok result ∧
          raised.resolve.run store = .ok result' ∧
          ((store.lookupTargets ⟨user, config.asAdmin⟩ batch).ncard * (1 + store.edgeSet.ncard) ≤
              config.maxSearchCount →
            ∀ address ∈ batch, result.outcome? address ≠
              some (.error { object := address, cause := .searchLimitExceeded })) := by
  have remade := make_withCeiling made below
  refine ⟨resolver.withCeiling more, remade, ?_, ?_⟩
  · intro σ respond state result result' ran ran' address outcome found settled
    have ceiling : resolver.config.maxSearchCount ≤ more := by
      rwa [make_eq_ok made]
    exact resolve_extends ceiling ran ran' found settled
  · intro store reachable
    rcases resolve_ok reachable.consistent made with ⟨_, _, ran⟩
    rcases resolve_ok reachable.consistent remade with ⟨_, _, ran'⟩
    exact ⟨_, _, ran, ran', fun room _ mem => not_exceeded reachable.consistent made room ran mem⟩

end Reachable

namespace Sample

theorem lookupTargets_ncard_le :
    (Store.sample.lookupTargets ⟨some Store.Sample.alice, false⟩
      [Store.Sample.wanted .lookup]).ncard ≤ 1 := by
  have only : Store.sample.lookupTargets ⟨some Store.Sample.alice, false⟩
      [Store.Sample.wanted .lookup] ⊆ {Store.Sample.target} := by
    intro target given
    rcases given with ⟨address, mem, searched⟩
    obtain rfl := List.mem_singleton.mp mem
    exact Option.some.inj (searched.symm.trans (by decide))
  exact (Set.ncard_le_ncard only).trans (Set.ncard_singleton _).le

theorem edgeSet_ncard_le : Store.sample.edgeSet.ncard ≤ 2 := by
  have consistent := Store.reachable_sample.consistent
  have listed : Store.sample.edges.length = 2 := by decide
  have few := Store.encard_edgeSet_le consistent
  rw [listed, ← (Store.edgeSet_finite consistent).cast_ncard_eq] at few
  exact_mod_cast few

end Sample

theorem sample_raised_ceiling :
    ∃ resolver raised result result', Store.sample.Reachable ∧
      make (some Store.Sample.alice) [Store.Sample.wanted .lookup] { maxSearchCount := 3 } =
        .ok resolver ∧
      make (some Store.Sample.alice) [Store.Sample.wanted .lookup] { maxSearchCount := 8 } =
        .ok raised ∧
      resolver.resolve.run Store.sample = .ok result ∧
      raised.resolve.run Store.sample = .ok result' ∧
      ∃ outcome, outcome ≠ .error
          { object := Store.Sample.wanted .lookup, cause := .searchLimitExceeded } ∧
        result.outcome? (Store.Sample.wanted .lookup) = some outcome ∧
        result'.outcome? (Store.Sample.wanted .lookup) = some outcome := by
  have made : make (some Store.Sample.alice) [Store.Sample.wanted .lookup]
      { maxSearchCount := 3 } = .ok _ := rfl
  rcases raised_ceiling_keeps_outcomes made (by decide : 3 ≤ 8) with ⟨raised, remade, kept, total⟩
  rcases total Store.sample Store.reachable_sample with ⟨result, result', ran, ran', enough⟩
  have room : (Store.sample.lookupTargets ⟨some Store.Sample.alice, false⟩
      [Store.Sample.wanted .lookup]).ncard * (1 + Store.sample.edgeSet.ncard) ≤ 3 := by
    calc _ ≤ 1 * (1 + 2) :=
          Nat.mul_le_mul Sample.lookupTargets_ncard_le
            (Nat.add_le_add_left Sample.edgeSet_ncard_le 1)
      _ = 3 := rfl
  have uncut := enough room (Store.Sample.wanted .lookup) List.mem_cons_self
  have ended := (Enquiry.runWith_still _ _).trans (congrArg (·, Store.sample) ran)
  have ended' := (Enquiry.runWith_still _ _).trans (congrArg (·, Store.sample) ran')
  have listed : Store.Sample.wanted .lookup ∈ result.objects := by
    rw [(resolve_isOf ended).1]
    decide
  rcases Resolutions.outcome?_of_mem listed with ⟨outcome, told, _⟩
  have settled : outcome ≠ .error
      { object := Store.Sample.wanted .lookup, cause := .searchLimitExceeded } := by
    rintro rfl
    exact uncut told
  exact ⟨_, raised, result, result', Store.reachable_sample, made, remade, ran, ran', outcome,
    settled, told, kept _ _ _ _ _ (congrArg Prod.fst ended) (congrArg Prod.fst ended') _ _ told
      settled⟩

end Resolver

end ObjectSpace
