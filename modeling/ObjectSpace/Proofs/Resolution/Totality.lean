import ObjectSpace.Proofs.Resolution.Outcomes

set_option autoImplicit false

namespace ObjectSpace

def Outcome.IsOf (outcome : Outcome) (address : Address) : Prop :=
  ∀ failure, outcome = .error failure → failure.object = address

def Progress.IsOf (progress : Progress) (address : Address) : Prop :=
  match progress with
  | .settled outcome => Outcome.IsOf outcome address
  | .searching _ _ => True

namespace Resolutions

variable {resolutions : Resolutions} {batch : List Address} {address : Address}

structure Covers (resolutions : Resolutions) (batch : List Address) : Prop where
  objects : resolutions.objects = batch.eraseDups
  one : ∀ address ∈ batch,
    (∃ resolution, resolutions.resolution? address = some resolution ∧
      resolutions.failure? address = none) ∨
    (∃ failure, resolutions.failure? address = some failure ∧ failure.object = address ∧
      resolutions.resolution? address = none)
  no_other : ∀ address ∉ batch,
    resolutions.resolution? address = none ∧ resolutions.failure? address = none

theorem outcome?_of_mem (mem : address ∈ resolutions.objects) :
    ∃ outcome, resolutions.outcome? address = some outcome ∧
      (address, outcome) ∈ resolutions.outcomes := by
  rcases List.mem_map.mp mem with ⟨listed, there, named⟩
  have found : (resolutions.outcomes.find? fun entry => entry.1 = address).isSome := by
    rw [List.find?_isSome]
    exact ⟨listed, there, by simpa using named⟩
  rcases Option.isSome_iff_exists.mp found with ⟨⟨other, outcome⟩, first⟩
  have same : other = address := by simpa using List.find?_some first
  subst same
  exact ⟨outcome, by simp [outcome?, first], List.mem_of_find?_eq_some first⟩

theorem outcome?_of_not_mem (absent : address ∉ resolutions.objects) :
    resolutions.outcome? address = none := by
  rw [outcome?, Option.map_eq_none_iff, List.find?_eq_none]
  intro entry mem
  have listed : entry.1 ∈ resolutions.objects := List.mem_map_of_mem mem
  simpa using fun same : entry.1 = address => absent (same ▸ listed)

theorem covers (objects : resolutions.objects = batch.eraseDups)
    (own : ∀ entry ∈ resolutions.outcomes, Outcome.IsOf entry.2 entry.1) :
    resolutions.Covers batch := by
  have listed : ∀ address, address ∈ resolutions.objects ↔ address ∈ batch := by
    intro address
    rw [objects, List.mem_eraseDups]
  refine ⟨objects, ?_, ?_⟩
  · intro address mem
    rcases outcome?_of_mem ((listed address).mpr mem) with ⟨outcome, told, kept⟩
    cases outcome with
    | ok resolution => exact .inl ⟨resolution, by simp [resolution?, told], by simp [failure?, told]⟩
    | error failure =>
      have named := own _ kept failure rfl
      exact .inr ⟨failure, by simp [failure?, told], named, by simp [resolution?, told]⟩
  · intro address absent
    have none_told := outcome?_of_not_mem fun mem => absent ((listed address).mp mem)
    constructor
    · simp [resolution?, none_told]
    · simp [failure?, none_told]

end Resolutions

namespace Resolver

variable {resolver : Resolver} {findings : Findings} {object : Address} {outcome : Outcome}

theorem settle_isOf {found : Except FailureCause (Except ResolveError Resolution)}
    (settled : settle object found = .ok outcome) : Outcome.IsOf outcome object := by
  intro failure failed
  subst failed
  cases found with
  | error cause =>
    cases settled
    rfl
  | ok resolution => cases resolution <;> cases settled

theorem settled_isOf {found : Except FailureCause (Except ResolveError Resolution)}
    {reached : Progress}
    (settled : (settle object found).map Progress.settled = .ok reached) :
    reached.IsOf object := by
  cases ended : settle object found with
  | error error =>
    rw [ended] at settled
    cases settled
  | ok outcome =>
    rw [ended] at settled
    cases settled
    exact settle_isOf ended

theorem progress_isOf {incoming : Table Reference (List Reference)} {index : Nat}
    {reached : Progress} (ran : progress findings incoming object index = .ok reached) :
    reached.IsOf object := by
  have own : ∀ cause, (Progress.settled (.error { object, cause })).IsOf object := by
    intro cause failure same
    cases same
    rfl
  simp only [progress] at ran
  split at ran
  · cases ran
    exact own _
  · split at ran
    · exact settled_isOf ran
    · exact settled_isOf ran
    · split at ran
      · cases ran
        exact own _
      · split at ran
        · exact settled_isOf ran
        · cases ran
          trivial

theorem conclude_isOf {searched : SearchResult} {reached : Progress} (own : reached.IsOf object)
    (ran : conclude findings searched object reached = .ok outcome) :
    Outcome.IsOf outcome object := by
  cases reached with
  | settled outcome =>
    cases ran
    exact own
  | searching head target => exact settle_isOf ran

variable {σ : Type} {respond : Responder σ} {state after : σ}

theorem opening_isOf {opening : Opening}
    (opened : resolver.opening.runWith respond state = (.ok opening, after)) :
    opening.progress.map Prod.fst = resolver.objects ∧
      ∀ entry ∈ opening.progress, entry.2.IsOf entry.1 := by
  rcases opening_ok opened with ⟨incoming, progressed⟩
  refine ⟨progressAll_objects progressed, ?_⟩
  intro entry mem
  rcases mem_progressAll progressed mem with ⟨index, ran⟩
  exact progress_isOf ran

theorem resolve_isOf {result : Resolutions}
    (ran : resolver.resolve.runWith respond state = (.ok result, after)) :
    result.objects = resolver.objects ∧
      ∀ entry ∈ result.outcomes, Outcome.IsOf entry.2 entry.1 := by
  rw [resolve_eq] at ran
  rcases Enquiry.runWith_bind_ok ran with ⟨opening, _, opened, ran⟩
  rcases Enquiry.runWith_bind_ok ran with ⟨searched, _, _, ran⟩
  rcases opening_isOf opened with ⟨objects, own⟩
  rw [Enquiry.runWith_ofExcept] at ran
  cases closed : opening.outcomes searched with
  | error error => simp [closed, Except.map] at ran
  | ok outcomes =>
    rw [closed] at ran
    cases ran
    constructor
    · rw [← objects]
      exact map_mapM closed fun _ _ labelled => (labelled_ok labelled).1
    · intro entry mem
      rcases (mem_mapM closed).mp mem with ⟨before, listed, labelled⟩
      rcases labelled_ok labelled with ⟨named, concluded⟩
      rw [named]
      exact conclude_isOf (own before listed) concluded

variable {user : Option User} {batch : List Address} {config : ResolverConfig}

theorem resolve_covers (some_address : batch ≠ []) (ceiling : 1 ≤ config.maxSearchCount) :
    ∃ resolver, make user batch config = .ok resolver ∧
      (∀ (σ : Type) (respond : Responder σ) (state : σ) (result : Resolutions),
        (resolver.resolve.runWith respond state).1 = .ok result → result.Covers batch) ∧
      (∀ store : Store, store.Reachable →
        ∃ result, resolver.resolve.run store = .ok result ∧ result.Covers batch ∧
          ∀ exchange ∈ resolver.resolve.transcript Store.still store, exchange.Answered) := by
  have valid : config.validate = .ok () := by
    have enough : ¬ config.maxSearchCount < 1 := by omega
    simp [ResolverConfig.validate, enough]
  have made : make user batch config = .ok { user, objects := batch.eraseDups, config } :=
    make_eq_ok_iff.mpr ⟨some_address, valid, rfl⟩
  have any : ∀ (σ : Type) (respond : Responder σ) (state : σ) (result : Resolutions),
      ((Resolver.mk user batch.eraseDups config).resolve.runWith respond state).1 = .ok result →
        result.Covers batch := by
    intro σ respond state result ran
    have own := resolve_isOf (Prod.ext ran rfl)
    exact Resolutions.covers own.1 own.2
  refine ⟨_, made, any, ?_⟩
  intro store reachable
  rcases resolve_ok reachable.consistent made with ⟨searched, _, ran⟩
  have still := congrArg Prod.fst (Enquiry.runWith_still
    (Resolver.mk user batch.eraseDups config).resolve store)
  rw [ran] at still
  exact ⟨_, ran, any _ _ _ _ still, (resolve_halts _).answered still⟩

theorem sample_resolve_covers :
    ∃ resolver result, Store.sample.Reachable ∧
      make (some Store.Sample.alice)
        [Store.Sample.wanted .direct, Store.Sample.walk, Store.Sample.wanted .direct] {} =
          .ok resolver ∧
      resolver.resolve.run Store.sample = .ok result ∧
      result.objects = [Store.Sample.wanted .direct, Store.Sample.walk] ∧
      result.resolution? Store.Sample.walk = some Store.Sample.walked ∧
      result.failure? Store.Sample.walk = none := by
  rcases @resolve_covers (some Store.Sample.alice)
    [Store.Sample.wanted .direct, Store.Sample.walk, Store.Sample.wanted .direct] {}
    (by decide) (by decide) with ⟨resolver, made, _, total⟩
  rcases total Store.sample Store.reachable_sample with ⟨result, ran, covers, _⟩
  refine ⟨resolver, result, Store.reachable_sample, made, ran, ?_, ?_⟩
  · rw [covers.objects]
    decide
  · have told : result.outcome? Store.Sample.walk = some (.ok Store.Sample.walked) := by
      rcases resolve_ok Store.reachable_sample.consistent made with ⟨searched, _, ran'⟩
      rw [Except.ok.inj (ran.symm.trans ran')]
      rfl
    constructor
    · simp [Resolutions.resolution?, told]
    · simp [Resolutions.failure?, told]

end Resolver

end ObjectSpace
