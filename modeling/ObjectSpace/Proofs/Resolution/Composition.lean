import ObjectSpace.Proofs.Resolution.Comparison

set_option autoImplicit false

namespace ObjectSpace

-- Of the whole batch a cause tells nothing but the place of a path.
def FailureCause.unplaced : FailureCause → FailureCause
  | .brokenPath _ position holder missing => .brokenPath 0 position holder missing
  | cause => cause

def Failure.unplaced (failure : Failure) : Failure :=
  { failure with cause := failure.cause.unplaced }

def Outcome.unplaced (outcome : Outcome) : Outcome := outcome.mapError Failure.unplaced

theorem mapError_map {α β ε δ : Type} (result : Except ε α) (change : α → β) (rename : ε → δ) :
    (result.map change).mapError rename = (result.mapError rename).map change := by
  cases result <;> rfl

namespace Store

variable {store : Store} {caller : Caller}

theorem walkAlone_unplaced (index other position : Nat) (holder : Address) (previous : Located)
    (hops : List Address) :
    (store.walkAlone caller index position holder previous hops).mapError FailureCause.unplaced =
      (store.walkAlone caller other position holder previous hops).mapError
        FailureCause.unplaced := by
  induction hops generalizing position holder previous with
  | nil => rfl
  | cons hop rest ih =>
    simp only [walkAlone]
    cases (store.locate? hop).filter (store.accepts caller previous.reference) with
    | none => rfl
    | some next => rw [mapError_map, mapError_map, ih]

theorem outcomeAlone_unplaced (index other : Nat) (address : Address) :
    (store.outcomeAlone caller index address).unplaced =
      (store.outcomeAlone caller other address).unplaced := by
  simp only [outcomeAlone]
  cases store.headAlone caller address with
  | error cause => rfl
  | ok head =>
    have walks := @walkAlone_unplaced store caller index other 1 address head address.hops
    dsimp only
    generalize store.walkAlone caller index 1 address head address.hops = walk at walks ⊢
    generalize store.walkAlone caller other 1 address head address.hops = walk' at walks ⊢
    cases walk with
    | ok walked =>
      cases walk' with
      | ok walked' =>
        obtain rfl : walked = walked' := Except.ok.inj walks
        rfl
      | error cause => cases walks
    | error cause =>
      cases walk' with
      | ok walked => cases walks
      | error cause' =>
        have same : cause.unplaced = cause'.unplaced := Except.error.inj walks
        exact congrArg (fun cause => Except.error (Failure.mk address cause)) same

variable {batch part : List Address} {limit : Nat} {searched searched' : SearchResult}

theorem lookupTargets_mono (inside : ∀ address ∈ part, address ∈ batch) :
    store.lookupTargets caller part ⊆ store.lookupTargets caller batch := by
  intro target given
  obtain ⟨address, mem, wanted⟩ := given
  exact ⟨address, inside address mem, wanted⟩

theorem outcomeOf_part (inside : ∀ address ∈ part, address ∈ batch)
    (finished : Search.Finished store caller (store.lookupTargets caller part) limit searched)
    (finished' : Search.Finished store caller (store.lookupTargets caller batch) limit searched')
    {address : Address} (mem : address ∈ part) (index other : Nat)
    (told : store.outcomeOf caller searched' other address ≠
      .error { object := address, cause := .searchLimitExceeded }) :
    (store.outcomeOf caller searched index address).unplaced =
      (store.outcomeOf caller searched' other address).unplaced := by
  cases lookup : address.isLookup with
  | false =>
    simp only [outcomeOf, lookup, Bool.false_eq_true, if_false]
    exact outcomeAlone_unplaced index other address
  | true =>
    simp only [outcomeOf, lookup, if_true] at told ⊢
    cases found : store.locate? address with
    | none => simp [outcomeFound, found]
    | some named =>
      have listed : store.opens caller named.reference = false →
          named.reference ∈ store.lookupTargets caller part := by
        intro shut
        exact ⟨address, mem, by simp [searchTarget?, lookup, found, shut]⟩
      rw [outcomeFound_agrees finished finished'
        (Search.within_of_subset (lookupTargets_mono inside)) id found found rfl rfl listed
        (fun _ => Iff.rfl) told]

theorem outcomeOf_relisted (inside : ∀ address ∈ part, address ∈ batch)
    (all : ∀ address ∈ batch, address ∈ part)
    (finished : Search.Finished store caller (store.lookupTargets caller part) limit searched)
    (finished' : Search.Finished store caller (store.lookupTargets caller batch) limit searched')
    {address : Address} (mem : address ∈ part) (index other : Nat) :
    (store.outcomeOf caller searched index address).unplaced =
      (store.outcomeOf caller searched' other address).unplaced := by
  by_cases told' : store.outcomeOf caller searched' other address =
      .error { object := address, cause := .searchLimitExceeded }
  · by_cases told : store.outcomeOf caller searched index address =
        .error { object := address, cause := .searchLimitExceeded }
    · rw [told, told']
    · exact (outcomeOf_part all finished' finished (inside address mem) other index told).symm
  · exact outcomeOf_part inside finished finished' mem index other told'

namespace Sample

def stray : Address := naming "top" "root" (.path [wanted .direct])

def astray (index : Nat) : Failure where
  object := stray
  cause := .brokenPath index 1 stray (wanted .direct)

end Sample

end Store

namespace Resolver

variable {store : Store} {user : Option User} {batch : List Address} {config : ResolverConfig}
variable {resolver : Resolver}

theorem part_outcomes (reachable : store.Reachable)
    (made : make user batch config = .ok resolver) :
    ∃ result, resolver.resolve.run store = .ok result ∧
      ∀ part, part ≠ [] → (∀ address ∈ part, address ∈ batch) →
        ∃ smaller result', make user part config = .ok smaller ∧
          smaller.resolve.run store = .ok result' ∧
          ∀ address ∈ part, ∃ outcome outcome', result.outcome? address = some outcome ∧
            result'.outcome? address = some outcome' ∧
            (outcome ≠ .error { object := address, cause := .searchLimitExceeded } ∨
              (∀ other ∈ batch, other ∈ part) →
                Outcome.unplaced outcome' = Outcome.unplaced outcome) := by
  obtain ⟨searched, finished, ran⟩ := resolve_ok reachable.consistent made
  refine ⟨_, ran, ?_⟩
  intro part some_address inside
  have valid := (make_eq_ok_iff.mp made).2.1
  have made' : make user part config = .ok { user, objects := part.eraseDups, config } :=
    make_eq_ok_iff.mpr ⟨some_address, valid, rfl⟩
  obtain ⟨searched', finished', ran'⟩ := resolve_ok reachable.consistent made'
  refine ⟨_, _, made', ran', ?_⟩
  intro address mem
  have listed : address ∈ batch.eraseDups := List.mem_eraseDups.mpr (inside address mem)
  have listed' : address ∈ part.eraseDups := List.mem_eraseDups.mpr mem
  refine ⟨_, _, outcome?_eq listed (store.outcomeOf ⟨user, config.asAdmin⟩ searched),
    outcome?_eq listed' (store.outcomeOf ⟨user, config.asAdmin⟩ searched'), ?_⟩
  intro given
  rcases given with told | all
  · exact Store.outcomeOf_part inside finished' finished mem _ _ told
  · exact Store.outcomeOf_relisted inside all finished' finished mem _ _

theorem sample_part_outcomes :
    ∃ resolver smaller result result', Store.sample.Reachable ∧
      make (some Store.Sample.alice) [Store.Sample.walk, Store.Sample.stray] {} = .ok resolver ∧
      resolver.resolve.run Store.sample = .ok result ∧
      make (some Store.Sample.alice) [Store.Sample.stray] {} = .ok smaller ∧
      smaller.resolve.run Store.sample = .ok result' ∧
      result.outcome? Store.Sample.stray = some (.error (Store.Sample.astray 2)) ∧
      (result'.outcome? Store.Sample.stray).map Outcome.unplaced =
        some (.error (Store.Sample.astray 0)) := by
  have made : make (some Store.Sample.alice) [Store.Sample.walk, Store.Sample.stray] {} =
    .ok _ := rfl
  obtain ⟨result, ran, parts⟩ := part_outcomes Store.reachable_sample made
  have inside : ∀ address ∈ [Store.Sample.stray],
      address ∈ [Store.Sample.walk, Store.Sample.stray] :=
    fun _ mem => List.mem_cons_of_mem _ mem
  obtain ⟨smaller, result', made', ran', same⟩ := parts [Store.Sample.stray] (by simp) inside
  obtain ⟨outcome, outcome', there, there', told⟩ := same Store.Sample.stray List.mem_cons_self
  have known : result.outcome? Store.Sample.stray = some (.error (Store.Sample.astray 2)) := by
    obtain ⟨searched, _, ran''⟩ := resolve_ok Store.reachable_sample.consistent made
    rw [Except.ok.inj (ran.symm.trans ran'')]
    rfl
  obtain rfl := Option.some.inj (there.symm.trans known)
  refine ⟨_, smaller, result, result', Store.reachable_sample, made, ran, made', ran', known, ?_⟩
  rw [there', Option.map_some, told (.inl (by decide))]
  rfl

end Resolver

end ObjectSpace
