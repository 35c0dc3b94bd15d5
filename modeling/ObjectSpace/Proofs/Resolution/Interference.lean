import ObjectSpace.Proofs.Resolution.Calls
import ObjectSpace.Proofs.Resolution.Ends
import ObjectSpace.Proofs.Store.Regranting

set_option autoImplicit false

namespace ObjectSpace

namespace Store

def amid : Responder (Store × List (List Update)) := fun query state =>
  let store := (state.2.headD []).foldl update state.1
  (store.answer query, store, state.2.tail)

structure Since (store : Store) (state : Store × List (List Update)) : Prop where
  regranted : store.Regranted state.1
  reachable : state.1.Reachable
  grants : ∀ early ∈ state.2, ∀ update ∈ early, update.isGrant = true

variable {store : Store} {state : Store × List (List Update)}

theorem Since.next (query : Query) (state : Store × List (List Update))
    (since : store.Since state) : store.Since (amid query state).2 := by
  obtain ⟨held, changes⟩ := state
  cases changes with
  | nil => exact ⟨since.regranted, since.reachable, since.grants⟩
  | cons first rest =>
    have grants := since.grants first List.mem_cons_self
    exact ⟨since.regranted.trans (.foldl grants held), since.reachable.foldl first,
      fun early mem => since.grants early (List.mem_cons_of_mem _ mem)⟩

variable {ε α : Type} {enquiry : Enquiry ε α} {exchange : Exchange (Store × List (List Update))}

theorem Since.told (since : store.Since state) (mem : exchange ∈ enquiry.transcript amid state) :
    store.Regranted exchange.state.1 ∧ exchange.state.1.Reachable ∧
      exchange.reply = exchange.state.1.answer exchange.query := by
  rcases Enquiry.mem_transcript Since.next since mem with ⟨before, earlier, answered⟩
  have now := Since.next exchange.query before earlier
  rw [answered] at now
  refine ⟨now.regranted, now.reachable, ?_⟩
  have reply : (amid exchange.query before).1 = exchange.reply := congrArg Prod.fst answered
  have after : (amid exchange.query before).2 = exchange.state := congrArg Prod.snd answered
  rw [← reply, ← after]
  rfl

theorem amid_quiet {count : Nat} (quiet : ∀ early ∈ state.2.take count, early = [])
    (mem : exchange ∈ (enquiry.transcript amid state).take count) :
    exchange.state.1 = state.1 := by
  induction enquiry generalizing state count with
  | done => simp [Enquiry.transcript] at mem
  | fail => simp [Enquiry.transcript] at mem
  | ask query rest ih =>
    obtain ⟨held, changes⟩ := state
    cases count with
    | zero => simp at mem
    | succ count =>
      have still : (changes.headD []).foldl update held = held := by
        cases changes with
        | nil => rfl
        | cons first later =>
          have nothing := quiet first (by simp)
          simp [nothing]
      have onward : ∀ early ∈ changes.tail.take count, early = [] := by
        intro early listed
        cases changes with
        | nil => simp at listed
        | cons first later => exact quiet early (by simpa using .inr listed)
      simp only [Enquiry.transcript, List.take_succ_cons, List.mem_cons] at mem
      rcases mem with rfl | later
      · exact still
      · exact (ih _ onward later).trans still

end Store

theorem LevelCalls.ungranted {calls : List QueryKind} (levels : LevelCalls calls) {kind : QueryKind}
    (asked : kind ∈ calls) : kind ≠ .permissions ∧ kind ≠ .allPermissions := by
  induction levels with
  | done => cases asked
  | level states onward ih =>
    rcases List.mem_cons.mp asked with rfl | later
    · exact ⟨nofun, nofun⟩
    · rcases List.mem_append.mp later with fetched | rest
      · obtain rfl : kind = .objectStates := by simpa using states.mem fetched
        exact ⟨nofun, nofun⟩
      · exact ih rest

section Calls

variable {asAdmin : Bool} {first : QueryKind} {rest calls : List QueryKind}

theorem SearchCalls.no_permissions (search : SearchCalls asAdmin calls) :
    .permissions ∉ calls := by
  rcases search with ⟨readable, levels, rfl, once, further⟩
  intro asked
  rcases List.mem_append.mp asked with early | late
  · have listed := once.mem early
    cases asAdmin <;> simp at listed
  · exact (further.ungranted late).1 rfl

theorem SearchCalls.later (search : SearchCalls asAdmin (first :: rest)) :
    .allPermissions ∉ rest := by
  rcases search with ⟨readable, levels, split, once, further⟩
  have single : readable.Sublist [.allPermissions] := by
    cases asAdmin
    · exact once
    · exact once.trans (List.nil_sublist _)
  have within : ∀ kind ∈ rest, kind ∈ levels := by
    intro kind mem
    cases readable with
    | nil =>
      have same : first :: rest = levels := split
      rw [← same]
      exact List.mem_cons_of_mem _ mem
    | cons only others =>
      have alone : others = [] := by
        have short := single.length_le
        simpa using short
      subst alone
      rw [(List.cons.inj split).2] at mem
      exact mem
  intro asked
  exact (further.ungranted (within _ asked)).2 rfl

theorem SearchCalls.once {σ : Type} {exchanges : List (Exchange σ)} {one two : Exchange σ}
    (search : SearchCalls asAdmin (Exchange.kinds exchanges)) (mem : one ∈ exchanges)
    (listed : two ∈ exchanges) (asked : one.kind = .allPermissions)
    (again : two.kind = .allPermissions) : one = two := by
  cases exchanges with
  | nil => cases mem
  | cons first rest =>
    have only_first : ∀ exchange ∈ first :: rest, exchange.kind = .allPermissions →
        exchange = first := by
      intro exchange here kind
      rcases List.mem_cons.mp here with rfl | later
      · rfl
      · exact absurd (kind ▸ List.mem_map_of_mem later) search.later
    rw [only_first one mem asked, only_first two listed again]

theorem OpeningCalls.no_allPermissions (opening : OpeningCalls asAdmin calls) :
    .allPermissions ∉ calls := by
  rcases opening with ⟨further, rfl, within⟩
  intro asked
  rcases List.mem_cons.mp asked with other | later
  · cases other
  · have listed := within.mem later
    cases asAdmin <;> simp at listed

theorem OpeningCalls.permissions_early {σ : Type} {exchanges : List (Exchange σ)}
    {exchange : Exchange σ} (opening : OpeningCalls asAdmin (Exchange.kinds exchanges))
    (mem : exchange ∈ exchanges) (asked : exchange.kind = .permissions) :
    asAdmin = false ∧ exchange ∈ exchanges.take 2 := by
  rcases opening with ⟨further, split, within⟩
  have late : ∀ others : List (Exchange σ), exchange ∈ others →
      ¬ (Exchange.kinds others).Sublist
        [.objectReferences, .objectStates, .incomingReferences] := by
    intro others listed only
    have kind := only.mem (List.mem_map_of_mem listed)
    simp [asked] at kind
  cases exchanges with
  | nil => cases mem
  | cons one rest =>
    obtain ⟨named, rfl⟩ := List.cons.inj split
    rcases List.mem_cons.mp mem with rfl | later
    · rw [asked] at named
      cases named
    · cases asAdmin with
      | true => exact absurd within (late rest later)
      | false =>
        cases rest with
        | nil => cases later
        | cons two rest =>
          rcases List.mem_cons.mp later with rfl | beyond
          · exact ⟨rfl, by simp⟩
          · have tail : (Exchange.kinds rest).Sublist
                [.objectReferences, .objectStates, .incomingReferences] := within.tail
            exact absurd tail (late rest beyond)

end Calls

namespace Resolver

variable {store : Store} {resolver : Resolver} {changes : List (List Update)}

theorem opening_amid (since : store.Since (store, changes))
    (quiet : resolver.config.asAdmin = false → ∀ early ∈ changes.take 2, early = []) :
    (resolver.opening.runWith Store.amid (store, changes)).1 = resolver.opening.run store := by
  apply Enquiry.runWith_eq_run
  intro exchange mem
  have calls := resolver.opening_asks _ Store.amid (store, changes)
  rcases since.told mem with ⟨regranted, _, told⟩
  rw [told]
  by_cases asked : exchange.kind = .permissions
  · rcases calls.permissions_early mem asked with ⟨unprivileged, early⟩
    rw [Store.amid_quiet (quiet unprivileged) early]
  · apply regranted.answer_eq ⟨asked, ?_⟩
    intro other
    exact calls.no_allPermissions (other ▸ List.mem_map_of_mem mem)

variable {state : Store × List (List Update)} {held : Store}

theorem search_amid_eq (since : store.Since state) (same : store.Regranted held)
    (resolver : Resolver) (targets : List Reference)
    (told_held : ∀ exchange ∈ (resolver.search targets).transcript Store.amid state,
      exchange.kind = .allPermissions → exchange.state.1 = held) :
    ((resolver.search targets).runWith Store.amid state).1 =
      (resolver.search targets).run held := by
  apply Enquiry.runWith_eq_run
  intro exchange mem
  have calls := resolver.search_asks targets _ Store.amid state
  rcases since.told mem with ⟨regranted, _, told⟩
  rw [told]
  by_cases asked : exchange.kind = .allPermissions
  · rw [told_held exchange mem asked]
  · have unasked : exchange.kind ≠ .permissions := by
      intro other
      exact calls.no_permissions (other ▸ List.mem_map_of_mem mem)
    rw [regranted.answer_eq ⟨unasked, asked⟩, same.answer_eq ⟨unasked, asked⟩]

-- A search goes by the store that told the caller's workspaces.
theorem search_amid (since : store.Since state) (reachable : store.Reachable)
    (resolver : Resolver) (targets : List Reference) :
    ∃ held, store.Regranted held ∧ held.Reachable ∧
      ((resolver.search targets).runWith Store.amid state).1 =
        (resolver.search targets).run held ∧
      (held = store ∨ ∃ exchange ∈ (resolver.search targets).transcript Store.amid state,
        exchange.kind = .allPermissions ∧ exchange.state.1 = held) := by
  by_cases asked : ∃ exchange ∈ (resolver.search targets).transcript Store.amid state,
      exchange.kind = .allPermissions
  · rcases asked with ⟨exchange, mem, asked⟩
    rcases since.told mem with ⟨regranted, led_to, _⟩
    have told := search_amid_eq since regranted resolver targets fun other listed again =>
      congrArg (fun exchange => exchange.state.1)
        ((resolver.search_asks targets _ Store.amid state).once listed mem again asked)
    exact ⟨exchange.state.1, regranted, led_to, told, .inr ⟨exchange, mem, asked, rfl⟩⟩
  · have told := search_amid_eq since (.refl store) resolver targets fun exchange mem kind =>
      absurd ⟨exchange, mem, kind⟩ asked
    exact ⟨store, .refl store, reachable, told, .inl rfl⟩

end Resolver

namespace Store

def Holding (store : Store) (user : Option User) (workspace : Nat) : Prop :=
  ∃ record, store.workspaces.get? workspace = some record ∧ record.deleted = false ∧
    .read ≤ record.userPermission user

def SameHoldings (user : Option User) (before after : Store) : Prop :=
  ∀ workspace, before.Holding user workspace ↔ after.Holding user workspace

theorem outcomeOf_unsearched {store : Store} {caller : Caller} {address : Address}
    (unsearched : store.searchTarget? caller address = none) (one two : SearchResult)
    (index : Nat) :
    store.outcomeOf caller one index address = store.outcomeOf caller two index address := by
  cases lookup : address.isLookup with
  | false => simp [outcomeOf, lookup]
  | true =>
    simp only [outcomeOf, outcomeFound, lookup, if_true]
    cases located : store.locate? address with
    | none => rfl
    | some target =>
      cases opened : store.opens caller target.reference with
      | true => simp [opened]
      | false => simp [searchTarget?, lookup, located, opened] at unsearched

end Store

namespace Search

variable {ε : Type} [OfStoreError ε] {readable other : ReadableWorkspaces}

theorem levels_congr (same : readable.contains = other.contains) (limit fuel count : Nat)
    (trees : List SearchTree) (result : SearchResult) :
    (levels readable limit fuel count trees result : Enquiry ε SearchResult) =
      levels other limit fuel count trees result := by
  have terminal : isTerminal readable = isTerminal other := by
    funext states reference
    simp only [isTerminal, same]
  induction fuel generalizing count trees result with
  | zero => rfl
  | succ fuel ih => simp only [levels, terminal, same, ih]

theorem run_congr (same : readable.contains = other.contains) (limit : Nat)
    (targets : List Reference) :
    (Search.run readable limit targets : Enquiry ε SearchResult) =
      Search.run other limit targets := by
  simp only [Search.run, levels_congr same, ReadableWorkspaces.isEmpty_congr same]

theorem run_regranted {store held : Store} (regranted : store.Regranted held)
    (readable : ReadableWorkspaces) (limit : Nat) (targets : List Reference) :
    (Search.run readable limit targets : Enquiry ε SearchResult).run held =
      (Search.run readable limit targets).run store := by
  have ran := congrArg Prod.fst
    (Enquiry.runWith_still (Search.run readable limit targets : Enquiry ε SearchResult) held)
  refine ran.symm.trans (Enquiry.runWith_eq_run store _ held ?_)
  intro exchange mem
  rcases Enquiry.mem_transcript (I := (· = held)) (fun _ _ same => same) rfl mem with
    ⟨_, rfl, answered⟩
  have reply : exchange.reply = _ := (congrArg Prod.fst answered).symm
  rw [reply]
  exact regranted.answer_eq ((Search.run_asks readable limit targets _ Store.still _).ungranted
    (List.mem_map_of_mem mem))

end Search

namespace Resolver

variable {store held : Store} {changes : List (List Update)}

theorem search_ok (consistent : store.Consistent) (resolver : Resolver)
    (targets : List Reference) :
    ∃ searched, (resolver.search targets).run store = .ok searched ∧ PathsEnd searched := by
  rw [search]
  split
  · refine ⟨_, rfl, ?_⟩
    intro target path found
    cases found
  · rcases run_readableWorkspaces consistent resolver with ⟨readable, found, _⟩
    rw [Enquiry.run_bind_ok found]
    exact Search.run_ends _ _ _ _

theorem search_sameHoldings (consistent : store.Consistent) (still : held.Consistent)
    (regranted : store.Regranted held) (resolver : Resolver)
    (same : store.SameHoldings resolver.user held) (targets : List Reference) :
    (resolver.search targets).run held = (resolver.search targets).run store := by
  rw [search]
  split
  · rfl
  · rcases run_readableWorkspaces consistent resolver with ⟨readable, found, holds⟩
    rcases run_readableWorkspaces still resolver with ⟨later, found_later, holds_later⟩
    have contains : later.contains = readable.contains := by
      funext workspace
      rw [Bool.eq_iff_iff, holds workspace, holds_later workspace]
      exact or_congr_right (same workspace).symm
    rw [Enquiry.run_bind_ok found, Enquiry.run_bind_ok found_later, Search.run_congr contains,
      Search.run_regranted regranted]

theorem resolve_amid (since : store.Since (store, changes)) (resolver : Resolver)
    (quiet : resolver.config.asAdmin = false → ∀ early ∈ changes.take 2, early = []) :
    ∃ held searched, store.Regranted held ∧ held.Reachable ∧
      (resolver.search (resolver.sought store)).run held = .ok searched ∧
      (resolver.resolve.runWith Store.amid (store, changes)).1 =
        .ok (resolver.outcomesOf store searched) ∧
      (held = store ∨ ∃ exchange ∈ resolver.resolve.transcript Store.amid (store, changes),
        exchange.kind = .allPermissions ∧ exchange.state.1 = held) := by
  have consistent := since.reachable.consistent
  rcases run_opening consistent resolver with ⟨snapshot, reflects, opened⟩
  have after := Enquiry.runWith_invariant Store.Since.next resolver.opening since
  have told := opening_amid since quiet
  cases ran : resolver.opening.runWith Store.amid (store, changes) with
  | mk outcome between =>
    rw [ran] at after told
    obtain rfl := told.trans opened
    rcases search_amid after since.reachable resolver (resolver.sought store) with
      ⟨held, regranted, reachable, searched, source⟩
    rcases search_ok reachable.consistent resolver (resolver.sought store) with
      ⟨result, found, ends⟩
    refine ⟨held, result, regranted, reachable, found, ?_, ?_⟩
    · rw [resolve_eq, Enquiry.runWith_bind, ran]
      dsimp only
      rw [targets_progressOf, Enquiry.runWith_bind]
      cases went : (resolver.search (resolver.sought store)).runWith Store.amid between with
      | mk outcome last =>
        rw [went] at searched
        obtain rfl := searched.trans found
        simp only [Enquiry.runWith_ofExcept, outcomes_eq consistent reflects ends]
    · rw [resolve_transcript, searching_eq ran, targets_progressOf]
      rcases source with same | ⟨exchange, mem, asked, now⟩
      · exact .inl same
      · exact .inr ⟨exchange, List.mem_append_right _ mem, asked, now⟩

variable {user : Option User} {batch : List Address} {config : ResolverConfig}
variable {resolver : Resolver}

theorem resolve_postponed (reachable : store.Reachable)
    (made : make user batch config = .ok resolver)
    (grants : ∀ early ∈ changes, ∀ update ∈ early, update.isGrant = true)
    (quiet : config.asAdmin = false → ∀ early ∈ changes.take 2, early = []) :
    ∃ result postponed,
      (resolver.resolve.runWith Store.amid (store, changes)).1 = .ok result ∧
      resolver.resolve.run store = .ok postponed ∧
      (∀ address ∈ batch, store.searchTarget? ⟨user, config.asAdmin⟩ address = none →
        result.outcome? address = postponed.outcome? address) ∧
      ((∀ exchange ∈ resolver.resolve.transcript Store.amid (store, changes),
        exchange.kind = .allPermissions → store.SameHoldings user exchange.state.1) →
          result = postponed) := by
  obtain rfl := make_eq_ok made
  have consistent := reachable.consistent
  rcases resolve_amid ⟨.refl store, reachable, grants⟩ (Resolver.mk user batch.eraseDups config)
    quiet with ⟨held, searched, regranted, held_reachable, found, ran, source⟩
  rcases search_ok consistent (Resolver.mk user batch.eraseDups config) _ with
    ⟨postponed, found_then, ends⟩
  refine ⟨_, _, ran, run_resolve consistent _ found_then ends, ?_, ?_⟩
  · intro address mem unsearched
    have listed : address ∈ batch.eraseDups := List.mem_eraseDups.mpr mem
    rw [outcomesOf, outcomesOf, outcome?_eq listed (Store.outcomeOf store _ _),
      outcome?_eq listed (Store.outcomeOf store _ _)]
    exact congrArg some (Store.outcomeOf_unsearched unsearched _ _ _)
  · intro unchanged
    have same : store.SameHoldings user held := by
      rcases source with rfl | ⟨exchange, mem, asked, rfl⟩
      · exact fun _ => Iff.rfl
      · exact unchanged exchange mem asked
    have search := search_sameHoldings consistent held_reachable.consistent regranted
      (Resolver.mk user batch.eraseDups config) same
    rw [search] at found
    rw [Except.ok.inj (found.symm.trans found_then)]

def Sample.dismissal : List (List Update) := [[], [], [.setPermission 1 Store.Sample.alice .none]]

theorem sample_resolve_postponed :
    ∃ resolver result, Store.sample.Reachable ∧
      make (some Store.Sample.alice) [Store.Sample.walk, Store.Sample.wanted .lookup] {} =
        .ok resolver ∧
      (∀ early ∈ Sample.dismissal, ∀ update ∈ early, update.isGrant = true) ∧
      (∀ early ∈ Sample.dismissal.take 2, early = []) ∧
      (resolver.resolve.runWith Store.amid (Store.sample, Sample.dismissal)).1 = .ok result ∧
      result.outcome? Store.Sample.walk = some (.ok Store.Sample.walked) := by
  have made : make (some Store.Sample.alice)
      [Store.Sample.walk, Store.Sample.wanted .lookup] {} = .ok _ := rfl
  have grants : ∀ early ∈ Sample.dismissal, ∀ update ∈ early, update.isGrant = true := by decide
  have quiet : ∀ early ∈ Sample.dismissal.take 2, early = [] := by decide
  rcases resolve_postponed Store.reachable_sample made grants fun _ => quiet with
    ⟨result, postponed, ran, ran_then, unsearched, _⟩
  refine ⟨_, result, Store.reachable_sample, made, grants, quiet, ran, ?_⟩
  rw [unsearched Store.Sample.walk List.mem_cons_self (by decide)]
  rcases resolve_ok Store.reachable_sample.consistent made with ⟨searched, _, ran_alone⟩
  rw [Except.ok.inj (ran_then.symm.trans ran_alone)]
  rfl

-- The search no longer ends at alice's root.
theorem sample_lookup_not_postponed :
    Store.sample.Reachable ∧
      make (some Store.Sample.alice) [Store.Sample.wanted .lookup] {} = .ok Sample.seeker ∧
      (∀ early ∈ Sample.dismissal, ∀ update ∈ early, update.isGrant = true) ∧
      (∀ early ∈ Sample.dismissal.take 2, early = []) ∧
      ((Sample.seeker.resolve.runWith Store.amid (Store.sample, Sample.dismissal)).1.map
          fun result => result.failure? (Store.Sample.wanted .lookup)) =
        .ok (some ⟨Store.Sample.wanted .lookup, .inaccessible (some Store.Sample.alice)⟩) ∧
      ((Sample.seeker.resolve.run Store.sample).map
          fun result => result.resolution? (Store.Sample.wanted .lookup)) =
        .ok (some Store.Sample.walked) := by
  refine ⟨Store.reachable_sample, rfl, by decide, by decide, ?_, ?_⟩
  · decide +kernel
  · decide +kernel

end Resolver

end ObjectSpace
