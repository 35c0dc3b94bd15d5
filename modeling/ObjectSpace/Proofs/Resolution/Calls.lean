import ObjectSpace.Proofs.Resolution.Outcomes

set_option autoImplicit false

namespace ObjectSpace

inductive LevelCalls : List QueryKind → Prop where
  | done : LevelCalls []
  | level {fetched rest : List QueryKind} (states : fetched.Sublist [.objectStates])
      (onward : LevelCalls rest) : LevelCalls (.incomingReferences :: (fetched ++ rest))

def LevelCalls.Onward (calls : List QueryKind) : Prop :=
  ∃ fetched rest, calls = fetched ++ rest ∧ fetched.Sublist [.objectStates] ∧ LevelCalls rest

def OpeningCalls (asAdmin : Bool) (calls : List QueryKind) : Prop :=
  ∃ further, calls = .resolveWorkspaces :: further ∧
    further.Sublist ((if asAdmin then [] else [.permissions]) ++
      [.objectReferences, .objectStates, .incomingReferences])

def SearchCalls (asAdmin : Bool) (calls : List QueryKind) : Prop :=
  ∃ readable levels, calls = readable ++ levels ∧
    readable.Sublist (if asAdmin then [] else [.allPermissions]) ∧ LevelCalls levels

structure Findings.Seeks (findings : Findings) (address : Address) : Prop where
  lookup : address.isLookup = true
  shut : ∃ workspace reference,
    findings.snapshot.workspaces.get? address.workspace = some workspace ∧
      findings.known? (address.resolveIn workspace) = some reference ∧
      (findings.snapshot.isUserReadable workspace && findings.isLive reference) = false

namespace Search

variable {ε : Type} [OfStoreError ε]

theorem statesOf_asks (references : List Reference) :
    (statesOf references : Enquiry ε _).Asks (·.Sublist [.objectStates]) := by
  rw [statesOf]
  split
  · exact .done _ (List.nil_sublist _)
  · intro σ respond state
    rw [Enquiry.transcript_query]
    exact List.Sublist.refl _

theorem levels_asks (readable : ReadableWorkspaces) (limit fuel count : Nat)
    (trees : List SearchTree) (result : SearchResult) :
    (levels readable limit fuel count trees result : Enquiry ε _).Asks LevelCalls := by
  induction fuel generalizing count trees result with
  | zero => exact .done _ .done
  | succ fuel ih =>
    rw [levels]
    split
    · exact .done _ .done
    · refine (Enquiry.Asks.query _).bind
        (?_ : ∀ incoming, Enquiry.Asks _ LevelCalls.Onward) ?_ ?_
      · intro incoming
        dsimp only
        split
        · exact .done _ ⟨[], [], rfl, List.nil_sublist _, .done⟩
        · refine (statesOf_asks _).bind (fun states => ih _ _ _) ?_ ?_
          · intro fetched states
            exact ⟨fetched, [], by simp, states, .done⟩
          · intro fetched rest states onward
            exact ⟨fetched, rest, rfl, states, onward⟩
      · rintro _ rfl
        exact .level (List.nil_sublist _) .done
      · rintro _ _ rfl ⟨fetched, rest, rfl, states, onward⟩
        exact @LevelCalls.level fetched rest states onward

theorem run_asks (readable : ReadableWorkspaces) (limit : Nat) (targets : List Reference) :
    (Search.run readable limit targets : Enquiry ε _).Asks LevelCalls := by
  simp only [Search.run]
  split
  · exact .done _ .done
  · split
    · exact .done _ .done
    · exact levels_asks _ _ _ _ _ _

end Search

namespace Resolver

variable {resolver : Resolver}

theorem snapshot_asks (resolver : Resolver) :
    resolver.snapshot.Asks fun calls => ∃ further, calls = .resolveWorkspaces :: further ∧
      further.Sublist (if resolver.config.asAdmin then [] else [.permissions]) := by
  refine (Enquiry.Asks.query _).bind (?_ : ∀ workspaces, Enquiry.Asks _
    (·.Sublist (if resolver.config.asAdmin then [] else [.permissions]))) ?_ ?_
  · intro workspaces
    split
    · exact .done _ (List.nil_sublist _)
    · refine (Enquiry.Asks.query _).bind (fun permissions => .done _ rfl) ?_ ?_
      · rintro _ rfl
        exact List.Sublist.refl _
      · rintro _ _ rfl rfl
        exact List.Sublist.refl _
  · rintro _ rfl
    exact ⟨[], rfl, List.nil_sublist _⟩
  · rintro _ further rfl within
    exact ⟨further, rfl, within⟩

theorem referencesOf_asks (addresses : List ResolvedAddress) :
    (referencesOf addresses).Asks (·.Sublist [.objectReferences]) := by
  rw [referencesOf]
  split
  · exact .done _ (List.nil_sublist _)
  · intro σ respond state
    rw [Enquiry.transcript_query]
    exact List.Sublist.refl _

theorem referrersOf_asks (references : List Reference) :
    (referrersOf references).Asks (·.Sublist [.incomingReferences]) := by
  rw [referrersOf]
  split
  · exact .done _ (List.nil_sublist _)
  · intro σ respond state
    rw [Enquiry.transcript_query]
    exact List.Sublist.refl _

theorem opening_asks (resolver : Resolver) :
    resolver.opening.Asks (OpeningCalls resolver.config.asAdmin) := by
  refine resolver.snapshot_asks.bind (?_ : ∀ snapshot, Enquiry.Asks _
    (·.Sublist [.objectReferences, .objectStates, .incomingReferences])) ?_ ?_
  · intro snapshot
    refine (referencesOf_asks _).bind_sublist fun references => ?_
    refine (Search.statesOf_asks _).bind_sublist fun states => ?_
    refine (referrersOf_asks _).bind (?_ : ∀ incoming, Enquiry.Asks _ (· = [])) ?_ ?_
    · intro incoming
      refine (Enquiry.Asks.ofExcept _ rfl : Enquiry.Asks _ (· = [])).bind
        (fun reached => .done _ (rfl : _ = _)) ?_ ?_
      · exact fun _ empty => empty
      · rintro _ _ rfl rfl
        rfl
    · exact fun _ within => within
    · rintro _ _ within rfl
      rwa [List.append_nil]
  · rintro _ ⟨further, rfl, within⟩
    exact ⟨further, rfl, within.trans (List.sublist_append_left _ _)⟩
  · rintro _ later ⟨further, rfl, within⟩ beyond
    exact ⟨further ++ later, rfl, within.append beyond⟩

theorem readableWorkspaces_asks (resolver : Resolver) :
    resolver.readableWorkspaces.Asks
      (·.Sublist (if resolver.config.asAdmin then [] else [.allPermissions])) := by
  rw [readableWorkspaces]
  split
  · exact .done _ (List.nil_sublist _)
  · refine (Enquiry.Asks.query _).bind (fun set => .done _ rfl) ?_ ?_
    · rintro _ rfl
      exact List.Sublist.refl _
    · rintro _ _ rfl rfl
      exact List.Sublist.refl _

theorem search_asks (resolver : Resolver) (targets : List Reference) :
    (resolver.search targets).Asks (SearchCalls resolver.config.asAdmin) := by
  rw [search]
  split
  · exact .done _ ⟨[], [], rfl, List.nil_sublist _, .done⟩
  · refine resolver.readableWorkspaces_asks.bind (fun readable => Search.run_asks _ _ _) ?_ ?_
    · intro asked within
      exact ⟨asked, [], by simp, within, .done⟩
    · intro asked levels within further
      exact ⟨asked, levels, rfl, within, further⟩

theorem settled_ne_searching {found : Except ResolveError Outcome} {head : ResolvedAddress}
    {target : Reference} : found.map Progress.settled ≠ .ok (.searching head target) := by
  cases found <;> simp [Except.map]

theorem progress_seeks {findings : Findings} {incoming : Table Reference (List Reference)}
    {object : Address} {index : Nat} {head : ResolvedAddress} {target : Reference}
    (ran : progress findings incoming object index = .ok (.searching head target)) :
    findings.Seeks object := by
  simp only [progress] at ran
  split at ran
  · cases ran
  next head entered =>
    split at ran
    · exact absurd ran settled_ne_searching
    · exact absurd ran settled_ne_searching
    next located =>
      split at ran
      · cases ran
      next reference known =>
        split at ran
        · exact absurd ran settled_ne_searching
        next hidden =>
          have lookup : object.isLookup = true := by simp [Address.isLookup, located]
          simp only [Snapshot.head, lookup, if_true] at entered
          split at entered
          · cases entered
          next workspace named =>
            cases entered
            exact ⟨lookup, workspace, reference, named, known, Bool.eq_false_iff.mpr hidden⟩

section Searching

variable {σ : Type} {respond : Responder σ} {state after : σ} {opening : Opening}

def searching (resolver : Resolver) (respond : Responder σ) (state : σ) : List (Exchange σ) :=
  match resolver.opening.runWith respond state with
  | (.ok opening, after) =>
    (resolver.search (targets opening.progress)).transcript respond after
  | (.error _, _) => []

theorem searching_eq (opened : resolver.opening.runWith respond state = (.ok opening, after)) :
    resolver.searching respond state =
      (resolver.search (targets opening.progress)).transcript respond after := by
  rw [searching, opened]

theorem resolve_transcript (resolver : Resolver) (respond : Responder σ) (state : σ) :
    resolver.resolve.transcript respond state =
      resolver.opening.transcript respond state ++ resolver.searching respond state := by
  rw [resolve_eq, Enquiry.transcript_bind, searching]
  cases resolver.opening.runWith respond state with
  | mk outcome after =>
    cases outcome with
    | error error => rfl
    | ok opening =>
      dsimp only
      rw [Enquiry.transcript_bind]
      cases (resolver.search (targets opening.progress)).runWith respond after with
      | mk outcome last =>
        cases outcome with
        | error error => simp
        | ok searched => simp [Enquiry.transcript_ofExcept]

theorem searching_asks (resolver : Resolver) (respond : Responder σ) (state : σ) :
    SearchCalls resolver.config.asAdmin (Exchange.kinds (resolver.searching respond state)) := by
  rw [searching]
  split
  · exact resolver.search_asks _ _ _ _
  · exact ⟨[], [], rfl, List.nil_sublist _, .done⟩

theorem searching_seeks (some_call : resolver.searching respond state ≠ []) :
    ∃ opening after, resolver.opening.runWith respond state = (.ok opening, after) ∧
      ∃ object ∈ resolver.objects, opening.findings.Seeks object := by
  rw [searching] at some_call
  split at some_call
  next opening after opened =>
    have wanted : targets opening.progress ≠ [] := by
      intro nothing
      simp [nothing, search, Enquiry.transcript, pure] at some_call
    rcases List.exists_mem_of_ne_nil _ wanted with ⟨target, listed⟩
    rcases List.mem_filterMap.mp listed with ⟨⟨object, reached⟩, mem, searches⟩
    rcases opening_ok opened with ⟨incoming, progressed⟩
    rcases mem_progressAll progressed mem with ⟨index, ran⟩
    have named : object ∈ resolver.objects := by
      rw [← progressAll_objects progressed]
      exact List.mem_map_of_mem mem
    cases reached with
    | settled outcome => cases searches
    | searching head other => exact ⟨opening, after, opened, object, named, progress_seeks ran⟩
  next => exact absurd rfl some_call

end Searching

end Resolver

namespace Search

theorem growAll_growing {incoming : Table Reference (List Reference)}
    {isTerminal : Reference → Bool} (trees : List SearchTree) (result : SearchResult) :
    ∀ tree ∈ (growAll incoming isTerminal trees result).1, tree.frontier ≠ [] := by
  induction trees generalizing result with
  | nil => simp [growAll]
  | cons first rest ih =>
    cases grows : first.grow incoming isTerminal with
    | reached path =>
      simp only [growAll, grows]
      exact ih _
    | grown grown =>
      simp only [growAll, grows]
      split
      next => exact ih _
      next left =>
        intro tree mem
        rcases List.mem_cons.mp mem with rfl | mem
        · exact left
        · exact ih _ tree mem

variable {ε α β : Type} {store : Store}

def levelsAsked (store : Store) (enquiry : Enquiry ε α) : Nat :=
  (Exchange.kinds (enquiry.transcript Store.still store)).count .incomingReferences

theorem levelsAsked_bind {enquiry : Enquiry ε α} {value : α}
    (ran : enquiry.run store = .ok value) (next : α → Enquiry ε β) :
    levelsAsked store (enquiry >>= next) =
      levelsAsked store enquiry + levelsAsked store (next value) := by
  rw [levelsAsked, Enquiry.transcript_bind_still ran, Exchange.kinds_append, List.count_append]
  rfl

theorem levelsAsked_eq_zero {enquiry : Enquiry ε α} {kinds : List QueryKind}
    (asks : enquiry.Asks (·.Sublist kinds)) (apart : .incomingReferences ∉ kinds) :
    levelsAsked store enquiry = 0 := by
  have within := (asks _ Store.still store).count_le .incomingReferences
  rw [List.count_eq_zero_of_not_mem apart] at within
  exact Nat.le_zero.mp within

variable {caller : Caller} {targets : Set Reference} {depth count limit fuel : Nat}
variable {trees : List SearchTree} {result : SearchResult} {readable : ReadableWorkspaces}

theorem Underway.exists_leads
    (underway : Underway store caller targets depth count trees result) (some_tree : trees ≠ [])
    (growing : ∀ tree ∈ trees, tree.frontier ≠ []) :
    ∃ target ∈ targets, ∃ source onward, store.Leads (source :: onward) target ∧
      onward.length = depth := by
  rcases List.exists_mem_of_ne_nil _ some_tree with ⟨tree, mem⟩
  rcases List.exists_mem_of_ne_nil _ (growing tree mem) with ⟨chain, on_frontier⟩
  have layer := (underway.level tree mem).layer
  exact ⟨tree.target, underway.listed tree mem, chain.source, chain.onward,
    layer.leads chain on_frontier, layer.length chain on_frontier⟩

theorem levelsAsked_levels (consistent : store.Consistent) (admits : readable.Admits store caller)
    (underway : Underway store caller targets depth count trees result)
    (growing : ∀ tree ∈ trees, tree.frontier ≠ []) :
    levelsAsked store (levels readable limit fuel count trees result :
        Enquiry ResolveError SearchResult) = 0 ∨
      ∃ target ∈ targets, ∃ source onward, store.Leads (source :: onward) target ∧
        depth + levelsAsked store (levels readable limit fuel count trees result :
          Enquiry ResolveError SearchResult) = 1 + onward.length := by
  induction fuel generalizing depth count trees result with
  | zero => exact .inl rfl
  | succ fuel ih =>
    by_cases none : trees = []
    · subst none
      exact .inl rfl
    · have more : trees.isEmpty = false := by simpa using none
      have answered : store.answer (.incomingReferences (frontierOf trees)) =
          .ok (referrersAt store trees) := rfl
      have folded : (trees.flatMap fun tree => tree.frontier.map Chain.source).eraseDups =
          frontierOf trees := rfl
      have one : levelsAsked store (Enquiry.query (.incomingReferences (frontierOf trees)) :
          Enquiry ResolveError _) = 1 := rfl
      have here := underway.exists_leads none growing
      right
      rw [levels, more, folded]
      simp only [Bool.false_eq_true, if_false]
      rw [levelsAsked_bind (Enquiry.run_query answered), one]
      by_cases exceeds : limit < count + (referrersAt store trees).values.flatten.length
      · simp only [exceeds, if_true]
        rcases here with ⟨target, mem, source, onward, leads, length⟩
        refine ⟨target, mem, source, onward, leads, ?_⟩
        change depth + (1 + 0) = 1 + onward.length
        omega
      · have known : ∀ tree ∈ trees, tree.Informed store caller (referrersAt store trees)
            (Search.isTerminal readable (statesAt store readable (referrersAt store trees))) :=
          fun tree mem => informed admits mem
        have asked := ih (underway.next consistent known) (growAll_growing _ _)
        simp only [exceeds, if_false]
        rw [levelsAsked_bind (Resolver.run_statesOf store _),
          levelsAsked_eq_zero (statesOf_asks _) (by decide), Nat.zero_add]
        rcases asked with last | ⟨target, mem, source, onward, leads, length⟩
        · rcases here with ⟨target, mem, source, onward, leads, length⟩
          refine ⟨target, mem, source, onward, leads, ?_⟩
          rw [← statesAt, last]
          omega
        · refine ⟨target, mem, source, onward, leads, ?_⟩
          rw [← statesAt]
          omega

theorem levelsAsked_run (consistent : store.Consistent) (admits : readable.Admits store caller)
    {targets : List Reference} (shut : ∀ target ∈ targets, store.opens caller target = false) :
    levelsAsked store (Search.run readable limit targets : Enquiry ResolveError SearchResult) = 0 ∨
      ∃ target ∈ targets, ∃ source onward, store.Leads (source :: onward) target ∧
        levelsAsked store (Search.run readable limit targets :
          Enquiry ResolveError SearchResult) = 1 + onward.length := by
  simp only [Search.run]
  split
  · exact .inl rfl
  · split
    · exact .inl rfl
    · have growing : ∀ tree ∈ (targets.eraseDups.mergeSort Reference.le).map SearchTree.ofTarget,
          tree.frontier ≠ [] := by
        intro tree mem
        rcases List.mem_map.mp mem with ⟨target, _, rfl⟩
        exact List.cons_ne_nil _ _
      have asked := @levelsAsked_levels store caller _ 0 _ limit (limit + 1) _ _ readable consistent
        admits (underway_start shut) growing
      simpa using asked

end Search

namespace Resolver

variable {store : Store} {user : Option User} {batch : List Address} {config : ResolverConfig}
variable {resolver : Resolver}

theorem levelsAsked_search (consistent : store.Consistent) (resolver : Resolver)
    {targets : List Reference}
    (shut : ∀ target ∈ targets, store.opens resolver.caller target = false) :
    Search.levelsAsked store (resolver.search targets) = 0 ∨
      ∃ target ∈ targets, ∃ source onward, store.Leads (source :: onward) target ∧
        Search.levelsAsked store (resolver.search targets) = 1 + onward.length := by
  rw [search]
  split
  · exact .inl rfl
  · obtain ⟨readable, found, holds⟩ := run_readableWorkspaces consistent resolver
    have first : Search.levelsAsked store resolver.readableWorkspaces = 0 := by
      apply Search.levelsAsked_eq_zero resolver.readableWorkspaces_asks
      split <;> decide
    rw [Search.levelsAsked_bind found, first, Nat.zero_add]
    exact Search.levelsAsked_run consistent holds.admits shut

theorem searching_still (consistent : store.Consistent) (resolver : Resolver) :
    resolver.searching Store.still store =
      (resolver.search (resolver.sought store)).transcript Store.still store := by
  obtain ⟨snapshot, _, opened⟩ := run_opening consistent resolver
  have ran := Enquiry.runWith_still resolver.opening store
  rw [opened] at ran
  rw [searching_eq ran, targets_progressOf]

structure AsksInOrder {σ : Type} (resolver : Resolver) (respond : Responder σ) (state : σ) :
    Prop where
  phases : resolver.resolve.transcript respond state =
    resolver.opening.transcript respond state ++ resolver.searching respond state
  opening : OpeningCalls resolver.config.asAdmin
    (Exchange.kinds (resolver.opening.transcript respond state))
  search : SearchCalls resolver.config.asAdmin
    (Exchange.kinds (resolver.searching respond state))
  needed : resolver.searching respond state ≠ [] → ∃ opening after,
    resolver.opening.runWith respond state = (.ok opening, after) ∧
      ∃ address ∈ resolver.objects, opening.findings.Seeks address
  halts : ∀ (before later : List (Exchange σ)) (exchange : Exchange σ) (fault : StoreError),
    resolver.resolve.transcript respond state = before ++ exchange :: later →
      exchange.reply = .error fault →
        later = [] ∧ (resolver.resolve.runWith respond state).1 = .error (.store fault)

theorem resolve_calls (made : make user batch config = .ok resolver) :
    (∀ (σ : Type) (respond : Responder σ) (state : σ), resolver.AsksInOrder respond state) ∧
    ∀ store : Store, store.Reachable →
      let levels := (Exchange.kinds (resolver.searching Store.still store)).count
        .incomingReferences
      levels = 0 ∨ ∃ target ∈ store.lookupTargets ⟨user, config.asAdmin⟩ batch,
        ∃ source onward, store.Leads (source :: onward) target ∧
          levels ≤ 1 + onward.length := by
  constructor
  · intro σ respond state
    exact
      { phases := resolver.resolve_transcript respond state
        opening := resolver.opening_asks σ respond state
        search := resolver.searching_asks respond state
        needed := searching_seeks
        halts := fun _ _ _ _ => resolver.resolve_halts.fault_last respond }
  · intro store reachable
    rw [searching_still reachable.consistent, ← sought_eq_lookupTargets made]
    rcases levelsAsked_search reachable.consistent resolver (sought_shut resolver) with
      none | ⟨target, mem, source, onward, leads, length⟩
    · exact .inl none
    · exact .inr ⟨target, mem, source, onward, leads, Nat.le_of_eq length⟩

namespace Sample

def seeker : Resolver where
  user := some Store.Sample.alice
  objects := [Store.Sample.wanted .lookup]

def faulty : Responder (List Query) :=
  Faults.respond { failures := [(.allPermissions, 1)] } Store.sample

end Sample

theorem sample_resolve_calls :
    Store.sample.Reachable ∧
      make (some Store.Sample.alice) [Store.Sample.wanted .lookup] {} = .ok Sample.seeker ∧
      Exchange.kinds (Sample.seeker.resolve.transcript Store.still Store.sample) =
        [.resolveWorkspaces, .permissions, .objectReferences, .objectStates, .allPermissions,
          .incomingReferences, .incomingReferences, .objectStates] ∧
      Exchange.kinds (Sample.seeker.resolve.transcript Sample.faulty []) =
        [.resolveWorkspaces, .permissions, .objectReferences, .objectStates, .allPermissions] ∧
      Sample.seeker.AsksInOrder Sample.faulty [] ∧
      ∃ target ∈ Store.sample.lookupTargets ⟨some Store.Sample.alice, false⟩
          [Store.Sample.wanted .lookup],
        ∃ source onward, Store.sample.Leads (source :: onward) target ∧ 1 ≤ onward.length := by
  have made : make (some Store.Sample.alice) [Store.Sample.wanted .lookup] {} =
      .ok Sample.seeker := rfl
  have both := resolve_calls made
  refine ⟨Store.reachable_sample, made, by decide +kernel, by decide +kernel,
    both.1 _ Sample.faulty [], ?_⟩
  have levels : (Exchange.kinds (Sample.seeker.searching Store.still Store.sample)).count
      .incomingReferences = 2 := by
    decide +kernel
  have bound := both.2 Store.sample Store.reachable_sample
  rw [levels] at bound
  rcases bound with none | ⟨target, mem, source, onward, leads, long⟩
  · cases none
  · exact ⟨target, mem, source, onward, leads, by omega⟩

end Resolver

end ObjectSpace
