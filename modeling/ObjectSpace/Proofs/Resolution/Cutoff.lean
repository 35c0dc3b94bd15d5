import ObjectSpace.Proofs.Resolution.Calls
import ObjectSpace.Proofs.Resolution.Genuine
import ObjectSpace.Proofs.Resolution.Lookups

set_option autoImplicit false

namespace ObjectSpace

def Query.sources : Query → List Reference
  | .incomingReferences references => references
  | _ => []

theorem Query.sources_of_kind {query : Query} (other : query.kind ≠ .incomingReferences) :
    query.sources = [] := by
  cases query with
  | incomingReferences => exact absurd rfl other
  | resolveWorkspaces | permissions | allPermissions | objectReferences | objectStates => rfl

namespace Store

def Reaches (store : Store) : Reference → Reference → Prop :=
  Relation.ReflTransGen fun source target => store.refersTo source target = true

theorem not_findable {store : Store} {caller : Caller} {address : Address} {located : Located}
    (found : store.locate? address = some located)
    (shut : ∀ source, store.Reaches source located.reference → store.opens caller source = false) :
    ¬ store.Findable caller address := by
  intro findable
  rcases findable with ⟨other, found', opened | ⟨source, opened, reaches⟩⟩
  next =>
    cases found.symm.trans found'
    simp [shut _ .refl] at opened
  next =>
    cases found.symm.trans found'
    simp [shut source reaches.to_reflTransGen] at opened

end Store

def Exchange.Apart {σ : Type} (first later : Exchange σ) : Prop :=
  ∀ reference ∈ first.query.sources, reference ∉ later.query.sources

namespace SearchTree

-- What is on the frontier, or not known so far.
def Awaits (tree : SearchTree) (reference : Reference) : Prop :=
  (∃ chain ∈ tree.frontier, chain.source = reference) ∨
    ¬ (reference = tree.target ∨ reference ∈ tree.found)

end SearchTree

namespace Search

section Log

variable {σ : Type} (log : List (Exchange σ)) (count limit : Nat) (reference : Reference)

def Examined : Prop :=
  ∃ early, early <+: log ∧ count + fetched early ≤ limit ∧
    ∃ exchange ∈ early, reference ∈ exchange.query.sources

instance : Decidable (Examined log count limit reference) :=
  decidable_of_iff (∃ early ∈ log.inits, count + fetched early ≤ limit ∧
    ∃ exchange ∈ early, reference ∈ exchange.query.sources) <| by
    simp only [Examined, List.mem_inits]

end Log

variable {ε σ : Type} [OfStoreError ε]

structure CutOff (store : Store) (targets : List Reference) (searched : SearchResult)
    (count limit : Nat) (early : List (Exchange σ)) (last : Exchange σ) : Prop where
  within : count + fetched early ≤ limit
  exceeds : limit < count + fetched (early ++ [last])
  asks : last.query.sources ≠ []
  pathless : ∀ reference ∈ last.query.sources, ∃ target ∈ targets,
    searched.paths.get? target = none ∧ store.Reaches reference target

structure Growing (store : Store) (targets : List Reference) (trees : List SearchTree) : Prop where
  wanted : ∀ tree ∈ trees, tree.target ∈ targets
  filled : ∀ tree ∈ trees, tree.frontier ≠ []
  leads : ∀ tree ∈ trees, ∀ chain ∈ tree.frontier, store.Reaches chain.source tree.target
  known : ∀ tree ∈ trees, ∀ chain ∈ tree.frontier,
    chain.source = tree.target ∨ chain.source ∈ tree.found

section Growth

variable {store : Store} {targets : List Reference} {trees : List SearchTree}
variable {result : SearchResult} (isTerminal : Reference → Bool)

theorem mem_planted {tree : SearchTree} (mem : tree ∈ planted targets) :
    ∃ target ∈ targets, tree = .ofTarget target := by
  rcases List.mem_map.mp mem with ⟨target, listed, rfl⟩
  exact ⟨target, List.mem_eraseDups.mp (List.mem_mergeSort.mp listed), rfl⟩

theorem growing_planted (store : Store) (targets : List Reference) :
    Growing store targets (planted targets) := by
  constructor
  case wanted =>
    intro tree mem
    rcases mem_planted mem with ⟨target, listed, rfl⟩
    exact listed
  case filled =>
    intro tree mem
    rcases mem_planted mem with ⟨target, _, rfl⟩
    exact List.cons_ne_nil _ _
  case leads =>
    intro tree mem chain kept
    rcases mem_planted mem with ⟨target, _, rfl⟩
    cases List.mem_singleton.mp kept
    exact .refl
  case known =>
    intro tree mem chain kept
    rcases mem_planted mem with ⟨target, _, rfl⟩
    cases List.mem_singleton.mp kept
    exact .inl rfl

theorem Growing.grown (consistent : store.Consistent) (growing : Growing store targets trees) :
    Growing store targets
      (growAll (referrersAt store trees) isTerminal trees result).1 := by
  constructor
  case wanted =>
    intro grown mem
    rcases mem_growAll _ isTerminal mem with ⟨tree, listed, rfl, _⟩
    exact growing.wanted tree listed
  case filled =>
    intro grown mem
    rcases mem_growAll _ isTerminal mem with ⟨tree, _, rfl, filled⟩
    exact filled
  case leads =>
    intro grown mem chain kept
    rcases mem_growAll _ isTerminal mem with ⟨tree, listed, rfl, _⟩
    rcases SearchTree.mem_ascents kept with ⟨before, on_frontier, referrers, answered, referrer, _⟩
    have asked : before.source ∈ frontierOf trees :=
      mem_frontierOf.mpr ⟨tree, listed, before, on_frontier, rfl⟩
    rw [referrersAt, Table.get?_tabulate, if_pos asked] at answered
    cases answered
    have refers : store.refersTo chain.source before.source = true :=
      (consistent.referred _ _).mp referrer
    exact .head refers (growing.leads tree listed before on_frontier)
  case known =>
    intro grown mem chain kept
    rcases mem_growAll _ isTerminal mem with ⟨tree, _, rfl, _⟩
    exact .inr (List.mem_append_left _ (List.mem_reverse.mpr (List.mem_map_of_mem kept)))

theorem growAll_limitReached (incoming : Table Reference (List Reference)) :
    (growAll incoming isTerminal trees result).2.limitReached = result.limitReached := by
  induction trees generalizing result with
  | nil => rfl
  | cons tree rest ih =>
    cases grows : tree.grow incoming isTerminal with
    | reached path => simp [growAll, grows, ih]
    | grown grown =>
      simp only [growAll, grows]
      split <;> exact ih

end Growth

section Still

variable {store after between : Store} {trees : List SearchTree} {references : List Reference}
variable {incoming : Table Reference (List Reference)} {states : Table Reference ObjectState}

theorem still_incoming
    (asked : Store.still (.incomingReferences (frontierOf trees)) store = (.ok incoming, after)) :
    incoming = referrersAt store trees ∧ store = after := by
  cases asked
  exact ⟨rfl, rfl⟩

theorem still_states
    (told : (statesOf references : Enquiry ε _).runWith Store.still store = (.ok states, between)) :
    store = between := by
  rw [Enquiry.runWith_still] at told
  exact (Prod.mk.inj told).2

end Still

variable (ε) in
theorem statesOf_sources {references : List Reference} {respond : Responder σ} {state : σ}
    {exchange : Exchange σ}
    (mem : exchange ∈ (statesOf references : Enquiry ε _).transcript respond state) :
    exchange.query.sources = [] := by
  rcases statesOf_cases ε references respond state with none | some
  next =>
    rw [none.1] at mem
    cases mem
  next =>
    rcases some with ⟨question, told, kind, _⟩
    rw [told] at mem
    cases List.mem_singleton.mp mem
    apply Query.sources_of_kind
    rw [show exchange.query.kind = _ from kind]
    decide

variable (ε) in
theorem fetched_level (respond : Responder σ) (frontier references : List Reference)
    (incoming : Table Reference (List Reference)) (state : σ) :
    fetched (⟨.incomingReferences frontier, .ok incoming, state⟩ ::
        (statesOf references : Enquiry ε _).transcript respond state) =
      incoming.values.flatten.length := by
  rw [fetched_answered, fetched_statesOf, Nat.add_zero]

variable (ε) in
theorem apart_level {respond : Responder σ} {references : List Reference} {state : σ}
    {first : Exchange σ} {rest : List (Exchange σ)} (apart : rest.Pairwise Exchange.Apart)
    (new : ∀ later ∈ rest, first.Apart later) :
    (first :: ((statesOf references : Enquiry ε _).transcript respond state ++ rest)).Pairwise
      Exchange.Apart := by
  have silent : ∀ exchange ∈ (statesOf references : Enquiry ε _).transcript respond state,
      exchange.query.sources = [] := fun exchange mem => statesOf_sources ε mem
  refine List.pairwise_cons.mpr ⟨?_, List.pairwise_append.mpr ⟨?_, apart, ?_⟩⟩
  next =>
    intro later mem reference asked
    rcases List.mem_append.mp mem with between | beyond
    next => simp [silent later between]
    next => exact new later beyond reference asked
  next =>
    apply List.pairwise_of_forall_mem_list
    intro exchange mem other _ reference asked
    simp [silent exchange mem] at asked
  next =>
    intro exchange mem other _ reference asked
    simp [silent exchange mem] at asked

theorem CutOff.prepend {store : Store} {targets : List Reference} {searched : SearchResult}
    {count limit : Nat} {front early : List (Exchange σ)} {last : Exchange σ}
    (cutOff : CutOff store targets searched (count + fetched front) limit early last) :
    CutOff store targets searched count limit (front ++ early) last := by
  have within := cutOff.within
  have exceeds := cutOff.exceeds
  refine ⟨?_, ?_, cutOff.asks, cutOff.pathless⟩
  next =>
    rw [fetched_append]
    omega
  next =>
    rw [List.append_assoc, fetched_append]
    omega

section Awaited

variable {incoming : Table Reference (List Reference)} {isTerminal : Reference → Bool}
variable {trees : List SearchTree} {result : SearchResult} {reference : Reference}

theorem awaits_of_mem_frontierOf (listed : reference ∈ frontierOf trees) :
    ∃ tree ∈ trees, tree.Awaits reference := by
  rcases mem_frontierOf.mp listed with ⟨tree, mem, chain, kept, same⟩
  exact ⟨tree, mem, .inl ⟨chain, kept, same⟩⟩

theorem growAll_single (single : ∀ tree ∈ trees, ∀ other ∈ trees, tree = other) :
    ∀ grown ∈ (growAll incoming isTerminal trees result).1,
      ∀ other ∈ (growAll incoming isTerminal trees result).1, grown = other := by
  intro grown mem other mem'
  rcases mem_growAll _ _ mem with ⟨tree, listed, rfl, _⟩
  rcases mem_growAll _ _ mem' with ⟨tree', listed', rfl, _⟩
  rw [single tree listed tree' listed']

theorem new_of_awaits {grown : SearchTree}
    (mem : grown ∈ (growAll incoming isTerminal trees result).1)
    (awaits : grown.Awaits reference) :
    ∃ tree ∈ trees, ¬ (reference = tree.target ∨ reference ∈ tree.found) := by
  rcases mem_growAll incoming isTerminal mem with ⟨tree, listed, rfl, _⟩
  refine ⟨tree, listed, ?_⟩
  rcases awaits with ⟨chain, kept, rfl⟩ | unknown
  next =>
    rcases SearchTree.mem_ascents kept with ⟨_, _, _, _, _, _, new⟩
    exact new
  next => exact fun known => unknown (known.imp_right (List.mem_append_right _))

end Awaited

namespace Climb

variable {readable : ReadableWorkspaces} {limit count : Nat} {trees : List SearchTree}
variable {result : SearchResult} {outcome : Except ε SearchResult}

theorem awaits {respond : Responder σ} {state : σ} {log : List (Exchange σ)}
    (climb : Climb respond readable limit count trees result state log outcome)
    {exchange : Exchange σ} (mem : exchange ∈ log) {reference : Reference}
    (asked : reference ∈ exchange.query.sources) : ∃ tree ∈ trees, tree.Awaits reference := by
  induction climb with
  | done => cases mem
  | unanswered | exceeded =>
    cases List.mem_singleton.mp mem
    exact awaits_of_mem_frontierOf asked
  | unjudged =>
    rcases List.mem_cons.mp mem with rfl | between
    next => exact awaits_of_mem_frontierOf asked
    next =>
      rw [statesOf_sources ε between] at asked
      cases asked
  | level _ _ _ _ _ ih =>
    rcases List.mem_cons.mp mem with rfl | beyond
    next => exact awaits_of_mem_frontierOf asked
    rcases List.mem_append.mp beyond with between | later
    next =>
      rw [statesOf_sources ε between] at asked
      cases asked
    next =>
      rcases ih later with ⟨grown, listed, awaits⟩
      rcases new_of_awaits listed awaits with ⟨tree, mem, new⟩
      exact ⟨tree, mem, .inr new⟩

variable {store : Store} {targets : List Reference} {log : List (Exchange Store)}

theorem asks_once
    (climb : Climb Store.still readable limit count trees result store log outcome)
    (consistent : store.Consistent) (growing : Growing store targets trees)
    (single : ∀ tree ∈ trees, ∀ other ∈ trees, tree = other) :
    log.Pairwise Exchange.Apart := by
  induction climb with
  | done => exact .nil
  | unanswered | exceeded => exact List.pairwise_singleton _ _
  | unjudged => simpa using apart_level ε .nil (by simp)
  | @level count trees result store after between incoming states later outcome _ asked _ told
      onward ih =>
    rcases still_incoming asked with ⟨rfl, rfl⟩
    cases still_states told
    apply apart_level ε (ih consistent (growing.grown _ consistent) (growAll_single single))
    intro later mem reference listed asked
    rcases onward.awaits mem asked with ⟨grown, left, awaits⟩
    rcases new_of_awaits left awaits with ⟨tree, mem, new⟩
    rcases mem_frontierOf.mp listed with ⟨other, mem', chain, kept, rfl⟩
    cases single tree mem other mem'
    exact new (growing.known tree mem chain kept)

theorem cutOff (climb : Climb Store.still readable limit count trees result store log outcome)
    (consistent : store.Consistent) (pending : Pending trees result)
    (growing : Growing store targets trees) (below : count ≤ limit)
    (uncut : result.limitReached = false) {searched : SearchResult}
    (ended : outcome = .ok searched) (reached : searched.limitReached = true) :
    ∃ early last, log = early ++ [last] ∧
      CutOff store targets searched count limit early last := by
  induction climb with
  | done =>
    cases ended
    rw [uncut] at reached
    cases reached
  | unanswered | unjudged => cases ended
  | @exceeded count trees result store after incoming some_tree asked exceeds =>
    cases ended
    refine ⟨[], _, rfl, ?_⟩
    constructor
    case within => simpa [fetched] using below
    case exceeds =>
      rw [List.nil_append, fetched_answered]
      exact exceeds
    case asks =>
      rcases List.exists_mem_of_ne_nil _ some_tree with ⟨tree, mem⟩
      rcases List.exists_mem_of_ne_nil _ (growing.filled tree mem) with ⟨chain, kept⟩
      exact List.ne_nil_of_mem (mem_frontierOf.mpr ⟨tree, mem, chain, kept, rfl⟩)
    case pathless =>
      intro reference listed
      rcases mem_frontierOf.mp listed with ⟨tree, mem, chain, kept, rfl⟩
      exact ⟨tree.target, growing.wanted tree mem, pending.absent tree mem,
        growing.leads tree mem chain kept⟩
  | @level count trees result store after between incoming states later outcome _ asked within told
      onward ih =>
    rcases still_incoming asked with ⟨rfl, rfl⟩
    cases still_states told
    rcases ih consistent (pending.grown _ _) (growing.grown _ consistent) within
      ((growAll_limitReached _ _).trans uncut) ended with ⟨early, last, rfl, cutOff⟩
    rw [← fetched_level ε Store.still (frontierOf trees)
      (judged readable (referrersAt store trees)) _ store] at cutOff
    refine ⟨_, last, ?_, cutOff.prepend⟩
    simp

end Climb

section Examined

variable {front log : List (Exchange σ)} {count limit : Nat} {reference : Reference}

theorem examined_of_append (silent : ∀ exchange ∈ front, exchange.query.sources = [])
    (examined : Examined (front ++ log) count limit reference) :
    Examined log count limit reference := by
  rcases examined with ⟨early, within, few, exchange, mem, asked⟩
  have outside : exchange ∉ front := by
    intro inside
    simp [silent exchange inside] at asked
  rcases List.prefix_or_prefix_of_prefix within (List.prefix_append front log) with short | long
  next => exact absurd (short.subset mem) outside
  next =>
    rcases long with ⟨rest, rfl⟩
    rw [fetched_append] at few
    refine ⟨rest, (List.prefix_append_right_inj front).mp within, by omega, exchange, ?_, asked⟩
    exact (List.mem_append.mp mem).resolve_left outside

theorem CutOff.not_examined {store : Store} {targets : List Reference} {searched : SearchResult}
    {early : List (Exchange σ)} {last : Exchange σ}
    (cutOff : CutOff store targets searched count limit early last)
    (apart : (early ++ [last]).Pairwise Exchange.Apart)
    (asked : reference ∈ last.query.sources) :
    ¬ Examined (early ++ [last]) count limit reference := by
  intro examined
  rcases examined with ⟨part, within, few, exchange, mem, before⟩
  rcases List.prefix_concat_iff.mp within with rfl | within
  next => exact absurd few (Nat.not_le.mpr cutOff.exceeds)
  next =>
    have parted := (List.pairwise_append.mp apart).2.2
    exact parted exchange (within.subset mem) last List.mem_cons_self reference before asked

end Examined

section Run

variable {store : Store} {readable : ReadableWorkspaces} {limit : Nat} {targets : List Reference}
variable {searched : SearchResult} {target : Reference}

theorem climb_of_limitReached
    (ran : (Search.run readable limit targets : Enquiry ε _).run store = .ok searched)
    (reached : searched.limitReached = true) (within : targets.eraseDups.length ≤ limit) :
    Climb Store.still readable limit targets.eraseDups.length (planted targets) {} store
      ((Search.run readable limit targets : Enquiry ε _).transcript Store.still store)
      (.ok searched : Except ε SearchResult) := by
  by_cases nothing : targets = [] ∨ readable.isEmpty = true
  next =>
    rw [run_nothing nothing] at ran
    cases ran
    cases reached
  next =>
    simp only [not_or, Bool.not_eq_true] at nothing
    have climb := @climb_run ε Store _ Store.still readable limit store targets nothing.1
      nothing.2 within
    rwa [Enquiry.runWith_still, ran] at climb

theorem run_cutOff (consistent : store.Consistent)
    (ran : (Search.run readable limit targets : Enquiry ε _).run store = .ok searched)
    (reached : searched.limitReached = true) (within : targets.eraseDups.length ≤ limit) :
    ∃ early last,
      (Search.run readable limit targets : Enquiry ε _).transcript Store.still store =
        early ++ [last] ∧
      CutOff store targets searched targets.eraseDups.length limit early last :=
  (climb_of_limitReached ran reached within).cutOff consistent (pending_planted targets)
    (growing_planted store targets) within rfl rfl reached

theorem exists_unexamined (consistent : store.Consistent)
    (ran : (Search.run readable limit targets : Enquiry ε _).run store = .ok searched)
    (reached : searched.limitReached = true) (single : ∀ other ∈ targets, other = target) :
    ∃ source, store.Reaches source target ∧
      ¬ Examined ((Search.run readable limit targets : Enquiry ε _).transcript Store.still store)
        targets.eraseDups.length limit source := by
  by_cases within : targets.eraseDups.length ≤ limit
  next =>
    have alone : ∀ tree ∈ planted targets, ∀ other ∈ planted targets, tree = other := by
      intro tree mem other mem'
      rcases mem_planted mem with ⟨first, listed, rfl⟩
      rcases mem_planted mem' with ⟨second, listed', rfl⟩
      rw [single first listed, single second listed']
    have apart := (climb_of_limitReached ran reached within).asks_once consistent
      (growing_planted store targets) alone
    rcases run_cutOff consistent ran reached within with ⟨early, last, log, cutOff⟩
    rcases List.exists_mem_of_ne_nil _ cutOff.asks with ⟨source, asked⟩
    rcases cutOff.pathless source asked with ⟨other, listed, _, reaches⟩
    rw [log] at apart ⊢
    rw [single other listed] at reaches
    exact ⟨source, reaches, cutOff.not_examined apart asked⟩
  next =>
    refine ⟨target, .refl, ?_⟩
    intro examined
    rcases examined with ⟨early, _, few, _⟩
    omega

end Run

end Search

namespace Resolver

variable {store : Store} {resolver : Resolver} {searched : SearchResult}

def Examines (resolver : Resolver) (store : Store) (reference : Reference) : Prop :=
  Search.Examined (resolver.searching Store.still store) (resolver.sought store).eraseDups.length
    resolver.config.maxSearchCount reference

instance (resolver : Resolver) (store : Store) (reference : Reference) :
    Decidable (resolver.Examines store reference) :=
  inferInstanceAs (Decidable (Search.Examined _ _ _ _))

theorem readableWorkspaces_silent (resolver : Resolver) (store : Store) :
    ∀ exchange ∈ resolver.readableWorkspaces.transcript Store.still store,
      exchange.query.sources = [] := by
  intro exchange mem
  have asks := resolver.readableWorkspaces_asks Store Store.still store
  have listed := asks.subset (List.mem_map_of_mem mem)
  apply Query.sources_of_kind
  split at listed
  next => cases listed
  next =>
    rw [show exchange.query.kind = _ from List.mem_singleton.mp listed]
    decide

theorem searching_split (consistent : store.Consistent) (some_target : resolver.sought store ≠ [])
    (found : (resolver.search (resolver.sought store)).run store = .ok searched) :
    ∃ readable front, (∀ exchange ∈ front, exchange.query.sources = []) ∧
      (Search.run readable resolver.config.maxSearchCount (resolver.sought store) :
        Enquiry ResolveError _).run store = .ok searched ∧
      resolver.searching Store.still store = front ++
        (Search.run readable resolver.config.maxSearchCount (resolver.sought store) :
          Enquiry ResolveError _).transcript Store.still store := by
  rcases run_readableWorkspaces consistent resolver with ⟨readable, held, _⟩
  have begun : resolver.search (resolver.sought store) = resolver.readableWorkspaces >>=
      fun readable => Search.run readable resolver.config.maxSearchCount
        (resolver.sought store) := by
    rw [search, if_neg some_target]
  rw [begun, Enquiry.run_bind_ok held] at found
  refine ⟨readable, _, readableWorkspaces_silent resolver store, found, ?_⟩
  rw [searching_still consistent, begun, Enquiry.transcript_bind_still held]

theorem exists_not_examines (consistent : store.Consistent)
    (found : (resolver.search (resolver.sought store)).run store = .ok searched)
    (reached : searched.limitReached = true) {target : Reference}
    (single : ∀ other ∈ resolver.sought store, other = target) :
    ∃ source, store.Reaches source target ∧ ¬ resolver.Examines store source := by
  have some_target : resolver.sought store ≠ [] := by
    intro none
    rw [none] at found
    cases found
    cases reached
  rcases searching_split consistent some_target found with ⟨readable, front, silent, ran, log⟩
  rcases Search.exists_unexamined consistent ran reached single with ⟨source, reaches, unexamined⟩
  refine ⟨source, reaches, ?_⟩
  rw [Examines, log]
  exact fun examined => unexamined (Search.examined_of_append silent examined)

variable {user : Option User} {batch : List Address} {config : ResolverConfig}

-- Exact for a single target; several targets share one flag.
theorem exceeded_not_examined (reachable : store.Reachable)
    (made : make user batch config = .ok resolver) :
    (∀ readable limit targets searched,
      let search : Enquiry ResolveError SearchResult := Search.run readable limit targets
      let log := search.transcript Store.still store
      search.run store = .ok searched → searched.limitReached = true →
        (targets.eraseDups.length ≤ limit → ∃ early last, log = early ++ [last] ∧
          Search.CutOff store targets searched targets.eraseDups.length limit early last) ∧
        ∀ target, (∀ other ∈ targets, other = target) → ∃ source, store.Reaches source target ∧
          ¬ Search.Examined log targets.eraseDups.length limit source) ∧
    ∃ result, resolver.resolve.run store = .ok result ∧
      ∀ address ∈ batch, address.isLookup = true →
        ∀ located, store.locate? address = some located →
          store.lookupTargets ⟨user, config.asAdmin⟩ batch ⊆ {located.reference} →
          ∃ outcome, result.outcome? address = some outcome ∧
            (outcome = .error { object := address, cause := .searchLimitExceeded } →
              ∃ source, store.Reaches source located.reference ∧
                ¬ resolver.Examines store source) ∧
            ((∀ source, store.Reaches source located.reference →
                resolver.Examines store source ∧
                  store.opens ⟨user, config.asAdmin⟩ source = false) →
              outcome = .error { object := address, cause := .inaccessible user }) := by
  have consistent := reachable.consistent
  constructor
  next =>
    intro readable limit targets searched search log ran reached
    exact ⟨Search.run_cutOff consistent ran reached,
      fun target single => Search.exists_unexamined consistent ran reached single⟩
  rcases resolve_searched consistent resolver with ⟨searched, found, finished, ran⟩
  have targets : {target | target ∈ resolver.sought store} =
      store.lookupTargets ⟨user, config.asAdmin⟩ batch := sought_eq_lookupTargets made
  rw [targets] at finished
  have sought_iff : ∀ target, target ∈ resolver.sought store ↔
      target ∈ store.lookupTargets ⟨user, config.asAdmin⟩ batch :=
    fun target => by rw [← targets]; rfl
  obtain rfl := make_eq_ok made
  refine ⟨_, ran, ?_⟩
  intro address mem lookup located there only
  have listed : address ∈ batch.eraseDups := List.mem_eraseDups.mpr mem
  refine ⟨_, outcome?_eq listed (store.outcomeOf ⟨user, config.asAdmin⟩ searched), ?_⟩
  simp only [Store.outcomeOf, lookup, if_true]
  have unexamined : store.outcomeFound ⟨user, config.asAdmin⟩ searched address =
      .error { object := address, cause := .searchLimitExceeded } →
        ∃ source, store.Reaches source located.reference ∧
          ¬ (Resolver.mk user batch.eraseDups config).Examines store source := by
    intro exceeded
    exact exists_not_examines consistent found (Store.outcomeFound_exceeded exceeded)
      fun other mem => only ((sought_iff other).mp mem)
  refine ⟨unexamined, ?_⟩
  intro all
  apply Store.outcomeFound_of_not_findable finished
  next =>
    intro exceeded
    rcases unexamined exceeded with ⟨source, reaches, missed⟩
    exact missed (all source reaches).1
  next => exact Store.not_findable there fun source reaches => (all source reaches).2

namespace Sample

open Store.Sample (alice target middle naming wanted)

def crowded : Store := Store.run
  [.createWorkspace alice "top", .createWorkspace ⟨"bob"⟩ "hidden", .saveObject 2 "target" [],
    .saveObject 2 "middle" [target], .saveObject 1 "root" [middle], .saveObject 2 "lone" []]

def lone : Reference := { target with object := 3, object_pos := Nat.succ_pos 2 }

def wantedLone : Address := naming "hidden" "lone" .lookup

def seekers : Resolver where
  user := some alice
  objects := [wanted .lookup, wantedLone]
  config := { maxSearchCount := 3 }
  distinct := by decide

def loneSeeker : Resolver := { seekers with objects := [wantedLone], distinct := by simp }

theorem eq_lone_of_reaches {source : Reference} (reaches : crowded.Reaches source lone) :
    source = lone := by
  rcases reaches.cases_tail with same | ⟨referrer, _, refers⟩
  next => exact same.symm
  next =>
    have consistent : crowded.Consistent := (Store.reachable_run _).consistent
    have listed := (consistent.referred referrer lone).mpr refers
    have none : crowded.referrers lone = [] := by decide
    rw [none] at listed
    cases listed

theorem planted_pair : Search.planted [target, lone] = [.ofTarget target, .ofTarget lone] := by
  have distinct : [target, lone].eraseDups = [target, lone] := by decide
  have sorted : [target, lone].mergeSort Reference.le = [target, lone] :=
    List.mergeSort_of_pairwise (by decide)
  rw [Search.planted, distinct, sorted]
  rfl

theorem run_pair : (Search.run (.only [1]) 3 [target, lone] : Enquiry ResolveError _) =
    Search.levels (.only [1]) 3 4 2 [.ofTarget target, .ofTarget lone] {} := by
  rw [Search.run_planted (by decide) (by decide) (by decide), planted_pair]
  rfl

theorem search_pair : seekers.search [target, lone] = seekers.readableWorkspaces >>=
    fun readable => Search.run readable 3 [target, lone] := rfl

theorem readableWorkspaces_seekers :
    seekers.readableWorkspaces.run crowded = .ok (.only [1]) := by decide +kernel

theorem sought_seekers : seekers.sought crowded = [target, lone] := by decide +kernel

theorem examines_lone : seekers.Examines crowded lone := by
  have consistent : crowded.Consistent := (Store.reachable_run _).consistent
  rw [Examines, searching_still consistent, sought_seekers, search_pair,
    Enquiry.transcript_bind_still readableWorkspaces_seekers, run_pair]
  decide +kernel

theorem search_cut_off : ((seekers.search [target, lone]).run crowded).map
    (fun searched => (searched.limitReached, searched.paths.get? lone)) = .ok (true, none) := by
  rw [search_pair, Enquiry.run_bind_ok readableWorkspaces_seekers, run_pair]
  decide +kernel

theorem failure_lone : (seekers.resolve.run crowded).map
    (fun result => result.failure? wantedLone) = .ok (some ⟨wantedLone, .searchLimitExceeded⟩) := by
  have consistent : crowded.Consistent := (Store.reachable_run _).consistent
  rcases resolve_searched consistent seekers with ⟨searched, found, _, ran⟩
  have cut := search_cut_off
  rw [sought_seekers] at found
  rw [found] at cut
  rcases Prod.mk.inj (Except.ok.inj cut) with ⟨reached, absent⟩
  have named : (crowded.locate? wantedLone).map Located.reference = some lone := by decide
  rcases Option.map_eq_some_iff.mp named with ⟨located, there, at_lone⟩
  have shut : crowded.opens seekers.caller lone = false := by decide
  have outcome : crowded.outcomeFound seekers.caller searched wantedLone =
      .error ⟨wantedLone, .searchLimitExceeded⟩ := by
    simp only [Store.outcomeFound, there, at_lone, shut, absent, reached, Bool.false_eq_true,
      if_false, if_true]
  have told : (seekers.outcomesOf crowded searched).outcome? wantedLone =
      some (crowded.outcomeFound seekers.caller searched wantedLone) :=
    outcome?_eq (by decide) (crowded.outcomeOf seekers.caller searched)
  rw [ran]
  simp only [Except.map, Resolutions.failure?, told, outcome]

end Sample

theorem sample_exceeded_not_examined :
    ∃ result searched, Sample.crowded.Reachable ∧
      make (some Store.Sample.alice) [Sample.wantedLone] { maxSearchCount := 3 } =
        .ok Sample.loneSeeker ∧
      Sample.loneSeeker.resolve.run Sample.crowded = .ok result ∧
      result.outcome? Sample.wantedLone =
        some (.error ⟨Sample.wantedLone, .inaccessible (some Store.Sample.alice)⟩) ∧
      (Search.run (.only [1]) 2 [Store.Sample.target] : Enquiry ResolveError _).run
        Sample.crowded = .ok searched ∧
      searched.limitReached = true ∧
      ∃ source, Sample.crowded.Reaches source Store.Sample.target ∧
        ¬ Search.Examined ((Search.run (.only [1]) 2 [Store.Sample.target] :
          Enquiry ResolveError _).transcript Store.still Sample.crowded) 1 2 source := by
  have reachable : Sample.crowded.Reachable := Store.reachable_run _
  have made : make (some Store.Sample.alice) [Sample.wantedLone] { maxSearchCount := 3 } =
      .ok Sample.loneSeeker := rfl
  rcases exceeded_not_examined reachable made with ⟨cut_off, result, ran, each⟩
  have named : (Sample.crowded.locate? Sample.wantedLone).map Located.reference =
      some Sample.lone := by decide
  rcases Option.map_eq_some_iff.mp named with ⟨located, there, at_lone⟩
  have only : Sample.crowded.lookupTargets ⟨some Store.Sample.alice, false⟩ [Sample.wantedLone] ⊆
      {located.reference} := by
    intro target given
    rcases given with ⟨address, mem, sought⟩
    cases List.mem_singleton.mp mem
    have lone : Sample.crowded.searchTarget? ⟨some Store.Sample.alice, false⟩ Sample.wantedLone =
        some Sample.lone := by decide
    exact (Option.some.inj (sought.symm.trans lone)).trans at_lone.symm
  rcases each Sample.wantedLone List.mem_cons_self rfl located there only with
    ⟨outcome, told, _, inaccessible⟩
  have all : ∀ source, Sample.crowded.Reaches source located.reference →
      Sample.loneSeeker.Examines Sample.crowded source ∧
        Sample.crowded.opens ⟨some Store.Sample.alice, false⟩ source = false := by
    intro source reaches
    rw [at_lone] at reaches
    rw [Sample.eq_lone_of_reaches reaches]
    exact ⟨by decide +kernel, by decide⟩
  have cut : ((Search.run (.only [1]) 2 [Store.Sample.target] : Enquiry ResolveError _).run
      Sample.crowded).map SearchResult.limitReached = .ok true := by decide +kernel
  cases ended : (Search.run (.only [1]) 2 [Store.Sample.target] : Enquiry ResolveError _).run
      Sample.crowded with
  | error error =>
    rw [ended] at cut
    cases cut
  | ok searched =>
    rw [ended] at cut
    have reached : searched.limitReached = true := Except.ok.inj cut
    rcases (cut_off _ _ _ _ ended reached).2 Store.Sample.target (by simp) with
      ⟨source, reaches, unexamined⟩
    exact ⟨result, searched, reachable, made, ran, told.trans (congrArg some (inaccessible all)),
      rfl, reached, source, reaches, unexamined⟩

-- Searched to the end, and reported under the ceiling that the other went over.
theorem sample_exceeded_though_examined :
    Sample.crowded.Reachable ∧
      make (some Store.Sample.alice) [Store.Sample.wanted .lookup, Sample.wantedLone]
        { maxSearchCount := 3 } = .ok Sample.seekers ∧
      (Sample.crowded.locate? Sample.wantedLone).map Located.reference = some Sample.lone ∧
      (∀ source, Sample.crowded.Reaches source Sample.lone →
        Sample.seekers.Examines Sample.crowded source ∧
          Sample.crowded.opens Sample.seekers.caller source = false) ∧
      (((Sample.seekers.search [Store.Sample.target, Sample.lone]).run Sample.crowded).map
          fun searched => (searched.limitReached, searched.paths.get? Sample.lone)) =
        .ok (true, none) ∧
      ((Sample.seekers.resolve.run Sample.crowded).map
          fun result => result.failure? Sample.wantedLone) =
        .ok (some ⟨Sample.wantedLone, .searchLimitExceeded⟩) := by
  refine ⟨Store.reachable_run _, rfl, by decide, ?_, Sample.search_cut_off, Sample.failure_lone⟩
  intro source reaches
  rw [Sample.eq_lone_of_reaches reaches]
  exact ⟨Sample.examines_lone, by decide⟩

end Resolver

end ObjectSpace
