import ObjectSpace.Proofs.Resolution.Links

set_option autoImplicit false

namespace ObjectSpace

namespace Exchange

variable {σ : Type}

def incoming? : Exchange σ → Option (Table Reference (List Reference))
  | ⟨.incomingReferences _, .ok incoming, _⟩ => some incoming
  | _ => none

def states? : Exchange σ → Option (Table Reference ObjectState)
  | ⟨.objectStates _, .ok states, _⟩ => some states
  | _ => none

theorem kinds_cons (exchange : Exchange σ) (later : List (Exchange σ)) :
    kinds (exchange :: later) = exchange.kind :: kinds later := rfl

end Exchange

namespace Search

section Told

variable {σ : Type} (log : List (Exchange σ))

def Reported (referrer reference : Reference) : Prop :=
  ∃ exchange ∈ log, ∃ incoming referrers, exchange.incoming? = some incoming ∧
    incoming.get? reference = some referrers ∧ referrer ∈ referrers

def ReportedLive (reference : Reference) : Prop :=
  ∃ exchange ∈ log, ∃ states state, exchange.states? = some states ∧
    states.get? reference = some state ∧ state.deleted = false ∧ state.workspaceDeleted = false

def fetched : Nat :=
  ((log.filterMap Exchange.incoming?).map fun incoming => incoming.values.flatten.length).sum

structure GenuinePath (readable : ReadableWorkspaces) (targets : List Reference)
    (target : Reference) (path : List Reference) : Prop where
  wanted : target ∈ targets
  ends : path.getLast? = some target
  simple : path.Nodup
  chained : path.IsChain (Reported log)
  starts : ∃ head, path.head? = some head ∧ readable.contains head.workspace = true ∧
    ReportedLive log head

structure GenuineTree (targets : List Reference) (tree : SearchTree) : Prop where
  wanted : tree.target ∈ targets
  ends : ∀ chain ∈ tree.frontier, chain.toList.getLast? = some tree.target
  simple : ∀ chain ∈ tree.frontier, chain.toList.Nodup
  chained : ∀ chain ∈ tree.frontier, chain.toList.IsChain (Reported log)
  inside : ∀ chain ∈ tree.frontier, ∀ reference ∈ chain.toList,
    reference = tree.target ∨ reference ∈ tree.found

def GenuinePaths (readable : ReadableWorkspaces) (targets : List Reference)
    (result : SearchResult) : Prop :=
  ∀ target path, result.paths.get? target = some path →
    GenuinePath log readable targets target path

structure Trusted (readable : ReadableWorkspaces) (targets : List Reference)
    (trees : List SearchTree) (result : SearchResult) : Prop where
  growing : ∀ tree ∈ trees, GenuineTree log targets tree
  paths : GenuinePaths log readable targets result

end Told

variable {σ : Type} {log longer : List (Exchange σ)} {readable : ReadableWorkspaces}
variable {targets : List Reference}

theorem fetched_answered (frontier : List Reference) (incoming : Table Reference (List Reference))
    (state : σ) (later : List (Exchange σ)) :
    fetched (⟨.incomingReferences frontier, .ok incoming, state⟩ :: later) =
      incoming.values.flatten.length + fetched later := by
  simp [fetched, Exchange.incoming?]

theorem fetched_append (before after : List (Exchange σ)) :
    fetched (before ++ after) = fetched before + fetched after := by
  simp [fetched, List.filterMap_append]

section Longer

variable (within : log ⊆ longer)

include within

theorem Reported.mono {referrer reference : Reference}
    (reported : Reported log referrer reference) :
    Reported longer referrer reference := by
  rcases reported with ⟨exchange, mem, told⟩
  exact ⟨exchange, within mem, told⟩

theorem GenuinePath.mono {target : Reference} {path : List Reference}
    (genuine : GenuinePath log readable targets target path) :
    GenuinePath longer readable targets target path := by
  refine { genuine with chained := ?_, starts := ?_ }
  next => exact genuine.chained.imp fun _ _ => Reported.mono within
  next =>
    rcases genuine.starts with ⟨head, first, admitted, exchange, mem, live⟩
    exact ⟨head, first, admitted, exchange, within mem, live⟩

theorem GenuinePaths.mono {result : SearchResult}
    (genuine : GenuinePaths log readable targets result) :
    GenuinePaths longer readable targets result :=
  fun target path found => (genuine target path found).mono within

end Longer

section Level

variable {incoming : Table Reference (List Reference)} {isTerminal : Reference → Bool}
variable {trees : List SearchTree} {result : SearchResult}

variable (told : ∀ referrer reference referrers, incoming.get? reference = some referrers →
  referrer ∈ referrers → Reported longer referrer reference)

include told

theorem GenuineTree.ascended {tree : SearchTree} (genuine : GenuineTree log targets tree)
    (within : log ⊆ longer) : GenuineTree longer targets (tree.ascended incoming) := by
  have step : ∀ chain ∈ tree.ascents incoming, ∃ before ∈ tree.frontier,
      chain.toList = chain.source :: before.toList ∧
        Reported longer chain.source before.source ∧
        ¬ (chain.source = tree.target ∨ chain.source ∈ tree.found) := by
    intro chain mem
    rcases SearchTree.mem_ascents mem with
      ⟨before, on_frontier, referrers, answered, listed, same, new⟩
    refine ⟨before, on_frontier, ?_, told _ _ _ answered listed, new⟩
    rw [same]
    rfl
  constructor
  next => exact genuine.wanted
  next =>
    intro chain mem
    rcases step chain mem with ⟨before, on_frontier, same, _⟩
    have ends := genuine.ends before on_frontier
    rw [same, List.getLast?_cons_of_ne_nil (by simp [Chain.toList]), ends]
    rfl
  next =>
    intro chain mem
    rcases step chain mem with ⟨before, on_frontier, same, _, new⟩
    rw [same, List.nodup_cons]
    exact ⟨fun again => new (genuine.inside before on_frontier _ again),
      genuine.simple before on_frontier⟩
  next =>
    intro chain mem
    rcases step chain mem with ⟨before, on_frontier, same, reported, _⟩
    have chained := (genuine.chained before on_frontier).imp fun _ _ => Reported.mono within
    rw [same]
    exact .cons_cons reported chained
  next =>
    intro chain mem reference inside
    rcases step chain mem with ⟨before, on_frontier, same, _⟩
    rw [same] at inside
    have known : ∀ other ∈ tree.ascents incoming,
        other.source ∈ (tree.ascended incoming).found := by
      intro other listed
      simpa [SearchTree.ascended] using .inl ⟨other, listed, rfl⟩
    rcases List.mem_cons.mp inside with rfl | onward
    next => exact .inr (known chain mem)
    next =>
      rcases genuine.inside before on_frontier reference onward with target | found
      next => exact .inl target
      next => exact .inr (List.mem_append_right _ found)

theorem Trusted.grown (trusted : Trusted log readable targets trees result)
    (within : log ⊆ longer)
    (live : ∀ reference, isTerminal reference = true →
      readable.contains reference.workspace = true ∧ ReportedLive longer reference) :
    Trusted longer readable targets (growAll incoming isTerminal trees result).1
      (growAll incoming isTerminal trees result).2 := by
  constructor
  next =>
    intro grown mem
    rcases mem_growAll incoming isTerminal mem with ⟨tree, listed, rfl, _⟩
    exact (trusted.growing tree listed).ascended told within
  next =>
    intro target path found
    rcases growAll_path incoming isTerminal found with
      before | ⟨tree, mem, rfl, chain, kept, terminal, rfl⟩
    next => exact (trusted.paths target path before).mono within
    next =>
      have reached := (trusted.growing tree mem).ascended told within
      constructor
      next => exact reached.wanted
      next => exact reached.ends chain kept
      next => exact reached.simple chain kept
      next => exact reached.chained chain kept
      next => exact ⟨chain.source, rfl, live chain.source terminal⟩

end Level

section Climb

variable {ε : Type} [OfStoreError ε] {respond : Responder σ} {state after : σ}
variable {limit count : Nat} {trees : List SearchTree} {result : SearchResult}
variable {outcome : Except ε SearchResult}

variable (ε) in
theorem statesOf_cases (references : List Reference) (respond : Responder σ) (state : σ) :
    ((statesOf references : Enquiry ε _).transcript respond state = [] ∧
      (statesOf references : Enquiry ε _).runWith respond state = (.ok .empty, state)) ∨
    ∃ exchange, (statesOf references : Enquiry ε _).transcript respond state = [exchange] ∧
      exchange.kind = .objectStates ∧ exchange.incoming? = none ∧
      ∀ states between, (statesOf references : Enquiry ε _).runWith respond state =
        (.ok states, between) → exchange.states? = some states := by
  by_cases none : references = []
  next => exact .inl (by simp [statesOf, none]; exact ⟨rfl, rfl⟩)
  next =>
    refine .inr ⟨⟨.objectStates references, (respond (.objectStates references) state).1,
      (respond (.objectStates references) state).2⟩, ?_, rfl, ?_, ?_⟩
    next =>
      rw [statesOf, if_neg none]
      exact Enquiry.transcript_query _ _
    next => simp [Exchange.incoming?]
    next =>
      intro states between ran
      simp only [statesOf, none, if_false] at ran
      cases replied : respond (.objectStates references) state with
      | mk reply after =>
        cases reply with
        | error fault => simp [Enquiry.query, Enquiry.runWith, replied] at ran
        | ok answer =>
          simp only [Enquiry.query, Enquiry.runWith, replied, Prod.mk.injEq, Except.ok.injEq]
            at ran
          simp [Exchange.states?, ran.1]

variable (ε) in
theorem asks_statesOf (references : List Reference) (respond : Responder σ) (state : σ) :
    (Exchange.kinds ((statesOf references : Enquiry ε _).transcript respond state)).count
      .incomingReferences = 0 := by
  rcases statesOf_cases ε references respond state with none | some
  next => simp [none.1]
  next =>
    rcases some with ⟨exchange, told, kind, _⟩
    simp [told, Exchange.kinds_cons, kind]

variable (ε) in
theorem fetched_statesOf (references : List Reference) (respond : Responder σ) (state : σ) :
    fetched ((statesOf references : Enquiry ε _).transcript respond state) = 0 := by
  rcases statesOf_cases ε references respond state with none | some
  next => simp [none.1, fetched]
  next =>
    rcases some with ⟨exchange, told, _, silent, _⟩
    simp [told, fetched, silent]

variable (ε) in
theorem statesOf_split {references : List Reference} {before rest later : List (Exchange σ)}
    {exchange : Exchange σ}
    (split : (statesOf references : Enquiry ε _).transcript respond state ++ rest =
      before ++ exchange :: later) (asked : exchange.kind = .incomingReferences) :
    ∃ front, before = (statesOf references : Enquiry ε _).transcript respond state ++ front ∧
      rest = front ++ exchange :: later := by
  rcases statesOf_cases ε references respond state with none | some
  next =>
    rw [none.1] at split ⊢
    exact ⟨before, rfl, split⟩
  next =>
    rcases some with ⟨question, told, kind, _⟩
    rw [told] at split ⊢
    cases before with
    | nil =>
      cases split
      rw [kind] at asked
      cases asked
    | cons first front =>
      cases split
      exact ⟨front, rfl, rfl⟩

theorem Trusted.level (frontier : List Reference) {references : List Reference} {between : σ}
    {incoming : Table Reference (List Reference)} {states : Table Reference ObjectState}
    (trusted : Trusted log readable targets trees result)
    (told : (statesOf references : Enquiry ε _).runWith respond after = (.ok states, between)) :
    Trusted (log ++ ⟨.incomingReferences frontier, .ok incoming, after⟩ ::
        (statesOf references : Enquiry ε _).transcript respond after) readable targets
      (growAll incoming (isTerminal readable states) trees result).1
      (growAll incoming (isTerminal readable states) trees result).2 := by
  apply trusted.grown
  next =>
    intro referrer reference referrers answered listed
    exact ⟨⟨.incomingReferences frontier, .ok incoming, after⟩, by simp, incoming, referrers, rfl,
      answered, listed⟩
  next => exact List.subset_append_left _ _
  next =>
    intro reference terminal
    simp only [isTerminal, Bool.and_eq_true, Option.any_eq_true, Bool.not_eq_true'] at terminal
    rcases terminal with ⟨admitted, state, shown, live⟩
    refine ⟨admitted, ?_⟩
    rcases statesOf_cases ε references respond after with none | some
    next =>
      cases none.2.symm.trans told
      cases shown
    next =>
      rcases some with ⟨exchange, asked, _, _, answer⟩
      exact ⟨exchange, by simp [asked], states, state, answer states between told, shown, live⟩

namespace Climb

theorem log_eq_nil (climb : Climb respond readable limit count trees result state log outcome)
    (none : trees = []) : log = [] := by
  cases climb with
  | done => rfl
  | unanswered some_tree | exceeded some_tree | unjudged some_tree | level some_tree =>
    exact absurd none some_tree

theorem asks (climb : Climb respond readable limit count trees result state log outcome)
    (below : count ≤ limit) :
    (Exchange.kinds log).count .incomingReferences ≤ limit + 1 - count := by
  induction climb with
  | done => simp
  | unanswered | exceeded =>
    simp only [Exchange.kinds_cons, Exchange.kind, Query.kind, Exchange.kinds_nil,
      List.count_cons_self, List.count_nil]
    omega
  | unjudged =>
    simp only [Exchange.kinds_cons, Exchange.kind, Query.kind, List.count_cons_self,
      asks_statesOf]
    omega
  | @level count trees result state after between incoming states later outcome some_tree asked
      within told onward ih =>
    have rest := ih within
    simp only [Exchange.kinds_cons, Exchange.kind, Query.kind, List.count_cons_self,
      Exchange.kinds_append, List.count_append, asks_statesOf]
    by_cases left : (growAll incoming (isTerminal readable states) trees result).1 = []
    next =>
      rw [onward.log_eq_nil left, Exchange.kinds_nil, List.count_nil]
      omega
    next =>
      have counts := growAll_counts incoming _ left
      omega

theorem genuine (climb : Climb respond readable limit count trees result state log outcome)
    (past : List (Exchange σ)) (trusted : Trusted past readable targets trees result)
    {searched : SearchResult} (ended : outcome = .ok searched) :
    GenuinePaths (past ++ log) readable targets searched := by
  induction climb generalizing past with
  | done =>
    cases ended
    exact trusted.paths.mono (List.subset_append_left _ _)
  | unanswered => cases ended
  | exceeded =>
    cases ended
    exact trusted.paths.mono (List.subset_append_left _ _)
  | unjudged => cases ended
  | @level count trees result state after between incoming states rest outcome some_tree asked
      within told onward ih =>
    have later := ih _ (trusted.level (frontierOf trees) told) ended
    simpa only [List.append_assoc, List.cons_append] using later

theorem counted (climb : Climb respond readable limit count trees result state log outcome)
    (past : List (Exchange σ)) (trusted : Trusted past readable targets trees result)
    (below : count ≤ limit) {before later : List (Exchange σ)} {exchange : Exchange σ}
    (split : log = before ++ exchange :: later) (asked : exchange.kind = .incomingReferences) :
    count + fetched (before ++ [exchange]) ≤ limit ∨
      later = [] ∧ ∃ searched, outcome = .ok searched ∧ searched.limitReached = true ∧
        GenuinePaths (past ++ before) readable targets searched := by
  induction climb generalizing past before with
  | done => simp at split
  | unanswered =>
    cases before with
    | nil =>
      cases split
      exact .inl below
    | cons first front => simp at split
  | exceeded =>
    cases before with
    | nil =>
      cases split
      refine .inr ⟨rfl, _, rfl, rfl, ?_⟩
      rw [List.append_nil]
      exact trusted.paths
    | cons first front => simp at split
  | @unjudged count trees result state after between incoming error some_tree _ within =>
    cases before with
    | nil =>
      cases split
      exact .inl within
    | cons first front =>
      rcases List.cons.inj split with ⟨_, onward⟩
      rw [← List.append_nil (Enquiry.transcript _ _ _)] at onward
      rcases statesOf_split ε onward asked with ⟨_, _, none⟩
      simp at none
  | @level count trees result state after between incoming states rest outcome some_tree _
      within told onward ih =>
    cases before with
    | nil =>
      cases split
      exact .inl within
    | cons first front =>
      rcases List.cons.inj split with ⟨rfl, tail⟩
      rcases statesOf_split ε tail asked with ⟨front, rfl, further⟩
      have later := ih _ (trusted.level (frontierOf trees) told) within further
      simp only [List.cons_append, List.append_assoc] at later ⊢
      rcases later with more | last
      next =>
        left
        rw [fetched_answered, fetched_append, fetched_statesOf]
        omega
      next => exact .inr last

end Climb

end Climb

section Run

variable {ε : Type} [OfStoreError ε]

theorem trusted_planted (targets : List Reference) :
    Trusted ([] : List (Exchange σ)) readable targets (planted targets) {} := by
  constructor
  next =>
    intro tree mem
    rcases List.mem_map.mp mem with ⟨target, listed, rfl⟩
    have wanted : target ∈ targets := by simpa [List.mem_eraseDups] using listed
    constructor <;> simp [SearchTree.ofTarget, Chain.toList, wanted]
  next =>
    intro target path found
    cases found

variable (ε) in
theorem run_cases (readable : ReadableWorkspaces) (limit : Nat) (targets : List Reference)
    (respond : Responder σ) (state : σ) :
    (∃ reached, (Search.run readable limit targets : Enquiry ε _) =
      pure { limitReached := reached }) ∨
    0 < targets.eraseDups.length ∧ targets.eraseDups.length ≤ limit ∧
      Climb respond readable limit targets.eraseDups.length (planted targets) {} state
        ((Search.run readable limit targets : Enquiry ε _).transcript respond state)
        ((Search.run readable limit targets : Enquiry ε _).runWith respond state).1 := by
  by_cases nothing : targets = [] ∨ readable.isEmpty = true
  next => exact .inl ⟨false, run_nothing nothing⟩
  next =>
    simp only [not_or, Bool.not_eq_true] at nothing
    by_cases exceeds : limit < targets.eraseDups.length
    next => exact .inl ⟨true, run_over nothing.1 nothing.2 exceeds⟩
    next =>
      have within : targets.eraseDups.length ≤ limit := by omega
      exact .inr ⟨eraseDups_pos nothing.1, within, climb_run nothing.1 nothing.2 within⟩

theorem run_genuine (readable : ReadableWorkspaces) (limit : Nat) (targets : List Reference)
    (respond : Responder σ) (state : σ) :
    let search : Enquiry ε SearchResult := Search.run readable limit targets
    let log := search.transcript respond state
    (∀ rounds, limit < rounds → LinkedSearch.run readable limit rounds targets =
      search >>= fun searched => pure (some searched)) ∧
    (Exchange.kinds log).count .incomingReferences ≤ limit ∧
    (∀ before exchange later, log = before ++ exchange :: later →
      exchange.kind = .incomingReferences →
        targets.eraseDups.length + fetched (before ++ [exchange]) ≤ limit ∨
          later = [] ∧ ∃ searched, (search.runWith respond state).1 = .ok searched ∧
            searched.limitReached = true ∧ GenuinePaths before readable targets searched) ∧
    ∀ searched, (search.runWith respond state).1 = .ok searched →
      GenuinePaths log readable targets searched := by
  intro search log
  refine ⟨fun rounds long => LinkedSearch.run_eq readable long targets, ?_⟩
  rcases run_cases ε readable limit targets respond state with silent | climbs
  next =>
    rcases silent with ⟨reached, nothing⟩
    have none : log = [] := congrArg (Enquiry.transcript respond · state) nothing
    rw [none]
    refine ⟨by simp, by simp, ?_⟩
    intro searched ran target path found
    rw [show search = _ from nothing] at ran
    cases ran
    cases found
  next =>
    rcases climbs with ⟨positive, within, climb⟩
    have trusted : Trusted ([] : List (Exchange σ)) readable targets (planted targets) {} :=
      trusted_planted targets
    refine ⟨(climb.asks within).trans (by omega), ?_, ?_⟩
    next =>
      intro before exchange later split asked
      exact climb.counted [] trusted within split asked
    next =>
      intro searched ran
      exact climb.genuine [] trusted ran

namespace Sample

open Store.Sample (target middle root)

-- The middle refers to everything, itself included.
def turning : Responder Nat
  | .incomingReferences references, asked =>
    (.ok (Table.tabulate references fun _ => if asked = 0 then [middle] else [root]), asked + 1)
  | .objectStates references, asked =>
    (.ok (Table.tabulate references fun reference =>
      { name := "round", deleted := reference ≠ root, workspaceDeleted := false }), asked)
  | query, asked => (Store.sample.answer query, asked)

end Sample

theorem sample_run_genuine :
    let search : Enquiry ResolveError SearchResult := Search.run .all 3 [Store.Sample.target]
    let log := search.transcript Sample.turning 0
    ∃ searched path, (search.runWith Sample.turning 0).1 = .ok searched ∧
      searched.paths.get? Store.Sample.target = some path ∧
      path = [Store.Sample.root, Store.Sample.middle, Store.Sample.target] ∧
      GenuinePath log .all [Store.Sample.target] Store.Sample.target path ∧
      (Exchange.kinds log).count .incomingReferences ≤ 3 := by
  intro search log
  have found : ((search.runWith Sample.turning 0).1.toOption.bind fun searched =>
      searched.paths.get? Store.Sample.target) =
        some [Store.Sample.root, Store.Sample.middle, Store.Sample.target] := by
    decide +kernel
  rcases Option.bind_eq_some_iff.mp found with ⟨searched, ended, path⟩
  have ran := toOption_eq_some_iff.mp ended
  have all := @run_genuine Nat ResolveError _ .all 3 [Store.Sample.target] Sample.turning 0
  exact ⟨searched, _, ran, path, rfl, all.2.2.2 searched ran _ _ path, all.2.1⟩

end Run

end Search

end ObjectSpace
