import ObjectSpace.Proofs.Resolution.Outcomes
import ObjectSpace.Proofs.Store.Permanence

set_option autoImplicit false

namespace ObjectSpace

structure Located.Same (left right : Located) : Prop where
  workspace : left.address.workspace = right.address.workspace
  reference : left.reference = right.reference
  object : left.object = right.object

theorem Located.Same.shown_eq {left right : Located} (same : left.Same right) :
    left.shown = right.shown := by
  simp only [Located.shown, same.workspace, same.reference, same.object]

namespace Store

variable {store : Store} {caller : Caller} {address other : Address} {reference : Reference}

structure Designates (store : Store) (address : Address) (reference : Reference) : Prop where
  workspace : address.workspace = .id reference.workspace ∨
    ∃ record, store.workspaces.get? reference.workspace = some record ∧
      address.workspace = .name record.name
  object : ∃ object, store.object? reference = some object ∧
    address.object.Names reference.object object.name ∧
    (address.version = some reference.version ∨
      address.version = none ∧ reference.version = object.latestVersion)

def Synonyms (store : Store) (address other : Address) : Prop :=
  ∃ reference, store.Designates address reference ∧ store.Designates other reference

-- Selections and the hops' own locators do not count.
structure SpelledAlike (store : Store) (address other : Address) : Prop where
  path : address.hasPath = other.hasPath
  lookup : address.isLookup = other.isLookup
  head : store.Synonyms address other
  hops : List.Forall₂ store.Synonyms address.hops other.hops

theorem Designates.locate? (consistent : store.Consistent)
    (designates : store.Designates address reference) :
    ∃ located, store.locate? address = some located ∧ located.reference = reference := by
  rcases designates with ⟨in_workspace, object, held, names, numbered⟩
  rcases object?_eq_some.mp held with ⟨record, found, present, stored⟩
  have denotes : address.Denotes store ⟨reference, object.name, []⟩ := ⟨in_workspace, names⟩
  have resolved := workspace?_of_denotes consistent found denotes
  have known : record.objectId? address.object = some reference.object :=
    (consistent.records _ _ found).objectId?_of_names present names
  have version : address.version.getD object.latestVersion = reference.version := by
    rcases numbered with pinned | ⟨unpinned, latest⟩
    next => rw [pinned, Option.getD_some]
    next => rw [unpinned, Option.getD_none, latest]
  have answered : store.stored? (address.resolveIn (record.shown reference.workspace)) =
      some (reference, object) := by
    simp [stored?, Address.resolveIn, WorkspaceRecord.shown, found, known, present, version, stored,
      Reference.ofParts_parts, Except.toOption]
  refine ⟨⟨address.resolveIn (record.shown reference.workspace), reference, object⟩, ?_, rfl⟩
  rw [Store.locate?, resolved, Option.bind_some, locateIn?, answered]
  rfl

theorem same_of_reference_eq {left right : Located} (found : store.locate? address = some left)
    (found' : store.locate? other = some right) (agree : left.reference = right.reference) :
    left.Same right := by
  rcases locate?_eq_some found with ⟨workspace, resolved, inside⟩
  rcases locate?_eq_some found' with ⟨workspace', resolved', inside'⟩
  rcases workspace?_eq_some resolved with ⟨record, _, present, shown⟩
  rcases workspace?_eq_some resolved' with ⟨record', _, present', shown'⟩
  rcases locateIn?_object inside with ⟨in_workspace, held⟩
  rcases locateIn?_object inside' with ⟨in_workspace', held'⟩
  have ids : workspace.id = workspace'.id :=
    in_workspace.symm.trans ((congrArg Reference.workspace agree).trans in_workspace')
  have workspaces : workspace = workspace' := by
    rw [ids] at present
    cases present.symm.trans present'
    rw [shown, shown', ids]
  rw [agree] at held
  refine ⟨?_, agree, Option.some.inj (held.symm.trans held')⟩
  rw [(locateIn?_eq_some inside).1, (locateIn?_eq_some inside').1]
  exact workspaces

theorem Synonyms.locate? (consistent : store.Consistent)
    (synonyms : store.Synonyms address other) :
    ∃ left right, store.locate? address = some left ∧ store.locate? other = some right ∧
      left.Same right := by
  rcases synonyms with ⟨reference, designates, designates'⟩
  rcases designates.locate? consistent with ⟨left, found, here⟩
  rcases designates'.locate? consistent with ⟨right, found', there⟩
  exact ⟨left, right, found, found', same_of_reference_eq found found' (here.trans there.symm)⟩

theorem accepts_same {left right : Located} (same : left.Same right) (previous : Reference) :
    store.accepts caller previous left = store.accepts caller previous right := by
  simp only [accepts, same.workspace, same.reference, same.object]

def arrival (walk : Located × List Reference) : ResolvedObject × List Reference :=
  (walk.1.shown, walk.2)

theorem walkAlone_toOption_cons {index position : Nat} {holder hop : Address}
    {previous next : Located} {rest : List Address} (found : store.locate? hop = some next) :
    (store.walkAlone caller index position holder previous (hop :: rest)).toOption.map arrival =
      if store.accepts caller previous.reference next then
        ((store.walkAlone caller index (position + 1) hop next rest).toOption.map arrival).map
          fun onward => (onward.1, next.reference :: onward.2)
      else none := by
  simp only [walkAlone, found]
  cases accepted : store.accepts caller previous.reference next with
  | false => simp [Option.filter, accepted, Except.toOption]
  | true =>
    simp only [Option.filter, accepted, if_true]
    cases store.walkAlone caller index (position + 1) hop next rest <;> rfl

theorem walkAlone_same (consistent : store.Consistent) {index position : Nat}
    {holder holder' : Address} {first second : Located} {hops hops' : List Address}
    (synonyms : List.Forall₂ store.Synonyms hops hops') (same : first.Same second) :
    (store.walkAlone caller index position holder first hops).toOption.map arrival =
      (store.walkAlone caller index position holder' second hops').toOption.map arrival := by
  induction synonyms generalizing position holder holder' first second with
  | nil => exact congrArg (fun shown => some (shown, [])) same.shown_eq
  | cons alike _ ih =>
    rcases alike.locate? consistent with ⟨left, right, found, found', agree⟩
    rw [walkAlone_toOption_cons found, walkAlone_toOption_cons found', accepts_same agree,
      same.reference, agree.reference, ih agree]

theorem headAlone_toOption {located : Located} (found : store.locate? address = some located) :
    (store.headAlone caller address).toOption =
      if store.mayRead caller located.address.workspace ∧ located.object.deleted = false then
        some located
      else none := by
  rcases locate?_eq_some found with ⟨workspace, resolved, inside⟩
  have here : located.address.workspace = workspace := by
    rw [(locateIn?_eq_some inside).1]
    rfl
  rw [here]
  cases readable : store.mayRead caller workspace with
  | true =>
    simp only [headAlone, workspaceAlone_of_mayRead resolved readable, startIn, inside, true_and]
    cases located.object.deleted <;> rfl
  | false =>
    cases entered : store.workspaceAlone caller address with
    | error cause => simp [headAlone, entered, Except.toOption]
    | ok other =>
      rcases workspaceAlone_ok entered with ⟨resolved', readable'⟩
      cases resolved.symm.trans resolved'
      simp [readable] at readable'

theorem headAlone_same (consistent : store.Consistent) (synonyms : store.Synonyms address other)
    (caller : Caller) : Option.Rel Located.Same
      (store.headAlone caller address).toOption (store.headAlone caller other).toOption := by
  rcases synonyms.locate? consistent with ⟨left, right, found, found', same⟩
  rw [headAlone_toOption found, headAlone_toOption found', same.workspace, same.object]
  split
  next => exact .some same
  next => exact .none

theorem outcomeAlone_toOption (store : Store) (caller : Caller) (index : Nat) (address : Address) :
    (store.outcomeAlone caller index address).toOption =
      (store.headAlone caller address).toOption.bind fun head =>
        ((store.walkAlone caller index 1 address head address.hops).toOption.map arrival).map
          fun onward =>
            { kind := if address.hasPath then .path else .direct
              object := onward.1
              path := head.reference :: onward.2 } := by
  simp only [outcomeAlone]
  cases store.headAlone caller address with
  | error cause => rfl
  | ok head =>
    simp only [Except.toOption, Option.bind_some]
    cases store.walkAlone caller index 1 address head address.hops <;> rfl

theorem outcomeAlone_same (consistent : store.Consistent)
    (alike : store.SpelledAlike address other) (index : Nat) :
    (store.outcomeAlone caller index address).toOption =
      (store.outcomeAlone caller index other).toOption := by
  rw [outcomeAlone_toOption, outcomeAlone_toOption, alike.path]
  have heads := headAlone_same consistent alike.head caller
  generalize (store.headAlone caller address).toOption = head at heads ⊢
  generalize (store.headAlone caller other).toOption = head' at heads ⊢
  cases heads with
  | none => rfl
  | some same =>
    rw [Option.bind_some, Option.bind_some, walkAlone_same consistent alike.hops same,
      same.reference]

theorem outcomeFound_toOption {located : Located} (found : store.locate? address = some located)
    (searched : SearchResult) :
    (store.outcomeFound caller searched address).toOption =
      (if store.opens caller located.reference then some [located.reference]
        else searched.paths.get? located.reference).map fun path =>
          { kind := .path, object := located.shown, path } := by
  simp only [outcomeFound, found]
  cases store.opens caller located.reference with
  | true => rfl
  | false =>
    simp only [Bool.false_eq_true, if_false]
    cases searched.paths.get? located.reference with
    | some path => rfl
    | none => cases searched.limitReached <;> rfl

theorem outcomeOf_same (consistent : store.Consistent)
    (alike : store.SpelledAlike address other) (searched : SearchResult) (index : Nat) :
    (store.outcomeOf caller searched index address).toOption =
      (store.outcomeOf caller searched index other).toOption := by
  simp only [outcomeOf, alike.lookup]
  split
  next =>
    rcases alike.head.locate? consistent with ⟨left, right, found, found', same⟩
    rw [outcomeFound_toOption found, outcomeFound_toOption found', same.reference, same.shown_eq]
  next => exact outcomeAlone_same consistent alike index

theorem searchTarget?_same (consistent : store.Consistent)
    (alike : store.SpelledAlike address other) :
    store.searchTarget? caller address = store.searchTarget? caller other := by
  rcases alike.head.locate? consistent with ⟨left, right, found, found', same⟩
  simp only [searchTarget?, alike.lookup, found, found', Option.map_some, same.reference]

namespace Sample

def respelled : Address :=
  .mk { workspace := .id 1, object := .id 1, version := some 1, subset := { paths := ["/x"] } }
    (.path [naming "hidden" "middle" .lookup,
      .mk { workspace := .id 2, object := .id 1, version := some 1, subset := {} }
        (.path [walk])])

theorem designates_naming {workspace object : String} {locator : Locator Address}
    {reference : Reference} {record : WorkspaceRecord} {entry : ObjectRecord}
    (found : sample.workspaces.get? reference.workspace = some record)
    (held : sample.object? reference = some entry) (called : record.name = workspace)
    (named : entry.name = object) (latest : reference.version = entry.latestVersion) :
    sample.Designates (naming workspace object locator) reference :=
  ⟨.inr ⟨record, found, called ▸ rfl⟩, entry, held, named.symm, .inr ⟨rfl, latest⟩⟩

theorem spelledAlike_respelled : sample.SpelledAlike walk respelled := by
  have by_name {locator : Locator Address} :
      sample.Designates (naming "hidden" "middle" locator) middle :=
    designates_naming rfl rfl rfl rfl rfl
  refine ⟨rfl, rfl, ⟨root, designates_naming rfl rfl rfl rfl rfl, ?_⟩,
    .cons ⟨middle, by_name, by_name⟩
      (.cons ⟨target, designates_naming rfl rfl rfl rfl rfl, ?_⟩ .nil)⟩
  next => exact ⟨.inl rfl, _, rfl, rfl, .inl rfl⟩
  next => exact ⟨.inl rfl, _, rfl, rfl, .inl rfl⟩

end Sample

end Store

namespace Resolver

variable {store : Store} {user : Option User} {address other : Address} {config : ResolverConfig}
variable {resolver resolver' : Resolver}

theorem run_alone (consistent : store.Consistent) (user : Option User) (config : ResolverConfig)
    (alike : store.SpelledAlike address other) :
    ∃ searched, (Resolver.mk user [address] config).resolve.run store =
        .ok ((Resolver.mk user [address] config).outcomesOf store searched) ∧
      (Resolver.mk user [other] config).resolve.run store =
        .ok ((Resolver.mk user [other] config).outcomesOf store searched) := by
  have same : (Resolver.mk user [other] config).sought store =
      (Resolver.mk user [address] config).sought store := by
    simp only [sought, caller, List.filterMap_cons, List.filterMap_nil,
      Store.searchTarget?_same consistent alike]
  rcases resolve_searched consistent (Resolver.mk user [address] config) with
    ⟨searched, found, _, ran⟩
  rcases resolve_searched consistent (Resolver.mk user [other] config) with
    ⟨searched', found', _, ran'⟩
  rw [same] at found'
  cases found.symm.trans found'
  exact ⟨searched, ran, ran'⟩

theorem resolves_by_coordinates (reachable : store.Reachable)
    (alike : store.SpelledAlike address other)
    (made : make user [address] config = .ok resolver)
    (made' : make user [other] config = .ok resolver') :
    ∃ result result' outcome outcome', resolver.resolve.run store = .ok result ∧
      resolver'.resolve.run store = .ok result' ∧
      result.outcome? address = some outcome ∧ result'.outcome? other = some outcome' ∧
      outcome.toOption = outcome'.toOption := by
  have consistent := reachable.consistent
  obtain rfl := make_eq_ok made
  obtain rfl := make_eq_ok made'
  rcases run_alone consistent user config alike with ⟨searched, ran, ran'⟩
  refine ⟨_, _, _, _, ran, ran', outcome?_eq List.mem_cons_self _,
    outcome?_eq List.mem_cons_self _, ?_⟩
  simp only [List.idxOf_cons_self]
  exact Store.outcomeOf_same consistent alike searched 1

theorem sample_resolves_by_coordinates :
    ∃ resolver resolver' result result', Store.sample.Reachable ∧
      Store.sample.SpelledAlike Store.Sample.walk Store.Sample.respelled ∧
      make (some Store.Sample.alice) [Store.Sample.walk] {} = .ok resolver ∧
      make (some Store.Sample.alice) [Store.Sample.respelled] {} = .ok resolver' ∧
      resolver.resolve.run Store.sample = .ok result ∧
      resolver'.resolve.run Store.sample = .ok result' ∧
      result.resolution? Store.Sample.walk = some Store.Sample.walked ∧
      result'.resolution? Store.Sample.respelled = some Store.Sample.walked := by
  have made : make (some Store.Sample.alice) [Store.Sample.walk] {} = .ok _ := rfl
  have made' : make (some Store.Sample.alice) [Store.Sample.respelled] {} = .ok _ := rfl
  rcases resolves_by_coordinates Store.reachable_sample Store.Sample.spelledAlike_respelled made
    made' with ⟨result, result', outcome, outcome', ran, ran', there, there', same⟩
  have alone : Store.sample.outcomeAlone ⟨some Store.Sample.alice, false⟩ 1 Store.Sample.walk =
      .ok Store.Sample.walked := by decide
  have first : result.outcome? Store.Sample.walk = some (.ok Store.Sample.walked) := by
    rcases resolve_ok Store.reachable_sample.consistent made with ⟨searched, _, found⟩
    cases ran.symm.trans found
    exact congrArg some alone
  cases there.symm.trans first
  have second := toOption_eq_some_iff.mp same.symm
  refine ⟨_, _, result, result', Store.reachable_sample, Store.Sample.spelledAlike_respelled, made,
    made', ran, ran', ?_, ?_⟩
  next => rw [Resolutions.resolution?, first]
  next => rw [Resolutions.resolution?, there', second]

end Resolver

end ObjectSpace
