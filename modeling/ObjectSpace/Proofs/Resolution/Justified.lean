import ObjectSpace.Proofs.Resolution.Lookups
import ObjectSpace.Proofs.Store.Growth

set_option autoImplicit false

namespace ObjectSpace

-- World access counts for direct addresses and paths, not for lookups.
def WorkspaceRecord.startPermission (record : WorkspaceRecord) (user : Option User)
    (address : Address) : Permission :=
  if address.isLookup then record.userPermission user else (record.grant user).effective

namespace Store

def ReadableBy (store : Store) (permission : WorkspaceRecord → Permission)
    (reference : Reference) : Prop :=
  ∃ record object, store.workspaces.get? reference.workspace = some record ∧
    record.deleted = false ∧ .read ≤ permission record ∧
    store.object? reference = some object ∧ object.deleted = false

def JustifiedStep (store : Store) (user : Option User) (address : Address)
    (previous next : Reference) : Prop :=
  store.holds next = true ∧
    ((∃ references, store.references? previous = some references ∧ next ∈ references) ∨
      address.hasPath = true ∧ store.ReadableBy (fun record => (record.grant user).effective) next)

structure Justified (store : Store) (user : Option User) (address : Address)
    (resolution : Resolution) : Prop where
  last : resolution.path.getLast? = some resolution.object.reference
  first : ∃ first, resolution.path.head? = some first ∧
    store.ReadableBy (fun record => record.startPermission user address) first
  steps : resolution.path.IsChain (store.JustifiedStep user address)
  direct : address.isLookup = false → address.hasPath = false →
    resolution.kind = .direct ∧ resolution.path.length = 1
  otherwise : address.isLookup = true ∨ address.hasPath = true → resolution.kind = .path

variable {store : Store} {user : Option User} {address : Address}

theorem opens_readable {reference : Reference}
    (opened : store.opens ⟨user, false⟩ reference = true) :
    store.ReadableBy (fun record => record.userPermission user) reference := by
  simp only [opens, Option.any_eq_true, Bool.and_eq_true, Bool.or_eq_true, Bool.not_eq_true',
    decide_eq_true_eq, Bool.false_eq_true, false_or] at opened
  obtain ⟨record, present, ⟨live, granted⟩, object, held, kept⟩ := opened
  exact ⟨record, object, present, live, granted, held, kept⟩

theorem mayRead_readable {key : WorkspaceKey} {located : Located}
    (resolved : store.workspace? key = some located.address.workspace)
    (found : store.locateIn? located.address = some located)
    (readable : store.mayRead ⟨user, false⟩ located.address.workspace = true)
    (kept : located.object.deleted = false) :
    store.ReadableBy (fun record => (record.grant user).effective) located.reference := by
  obtain ⟨record, _, present, shown⟩ := workspace?_eq_some resolved
  obtain ⟨in_workspace, held⟩ := locateIn?_object found
  simp only [mayRead, available, grantOn, present, Bool.and_eq_true, Bool.not_eq_true',
    Bool.false_or, decide_eq_true_eq] at readable
  refine ⟨record, located.object, in_workspace ▸ present, ?_, readable.2, held, kept⟩
  rw [← readable.1, shown]
  rfl

theorem refersTo_justified (wellFormed : store.WellFormed) (fits : store.VersionsFit)
    {previous next : Reference} (refers : store.refersTo previous next = true) :
    store.JustifiedStep user address previous next := by
  obtain ⟨references, listed, mem⟩ := (refersTo_iff fits previous next).mp refers
  exact ⟨wellFormed.stored _ _ listed next mem, .inl ⟨references, listed, mem⟩⟩

theorem accepts_justified (wellFormed : store.WellFormed) (fits : store.VersionsFit)
    (path : address.hasPath = true) {previous : Reference} {hop : Address} {next : Located}
    (found : store.locate? hop = some next)
    (accepted : store.accepts ⟨user, false⟩ previous next = true) :
    store.JustifiedStep user address previous next.reference := by
  obtain ⟨workspace, resolved, located⟩ := locate?_eq_some found
  have same := (locateIn?_eq_some located).1
  have held := (locateIn?_object located).2
  simp only [accepts, Bool.or_eq_true, Bool.and_eq_true, Bool.not_eq_true'] at accepted
  rcases accepted with ⟨readable, kept⟩ | refers
  · have in_place : store.workspace? hop.workspace = some next.address.workspace := by
      rw [same]
      exact resolved
    refine ⟨by simp [holds, held], .inr ⟨path, ?_⟩⟩
    exact mayRead_readable in_place (same ▸ located) readable kept
  · exact refersTo_justified wellFormed fits refers

theorem walk_justified (wellFormed : store.WellFormed) (fits : store.VersionsFit)
    (path : address.hasPath = true) {index position : Nat} {holder : Address}
    {previous last : Located} {hops : List Address} {walked : List Reference}
    (ran : store.walkAlone ⟨user, false⟩ index position holder previous hops = .ok (last, walked)) :
    (previous.reference :: walked).IsChain (store.JustifiedStep user address) := by
  induction hops generalizing position holder previous walked with
  | nil =>
    cases ran
    exact .singleton _
  | cons hop rest ih =>
    obtain ⟨next, further, found, accepted, onward, rfl⟩ := walkAlone_cons_ok ran
    have step := accepts_justified wellFormed fits path found accepted
    exact List.isChain_cons_cons.mpr ⟨step, ih onward⟩

theorem headAlone_ok {caller : Caller} {head : Located}
    (entered : store.headAlone caller address = .ok head) :
    ∃ workspace, store.workspaceAlone caller address = .ok workspace ∧
      store.startIn (address.resolveIn workspace) = .ok head := by
  simp only [headAlone] at entered
  cases inside : store.workspaceAlone caller address with
  | error cause => simp [inside] at entered
  | ok workspace => exact ⟨workspace, rfl, by simpa [inside] using entered⟩

theorem outcomeAlone_ok {caller : Caller} {index : Nat} {resolution : Resolution}
    (found : store.outcomeAlone caller index address = .ok resolution) :
    ∃ head last walked, store.headAlone caller address = .ok head ∧
      store.walkAlone caller index 1 address head address.hops = .ok (last, walked) ∧
      resolution = { kind := if address.hasPath then .path else .direct
                     object := last.shown
                     path := head.reference :: walked } := by
  simp only [outcomeAlone] at found
  cases entered : store.headAlone caller address with
  | error cause => simp [entered] at found
  | ok head =>
    simp only [entered] at found
    cases ran : store.walkAlone caller index 1 address head address.hops with
    | error cause => simp [ran] at found
    | ok walk =>
      simp only [ran, Except.ok.injEq] at found
      exact ⟨head, walk.1, walk.2, rfl, ran, found.symm⟩

theorem hops_of_not_path (direct : address.hasPath = false) : address.hops = [] := by
  obtain ⟨target, locator⟩ := address
  cases locator with
  | direct => rfl
  | path hops => cases direct
  | lookup => rfl

theorem outcomeAlone_justified (wellFormed : store.WellFormed) (fits : store.VersionsFit)
    (named : address.isLookup = false) {index : Nat} {resolution : Resolution}
    (found : store.outcomeAlone ⟨user, false⟩ index address = .ok resolution) :
    store.Justified user address resolution := by
  obtain ⟨head, last, walked, entered, ran, rfl⟩ := outcomeAlone_ok found
  obtain ⟨workspace, inside, started⟩ := headAlone_ok entered
  obtain ⟨resolved, readable⟩ := workspaceAlone_ok inside
  obtain ⟨located, kept⟩ := startIn_ok started
  have same := (locateIn?_eq_some located).1
  refine ⟨walkAlone_getLast? ran, ⟨head.reference, rfl, ?_⟩, ?_, ?_, ?_⟩
  · have in_place : store.workspace? address.workspace = some head.address.workspace := by
      rw [same]
      exact resolved
    have open_to : store.mayRead ⟨user, false⟩ head.address.workspace = true := by
      rw [same]
      exact readable
    have own := mayRead_readable in_place (same ▸ located) open_to kept
    simpa [WorkspaceRecord.startPermission, named] using own
  · cases path : address.hasPath with
    | true => exact walk_justified wellFormed fits path ran
    | false =>
      rw [hops_of_not_path path] at ran
      cases ran
      exact .singleton _
  · intro _ direct
    rw [hops_of_not_path direct] at ran
    cases ran
    simp [direct]
  · intro given
    rcases given with lookup | path
    · simp [lookup] at named
    · simp [path]

theorem outcomeFound_justified (wellFormed : store.WellFormed) (fits : store.VersionsFit)
    (lookup : address.isLookup = true) {searched : SearchResult} {resolution : Resolution}
    (canonical : ∀ target path, searched.paths.get? target = some path →
      store.Canonical ⟨user, false⟩ path target)
    (found : store.outcomeFound ⟨user, false⟩ searched address = .ok resolution) :
    store.Justified user address resolution := by
  obtain ⟨located, _, kind, shown, canonical⟩ := outcomeFound_ok canonical found
  obtain ⟨first, head, opened⟩ := canonical.opened
  refine ⟨?_, ⟨first, head, ?_⟩, ?_, ?_, fun _ => kind⟩
  · rw [shown]
    exact canonical.leads.2
  · simpa [WorkspaceRecord.startPermission, lookup] using opens_readable opened
  · exact canonical.leads.1.imp fun _ _ => refersTo_justified wellFormed fits
  · intro named
    simp [lookup] at named

end Store

namespace Resolver

theorem resolve_justified {store : Store} (reachable : store.Reachable)
    (fits : store.VersionsFit) {user : Option User} {batch : List Address}
    {config : ResolverConfig} {resolver : Resolver} (plain : config.asAdmin = false)
    (made : make user batch config = .ok resolver) :
    ∃ result, resolver.resolve.run store = .ok result ∧
      ∀ address resolution, (address, .ok resolution) ∈ result.outcomes →
        store.Justified user address resolution := by
  have wellFormed := reachable.wellFormed fits
  obtain ⟨searched, finished, ran⟩ := resolve_ok reachable.consistent made
  rw [plain] at finished ran
  refine ⟨_, ran, ?_⟩
  intro address resolution mem
  obtain ⟨entry, _, same⟩ := List.mem_map.mp mem
  obtain ⟨rfl, outcome⟩ := Prod.mk.inj same
  cases lookup : entry.1.isLookup with
  | true =>
    simp only [Store.outcomeOf, lookup, if_true] at outcome
    exact Store.outcomeFound_justified wellFormed fits lookup finished.canonical outcome
  | false =>
    simp only [Store.outcomeOf, lookup, Bool.false_eq_true, if_false] at outcome
    exact Store.outcomeAlone_justified wellFormed fits lookup outcome

theorem sample_resolve_justified :
    ∃ resolver result, Store.sample.Reachable ∧ Store.sample.VersionsFit ∧
      make (some Store.Sample.alice)
        [Store.Sample.walk, Store.Sample.wanted .direct, Store.Sample.wanted .lookup] {} =
          .ok resolver ∧
      resolver.resolve.run Store.sample = .ok result ∧
      (Store.Sample.walk, .ok Store.Sample.walked) ∈ result.outcomes ∧
      Store.sample.Justified (some Store.Sample.alice) Store.Sample.walk Store.Sample.walked := by
  have fits : Store.sample.VersionsFit := by decide
  have made : make (some Store.Sample.alice)
      [Store.Sample.walk, Store.Sample.wanted .direct, Store.Sample.wanted .lookup] {} =
        .ok _ := rfl
  obtain ⟨result, ran, justified⟩ :=
    resolve_justified Store.reachable_sample fits rfl made
  obtain ⟨searched, _, told⟩ := resolve_ok Store.reachable_sample.consistent made
  have walked : Store.sample.outcomeOf ⟨some Store.Sample.alice, false⟩ searched 1
      Store.Sample.walk = .ok Store.Sample.walked := rfl
  have listed : (Store.Sample.walk, .ok Store.Sample.walked) ∈ result.outcomes := by
    rw [Except.ok.inj (ran.symm.trans told)]
    exact List.mem_map.mpr ⟨(Store.Sample.walk, 0), by decide, congrArg _ walked⟩
  exact ⟨_, result, Store.reachable_sample, fits, made, ran, listed, justified _ _ listed⟩

end Resolver

end ObjectSpace
