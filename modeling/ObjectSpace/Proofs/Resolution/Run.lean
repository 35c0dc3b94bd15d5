import ObjectSpace.Proofs.Resolution.Batch
import ObjectSpace.Proofs.Resolution.Phases

set_option autoImplicit false

namespace ObjectSpace.Resolver

variable {store : Store}

def keys (resolver : Resolver) : List WorkspaceKey :=
  (resolver.objects.flatMap fun object => object :: object.hops).map Address.workspace

theorem workspace_mem_keys {resolver : Resolver} {object : Address}
    (mem : object ∈ resolver.objects) : object.workspace ∈ resolver.keys :=
  List.mem_map.mpr ⟨object, List.mem_flatMap.mpr ⟨object, mem, List.mem_cons_self⟩, rfl⟩

theorem hop_workspace_mem_keys {resolver : Resolver} {object hop : Address}
    (mem : object ∈ resolver.objects) (on_path : hop ∈ object.hops) :
    hop.workspace ∈ resolver.keys :=
  List.mem_map.mpr
    ⟨hop, List.mem_flatMap.mpr ⟨object, mem, List.mem_cons_of_mem _ on_path⟩, rfl⟩

theorem run_snapshot (consistent : store.Consistent) (resolver : Resolver) :
    ∃ snapshot, resolver.snapshot.run store = .ok snapshot ∧
      snapshot.Reflects store resolver.caller resolver.keys := by
  have resolved : store.answer (.resolveWorkspaces resolver.keys.eraseDups true) =
      .ok (Table.collect resolver.keys.eraseDups store.workspace?) :=
    Store.resolveWorkspaces_eq consistent _
  have answers : ∀ key ∈ resolver.keys,
      (Table.collect resolver.keys.eraseDups store.workspace?).get? key =
        store.workspace? key := by
    intro key named
    rw [Table.get?_collect, if_pos (List.mem_eraseDups.mpr named)]
  have folded : (resolver.objects.flatMap fun object => object :: object.hops).map
      Address.workspace = resolver.keys := rfl
  rw [Resolver.snapshot, folded, Enquiry.run_bind_ok (Enquiry.run_query resolved)]
  cases admin : resolver.config.asAdmin with
  | true =>
    refine ⟨_, rfl, ⟨rfl, answers, fun _ => rfl, fun other => ?_⟩⟩
    simp [Resolver.caller, admin] at other
  | false =>
    have granted : store.answer (.permissions resolver.user
        (((Table.collect resolver.keys.eraseDups store.workspace?).values.filter fun workspace =>
          !workspace.deleted).eraseDups)) = .ok _ :=
      Store.permissions_eq store resolver.user (nodup_eraseDups _)
    simp only [Bool.false_eq_true, if_false]
    rw [Enquiry.run_bind_ok (Enquiry.run_query granted)]
    refine ⟨_, rfl, ⟨rfl, answers, fun other => ?_, fun _ => ⟨_, rfl, ?_⟩⟩⟩
    · simp [Resolver.caller, admin] at other
    · intro key named workspace found live
      have listed : workspace ∈ (((Table.collect resolver.keys.eraseDups
          store.workspace?).values.filter fun workspace => !workspace.deleted).eraseDups) := by
        rw [List.mem_eraseDups, List.mem_filter, Table.mem_values_iff]
        exact ⟨⟨key, (answers key named).trans found⟩, by simp [live]⟩
      simp only [PermissionSet.grant, Table.get?_tabulate, listed, if_true, Option.getD_some]
      rfl

theorem run_referencesOf (consistent : store.Consistent) (addresses : List ResolvedAddress) :
    (referencesOf addresses).run store =
      .ok (Table.collect addresses fun address => (store.stored? address).map Prod.fst) := by
  cases addresses with
  | nil => rfl
  | cons first rest =>
    exact Enquiry.run_query (Store.objectReferences_eq consistent _)

theorem run_statesOf (store : Store) (references : List Reference) :
    (Search.statesOf references : Enquiry ResolveError _).run store =
      .ok (Table.collect references store.stateOf) := by
  cases references <;> rfl

theorem run_referrersOf (store : Store) (references : List Reference) :
    (referrersOf references).run store = .ok (Table.tabulate references store.referrers) := by
  cases references <;> rfl

def findings (resolver : Resolver) (store : Store) (snapshot : Snapshot) : Findings :=
  let references := Table.collect (resolver.heads snapshot ++ resolver.hops snapshot).eraseDups
    fun address => (store.stored? address).map Prod.fst
  { snapshot, references, states := Table.collect references.values.eraseDups store.stateOf }

def incoming (resolver : Resolver) (store : Store) (snapshot : Snapshot) :
    Table Reference (List Reference) :=
  Table.tabulate ((resolver.findings store snapshot).unreadable (resolver.hops snapshot))
    store.referrers

theorem findings_reflects {resolver : Resolver} {snapshot : Snapshot}
    (reflects : snapshot.Reflects store resolver.caller resolver.keys) :
    (resolver.findings store snapshot).Reflects store resolver.caller resolver.keys
      (resolver.heads snapshot ++ resolver.hops snapshot) := by
  have references : ∀ address ∈ resolver.heads snapshot ++ resolver.hops snapshot,
      (resolver.findings store snapshot).references.get? address =
        (store.stored? address).map Prod.fst := by
    intro address mem
    simp only [findings, Table.get?_collect, List.mem_eraseDups, mem, if_true]
  refine ⟨reflects, references, ?_⟩
  intro address mem reference object stored
  have listed : reference ∈ (resolver.findings store snapshot).references.values.eraseDups := by
    rw [List.mem_eraseDups, Table.mem_values_iff]
    exact ⟨address, by rw [references address mem, stored]; rfl⟩
  obtain ⟨_, held⟩ := Store.stored?_eq_some stored
  obtain ⟨record, present, _⟩ := Store.object?_eq_some.mp held
  refine ⟨record.deleted, ?_⟩
  have state := Store.stateOf_eq present held
  simp only [findings] at listed ⊢
  rw [Table.get?_collect, if_pos listed, state]

theorem serves {resolver : Resolver} {snapshot : Snapshot} (consistent : store.Consistent)
    (reflects : snapshot.Reflects store resolver.caller resolver.keys) :
    (resolver.findings store snapshot).Serves (resolver.incoming store snapshot) store
      resolver.caller resolver.keys (resolver.heads snapshot ++ resolver.hops snapshot)
      (resolver.hops snapshot) := by
  have known := findings_reflects reflects
  have hops_known : ∀ address ∈ resolver.hops snapshot,
      address ∈ resolver.heads snapshot ++ resolver.hops snapshot :=
    fun address mem => List.mem_append_right _ mem
  refine { known with consistent, hops_known, referred := ?_ }
  intro address mem located found hidden
  have stored := (Store.locateIn?_eq_some found).2
  have listed : located.reference ∈
      (resolver.findings store snapshot).unreadable (resolver.hops snapshot) := by
    rw [Findings.unreadable, List.mem_eraseDups, List.mem_filterMap]
    refine ⟨address, mem, ?_⟩
    simp [known.references address (hops_known address mem), stored, hidden]
  rw [incoming, Table.get?_tabulate, if_pos listed]

theorem head_known {resolver : Resolver} {snapshot : Snapshot} {object : Address}
    (mem : object ∈ resolver.objects) {head : ResolvedAddress}
    (entered : snapshot.head object = .ok head) :
    head ∈ resolver.heads snapshot ++ resolver.hops snapshot := by
  refine List.mem_append_left _ (List.mem_filterMap.mpr ⟨object, mem, ?_⟩)
  rw [entered]
  rfl

theorem hop_known {resolver : Resolver} {snapshot : Snapshot}
    (reflects : snapshot.Reflects store resolver.caller resolver.keys) {object : Address}
    (mem : object ∈ resolver.objects) {head : ResolvedAddress}
    (entered : snapshot.head object = .ok head) {hop : Address} (on_path : hop ∈ object.hops)
    {workspace : ResolvedWorkspace} (resolved : store.workspace? hop.workspace = some workspace) :
    hop.resolveIn workspace ∈ resolver.hops snapshot := by
  rw [hops, List.mem_eraseDups, List.mem_flatMap]
  refine ⟨object, mem, ?_⟩
  simp only [Snapshot.hops, entered, List.mem_filterMap]
  refine ⟨hop, on_path, ?_⟩
  rw [reflects.hop?_eq (hop_workspace_mem_keys mem on_path), resolved]
  rfl

theorem progress_eq {resolver : Resolver} {snapshot : Snapshot} (consistent : store.Consistent)
    (reflects : snapshot.Reflects store resolver.caller resolver.keys) {object : Address}
    (mem : object ∈ resolver.objects) (index : Nat) :
    progress (resolver.findings store snapshot) (resolver.incoming store snapshot) object index =
      .ok (store.progressOf resolver.caller index object) := by
  have served := serves consistent reflects
  cases searched : object.isLookup with
  | true =>
    exact served.progress_eq_searched searched (workspace_mem_keys mem)
      (fun _ entered => head_known mem entered) index
  | false =>
    exact served.progress_eq_settled searched (workspace_mem_keys mem)
      (fun _ on_path => hop_workspace_mem_keys mem on_path)
      (fun _ entered => head_known mem entered)
      (fun _ entered _ on_path _ resolved => hop_known reflects mem entered on_path resolved) index

def PathsEnd (searched : SearchResult) : Prop :=
  ∀ target path, searched.paths.get? target = some path → path.getLast? = some target

theorem conclude_eq {resolver : Resolver} {snapshot : Snapshot} (consistent : store.Consistent)
    (reflects : snapshot.Reflects store resolver.caller resolver.keys) {searched : SearchResult}
    (ends : PathsEnd searched) {object : Address} (mem : object ∈ resolver.objects)
    (index : Nat) :
    conclude (resolver.findings store snapshot) searched object
        (store.progressOf resolver.caller index object) =
      .ok (store.outcomeOf resolver.caller searched index object) := by
  have known := findings_reflects reflects
  cases lookup : object.isLookup with
  | false => simp [Store.progressOf, Store.outcomeOf, lookup, conclude]
  | true =>
    simp only [Store.progressOf, Store.outcomeOf, lookup, if_true, Store.outcomeFound]
    cases located : store.locate? object with
    | none => simp [conclude]
    | some target =>
      cases opened : store.opens resolver.caller target.reference with
      | true => simp [opened, conclude]
      | false =>
        obtain ⟨workspace, resolved, found⟩ := Store.locate?_eq_some located
        have same := (Store.locateIn?_eq_some found).1
        have head_ok : snapshot.head object = .ok (object.resolveIn workspace) := by
          rw [reflects.lookup_head_eq (workspace_mem_keys mem) lookup, resolved]
        have head_mem := head_known mem head_ok
        simp only [opened, Bool.false_eq_true, if_false, conclude, same]
        cases path : searched.paths.get? target.reference with
        | some path =>
          have resolution := known.resolution_eq consistent head_mem found .path _
            (ends _ _ path)
          simp [settle, resolution, Except.map]
        | none =>
          cases searched.limitReached
          · simp [settle, reflects.user, findings]
          · simp [settle]

theorem target_eq (store : Store) (caller : Caller) (index : Nat) (object : Address) :
    (match store.progressOf caller index object with
      | .settled _ => none
      | .searching _ target => some target) = store.searchTarget? caller object := by
  cases lookup : object.isLookup with
  | false => simp [Store.progressOf, Store.searchTarget?, lookup]
  | true =>
    simp only [Store.progressOf, Store.searchTarget?, lookup, if_true]
    cases store.locate? object with
    | none => rfl
    | some target =>
      cases opened : store.opens caller target.reference <;> simp [opened, Option.filter]

def progressOf (resolver : Resolver) (store : Store) : List (Address × Progress) :=
  resolver.objects.zipIdx.map fun entry =>
    (entry.1, store.progressOf resolver.caller (entry.2 + 1) entry.1)

def sought (resolver : Resolver) (store : Store) : List Reference :=
  resolver.objects.filterMap (store.searchTarget? resolver.caller)

theorem targets_progressOf (store : Store) (resolver : Resolver) :
    targets (resolver.progressOf store) = resolver.sought store := by
  have objects : resolver.objects.zipIdx.map Prod.fst = resolver.objects := by simp
  rw [targets, progressOf, List.filterMap_map, sought]
  conv => rhs; rw [← objects, List.filterMap_map]
  congr 1
  funext entry
  exact target_eq store resolver.caller (entry.2 + 1) entry.1

theorem run_opening (consistent : store.Consistent) (resolver : Resolver) :
    ∃ snapshot, snapshot.Reflects store resolver.caller resolver.keys ∧
      resolver.opening.run store =
        .ok ⟨resolver.findings store snapshot, resolver.progressOf store⟩ := by
  obtain ⟨snapshot, taken, reflects⟩ := run_snapshot consistent resolver
  refine ⟨snapshot, reflects, ?_⟩
  have settled : resolver.progressAll (resolver.findings store snapshot)
      (resolver.incoming store snapshot) = .ok (resolver.progressOf store) := by
    refine mapM_eq_ok fun entry mem => ?_
    have progressed := progress_eq consistent reflects (List.fst_mem_of_mem_zipIdx mem)
      (entry.2 + 1)
    exact congrArg (Except.map fun progress => (entry.1, progress)) progressed
  rw [opening, Enquiry.run_bind_ok taken]
  rw [Enquiry.run_bind_ok (run_referencesOf consistent _)]
  rw [Enquiry.run_bind_ok (run_statesOf store _)]
  rw [Enquiry.run_bind_ok (run_referrersOf store _)]
  exact Enquiry.run_bind_ok ((Enquiry.run_ofExcept _).trans settled) _

def outcomesOf (resolver : Resolver) (store : Store) (searched : SearchResult) : Resolutions where
  outcomes := resolver.objects.zipIdx.map fun entry =>
    (entry.1, store.outcomeOf resolver.caller searched (entry.2 + 1) entry.1)

theorem outcomes_eq {resolver : Resolver} {snapshot : Snapshot} (consistent : store.Consistent)
    (reflects : snapshot.Reflects store resolver.caller resolver.keys) {searched : SearchResult}
    (ends : PathsEnd searched) :
    (Opening.outcomes ⟨resolver.findings store snapshot, resolver.progressOf store⟩ searched).map
        Resolutions.mk = .ok (resolver.outcomesOf store searched) := by
  rw [Opening.outcomes, progressOf, List.mapM_map]
  refine congrArg (Except.map Resolutions.mk) (mapM_eq_ok fun entry mem => ?_)
  have concluded := conclude_eq consistent reflects ends (List.fst_mem_of_mem_zipIdx mem)
    (entry.2 + 1)
  exact congrArg (Except.map fun outcome => (entry.1, outcome)) concluded

theorem run_resolve (consistent : store.Consistent) (resolver : Resolver)
    {searched : SearchResult}
    (found : (resolver.search (resolver.sought store)).run store = .ok searched)
    (ends : PathsEnd searched) :
    resolver.resolve.run store = .ok (resolver.outcomesOf store searched) := by
  obtain ⟨snapshot, reflects, opened⟩ := run_opening consistent resolver
  rw [resolve_eq, Enquiry.run_bind_ok opened, targets_progressOf, Enquiry.run_bind_ok found,
    Enquiry.run_ofExcept, outcomes_eq consistent reflects ends]

end ObjectSpace.Resolver
