import ObjectSpace.Proofs.Enquiry.Transcript
import ObjectSpace.Proofs.Resolution.Single

set_option autoImplicit false

namespace ObjectSpace

structure Snapshot.Reflects (snapshot : Snapshot) (store : Store) (caller : Caller)
    (keys : List WorkspaceKey) : Prop where
  user : snapshot.user = caller.user
  workspaces : ∀ key ∈ keys, snapshot.workspaces.get? key = store.workspace? key
  administered : caller.asAdmin = true → snapshot.permissions = none
  granted : caller.asAdmin = false → ∃ set, snapshot.permissions = some set ∧
    ∀ key ∈ keys, ∀ workspace, store.workspace? key = some workspace →
      workspace.deleted = false → set.grant workspace = store.grantOn caller.user workspace.id

namespace Snapshot.Reflects

variable {snapshot : Snapshot} {store : Store} {caller : Caller} {keys : List WorkspaceKey}

theorem isReadable (reflects : snapshot.Reflects store caller keys) {key : WorkspaceKey}
    (named : key ∈ keys) {workspace : ResolvedWorkspace}
    (resolved : store.workspace? key = some workspace) :
    snapshot.isReadable workspace = store.mayRead caller workspace := by
  cases admin : caller.asAdmin with
  | true => simp [Snapshot.isReadable, Store.mayRead, reflects.administered admin, admin]
  | false =>
    obtain ⟨set, present, exact⟩ := reflects.granted admin
    cases live : workspace.deleted with
    | true => simp [Snapshot.isReadable, Store.mayRead, live]
    | false =>
      simp [Snapshot.isReadable, Store.mayRead, present, admin, live,
        PermissionSet.hasPermission, PermissionSet.permission, Store.available,
        exact key named workspace resolved live]
      rfl

theorem head_eq (reflects : snapshot.Reflects store caller keys) {address : Address}
    (named : address.workspace ∈ keys) (direct : address.isLookup = false) :
    snapshot.head address = (store.workspaceAlone caller address).map address.resolveIn := by
  simp only [Snapshot.head, direct, Bool.false_eq_true, if_false, Snapshot.readableWorkspace,
    reflects.workspaces _ named, Store.workspaceAlone]
  cases resolved : store.workspace? address.workspace with
  | none => rfl
  | some workspace =>
    cases live : workspace.deleted with
    | true => simp [live, Except.map]
    | false =>
      cases admin : caller.asAdmin with
      | true => simp [live, reflects.administered admin, Except.map]
      | false =>
        obtain ⟨set, present, exact⟩ := reflects.granted admin
        have permission : set.permission workspace = store.available caller workspace := by
          simp [PermissionSet.permission, Store.available, exact _ named workspace resolved live]
        by_cases denied : store.available caller workspace < .read <;>
          simp [live, present, permission, checkPermission, denied, reflects.user, Except.map]

theorem lookup_head_eq (reflects : snapshot.Reflects store caller keys) {address : Address}
    (named : address.workspace ∈ keys) (searched : address.isLookup = true) :
    snapshot.head address =
      match store.workspace? address.workspace with
      | none => .error (.inaccessible caller.user)
      | some workspace => .ok (address.resolveIn workspace) := by
  cases resolved : store.workspace? address.workspace <;>
    simp only [Snapshot.head, searched, if_true, reflects.workspaces _ named, reflects.user,
      resolved]

theorem isUserReadable (reflects : snapshot.Reflects store caller keys) {key : WorkspaceKey}
    (named : key ∈ keys) {workspace : ResolvedWorkspace}
    (resolved : store.workspace? key = some workspace) :
    snapshot.isUserReadable workspace =
      (!workspace.deleted &&
        (caller.asAdmin || .read ≤ (store.grantOn caller.user workspace.id).user)) := by
  cases admin : caller.asAdmin with
  | true => simp [Snapshot.isUserReadable, reflects.administered admin]
  | false =>
    obtain ⟨set, present, exact⟩ := reflects.granted admin
    cases live : workspace.deleted with
    | true => simp [Snapshot.isUserReadable, live]
    | false =>
      simp [Snapshot.isUserReadable, present, live, PermissionSet.hasUserPermission,
        PermissionSet.userPermission, exact key named workspace resolved live]

theorem hop?_eq (reflects : snapshot.Reflects store caller keys) {hop : Address}
    (named : hop.workspace ∈ keys) :
    snapshot.hop? hop = (store.workspace? hop.workspace).map hop.resolveIn := by
  simp only [Snapshot.hop?, reflects.workspaces _ named]

end Snapshot.Reflects

structure Findings.Reflects (findings : Findings) (store : Store) (caller : Caller)
    (keys : List WorkspaceKey) (addresses : List ResolvedAddress) : Prop where
  snapshot : findings.snapshot.Reflects store caller keys
  references : ∀ address ∈ addresses,
    findings.references.get? address = (store.stored? address).map Prod.fst
  states : ∀ address ∈ addresses, ∀ reference object,
    store.stored? address = some (reference, object) →
      ∃ workspaceDeleted, findings.states.get? reference =
        some { name := object.name, deleted := object.deleted, workspaceDeleted }

namespace Findings.Reflects

variable {findings : Findings} {store : Store} {caller : Caller} {keys : List WorkspaceKey}
variable {addresses : List ResolvedAddress} {address : ResolvedAddress}

theorem known?_eq (reflects : findings.Reflects store caller keys addresses)
    (mem : address ∈ addresses) :
    findings.known? address = (store.locateIn? address).map Located.reference := by
  simp only [Findings.known?, reflects.references address mem, Store.locateIn?]
  cases stored : store.stored? address with
  | none => rfl
  | some entry =>
    obtain ⟨_, state⟩ := reflects.states address mem entry.1 entry.2 stored
    simp [Table.contains, state]

theorem isLive_eq (reflects : findings.Reflects store caller keys addresses)
    (mem : address ∈ addresses) {located : Located}
    (found : store.locateIn? address = some located) :
    findings.isLive located.reference = !located.object.deleted := by
  obtain ⟨_, state⟩ := reflects.states address mem _ _ (Store.locateIn?_eq_some found).2
  simp [Findings.isLive, state]

theorem resolution_eq (reflects : findings.Reflects store caller keys addresses)
    (consistent : store.Consistent) (mem : address ∈ addresses) {located : Located}
    (found : store.locateIn? address = some located) (kind : ResolutionKind)
    (path : List Reference) (ends : path.getLast? = some located.reference) :
    findings.resolution kind address path = .ok { kind, object := located.shown, path } := by
  obtain ⟨same, stored⟩ := Store.locateIn?_eq_some found
  obtain ⟨in_workspace, held⟩ := Store.stored?_eq_some stored
  obtain ⟨_, state⟩ := reflects.states address mem _ _ stored
  obtain ⟨record, present, listed, _⟩ := Store.object?_eq_some.mp held
  have valid := (consistent.records _ _ present).object_name_valid _ _ listed
  have object_pos : ¬ located.reference.object < 1 := by
    have := located.reference.object_pos
    omega
  have version_pos : ¬ located.reference.version < 1 := by
    have := located.reference.version_pos
    omega
  simp [Findings.resolution, ends, state, ResolvedObject.make, object_pos, version_pos,
    ← in_workspace, Reference.ofParts_parts, valid, bind, Except.bind, pure, Except.pure,
    Located.shown, same]

theorem headReference_eq (reflects : findings.Reflects store caller keys addresses)
    (mem : address ∈ addresses) :
    findings.headReference address = (store.startIn address).map Located.reference := by
  simp only [Findings.headReference, reflects.known?_eq mem, Store.startIn]
  cases found : store.locateIn? address with
  | none => rfl
  | some located =>
    have live := reflects.isLive_eq mem found
    cases deleted : located.object.deleted <;> simp [live, deleted, Except.map]

end Findings.Reflects

structure Findings.Serves (findings : Findings) (incoming : Table Reference (List Reference))
    (store : Store) (caller : Caller) (keys : List WorkspaceKey)
    (addresses hops : List ResolvedAddress) : Prop
    extends findings.Reflects store caller keys addresses where
  consistent : store.Consistent
  hops_known : ∀ address ∈ hops, address ∈ addresses
  referred : ∀ address ∈ hops, ∀ located, store.locateIn? address = some located →
    findings.isDirectlyReadable address located.reference = false →
      incoming.get? located.reference = some (store.referrers located.reference)

namespace Findings.Serves

variable {findings : Findings} {incoming : Table Reference (List Reference)} {store : Store}
variable {caller : Caller} {keys : List WorkspaceKey} {addresses hops : List ResolvedAddress}

theorem isReferred_eq (serves : findings.Serves incoming store caller keys addresses hops)
    {address : ResolvedAddress} (mem : address ∈ hops) {located : Located}
    (found : store.locateIn? address = some located) (previous : Reference)
    (hidden : findings.isDirectlyReadable address located.reference = false) :
    (incoming.get? located.reference).any (fun referrers => previous ∈ referrers) =
      store.refersTo previous located.reference := by
  rw [serves.referred address mem located found hidden, Bool.eq_iff_iff]
  simpa using serves.consistent.referred previous located.reference

theorem accept_eq (serves : findings.Serves incoming store caller keys addresses hops)
    {hop : Address} (named : hop.workspace ∈ keys)
    (mem : ∀ workspace, store.workspace? hop.workspace = some workspace →
      hop.resolveIn workspace ∈ hops) (previous : Reference) :
    findings.accept incoming previous hop =
      ((store.locate? hop).filter (store.accepts caller previous)).map fun next =>
        (next.address, next.reference) := by
  simp only [Findings.accept, serves.snapshot.hop?_eq named, Store.locate?]
  cases resolved : store.workspace? hop.workspace with
  | none => rfl
  | some workspace =>
    have mem := mem workspace resolved
    have known := serves.hops_known _ mem
    simp only [Option.map_some, Option.bind_eq_bind, Option.bind_some,
      serves.known?_eq known]
    cases found : store.locateIn? (hop.resolveIn workspace) with
    | none => rfl
    | some located =>
      have same := (Store.locateIn?_eq_some found).1
      have readable : findings.isDirectlyReadable (hop.resolveIn workspace) located.reference =
          (store.mayRead caller workspace && !located.object.deleted) := by
        simp only [Findings.isDirectlyReadable, serves.isLive_eq known found]
        rw [← serves.snapshot.isReadable named resolved]
        rfl
      have justified : (findings.isDirectlyReadable (hop.resolveIn workspace) located.reference ||
          (incoming.get? located.reference).any fun referrers => previous ∈ referrers) =
            store.accepts caller previous located := by
        have workspace_eq : located.address.workspace = workspace := by
          rw [same]
          rfl
        cases hidden : findings.isDirectlyReadable (hop.resolveIn workspace)
            located.reference with
        | true => simp [Store.accepts, workspace_eq, ← readable, hidden]
        | false =>
          rw [serves.isReferred_eq mem found previous hidden]
          simp [Store.accepts, workspace_eq, ← readable, hidden]
      simp only [Option.map_some, Option.bind_some, justified, Option.filter_some]
      cases store.accepts caller previous located <;> simp [same]

theorem walk_eq (serves : findings.Serves incoming store caller keys addresses hops)
    (index position : Nat) (holder : Address) (previous : Located) (path : List Address)
    (named : ∀ hop ∈ path, hop.workspace ∈ keys)
    (mem : ∀ hop ∈ path, ∀ workspace, store.workspace? hop.workspace = some workspace →
      hop.resolveIn workspace ∈ hops) :
    findings.walk incoming index position holder previous.address previous.reference path =
      (store.walkAlone caller index position holder previous path).map fun walked =>
        (walked.1.address, walked.2) := by
  induction path generalizing position holder previous with
  | nil => rfl
  | cons hop rest ih =>
    simp only [Findings.walk, Store.walkAlone]
    rw [serves.accept_eq (named hop List.mem_cons_self) (mem hop List.mem_cons_self)]
    cases next : (store.locate? hop).filter (store.accepts caller previous.reference) with
    | none => rfl
    | some located =>
      have further := ih (position + 1) hop located
        (fun hop later => named hop (List.mem_cons_of_mem _ later))
        (fun hop later => mem hop (List.mem_cons_of_mem _ later))
      simp only [Option.map_some, further]
      cases store.walkAlone caller index (position + 1) hop located rest <;> rfl

theorem path_eq (serves : findings.Serves incoming store caller keys addresses hops)
    {object : Address} {path : List Address} {head : Located}
    (begun : findings.headReference head.address = .ok head.reference)
    (hops_named : ∀ hop ∈ path, hop.workspace ∈ keys)
    (hop_known : ∀ hop ∈ path, ∀ workspace, store.workspace? hop.workspace = some workspace →
      hop.resolveIn workspace ∈ hops) (index : Nat) :
    findings.path incoming index object head.address path =
      (store.walkAlone caller index 1 object head path).map fun walked =>
        (walked.1.address, head.reference :: walked.2) := by
  have walk_eq := serves.walk_eq index 1 object head path hops_named hop_known
  simp only [Findings.path, begun, walk_eq, bind, Except.bind, pure, Except.pure]
  cases store.walkAlone caller index 1 object head path <;> rfl

theorem last_known (serves : findings.Serves incoming store caller keys addresses hops)
    {holder : Address} {path : List Address} {head last : Located} {walked : List Reference}
    (known : head.address ∈ addresses)
    (hop_known : ∀ hop ∈ path, ∀ workspace, store.workspace? hop.workspace = some workspace →
      hop.resolveIn workspace ∈ hops) {index position : Nat}
    (found : store.locateIn? head.address = some head)
    (ran : store.walkAlone caller index position holder head path = .ok (last, walked)) :
    last.address ∈ addresses ∧ store.locateIn? last.address = some last := by
  rcases Store.walkAlone_last ran with rfl | ⟨hop, mem, located⟩
  · exact ⟨known, found⟩
  · obtain ⟨workspace, resolved, there⟩ := Store.locate?_eq_some located
    rw [(Store.locateIn?_eq_some there).1]
    exact ⟨serves.hops_known _ (hop_known hop mem workspace resolved), there⟩

theorem progress_eq_settled (serves : findings.Serves incoming store caller keys addresses hops)
    {object : Address} (direct : object.isLookup = false) (named : object.workspace ∈ keys)
    (hops_named : ∀ hop ∈ object.hops, hop.workspace ∈ keys)
    (head_known : ∀ head, findings.snapshot.head object = .ok head → head ∈ addresses)
    (hop_known : ∀ head, findings.snapshot.head object = .ok head → ∀ hop ∈ object.hops,
      ∀ workspace, store.workspace? hop.workspace = some workspace →
        hop.resolveIn workspace ∈ hops) (index : Nat) :
    Resolver.progress findings incoming object index =
      .ok (store.progressOf caller index object) := by
  have head_eq := serves.snapshot.head_eq named direct
  simp only [Resolver.progress, Store.progressOf, direct, Bool.false_eq_true, if_false,
    Store.outcomeAlone, Store.headAlone]
  cases entered : store.workspaceAlone caller object with
  | error cause => simp [head_eq, entered, Except.map]
  | ok workspace =>
    have head_ok : findings.snapshot.head object = .ok (object.resolveIn workspace) := by
      simp [head_eq, entered, Except.map]
    have known := head_known _ head_ok
    have hop_known := hop_known _ head_ok
    simp only [head_ok]
    have start_eq := serves.headReference_eq known
    cases started : store.startIn (object.resolveIn workspace) with
    | error cause =>
      have failed : findings.headReference (object.resolveIn workspace) = .error cause := by
        rw [start_eq, started]
        rfl
      cases located : object.locator with
      | direct => simp [failed, Except.map, Resolver.settle]
      | path hops =>
        simp [Findings.path, failed, bind, Except.bind, Except.map, Resolver.settle]
      | lookup => simp [Address.isLookup, located] at direct
    | ok head =>
      have found := (Store.startIn_ok started).1
      have same : head.address = object.resolveIn workspace := (Store.locateIn?_eq_some found).1
      have begun : findings.headReference head.address = .ok head.reference := by
        rw [same, start_eq, started]
        rfl
      rw [← same] at known found ⊢
      cases located : object.locator with
      | direct =>
        have resolved := serves.resolution_eq serves.consistent known found .direct
          [head.reference] rfl
        simp [begun, Except.map, Resolver.settle, resolved, Address.hops, Address.hasPath, located,
          Store.walkAlone]
      | path path =>
        have hops_eq : object.hops = path := by simp [Address.hops, located]
        rw [hops_eq] at hops_named hop_known ⊢
        simp only [serves.path_eq begun hops_named hop_known index]
        cases ran : store.walkAlone caller index 1 object head path with
        | error cause => simp [Except.map, Resolver.settle]
        | ok walked =>
          obtain ⟨last_mem, last_found⟩ := serves.last_known known hop_known found ran
          have resolved := serves.resolution_eq serves.consistent last_mem last_found .path
            (head.reference :: walked.2) (Store.walkAlone_getLast? ran)
          simp [Except.map, Resolver.settle, resolved, Address.hasPath, located]
      | lookup => simp [Address.isLookup, located] at direct

theorem progress_eq_searched (serves : findings.Serves incoming store caller keys addresses hops)
    {object : Address} (searched : object.isLookup = true) (named : object.workspace ∈ keys)
    (head_known : ∀ head, findings.snapshot.head object = .ok head → head ∈ addresses)
    (index : Nat) :
    Resolver.progress findings incoming object index =
      .ok (store.progressOf caller index object) := by
  have head_eq := serves.snapshot.lookup_head_eq named searched
  have located : object.locator = .lookup := by
    cases locator : object.locator <;> simp_all [Address.isLookup]
  simp only [Resolver.progress, Store.progressOf, searched, if_true, Store.locate?]
  cases resolved : store.workspace? object.workspace with
  | none => simp [head_eq, resolved]
  | some workspace =>
    have head_ok : findings.snapshot.head object = .ok (object.resolveIn workspace) := by
      simp [head_eq, resolved]
    have known := head_known _ head_ok
    simp only [head_ok, located, serves.known?_eq known, Option.bind_some]
    cases found : store.locateIn? (object.resolveIn workspace) with
    | none => simp [serves.snapshot.user]
    | some target =>
      have same := (Store.locateIn?_eq_some found).1
      have opens : (findings.snapshot.isUserReadable (object.resolveIn workspace).workspace &&
          findings.isLive target.reference) = store.opens caller target.reference := by
        rw [serves.isLive_eq known found, Store.opens_eq resolved found caller]
        exact congrArg (· && !target.object.deleted)
          (serves.snapshot.isUserReadable named resolved)
      have resolution := serves.resolution_eq serves.consistent known found .path
        [target.reference] rfl
      simp only [Option.map_some, opens]
      cases store.opens caller target.reference <;>
        simp [resolution, Resolver.settle, Except.map, same]

end Findings.Serves

end ObjectSpace
