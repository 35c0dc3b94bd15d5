import ObjectSpace.Store.Basic

set_option autoImplicit false

namespace ObjectSpace

structure ObjectState where
  name : String
  deleted : Bool
  workspaceDeleted : Bool
  deriving DecidableEq, Repr

namespace Store

-- With faults suppressed only a missing workspace is left out.
def resolveOne (store : Store) (suppress : Bool) (key : WorkspaceKey) :
    Except StoreError (Option ResolvedWorkspace) :=
  match store.find? key with
  | none => if suppress then .ok none else .error (.noSuchWorkspace key)
  | some (id, record) =>
    if record.deleted && !suppress then .error (.workspaceDeleted key)
    else
      match record.resolved id with
      | .error cause => .error (.value cause)
      | .ok resolved => .ok (some resolved)

def resolveWorkspaces (store : Store) (suppress : Bool) (keys : List WorkspaceKey) :
    Except StoreError (Table WorkspaceKey ResolvedWorkspace) :=
  keys.foldlM (fun table key => do
    match ← store.resolveOne suppress key with
    | none => return table
    | some resolved => return table.insert key resolved) .empty

def grantOn (store : Store) (user : Option User) (workspace : Nat) : Grant :=
  match store.workspaces.get? workspace with
  | none => {}
  | some record => record.grant user

def permissions (store : Store) (user : Option User) (workspaces : List ResolvedWorkspace) :
    Except StoreError PermissionSet :=
  workspaces.foldlM (fun set workspace =>
    let grant := store.grantOn user workspace.id
    (if grant.user = .none ∧ grant.world = .none then set.addUnreadable workspace
      else set.addReadable workspace grant).mapError .value) { user }

-- What the world may do counts only if asked for.
def allPermissions (store : Store) (user : Option User) (minimum : Permission) (world : Bool) :
    Except StoreError PermissionSet :=
  (store.workspaces.entries.filter fun entry => !entry.2.deleted).foldlM (fun set entry =>
    let grant : Grant :=
      { user := entry.2.userPermission user
        world := if world then entry.2.worldPermission else .none }
    if grant.effective = .none ∨ grant.effective < minimum then .ok set
    else (do set.addReadable (← entry.2.resolved entry.1) grant).mapError .value) { user }

def referenceOf (store : Store) (address : ResolvedAddress) :
    Except ValueError (Option Reference) :=
  match store.workspaces.get? address.workspace.id with
  | none => .ok none
  | some record =>
    match record.objectId? address.object with
    | none => .ok none
    | some id =>
      match record.objects.get? id with
      | none => .ok none
      | some object =>
        let version := address.version.getD object.latestVersion
        if object.hasVersion version then
          (Reference.ofParts address.workspace.id id version).map some
        else .ok none

def objectReferences (store : Store) (addresses : List ResolvedAddress) :
    Except StoreError (Table ResolvedAddress Reference) :=
  addresses.foldlM (fun table address =>
    match store.referenceOf address with
    | .error cause => .error (.value cause)
    | .ok none => .ok table
    | .ok (some reference) => .ok (table.insert address reference)) .empty

def stateOf (store : Store) (reference : Reference) : Option ObjectState := do
  let workspace ← store.workspaces.get? reference.workspace
  let object ← store.object? reference
  return { name := object.name, deleted := object.deleted, workspaceDeleted := workspace.deleted }

def objectStates (store : Store) (references : List Reference) : Table Reference ObjectState :=
  Table.collect references store.stateOf

def objectsExist (store : Store) (references : List Reference) : Table Reference Bool :=
  Table.tabulate references fun reference => ((store.objectStates references).get? reference).isSome

def incomingReferences (store : Store) (references : List Reference) :
    Table Reference (List Reference) :=
  Table.tabulate references fun reference => (store.incoming.get? reference).getD []

end Store

end ObjectSpace
