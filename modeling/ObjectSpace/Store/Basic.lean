import ObjectSpace.Address.Resolved
import ObjectSpace.PermissionSet
import ObjectSpace.Store.Error

set_option autoImplicit false

namespace ObjectSpace

structure ObjectRecord where
  name : String
  deleted : Bool := false
  versions : List (List Reference) := []

structure WorkspaceRecord where
  name : String
  locked : Bool := false
  deleted : Bool := false
  worldReadable : Bool := false
  acl : Table User Permission := .empty
  objects : Table Nat ObjectRecord := .empty
  objectNames : Table String Nat := .empty

structure Store where
  workspaces : Table Nat WorkspaceRecord := .empty
  workspaceNames : Table String Nat := .empty
  incoming : Table Reference (List Reference) := .empty

def nextId {ν : Type} (table : Table Nat ν) : Nat := table.keys.foldl max 0 + 1

namespace ObjectRecord

-- Narrowed to 32 bits.
def latestVersion (record : ObjectRecord) : Nat := record.versions.length % Text.versionBound

def hasVersion (record : ObjectRecord) (version : Nat) : Bool :=
  1 ≤ version && version ≤ record.latestVersion

end ObjectRecord

namespace WorkspaceRecord

def resolved (record : WorkspaceRecord) (id : Nat) : Except ValueError ResolvedWorkspace :=
  ResolvedWorkspace.make id record.name record.locked record.deleted

def userPermission (record : WorkspaceRecord) (user : Option User) : Permission :=
  match user with
  | none => .none
  | some user => (record.acl.get? user).getD .none

def worldPermission (record : WorkspaceRecord) : Permission :=
  if record.worldReadable then .read else .none

def grant (record : WorkspaceRecord) (user : Option User) : Grant where
  user := record.userPermission user
  world := record.worldPermission

def objectId? (record : WorkspaceRecord) (key : ObjectKey) : Option Nat :=
  match key with
  | .id id => if record.objects.contains id then some id else none
  | .name name => record.objectNames.get? name

end WorkspaceRecord

namespace Store

def empty : Store := {}

def find? (store : Store) (key : WorkspaceKey) : Option (Nat × WorkspaceRecord) := do
  let id ← match key with
    | .id id => some id
    | .name name => store.workspaceNames.get? name
  let record ← store.workspaces.get? id
  return (id, record)

def object? (store : Store) (reference : Reference) : Option ObjectRecord := do
  let workspace ← store.workspaces.get? reference.workspace
  let record ← workspace.objects.get? reference.object
  if record.hasVersion reference.version then some record else none

def holds (store : Store) (reference : Reference) : Bool := (store.object? reference).isSome

def summary (store : Store) : String :=
  "InMemoryWorkspaceStore \x7b workspace_count: " ++ toString store.workspaces.size ++ " \x7d"

end Store

end ObjectSpace
