import ObjectSpace.Store.Update

set_option autoImplicit false

namespace ObjectSpace

structure ObjectFixture where
  name : String
  deleted : Bool := false
  versions : List (List Reference) := []

structure WorkspaceFixture where
  name : String
  owner : String
  locked : Bool := false
  deleted : Bool := false
  worldReadable : Bool := false
  permissions : Table String Permission := .empty
  objects : List ObjectFixture := []

structure Fixture where
  workspaces : List WorkspaceFixture := []

namespace Fixture

def after {α : Type} (step : Except StoreError α × Store) : Except StoreError Store :=
  step.1.map fun _ => step.2

-- Grants are made in the order of the users' names.
def grantAll (workspace : Nat) (permissions : Table String Permission) (store : Store) :
    Except StoreError Store :=
  (permissions.entries.mergeSort fun left right => left.1 ≤ right.1).foldlM (fun store entry => do
    let user ← (User.ofName entry.1).mapError .value
    after (store.setPermission workspace user entry.2)) store

def saveVersions (workspace : Nat) (name : String) (versions : List (List Reference))
    (store : Store) : Except StoreError (Option Reference × Store) :=
  versions.foldlM (fun (_, store) references => do
    let (saved, store) := store.saveObject workspace name references
    return (some (← saved), store)) (none, store)

def loadObject (workspace : ResolvedWorkspace) (store : Store) (object : ObjectFixture) :
    Except StoreError Store := do
  if object.versions = [] then throw (.noVersions workspace.name object.name)
  match ← saveVersions workspace.id object.name object.versions store with
  | (some last, store) =>
    if object.deleted then after (store.setObjectDeleted workspace.id last.object true)
    else return store
  | (none, store) => return store

-- The flags come last: nothing can be saved in a deleted workspace.
def loadWorkspace (store : Store) (workspace : WorkspaceFixture) : Except StoreError Store := do
  let owner ← (User.ofName workspace.owner).mapError .value
  let (created, store) := store.createWorkspace owner workspace.name
  let resolved ← created
  let store ← grantAll resolved.id workspace.permissions store
  let store ← workspace.objects.foldlM (loadObject resolved) store
  let store ← after (store.setWorldReadable resolved.id workspace.worldReadable)
  let store ← after (store.setLocked resolved.id workspace.locked)
  after (store.setWorkspaceDeleted resolved.id workspace.deleted)

def toStore (fixture : Fixture) : Except StoreError Store :=
  fixture.workspaces.foldlM loadWorkspace .empty

end Fixture

end ObjectSpace
