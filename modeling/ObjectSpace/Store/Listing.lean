import ObjectSpace.Reference.Cursor
import ObjectSpace.Store.Basic

set_option autoImplicit false

namespace ObjectSpace

structure ListedObject where
  reference : Reference
  name : String
  workspaceName : String
  deleted : Bool
  deriving DecidableEq

structure Listing where
  permissions : PermissionSet
  startAfter : Cursor := .start
  limit : Nat := 10000
  showDeleted : Bool := false
  showOnlyDeleted : Bool := false
  showAllVersions : Bool := false
  minObjectId : Option Nat := none
  maxObjectId : Option Nat := none

namespace Listing

def maxLimit : Nat := 10000

-- Zero and sizes beyond the largest mean the largest.
def withLimit (listing : Listing) (limit : Nat) : Listing :=
  { listing with limit := if limit = 0 ∨ maxLimit < limit then maxLimit else limit }

def includes (listing : Listing) (object : Nat) (deleted : Bool) : Bool :=
  listing.minObjectId.all (· ≤ object) && listing.maxObjectId.all (object ≤ ·) &&
    if listing.showOnlyDeleted then deleted else listing.showDeleted || !deleted

def versions (listing : Listing) (object : ObjectRecord) : List Nat :=
  if listing.showAllVersions then List.range' 1 object.latestVersion else [object.latestVersion]

def objectRows (listing : Listing) (workspace : Nat) (record : WorkspaceRecord) (id : Nat)
    (object : ObjectRecord) : Except ValueError (List ListedObject) :=
  if listing.includes id object.deleted then
    (listing.versions object).mapM fun version => do
      let reference ← Reference.ofParts workspace id version
      return { reference, name := object.name, workspaceName := record.name,
               deleted := object.deleted }
  else .ok []

-- Whether it is deleted now decides, not what the set has noted.
def workspaceRows (listing : Listing) (store : Store) (workspace : ResolvedWorkspace) :
    Except ValueError (List ListedObject) :=
  if listing.permissions.hasPermission workspace .read then
    match store.workspaces.get? workspace.id with
    | none => .ok []
    | some record =>
      if record.deleted then .ok []
      else do
        let rows ← record.objects.entries.mapM fun entry =>
          listing.objectRows workspace.id record entry.1 entry.2
        return rows.flatten
  else .ok []

def rows (listing : Listing) (store : Store) : Except ValueError (List ListedObject) := do
  let rows ← listing.permissions.workspaces.mapM (listing.workspaceRows store)
  return rows.flatten.mergeSort fun left right => left.reference.listedBefore right.reference

def page (listing : Listing) (store : Store) : Except StoreError (List ListedObject) := do
  let rows ← (listing.rows store).mapError .value
  return (rows.filter fun row => listing.startAfter.admits row.reference).take listing.limit

def resumeAfter (listing : Listing) (row : ListedObject) : Except ValueError Listing := do
  let startAfter ← Cursor.ofParts (some row.reference.workspace) (some row.reference.object)
    (some row.reference.version)
  return { listing with startAfter }

def pages (listing : Listing) (store : Store) : Nat → Except StoreError (List (List ListedObject))
  | 0 => .ok []
  | most + 1 => do
    let rows ← listing.page store
    match rows.getLast? with
    | none => return []
    | some last => do
      let listing ← (listing.resumeAfter last).mapError .value
      return rows :: (← listing.pages store most)

end Listing

end ObjectSpace
