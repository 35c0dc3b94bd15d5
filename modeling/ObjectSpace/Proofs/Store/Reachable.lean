import ObjectSpace.Proofs.Tables
import ObjectSpace.Store.Lookup
import ObjectSpace.Store.Update

set_option autoImplicit false

namespace ObjectSpace

inductive Update where
  | createWorkspace (owner : User) (name : String)
  | setPermission (workspace : Nat) (user : User) (permission : Permission)
  | setWorldReadable (workspace : Nat) (worldReadable : Bool)
  | setLocked (workspace : Nat) (locked : Bool)
  | setWorkspaceDeleted (workspace : Nat) (deleted : Bool)
  | saveObject (workspace : Nat) (name : String) (references : List Reference)
  | setObjectDeleted (workspace object : Nat) (deleted : Bool)

-- Beyond 32 bits several lists of references belong to one number.
def ObjectRecord.refersFrom (record : ObjectRecord) (version : Nat) (target : Reference) : Bool :=
  (record.versions.zipIdx 1).any fun saved =>
    saved.2 % Text.versionBound = version && target ∈ saved.1

def WorkspaceRecord.refersFrom (record : WorkspaceRecord) (object version : Nat)
    (target : Reference) : Bool :=
  (record.objects.get? object).any fun object => object.refersFrom version target

namespace Store

def update (store : Store) : Update → Store
  | .createWorkspace owner name => (store.createWorkspace owner name).2
  | .setPermission workspace user permission => (store.setPermission workspace user permission).2
  | .setWorldReadable workspace worldReadable =>
      (store.setWorldReadable workspace worldReadable).2
  | .setLocked workspace locked => (store.setLocked workspace locked).2
  | .setWorkspaceDeleted workspace deleted => (store.setWorkspaceDeleted workspace deleted).2
  | .saveObject workspace name references => (store.saveObject workspace name references).2
  | .setObjectDeleted workspace object deleted =>
      (store.setObjectDeleted workspace object deleted).2

inductive Reachable : Store → Prop where
  | empty : Reachable .empty
  | update {store : Store} (reachable : Reachable store) (update : Update) :
      Reachable (store.update update)

def run (updates : List Update) : Store := updates.foldl update empty

theorem Reachable.foldl {store : Store} (reachable : store.Reachable) (updates : List Update) :
    (updates.foldl Store.update store).Reachable := by
  induction updates generalizing store with
  | nil => exact reachable
  | cons first rest ih => exact ih (reachable.update first)

theorem reachable_run (updates : List Update) : (run updates).Reachable :=
  Reachable.empty.foldl updates

namespace Sample

-- Alice's only object leads, over a hidden one, to a deleted target.
def target : Reference := ⟨2, 1, 1, by decide, by decide, by decide, by decide⟩

def renewed : Reference := ⟨2, 1, 2, by decide, by decide, by decide, by decide⟩

def middle : Reference := ⟨2, 2, 1, by decide, by decide, by decide, by decide⟩

def root : Reference := ⟨1, 1, 1, by decide, by decide, by decide, by decide⟩

def updates : List Update :=
  [.createWorkspace ⟨"alice"⟩ "top", .createWorkspace ⟨"bob"⟩ "hidden",
    .saveObject 2 "target" [], .saveObject 2 "middle" [target, target],
    .saveObject 1 "root" [middle], .saveObject 1 "root" [root, ⟨9, 9, 9, by decide, by decide,
      by decide, by decide⟩], .setObjectDeleted 2 1 true, .setLocked 2 true]

end Sample

def sample : Store := run Sample.updates

theorem reachable_sample : sample.Reachable := reachable_run _

def VersionsFit (store : Store) : Prop :=
  ∀ workspace ∈ store.workspaces.values, ∀ object ∈ workspace.objects.values,
    object.versions.length < Text.versionBound

instance (store : Store) : Decidable store.VersionsFit :=
  inferInstanceAs (Decidable (∀ _ ∈ _, ∀ _ ∈ _, _ < _))

def referrers (store : Store) (target : Reference) : List Reference :=
  (store.incoming.get? target).getD []

def refersTo (store : Store) (source target : Reference) : Bool :=
  (store.workspaces.get? source.workspace).any fun record =>
    record.refersFrom source.object source.version target

def references? (store : Store) (reference : Reference) : Option (List Reference) := do
  let record ← store.object? reference
  record.versions[reference.version - 1]?

end Store

def Numbered {ν : Type} (table : Table Nat ν) : Prop :=
  ∃ count, ∀ id, table.contains id = true ↔ 1 ≤ id ∧ id ≤ count

structure WorkspaceRecord.Consistent (record : WorkspaceRecord) : Prop where
  name_valid : Name.checkWorkspace record.name = .ok ()
  numbered : Numbered record.objects
  named : ∀ name id, record.objectNames.get? name = some id ↔
    ∃ object, record.objects.get? id = some object ∧ object.name = name
  object_name_valid : ∀ id object, record.objects.get? id = some object →
    Name.checkObject object.name = .ok ()
  saved : ∀ id object, record.objects.get? id = some object → object.versions ≠ []
  granted : ∀ user, record.acl.get? user ≠ some .none

-- Holds however many versions an object has.
structure Store.Consistent (store : Store) : Prop where
  numbered : Numbered store.workspaces
  named : ∀ name id, store.workspaceNames.get? name = some id ↔
    ∃ record, store.workspaces.get? id = some record ∧ record.name = name
  records : ∀ id record, store.workspaces.get? id = some record → record.Consistent
  referred : ∀ source target,
    source ∈ store.referrers target ↔ store.refersTo source target = true
  referrers_nodup : ∀ target, (store.referrers target).Nodup

structure Store.WellFormed (store : Store) : Prop extends store.Consistent where
  transpose : ∀ source target, source ∈ store.referrers target ↔
    ∃ references, store.references? source = some references ∧ target ∈ references
  stored : ∀ source references, store.references? source = some references →
    ∀ target ∈ references, store.holds target = true

end ObjectSpace
