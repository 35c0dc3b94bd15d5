import ObjectSpace.Enquiry.Faults
import ObjectSpace.Proofs.Store.Recordwise

set_option autoImplicit false

namespace ObjectSpace

structure WorkspaceRecord.Regranted (before after : WorkspaceRecord) : Prop where
  name : after.name = before.name
  locked : after.locked = before.locked
  deleted : after.deleted = before.deleted
  objects : after.objects = before.objects
  objectNames : after.objectNames = before.objectNames

def Update.isGrant : Update → Bool
  | .setPermission _ _ _ => true
  | .setWorldReadable _ _ => true
  | _ => false

theorem WorkspaceRecord.Regranted.refl (record : WorkspaceRecord) : record.Regranted record :=
  ⟨rfl, rfl, rfl, rfl, rfl⟩

theorem WorkspaceRecord.Regranted.trans (record now later : WorkspaceRecord)
    (first : record.Regranted now) (second : now.Regranted later) : record.Regranted later :=
  ⟨second.name.trans first.name, second.locked.trans first.locked,
    second.deleted.trans first.deleted, second.objects.trans first.objects,
    second.objectNames.trans first.objectNames⟩

theorem WorkspaceRecord.Regranted.shown (record now : WorkspaceRecord)
    (regranted : record.Regranted now) (id : Nat) : now.shown id = record.shown id := by
  simp [WorkspaceRecord.shown, regranted.name, regranted.locked, regranted.deleted]

theorem WorkspaceRecord.Regranted.objectId? {record now : WorkspaceRecord}
    (regranted : record.Regranted now) (key : ObjectKey) :
    now.objectId? key = record.objectId? key := by
  cases key <;> simp [WorkspaceRecord.objectId?, regranted.objects, regranted.objectNames]

namespace Store

structure Regranted (before after : Store) : Prop
    extends before.Recordwise WorkspaceRecord.Regranted after where
  incoming : after.incoming = before.incoming

namespace Regranted

variable {store after : Store}

theorem refl (store : Store) : store.Regranted store :=
  ⟨Recordwise.refl .refl store, rfl⟩

theorem trans {last : Store} (first : store.Regranted after) (second : after.Regranted last) :
    store.Regranted last :=
  ⟨Recordwise.trans .trans first.toRecordwise second.toRecordwise,
    second.incoming.trans first.incoming⟩

theorem updateWorkspace {change : WorkspaceRecord → WorkspaceRecord} (workspace : Nat)
    (changes : ∀ record : WorkspaceRecord, record.Regranted (change record)) :
    store.Regranted (store.updateWorkspace workspace change).2 := by
  refine ⟨Recordwise.updateWorkspace .refl fun record _ => changes record, ?_⟩
  simp only [Store.updateWorkspace]
  split <;> rfl

theorem update {update : Update} (grant : update.isGrant = true) (store : Store) :
    store.Regranted (store.update update) := by
  cases update with
  | setPermission workspace user permission =>
    exact updateWorkspace workspace fun _ => ⟨rfl, rfl, rfl, rfl, rfl⟩
  | setWorldReadable workspace worldReadable =>
    exact updateWorkspace workspace fun _ => ⟨rfl, rfl, rfl, rfl, rfl⟩
  | _ => cases grant

theorem foldl {updates : List Update} (grants : ∀ update ∈ updates, update.isGrant = true)
    (store : Store) : store.Regranted (updates.foldl Store.update store) := by
  induction updates generalizing store with
  | nil => exact refl store
  | cons first rest ih =>
    have here := update (grants first List.mem_cons_self) store
    exact here.trans (ih (fun update mem => grants update (List.mem_cons_of_mem _ mem)) _)

variable (regranted : store.Recordwise WorkspaceRecord.Regranted after)

include regranted

theorem resolveOne_eq (suppress : Bool) (key : WorkspaceKey) :
    after.resolveOne suppress key = store.resolveOne suppress key := by
  cases found : store.find? key with
  | none => simp [resolveOne, found, regranted.find?_eq_none found]
  | some entry =>
    rcases regranted.find?_eq_some found with ⟨now, present, same⟩
    simp [resolveOne, found, present, WorkspaceRecord.resolved, same.name, same.locked,
      same.deleted]

theorem referenceOf_eq (address : ResolvedAddress) :
    after.referenceOf address = store.referenceOf address := by
  cases found : store.workspaces.get? address.workspace.id with
  | none => simp [referenceOf, found, regranted.missing _ found]
  | some record =>
    rcases regranted.records _ record found with ⟨now, present, same⟩
    simp [referenceOf, found, present, same.objectId?, same.objects]

theorem stored?_eq (address : ResolvedAddress) :
    after.stored? address = store.stored? address := by
  cases found : store.workspaces.get? address.workspace.id with
  | none => simp [stored?, found, regranted.missing _ found]
  | some record =>
    rcases regranted.records _ record found with ⟨now, present, same⟩
    simp [stored?, found, present, same.objectId?, same.objects]

theorem object?_eq (reference : Reference) : after.object? reference = store.object? reference := by
  cases found : store.workspaces.get? reference.workspace with
  | none => simp [object?, found, regranted.missing _ found]
  | some record =>
    rcases regranted.records _ record found with ⟨now, present, same⟩
    simp [object?, found, present, same.objects]

theorem stateOf_eq (reference : Reference) :
    after.stateOf reference = store.stateOf reference := by
  cases found : store.workspaces.get? reference.workspace with
  | none => simp [stateOf, found, regranted.missing _ found]
  | some record =>
    rcases regranted.records _ record found with ⟨now, present, same⟩
    simp [stateOf, found, present, object?_eq regranted, same.deleted]

theorem refersTo_eq (source target : Reference) :
    after.refersTo source target = store.refersTo source target := by
  cases found : store.workspaces.get? source.workspace with
  | none => simp [refersTo, found, regranted.missing _ found]
  | some record =>
    rcases regranted.records _ record found with ⟨now, present, same⟩
    simp [refersTo, found, present, WorkspaceRecord.refersFrom, same.objects]

omit regranted in
theorem answer_eq (regranted : store.Regranted after) {query : Query}
    (unasked : query.kind ≠ .permissions ∧ query.kind ≠ .allPermissions) :
    after.answer query = store.answer query := by
  have same := regranted.toRecordwise
  cases query with
  | resolveWorkspaces keys suppress =>
    simp only [answer, resolveWorkspaces, resolveOne_eq same]
  | permissions => exact absurd rfl unasked.1
  | allPermissions => exact absurd rfl unasked.2
  | objectReferences addresses => simp only [answer, objectReferences, referenceOf_eq same]
  | objectStates references =>
    have states : after.stateOf = store.stateOf := funext (stateOf_eq same)
    simp only [answer, objectStates, states]
  | incomingReferences references =>
    simp only [answer, incomingReferences, regranted.incoming]

end Regranted

end Store

end ObjectSpace
