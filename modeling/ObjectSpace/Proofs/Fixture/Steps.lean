import ObjectSpace.Proofs.Fixture.Description
import ObjectSpace.Proofs.Store.Saving

set_option autoImplicit false

namespace ObjectSpace

open Store

variable {store next : Store} {front : List WorkspaceFixture} {workspace changed : WorkspaceFixture}
variable {record : WorkspaceRecord}

theorem name_eq_iff {user other : User} : user.name = other.name ↔ user = other := by
  cases user
  cases other
  simp

namespace WorkspaceFixture.HeldBy

open ObjectFixture

theorem numbered (held : workspace.HeldBy record) (id : Nat) :
    record.objects.contains id = true ↔ 1 ≤ id ∧ id ≤ workspace.objects.length := by
  rw [Table.contains, held.objects, Option.isSome_map, listed?_isSome]

theorem idFor_eq (held : workspace.HeldBy record) (ok : record.Consistent) (name : String) :
    record.idFor name = workspace.idOf name := by
  rcases record.idFor_cases ok name with
    ⟨object, named, present, same⟩ | ⟨unnamed, fresh, _⟩
  next =>
    rw [held.objects, Option.map_eq_some_iff] at present
    obtain ⟨listed, present, rfl⟩ := present
    obtain ⟨_, there⟩ := listed?_eq_some.mp present
    obtain rfl : listed.name = name := same
    -- Names are of one object each, so the first of the name is the one found.
    obtain ⟨first, stands, same⟩ := exists_getElem?_place (List.mem_of_getElem? there)
    have known : record.objectNames.get? listed.name =
        some (place listed.name workspace.objects + 1) := by
      apply (ok.named _ _).mpr
      refine ⟨first.record, ?_, same⟩
      rw [held.objects, listed?, stands, Option.map_some]
    exact Option.some.inj (named.symm.trans known)
  next =>
    have absent : place name workspace.objects = workspace.objects.length := by
      apply List.findIdx_eq_length.mpr
      intro listed mem
      obtain ⟨index, there⟩ := List.getElem?_of_mem mem
      apply decide_eq_false
      intro same
      have known : record.objectNames.get? name = some (index + 1) := by
        apply (ok.named name _).mpr
        refine ⟨listed.record, ?_, same⟩
        rw [held.objects]
        simp [listed?, there]
      rw [unnamed] at known
      cases known
    rw [fresh, nextId_eq held.numbered, WorkspaceFixture.idOf, absent]

theorem save (held : workspace.HeldBy record) (ok : record.Consistent) (name : String)
    (references : List Reference) :
    (workspace.add { name, versions := [references] }).HeldBy (record.save name references) := by
  refine { held with objects := fun id => ?_ }
  simp only [WorkspaceRecord.save, WorkspaceRecord.objectFor, Table.get?_insert, held.idFor_eq ok,
    WorkspaceFixture.listed?_add, held.objects, @eq_comm _ _ id]
  split
  next here =>
    subst here
    cases listed? workspace.objects (workspace.idOf name) <;>
      simp [ObjectFixture.record, join]
  next => rfl

theorem mark (held : workspace.HeldBy record) {name : String} {object : ObjectRecord}
    (present : record.objects.get? (workspace.idOf name) = some object) :
    (workspace.add { name, deleted := true }).HeldBy
      { record with
        objects := record.objects.insert (workspace.idOf name) { object with deleted := true } } := by
  refine { held with objects := fun id => ?_ }
  simp only [Table.get?_insert, WorkspaceFixture.listed?_add, held.objects, @eq_comm _ _ id]
  split
  next here =>
    subst here
    rw [held.objects, Option.map_eq_some_iff] at present
    obtain ⟨listed, present, rfl⟩ := present
    simp [present, ObjectFixture.record, join]
  next => rfl

theorem grant (held : workspace.HeldBy record) (user : User) (permission : Permission) :
    (workspace.permit (user.name, permission)).HeldBy
      { record with
        acl := if permission = Permission.none then record.acl.erase user
          else record.acl.insert user permission } := by
  refine { held with granted := fun other => ?_ }
  have before := held.granted other
  simp only [WorkspaceFixture.granted, WorkspaceFixture.permit, Table.get?_insert,
    name_eq_iff] at before ⊢
  by_cases same : user = other
  next => by_cases nothing : permission = Permission.none <;> simp [same, nothing, Table.get?_erase]
  next =>
    rw [if_neg same]
    refine Eq.trans ?_ before
    by_cases nothing : permission = Permission.none <;>
      simp [same, nothing, Table.get?_erase, Table.get?_insert]

theorem describes (held : workspace.HeldBy record) (ok : record.Consistent) :
    workspace.Describes record := by
  refine { held with names := fun name id => ?_ }
  simp only [ok.named, held.objects, Option.map_eq_some_iff]
  constructor
  next =>
    intro given
    obtain ⟨_, ⟨object, listed, rfl⟩, same⟩ := given
    exact ⟨object, listed, same⟩
  next =>
    intro given
    obtain ⟨object, listed, same⟩ := given
    exact ⟨_, ⟨object, listed, rfl⟩, same⟩

end WorkspaceFixture.HeldBy

namespace Fixture

open ObjectFixture

structure Loaded (store : Store) (workspaces : List WorkspaceFixture) : Prop where
  reachable : store.Reachable
  fits : store.VersionsFit
  held : ∀ id, Option.Rel WorkspaceFixture.HeldBy (listed? workspaces id)
    (store.workspaces.get? id)

theorem isSome_eq_of_rel {α β : Type} {r : α → β → Prop} {left : Option α} {right : Option β}
    (related : Option.Rel r left right) : left.isSome = right.isSome := by
  cases related <;> rfl

theorem ofName_name {name : String} {user : User} (made : User.ofName name = .ok user) :
    user.name = name := by
  unfold User.ofName at made
  split at made
  next => cases made
  next =>
    cases made
    rfl

theorem after_eq_ok {α : Type} {step : Except StoreError α × Store} :
    Fixture.after step = .ok next ↔ (∃ value, step.1 = .ok value) ∧ step.2 = next := by
  rcases step with ⟨_ | value, store⟩ <;> simp [Fixture.after, Except.map]

theorem createWorkspace_ok {owner : User} {name : String} {resolved : ResolvedWorkspace}
    (ran : store.createWorkspace owner name = (.ok resolved, next)) :
    resolved = ⟨nextId store.workspaces, name, false, false⟩ ∧
      next =
        { store with
          workspaces := store.workspaces.insert (nextId store.workspaces)
            { name, acl := Table.empty.insert owner .owner }
          workspaceNames := store.workspaceNames.insert name (nextId store.workspaces) } := by
  unfold createWorkspace at ran
  split at ran
  next => cases ran
  next =>
    split at ran
    next => cases ran
    next =>
      simp only at ran
      split at ran
      next => cases ran
      next made =>
        cases ran
        exact ⟨WorkspaceRecord.eq_shown_of_resolved made, rfl⟩

namespace Loaded

theorem empty : Loaded .empty [] := by
  refine ⟨.empty, by simp [VersionsFit, Store.empty, Table.values, Table.empty], fun id => ?_⟩
  cases id with
  | zero => exact .none
  | succ place => exact .none

theorem numbered {workspaces : List WorkspaceFixture} (loaded : Loaded store workspaces) (id : Nat) :
    store.workspaces.contains id = true ↔ 1 ≤ id ∧ id ≤ workspaces.length := by
  rw [← listed?_isSome, Table.contains, isSome_eq_of_rel (loaded.held id)]

theorem found (loaded : Loaded store (front ++ [workspace])) :
    ∃ record, store.workspaces.get? (front.length + 1) = some record ∧
      workspace.HeldBy record := by
  have held := loaded.held (front.length + 1)
  rw [listed?_append_singleton, if_pos rfl] at held
  cases present : store.workspaces.get? (front.length + 1) with
  | none =>
    rw [present] at held
    cases held
  | some record =>
    rw [present] at held
    cases held with
    | some held => exact ⟨record, rfl, held⟩

theorem put (earlier : ∀ id, id ≠ front.length + 1 →
      Option.Rel WorkspaceFixture.HeldBy (listed? front id) (store.workspaces.get? id))
    (fits : store.VersionsFit) (reachable : next.Reachable)
    (outcome : next.workspaces = store.workspaces.insert (front.length + 1) record)
    (held : workspace.HeldBy record)
    (few : ∀ id object, record.objects.get? id = some object →
      object.versions.length < Text.versionBound) : Loaded next (front ++ [workspace]) := by
  refine ⟨reachable, ?_, ?_⟩
  next =>
    intro other mem object mem'
    obtain ⟨id, present⟩ := Table.mem_values_iff.mp mem
    obtain ⟨key, there⟩ := Table.mem_values_iff.mp mem'
    rw [outcome, Table.get?_insert] at present
    split at present
    next =>
      cases present
      exact few key object there
    next => exact fits.length_lt present there
  next =>
    intro id
    rw [outcome, listed?_append_singleton, Table.get?_insert]
    by_cases here : id = front.length + 1
    next =>
      rw [if_pos here, if_pos here.symm]
      exact .some held
    next =>
      rw [if_neg here, if_neg (Ne.symm here)]
      exact earlier id here

theorem replace (loaded : Loaded store (front ++ [workspace])) (reachable : next.Reachable)
    (outcome : next.workspaces = store.workspaces.insert (front.length + 1) record)
    (held : changed.HeldBy record)
    (few : ∀ id object, record.objects.get? id = some object →
      object.versions.length < Text.versionBound) : Loaded next (front ++ [changed]) := by
  refine put (fun id apart => ?_) loaded.fits reachable outcome held few
  have before := loaded.held id
  rwa [listed?_append_singleton, if_neg apart] at before

theorem create (loaded : Loaded store front) {owner : User} {name : String}
    {resolved : ResolvedWorkspace}
    (ran : store.createWorkspace owner name = (.ok resolved, next)) :
    resolved.id = front.length + 1 ∧ resolved.name = name ∧
      Loaded next (front ++ [{ name, owner := owner.name }]) := by
  have reachable := loaded.reachable.update (.createWorkspace owner name)
  rw [Store.update, ran] at reachable
  obtain ⟨rfl, rfl⟩ := createWorkspace_ok ran
  have id_eq := nextId_eq loaded.numbered
  rw [id_eq] at reachable ⊢
  refine ⟨rfl, rfl, put ?_ loaded.fits reachable rfl ⟨rfl, rfl, rfl, rfl, ?_, ?_⟩ ?_⟩
  next => exact fun id _ => loaded.held id
  next =>
    intro user
    simp [WorkspaceFixture.granted, Table.get?_insert, name_eq_iff, @eq_comm _ owner]
  next =>
    intro id
    cases id <;> rfl
  next => simp

theorem update (loaded : Loaded store (front ++ [workspace]))
    {change : WorkspaceRecord → WorkspaceRecord}
    (ran : Fixture.after (store.updateWorkspace (front.length + 1) change) = .ok next)
    (reachable : (store.updateWorkspace (front.length + 1) change).2.Reachable)
    (objects : ∀ record, (change record).objects = record.objects)
    (holds : ∀ record, workspace.HeldBy record → changed.HeldBy (change record)) :
    Loaded next (front ++ [changed]) := by
  obtain ⟨_, rfl⟩ := after_eq_ok.mp ran
  obtain ⟨record, found, held⟩ := loaded.found
  have outcome : (store.updateWorkspace (front.length + 1) change).2.workspaces =
      store.workspaces.insert (front.length + 1) (change record) := by
    simp only [updateWorkspace, found]
  refine loaded.replace reachable outcome (holds record held) ?_
  intro id object present
  rw [objects] at present
  exact loaded.fits.length_lt found present

theorem share (loaded : Loaded store (front ++ [workspace])) {worldReadable : Bool}
    (ran : Fixture.after (store.setWorldReadable (front.length + 1) worldReadable) = .ok next) :
    Loaded next (front ++ [{ workspace with worldReadable }]) :=
  loaded.update ran (loaded.reachable.update (.setWorldReadable (front.length + 1) worldReadable))
    (fun _ => rfl) fun _ held => { held with worldReadable := rfl }

theorem lock (loaded : Loaded store (front ++ [workspace])) {locked : Bool}
    (ran : Fixture.after (store.setLocked (front.length + 1) locked) = .ok next) :
    Loaded next (front ++ [{ workspace with locked }]) :=
  loaded.update ran (loaded.reachable.update (.setLocked (front.length + 1) locked))
    (fun _ => rfl) fun _ held => { held with locked := rfl }

theorem delete (loaded : Loaded store (front ++ [workspace])) {deleted : Bool}
    (ran : Fixture.after (store.setWorkspaceDeleted (front.length + 1) deleted) = .ok next) :
    Loaded next (front ++ [{ workspace with deleted }]) :=
  loaded.update ran (loaded.reachable.update (.setWorkspaceDeleted (front.length + 1) deleted))
    (fun _ => rfl) fun _ held => { held with deleted := rfl }

theorem grant (loaded : Loaded store (front ++ [workspace])) {user : User}
    {permission : Permission}
    (ran : Fixture.after (store.setPermission (front.length + 1) user permission) = .ok next) :
    Loaded next (front ++ [workspace.permit (user.name, permission)]) :=
  loaded.update ran (loaded.reachable.update (.setPermission (front.length + 1) user permission))
    (fun _ => rfl) fun _ held => held.grant user permission

theorem save (loaded : Loaded store (front ++ [workspace])) {name : String}
    {references : List Reference} {saved : Reference}
    (ran : store.saveObject (front.length + 1) name references = (.ok saved, next)) :
    saved.object = workspace.idOf name ∧
      Loaded next (front ++ [workspace.add { name, versions := [references] }]) := by
  have reachable := loaded.reachable.update (.saveObject (front.length + 1) name references)
  rw [Store.update, ran] at reachable
  have consistent := loaded.reachable.consistent
  obtain ⟨in_workspace, record, saves⟩ := saveObject_saves consistent ran
  have found := saves.found
  rw [in_workspace] at found
  obtain ⟨_, found', held⟩ := loaded.found
  cases found'.symm.trans found
  have ok := consistent.records _ _ found
  refine ⟨saves.in_object.trans (held.idFor_eq ok name), ?_⟩
  refine loaded.replace reachable ?_ (held.save ok name references) ?_
  next => rw [saves.outcome, in_workspace]
  next =>
    intro id object present
    simp only [WorkspaceRecord.save, Table.get?_insert] at present
    split at present
    next =>
      -- The number of the new version has not come round to zero.
      cases present
      have positive := saved.version_pos
      have before : (record.objectFor name).versions.length < Text.versionBound := by
        cases prior : record.objects.get? (record.idFor name) with
        | none => simp [WorkspaceRecord.objectFor, prior, Text.versionBound]
        | some object =>
          simpa [WorkspaceRecord.objectFor, prior] using loaded.fits.length_lt found prior
      rw [saves.numbered, WorkspaceRecord.savedNumber] at positive
      rw [List.length_append, List.length_singleton]
      refine Nat.lt_of_le_of_ne before fun round => ?_
      rw [round, Nat.mod_self] at positive
      cases positive
    next => exact loaded.fits.length_lt found present

theorem mark (loaded : Loaded store (front ++ [workspace])) {name : String}
    (ran : Fixture.after (store.setObjectDeleted (front.length + 1)
      (workspace.idOf name) true) = .ok next) :
    Loaded next (front ++ [workspace.add { name, deleted := true }]) := by
  have reachable := loaded.reachable.update
    (.setObjectDeleted (front.length + 1) (workspace.idOf name) true)
  obtain ⟨⟨done, answered⟩, rfl⟩ := after_eq_ok.mp ran
  obtain ⟨record, found, held⟩ := loaded.found
  cases present : record.objects.get? (workspace.idOf name) with
  | none => simp [setObjectDeleted, found, present] at answered
  | some object =>
    refine loaded.replace reachable ?_ (held.mark present) ?_
    next => simp only [setObjectDeleted, found, present, updateWorkspace]
    next =>
      intro id other there
      rw [Table.get?_insert] at there
      split at there
      next =>
        have few := loaded.fits.length_lt found present
        cases there
        exact few
      next => exact loaded.fits.length_lt found there

end Loaded

end Fixture

end ObjectSpace
