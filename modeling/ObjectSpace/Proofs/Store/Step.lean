import ObjectSpace.Proofs.Store.Reachable

set_option autoImplicit false

namespace ObjectSpace

theorem foldl_max_le_iff (numbers : List Nat) (start bound : Nat) :
    numbers.foldl max start ≤ bound ↔ start ≤ bound ∧ ∀ number ∈ numbers, number ≤ bound := by
  induction numbers generalizing start with
  | nil => simp
  | cons first rest ih =>
    rw [List.foldl_cons, ih, Nat.max_le, and_assoc]
    simp only [List.mem_cons, forall_eq_or_imp]

section Numbering

variable {ν : Type} {table : Table Nat ν}

theorem nextId_unused (table : Table Nat ν) : table.get? (nextId table) = none := by
  cases used : table.get? (nextId table) with
  | none => rfl
  | some value =>
    have mem : nextId table ∈ table.keys := Table.mem_keys_iff.mpr (by simp [used])
    have bound := ((foldl_max_le_iff table.keys 0 _).mp (Nat.le_refl _)).2 _ mem
    simp only [nextId] at bound
    omega

theorem nextId_pos (table : Table Nat ν) : 0 < nextId table := Nat.succ_pos _

theorem nextId_eq {count : Nat}
    (numbered : ∀ id, table.contains id = true ↔ 1 ≤ id ∧ id ≤ count) :
    nextId table = count + 1 := by
  have keys : ∀ id, id ∈ table.keys ↔ 1 ≤ id ∧ id ≤ count := fun id =>
    Table.mem_keys_iff.trans (numbered id)
  have upper : table.keys.foldl max 0 ≤ count :=
    (foldl_max_le_iff _ _ _).mpr ⟨Nat.zero_le _, fun id mem => ((keys id).mp mem).2⟩
  have lower : count ≤ table.keys.foldl max 0 := by
    by_cases zero : count = 0
    · omega
    · exact ((foldl_max_le_iff table.keys 0 _).mp (Nat.le_refl _)).2 _
        ((keys count).mpr ⟨by omega, Nat.le_refl _⟩)
  simp only [nextId]
  omega

theorem Numbered.pos (numbered : Numbered table) {id : Nat} {value : ν}
    (found : table.get? id = some value) : 0 < id := by
  obtain ⟨count, exact⟩ := numbered
  exact ((exact id).mp (by simp [Table.contains, found])).1

theorem Numbered.insert_next (numbered : Numbered table) (value : ν) :
    Numbered (table.insert (nextId table) value) := by
  obtain ⟨count, exact⟩ := numbered
  refine ⟨count + 1, fun id => ?_⟩
  rw [nextId_eq exact, Table.contains, Table.get?_insert]
  by_cases last : count + 1 = id
  · simp [last]
    omega
  · have before := exact id
    simp only [Table.contains] at before
    rw [if_neg last, before]
    omega

theorem Numbered.insert_used (numbered : Numbered table) {id : Nat} {previous : ν}
    (found : table.get? id = some previous) (value : ν) : Numbered (table.insert id value) := by
  obtain ⟨count, exact⟩ := numbered
  refine ⟨count, fun other => ?_⟩
  rw [← exact other, Table.contains, Table.contains, Table.get?_insert]
  by_cases same : id = other
  · simp [← same, found]
  · simp [same]

end Numbering

namespace WorkspaceRecord

def idFor (record : WorkspaceRecord) (name : String) : Nat :=
  (record.objectNames.get? name).getD (nextId record.objects)

def objectFor (record : WorkspaceRecord) (name : String) : ObjectRecord :=
  (record.objects.get? (record.idFor name)).getD { name }

def save (record : WorkspaceRecord) (name : String) (references : List Reference) :
    WorkspaceRecord :=
  let object := record.objectFor name
  { record with
    objects := record.objects.insert (record.idFor name)
      { object with versions := object.versions ++ [references] }
    objectNames := record.objectNames.insert name (record.idFor name) }

def savedNumber (record : WorkspaceRecord) (name : String) : Nat :=
  ((record.objectFor name).versions.length + 1) % Text.versionBound

-- Only flags, grants and the marks of deleted objects differ.
structure SameObjects (before after : WorkspaceRecord) : Prop where
  name : after.name = before.name
  objectNames : after.objectNames = before.objectNames
  objects : ∀ id, (after.objects.get? id).map (fun object => (object.name, object.versions)) =
    (before.objects.get? id).map fun object => (object.name, object.versions)

structure SameContents (before after : WorkspaceRecord) : Prop
    extends SameObjects before after where
  granted : (∀ user, before.acl.get? user ≠ some .none) →
    ∀ user, after.acl.get? user ≠ some .none

variable {record : WorkspaceRecord}

theorem idFor_cases (ok : record.Consistent) (name : String) :
    (∃ object, record.objectNames.get? name = some (record.idFor name) ∧
      record.objects.get? (record.idFor name) = some object ∧ object.name = name) ∨
    (record.objectNames.get? name = none ∧ record.idFor name = nextId record.objects ∧
      record.objects.get? (record.idFor name) = none) := by
  cases named : record.objectNames.get? name with
  | some id =>
    obtain ⟨object, found, same⟩ := (ok.named name id).mp named
    exact .inl ⟨object, by simp [idFor, named], by simpa [idFor, named] using found, same⟩
  | none =>
    have next : record.idFor name = nextId record.objects := by simp [idFor, named]
    exact .inr ⟨rfl, next, next ▸ nextId_unused record.objects⟩

theorem idFor_pos (ok : record.Consistent) (name : String) : 0 < record.idFor name := by
  rcases idFor_cases ok name with ⟨object, _, found, _⟩ | ⟨_, next, _⟩
  · exact ok.numbered.pos found
  · exact next ▸ nextId_pos record.objects

theorem latestVersion_append (record : WorkspaceRecord) (name : String)
    (references : List Reference) :
    ({ record.objectFor name with
      versions := (record.objectFor name).versions ++ [references] } : ObjectRecord).latestVersion =
        record.savedNumber name := by
  simp [ObjectRecord.latestVersion, savedNumber]

theorem savedNumber_eq {name : String}
    (few : (record.objectFor name).versions.length + 1 < Text.versionBound) :
    record.savedNumber name = (record.objectFor name).versions.length + 1 :=
  Nat.mod_eq_of_lt few

theorem objectFor_name (ok : record.Consistent) (name : String) :
    (record.objectFor name).name = name := by
  rcases idFor_cases ok name with ⟨object, _, found, same⟩ | ⟨_, _, missing⟩
  · simpa [objectFor, found] using same
  · simp [objectFor, missing]

end WorkspaceRecord

namespace Store

inductive Step (store : Store) : Store → Prop where
  | refused : Step store store
  | created (owner : User) (name : String) (valid : Name.checkWorkspace name = .ok ())
      (unused : store.workspaceNames.get? name = none) :
      Step store
        { store with
          workspaces := store.workspaces.insert (nextId store.workspaces)
            { name, acl := Table.empty.insert owner .owner }
          workspaceNames := store.workspaceNames.insert name (nextId store.workspaces) }
  | changed (workspace : Nat) (record after : WorkspaceRecord)
      (found : store.workspaces.get? workspace = some record)
      (same : record.SameContents after) :
      Step store { store with workspaces := store.workspaces.insert workspace after }
  | saved (workspace : Nat) (record : WorkspaceRecord) (name : String)
      (references : List Reference) (reference : Reference)
      (found : store.workspaces.get? workspace = some record)
      (valid : Name.checkObject name = .ok ())
      (held : ∀ target ∈ references, store.holds target = true)
      (in_workspace : reference.workspace = workspace)
      (in_object : reference.object = record.idFor name)
      (numbered : reference.version = record.savedNumber name) :
      Step store
        { store with
          workspaces := store.workspaces.insert workspace (record.save name references)
          incoming := addIncoming store.incoming reference references }
  | overflowed (workspace : Nat) (record : WorkspaceRecord) (name : String)
      (references : List Reference)
      (found : store.workspaces.get? workspace = some record)
      (valid : Name.checkObject name = .ok ())
      (held : ∀ target ∈ references, store.holds target = true)
      (numbered : record.savedNumber name = 0) :
      Step store
        { store with
          workspaces := store.workspaces.insert workspace (record.save name references) }

variable {store : Store}

theorem withObject_save {record : WorkspaceRecord} (ok : record.Consistent) (name : String)
    (references : List Reference) :
    ∃ opened, withObject record name = (record.idFor name, opened) ∧
      opened.objects.get? (record.idFor name) = some (record.objectFor name) ∧
      { opened with
        objects := opened.objects.insert (record.idFor name)
          { record.objectFor name with
            versions := (record.objectFor name).versions ++ [references] } } =
        record.save name references := by
  cases named : record.objectNames.get? name with
  | some id =>
    obtain ⟨object, found, _⟩ := (ok.named name id).mp named
    have unchanged : record.objectNames.insert name id = record.objectNames :=
      Table.insert_of_get? named
    refine ⟨record, ?_, ?_, ?_⟩
    · simp [withObject, named, WorkspaceRecord.idFor]
    · simp [named, found, WorkspaceRecord.idFor, WorkspaceRecord.objectFor]
    · simp [named, unchanged, WorkspaceRecord.save, WorkspaceRecord.idFor]
  | none =>
    have missing := nextId_unused record.objects
    refine ⟨{ record with
      objects := record.objects.insert (nextId record.objects) { name }
      objectNames := record.objectNames.insert name (nextId record.objects) }, ?_, ?_, ?_⟩
    · simp [withObject, named, WorkspaceRecord.idFor]
    · simp [named, missing, WorkspaceRecord.idFor, WorkspaceRecord.objectFor]
    · simp [named, Table.insert_insert, WorkspaceRecord.save, WorkspaceRecord.idFor]

theorem appendVersion_eq (store : Store) (workspace : Nat) {record : WorkspaceRecord}
    (ok : record.Consistent) (name : String) (references : List Reference) :
    store.appendVersion workspace record name references =
      let after : Store :=
        { store with
          workspaces := store.workspaces.insert workspace (record.save name references) }
      match Reference.ofParts workspace (record.idFor name) (record.savedNumber name) with
      | .error cause => (.error (.value cause), after)
      | .ok saved =>
        (.ok saved, { after with incoming := addIncoming store.incoming saved references }) := by
  obtain ⟨opened, split, present, saved⟩ := withObject_save ok name references
  cases made : Reference.ofParts workspace (record.idFor name) (record.savedNumber name) <;>
    simp only [appendVersion, split, present, saved, WorkspaceRecord.latestVersion_append, made]

theorem ofParts_eq_ok {workspace object version : Nat} {reference : Reference}
    (made : Reference.ofParts workspace object version = .ok reference) :
    reference.workspace = workspace ∧ reference.object = object ∧ reference.version = version := by
  simp only [Reference.ofParts] at made
  split at made
  · cases made
    exact ⟨rfl, rfl, rfl⟩
  · cases made

theorem updateWorkspace_step {workspace : Nat} {change : WorkspaceRecord → WorkspaceRecord}
    (same : ∀ record, store.workspaces.get? workspace = some record →
      record.SameContents (change record)) :
    store.Step (store.updateWorkspace workspace change).2 := by
  cases found : store.workspaces.get? workspace with
  | none =>
    simp only [updateWorkspace, found]
    exact .refused
  | some record =>
    simp only [updateWorkspace, found]
    exact .changed workspace record _ found (same record found)

theorem createWorkspace_cases (store : Store) (owner : User) (name : String) :
    (∃ cause, store.createWorkspace owner name = (.error cause, store)) ∨
      Name.checkWorkspace name = .ok () ∧ store.workspaceNames.get? name = none ∧
        (store.createWorkspace owner name).2 =
          { store with
            workspaces := store.workspaces.insert (nextId store.workspaces)
              { name, acl := Table.empty.insert owner .owner }
            workspaceNames := store.workspaceNames.insert name (nextId store.workspaces) } := by
  cases valid : Name.checkWorkspace name with
  | error cause => exact .inl ⟨.value cause, by simp only [createWorkspace, valid]⟩
  | ok =>
    cases unused : store.workspaceNames.get? name with
    | some id =>
      refine .inl ⟨.workspaceNameInUse name, ?_⟩
      simp only [createWorkspace, valid, Table.contains, unused, Option.isSome_some, if_true]
    | none =>
      have resolved : ({ name, acl := Table.empty.insert owner .owner } : WorkspaceRecord).resolved
          (nextId store.workspaces) = .ok
            { id := nextId store.workspaces, name, locked := false, deleted := false } := by
        have positive : ¬ nextId store.workspaces < 1 := by
          have := nextId_pos store.workspaces
          omega
        simp [WorkspaceRecord.resolved, ResolvedWorkspace.make, positive, valid, bind, Except.bind,
          pure, Except.pure]
      refine .inr ⟨rfl, rfl, ?_⟩
      simp only [createWorkspace, valid, Table.contains, unused, resolved, Option.isSome_none,
        Bool.false_eq_true, if_false]

theorem createWorkspace_step (owner : User) (name : String) :
    store.Step (store.createWorkspace owner name).2 := by
  rcases store.createWorkspace_cases owner name with ⟨cause, refused⟩ | ⟨valid, unused, created⟩
  · rw [refused]
    exact .refused
  · rw [created]
    exact .created owner name valid unused

theorem setObjectDeleted_step (workspace object : Nat) (deleted : Bool) :
    store.Step (store.setObjectDeleted workspace object deleted).2 := by
  cases found : store.workspaces.get? workspace with
  | none =>
    simp only [setObjectDeleted, found]
    exact .refused
  | some record =>
    cases entry : record.objects.get? object with
    | none =>
      simp only [setObjectDeleted, found, entry]
      exact .refused
    | some marked =>
      simp only [setObjectDeleted, found, entry]
      apply updateWorkspace_step
      intro other same
      cases found.symm.trans same
      refine ⟨⟨rfl, rfl, fun id => ?_⟩, id⟩
      rw [Table.get?_insert]
      split
      next equal => simp [← equal, entry]
      next => rfl

theorem saveObject_cases (store : Store) (workspace : Nat) (name : String)
    (references : List Reference) :
    (∃ cause, store.saveObject workspace name references = (.error cause, store)) ∨
      ∃ record, store.workspaces.get? workspace = some record ∧
        Name.checkObject name = .ok () ∧ (∀ target ∈ references, store.holds target = true) ∧
        store.saveObject workspace name references =
          store.appendVersion workspace record name references := by
  simp only [saveObject]
  cases valid : Name.checkObject name with
  | error cause => exact .inl ⟨_, rfl⟩
  | ok =>
    cases dangling : references.find? fun reference => !store.holds reference with
    | some target => exact .inl ⟨_, rfl⟩
    | none =>
      have held : ∀ target ∈ references, store.holds target = true := by
        simpa using dangling
      cases found : store.workspaces.get? workspace with
      | none => exact .inl ⟨_, rfl⟩
      | some record =>
        cases live : record.deleted with
        | true => exact .inl ⟨_, if_pos live⟩
        | false => exact .inr ⟨record, rfl, rfl, held, if_neg (by simp [live])⟩

theorem saveObject_step (consistent : store.Consistent) (workspace : Nat) (name : String)
    (references : List Reference) :
    store.Step (store.saveObject workspace name references).2 := by
  rcases store.saveObject_cases workspace name references with
    ⟨cause, refused⟩ | ⟨record, found, valid, held, appended⟩
  · rw [refused]
    exact .refused
  · have ok := consistent.records workspace record found
    rw [appended, appendVersion_eq store workspace ok]
    cases made : Reference.ofParts workspace (record.idFor name) (record.savedNumber name) with
    | ok saved =>
      obtain ⟨in_workspace, in_object, numbered⟩ := ofParts_eq_ok made
      exact .saved workspace record name references saved found valid held in_workspace in_object
        numbered
    | error cause =>
      -- The ids are positive and the number is below the bound, so it is zero.
      have positive := consistent.numbered.pos found
      have object_pos := WorkspaceRecord.idFor_pos ok name
      have bound : record.savedNumber name < Text.versionBound :=
        Nat.mod_lt _ (by decide)
      have zero : record.savedNumber name = 0 := by
        simp only [Reference.ofParts, positive, object_pos, bound, true_and, and_true] at made
        split at made
        · cases made
        · omega
      exact .overflowed workspace record name references found valid held zero

theorem update_step (consistent : store.Consistent) (update : Update) :
    store.Step (store.update update) := by
  have same (record after : WorkspaceRecord) (name : after.name = record.name)
      (objects : after.objects = record.objects) (names : after.objectNames = record.objectNames)
      (acl : after.acl = record.acl) : record.SameContents after :=
    ⟨⟨name, names, fun _ => by rw [objects]⟩, fun granted => by rwa [acl]⟩
  cases update with
  | createWorkspace owner name => exact createWorkspace_step owner name
  | setPermission workspace user permission =>
    apply updateWorkspace_step
    intro record _
    refine ⟨⟨rfl, rfl, fun _ => rfl⟩, fun granted other => ?_⟩
    by_cases revoked : permission = .none
    · simp only [revoked, if_true, Table.get?_erase]
      split
      next => simp
      next => exact granted other
    · simp only [revoked, if_false, Table.get?_insert]
      split
      next => simpa using revoked
      next => exact granted other
  | setWorldReadable workspace worldReadable =>
    exact updateWorkspace_step fun record _ => same record _ rfl rfl rfl rfl
  | setLocked workspace locked =>
    exact updateWorkspace_step fun record _ => same record _ rfl rfl rfl rfl
  | setWorkspaceDeleted workspace deleted =>
    exact updateWorkspace_step fun record _ => same record _ rfl rfl rfl rfl
  | saveObject workspace name references =>
    exact saveObject_step consistent workspace name references
  | setObjectDeleted workspace object deleted =>
    exact setObjectDeleted_step workspace object deleted

end Store

end ObjectSpace
