import ObjectSpace.Proofs.Store.Invariant

set_option autoImplicit false

namespace ObjectSpace.Store

def VersionsLeft (store : Store) : Prop :=
  ∀ workspace ∈ store.workspaces.values, ∀ object ∈ workspace.objects.values,
    object.versions.length + 1 < Text.versionBound

instance (store : Store) : Decidable store.VersionsLeft :=
  inferInstanceAs (Decidable (∀ _ ∈ _, ∀ _ ∈ _, _ < _))

def errorOf {α : Type} : Except StoreError α → Option StoreError
  | .ok _ => none
  | .error error => some error

def refusal? (store : Store) : Update → Option StoreError
  | .createWorkspace owner name => errorOf (store.createWorkspace owner name).1
  | .setPermission workspace user permission =>
      errorOf (store.setPermission workspace user permission).1
  | .setWorldReadable workspace worldReadable =>
      errorOf (store.setWorldReadable workspace worldReadable).1
  | .setLocked workspace locked => errorOf (store.setLocked workspace locked).1
  | .setWorkspaceDeleted workspace deleted =>
      errorOf (store.setWorkspaceDeleted workspace deleted).1
  | .saveObject workspace name references =>
      errorOf (store.saveObject workspace name references).1
  | .setObjectDeleted workspace object deleted =>
      errorOf (store.setObjectDeleted workspace object deleted).1

-- The first reason counts, and of the references the first that is not stored.
inductive SaveRefused (store : Store) (workspace : Nat) (name : String)
    (references : List Reference) : StoreError → Prop where
  | misnamed (cause : ValueError) (invalid : Name.checkObject name = .error cause) :
      SaveRefused store workspace name references (.value cause)
  | dangling (valid : Name.checkObject name = .ok ()) (before : List Reference)
      (target : Reference) (after : List Reference)
      (listed : references = before ++ target :: after)
      (held : ∀ earlier ∈ before, store.holds earlier = true)
      (unstored : store.holds target = false) :
      SaveRefused store workspace name references (.danglingReference target)
  | missing (valid : Name.checkObject name = .ok ())
      (held : ∀ target ∈ references, store.holds target = true)
      (absent : store.workspaces.get? workspace = none) :
      SaveRefused store workspace name references (.noSuchWorkspace (.id workspace))
  | deleted (valid : Name.checkObject name = .ok ())
      (held : ∀ target ∈ references, store.holds target = true) (record : WorkspaceRecord)
      (found : store.workspaces.get? workspace = some record) (gone : record.deleted = true) :
      SaveRefused store workspace name references (.workspaceDeleted (.id workspace))

variable {store : Store} {workspace : Nat} {name : String} {references : List Reference}
variable {error : StoreError}

theorem createWorkspace_unchanged {owner : User}
    (refused : errorOf (store.createWorkspace owner name).1 = some error) :
    (store.createWorkspace owner name).2 = store := by
  revert refused
  simp only [createWorkspace]
  split
  · simp
  · split
    · simp
    · split <;> simp [errorOf]

theorem updateWorkspace_unchanged {change : WorkspaceRecord → WorkspaceRecord}
    (refused : errorOf (store.updateWorkspace workspace change).1 = some error) :
    (store.updateWorkspace workspace change).2 = store := by
  revert refused
  simp only [updateWorkspace]
  split <;> simp [errorOf]

theorem setObjectDeleted_unchanged {object : Nat} {deleted : Bool}
    (refused : errorOf (store.setObjectDeleted workspace object deleted).1 = some error) :
    (store.setObjectDeleted workspace object deleted).2 = store := by
  revert refused
  simp only [setObjectDeleted]
  split
  · simp
  · split
    · simp
    · exact updateWorkspace_unchanged

theorem VersionsLeft.savedNumber_pos (left : store.VersionsLeft) {record : WorkspaceRecord}
    (found : store.workspaces.get? workspace = some record) (name : String) :
    0 < record.savedNumber name := by
  have bound : (record.objectFor name).versions.length + 1 < Text.versionBound := by
    cases present : record.objects.get? (record.idFor name) with
    | none => simp [WorkspaceRecord.objectFor, present, Text.versionBound]
    | some object =>
      have mem : object ∈ record.objects.values := Table.mem_values_iff.mpr ⟨_, present⟩
      simpa [WorkspaceRecord.objectFor, present] using
        left record (Table.mem_values_iff.mpr ⟨_, found⟩) object mem
  rw [WorkspaceRecord.savedNumber_eq bound]
  omega

theorem appendVersion_ok (consistent : store.Consistent) (left : store.VersionsLeft)
    {record : WorkspaceRecord} (found : store.workspaces.get? workspace = some record)
    (name : String) (references : List Reference) :
    errorOf (store.appendVersion workspace record name references).1 = none := by
  have ok := consistent.records workspace record found
  have positive := consistent.numbered.pos found
  have object_pos := WorkspaceRecord.idFor_pos ok name
  have number_pos := left.savedNumber_pos found name
  have bound : record.savedNumber name < Text.versionBound := Nat.mod_lt _ (by decide)
  simp [appendVersion_eq store workspace ok, Reference.ofParts, positive, object_pos, number_pos,
    bound, errorOf]

theorem SaveRefused.saveObject_eq (refused : store.SaveRefused workspace name references error) :
    store.saveObject workspace name references = (.error error, store) := by
  cases refused with
  | misnamed cause invalid => simp [saveObject, invalid]
  | dangling valid before target after listed held unstored =>
    have first : references.find? (fun reference => !store.holds reference) = some target := by
      rw [List.find?_eq_some_iff_append]
      exact ⟨by simp [unstored], before, after, listed, by simpa using held⟩
    simp [saveObject, valid, first]
  | missing valid held absent =>
    have none : references.find? (fun reference => !store.holds reference) = none := by
      simpa using held
    simp [saveObject, valid, none, absent]
  | deleted valid held record found gone =>
    have none : references.find? (fun reference => !store.holds reference) = none := by
      simpa using held
    simp [saveObject, valid, none, found, gone]

theorem exists_saveRefused_iff :
    (∃ error, store.SaveRefused workspace name references error) ↔
      Name.checkObject name ≠ .ok () ∨ (∃ target ∈ references, store.holds target = false) ∨
        store.workspaces.get? workspace = none ∨
        ∃ record, store.workspaces.get? workspace = some record ∧ record.deleted = true := by
  constructor
  · intro refused
    cases refused with
    | intro error refused =>
      cases refused with
      | misnamed cause invalid => simp [invalid]
      | dangling valid before target after listed held unstored =>
        exact .inr (.inl ⟨target, by simp [listed], unstored⟩)
      | missing valid held absent => simp [absent]
      | deleted valid held record found gone => simp [found, gone]
  · intro reasons
    cases valid : Name.checkObject name with
    | error cause => exact ⟨_, .misnamed cause valid⟩
    | ok =>
      cases first : references.find? fun reference => !store.holds reference with
      | some target =>
        obtain ⟨unstored, before, after, listed, held⟩ := List.find?_eq_some_iff_append.mp first
        exact ⟨_, .dangling valid before target after listed (by simpa using held)
          (by simpa using unstored)⟩
      | none =>
        have held : ∀ target ∈ references, store.holds target = true := by simpa using first
        have stored : ¬ ∃ target ∈ references, store.holds target = false := by
          simpa using held
        cases found : store.workspaces.get? workspace with
        | none => exact ⟨_, .missing valid held found⟩
        | some record =>
          have gone : record.deleted = true := by simpa [valid, stored, found] using reasons
          exact ⟨_, .deleted valid held record found gone⟩

theorem saveObject_accepted
    (accepted : ¬ ∃ error, store.SaveRefused workspace name references error) :
    ∃ record, store.workspaces.get? workspace = some record ∧ Name.checkObject name = .ok () ∧
      (∀ target ∈ references, store.holds target = true) ∧
      store.saveObject workspace name references =
        store.appendVersion workspace record name references := by
  simp only [exists_saveRefused_iff, not_or, not_exists, not_and, ne_eq, Classical.not_not,
    Bool.not_eq_false, Bool.not_eq_true] at accepted
  obtain ⟨valid, held, present, live⟩ := accepted
  obtain ⟨record, found⟩ := Option.ne_none_iff_exists'.mp present
  have stored : references.find? (fun reference => !store.holds reference) = none := by
    simpa using held
  exact ⟨record, found, valid, held, by simp [saveObject, valid, stored, found, live record found]⟩

theorem saveObject_error_iff (consistent : store.Consistent) (left : store.VersionsLeft) :
    errorOf (store.saveObject workspace name references).1 = some error ↔
      store.SaveRefused workspace name references error := by
  constructor
  · intro failed
    by_cases refused : ∃ cause, store.SaveRefused workspace name references cause
    · obtain ⟨cause, refused⟩ := refused
      rw [refused.saveObject_eq] at failed
      cases failed
      exact refused
    · obtain ⟨record, found, _, _, appended⟩ := saveObject_accepted refused
      rw [appended, appendVersion_ok consistent left found] at failed
      cases failed
  · intro refused
    rw [refused.saveObject_eq]
    rfl

theorem saveObject_unchanged (consistent : store.Consistent) (left : store.VersionsLeft)
    (refused : errorOf (store.saveObject workspace name references).1 = some error) :
    (store.saveObject workspace name references).2 = store := by
  cases store.saveObject_cases workspace name references with
  | inl early =>
    cases early with
    | intro cause same => rw [same]
  | inr late =>
    obtain ⟨record, found, _, _, appended⟩ := late
    rw [appended, appendVersion_ok consistent left found] at refused
    cases refused

theorem refused_unchanged (reachable : store.Reachable) (left : store.VersionsLeft) :
    (∀ update error, store.refusal? update = some error → store.update update = store) ∧
      ∀ workspace name references,
        (∀ error, store.refusal? (.saveObject workspace name references) = some error ↔
          store.SaveRefused workspace name references error) ∧
        ((∃ error, store.refusal? (.saveObject workspace name references) = some error) ↔
          Name.checkObject name ≠ .ok () ∨ (∃ target ∈ references, store.holds target = false) ∨
            store.workspaces.get? workspace = none ∨
            ∃ record, store.workspaces.get? workspace = some record ∧ record.deleted = true) := by
  have consistent := reachable.consistent
  have told : ∀ workspace name references error,
      store.refusal? (.saveObject workspace name references) = some error ↔
        store.SaveRefused workspace name references error :=
    fun _ _ _ _ => saveObject_error_iff consistent left
  constructor
  · intro update error refused
    cases update with
    | createWorkspace owner name => exact createWorkspace_unchanged refused
    | setPermission workspace user permission => exact updateWorkspace_unchanged refused
    | setWorldReadable workspace worldReadable => exact updateWorkspace_unchanged refused
    | setLocked workspace locked => exact updateWorkspace_unchanged refused
    | setWorkspaceDeleted workspace deleted => exact updateWorkspace_unchanged refused
    | setObjectDeleted workspace object deleted => exact setObjectDeleted_unchanged refused
    | saveObject workspace name references =>
      exact saveObject_unchanged consistent left refused
  · intro workspace name references
    refine ⟨told workspace name references, ?_⟩
    simp only [told]
    exact exists_saveRefused_iff

namespace Sample

def unstored : Reference := ⟨7, 7, 7, by decide, by decide, by decide, by decide⟩

def refused : Update := .saveObject 2 "target" [root, unstored, unstored]

end Sample

theorem sample_refused_unchanged :
    sample.Reachable ∧ sample.VersionsLeft ∧
      sample.refusal? Sample.refused = some (.danglingReference Sample.unstored) ∧
      sample.SaveRefused 2 "target" [Sample.root, Sample.unstored, Sample.unstored]
        (.danglingReference Sample.unstored) ∧
      sample.update Sample.refused = sample := by
  have left : sample.VersionsLeft := by decide
  have told : sample.refusal? Sample.refused = some (.danglingReference Sample.unstored) := by
    decide
  have both := refused_unchanged reachable_sample left
  exact ⟨reachable_sample, left, told, ((both.2 _ _ _).1 _).mp told, both.1 _ _ told⟩

end ObjectSpace.Store
