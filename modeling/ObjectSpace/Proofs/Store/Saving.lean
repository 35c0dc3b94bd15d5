import ObjectSpace.Proofs.Store.Growth
import ObjectSpace.Proofs.Store.Recordwise

set_option autoImplicit false

namespace ObjectSpace

structure WorkspaceRecord.SameFront (before after : WorkspaceRecord) : Prop where
  name : after.name = before.name
  locked : after.locked = before.locked
  deleted : after.deleted = before.deleted
  acl : after.acl = before.acl
  worldReadable : after.worldReadable = before.worldReadable

theorem WorkspaceRecord.SameFront.refl (record : WorkspaceRecord) : record.SameFront record :=
  ⟨rfl, rfl, rfl, rfl, rfl⟩

def ObjectKey.Names (key : ObjectKey) (id : Nat) (name : String) : Prop :=
  match key with
  | .id number => number = id
  | .name text => text = name

theorem WorkspaceRecord.Consistent.objectId?_of_names {record : WorkspaceRecord}
    (ok : record.Consistent) {id : Nat} {object : ObjectRecord}
    (present : record.objects.get? id = some object) {key : ObjectKey}
    (names : key.Names id object.name) : record.objectId? key = some id := by
  cases key with
  | id number =>
    obtain rfl : number = id := names
    simp [objectId?, Table.contains, present]
  | name text => exact (ok.named text id).mpr ⟨object, present, Eq.symm names⟩

namespace Store

variable {store after : Store} {record : WorkspaceRecord} {name : String}
variable {references : List Reference} {saved : Reference}

structure Saves (store : Store) (record : WorkspaceRecord) (name : String)
    (references : List Reference) (saved : Reference) (after : Store) : Prop where
  found : store.workspaces.get? saved.workspace = some record
  held : ∀ target ∈ references, store.holds target = true
  in_object : saved.object = record.idFor name
  numbered : saved.version = record.savedNumber name
  outcome : after =
    { store with
      workspaces := store.workspaces.insert saved.workspace (record.save name references)
      incoming := addIncoming store.incoming saved references }

theorem saveObject_saves (consistent : store.Consistent) {workspace : Nat}
    (ran : store.saveObject workspace name references = (.ok saved, after)) :
    saved.workspace = workspace ∧ ∃ record, store.Saves record name references saved after := by
  rcases store.saveObject_cases workspace name references with
    ⟨cause, refused⟩ | ⟨record, found, _, held, appended⟩
  · simp [refused] at ran
  · have ok := consistent.records workspace record found
    rw [appended, appendVersion_eq store workspace ok] at ran
    cases made : Reference.ofParts workspace (record.idFor name) (record.savedNumber name) with
    | error cause => simp [made] at ran
    | ok reference =>
      obtain ⟨rfl, in_object, numbered⟩ := ofParts_eq_ok made
      simp only [made, Prod.mk.injEq, Except.ok.injEq] at ran
      obtain ⟨rfl, rfl⟩ := ran
      exact ⟨rfl, record, found, held, in_object, numbered, rfl⟩

theorem saveObject_refused (consistent : store.Consistent) {workspace : Nat} {cause : StoreError}
    (ran : store.saveObject workspace name references = (.error cause, after))
    (fits : after.VersionsFit) : after = store := by
  rcases store.saveObject_cases workspace name references with
    ⟨_, refused⟩ | ⟨record, found, _, _, appended⟩
  · simpa using (Prod.mk.inj (refused.symm.trans ran)).2.symm
  · have ok := consistent.records workspace record found
    rw [appended, appendVersion_eq store workspace ok] at ran
    cases made : Reference.ofParts workspace (record.idFor name) (record.savedNumber name) with
    | ok saved => simp [made] at ran
    | error cause =>
      simp only [made, Prod.mk.injEq] at ran
      obtain ⟨_, rfl⟩ := ran
      have few := fits.length_lt (Table.get?_insert_self _ _ _) (Table.get?_insert_self _ _ _)
      simp only [List.length_append, List.length_singleton] at few
      have positive := consistent.numbered.pos found
      have object_pos := WorkspaceRecord.idFor_pos ok name
      simp [Reference.ofParts, WorkspaceRecord.savedNumber_eq few, positive, object_pos,
        few] at made

theorem stored?_eq_some_iff (consistent : store.Consistent) {address : ResolvedAddress}
    {number : Nat} (pinned : address.version = some number) {reference : Reference}
    {object : ObjectRecord} :
    store.stored? address = some (reference, object) ↔
      reference.workspace = address.workspace.id ∧ reference.version = number ∧
        store.object? reference = some object ∧
        address.object.Names reference.object object.name := by
  constructor
  · intro found
    obtain ⟨in_workspace, held⟩ := stored?_eq_some found
    simp only [stored?, Option.bind_eq_bind, Option.bind_eq_some_iff,
      Option.ite_none_right_eq_some, Option.pure_def, Option.some.injEq, Prod.mk.injEq, pinned,
      Option.getD_some] at found
    obtain ⟨record, located, id, known, _, present, _, _, made, rfl, rfl⟩ := found
    cases parts : Reference.ofParts address.workspace.id id number with
    | error cause => simp [parts, Except.toOption] at made
    | ok reference =>
      simp only [parts, Except.toOption, Option.some.injEq] at made
      subst made
      obtain ⟨_, rfl, numbered⟩ := ofParts_eq_ok parts
      refine ⟨in_workspace, numbered, held, ?_⟩
      cases key : address.object with
      | id wanted =>
        simp only [key, WorkspaceRecord.objectId?, Option.ite_none_right_eq_some,
          Option.some.injEq] at known
        exact known.2
      | name text =>
        simp only [key, WorkspaceRecord.objectId?] at known
        obtain ⟨object, here, name⟩ := ((consistent.records _ _ located).named text _).mp known
        cases here.symm.trans present
        exact name.symm
  · intro given
    obtain ⟨in_workspace, numbered, held, names⟩ := given
    obtain ⟨record, located, present, stored⟩ := object?_eq_some.mp held
    have known : record.objectId? address.object = some reference.object :=
      (consistent.records _ _ located).objectId?_of_names present names
    rw [in_workspace] at located
    have made := Reference.ofParts_parts reference
    rw [in_workspace, numbered] at made
    rw [numbered] at stored
    simp [stored?, located, known, present, pinned, stored, made, Except.toOption]

def HasHad (store : Store) (reference : Reference) : Prop :=
  ∃ record object, store.workspaces.get? reference.workspace = some record ∧
    record.objects.get? reference.object = some object ∧
    reference.version ≤ object.versions.length

theorem hasHad_of_holds {reference : Reference} (held : store.holds reference = true) :
    store.HasHad reference := by
  obtain ⟨object, stored⟩ := Option.isSome_iff_exists.mp held
  obtain ⟨record, located, present, numbered⟩ := object?_eq_some.mp stored
  exact ⟨record, object, located, present, hasVersion_le numbered⟩

theorem Grows.hasHad (grows : store.Grows after) {reference : Reference}
    (had : store.HasHad reference) : after.HasHad reference := by
  obtain ⟨record, object, located, present, numbered⟩ := had
  obtain ⟨now, located', growth⟩ := grows.records _ record located
  obtain ⟨later, present', _, versions⟩ := growth.objects _ object present
  exact ⟨now, later, located', present', Nat.le_trans numbered versions.length_le⟩

theorem Reachable.hasHad (reachable : store.Reachable) {source target : Reference}
    (refers : store.refersTo source target = true) : store.HasHad target := by
  induction reachable with
  | empty => simp [refersTo, Store.empty] at refers
  | @update store reachable update ih =>
    have consistent := reachable.consistent
    have step := update_step consistent update
    have grows := step_grows step
    have referrer := ((step_consistent consistent step).referred source target).mpr refers
    rcases step_referrers step referrer with before | held
    · exact grows.hasHad (ih ((consistent.referred source target).mp before))
    · exact grows.hasHad (hasHad_of_holds held)

namespace Saves

theorem elsewhere (saves : store.Saves record name references saved after) {id : Nat}
    (apart : saved.workspace ≠ id) : after.workspaces.get? id = store.workspaces.get? id := by
  rw [saves.outcome]
  exact Table.get?_insert_of_ne _ _ apart

theorem sameFront (saves : store.Saves record name references saved after) :
    store.Recordwise WorkspaceRecord.SameFront after := by
  rw [saves.outcome]
  exact Recordwise.insert .refl saves.found ⟨rfl, rfl, rfl, rfl, rfl⟩ _

theorem refersTo_iff (saves : store.Saves record name references saved after)
    (before : store.Consistent) (now : after.Consistent) (source target : Reference) :
    after.refersTo source target = true ↔
      store.refersTo source target = true ∨ source = saved ∧ target ∈ references := by
  rw [← now.referred, ← before.referred, saves.outcome]
  exact mem_addIncoming _ _ _ _ _

theorem object?_saved (saves : store.Saves record name references saved after) :
    after.object? saved = some
      { record.objectFor name with
        versions := (record.objectFor name).versions ++ [references] } := by
  rw [object?_eq_some]
  refine ⟨record.save name references, ?_, ?_, ?_⟩
  · rw [saves.outcome, Table.get?_insert_self]
  · simp [WorkspaceRecord.save, saves.in_object]
  · rw [hasVersion_iff_latest, WorkspaceRecord.latestVersion_append, ← saves.numbered]
    exact ⟨saved.version_pos, Nat.le_refl _⟩

-- The number of the new version is its place, unless numbers repeat.
theorem count_eq (saves : store.Saves record name references saved after)
    (fits : ∀ object, after.object? saved = some object →
      object.versions.length < Text.versionBound) :
    saved.version = (record.objectFor name).versions.length + 1 ∧
      (record.objectFor name).versions.length + 1 < Text.versionBound := by
  have numbered := saves.numbered
  have few := fits _ saves.object?_saved
  simp only [List.length_append, List.length_singleton] at few
  rw [WorkspaceRecord.savedNumber_eq few] at numbered
  exact ⟨numbered, few⟩

section Fits

variable (saves : store.Saves record name references saved after)
variable (fits : ∀ object, after.object? saved = some object →
  object.versions.length < Text.versionBound)

include saves fits

theorem not_hasHad : ¬ store.HasHad saved := by
  intro had
  obtain ⟨prior, object, located, present, numbered⟩ := had
  cases saves.found.symm.trans located
  rw [saves.in_object] at present
  have same : record.objectFor name = object := by simp [WorkspaceRecord.objectFor, present]
  have count := (saves.count_eq fits).1
  rw [same] at count
  omega

theorem unstored : store.object? saved = none := by
  rw [Option.eq_none_iff_forall_ne_some]
  intro object stored
  exact saves.not_hasHad fits (hasHad_of_holds (by simp [holds, stored]))

theorem unreferred (reachable : store.Reachable) (now : after.Consistent) (source : Reference) :
    after.refersTo source saved = false := by
  rw [Bool.eq_false_iff]
  intro refers
  rcases (saves.refersTo_iff reachable.consistent now source saved).mp refers with before | ⟨_, mem⟩
  · exact saves.not_hasHad fits (reachable.hasHad before)
  · exact saves.not_hasHad fits (hasHad_of_holds (saves.held saved mem))

theorem object?_eq {reference : Reference} (other : reference ≠ saved) :
    (after.object? reference).map (fun object => (object.name, object.deleted)) =
      (store.object? reference).map fun object => (object.name, object.deleted) := by
  by_cases here : saved.workspace = reference.workspace
  · have located : store.workspaces.get? reference.workspace = some record := here ▸ saves.found
    have located' : after.workspaces.get? reference.workspace =
        some (record.save name references) := by
      rw [saves.outcome, here, Table.get?_insert_self]
    by_cases same : record.idFor name = reference.object
    · obtain ⟨count, few⟩ := saves.count_eq fits
      have apart : reference.version ≠ (record.objectFor name).versions.length + 1 := by
        intro equal
        exact other (Reference.ext_parts here.symm (same ▸ saves.in_object.symm)
          (equal.trans count.symm))
      have same_versions : ({ record.objectFor name with
          versions := (record.objectFor name).versions ++ [references] } : ObjectRecord).hasVersion
            reference.version = (record.objectFor name).hasVersion reference.version := by
        rw [Bool.eq_iff_iff, hasVersion_iff (by simpa using few), hasVersion_iff (by omega)]
        simp only [List.length_append, List.length_singleton]
        omega
      simp only [object?, located, located', WorkspaceRecord.save, Table.get?_insert, same, if_true,
        same_versions, Option.bind_eq_bind, Option.bind_some]
      cases present : record.objects.get? reference.object with
      | none =>
        have fresh : (record.objectFor name).hasVersion reference.version = false := by
          simp [WorkspaceRecord.objectFor, same, present, ObjectRecord.hasVersion,
            ObjectRecord.latestVersion]
          omega
        simp [fresh]
      | some object =>
        have prior : record.objectFor name = object := by
          simp [WorkspaceRecord.objectFor, same, present]
        rw [prior, Option.bind_some]
        split <;> rfl
    · simp [object?, located, located', WorkspaceRecord.save, Table.get?_insert, same]
  · simp [object?, saves.elsewhere here]

section Pinned

variable (before : store.Consistent) (now : after.Consistent) {address : ResolvedAddress}
variable {number : Nat} (pinned : address.version = some number) {reference : Reference}
variable {object : ObjectRecord}

include before now pinned

theorem stored?_before (found : store.stored? address = some (reference, object)) :
    reference ≠ saved ∧ ∃ later, after.stored? address = some (reference, later) ∧
      later.name = object.name ∧ later.deleted = object.deleted := by
  obtain ⟨in_workspace, numbered, held, names⟩ := (stored?_eq_some_iff before pinned).mp found
  have old : reference ≠ saved := by
    intro same
    rw [same, saves.unstored fits] at held
    cases held
  have kept := saves.object?_eq fits old
  rw [held, Option.map_some] at kept
  obtain ⟨later, held', same⟩ := Option.map_eq_some_iff.mp kept
  obtain ⟨name, deleted⟩ := Prod.mk.inj same
  refine ⟨old, later, ?_, name, deleted⟩
  exact (stored?_eq_some_iff now pinned).mpr ⟨in_workspace, numbered, held', name ▸ names⟩

theorem stored?_after (found : after.stored? address = some (reference, object)) :
    reference = saved ∨ ∃ prior, store.stored? address = some (reference, prior) := by
  obtain ⟨in_workspace, numbered, held, names⟩ := (stored?_eq_some_iff now pinned).mp found
  by_cases new : reference = saved
  · exact .inl new
  · have kept := saves.object?_eq fits new
    rw [held, Option.map_some] at kept
    obtain ⟨prior, held', same⟩ := Option.map_eq_some_iff.mp kept.symm
    have name : prior.name = object.name := (Prod.mk.inj same).1
    exact .inr ⟨prior, (stored?_eq_some_iff before pinned).mpr
      ⟨in_workspace, numbered, held', name ▸ names⟩⟩

end Pinned

end Fits

end Saves

end Store

end ObjectSpace
