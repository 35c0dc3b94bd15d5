import Mathlib.Logic.Relation
import ObjectSpace.Proofs.Store.Saving

set_option autoImplicit false

namespace ObjectSpace

structure Entry where
  reference : Reference
  name : String
  references : List Reference
  deriving DecidableEq

namespace Store

variable {store after : Store} {entries : List Entry}

def savedBy? (store : Store) : Update → Option Entry
  | .saveObject workspace name references =>
      (store.saveObject workspace name references).1.toOption.map fun reference =>
        { reference, name, references }
  | _ => none

def entriesOf (store : Store) : List Update → List Entry
  | [] => []
  | update :: rest => (store.savedBy? update).toList ++ (store.update update).entriesOf rest

def history (updates : List Update) : List Entry := empty.entriesOf updates

structure RecordedBy (store : Store) (entries : List Entry) : Prop where
  distinct : (entries.map Entry.reference).Nodup
  exact : ∀ reference references, store.references? reference = some references ↔
    ∃ entry ∈ entries, entry.reference = reference ∧ entry.references = references
  earlier : ∀ (place : Nat) (entry : Entry), entries[place]? = some entry →
    ∀ target ∈ entry.references,
      ∃ sooner < place, (entries.map Entry.reference)[sooner]? = some target

def Refers (store : Store) (source target : Reference) : Prop :=
  ∃ references, store.references? source = some references ∧ target ∈ references

def versionsOf (store : Store) (workspace object : Nat) : List (List Reference) :=
  ((store.workspaces.get? workspace).bind fun record => record.objects.get? object).elim []
    ObjectRecord.versions

theorem versionsOf_congr (same : ∀ workspace object,
      (((after.workspaces.get? workspace).bind fun record => record.objects.get? object).map
        ObjectRecord.versions) =
      (((store.workspaces.get? workspace).bind fun record => record.objects.get? object).map
        ObjectRecord.versions)) :
    after.versionsOf = store.versionsOf := by
  funext workspace object
  have objects := same workspace object
  simp only [versionsOf]
  cases now : (after.workspaces.get? workspace).bind fun record => record.objects.get? object <;>
    cases before : (store.workspaces.get? workspace).bind fun record =>
      record.objects.get? object <;>
    simp_all

theorem references?_eq_versionsOf (fits : store.VersionsFit) (reference : Reference) :
    store.references? reference =
      (store.versionsOf reference.workspace reference.object)[reference.version - 1]? := by
  cases found : store.workspaces.get? reference.workspace with
  | none => simp [references?, object?, versionsOf, found]
  | some record =>
    cases present : record.objects.get? reference.object with
    | none => simp [references?, object?, versionsOf, found, present]
    | some object =>
      have stored := hasVersion_iff (fits.length_lt found present) reference.version
      have positive := reference.version_pos
      by_cases within : reference.version ≤ object.versions.length
      · have kept : object.hasVersion reference.version = true := stored.mpr ⟨positive, within⟩
        simp [references?, object?, versionsOf, found, present, kept]
      · have beyond : object.hasVersion reference.version = false := by
          rw [Bool.eq_false_iff]
          exact fun kept => within (stored.mp kept).2
        have none_there : object.versions[reference.version - 1]? = none :=
          List.getElem?_eq_none (by omega)
        simp [references?, object?, versionsOf, found, present, beyond, none_there]

theorem holds_iff {reference : Reference} :
    store.holds reference = true ↔ ∃ references, store.references? reference = some references := by
  simp only [holds, Option.isSome_iff_exists, references?_eq_some]
  constructor
  · intro held
    obtain ⟨object, stored⟩ := held
    obtain ⟨record, located, present, numbered⟩ := object?_eq_some.mp stored
    have positive := hasVersion_pos numbered
    have listed := hasVersion_le numbered
    have within : reference.version - 1 < object.versions.length := by omega
    exact ⟨_, object, stored, List.getElem?_eq_getElem within⟩
  · intro listed
    obtain ⟨references, object, stored, _⟩ := listed
    exact ⟨object, stored⟩

theorem updateWorkspace_versionsOf {workspace : Nat} {change : WorkspaceRecord → WorkspaceRecord}
    (kept : ∀ record, store.workspaces.get? workspace = some record → ∀ id,
      ((change record).objects.get? id).map ObjectRecord.versions =
        (record.objects.get? id).map ObjectRecord.versions) :
    (store.updateWorkspace workspace change).2.versionsOf = store.versionsOf := by
  cases found : store.workspaces.get? workspace with
  | none => simp only [updateWorkspace, found]
  | some record =>
    apply versionsOf_congr
    intro other object
    simp only [updateWorkspace, found, Table.get?_insert]
    by_cases here : workspace = other
    · subst here
      simp [found, kept record found object]
    · simp [here]

theorem createWorkspace_versionsOf (owner : User) (name : String) :
    (store.createWorkspace owner name).2.versionsOf = store.versionsOf := by
  rcases store.createWorkspace_cases owner name with ⟨cause, refused⟩ | ⟨_, _, created⟩
  · rw [refused]
  · rw [created]
    funext workspace object
    simp only [versionsOf, Table.get?_insert]
    by_cases here : nextId store.workspaces = workspace
    · simp [← here, nextId_unused]
    · simp [here]

theorem update_unsaved {update : Update}
    (apart : ∀ workspace name references, update ≠ .saveObject workspace name references) :
    store.savedBy? update = none ∧ (store.update update).versionsOf = store.versionsOf := by
  cases update with
  | createWorkspace owner name => exact ⟨rfl, createWorkspace_versionsOf owner name⟩
  | setPermission workspace user permission =>
    exact ⟨rfl, updateWorkspace_versionsOf fun _ _ _ => rfl⟩
  | setWorldReadable workspace worldReadable =>
    exact ⟨rfl, updateWorkspace_versionsOf fun _ _ _ => rfl⟩
  | setLocked workspace locked => exact ⟨rfl, updateWorkspace_versionsOf fun _ _ _ => rfl⟩
  | setWorkspaceDeleted workspace deleted =>
    exact ⟨rfl, updateWorkspace_versionsOf fun _ _ _ => rfl⟩
  | setObjectDeleted workspace object deleted =>
    refine ⟨rfl, ?_⟩
    cases found : store.workspaces.get? workspace with
    | none => simp only [Store.update, setObjectDeleted, found]
    | some record =>
      cases present : record.objects.get? object with
      | none => simp only [Store.update, setObjectDeleted, found, present]
      | some entry =>
        simp only [Store.update, setObjectDeleted, found, present]
        apply updateWorkspace_versionsOf
        intro other same id
        cases found.symm.trans same
        rw [Table.get?_insert]
        by_cases here : object = id
        · simp [← here, present]
        · simp [here]
  | saveObject workspace name references => exact absurd rfl (apart workspace name references)

theorem savedBy?_saveObject {workspace : Nat} {name : String} {references : List Reference}
    {answer : Except StoreError Reference}
    (ran : store.saveObject workspace name references = (answer, after)) :
    store.savedBy? (.saveObject workspace name references) =
      answer.toOption.map fun saved => ⟨saved, name, references⟩ := by
  simp only [savedBy?, ran]

theorem update_cases (consistent : store.Consistent) (update : Update)
    (fits : (store.update update).VersionsFit) :
    (store.savedBy? update = none ∧ (store.update update).versionsOf = store.versionsOf) ∨
      ∃ record entry, store.savedBy? update = some entry ∧
        store.Saves record entry.name entry.references entry.reference (store.update update) := by
  cases update with
  | saveObject workspace name references =>
    cases ran : store.saveObject workspace name references with
    | mk answer after =>
      have entered := savedBy?_saveObject ran
      simp only [Store.update, ran] at fits ⊢
      cases answer with
      | ok saved =>
        obtain ⟨_, record, saves⟩ := saveObject_saves consistent ran
        exact .inr ⟨record, _, entered, saves⟩
      | error cause =>
        have unchanged := saveObject_refused consistent ran fits
        exact .inl ⟨entered, by rw [unchanged]⟩
  | createWorkspace | setPermission | setWorldReadable | setLocked | setWorkspaceDeleted
  | setObjectDeleted => exact .inl (update_unsaved (by simp))

theorem versionsOf_append {workspace : Nat} {record : WorkspaceRecord} {name : String}
    {references : List Reference} (found : store.workspaces.get? workspace = some record)
    (appended : after.workspaces = store.workspaces.insert workspace (record.save name references))
    (other object : Nat) :
    after.versionsOf other object =
      if workspace = other ∧ record.idFor name = object then
        (record.objectFor name).versions ++ [references]
      else store.versionsOf other object := by
  simp only [versionsOf, appended, Table.get?_insert]
  by_cases here : workspace = other
  · subst here
    by_cases same : record.idFor name = object
    · simp [same, WorkspaceRecord.save]
    · simp [same, found, WorkspaceRecord.save, Table.get?_insert]
  · simp [here]

theorem versionsOf_idFor {workspace : Nat} {record : WorkspaceRecord} (name : String)
    (found : store.workspaces.get? workspace = some record) :
    store.versionsOf workspace (record.idFor name) = (record.objectFor name).versions := by
  simp only [versionsOf, found, Option.bind_some, WorkspaceRecord.objectFor]
  cases record.objects.get? (record.idFor name) <;> rfl

theorem Saves.references?_eq {record : WorkspaceRecord} {name : String}
    {references : List Reference} {saved : Reference}
    (saves : store.Saves record name references saved after) (before : store.VersionsFit)
    (fits : after.VersionsFit) (reference : Reference) :
    after.references? reference =
      if reference = saved then some references else store.references? reference := by
  have count : saved.version = (record.objectFor name).versions.length + 1 :=
    (saves.count_eq fun _ held => fits.object?_length_lt held).1
  have prior : store.versionsOf saved.workspace saved.object =
      (record.objectFor name).versions := saves.in_object ▸ versionsOf_idFor name saves.found
  have now : ∀ workspace object, after.versionsOf workspace object =
      if saved.workspace = workspace ∧ saved.object = object then
        (record.objectFor name).versions ++ [references]
      else store.versionsOf workspace object := by
    rw [saves.in_object]
    exact versionsOf_append saves.found (by rw [saves.outcome])
  rw [references?_eq_versionsOf fits, references?_eq_versionsOf before, now]
  by_cases new : reference = saved
  · subst new
    simp [count]
  · rw [if_neg new]
    split
    next here =>
      have positive := reference.version_pos
      have apart : reference.version ≠ (record.objectFor name).versions.length + 1 := fun same =>
        new (Reference.ext_parts here.1.symm here.2.symm (same.trans count.symm))
      rw [← here.1, ← here.2, prior, List.getElem?_append]
      split
      next => rfl
      next =>
        rw [List.getElem?_eq_none (by simp; omega), List.getElem?_eq_none (by omega)]
    next => rfl

theorem RecordedBy.mem (recorded : store.RecordedBy entries) {reference : Reference}
    (held : store.holds reference = true) : reference ∈ entries.map Entry.reference := by
  obtain ⟨references, listed⟩ := holds_iff.mp held
  obtain ⟨entry, mem, same, _⟩ := (recorded.exact _ _).mp listed
  exact List.mem_map.mpr ⟨entry, mem, same⟩

theorem RecordedBy.update (consistent : store.Consistent) (recorded : store.RecordedBy entries)
    (update : Update) (fits : (store.update update).VersionsFit) :
    (store.update update).RecordedBy (entries ++ (store.savedBy? update).toList) := by
  have before := (step_grows (update_step consistent update)).versionsFit fits
  rcases update_cases consistent update fits with ⟨none_saved, same⟩ | ⟨record, entry, saved, saves⟩
  · have kept : (store.update update).references? = store.references? := by
      funext reference
      rw [references?_eq_versionsOf fits, references?_eq_versionsOf before, same]
    rw [none_saved, Option.toList_none, List.append_nil]
    exact ⟨recorded.distinct, kept ▸ recorded.exact, recorded.earlier⟩
  · have grown := saves.references?_eq before fits
    have unstored : store.holds entry.reference = false := by
      simp [holds, saves.unstored fun _ held => fits.object?_length_lt held]
    have fresh : ∀ prior ∈ entries, prior.reference ≠ entry.reference := by
      intro prior mem same
      have held := holds_iff.mpr ⟨_, (recorded.exact _ _).mpr ⟨prior, mem, same, rfl⟩⟩
      rw [unstored] at held
      cases held
    rw [saved, Option.toList_some]
    refine ⟨?_, ?_, ?_⟩
    · rw [List.map_append]
      refine List.nodup_append.mpr ⟨recorded.distinct, by simp, ?_⟩
      intro left mem right last same
      obtain ⟨prior, listed, rfl⟩ := List.mem_map.mp mem
      obtain rfl := List.mem_singleton.mp last
      exact fresh prior listed same
    · intro reference references
      rw [grown]
      by_cases new : reference = entry.reference
      · subst new
        simp only [if_true, Option.some.injEq, List.mem_append, List.mem_singleton]
        constructor
        · intro same
          exact ⟨entry, .inr rfl, rfl, same⟩
        · intro given
          obtain ⟨other, mem | rfl, same, listed⟩ := given
          · exact absurd same (fresh other mem)
          · exact listed
      · rw [if_neg new, recorded.exact]
        simp only [List.mem_append, List.mem_singleton]
        constructor
        · intro given
          obtain ⟨other, mem, there⟩ := given
          exact ⟨other, .inl mem, there⟩
        · intro given
          obtain ⟨other, mem | rfl, there⟩ := given
          · exact ⟨other, mem, there⟩
          · exact absurd there.1.symm new
    · intro place other there target mem
      by_cases old : place < entries.length
      · rw [List.getElem?_append_left old] at there
        obtain ⟨sooner, less, found⟩ := recorded.earlier place other there target mem
        refine ⟨sooner, less, ?_⟩
        rw [List.map_append, List.getElem?_append_left (by simp; omega), found]
      · -- The new entry stands last, and what it refers to was stored before.
        rw [List.getElem?_append_right (by omega)] at there
        obtain ⟨_, rfl⟩ := List.getElem?_eq_some_iff.mp there
        obtain ⟨sooner, within, found⟩ :=
          List.mem_iff_getElem.mp (recorded.mem (saves.held target (by simpa using mem)))
        rw [List.length_map] at within
        refine ⟨sooner, by omega, ?_⟩
        rw [List.map_append, List.getElem?_append_left (by simpa using within)]
        exact List.getElem?_eq_some_iff.mpr ⟨_, found⟩

theorem RecordedBy.foldl (consistent : store.Consistent) (recorded : store.RecordedBy entries)
    (updates : List Update) (fits : (updates.foldl Store.update store).VersionsFit) :
    (updates.foldl Store.update store).RecordedBy (entries ++ store.entriesOf updates) := by
  induction updates generalizing store entries with
  | nil => simpa [entriesOf] using recorded
  | cons first rest ih =>
    have now := step_consistent consistent (update_step consistent first)
    have before := (now.grows_foldl rest).versionsFit fits
    have grown := ih now (recorded.update consistent first before) fits
    rwa [List.append_assoc] at grown

theorem empty_recordedBy : empty.RecordedBy [] := by
  refine ⟨List.nodup_nil, ?_, ?_⟩
  · intro reference references
    simp [references?, object?, empty]
  · intro place entry there
    simp at there

theorem run_recordedBy (updates : List Update) (fits : (run updates).VersionsFit) :
    (run updates).RecordedBy (history updates) :=
  RecordedBy.foldl empty_consistent empty_recordedBy updates fits

theorem RecordedBy.idxOf_lt (recorded : store.RecordedBy entries) {source target : Reference}
    (refers : store.Refers source target) :
    (entries.map Entry.reference).idxOf target < (entries.map Entry.reference).idxOf source := by
  obtain ⟨references, listed, mem⟩ := refers
  obtain ⟨entry, there, rfl, rfl⟩ := (recorded.exact _ _).mp listed
  obtain ⟨place, within, here⟩ := List.mem_iff_getElem.mp there
  obtain ⟨sooner, less, found⟩ :=
    recorded.earlier place entry (List.getElem?_eq_some_iff.mpr ⟨within, here⟩) target mem
  obtain ⟨within', here'⟩ := List.getElem?_eq_some_iff.mp found
  have source_place : (entries.map Entry.reference).idxOf entry.reference = place := by
    have placed := recorded.distinct.idxOf_getElem place (by simpa using within)
    simpa [here] using placed
  have target_place := recorded.distinct.idxOf_getElem sooner within'
  rw [here'] at target_place
  omega

theorem RecordedBy.idxOf_lt_of_chain (recorded : store.RecordedBy entries)
    {source target : Reference} (chain : Relation.TransGen store.Refers source target) :
    (entries.map Entry.reference).idxOf target < (entries.map Entry.reference).idxOf source := by
  induction chain with
  | single refers => exact recorded.idxOf_lt refers
  | tail _ refers ih => exact Nat.lt_trans (recorded.idxOf_lt refers) ih

theorem Reachable.exists_run (reachable : store.Reachable) : ∃ updates, run updates = store := by
  induction reachable with
  | empty => exact ⟨[], rfl⟩
  | update _ update ih =>
    obtain ⟨updates, rfl⟩ := ih
    exact ⟨updates ++ [update], by simp [run]⟩

theorem references_acyclic (reachable : store.Reachable) (fits : store.VersionsFit) :
    (∀ reference, ¬ Relation.TransGen store.Refers reference reference) ∧
      ∀ updates, run updates = store → store.RecordedBy (history updates) := by
  have recorded : ∀ updates, run updates = store → store.RecordedBy (history updates) := by
    intro updates ran
    subst ran
    exact run_recordedBy updates fits
  obtain ⟨updates, ran⟩ := reachable.exists_run
  refine ⟨?_, recorded⟩
  intro reference cycle
  exact Nat.lt_irrefl _ ((recorded updates ran).idxOf_lt_of_chain cycle)

-- The save that dangles is not in the history.
theorem sample_references_acyclic :
    sample.Reachable ∧ sample.VersionsFit ∧ run Sample.updates = sample ∧
      (history Sample.updates).map Entry.reference =
        [Sample.target, Sample.middle, Sample.root] ∧
      sample.RecordedBy (history Sample.updates) ∧
      sample.Refers Sample.root Sample.middle ∧ sample.Refers Sample.middle Sample.target ∧
      ¬ Relation.TransGen sample.Refers Sample.target Sample.root := by
  have fits : sample.VersionsFit := by decide
  have proved := references_acyclic reachable_sample fits
  have first : sample.Refers Sample.root Sample.middle := ⟨[Sample.middle], by decide, by decide⟩
  have second : sample.Refers Sample.middle Sample.target :=
    ⟨[Sample.target, Sample.target], by decide, by decide⟩
  refine ⟨reachable_sample, fits, rfl, by decide, proved.2 _ rfl, first, second, ?_⟩
  intro back
  exact proved.1 Sample.root ((Relation.TransGen.single first).tail second |>.trans back)

end Store

end ObjectSpace
