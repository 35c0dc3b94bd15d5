import ObjectSpace.Proofs.Store.Answers

set_option autoImplicit false

namespace ObjectSpace

structure WorkspaceRecord.Grows (before after : WorkspaceRecord) : Prop where
  name : after.name = before.name
  objects : ∀ id object, before.objects.get? id = some object →
    ∃ now, after.objects.get? id = some now ∧ now.name = object.name ∧
      object.versions <+: now.versions

structure Store.Grows (before after : Store) : Prop where
  records : ∀ id record, before.workspaces.get? id = some record →
    ∃ now, after.workspaces.get? id = some now ∧ record.Grows now

namespace WorkspaceRecord

variable {record after : WorkspaceRecord}

theorem Grows.refl (record : WorkspaceRecord) : record.Grows record :=
  ⟨rfl, fun _ object found => ⟨object, found, rfl, List.prefix_refl _⟩⟩

theorem Grows.trans {last : WorkspaceRecord} (first : record.Grows after)
    (second : after.Grows last) : record.Grows last := by
  refine ⟨second.name.trans first.name, fun id object found => ?_⟩
  obtain ⟨now, present, name, versions⟩ := first.objects id object found
  obtain ⟨later, held, name', versions'⟩ := second.objects id now present
  exact ⟨later, held, name'.trans name, versions.trans versions'⟩

theorem SameContents.grows (same : record.SameContents after) : record.Grows after := by
  refine ⟨same.name, fun id object found => ?_⟩
  obtain ⟨now, present, name, versions⟩ := same.find found
  exact ⟨now, present, name, versions ▸ List.prefix_refl _⟩

theorem grows_save (record : WorkspaceRecord) (name : String) (references : List Reference) :
    record.Grows (record.save name references) := by
  refine ⟨rfl, fun id object found => ?_⟩
  simp only [save, Table.get?_insert]
  by_cases here : record.idFor name = id
  · have prior : record.objectFor name = object := by simp [objectFor, here, found]
    rw [if_pos here, prior]
    exact ⟨_, rfl, rfl, List.prefix_append _ _⟩
  · rw [if_neg here]
    exact ⟨object, found, rfl, List.prefix_refl _⟩

end WorkspaceRecord

namespace Store

variable {before store after : Store}

theorem Grows.refl (store : Store) : store.Grows store :=
  ⟨fun _ record found => ⟨record, found, .refl record⟩⟩

theorem Grows.trans {last : Store} (first : store.Grows after) (second : after.Grows last) :
    store.Grows last := by
  refine ⟨fun id record found => ?_⟩
  obtain ⟨now, present, growth⟩ := first.records id record found
  obtain ⟨later, held, growth'⟩ := second.records id now present
  exact ⟨later, held, growth.trans growth'⟩

theorem Grows.insert (workspaces : Table Nat WorkspaceRecord) {id : Nat}
    {record changed : WorkspaceRecord} (found : store.workspaces.get? id = some record)
    (grows : record.Grows changed) (same : workspaces = store.workspaces.insert id changed)
    (names : Table String Nat) (incoming : Table Reference (List Reference)) :
    store.Grows { workspaces, workspaceNames := names, incoming } := by
  refine ⟨fun other entry present => ?_⟩
  rw [same, Table.get?_insert]
  by_cases here : id = other
  · subst here
    cases found.symm.trans present
    exact ⟨changed, by simp, grows⟩
  · exact ⟨entry, by simp [here, present], .refl entry⟩

theorem step_grows (step : store.Step after) : store.Grows after := by
  cases step with
  | refused => exact .refl store
  | created owner name valid unused =>
    refine ⟨fun id record found => ⟨record, ?_, .refl record⟩⟩
    have apart : nextId store.workspaces ≠ id := by
      intro same
      subst same
      rw [nextId_unused] at found
      cases found
    rw [Table.get?_insert_of_ne _ _ apart, found]
  | changed workspace record now found same => exact .insert _ found same.grows rfl _ _
  | saved workspace record name references reference found =>
    exact .insert _ found (WorkspaceRecord.grows_save _ _ _) rfl _ _
  | overflowed workspace record name references found =>
    exact .insert _ found (WorkspaceRecord.grows_save _ _ _) rfl _ _

theorem Consistent.grows_foldl (consistent : store.Consistent) (updates : List Update) :
    store.Grows (updates.foldl Store.update store) := by
  induction updates generalizing store with
  | nil => exact .refl store
  | cons first rest ih =>
    have step := update_step consistent first
    exact (step_grows step).trans (ih (step_consistent consistent step))

theorem VersionsFit.length_lt (fits : store.VersionsFit) {workspace id : Nat}
    {record : WorkspaceRecord} {object : ObjectRecord}
    (found : store.workspaces.get? workspace = some record)
    (present : record.objects.get? id = some object) :
    object.versions.length < Text.versionBound :=
  fits record (Table.mem_values_iff.mpr ⟨workspace, found⟩) object
    (Table.mem_values_iff.mpr ⟨id, present⟩)

theorem VersionsFit.object?_length_lt (fits : store.VersionsFit) {reference : Reference}
    {object : ObjectRecord} (held : store.object? reference = some object) :
    object.versions.length < Text.versionBound := by
  obtain ⟨_, located, present, _⟩ := object?_eq_some.mp held
  exact fits.length_lt located present

theorem Grows.versionsFit (grows : before.Grows after) (fits : after.VersionsFit) :
    before.VersionsFit := by
  intro record mem object held
  obtain ⟨workspace, found⟩ := Table.mem_values_iff.mp mem
  obtain ⟨id, present⟩ := Table.mem_values_iff.mp held
  obtain ⟨now, now_found, growth⟩ := grows.records workspace record found
  obtain ⟨later, later_found, _, versions⟩ := growth.objects id object present
  exact Nat.lt_of_le_of_lt versions.length_le (fits.length_lt now_found later_found)

theorem hasVersion_iff {object : ObjectRecord} (fits : object.versions.length < Text.versionBound)
    (version : Nat) :
    object.hasVersion version = true ↔ 1 ≤ version ∧ version ≤ object.versions.length := by
  simp [ObjectRecord.hasVersion, ObjectRecord.latestVersion, Nat.mod_eq_of_lt fits]

theorem Grows.object? (grows : before.Grows after) (fits : after.VersionsFit)
    {reference : Reference} {object : ObjectRecord}
    (held : before.object? reference = some object) :
    ∃ now, after.object? reference = some now ∧ now.name = object.name ∧
      object.versions <+: now.versions := by
  obtain ⟨record, found, present, stored⟩ := object?_eq_some.mp held
  obtain ⟨now, now_found, growth⟩ := grows.records _ record found
  obtain ⟨later, later_found, name, versions⟩ := growth.objects _ object present
  rw [hasVersion_iff ((grows.versionsFit fits).length_lt found present)] at stored
  have kept : later.hasVersion reference.version = true := by
    rw [hasVersion_iff (fits.length_lt now_found later_found)]
    exact ⟨stored.1, Nat.le_trans stored.2 versions.length_le⟩
  exact ⟨later, object?_eq_some.mpr ⟨now, now_found, later_found, kept⟩, name, versions⟩

theorem Grows.holds (grows : before.Grows after) (fits : after.VersionsFit)
    {reference : Reference} (held : before.holds reference = true) :
    after.holds reference = true := by
  obtain ⟨object, stored⟩ := Option.isSome_iff_exists.mp held
  obtain ⟨now, present, _⟩ := grows.object? fits stored
  simp [Store.holds, present]

theorem refersFrom_iff {object : ObjectRecord} {version : Nat} {target : Reference} :
    object.refersFrom version target = true ↔
      ∃ references number, (1 ≤ number ∧ object.versions[number - 1]? = some references) ∧
        number % Text.versionBound = version ∧ target ∈ references := by
  simp only [ObjectRecord.refersFrom, List.any_eq_true, Bool.and_eq_true, decide_eq_true_eq,
    Prod.exists, List.mk_mem_zipIdx_iff_le_and_getElem?_sub]

theorem references?_eq_some {source : Reference} {references : List Reference} :
    store.references? source = some references ↔
      ∃ object, store.object? source = some object ∧
        object.versions[source.version - 1]? = some references := by
  simp [references?, Option.bind_eq_some_iff]

theorem Grows.references? (grows : before.Grows after) (fits : after.VersionsFit)
    {source : Reference} {references : List Reference}
    (listed : before.references? source = some references) :
    after.references? source = some references := by
  obtain ⟨object, held, there⟩ := references?_eq_some.mp listed
  obtain ⟨now, present, _, versions⟩ := grows.object? fits held
  obtain ⟨within, same⟩ := List.getElem?_eq_some_iff.mp there
  refine references?_eq_some.mpr ⟨now, present, ?_⟩
  rw [List.prefix_iff_getElem?.mp versions _ within, same]

theorem refersTo_iff (fits : store.VersionsFit) (source target : Reference) :
    store.refersTo source target = true ↔
      ∃ references, store.references? source = some references ∧ target ∈ references := by
  simp only [refersTo, WorkspaceRecord.refersFrom, Option.any_eq_true,
    refersFrom_iff, references?_eq_some, object?_eq_some]
  constructor
  · intro given
    rcases given with ⟨record, found, object, present, references, number, ⟨positive, listed⟩, same, mem⟩
    have length := fits.length_lt found present
    have bound : number - 1 < object.versions.length := (List.getElem?_eq_some_iff.mp listed).1
    rw [Nat.mod_eq_of_lt (by omega)] at same
    refine ⟨references, ⟨object, ⟨record, found, present, ?_⟩, same ▸ listed⟩, mem⟩
    rw [hasVersion_iff length]
    omega
  · intro given
    rcases given with ⟨references, ⟨object, ⟨record, found, present, stored⟩, listed⟩, mem⟩
    have number := hasVersion_pos stored
    exact ⟨record, found, object, present, references, source.version, ⟨number, listed⟩,
      Nat.mod_eq_of_lt source.version_lt, mem⟩

theorem step_referrers (step : store.Step after) {source target : Reference}
    (refers : source ∈ after.referrers target) :
    source ∈ store.referrers target ∨ store.holds target = true := by
  cases step with
  | refused => exact .inl refers
  | created => exact .inl refers
  | changed => exact .inl refers
  | saved workspace record name references reference found valid held =>
    rcases (mem_addIncoming _ _ _ _ _).mp refers with before | ⟨_, mem⟩
    · exact .inl before
    · exact .inr (held target mem)
  | overflowed => exact .inl refers

theorem Reachable.holds_target (reachable : store.Reachable) (fits : store.VersionsFit)
    {source target : Reference} (refers : source ∈ store.referrers target) :
    store.holds target = true := by
  induction reachable with
  | empty => cases refers
  | @update store reachable update ih =>
    have step := update_step reachable.consistent update
    have grows := step_grows step
    rcases step_referrers step refers with before | held
    · exact grows.holds fits (ih (grows.versionsFit fits) before)
    · exact grows.holds fits held

theorem Reachable.wellFormed (reachable : store.Reachable) (fits : store.VersionsFit) :
    store.WellFormed := by
  have consistent := reachable.consistent
  refine { consistent with transpose := ?_, stored := ?_ }
  · intro source target
    rw [consistent.referred, refersTo_iff fits]
  · intro source references listed target mem
    have refers := (refersTo_iff fits source target).mpr ⟨references, listed, mem⟩
    exact reachable.holds_target fits ((consistent.referred source target).mpr refers)

end Store

end ObjectSpace
