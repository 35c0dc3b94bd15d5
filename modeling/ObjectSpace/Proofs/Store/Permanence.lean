import ObjectSpace.Proofs.Store.History

set_option autoImplicit false

namespace ObjectSpace

structure WorkspaceRecord.KeepsNames (before after : WorkspaceRecord) : Prop where
  name : after.name = before.name
  by_name : ∀ name id, before.objectNames.get? name = some id →
    after.objectNames.get? name = some id
  by_id : ∀ id object, before.objects.get? id = some object →
    ∃ now, after.objects.get? id = some now ∧ now.name = object.name

structure Store.KeepsNames (before after : Store) : Prop where
  by_name : ∀ name id, before.workspaceNames.get? name = some id →
    after.workspaceNames.get? name = some id
  by_id : ∀ id record, before.workspaces.get? id = some record →
    ∃ now, after.workspaces.get? id = some now ∧ record.KeepsNames now

def Address.Denotes (address : Address) (store : Store) (entry : Entry) : Prop :=
  (address.workspace = .id entry.reference.workspace ∨
    ∃ record, store.workspaces.get? entry.reference.workspace = some record ∧
      address.workspace = .name record.name) ∧
  address.object.Names entry.reference.object entry.name

namespace Store

def LeadsTo (store : Store) (address : Address) (reference : Reference) : Prop :=
  ∀ keys, address.workspace ∈ keys →
    ∃ resolved workspace, store.resolveWorkspaces true keys = .ok resolved ∧
      resolved.get? address.workspace = some workspace ∧
      ∀ asked, address.resolveIn workspace ∈ asked →
        ∃ found, store.objectReferences asked = .ok found ∧
          found.get? (address.resolveIn workspace) = some reference

structure Keeps (store : Store) (entry : Entry) : Prop where
  present : ∀ asked, entry.reference ∈ asked →
    (store.objectsExist asked).get? entry.reference = some true
  named : ∀ asked, entry.reference ∈ asked →
    ∃ state, (store.objectStates asked).get? entry.reference = some state ∧
      state.name = entry.name
  references : store.references? entry.reference = some entry.references
  pinned : ∀ address : Address, address.Denotes store entry →
    address.version = some entry.reference.version → store.LeadsTo address entry.reference

structure Newest (entries : List Entry) (workspace object : Nat) (entry : Entry) : Prop where
  mem : entry ∈ entries
  in_workspace : entry.reference.workspace = workspace
  in_object : entry.reference.object = object
  greatest : ∀ other ∈ entries, other.reference.workspace = workspace →
    other.reference.object = object → other.reference.version ≤ entry.reference.version

variable {store before after : Store} {entries : List Entry} {entry : Entry}

theorem Grows.keepsNames (grows : before.Grows after) (prior : before.Consistent)
    (now : after.Consistent) : before.KeepsNames after := by
  constructor
  · intro name id named
    obtain ⟨record, found, same⟩ := (prior.named name id).mp named
    obtain ⟨later, present, growth⟩ := grows.records id record found
    exact (now.named name id).mpr ⟨later, present, growth.name.trans same⟩
  · intro id record found
    obtain ⟨later, present, growth⟩ := grows.records id record found
    refine ⟨later, present, growth.name, ?_, ?_⟩
    · intro name object named
      obtain ⟨entry, held, same⟩ := ((prior.records id record found).named name object).mp named
      obtain ⟨kept, there, name', _⟩ := growth.objects object entry held
      exact ((now.records id later present).named name object).mpr ⟨kept, there, name'.trans same⟩
    · intro object entry held
      obtain ⟨kept, there, name, _⟩ := growth.objects object entry held
      exact ⟨kept, there, name⟩

theorem Grows.refersTo (grows : before.Grows after) {source target : Reference}
    (refers : before.refersTo source target = true) : after.refersTo source target = true := by
  simp only [Store.refersTo, WorkspaceRecord.refersFrom, Option.any_eq_true,
    refersFrom_iff] at refers ⊢
  obtain ⟨record, found, object, present, references, number, ⟨positive, listed⟩, same, mem⟩ :=
    refers
  obtain ⟨now, located, growth⟩ := grows.records _ record found
  obtain ⟨later, held, _, versions⟩ := growth.objects _ object present
  obtain ⟨within, there⟩ := List.getElem?_eq_some_iff.mp listed
  have kept : later.versions[number - 1]? = some references := by
    rw [List.prefix_iff_getElem?.mp versions _ within, there]
  exact ⟨now, located, later, held, references, number, ⟨positive, kept⟩, same, mem⟩

theorem Grows.referrers_subset (grows : before.Grows after) (prior : before.Consistent)
    (now : after.Consistent) (target : Reference) :
    before.referrers target ⊆ after.referrers target := by
  intro source referrer
  exact (now.referred source target).mpr
    (grows.refersTo ((prior.referred source target).mp referrer))

theorem leadsTo_of_stored? (consistent : store.Consistent) {address : Address}
    {workspace : ResolvedWorkspace} {reference : Reference} {object : ObjectRecord}
    (shown : store.workspace? address.workspace = some workspace)
    (stored : store.stored? (address.resolveIn workspace) = some (reference, object)) :
    store.LeadsTo address reference := by
  intro keys named
  refine ⟨_, workspace, resolveWorkspaces_eq consistent keys, ?_, ?_⟩
  · rw [Table.get?_collect, if_pos named, shown]
  · intro asked listed
    refine ⟨_, objectReferences_eq consistent asked, ?_⟩
    rw [Table.get?_collect, if_pos listed, stored]
    rfl

theorem workspace?_of_denotes (consistent : store.Consistent) {record : WorkspaceRecord}
    (located : store.workspaces.get? entry.reference.workspace = some record) {address : Address}
    (denotes : address.Denotes store entry) :
    store.workspace? address.workspace = some (record.shown entry.reference.workspace) := by
  rcases denotes.1 with by_id | ⟨other, present, by_name⟩
  · simp [workspace?, by_id, find?_id, located]
  · cases located.symm.trans present
    have named := (consistent.named record.name _).mpr ⟨record, located, rfl⟩
    simp [workspace?, by_name, find?_name, named, find?_id, located]

theorem stored?_newest (consistent : store.Consistent) (fits : store.VersionsFit)
    {address : ResolvedAddress} (unpinned : address.version = none) {reference : Reference}
    {object : ObjectRecord} (held : store.object? reference = some object)
    (in_workspace : reference.workspace = address.workspace.id)
    (names : address.object.Names reference.object object.name) :
    ∃ newest, store.stored? address = some (newest, object) ∧
      newest.workspace = reference.workspace ∧ newest.object = reference.object ∧
      newest.version = object.versions.length := by
  obtain ⟨record, located, present, numbered⟩ := object?_eq_some.mp held
  have ok := consistent.records _ record located
  have few := fits.length_lt located present
  have count := (hasVersion_iff few _).mp numbered
  have latest : object.latestVersion = object.versions.length := Nat.mod_eq_of_lt few
  have stored : object.hasVersion object.versions.length = true :=
    (hasVersion_iff few _).mpr ⟨by omega, Nat.le_refl _⟩
  have known := ok.objectId?_of_names present names
  have made : ∃ newest, Reference.ofParts reference.workspace reference.object
      object.versions.length = .ok newest := by
    have positive : 0 < object.versions.length := by omega
    simp [Reference.ofParts, reference.workspace_pos, reference.object_pos, positive, few]
  obtain ⟨newest, made⟩ := made
  refine ⟨newest, ?_, ofParts_eq_ok made⟩
  rw [in_workspace] at located made
  simp [stored?, located, known, present, unpinned, latest, stored, made, Except.toOption]

theorem keeps_of_held (consistent : store.Consistent) {object : ObjectRecord}
    (held : store.object? entry.reference = some object) (name : object.name = entry.name)
    (listed : store.references? entry.reference = some entry.references) :
    store.Keeps entry := by
  obtain ⟨record, located, _⟩ := object?_eq_some.mp held
  have state := stateOf_eq located held
  have answered : ∀ asked, entry.reference ∈ asked →
      (store.objectStates asked).get? entry.reference = store.stateOf entry.reference := by
    intro asked mem
    rw [objectStates, Table.get?_collect, if_pos mem]
  refine ⟨?_, ?_, listed, ?_⟩
  · intro asked mem
    rw [objectsExist, Table.get?_tabulate, if_pos mem, answered asked mem, state]
    rfl
  · intro asked mem
    exact ⟨_, (answered asked mem).trans state, name⟩
  · intro address denotes pinned
    apply leadsTo_of_stored? consistent (workspace?_of_denotes consistent located denotes)
    exact (stored?_eq_some_iff consistent pinned).mpr ⟨rfl, rfl, held, name ▸ denotes.2⟩

theorem RecordedBy.newest (recorded : store.RecordedBy entries) (fits : store.VersionsFit)
    {newest : Reference} {object : ObjectRecord} (held : store.object? newest = some object)
    (numbered : newest.version = object.versions.length) :
    ∃ entry, Newest entries newest.workspace newest.object entry ∧ entry.reference = newest := by
  obtain ⟨record, located, present, _⟩ := object?_eq_some.mp held
  have known : store.holds newest = true := by simp [holds, held]
  obtain ⟨entry, mem, rfl⟩ := List.mem_map.mp (recorded.mem known)
  refine ⟨entry, ⟨mem, rfl, rfl, ?_⟩, rfl⟩
  intro other listed in_workspace in_object
  have stored := (recorded.exact _ _).mpr ⟨other, listed, rfl, rfl⟩
  obtain ⟨object', held', _⟩ := references?_eq_some.mp stored
  obtain ⟨record', located', present', count⟩ := object?_eq_some.mp held'
  rw [in_workspace] at located'
  cases located.symm.trans located'
  rw [in_object] at present'
  cases present.symm.trans present'
  rw [numbered]
  exact ((hasVersion_iff (fits.length_lt located present) _).mp count).2

theorem run_append (early late : List Update) :
    run (early ++ late) = late.foldl Store.update (run early) :=
  List.foldl_append

theorem run_grows {early course : List Update} (part : early <+: course) :
    (run early).Grows (run course) := by
  obtain ⟨late, rfl⟩ := part
  rw [run_append]
  exact (reachable_run early).consistent.grows_foldl late

theorem object?_of_saved {updates later : List Update} {workspace : Nat} {name : String}
    {references : List Reference} {saved : Reference}
    (ran : ((run updates).saveObject workspace name references).1 = .ok saved)
    (fits : (run (updates ++ .saveObject workspace name references :: later)).VersionsFit) :
    ∃ object, (run (updates ++ .saveObject workspace name references :: later)).object? saved =
        some object ∧ object.name = name ∧
      (run (updates ++ .saveObject workspace name references :: later)).references? saved =
        some references := by
  have consistent := (reachable_run updates).consistent
  obtain ⟨_, record, saves⟩ := saveObject_saves consistent (Prod.ext ran rfl)
  have here : run (updates ++ [.saveObject workspace name references]) =
      ((run updates).saveObject workspace name references).2 := by
    rw [run_append]
    rfl
  have grows : (run (updates ++ [.saveObject workspace name references])).Grows
      (run (updates ++ .saveObject workspace name references :: later)) :=
    run_grows ⟨later, by simp⟩
  have few := grows.versionsFit fits
  have before : (run updates).VersionsFit :=
    (run_grows (List.prefix_append updates [_])).versionsFit few
  rw [here] at grows few
  have listed := saves.references?_eq before few saved
  rw [if_pos rfl] at listed
  obtain ⟨object, held, named, _⟩ := grows.object? fits saves.object?_saved
  have ok := consistent.records _ record saves.found
  exact ⟨object, held, named.trans (WorkspaceRecord.objectFor_name ok name),
    grows.references? fits listed⟩

theorem saved_versions_permanent {updates later course : List Update} {workspace : Nat}
    {name : String} {references : List Reference} {saved : Reference}
    (ran : ((run updates).saveObject workspace name references).1 = .ok saved)
    (follows : course = updates ++ .saveObject workspace name references :: later)
    (fits : (run course).VersionsFit) :
    (run course).Keeps ⟨saved, name, references⟩ ∧
      (∀ address : Address, address.Denotes (run course) ⟨saved, name, references⟩ →
        address.version = none →
          ∃ newest, Newest (history course) saved.workspace saved.object newest ∧
            (run course).LeadsTo address newest.reference) ∧
      ∀ early, early <+: course →
        (run early).KeepsNames (run course) ∧
          ∀ asked, saved ∈ asked → ∃ before now,
            ((run early).incomingReferences asked).get? saved = some before ∧
              ((run course).incomingReferences asked).get? saved = some now ∧ before ⊆ now := by
  subst follows
  have consistent := (reachable_run (updates ++ .saveObject workspace name references ::
    later)).consistent
  obtain ⟨object, held, named, listed⟩ := object?_of_saved ran fits
  refine ⟨keeps_of_held consistent held named listed, ?_, ?_⟩
  · intro address denotes unpinned
    obtain ⟨record, located, _⟩ := object?_eq_some.mp held
    have shown := workspace?_of_denotes consistent located denotes
    have latest : (address.resolveIn (record.shown saved.workspace)).version = none := unpinned
    obtain ⟨newest, stored, in_workspace, in_object, numbered⟩ :=
      stored?_newest consistent fits latest held rfl (named ▸ denotes.2)
    obtain ⟨entry, first, rfl⟩ :=
      (run_recordedBy _ fits).newest fits (stored?_eq_some stored).2 numbered
    rw [in_workspace, in_object] at first
    exact ⟨entry, first, leadsTo_of_stored? consistent shown stored⟩
  · intro early part
    have prior := (reachable_run early).consistent
    have grows := run_grows part
    refine ⟨grows.keepsNames prior consistent, ?_⟩
    intro asked mem
    refine ⟨_, _, ?_, ?_, grows.referrers_subset prior consistent saved⟩
    · rw [incomingReferences, Table.get?_tabulate, if_pos mem]
      rfl
    · rw [incomingReferences, Table.get?_tabulate, if_pos mem]
      rfl

namespace Sample

def renewal : List Update := updates ++ [.saveObject 2 "target" [root]]

def latestTarget : Address := .mk ⟨.name "hidden", .name "target", none, {}⟩ .direct

end Sample

theorem sample_saved_versions_permanent :
    ∃ newest, ((run (Sample.updates.take 2)).saveObject 2 "target" []).1 = .ok Sample.target ∧
      Sample.renewal = Sample.updates.take 2 ++ .saveObject 2 "target" [] ::
        Sample.renewal.drop 3 ∧
      (run Sample.renewal).VersionsFit ∧
      (run Sample.renewal).Keeps ⟨Sample.target, "target", []⟩ ∧
      Sample.latestTarget.Denotes (run Sample.renewal) ⟨Sample.target, "target", []⟩ ∧
      Newest (history Sample.renewal) 2 1 newest ∧ 2 ≤ newest.reference.version ∧
      (run Sample.renewal).LeadsTo Sample.latestTarget newest.reference ∧
      sample.KeepsNames (run Sample.renewal) ∧
      sample.referrers Sample.target = [Sample.middle] := by
  have ran : ((run (Sample.updates.take 2)).saveObject 2 "target" []).1 = .ok Sample.target := rfl
  have follows : Sample.renewal = Sample.updates.take 2 ++ .saveObject 2 "target" [] ::
    Sample.renewal.drop 3 := rfl
  have fits : (run Sample.renewal).VersionsFit := by decide
  obtain ⟨keeps, latest, early⟩ := saved_versions_permanent ran follows fits
  have denotes : Sample.latestTarget.Denotes (run Sample.renewal)
      ⟨Sample.target, "target", []⟩ := ⟨.inr ⟨_, rfl, rfl⟩, rfl⟩
  obtain ⟨newest, greatest, leads⟩ := latest Sample.latestTarget denotes rfl
  have renewed : (⟨Sample.renewed, "target", [Sample.root]⟩ : Entry) ∈ history Sample.renewal := by
    decide
  exact ⟨newest, ran, follows, fits, keeps, denotes, greatest,
    greatest.greatest _ renewed rfl rfl, leads, (early _ (List.prefix_append _ _)).1, by decide⟩

end Store

end ObjectSpace
