import ObjectSpace.Proofs.Store.Step

set_option autoImplicit false

namespace ObjectSpace

theorem ObjectRecord.refersFrom_append (object : ObjectRecord) (references : List Reference)
    (version : Nat) (target : Reference) :
    ({ object with versions := object.versions ++ [references] } : ObjectRecord).refersFrom
        version target =
      (object.refersFrom version target ||
        ((object.versions.length + 1) % Text.versionBound = version && target ∈ references)) := by
  simp [ObjectRecord.refersFrom, List.zipIdx_append, Nat.add_comm]

namespace WorkspaceRecord

variable {record after : WorkspaceRecord}

theorem refersFrom_save (record : WorkspaceRecord) (name : String) (references : List Reference)
    (object version : Nat) (target : Reference) :
    (record.save name references).refersFrom object version target =
      (record.refersFrom object version target ||
        (record.idFor name = object && record.savedNumber name = version &&
          target ∈ references)) := by
  by_cases same : record.idFor name = object
  · -- An object that did not exist before refers to nothing.
    have prior : (record.objectFor name).refersFrom version target =
        record.refersFrom object version target := by
      cases found : record.objects.get? (record.idFor name) with
      | some previous => simp [refersFrom, objectFor, ← same, found]
      | none => simp [refersFrom, objectFor, ← same, found, ObjectRecord.refersFrom]
    simp only [refersFrom, save, Table.get?_insert, same, if_true, Option.any_some,
      ObjectRecord.refersFrom_append, savedNumber, decide_true, Bool.true_and]
    rw [prior]
    rfl
  · simp [refersFrom, save, Table.get?_insert, same]

namespace SameObjects

theorem symm (same : record.SameObjects after) : after.SameObjects record :=
  ⟨same.name.symm, same.objectNames.symm, fun id => (same.objects id).symm⟩

theorem refersFrom (same : record.SameObjects after) (object version : Nat)
    (target : Reference) :
    after.refersFrom object version target = record.refersFrom object version target := by
  have objects := same.objects object
  simp only [WorkspaceRecord.refersFrom]
  cases before : record.objects.get? object <;> cases now : after.objects.get? object <;>
    simp_all [ObjectRecord.refersFrom]

theorem find (same : record.SameObjects after) {id : Nat} {object : ObjectRecord}
    (found : record.objects.get? id = some object) :
    ∃ now, after.objects.get? id = some now ∧ now.name = object.name ∧
      now.versions = object.versions := by
  have objects := same.objects id
  cases now : after.objects.get? id with
  | none => simp [found, now] at objects
  | some present =>
    simp only [found, now, Option.map_some, Option.some.injEq, Prod.mk.injEq] at objects
    exact ⟨present, rfl, objects.1, objects.2⟩

end SameObjects

theorem SameContents.consistent (same : record.SameContents after) (ok : record.Consistent) :
    after.Consistent where
  name_valid := same.name ▸ ok.name_valid
  numbered := by
    obtain ⟨count, exact⟩ := ok.numbered
    refine ⟨count, fun id => ?_⟩
    rw [← exact id]
    have objects := congrArg Option.isSome (same.objects id)
    simpa [Table.contains] using objects
  named := by
    intro name id
    rw [same.objectNames, ok.named name id]
    constructor
    · intro given
      rcases given with ⟨object, found, rfl⟩
      obtain ⟨now, present, name, _⟩ := same.find found
      exact ⟨now, present, name⟩
    · intro given
      rcases given with ⟨object, found, rfl⟩
      obtain ⟨before, previous, name, _⟩ := same.symm.find found
      exact ⟨before, previous, name⟩
  object_name_valid := by
    intro id object found
    obtain ⟨before, previous, name, _⟩ := same.symm.find found
    exact name ▸ ok.object_name_valid id before previous
  saved := by
    intro id object found
    obtain ⟨before, previous, _, versions⟩ := same.symm.find found
    exact versions ▸ ok.saved id before previous
  granted := same.granted ok.granted

theorem consistent_save (ok : record.Consistent) {name : String}
    (valid : Name.checkObject name = .ok ()) (references : List Reference) :
    (record.save name references).Consistent where
  name_valid := ok.name_valid
  numbered := by
    rcases idFor_cases ok name with ⟨object, _, found, _⟩ | ⟨_, next, _⟩
    · exact ok.numbered.insert_used found _
    · simp only [save, next]
      exact ok.numbered.insert_next _
  named := by
    intro other id
    have name_eq := objectFor_name ok name
    simp only [save, Table.get?_insert]
    by_cases same : name = other
    · subst same
      by_cases here : record.idFor name = id
      · simp [here, name_eq]
      · -- Only the object saved has this name: any other would be found under it.
        simp only [if_true, Option.some.injEq, here, false_iff]
        intro given
        rcases given with ⟨object, found, named⟩
        have other := (ok.named name id).mpr ⟨object, found, named⟩
        exact here (by simp [idFor, other])
    · rw [if_neg same, ok.named other id]
      by_cases here : record.idFor name = id
      · subst here
        simp only [if_true, Option.some.injEq, exists_eq_left', name_eq, same, iff_false]
        intro given
        rcases given with ⟨object, found, named⟩
        rcases idFor_cases ok name with ⟨previous, _, present, name⟩ | ⟨_, _, missing⟩
        · cases found.symm.trans present
          exact same (name.symm.trans named)
        · simp [missing] at found
      · simp [here]
  object_name_valid := by
    intro id object
    simp only [save, Table.get?_insert]
    split
    · intro same
      cases same
      exact (objectFor_name ok name).symm ▸ valid
    · exact ok.object_name_valid id object
  saved := by
    intro id object
    simp only [save, Table.get?_insert]
    split
    · intro same
      cases same
      simp
    · exact ok.saved id object
  granted := ok.granted

end WorkspaceRecord

namespace Store

variable {store after : Store}

theorem mem_addIncoming (incoming : Table Reference (List Reference)) (source : Reference)
    (targets : List Reference) (other target : Reference) :
    other ∈ ((addIncoming incoming source targets).get? target).getD [] ↔
      other ∈ (incoming.get? target).getD [] ∨ other = source ∧ target ∈ targets := by
  induction targets generalizing incoming with
  | nil => simp [addIncoming]
  | cons first rest ih =>
    have step := ih (incoming.insert first
      (if source ∈ (incoming.get? first).getD [] then (incoming.get? first).getD []
        else (incoming.get? first).getD [] ++ [source]))
    simp only [addIncoming, List.foldl_cons] at step ⊢
    rw [step, Table.get?_insert]
    by_cases here : first = target
    · subst here
      by_cases known : source ∈ (incoming.get? first).getD []
      · simp only [known, if_true, Option.getD_some, List.mem_cons, true_or, and_true]
        constructor
        · intro given
          rcases given with mem | ⟨rfl, _⟩
          · exact .inl mem
          · exact .inl known
        · intro given
          rcases given with mem | rfl
          · exact .inl mem
          · exact .inl known
      · simp only [known, if_true, if_false, Option.getD_some, List.mem_append, List.mem_cons,
          List.not_mem_nil, or_false, true_or, and_true]
        constructor
        · intro given
          rcases given with (mem | same) | ⟨same, _⟩
          · exact .inl mem
          · exact .inr same
          · exact .inr same
        · intro given
          rcases given with mem | same
          · exact .inl (.inl mem)
          · exact .inl (.inr same)
    · have apart : target ≠ first := fun same => here same.symm
      simp [here, apart]

theorem addIncoming_nodup (incoming : Table Reference (List Reference)) (source : Reference)
    (targets : List Reference) (nodup : ∀ target, ((incoming.get? target).getD []).Nodup)
    (target : Reference) :
    (((addIncoming incoming source targets).get? target).getD []).Nodup := by
  induction targets generalizing incoming with
  | nil => exact nodup target
  | cons first rest ih =>
    apply ih
    intro other
    rw [Table.get?_insert]
    split
    · have before := nodup first
      simp only [Option.getD_some]
      split
      next => exact before
      next fresh =>
        refine List.nodup_append.mpr ⟨before, by simp, ?_⟩
        intro left mem right last same
        exact fresh (List.mem_singleton.mp last ▸ same ▸ mem)
    · exact nodup other

theorem refersTo_insert (store : Store) (workspace : Nat) (record : WorkspaceRecord)
    (incoming : Table Reference (List Reference)) (source target : Reference) :
    ({ store with
        workspaces := store.workspaces.insert workspace record
        incoming } : Store).refersTo source target =
      if workspace = source.workspace then
        record.refersFrom source.object source.version target
      else store.refersTo source target := by
  simp only [refersTo, Table.get?_insert]
  split <;> rfl

theorem Consistent.replace (consistent : store.Consistent) {workspace : Nat}
    {record changed : WorkspaceRecord}
    (found : store.workspaces.get? workspace = some record) (name : changed.name = record.name)
    (ok : changed.Consistent) (incoming : Table Reference (List Reference))
    (referred : ∀ source target, source ∈ (incoming.get? target).getD [] ↔
      ({ store with workspaces := store.workspaces.insert workspace changed, incoming } :
        Store).refersTo source target = true)
    (nodup : ∀ target, ((incoming.get? target).getD []).Nodup) :
    ({ store with workspaces := store.workspaces.insert workspace changed, incoming } :
      Store).Consistent where
  numbered := consistent.numbered.insert_used found changed
  named := by
    intro other id
    rw [consistent.named other id, Table.get?_insert]
    by_cases here : workspace = id
    · subst here
      simp [found, name]
    · simp [here]
  records := by
    intro id other
    rw [Table.get?_insert]
    split
    · intro same
      cases same
      exact ok
    · exact consistent.records id other
  referred := referred
  referrers_nodup := nodup

theorem refersTo_of_refersFrom {workspace : Nat} {record : WorkspaceRecord}
    (found : store.workspaces.get? workspace = some record) {source : Reference}
    (here : workspace = source.workspace) (target : Reference) :
    store.refersTo source target = record.refersFrom source.object source.version target := by
  simp [refersTo, ← here, found]

theorem created_consistent {name : String} (valid : Name.checkWorkspace name = .ok ())
    (owner : User) :
    ({ name, acl := Table.empty.insert owner .owner } : WorkspaceRecord).Consistent := by
  refine ⟨valid, ⟨0, fun id => ?_⟩, ?_, ?_, ?_, ?_⟩
  · simp only [Table.contains, Table.get?_empty, Option.isSome_none]
    constructor
    · intro impossible
      cases impossible
    · omega
  · simp
  · simp
  · simp
  · intro user
    rw [Table.get?_insert]
    split <;> simp

theorem Consistent.create (consistent : store.Consistent) {record : WorkspaceRecord}
    (ok : record.Consistent) (bare : record.objects = .empty)
    (unused : store.workspaceNames.get? record.name = none) :
    ({ store with
        workspaces := store.workspaces.insert (nextId store.workspaces) record
        workspaceNames := store.workspaceNames.insert record.name (nextId store.workspaces) } :
      Store).Consistent where
  numbered := consistent.numbered.insert_next _
  named := by
    have absent := nextId_unused store.workspaces
    intro other id
    simp only [Table.get?_insert]
    by_cases same : record.name = other
    · subst same
      by_cases here : nextId store.workspaces = id
      · simp [here]
      · simp only [if_true, Option.some.injEq, here, if_false, false_iff]
        intro used
        have := (consistent.named record.name id).mpr used
        simp [unused] at this
    · rw [if_neg same, consistent.named other id]
      by_cases here : nextId store.workspaces = id
      · subst here
        simp [absent, same]
      · simp [here]
  records := by
    intro id other
    rw [Table.get?_insert]
    split
    · intro same
      cases same
      exact ok
    · exact consistent.records id other
  referred := by
    have absent := nextId_unused store.workspaces
    intro source target
    apply (consistent.referred source target).trans
    simp only [refersTo, Table.get?_insert]
    split
    next here => simp [← here, absent, WorkspaceRecord.refersFrom, bare]
    next => rfl
  referrers_nodup := consistent.referrers_nodup

theorem Consistent.change (consistent : store.Consistent) {workspace : Nat}
    {record changed : WorkspaceRecord}
    (found : store.workspaces.get? workspace = some record) (same : record.SameContents changed) :
    ({ store with workspaces := store.workspaces.insert workspace changed } : Store).Consistent := by
  have ok := same.consistent (consistent.records workspace record found)
  apply consistent.replace found same.name ok store.incoming _ consistent.referrers_nodup
  intro source target
  rw [refersTo_insert]
  apply (consistent.referred source target).trans
  split
  next here => rw [same.refersFrom, refersTo_of_refersFrom found here]
  next => rfl

theorem Consistent.save (consistent : store.Consistent) {workspace : Nat}
    {record : WorkspaceRecord} {name : String} (references : List Reference)
    {reference : Reference} (found : store.workspaces.get? workspace = some record)
    (valid : Name.checkObject name = .ok ()) (in_workspace : reference.workspace = workspace)
    (in_object : reference.object = record.idFor name)
    (numbered : reference.version = record.savedNumber name) :
    ({ store with
        workspaces := store.workspaces.insert workspace (record.save name references)
        incoming := addIncoming store.incoming reference references } : Store).Consistent := by
  have ok := WorkspaceRecord.consistent_save (consistent.records workspace record found) valid
    references
  have name_eq : (record.save name references).name = record.name := rfl
  apply consistent.replace found name_eq ok _ _
    (addIncoming_nodup _ _ _ consistent.referrers_nodup)
  intro source target
  rw [mem_addIncoming, refersTo_insert]
  apply (or_congr (consistent.referred source target) Iff.rfl).trans
  -- The new version is the source exactly when all three numbers agree.
  have parts : source = reference ↔ workspace = source.workspace ∧
      record.idFor name = source.object ∧ record.savedNumber name = source.version := by
    rw [← in_workspace, ← in_object, ← numbered, eq_comm, Reference.eq_iff_parts]
  split
  next here =>
    rw [WorkspaceRecord.refersFrom_save, ← refersTo_of_refersFrom found here, parts]
    simp [here, and_assoc]
  next apart => simp [parts, apart]

-- Version zero cannot be referred to, so nothing is noted of it.
theorem Consistent.overflow (consistent : store.Consistent) {workspace : Nat}
    {record : WorkspaceRecord} {name : String} (references : List Reference)
    (found : store.workspaces.get? workspace = some record)
    (valid : Name.checkObject name = .ok ()) (numbered : record.savedNumber name = 0) :
    ({ store with
        workspaces := store.workspaces.insert workspace (record.save name references) } :
      Store).Consistent := by
  have ok := WorkspaceRecord.consistent_save (consistent.records workspace record found) valid
    references
  have name_eq : (record.save name references).name = record.name := rfl
  apply consistent.replace found name_eq ok store.incoming _ consistent.referrers_nodup
  intro source target
  rw [refersTo_insert]
  apply (consistent.referred source target).trans
  split
  next here =>
    have positive := source.version_pos
    have apart : record.savedNumber name ≠ source.version := by omega
    simp [WorkspaceRecord.refersFrom_save, refersTo_of_refersFrom found here, apart]
  next => rfl

theorem step_consistent (consistent : store.Consistent) (step : store.Step after) :
    after.Consistent := by
  cases step with
  | refused => exact consistent
  | created owner name valid unused =>
    exact consistent.create (created_consistent valid owner) rfl unused
  | changed workspace record now found same => exact consistent.change found same
  | saved workspace record name references reference found valid held in_workspace in_object
      numbered =>
    exact consistent.save references found valid in_workspace in_object numbered
  | overflowed workspace record name references found valid held numbered =>
    exact consistent.overflow references found valid numbered

theorem empty_consistent : Store.empty.Consistent := by
  refine ⟨⟨0, fun id => ?_⟩, ?_, ?_, ?_, ?_⟩
  · simp only [empty, Table.contains, Table.get?_empty, Option.isSome_none]
    constructor
    · intro impossible
      cases impossible
    · omega
  · simp [empty]
  · simp [empty]
  · simp [empty, referrers, refersTo]
  · simp [empty, referrers]

theorem Reachable.consistent (reachable : store.Reachable) : store.Consistent := by
  induction reachable with
  | empty => exact empty_consistent
  | update _ update ih => exact step_consistent ih (update_step ih update)

end Store

end ObjectSpace
