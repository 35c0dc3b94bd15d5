import ObjectSpace.Proofs.Collecting
import ObjectSpace.Proofs.Store.Invariant

set_option autoImplicit false

namespace ObjectSpace

namespace WorkspaceRecord

def shown (record : WorkspaceRecord) (id : Nat) : ResolvedWorkspace where
  id := id
  name := record.name
  locked := record.locked
  deleted := record.deleted

theorem resolved_eq {record : WorkspaceRecord} {id : Nat} (positive : 0 < id)
    (valid : Name.checkWorkspace record.name = .ok ()) :
    record.resolved id = .ok (record.shown id) := by
  have large : ¬ id < 1 := by omega
  simp [resolved, ResolvedWorkspace.make, large, valid, shown, bind, Except.bind, pure,
    Except.pure]

theorem eq_shown_of_resolved {record : WorkspaceRecord} {id : Nat} {workspace : ResolvedWorkspace}
    (resolved : record.resolved id = .ok workspace) : workspace = record.shown id := by
  simp only [WorkspaceRecord.resolved, ResolvedWorkspace.make] at resolved
  by_cases small : id < 1
  · simp [small, bind, Except.bind, throw, throwThe, MonadExceptOf.throw] at resolved
  · cases valid : Name.checkWorkspace record.name with
    | error cause => simp [small, valid, bind, Except.bind] at resolved
    | ok =>
      simp only [small, valid, bind, Except.bind, pure, Except.pure, if_false,
        Except.ok.injEq] at resolved
      exact resolved.symm

-- The world's part counts only where it is asked for.
def countedGrant (record : WorkspaceRecord) (user : Option User) (world : Bool) : Grant where
  user := record.userPermission user
  world := if world then record.worldPermission else .none

theorem world_grantable (record : WorkspaceRecord) :
    record.worldPermission.isWorldGrantable = true := by
  cases readable : record.worldReadable <;> simp [worldPermission, readable] <;> decide

end WorkspaceRecord

namespace Store

variable {store : Store}

def workspace? (store : Store) (key : WorkspaceKey) : Option ResolvedWorkspace :=
  (store.find? key).map fun found => found.2.shown found.1

def stored? (store : Store) (address : ResolvedAddress) : Option (Reference × ObjectRecord) := do
  let record ← store.workspaces.get? address.workspace.id
  let id ← record.objectId? address.object
  let object ← record.objects.get? id
  let version := address.version.getD object.latestVersion
  if object.hasVersion version then
    let reference ← (Reference.ofParts address.workspace.id id version).toOption
    return (reference, object)
  else none

theorem find?_id (store : Store) (id : Nat) :
    store.find? (.id id) = (store.workspaces.get? id).map fun record => (id, record) := by
  cases found : store.workspaces.get? id <;> simp [find?, found]

theorem find?_name (store : Store) (name : String) :
    store.find? (.name name) =
      (store.workspaceNames.get? name).bind fun id => store.find? (.id id) := by
  cases named : store.workspaceNames.get? name <;> simp [find?, named]

theorem find?_eq_some {key : WorkspaceKey} {id : Nat} {record : WorkspaceRecord}
    (found : store.find? key = some (id, record)) :
    store.workspaces.get? id = some record ∧
      (key = .id id ∨ ∃ name, key = .name name ∧ store.workspaceNames.get? name = some id) := by
  cases key with
  | id number =>
    simp only [find?_id, Option.map_eq_some_iff, Prod.mk.injEq] at found
    obtain ⟨_, present, rfl, rfl⟩ := found
    exact ⟨present, .inl rfl⟩
  | name text =>
    simp only [find?_name, find?_id, Option.bind_eq_some_iff, Option.map_eq_some_iff,
      Prod.mk.injEq] at found
    obtain ⟨_, named, _, present, rfl, rfl⟩ := found
    exact ⟨present, .inr ⟨text, rfl, named⟩⟩

theorem workspace?_eq_some {key : WorkspaceKey} {workspace : ResolvedWorkspace}
    (found : store.workspace? key = some workspace) :
    ∃ record, store.find? key = some (workspace.id, record) ∧
      store.workspaces.get? workspace.id = some record ∧
      workspace = record.shown workspace.id := by
  simp only [workspace?, Option.map_eq_some_iff] at found
  obtain ⟨⟨id, record⟩, located, rfl⟩ := found
  exact ⟨record, located, (find?_eq_some located).1, rfl⟩

theorem Consistent.isMatch (consistent : store.Consistent) {key : WorkspaceKey}
    {workspace : ResolvedWorkspace} (found : store.workspace? key = some workspace) :
    key.isMatch workspace = true := by
  obtain ⟨record, located, present, shown⟩ := workspace?_eq_some found
  rcases (find?_eq_some located).2 with rfl | ⟨name, rfl, named⟩
  · simp [WorkspaceKey.isMatch]
  · obtain ⟨other, here, same⟩ := (consistent.named _ _).mp named
    cases here.symm.trans present
    rw [shown]
    simp [WorkspaceKey.isMatch, WorkspaceRecord.shown, same]

theorem resolveOne_eq_some {suppress : Bool} {key : WorkspaceKey} {workspace : ResolvedWorkspace}
    (resolved : store.resolveOne suppress key = .ok (some workspace)) :
    store.workspace? key = some workspace := by
  simp only [resolveOne] at resolved
  split at resolved
  · split at resolved <;> cases resolved
  next id record found =>
    split at resolved
    · cases resolved
    · split at resolved
      · cases resolved
      next shown =>
        cases resolved
        simp [workspace?, found, WorkspaceRecord.eq_shown_of_resolved shown]

theorem resolveWorkspaces_get? {suppress : Bool} {keys : List WorkspaceKey}
    {table : Table WorkspaceKey ResolvedWorkspace}
    (resolved : store.resolveWorkspaces suppress keys = .ok table) {key : WorkspaceKey}
    {workspace : ResolvedWorkspace} (found : table.get? key = some workspace) :
    store.workspace? key = some workspace := by
  refine foldlM_invariant (P := fun table => ∀ key workspace,
    table.get? key = some workspace → store.workspace? key = some workspace) ?_ (by simp) resolved
    key workspace found
  intro table first next sound ran
  obtain ⟨answer, one, ran⟩ := bind_eq_ok.mp ran
  cases answer with
  | none =>
    cases ran
    exact sound
  | some workspace =>
    cases ran
    intro other answer
    rw [Table.get?_insert]
    split
    next same =>
      intro same
      cases same
      exact same ▸ resolveOne_eq_some one
    next => exact sound other answer

theorem resolveOne_eq (consistent : store.Consistent) (key : WorkspaceKey) :
    store.resolveOne true key = .ok (store.workspace? key) := by
  cases found : store.find? key with
  | none => simp [resolveOne, workspace?, found]
  | some entry =>
    have present := (find?_eq_some found).1
    have resolved := WorkspaceRecord.resolved_eq (consistent.numbered.pos present)
      (consistent.records _ _ present).name_valid
    simp [resolveOne, workspace?, found, resolved]

theorem resolveWorkspaces_eq (consistent : store.Consistent) (keys : List WorkspaceKey) :
    store.resolveWorkspaces true keys = .ok (Table.collect keys store.workspace?) := by
  refine foldlM_eq_ok (fun table key _ => ?_) Table.empty
  rw [resolveOne_eq consistent]
  cases store.workspace? key <;> rfl

theorem world_of_grantOn (store : Store) (user : Option User) (workspace : Nat) :
    (store.grantOn user workspace).world.isWorldGrantable = true := by
  simp only [grantOn]
  split
  · decide
  · exact WorkspaceRecord.world_grantable _

theorem anonymous_grantOn (store : Store) (workspace : Nat) :
    (store.grantOn none workspace).user = .none := by
  simp only [grantOn]
  split <;> rfl

theorem permissions_eq (store : Store) (user : Option User) {workspaces : List ResolvedWorkspace}
    (nodup : workspaces.Nodup) :
    store.permissions user workspaces = .ok
      { user
        grants := Table.tabulate workspaces fun workspace =>
          store.grantOn user workspace.id } := by
  have generalised : ∀ (rest : List ResolvedWorkspace) (grants : Table ResolvedWorkspace Grant),
      rest.Nodup → (∀ workspace ∈ rest, grants.get? workspace = none) →
      rest.foldlM (fun set workspace =>
        let grant := store.grantOn user workspace.id
        (if grant.user = .none ∧ grant.world = .none then set.addUnreadable workspace
          else set.addReadable workspace grant).mapError StoreError.value)
        ({ user, grants } : PermissionSet) =
      .ok
        { user
          grants := rest.foldl (fun grants workspace =>
            grants.insert workspace (store.grantOn user workspace.id)) grants } := by
    intro rest
    induction rest with
    | nil => intros; rfl
    | cons first rest ih =>
      intro grants nodup fresh
      have parts := List.nodup_cons.mp nodup
      have unused := fresh first List.mem_cons_self
      have still : ∀ workspace ∈ rest,
          (grants.insert first (store.grantOn user first.id)).get? workspace = none := by
        intro workspace mem
        have apart : first ≠ workspace := fun same => parts.1 (same ▸ mem)
        rw [Table.get?_insert_of_ne _ _ apart]
        exact fresh workspace (List.mem_cons_of_mem _ mem)
      have anonymous : ¬ (user = none ∧ (store.grantOn user first.id).user ≠ .none) := by
        intro given
        rcases given with ⟨rfl, own⟩
        exact own (anonymous_grantOn store first.id)
      rw [List.foldlM_cons, List.foldl_cons, ← ih _ parts.2 still]
      by_cases nothing : (store.grantOn user first.id).user = .none ∧
          (store.grantOn user first.id).world = .none
      · have empty : ({} : Grant) = store.grantOn user first.id := by
          cases grant : store.grantOn user first.id
          simp_all
        simp only [nothing, and_self, if_true, PermissionSet.addUnreadable,
          PermissionSet.takeUnreadable, PermissionSet.hasWorkspace, Table.contains, unused, Option.isSome_none, empty]
        rfl
      · simp only [nothing, anonymous, world_of_grantOn, if_false, PermissionSet.addReadable,
          PermissionSet.takeReadable, PermissionSet.hasWorkspace, Table.contains, unused,
          Option.isSome_none]
        rfl
  exact generalised workspaces .empty nodup (by simp)

theorem countedGrant_grantable (record : WorkspaceRecord) (user : Option User) (world : Bool) :
    (record.countedGrant user world).world.isWorldGrantable = true := by
  simp only [WorkspaceRecord.countedGrant]
  split
  · exact record.world_grantable
  · decide

def addCounted (user : Option User) (minimum : Permission) (world : Bool) (set : PermissionSet)
    (entry : Nat × WorkspaceRecord) : Except StoreError PermissionSet :=
  let grant := entry.2.countedGrant user world
  if grant.effective = .none ∨ grant.effective < minimum then .ok set
  else (do set.addReadable (← entry.2.resolved entry.1) grant).mapError .value

def Counts (minimum : Permission) (grant : Grant) : Prop :=
  grant.effective ≠ .none ∧ minimum ≤ grant.effective

theorem addCounted_eq {user : Option User} {minimum : Permission} {world : Bool}
    {set : PermissionSet} {entry : Nat × WorkspaceRecord} (positive : 0 < entry.1)
    (valid : Name.checkWorkspace entry.2.name = .ok ()) (caller : set.user = user)
    (fresh : set.grants.get? (entry.2.shown entry.1) = none)
    (counts : Counts minimum (entry.2.countedGrant user world)) :
    addCounted user minimum world set entry = .ok
      { set with
        grants := set.grants.insert (entry.2.shown entry.1)
          (entry.2.countedGrant user world) } := by
  have enough : ¬ ((entry.2.countedGrant user world).effective = .none ∨
      (entry.2.countedGrant user world).effective < minimum) := by
    have least := Permission.le_iff.mp counts.2
    rw [Permission.lt_iff]
    intro given
    rcases given with nothing | less
    · exact counts.1 nothing
    · omega
  have anonymous : ¬ (set.user = none ∧ (entry.2.countedGrant user world).user ≠ .none) := by
    intro given
    rcases given with ⟨nobody, own⟩
    rw [caller] at nobody
    subst nobody
    exact own rfl
  have something : ¬ ((entry.2.countedGrant user world).user = .none ∧
      (entry.2.countedGrant user world).world = .none) := by
    intro given
    rcases given with ⟨own, everyone⟩
    apply counts.1
    simp only [Grant.effective, own, everyone]
    decide
  have added : set.addReadable (entry.2.shown entry.1) (entry.2.countedGrant user world) = .ok
      { set with
        grants := set.grants.insert (entry.2.shown entry.1)
          (entry.2.countedGrant user world) } := by
    simp [PermissionSet.addReadable, PermissionSet.takeReadable, PermissionSet.hasWorkspace,
      Table.contains, fresh, countedGrant_grantable, anonymous, something]
  simp only [addCounted, enough, if_false, WorkspaceRecord.resolved_eq positive valid]
  exact congrArg (Except.mapError StoreError.value) added

theorem addCounted_passed {user : Option User} {minimum : Permission} {world : Bool}
    {entry : Nat × WorkspaceRecord} (short : ¬ Counts minimum (entry.2.countedGrant user world))
    (set : PermissionSet) : addCounted user minimum world set entry = .ok set := by
  have enough : (entry.2.countedGrant user world).effective = .none ∨
      (entry.2.countedGrant user world).effective < minimum := by
    by_cases nothing : (entry.2.countedGrant user world).effective = .none
    · exact .inl nothing
    · have less : ¬ minimum ≤ (entry.2.countedGrant user world).effective :=
        fun least => short ⟨nothing, least⟩
      rw [Permission.le_iff] at less
      exact .inr (Permission.lt_iff.mpr (by omega))
  simp [addCounted, enough]

theorem foldlM_addCounted (user : Option User) (minimum : Permission) (world : Bool)
    (entries : List (Nat × WorkspaceRecord)) (nodup : (entries.map Prod.fst).Nodup)
    (ok : ∀ entry ∈ entries, 0 < entry.1 ∧ Name.checkWorkspace entry.2.name = .ok ())
    (set : PermissionSet) (caller : set.user = user)
    (fresh : ∀ entry ∈ entries, set.grants.get? (entry.2.shown entry.1) = none) :
    ∃ last, entries.foldlM (addCounted user minimum world) set = .ok last ∧
      ∀ workspace grant, last.grants.get? workspace = some grant ↔
        set.grants.get? workspace = some grant ∨
        ∃ entry ∈ entries, workspace = entry.2.shown entry.1 ∧
          grant = entry.2.countedGrant user world ∧ Counts minimum grant := by
  induction entries generalizing set with
  | nil => exact ⟨set, rfl, by simp⟩
  | cons first rest ih =>
    have parts := List.nodup_cons.mp nodup
    have here := ok first List.mem_cons_self
    have others : ∀ entry ∈ rest, 0 < entry.1 ∧ Name.checkWorkspace entry.2.name = .ok () :=
      fun entry mem => ok entry (List.mem_cons_of_mem _ mem)
    have unused := fresh first List.mem_cons_self
    rw [List.foldlM_cons]
    by_cases counts : Counts minimum (first.2.countedGrant user world)
    · rw [addCounted_eq here.1 here.2 caller unused counts]
      obtain ⟨last, ran, exact⟩ := ih parts.2 others
        { set with
          grants := set.grants.insert (first.2.shown first.1)
            (first.2.countedGrant user world) } caller (by
        intro entry mem
        have apart : first.2.shown first.1 ≠ entry.2.shown entry.1 := fun same =>
          parts.1 (List.mem_map.mpr ⟨entry, mem, (congrArg ResolvedWorkspace.id same).symm⟩)
        rw [Table.get?_insert_of_ne _ _ apart]
        exact fresh entry (List.mem_cons_of_mem _ mem))
      refine ⟨last, ran, fun workspace grant => ?_⟩
      rw [exact, Table.get?_insert]
      by_cases same : first.2.shown first.1 = workspace
      · subst same
        simp only [if_true, unused, Option.some.injEq, List.mem_cons, exists_eq_or_imp, true_and,
          reduceCtorEq, false_or]
        constructor
        · intro given
          rcases given with rfl | later
          · exact .inl ⟨rfl, counts⟩
          · exact .inr later
        · intro given
          rcases given with ⟨rfl, _⟩ | later
          · exact .inl rfl
          · exact .inr later
      · have apart : workspace ≠ first.2.shown first.1 := fun equal => same equal.symm
        simp [same, apart]
    · rw [addCounted_passed counts]
      obtain ⟨last, ran, exact⟩ := ih parts.2 others set caller
        fun entry mem => fresh entry (List.mem_cons_of_mem _ mem)
      refine ⟨last, ran, fun workspace grant => ?_⟩
      rw [exact]
      constructor
      · intro given
        rcases given with before | ⟨entry, mem, found⟩
        · exact .inl before
        · exact .inr ⟨entry, List.mem_cons_of_mem _ mem, found⟩
      · intro given
        rcases given with before | ⟨entry, mem, rfl, rfl, enough⟩
        · exact .inl before
        · rcases List.mem_cons.mp mem with rfl | later
          · exact absurd enough counts
          · exact .inr ⟨entry, later, rfl, rfl, enough⟩

def Permits (store : Store) (user : Option User) (minimum : Permission) (world : Bool)
    (set : PermissionSet) : Prop :=
  ∀ workspace grant, set.grants.get? workspace = some grant ↔
    ∃ record, store.workspaces.get? workspace.id = some record ∧ record.deleted = false ∧
      workspace = record.shown workspace.id ∧ grant = record.countedGrant user world ∧
      Counts minimum grant

theorem allPermissions_ok (consistent : store.Consistent) (user : Option User)
    (minimum : Permission) (world : Bool) :
    ∃ set, store.allPermissions user minimum world = .ok set ∧
      store.Permits user minimum world set := by
  have present : ∀ entry, entry ∈ (store.workspaces.entries.filter fun entry => !entry.2.deleted) ↔
      store.workspaces.get? entry.1 = some entry.2 ∧ entry.2.deleted = false := by
    intro entry
    simp [Table.get?_eq_some_iff]
  obtain ⟨set, ran, exact⟩ := foldlM_addCounted user minimum world
    (store.workspaces.entries.filter fun entry => !entry.2.deleted)
    (store.workspaces.keys_nodup.sublist (List.filter_sublist.map Prod.fst))
    (fun entry mem =>
      have found := ((present entry).mp mem).1
      ⟨consistent.numbered.pos found, (consistent.records _ _ found).name_valid⟩)
    { user } rfl (by simp)
  refine ⟨set, ran, fun workspace grant => ?_⟩
  rw [exact]
  constructor
  · intro given
    rcases given with impossible | ⟨entry, mem, rfl, rfl, counts⟩
    · simp at impossible
    · have found := (present entry).mp mem
      exact ⟨entry.2, found.1, found.2, rfl, rfl, counts⟩
  · intro given
    rcases given with ⟨record, found, live, same, rfl, counts⟩
    exact .inr ⟨(workspace.id, record), (present _).mpr ⟨found, live⟩, same, rfl, counts⟩

section HasVersion

variable {object : ObjectRecord} {version : Nat}

theorem hasVersion_iff_latest :
    object.hasVersion version = true ↔ 1 ≤ version ∧ version ≤ object.latestVersion := by
  simp [ObjectRecord.hasVersion]

theorem hasVersion_pos (stored : object.hasVersion version = true) : 0 < version :=
  (hasVersion_iff_latest.mp stored).1

theorem hasVersion_lt (stored : object.hasVersion version = true) :
    version < Text.versionBound :=
  Nat.lt_of_le_of_lt (hasVersion_iff_latest.mp stored).2 (Nat.mod_lt _ (by decide))

theorem hasVersion_le (stored : object.hasVersion version = true) :
    version ≤ object.versions.length :=
  Nat.le_trans (hasVersion_iff_latest.mp stored).2 (Nat.mod_le _ _)

end HasVersion

theorem object?_eq_some {reference : Reference} {object : ObjectRecord} :
    store.object? reference = some object ↔
      ∃ record, store.workspaces.get? reference.workspace = some record ∧
        record.objects.get? reference.object = some object ∧
        object.hasVersion reference.version = true := by
  simp only [object?, Option.bind_eq_bind, Option.bind_eq_some_iff, Option.ite_none_right_eq_some,
    Option.some.injEq]
  constructor
  · intro given
    rcases given with ⟨record, found, _, present, stored, rfl⟩
    exact ⟨record, found, present, stored⟩
  · intro given
    rcases given with ⟨record, found, present, stored⟩
    exact ⟨record, found, object, present, stored, rfl⟩

theorem stored?_eq_some {address : ResolvedAddress} {reference : Reference}
    {object : ObjectRecord} (found : store.stored? address = some (reference, object)) :
    reference.workspace = address.workspace.id ∧ store.object? reference = some object := by
  simp only [stored?, Option.bind_eq_bind, Option.bind_eq_some_iff,
    Option.ite_none_right_eq_some, Option.pure_def, Option.some.injEq, Prod.mk.injEq] at found
  obtain ⟨record, located, id, _, object, present, stored, reference, made, rfl, rfl⟩ := found
  cases parts : Reference.ofParts address.workspace.id id
      (address.version.getD object.latestVersion) with
  | error cause => simp [parts, Except.toOption] at made
  | ok saved =>
    obtain ⟨in_workspace, in_object, numbered⟩ := ofParts_eq_ok parts
    simp only [parts, Except.toOption, Option.some.injEq] at made
    subst made
    refine ⟨in_workspace, object?_eq_some.mpr ⟨record, ?_, ?_, ?_⟩⟩
    · rw [in_workspace, located]
    · rw [in_object, present]
    · rw [numbered, stored]

theorem referenceOf_eq (consistent : store.Consistent) (address : ResolvedAddress) :
    store.referenceOf address = .ok ((store.stored? address).map Prod.fst) := by
  cases found : store.workspaces.get? address.workspace.id with
  | none => simp [referenceOf, stored?, found]
  | some record =>
    cases named : record.objectId? address.object with
    | none => simp [referenceOf, stored?, found, named]
    | some id =>
      cases present : record.objects.get? id with
      | none => simp [referenceOf, stored?, found, named, present]
      | some object =>
        by_cases stored : object.hasVersion (address.version.getD object.latestVersion) = true
        · have made : ∃ reference, Reference.ofParts address.workspace.id id
              (address.version.getD object.latestVersion) = .ok reference := by
            have workspace_pos := consistent.numbered.pos found
            have object_pos := (consistent.records _ _ found).numbered.pos present
            simp [Reference.ofParts, workspace_pos, object_pos, hasVersion_pos stored,
              hasVersion_lt stored]
          obtain ⟨reference, made⟩ := made
          simp [referenceOf, stored?, found, named, present, stored, made, Except.map,
            Except.toOption]
        · simp [referenceOf, stored?, found, named, present, stored]

theorem objectReferences_eq (consistent : store.Consistent) (addresses : List ResolvedAddress) :
    store.objectReferences addresses =
      .ok (Table.collect addresses fun address => (store.stored? address).map Prod.fst) := by
  refine foldlM_eq_ok (fun table address _ => ?_) Table.empty
  cases found : store.stored? address <;> simp [referenceOf_eq consistent, found]

theorem stateOf_eq {reference : Reference} {record : WorkspaceRecord} {object : ObjectRecord}
    (found : store.workspaces.get? reference.workspace = some record)
    (stored : store.object? reference = some object) :
    store.stateOf reference = some
      { name := object.name, deleted := object.deleted, workspaceDeleted := record.deleted } := by
  simp [stateOf, found, stored]

end Store

end ObjectSpace
