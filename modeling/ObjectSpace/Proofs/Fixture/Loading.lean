import ObjectSpace.Proofs.Fixture.Steps

set_option autoImplicit false

namespace ObjectSpace.Fixture

open Store

variable {store next : Store} {front : List WorkspaceFixture} {workspace : WorkspaceFixture}

def grantNext (workspace : Nat) (store : Store) (entry : String × Permission) :
    Except StoreError Store := do
  let user ← (User.ofName entry.1).mapError .value
  Fixture.after (store.setPermission workspace user entry.2)

theorem grantAll_eq (workspace : Nat) (permissions : Table String Permission) (store : Store) :
    grantAll workspace permissions store =
      (permissions.entries.mergeSort fun left right => left.1 ≤ right.1).foldlM
        (grantNext workspace) store := rfl

def saveNext (workspace : Nat) (name : String) (state : Option Reference × Store)
    (references : List Reference) : Except StoreError (Option Reference × Store) := do
  let (saved, store) := state.2.saveObject workspace name references
  return (some (← saved), store)

theorem saveVersions_eq (workspace : Nat) (name : String) (versions : List (List Reference))
    (store : Store) :
    saveVersions workspace name versions store =
      versions.foldlM (saveNext workspace name) (none, store) := rfl

theorem saveNext_ok {id : Nat} {name : String} {state result : Option Reference × Store}
    {references : List Reference} (ran : saveNext id name state references = .ok result) :
    ∃ saved, state.2.saveObject id name references = (.ok saved, result.2) ∧
      result.1 = some saved := by
  unfold saveNext at ran
  rcases outcome : state.2.saveObject id name references with ⟨_ | saved, after⟩
  next => simp [outcome, bind, Except.bind] at ran
  next =>
    rw [outcome] at ran
    cases ran
    exact ⟨saved, rfl, rfl⟩

theorem loadWorkspace_ok (ran : loadWorkspace store workspace = .ok next) :
    ∃ owner resolved created granted filled shared locked,
      User.ofName workspace.owner = .ok owner ∧
      store.createWorkspace owner workspace.name = (.ok resolved, created) ∧
      grantAll resolved.id workspace.permissions created = .ok granted ∧
      workspace.objects.foldlM (loadObject resolved) granted = .ok filled ∧
      Fixture.after (filled.setWorldReadable resolved.id workspace.worldReadable) = .ok shared ∧
      Fixture.after (shared.setLocked resolved.id workspace.locked) = .ok locked ∧
      Fixture.after (locked.setWorkspaceDeleted resolved.id workspace.deleted) = .ok next := by
  obtain ⟨owner, named, ran⟩ := bind_eq_ok.mp ran
  rcases create : store.createWorkspace owner workspace.name with ⟨outcome, created⟩
  rw [create] at ran
  obtain ⟨resolved, rfl, rest⟩ := bind_eq_ok.mp ran
  obtain ⟨granted, grant, ran⟩ := bind_eq_ok.mp rest
  obtain ⟨filled, fill, ran⟩ := bind_eq_ok.mp ran
  obtain ⟨shared, share, ran⟩ := bind_eq_ok.mp ran
  obtain ⟨locked, lock, delete⟩ := bind_eq_ok.mp ran
  exact ⟨owner, resolved, created, granted, filled, shared, locked, mapError_eq_ok.mp named, create,
    grant, fill, share, lock, delete⟩

namespace Loaded

theorem grantNext {entry : String × Permission} (loaded : Loaded store (front ++ [workspace]))
    (ran : Fixture.grantNext (front.length + 1) store entry = .ok next) :
    Loaded next (front ++ [workspace.permit entry]) := by
  obtain ⟨user, named, granted⟩ := bind_eq_ok.mp ran
  have same := ofName_name (mapError_eq_ok.mp named)
  have loaded := loaded.grant granted
  rwa [same] at loaded

theorem grants {entries : List (String × Permission)}
    (loaded : Loaded store (front ++ [workspace]))
    (ran : entries.foldlM (Fixture.grantNext (front.length + 1)) store = .ok next) :
    Loaded next (front ++ [entries.foldl WorkspaceFixture.permit workspace]) := by
  refine foldlM_tracks (P := fun store workspace => Loaded store (front ++ [workspace])) ?_ loaded
    ran
  intro store workspace entry next loaded once
  exact loaded.grantNext once

structure Saved (front : List WorkspaceFixture) (workspace : WorkspaceFixture) (name : String)
    (state : Option Reference × Store) (versions : List (List Reference)) : Prop where
  last : ∃ last, state.1 = some last ∧ last.object = workspace.idOf name
  loaded : Loaded state.2 (front ++ [workspace.add { name, versions }])

theorem saveNext {name : String} {state result : Option Reference × Store}
    {versions : List (List Reference)} {references : List Reference}
    (saved : Saved front workspace name state versions)
    (ran : Fixture.saveNext (front.length + 1) name state references = .ok result) :
    Saved front workspace name result (versions ++ [references]) := by
  obtain ⟨last, once, present⟩ := saveNext_ok ran
  obtain ⟨in_object, loaded⟩ := saved.loaded.save once
  rw [WorkspaceFixture.idOf_add workspace { name, versions }] at in_object
  rw [WorkspaceFixture.add_add (by rfl)] at loaded
  exact ⟨⟨last, present, in_object⟩, loaded⟩

theorem versions {name : String} {first : List Reference} {rest : List (List Reference)}
    {result : Option Reference × Store} (loaded : Loaded store (front ++ [workspace]))
    (ran : saveVersions (front.length + 1) name (first :: rest) store = .ok result) :
    Saved front workspace name result (first :: rest) := by
  rw [saveVersions_eq, List.foldlM_cons, bind_eq_ok] at ran
  obtain ⟨state, once, later⟩ := ran
  obtain ⟨last, once, present⟩ := saveNext_ok once
  obtain ⟨in_object, loaded⟩ := loaded.save once
  have saved := foldlM_tracks (fun _ _ _ _ => saveNext)
    (⟨⟨last, present, in_object⟩, loaded⟩ : Saved front workspace name state [first]) later
  have whole : rest.foldl (fun seen references => seen ++ [references]) [first] = first :: rest :=
    (foldl_append_singleton id [first] rest).trans (congrArg _ (List.map_id rest))
  rwa [whole] at saved

theorem object {resolved : ResolvedWorkspace} (here : resolved.id = front.length + 1)
    {object : ObjectFixture} (loaded : Loaded store (front ++ [workspace]))
    (ran : loadObject resolved store object = .ok next) :
    Loaded next (front ++ [workspace.add object]) := by
  rcases object with ⟨name, deleted, _ | ⟨first, rest⟩⟩
  next => cases ran
  next =>
    change (saveVersions resolved.id name (first :: rest) store >>= _) = _ at ran
    obtain ⟨⟨ends, middle⟩, saved, marked⟩ := bind_eq_ok.mp ran
    rw [here] at saved marked
    obtain ⟨⟨last, rfl, in_object⟩, loaded⟩ := loaded.versions saved
    cases deleted with
    | false =>
      cases marked
      exact loaded
    | true =>
      have known := WorkspaceFixture.idOf_add workspace { name, versions := first :: rest }
      change Fixture.after (middle.setObjectDeleted _ last.object true) = _ at marked
      rw [in_object, ← known] at marked
      have loaded := loaded.mark marked
      rw [WorkspaceFixture.add_add (by rfl), ObjectFixture.join, List.append_nil] at loaded
      exact loaded

theorem objects {resolved : ResolvedWorkspace} (here : resolved.id = front.length + 1)
    {objects : List ObjectFixture} (loaded : Loaded store (front ++ [workspace]))
    (ran : objects.foldlM (loadObject resolved) store = .ok next) :
    Loaded next (front ++ [objects.foldl WorkspaceFixture.add workspace]) := by
  refine foldlM_tracks (P := fun store workspace => Loaded store (front ++ [workspace])) ?_ loaded
    ran
  intro store workspace object next loaded once
  exact loaded.object here once

theorem regrant {permissions : Table String Permission}
    (loaded : Loaded store (front ++ [workspace]))
    (same : ∀ name, permissions.get? name = workspace.permissions.get? name) :
    Loaded store (front ++ [{ workspace with permissions }]) := by
  obtain ⟨record, found, held⟩ := loaded.found
  have again : { workspace with permissions }.HeldBy record := by
    refine { held with granted := fun user => ?_ }
    rw [held.granted, WorkspaceFixture.granted, WorkspaceFixture.granted, same]
  refine loaded.replace loaded.reachable (Table.insert_of_get? found).symm again ?_
  exact fun id object present => loaded.fits.length_lt found present

theorem read {workspace : WorkspaceFixture} (loaded : Loaded store front)
    (ran : loadWorkspace store workspace = .ok next) :
    Loaded next (front ++ [workspace.merged]) := by
  obtain ⟨owner, resolved, created, granted, filled, shared, locked, named, create, grant, fill,
    share, lock, delete⟩ := loadWorkspace_ok ran
  obtain ⟨here, _, opened⟩ := loaded.create create
  rw [here] at grant share lock delete
  rw [grantAll_eq] at grant
  have permitted : ∀ name, workspace.permissions.get? name = (Table.ofList
      (workspace.permissions.entries.mergeSort fun left right => left.1 ≤ right.1)).get? name :=
    fun name => (Table.get?_ofList_perm (List.mergeSort_perm _ _) name).symm
  have granted := opened.grants grant
  rw [WorkspaceFixture.foldl_permit] at granted
  have filled := (granted.regrant permitted).objects here fill
  rw [WorkspaceFixture.foldl_add, ofName_name named] at filled
  exact ((filled.share share).lock lock).delete delete

theorem readAll {workspaces : List WorkspaceFixture} (loaded : Loaded store front)
    (ran : workspaces.foldlM loadWorkspace store = .ok next) :
    Loaded next (front ++ workspaces.map WorkspaceFixture.merged) := by
  rw [← foldl_append_singleton]
  refine foldlM_tracks (P := Loaded) ?_ loaded ran
  intro store front workspace next loaded once
  exact loaded.read once

end Loaded

theorem version_listed {object : ObjectFixture} (few : object.versions.length < Text.versionBound)
    (version : Nat) :
    (if object.record.hasVersion version then object.versions[version - 1]? else none) =
      listed? object.versions version := by
  cases version with
  | zero => rfl
  | succ number =>
    have numbered : object.record.hasVersion (number + 1) = true ↔
        1 ≤ number + 1 ∧ number + 1 ≤ object.versions.length :=
      hasVersion_iff few (number + 1)
    split
    next => rfl
    next unnumbered =>
      have beyond : object.versions.length ≤ number := by
        rw [numbered] at unnumbered
        omega
      exact (List.getElem?_eq_none beyond).symm

namespace Loaded

variable {fixture : Fixture} (loaded : Loaded store fixture.workspaces)

include loaded

theorem references?_eq (reference : Reference) :
    store.references? reference = fixture.references? reference := by
  have related := loaded.held reference.workspace
  rw [Store.references?, Store.object?, Fixture.references?]
  generalize listed? fixture.workspaces reference.workspace = listed at related ⊢
  generalize found : store.workspaces.get? reference.workspace = stored at related ⊢
  cases related with
  | none => rfl
  | @some workspace record held =>
    have present := held.objects reference.object
    cases listed : listed? workspace.objects reference.object with
    | none =>
      rw [listed] at present
      simp [listed, present]
    | some object =>
      rw [listed, Option.map_some] at present
      have few := loaded.fits.length_lt found present
      simp only [listed, present, Option.bind_eq_bind, Option.bind_some, ← version_listed few]
      split
      next => rfl
      next => rfl

theorem describes : fixture.Describes store := by
  have consistent := loaded.reachable.consistent
  have wellFormed := loaded.reachable.wellFormed loaded.fits
  constructor
  case workspaces =>
    intro id
    have related := loaded.held id
    generalize listed? fixture.workspaces id = listed at related ⊢
    generalize found : store.workspaces.get? id = stored at related ⊢
    cases related with
    | none => exact .none
    | some held => exact .some (held.describes (consistent.records _ _ found))
  case names =>
    intro name id
    have related := loaded.held id
    rw [consistent.named]
    generalize listed? fixture.workspaces id = listed at related ⊢
    generalize store.workspaces.get? id = stored at related ⊢
    cases related with
    | none => simp
    | some held => simp [held.name]
  case references => exact loaded.references?_eq
  case referrers =>
    intro source target
    rw [wellFormed.transpose, loaded.references?_eq]

end Loaded

-- Objects are found by name, so two of one name would share an id.
theorem Describes.listsOnce {fixture : Fixture} (describes : fixture.Describes store) :
    ∀ workspace ∈ fixture.workspaces, workspace.ListsOnce := by
  intro workspace mem
  obtain ⟨index, there⟩ := List.getElem?_of_mem mem
  have related := describes.workspaces (index + 1)
  rw [listed?, there] at related
  generalize store.workspaces.get? (index + 1) = stored at related
  cases related with
  | @some _ record described =>
    rw [WorkspaceFixture.ListsOnce, List.Nodup, List.pairwise_map, List.pairwise_iff_getElem]
    intro first second within within' before same
    have found : ∀ place (bound : place < workspace.objects.length),
        record.objectNames.get? workspace.objects[place].name = some (place + 1) := by
      intro place bound
      exact (described.names _ _).mpr ⟨_, List.getElem?_eq_getElem bound, rfl⟩
    have one := found first within
    rw [same, found second within', Option.some.injEq] at one
    omega

theorem toStore_describes {fixture : Fixture} (ran : fixture.toStore = .ok store) :
    fixture.merged.Describes store ∧
      (fixture.Describes store ↔ ∀ workspace ∈ fixture.workspaces, workspace.ListsOnce) := by
  have loaded : Loaded store fixture.merged.workspaces := Loaded.empty.readAll ran
  have describes := loaded.describes
  refine ⟨describes, Describes.listsOnce, fun once => ?_⟩
  rwa [merged_eq once] at describes

namespace Sample

def holder : Reference := { Store.Sample.root with object := 2, object_pos := Nat.two_pos }

def again : Reference := { Store.Sample.renewed with workspace := 1, workspace_pos := Nat.one_pos }

def shared : Fixture where
  workspaces :=
    [{ name := "shared", owner := "alice", permissions := Table.empty.insert "alice" .none
       objects := [{ name := "target", deleted := true, versions := [[]] },
         { name := "holder", versions := [[Store.Sample.root], []] }] },
      { name := "private", owner := "carol", locked := true, worldReadable := true }]

def doubled : Fixture where
  workspaces :=
    [{ name := "top", owner := "alice"
       objects := [{ name := "x", versions := [[]] }, { name := "x", versions := [[]] }] }]

end Sample

theorem sample_toStore_describes :
    ∃ store, Sample.shared.toStore = .ok store ∧ Sample.shared.Describes store ∧
      store.references? Sample.holder = some [Store.Sample.root] := by
  have accepted : Sample.shared.toStore.toOption.isSome = true := by decide +kernel
  obtain ⟨store, loads⟩ := Option.isSome_iff_exists.mp accepted
  have ran := toOption_eq_some_iff.mp loads
  have once : ∀ workspace ∈ Sample.shared.workspaces,
      (workspace.objects.map ObjectFixture.name).Nodup := by decide
  have describes := (toStore_describes ran).2.mpr once
  refine ⟨store, ran, describes, ?_⟩
  rw [describes.references]
  decide

theorem sample_listed_twice :
    ∃ store, Sample.doubled.toStore = .ok store ∧ ¬ Sample.doubled.Describes store ∧
      store.holds Sample.again = true ∧ store.holds Sample.holder = false := by
  have accepted : (Sample.doubled.toStore.toOption.any fun store =>
      store.holds Sample.again && !store.holds Sample.holder) = true := by decide +kernel
  simp only [Option.any_eq_true, Bool.and_eq_true, Bool.not_eq_true'] at accepted
  obtain ⟨store, loads, holds⟩ := accepted
  refine ⟨store, toOption_eq_some_iff.mp loads, ?_, holds⟩
  intro describes
  have once : ∀ workspace ∈ Sample.doubled.workspaces,
      (workspace.objects.map ObjectFixture.name).Nodup := describes.listsOnce
  exact absurd once (by decide)

end ObjectSpace.Fixture
