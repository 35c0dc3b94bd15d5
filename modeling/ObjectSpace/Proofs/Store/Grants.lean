import ObjectSpace.Proofs.Store.Answers

set_option autoImplicit false

namespace ObjectSpace

theorem Permission.read_le_iff {permission : Permission} :
    .read ≤ permission ↔ permission ≠ .none := by
  cases permission <;> decide

@[simp] theorem Grant.effective_private (user : Permission) : Grant.effective { user } = user := by
  cases user <;> decide

def PermissionSet.counted (set : PermissionSet) (world : Bool) (workspace : ResolvedWorkspace) :
    Permission :=
  if world then set.permission workspace else set.userPermission workspace

namespace WorkspaceRecord

variable {record : WorkspaceRecord} {user : Option User}

theorem countedGrant_world : record.countedGrant user true = record.grant user := rfl

theorem countedGrant_private :
    record.countedGrant user false = { user := record.userPermission user } := rfl

end WorkspaceRecord

namespace Store

variable {store : Store} {workspace : ResolvedWorkspace} {asked : List ResolvedWorkspace}

structure ListsLive (store : Store) (asked : List ResolvedWorkspace) : Prop where
  distinct : asked.Nodup
  exact : ∀ workspace, workspace ∈ asked ↔
    store.resolvedWorkspace workspace.id = .ok workspace ∧ workspace.deleted = false

def liveWorkspaces (store : Store) : List ResolvedWorkspace :=
  (store.workspaces.entries.filter fun entry => !entry.2.deleted).map fun entry =>
    entry.2.shown entry.1

theorem resolvedWorkspace_ok (consistent : store.Consistent) :
    store.resolvedWorkspace workspace.id = .ok workspace ↔
      ∃ record, store.workspaces.get? workspace.id = some record ∧
        workspace = record.shown workspace.id := by
  cases found : store.workspaces.get? workspace.id with
  | none => simp [resolvedWorkspace, found]
  | some record =>
    have valid := (consistent.records _ _ found).name_valid
    have resolved := WorkspaceRecord.resolved_eq (consistent.numbered.pos found) valid
    have answered : store.resolvedWorkspace workspace.id = .ok (record.shown workspace.id) := by
      rw [resolvedWorkspace, found]
      exact mapError_eq_ok.mpr resolved
    simp [answered, eq_comm]

theorem listsLive_iff (consistent : store.Consistent) (lists : store.ListsLive asked) :
    workspace ∈ asked ↔ ∃ record, store.workspaces.get? workspace.id = some record ∧
      record.deleted = false ∧ workspace = record.shown workspace.id := by
  rw [lists.exact, resolvedWorkspace_ok consistent]
  constructor
  next =>
    intro given
    rcases given with ⟨⟨record, found, shown⟩, live⟩
    refine ⟨record, found, ?_, shown⟩
    rw [shown] at live
    exact live
  next =>
    intro given
    rcases given with ⟨record, found, live, shown⟩
    refine ⟨⟨record, found, shown⟩, ?_⟩
    rw [shown]
    exact live

theorem listsLive (consistent : store.Consistent) : store.ListsLive store.liveWorkspaces := by
  constructor
  next =>
    have distinct := store.workspaces.keys_nodup.sublist
      ((List.filter_sublist (p := fun entry => !entry.2.deleted)).map Prod.fst)
    rw [liveWorkspaces, List.Nodup, List.pairwise_map]
    apply (List.pairwise_map.mp distinct).imp
    intro first second apart same
    exact apart (congrArg ResolvedWorkspace.id same)
  next =>
    intro workspace
    rw [resolvedWorkspace_ok consistent]
    simp only [liveWorkspaces, List.mem_map, List.mem_filter, Bool.not_eq_true']
    constructor
    next =>
      intro given
      rcases given with ⟨entry, ⟨mem, live⟩, rfl⟩
      exact ⟨⟨entry.2, Table.get?_eq_some_iff.mpr mem, rfl⟩, live⟩
    next =>
      intro given
      rcases given with ⟨⟨record, found, shown⟩, live⟩
      refine ⟨(workspace.id, record), ⟨Table.get?_eq_some_iff.mp found, ?_⟩, shown.symm⟩
      rw [shown] at live
      exact live

theorem counts_iff {minimum : Permission} {grant : Grant} :
    Counts minimum grant ↔ minimum ≤ grant.effective ∧ .read ≤ grant.effective := by
  rw [Counts, Permission.read_le_iff, and_comm]

structure GrantsAgree (asked : List ResolvedWorkspace) (minimum : Permission) (world : Bool)
    (told set : PermissionSet) : Prop where
  workspaces : ∀ workspace, set.hasWorkspace workspace = true ↔ workspace ∈ asked ∧
    minimum ≤ told.counted world workspace ∧ .read ≤ told.counted world workspace
  user : ∀ workspace, set.hasWorkspace workspace = true →
    set.userPermission workspace = told.userPermission workspace
  effective : world = true → ∀ workspace, set.hasWorkspace workspace = true →
    set.permission workspace = told.permission workspace
  shared : world = true → ∀ workspace, set.hasWorkspace workspace = true →
    set.isWorldReadable workspace = told.isWorldReadable workspace
  unshared : world = false → ∀ workspace, set.isWorldReadable workspace = false

variable {user : Option User} {minimum : Permission} {world : Bool} {told set : PermissionSet}
variable {record : WorkspaceRecord}

def grantsOn (store : Store) (user : Option User) (asked : List ResolvedWorkspace) :
    PermissionSet where
  user := user
  grants := Table.tabulate asked fun workspace => store.grantOn user workspace.id

theorem grant_grantsOn (present : workspace ∈ asked)
    (found : store.workspaces.get? workspace.id = some record) :
    (store.grantsOn user asked).grant workspace = record.grant user := by
  simp [grantsOn, PermissionSet.grant, Table.get?_tabulate, present, grantOn, found]

theorem counted_eq (same : told.grant workspace = record.grant user) :
    told.counted world workspace = (record.countedGrant user world).effective := by
  cases world with
  | true =>
    rw [WorkspaceRecord.countedGrant_world, ← same]
    rfl
  | false =>
    rw [WorkspaceRecord.countedGrant_private, Grant.effective_private]
    exact congrArg Grant.user same

theorem Permits.hasWorkspace_iff (permits : store.Permits user minimum world set)
    (workspace : ResolvedWorkspace) :
    set.hasWorkspace workspace = true ↔
      ∃ record, store.workspaces.get? workspace.id = some record ∧ record.deleted = false ∧
        workspace = record.shown workspace.id ∧
        Counts minimum (record.countedGrant user world) := by
  rw [PermissionSet.hasWorkspace, Table.contains, Option.isSome_iff_exists]
  constructor
  next =>
    intro given
    rcases given with ⟨grant, found⟩
    rcases (permits _ _).mp found with ⟨record, present, live, shown, rfl, counts⟩
    exact ⟨record, present, live, shown, counts⟩
  next =>
    intro given
    rcases given with ⟨record, present, live, shown, counts⟩
    exact ⟨_, (permits _ _).mpr ⟨record, present, live, shown, rfl, counts⟩⟩

theorem Permits.grant_eq (permits : store.Permits user minimum world set)
    (has : set.hasWorkspace workspace = true)
    (found : store.workspaces.get? workspace.id = some record) :
    set.grant workspace = record.countedGrant user world := by
  rw [PermissionSet.hasWorkspace, Table.contains, Option.isSome_iff_exists] at has
  rcases has with ⟨grant, listed⟩
  rcases (permits _ _).mp listed with ⟨other, present, _, _, rfl, _⟩
  cases found.symm.trans present
  rw [PermissionSet.grant, listed, Option.getD_some]

theorem grantsAgree (consistent : store.Consistent) (lists : store.ListsLive asked)
    (permits : store.Permits user minimum world set) :
    GrantsAgree asked minimum world (store.grantsOn user asked) set := by
  -- Where the set has a workspace, both answers go by one record.
  have both : ∀ workspace, set.hasWorkspace workspace = true →
      ∃ record : WorkspaceRecord, set.grant workspace = record.countedGrant user world ∧
        (store.grantsOn user asked).grant workspace = record.grant user := by
    intro workspace has
    rcases (permits.hasWorkspace_iff workspace).mp has with ⟨record, found, live, shown, _⟩
    have present : workspace ∈ asked :=
      (listsLive_iff consistent lists).mpr ⟨record, found, live, shown⟩
    exact ⟨record, permits.grant_eq has found, grant_grantsOn present found⟩
  have whole : world = true → ∀ workspace, set.hasWorkspace workspace = true →
      set.grant workspace = (store.grantsOn user asked).grant workspace := by
    intro shared workspace has
    rcases both workspace has with ⟨record, mine, theirs⟩
    subst shared
    rw [mine, theirs, WorkspaceRecord.countedGrant_world]
  constructor
  case workspaces =>
    intro workspace
    rw [permits.hasWorkspace_iff workspace]
    constructor
    next =>
      intro given
      rcases given with ⟨record, found, live, shown, counts⟩
      have present : workspace ∈ asked :=
        (listsLive_iff consistent lists).mpr ⟨record, found, live, shown⟩
      rw [counted_eq (grant_grantsOn present found)]
      exact ⟨present, counts_iff.mp counts⟩
    next =>
      intro given
      rcases given with ⟨present, enough⟩
      rcases (listsLive_iff consistent lists).mp present with ⟨record, found, live, shown⟩
      rw [counted_eq (grant_grantsOn present found)] at enough
      exact ⟨record, found, live, shown, counts_iff.mpr enough⟩
  case user =>
    intro workspace has
    rcases both workspace has with ⟨record, mine, theirs⟩
    rw [PermissionSet.userPermission, PermissionSet.userPermission, mine, theirs]
    rfl
  case effective =>
    intro shared workspace has
    rw [PermissionSet.permission, PermissionSet.permission, whole shared workspace has]
  case shared =>
    intro shared workspace has
    rw [PermissionSet.isWorldReadable, PermissionSet.isWorldReadable, whole shared workspace has]
  case unshared =>
    intro alone workspace
    subst alone
    cases has : set.hasWorkspace workspace with
    | true =>
      rcases both workspace has with ⟨record, mine, _⟩
      rw [PermissionSet.isWorldReadable, mine]
      rfl
    | false =>
      have absent : set.grants.get? workspace = none := by
        simpa [PermissionSet.hasWorkspace, Table.contains] using has
      rw [PermissionSet.isWorldReadable, PermissionSet.grant, absent]
      rfl

theorem permission_questions_agree (reachable : store.Reachable) (user : Option User)
    (minimum : Permission) (world : Bool) :
    (∃ asked, store.ListsLive asked) ∧ ∀ asked, store.ListsLive asked →
      ∃ told set, store.permissions user asked = .ok told ∧
        store.allPermissions user minimum world = .ok set ∧
        GrantsAgree asked minimum world told set := by
  have consistent := reachable.consistent
  refine ⟨⟨_, listsLive consistent⟩, ?_⟩
  intro asked lists
  rcases allPermissions_ok consistent user minimum world with ⟨set, ran, permits⟩
  exact ⟨_, set, permissions_eq store user lists.distinct, ran,
    grantsAgree consistent lists permits⟩

namespace Sample

def opened : Store := sample.update (.setWorldReadable 2 true)

def top : ResolvedWorkspace := ⟨1, "top", false, false⟩

def hidden : ResolvedWorkspace := ⟨2, "hidden", true, false⟩

end Sample

theorem sample_permission_questions_agree :
    ∃ asked told shared own, Sample.opened.Reachable ∧ Sample.opened.ListsLive asked ∧
      Sample.opened.permissions (some ⟨"alice"⟩) asked = .ok told ∧
      Sample.opened.allPermissions (some ⟨"alice"⟩) .none true = .ok shared ∧
      shared.hasWorkspace Sample.hidden = true ∧ shared.permission Sample.hidden = .read ∧
      Sample.opened.allPermissions (some ⟨"alice"⟩) .none false = .ok own ∧
      own.hasWorkspace Sample.top = true ∧ own.hasWorkspace Sample.hidden = false := by
  have reachable : Sample.opened.Reachable := reachable_sample.update _
  have lists := listsLive reachable.consistent
  rcases (permission_questions_agree reachable (some ⟨"alice"⟩) .none true).2 _ lists with
    ⟨told, shared, asked, given, agree⟩
  rcases (permission_questions_agree reachable (some ⟨"alice"⟩) .none false).2 _ lists with
    ⟨told', own, asked', given', agree'⟩
  cases asked.symm.trans asked'
  have listed : Sample.opened.permissions (some ⟨"alice"⟩) Sample.opened.liveWorkspaces =
      .ok _ := rfl
  cases asked.symm.trans listed
  have has : shared.hasWorkspace Sample.hidden = true :=
    (agree.workspaces Sample.hidden).mpr (by decide)
  refine ⟨_, _, shared, own, reachable, lists, asked, given, has, ?_, given', ?_, ?_⟩
  next => exact (agree.effective rfl Sample.hidden has).trans (by decide)
  next => exact (agree'.workspaces Sample.top).mpr (by decide)
  next =>
    rw [Bool.eq_false_iff]
    intro listed
    exact absurd ((agree'.workspaces Sample.hidden).mp listed) (by decide)

end Store

end ObjectSpace
