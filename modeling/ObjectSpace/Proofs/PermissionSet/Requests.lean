import ObjectSpace.Proofs.PermissionSet.Building

set_option autoImplicit false

namespace ObjectSpace

theorem Grant.level_effective (grant : Grant) :
    grant.effective.level = max grant.user.level grant.world.level := by
  simp only [Grant.effective, max, Permission.le_iff]
  split <;> omega

theorem Permission.isReadable_iff {permission : Permission}
    (granted : permission = .none ∨ permission = .read) :
    permission.isReadable = true ↔ permission = .read := by
  rcases granted with rfl | rfl <;> decide

theorem Permission.isWorldGrantable_iff {permission : Permission} :
    permission.isWorldGrantable = true ↔ permission = .none ∨ permission = .read := by
  cases permission <;> decide

structure Grant.Proper (grant : Grant) (user : Option User) : Prop where
  world : grant.world = .none ∨ grant.world = .read
  anonymous : user = none → grant.user = .none

namespace PermissionSet

inductive Request where
  | granted (workspace : ResolvedWorkspace) (user world : Option Permission)
  | unreadable (workspace : ResolvedWorkspace)

def Request.addition : Request → Addition
  | .granted workspace user world =>
      .readable workspace { user := user.getD .none, world := world.getD .none }
  | .unreadable workspace => .unreadable workspace

def Admits (set : PermissionSet) : Addition → Prop
  | .readable workspace grant =>
      workspace ∉ set.workspaces ∧ (grant.world = .none ∨ grant.world = .read) ∧
        (set.user = none → grant.user = .none) ∧ ¬ (grant.user = .none ∧ grant.world = .none)
  | .unreadable workspace => workspace ∉ set.workspaces

-- Each reason counts only where no earlier one does.
inductive Refuses (set : PermissionSet) : Addition → ValueError → Prop where
  | present {addition : Addition} (known : addition.workspace ∈ set.workspaces) :
      Refuses set addition (.permissionsAlreadySet addition.workspace.id)
  | above {workspace : ResolvedWorkspace} {grant : Grant} (fresh : workspace ∉ set.workspaces)
      (higher : ¬ (grant.world = .none ∨ grant.world = .read)) :
      Refuses set (.readable workspace grant) (.illegalWorldPermission grant.world)
  | anonymous {workspace : ResolvedWorkspace} {grant : Grant} (fresh : workspace ∉ set.workspaces)
      (granted : grant.world = .none ∨ grant.world = .read) (nobody : set.user = none)
      (own : grant.user ≠ .none) :
      Refuses set (.readable workspace grant) .anonymousUserPermission
  | nothing {workspace : ResolvedWorkspace} {grant : Grant} (fresh : workspace ∉ set.workspaces)
      (user : grant.user = .none) (world : grant.world = .none) :
      Refuses set (.readable workspace grant) .unreadableWorkspace

variable {set : PermissionSet} {addition : Addition} {cause : ValueError}

theorem Admits.proper (admitted : set.Admits addition) : addition.grant.Proper set.user := by
  cases addition with
  | readable workspace grant => exact ⟨admitted.2.1, admitted.2.2.1⟩
  | unreadable workspace => exact ⟨.inl rfl, fun _ => rfl⟩

theorem Admits.fresh (admitted : set.Admits addition) : addition.workspace ∉ set.workspaces := by
  cases addition with
  | readable workspace grant => exact admitted.1
  | unreadable workspace => exact admitted

theorem add_admitted (admitted : set.Admits addition) :
    set.add addition =
      (.ok (), { set with grants := set.grants.insert addition.workspace addition.grant }) := by
  cases addition with
  | readable workspace grant =>
    obtain ⟨fresh, granted, anonymous, something⟩ := admitted
    have grantable := Permission.isWorldGrantable_iff.mpr granted
    have apart : ¬ (set.user = none ∧ grant.user ≠ .none) := fun both =>
      both.2 (anonymous both.1)
    simp only [add, takeReadable, hasWorkspace_iff, fresh, grantable, apart, something, if_false,
      Bool.not_true, Bool.false_eq_true]
    rfl
  | unreadable workspace =>
    have fresh : workspace ∉ set.workspaces := admitted
    simp only [add, takeUnreadable, hasWorkspace_iff, fresh, if_false]
    rfl

theorem Refuses.add_eq (refuses : set.Refuses addition cause) :
    set.add addition = (.error cause, set) := by
  cases refuses with
  | present known => exact add_present known
  | above fresh higher =>
    have ungrantable := mt Permission.isWorldGrantable_iff.mp higher
    simp [add, takeReadable, hasWorkspace_iff, fresh, ungrantable]
  | anonymous fresh granted nobody own =>
    have grantable := Permission.isWorldGrantable_iff.mpr granted
    simp [add, takeReadable, hasWorkspace_iff, fresh, grantable, nobody, own]
  | nothing fresh user world =>
    have grantable : Permission.none.isWorldGrantable = true := by decide
    simp [add, takeReadable, hasWorkspace_iff, fresh, user, world, grantable]

theorem admits_or_refuses (set : PermissionSet) (addition : Addition) :
    set.Admits addition ∨ ∃ cause, set.Refuses addition cause := by
  by_cases known : addition.workspace ∈ set.workspaces
  · exact .inr ⟨_, .present known⟩
  · cases addition with
    | unreadable workspace => exact .inl known
    | readable workspace grant =>
      by_cases granted : grant.world = .none ∨ grant.world = .read
      · by_cases own : grant.user = .none
        · by_cases world : grant.world = .none
          · exact .inr ⟨_, .nothing known own world⟩
          · exact .inl ⟨known, granted, fun _ => own, fun both => world both.2⟩
        · by_cases nobody : set.user = none
          · exact .inr ⟨_, .anonymous known granted nobody own⟩
          · exact .inl ⟨known, granted, fun absent => absurd absent nobody, fun both => own both.1⟩
      · exact .inr ⟨_, .above known granted⟩

theorem add_error_iff : (set.add addition).1 = .error cause ↔ set.Refuses addition cause := by
  constructor
  · intro refused
    rcases set.admits_or_refuses addition with admitted | ⟨other, refuses⟩
    · rw [add_admitted admitted] at refused
      cases refused
    · rw [refuses.add_eq] at refused
      cases refused
      exact refuses
  · intro refuses
    rw [refuses.add_eq]

theorem add_ok_iff : (set.add addition).1 = .ok () ↔ set.Admits addition := by
  constructor
  · intro accepted
    rcases set.admits_or_refuses addition with admitted | ⟨cause, refuses⟩
    · exact admitted
    · rw [refuses.add_eq] at accepted
      cases accepted
  · intro admitted
    rw [add_admitted admitted]

theorem keep_refused (refused : ¬ set.Admits addition) : set.keep addition = set := by
  rcases set.admits_or_refuses addition with admitted | ⟨cause, refuses⟩
  · exact absurd admitted refused
  · rw [keep, refuses.add_eq]

theorem keep_admitted (admitted : set.Admits addition) :
    set.keep addition =
      { set with grants := set.grants.insert addition.workspace addition.grant } := by
  rw [keep, add_admitted admitted]

theorem keep_caller (set : PermissionSet) (addition : Addition) :
    (set.keep addition).user = set.user ∧ (set.keep addition).everyone = set.everyone := by
  by_cases admitted : set.Admits addition
  · rw [keep_admitted admitted]
    exact ⟨rfl, rfl⟩
  · rw [keep_refused admitted]
    exact ⟨rfl, rfl⟩

theorem foldl_keep_caller (set : PermissionSet) (additions : List Addition) :
    (additions.foldl keep set).user = set.user ∧
      (additions.foldl keep set).everyone = set.everyone := by
  induction additions generalizing set with
  | nil => exact ⟨rfl, rfl⟩
  | cons first rest ih =>
    have kept := set.keep_caller first
    exact ⟨(ih _).1.trans kept.1, (ih _).2.trans kept.2⟩

theorem proper_of_taken {additions : List Addition} (mem : addition ∈ set.taken additions) :
    addition.grant.Proper set.user := by
  induction additions generalizing set with
  | nil => cases mem
  | cons first rest ih =>
    rw [taken] at mem
    rcases set.admits_or_refuses first with admitted | ⟨cause, refuses⟩
    · rw [add_admitted admitted] at mem
      rcases List.mem_cons.mp mem with rfl | later
      · exact admitted.proper
      · have kept := ih later
        exact kept
    · rw [refuses.add_eq] at mem
      exact ih mem

structure Records (set : PermissionSet) (user : Option User) (everyone : Everyone)
    (taken : List Addition) : Prop where
  caller : set.user = user ∧ set.everyone = everyone
  entries : set.grants.entries =
    taken.map fun addition => (addition.workspace, addition.grant)
  once : (taken.map Addition.workspace).Nodup
  proper : ∀ workspace, (set.grant workspace).Proper user
  known : ∀ addition ∈ taken,
    set.hasWorkspace addition.workspace = true ∧
      set.userPermission addition.workspace = addition.grant.user ∧
      (set.permission addition.workspace).level =
        max addition.grant.user.level addition.grant.world.level ∧
      (set.isWorldReadable addition.workspace = true ↔ addition.grant.world = .read)
  unknown : ∀ workspace, workspace ∉ taken.map Addition.workspace →
    set.hasWorkspace workspace = false ∧ set.userPermission workspace = .none ∧
      set.permission workspace = .none ∧ set.isWorldReadable workspace = false
  compared : ∀ workspace wanted,
    (set.hasPermission workspace wanted = true ↔ wanted ≤ set.permission workspace) ∧
      (set.hasUserPermission workspace wanted = true ↔ wanted ≤ set.userPermission workspace)

structure Weighs (set : PermissionSet) (addition : Addition) : Prop where
  accepted : (set.add addition).1 = .ok () ↔ set.Admits addition
  refused : ∀ cause, (set.add addition).1 = .error cause ↔ set.Refuses addition cause
  present : addition.workspace ∈ set.workspaces →
    (set.add addition).1 = .error (.permissionsAlreadySet addition.workspace.id)
  unchanged : ¬ set.Admits addition → set.keep addition = set
  grown : set.Admits addition →
    (set.keep addition).grants.entries =
      set.grants.entries ++ [(addition.workspace, addition.grant)]

theorem weighs (set : PermissionSet) (addition : Addition) : set.Weighs addition := by
  constructor
  case accepted => exact add_ok_iff
  case refused => exact fun _ => add_error_iff
  case present => exact fun present => congrArg Prod.fst (add_present present)
  case unchanged => exact keep_refused
  case grown =>
    intro admitted
    rw [keep_admitted admitted]
    exact Table.put_fresh addition.grant admitted.fresh

theorem grant_of_mem {workspace : ResolvedWorkspace} {grant : Grant}
    (mem : (workspace, grant) ∈ set.grants.entries) :
    set.hasWorkspace workspace = true ∧ set.grant workspace = grant := by
  have found := Table.get?_eq_some_iff.mpr mem
  simp [hasWorkspace, Table.contains, PermissionSet.grant, found]

theorem grant_of_not_mem {workspace : ResolvedWorkspace} (absent : workspace ∉ set.workspaces) :
    set.hasWorkspace workspace = false ∧ set.grant workspace = {} := by
  have missing : set.grants.get? workspace = none := by
    rwa [workspaces, Table.mem_keys_iff, Option.not_isSome_iff_eq_none] at absent
  simp [hasWorkspace, Table.contains, PermissionSet.grant, missing]

theorem records_built (user : Option User) (everyone : Everyone) (additions : List Addition) :
    (built user everyone additions).Records user everyone
      (taken { user, everyone } additions) := by
  have entries : (built user everyone additions).grants.entries =
      (taken { user, everyone } additions).map fun addition =>
        (addition.workspace, addition.grant) := by
    simpa [built] using entries_foldl_keep { user, everyone } additions
  have listed := workspaces_built user everyone additions
  have given : ∀ addition ∈ taken { user, everyone } additions,
      (built user everyone additions).hasWorkspace addition.workspace = true ∧
        (built user everyone additions).grant addition.workspace = addition.grant := by
    intro addition mem
    apply grant_of_mem
    rw [entries]
    exact List.mem_map_of_mem mem
  have nothing : ∀ workspace,
      workspace ∉ (taken { user, everyone } additions).map Addition.workspace →
        (built user everyone additions).hasWorkspace workspace = false ∧
          (built user everyone additions).grant workspace = {} := by
    intro workspace absent
    exact grant_of_not_mem (listed ▸ absent)
  constructor
  case caller => exact foldl_keep_caller { user, everyone } additions
  case entries => exact entries
  case once =>
    rw [← listed]
    exact (built user everyone additions).grants.keys_nodup
  case proper =>
    intro workspace
    by_cases present : workspace ∈ (taken { user, everyone } additions).map Addition.workspace
    · obtain ⟨addition, mem, rfl⟩ := List.mem_map.mp present
      rw [(given addition mem).2]
      exact proper_of_taken mem
    · rw [(nothing workspace present).2]
      exact ⟨.inl rfl, fun _ => rfl⟩
  case known =>
    intro addition mem
    obtain ⟨has, same⟩ := given addition mem
    refine ⟨has, ?_, ?_, ?_⟩
    · rw [userPermission, same]
    · rw [permission, same, Grant.level_effective]
    · rw [isWorldReadable, same]
      exact Permission.isReadable_iff (proper_of_taken mem).world
  case unknown =>
    intro workspace absent
    obtain ⟨has, same⟩ := nothing workspace absent
    refine ⟨has, ?_⟩
    simp only [userPermission, permission, isWorldReadable, same]
    decide
  case compared =>
    intro workspace wanted
    simp [hasPermission, hasUserPermission]

theorem requests_recorded (user : Option User) (everyone : Everyone) (requests : List Request) :
    (∀ request : Request,
        (built user everyone (requests.map Request.addition)).Weighs request.addition) ∧
      (built user everyone (requests.map Request.addition)).Records user everyone
        (taken { user, everyone } (requests.map Request.addition)) :=
  ⟨fun request => weighs _ request.addition, records_built user everyone _⟩

namespace Sample

def shared : ResolvedWorkspace := ⟨1, "shared", false, false⟩

def asked : List Request :=
  [.granted shared (some .write) (some .read), .granted shared none (some .read),
    .unreadable shared, .granted ⟨2, "hidden", false, false⟩ none none]

end Sample

example : taken { user := none } (Sample.asked.map Request.addition) =
    [.readable Sample.shared { world := .read }] :=
  rfl

end PermissionSet

end ObjectSpace
