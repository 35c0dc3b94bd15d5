import ObjectSpace.PermissionSet
import ObjectSpace.Proofs.Tables

set_option autoImplicit false

namespace ObjectSpace.PermissionSet

inductive Addition where
  | readable (workspace : ResolvedWorkspace) (grant : Grant)
  | unreadable (workspace : ResolvedWorkspace)

namespace Addition

def workspace : Addition → ResolvedWorkspace
  | .readable workspace _ => workspace
  | .unreadable workspace => workspace

def grant : Addition → Grant
  | .readable _ grant => grant
  | .unreadable _ => {}

end Addition

def add (set : PermissionSet) : Addition → Except ValueError Unit × PermissionSet
  | .readable workspace grant => set.takeReadable workspace grant
  | .unreadable workspace => set.takeUnreadable workspace

def keep (set : PermissionSet) (addition : Addition) : PermissionSet := (set.add addition).2

def built (user : Option User) (everyone : Everyone) (additions : List Addition) : PermissionSet :=
  additions.foldl keep { user, everyone }

def taken (set : PermissionSet) : List Addition → List Addition
  | [] => []
  | addition :: rest =>
    match set.add addition with
    | (.ok (), next) => addition :: next.taken rest
    | (.error _, next) => next.taken rest

variable {set : PermissionSet} {addition : Addition}

theorem hasWorkspace_iff {workspace : ResolvedWorkspace} :
    set.hasWorkspace workspace = true ↔ workspace ∈ set.workspaces :=
  Table.mem_keys_iff.symm

theorem add_present (present : addition.workspace ∈ set.workspaces) :
    set.add addition = (.error (.permissionsAlreadySet addition.workspace.id), set) := by
  have has := hasWorkspace_iff.mpr present
  cases addition with
  | readable workspace grant => exact if_pos has
  | unreadable workspace => exact if_pos has

theorem add_cases (set : PermissionSet) (addition : Addition) :
    (∃ cause, set.add addition = (.error cause, set)) ∨
      addition.workspace ∉ set.workspaces ∧
        set.add addition =
          (.ok (),
            { set with grants := set.grants.insert addition.workspace addition.grant }) := by
  by_cases present : addition.workspace ∈ set.workspaces
  · exact .inl ⟨_, add_present present⟩
  · cases addition with
    | unreadable workspace =>
      exact .inr ⟨present, if_neg (mt hasWorkspace_iff.mp present)⟩
    | readable workspace grant =>
      simp only [add, takeReadable]
      split
      next => exact .inl ⟨_, rfl⟩
      next =>
        split
        next => exact .inl ⟨_, rfl⟩
        next =>
          split
          next => exact .inl ⟨_, rfl⟩
          next =>
            split
            next => exact .inl ⟨_, rfl⟩
            next => exact .inr ⟨present, rfl⟩

theorem entries_foldl_keep (set : PermissionSet) (additions : List Addition) :
    (additions.foldl keep set).grants.entries = set.grants.entries ++
      (set.taken additions).map fun addition => (addition.workspace, addition.grant) := by
  induction additions generalizing set with
  | nil => simp [taken]
  | cons addition rest ih =>
    rw [List.foldl_cons, ih, keep, taken]
    rcases set.add_cases addition with ⟨cause, refused⟩ | ⟨fresh, added⟩
    · rw [refused]
    · have entries : (set.grants.insert addition.workspace addition.grant).entries =
          set.grants.entries ++ [(addition.workspace, addition.grant)] :=
        Table.put_fresh addition.grant fresh
      simp [added, entries]

variable (user : Option User) (everyone : Everyone) (additions : List Addition)

theorem workspaces_built :
    (built user everyone additions).workspaces =
      (taken { user, everyone } additions).map Addition.workspace := by
  have entries := entries_foldl_keep { user, everyone } additions
  simp [workspaces, Table.keys, built, entries]

theorem taken_sublist (set : PermissionSet) : (set.taken additions).Sublist additions := by
  induction additions generalizing set with
  | nil => exact .slnil
  | cons addition rest ih =>
    rw [taken]
    split
    next next _ => exact (ih next).cons_cons addition
    next next _ => exact (ih next).cons addition

end ObjectSpace.PermissionSet
