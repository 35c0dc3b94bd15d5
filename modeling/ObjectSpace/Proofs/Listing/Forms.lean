import Mathlib.Data.List.Nodup
import ObjectSpace.Proofs.Listing.Page
import ObjectSpace.Proofs.PermissionSet.Building

set_option autoImplicit false

namespace ObjectSpace

def OneForm (workspaces : List ResolvedWorkspace) : Prop :=
  ∀ first ∈ workspaces, ∀ second ∈ workspaces, first.id = second.id → first = second

instance (workspaces : List ResolvedWorkspace) : Decidable (OneForm workspaces) :=
  inferInstanceAs (Decidable (∀ _ ∈ _, ∀ _ ∈ _, _ → _))

theorem OneForm.sublist {fewer workspaces : List ResolvedWorkspace} (single : OneForm workspaces)
    (sublist : fewer.Sublist workspaces) : OneForm fewer :=
  fun first mem second mem' same =>
    single first (sublist.subset mem) second (sublist.subset mem') same

theorem nodup_ids_iff {workspaces : List ResolvedWorkspace} (distinct : workspaces.Nodup) :
    (workspaces.map ResolvedWorkspace.id).Nodup ↔ OneForm workspaces :=
  List.nodup_map_iff_inj_on distinct

def PermissionSet.readableForms (set : PermissionSet) (id : Nat) : List ResolvedWorkspace :=
  set.workspaces.filter fun workspace => workspace.id = id ∧ set.hasPermission workspace .read

namespace Listing

variable {listing : Listing} {store : Store} {reference : Reference} {rows : List ListedObject}

theorem count_workspaceRows {workspace : ResolvedWorkspace}
    (shown : listing.Shows store reference)
    (ran : listing.workspaceRows store workspace = .ok rows) :
    (rows.map ListedObject.reference).count reference =
      if workspace.id = reference.workspace ∧
        listing.permissions.hasPermission workspace .read then 1 else 0 := by
  obtain ⟨_, _, _, _, stored⟩ := shown
  have distinct : (rows.map ListedObject.reference).Nodup :=
    List.pairwise_map.mpr (workspaceRows_distinct ran)
  have listed : reference ∈ rows.map ListedObject.reference ↔
      workspace.id = reference.workspace ∧
        listing.permissions.hasPermission workspace .read = true := by
    rw [List.mem_map, mem_workspaceRows ran]
    constructor
    next => exact fun given => ⟨given.2.1, given.1⟩
    next => exact fun given => ⟨given.2, given.1, stored⟩
  split
  next given => exact List.count_eq_one_of_mem distinct (listed.mpr given)
  next given => exact List.count_eq_zero.mpr fun mem => given (listed.mp mem)

theorem count_mapM {workspaces : List ResolvedWorkspace} {parts : List (List ListedObject)}
    (shown : listing.Shows store reference)
    (ran : workspaces.mapM (listing.workspaceRows store) = .ok parts) :
    (parts.flatten.map ListedObject.reference).count reference =
      (workspaces.filter fun workspace => workspace.id = reference.workspace ∧
        listing.permissions.hasPermission workspace .read).length := by
  induction workspaces generalizing parts with
  | nil =>
    cases ran
    rfl
  | cons workspace rest ih =>
    obtain ⟨part, others, here, later, rfl⟩ := mapM_cons_ok.mp ran
    rw [List.flatten_cons, List.map_append, List.count_append, ih later,
      count_workspaceRows shown here, List.filter_cons]
    by_cases counts : workspace.id = reference.workspace ∧
        listing.permissions.hasPermission workspace .read = true
    next => simp [counts, Nat.add_comm]
    next => simp [counts]

theorem count_rows (ran : listing.rows store = .ok rows)
    (listed : reference ∈ rows.map ListedObject.reference) :
    (rows.map ListedObject.reference).count reference =
      (listing.permissions.readableForms reference.workspace).length := by
  have shown := (mem_rows ran).mp (List.mem_map.mp listed)
  obtain ⟨parts, collected, rfl⟩ := rows_ok ran
  rw [((List.mergeSort_perm _ _).map ListedObject.reference).count_eq, count_mapM shown collected]
  rfl

theorem count_page (ran : listing.page store = .ok rows) (reference : Reference) :
    (rows.map ListedObject.reference).count reference ≤
      (listing.permissions.readableForms reference.workspace).length := by
  obtain ⟨all, whole, rfl⟩ := page_ok ran
  have sublist := ((List.take_sublist listing.limit
    (all.filter fun row => listing.startAfter.admits row.reference)).trans
      List.filter_sublist).map ListedObject.reference
  by_cases listed : reference ∈ all.map ListedObject.reference
  next => exact Nat.le_trans (sublist.count_le reference) (Nat.le_of_eq (count_rows whole listed))
  next =>
    rw [List.count_eq_zero.mpr fun mem => listed (sublist.subset mem)]
    exact Nat.zero_le _

theorem page_nodup
    (distinct : (listing.permissions.workspaces.map ResolvedWorkspace.id).Nodup)
    (ran : listing.page store = .ok rows) : (rows.map ListedObject.reference).Nodup :=
  List.pairwise_map.mpr ((page_strict distinct ran).imp fun less => less.2)

end Listing

namespace PermissionSet

structure EntersForms (set : PermissionSet) (forms : List ResolvedWorkspace) : Prop where
  entries : set.workspaces = forms
  distinct : forms.Nodup
  refused : ∀ addition : Addition, addition.workspace ∈ forms →
    (set.add addition).1 = .error (.permissionsAlreadySet addition.workspace.id)
  single : (set.workspaces.map ResolvedWorkspace.id).Nodup ↔ OneForm forms
  refused_again : ∀ addition : Addition, OneForm (addition.workspace :: forms) →
    addition.workspace.id ∈ forms.map ResolvedWorkspace.id →
      (set.add addition).1 = .error (.permissionsAlreadySet addition.workspace.id)
  listed : ∀ (listing : Listing) (store : Store) (rows : List ListedObject),
    listing.permissions = set → listing.rows store = .ok rows →
      ∀ reference ∈ rows.map ListedObject.reference,
        (rows.map ListedObject.reference).count reference =
          (set.readableForms reference.workspace).length
  paged : ∀ (listing : Listing) (store : Store) (rows : List ListedObject),
    listing.permissions = set → listing.page store = .ok rows → ∀ reference,
      (rows.map ListedObject.reference).count reference ≤
        (set.readableForms reference.workspace).length
  paged_once : OneForm forms → ∀ (listing : Listing) (store : Store) (rows : List ListedObject),
    listing.permissions = set → listing.page store = .ok rows →
      (rows.map ListedObject.reference).Nodup

theorem entersForms (set : PermissionSet) : set.EntersForms set.workspaces := by
  have distinct : set.workspaces.Nodup := set.grants.keys_nodup
  constructor
  case entries => rfl
  case distinct => exact distinct
  case refused => exact fun addition present => congrArg Prod.fst (add_present present)
  case single => exact nodup_ids_iff distinct
  case refused_again =>
    intro addition single known
    obtain ⟨workspace, present, same⟩ := List.mem_map.mp known
    obtain rfl := single workspace (List.mem_cons_of_mem _ present) addition.workspace
      List.mem_cons_self same
    exact congrArg Prod.fst (add_present present)
  case listed =>
    intro listing store rows permissions ran reference mem
    subst permissions
    exact Listing.count_rows ran mem
  case paged =>
    intro listing store rows permissions ran reference
    subst permissions
    exact Listing.count_page ran reference
  case paged_once =>
    intro single listing store rows permissions ran
    subst permissions
    exact Listing.page_nodup ((nodup_ids_iff distinct).mpr single) ran

-- One entry per form: a workspace taken in two forms is listed twice.
theorem one_entry_per_form (user : Option User) (everyone : Everyone) (additions : List Addition) :
    (built user everyone additions).EntersForms
        ((taken { user, everyone } additions).map Addition.workspace) ∧
      (OneForm (additions.map Addition.workspace) →
        ((built user everyone additions).workspaces.map ResolvedWorkspace.id).Nodup ∧
          ∀ (listing : Listing) (store : Store) (rows : List ListedObject),
            listing.permissions = built user everyone additions →
              listing.page store = .ok rows → (rows.map ListedObject.reference).Nodup) := by
  have enters := (built user everyone additions).entersForms
  rw [workspaces_built] at enters
  refine ⟨enters, ?_⟩
  intro single
  have fewer := single.sublist ((taken_sublist additions { user, everyone }).map Addition.workspace)
  exact ⟨enters.single.mpr fewer, enters.paged_once fewer⟩

namespace Sample

def unlocked : ResolvedWorkspace := ⟨1, "top", false, false⟩

def locked : ResolvedWorkspace := ⟨1, "top", true, false⟩

def repeated : List Addition :=
  [.readable unlocked { user := .owner }, .readable unlocked { world := .read },
    .unreadable ⟨2, "hidden", true, false⟩]

def renewed : List Addition :=
  [.readable unlocked { user := .owner }, .readable locked { user := .owner }]

def versions (additions : List Addition) : Listing where
  permissions := built (some ⟨"alice"⟩) {} additions
  showAllVersions := true

def row : ListedObject := ⟨Store.Sample.root, "root", "top", false⟩

end Sample

theorem sample_one_entry_per_form :
    ∃ rows, OneForm (Sample.repeated.map Addition.workspace) ∧
      (Sample.versions Sample.repeated).permissions.workspaces.map ResolvedWorkspace.id = [1, 2] ∧
      ((Sample.versions Sample.repeated).permissions.add (.unreadable Sample.unlocked)).1 =
        .error (.permissionsAlreadySet 1) ∧
      (Sample.versions Sample.repeated).page Store.sample = .ok rows ∧
      Store.Sample.root ∈ rows.map ListedObject.reference ∧
      (rows.map ListedObject.reference).Nodup := by
  have single : OneForm (Sample.repeated.map Addition.workspace) := by decide
  have proved := one_entry_per_form (some ⟨"alice"⟩) {} Sample.repeated
  have listed : (Sample.versions Sample.repeated).page Store.sample = .ok _ := rfl
  refine ⟨_, single, rfl, ?_, listed, ?_, (proved.2 single).2 _ _ _ rfl listed⟩
  next => exact proved.1.refused (.unreadable Sample.unlocked) (by decide)
  next => decide +kernel

theorem sample_two_forms :
    (Sample.versions Sample.renewed).permissions.workspaces.map ResolvedWorkspace.id = [1, 1] ∧
      (Sample.versions Sample.renewed).page Store.sample = .ok [Sample.row, Sample.row] := by
  have sorted : [Sample.row, Sample.row].mergeSort (fun left right =>
      left.reference.listedBefore right.reference) = [Sample.row, Sample.row] :=
    List.mergeSort_of_pairwise (by decide)
  have whole : (Sample.versions Sample.renewed).rows Store.sample =
      .ok ([Sample.row, Sample.row].mergeSort fun left right =>
        left.reference.listedBefore right.reference) := rfl
  rw [Listing.page_eq whole, sorted]
  exact ⟨rfl, rfl⟩

end PermissionSet

end ObjectSpace
