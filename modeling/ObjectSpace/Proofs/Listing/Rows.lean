import ObjectSpace.Proofs.Store.Answers
import ObjectSpace.Store.Listing

set_option autoImplicit false

namespace ObjectSpace

namespace Reference

def ListedLess (left right : Reference) : Prop := left.listedBefore right = true ∧ left ≠ right

theorem listedBefore_total (left right : Reference) :
    (left.listedBefore right || right.listedBefore left) = true := by
  simp only [listedBefore, Bool.or_eq_true]
  grind

theorem listedBefore_trans (first second third : Reference)
    (left : first.listedBefore second = true) (right : second.listedBefore third = true) :
    first.listedBefore third = true := by
  simp only [listedBefore] at left right ⊢
  grind

theorem listedBefore_antisymm {left right : Reference} (below : left.listedBefore right = true)
    (above : right.listedBefore left = true) : left = right := by
  simp only [listedBefore] at below above
  exact ext_parts (by grind) (by grind) (by grind)

theorem ListedLess.trans {first second third : Reference} (left : first.ListedLess second)
    (right : second.ListedLess third) : first.ListedLess third := by
  refine ⟨listedBefore_trans _ _ _ left.1 right.1, ?_⟩
  intro same
  subst same
  exact left.2 (listedBefore_antisymm left.1 right.1)

theorem ListedLess.asymm {left right : Reference} (less : left.ListedLess right) :
    ¬ right.ListedLess left :=
  fun greater => less.2 (listedBefore_antisymm less.1 greater.1)

end Reference

namespace Listing

variable {listing : Listing} {store : Store} {reference : Reference}

def ShowsVersion (listing : Listing) (object : ObjectRecord) (version : Nat) : Prop :=
  if listing.showAllVersions then object.hasVersion version = true
  else version = object.latestVersion

def Shows (listing : Listing) (store : Store) (reference : Reference) : Prop :=
  ∃ workspace ∈ listing.permissions.workspaces,
    listing.permissions.hasPermission workspace .read = true ∧
      workspace.id = reference.workspace ∧
      ∃ record, store.workspaces.get? reference.workspace = some record ∧
        record.deleted = false ∧
        ∃ object, record.objects.get? reference.object = some object ∧
          listing.includes reference.object object.deleted = true ∧
          listing.ShowsVersion object reference.version

theorem mem_versions (listing : Listing) {object : ObjectRecord} {version : Nat} :
    version ∈ listing.versions object ↔ listing.ShowsVersion object version := by
  simp only [versions, ShowsVersion]
  split
  · rw [List.mem_range'_1, Store.hasVersion_iff_latest]
    omega
  · simp

instance (listing : Listing) (object : ObjectRecord) (version : Nat) :
    Decidable (listing.ShowsVersion object version) :=
  decidable_of_iff (version ∈ listing.versions object) listing.mem_versions

theorem versions_nodup (listing : Listing) (object : ObjectRecord) :
    (listing.versions object).Nodup := by
  simp only [versions]
  split
  · exact List.nodup_range'
  · simp

def rowOf (workspace : Nat) (record : WorkspaceRecord) (id : Nat) (object : ObjectRecord)
    (version : Nat) : Except ValueError ListedObject :=
  (Reference.ofParts workspace id version).map fun reference =>
    { reference, name := object.name, workspaceName := record.name, deleted := object.deleted }

theorem rowOf_ok {workspace id version : Nat} {record : WorkspaceRecord} {object : ObjectRecord}
    {row : ListedObject} (made : rowOf workspace record id object version = .ok row) :
    row.reference.workspace = workspace ∧ row.reference.object = id ∧
      row.reference.version = version := by
  simp only [rowOf] at made
  cases parts : Reference.ofParts workspace id version with
  | error cause => simp [parts, Except.map] at made
  | ok reference =>
    simp only [parts, Except.map, Except.ok.injEq] at made
    subst made
    exact Store.ofParts_eq_ok parts

theorem exists_rowOf (record : WorkspaceRecord) (object : ObjectRecord) (reference : Reference) :
    ∃ row, rowOf reference.workspace record reference.object object reference.version = .ok row ∧
      row.reference = reference := by
  rw [rowOf, Reference.ofParts_parts]
  exact ⟨_, rfl, rfl⟩

theorem objectRows_eq (listing : Listing) (workspace : Nat) (record : WorkspaceRecord) (id : Nat)
    (object : ObjectRecord) :
    listing.objectRows workspace record id object =
      if listing.includes id object.deleted then
        (listing.versions object).mapM (rowOf workspace record id object)
      else .ok [] := by
  have same : rowOf workspace record id object = fun version => do
      let reference ← Reference.ofParts workspace id version
      return { reference, name := object.name, workspaceName := record.name,
               deleted := object.deleted } := by
    funext version
    cases parts : Reference.ofParts workspace id version <;>
      simp [rowOf, parts, Except.map, bind, Except.bind, pure, Except.pure]
  rw [same]
  rfl

section Object

variable {workspace id : Nat} {record : WorkspaceRecord} {object : ObjectRecord}
variable {rows : List ListedObject}

theorem mem_objectRows (ran : listing.objectRows workspace record id object = .ok rows)
    {row : ListedObject} :
    row ∈ rows ↔ listing.includes id object.deleted = true ∧
      ∃ version, listing.ShowsVersion object version ∧
        rowOf workspace record id object version = .ok row := by
  rw [objectRows_eq] at ran
  split at ran
  next included => simp [mem_mapM ran, included, mem_versions]
  next excluded =>
    cases ran
    simp [excluded]

theorem objectRows_distinct (ran : listing.objectRows workspace record id object = .ok rows) :
    rows.Pairwise fun left right => left.reference ≠ right.reference := by
  rw [objectRows_eq] at ran
  split at ran
  next =>
    apply pairwise_mapM ran
    apply (listing.versions_nodup object).imp
    intro first second apart left right made made' same
    have version := congrArg Reference.version same
    rw [(rowOf_ok made).2.2, (rowOf_ok made').2.2] at version
    exact apart version
  next =>
    cases ran
    exact .nil

end Object

section Workspace

variable {workspace : ResolvedWorkspace} {rows : List ListedObject}

theorem workspaceRows_ok (ran : listing.workspaceRows store workspace = .ok rows) :
    rows = [] ∧ (∀ record, listing.permissions.hasPermission workspace .read = true →
        store.workspaces.get? workspace.id = some record → record.deleted = true) ∨
      ∃ record parts, listing.permissions.hasPermission workspace .read = true ∧
        store.workspaces.get? workspace.id = some record ∧ record.deleted = false ∧
        record.objects.entries.mapM (fun entry =>
          listing.objectRows workspace.id record entry.1 entry.2) = .ok parts ∧
        rows = parts.flatten := by
  simp only [workspaceRows] at ran
  split at ran
  next readable =>
    cases found : store.workspaces.get? workspace.id with
    | none =>
      simp only [found, Except.ok.injEq] at ran
      exact .inl ⟨ran.symm, by simp⟩
    | some record =>
      simp only [found] at ran
      cases live : record.deleted with
      | true =>
        simp only [live, if_true, Except.ok.injEq] at ran
        exact .inl ⟨ran.symm, by simp [live]⟩
      | false =>
        simp only [live, Bool.false_eq_true, if_false, bind_eq_ok, pure, Except.pure,
          Except.ok.injEq] at ran
        obtain ⟨parts, collected, rfl⟩ := ran
        exact .inr ⟨record, parts, readable, rfl, live, collected, rfl⟩
  next unreadable =>
    cases ran
    exact .inl ⟨rfl, fun _ readable => absurd readable unreadable⟩

theorem mem_workspaceRows (ran : listing.workspaceRows store workspace = .ok rows) :
    (∃ row ∈ rows, row.reference = reference) ↔
      listing.permissions.hasPermission workspace .read = true ∧
        workspace.id = reference.workspace ∧
        ∃ record, store.workspaces.get? reference.workspace = some record ∧
          record.deleted = false ∧
          ∃ object, record.objects.get? reference.object = some object ∧
            listing.includes reference.object object.deleted = true ∧
            listing.ShowsVersion object reference.version := by
  rcases workspaceRows_ok ran with
    ⟨rfl, gone⟩ | ⟨record, parts, readable, found, live, collected, rfl⟩
  · constructor
    · intro given
      obtain ⟨row, mem, _⟩ := given
      cases mem
    · intro given
      obtain ⟨readable, same, record, found, live, _⟩ := given
      have deleted := gone record readable (same ▸ found)
      simp [live] at deleted
  · simp only [List.mem_flatten, mem_mapM collected, Prod.exists]
    constructor
    · intro given
      obtain ⟨row, ⟨part, ⟨id, object, listed, ran⟩, mem⟩, rfl⟩ := given
      obtain ⟨included, version, shows, made⟩ := (mem_objectRows ran).mp mem
      obtain ⟨in_workspace, in_object, numbered⟩ := rowOf_ok made
      rw [in_workspace, in_object, numbered]
      exact ⟨readable, rfl, record, found, live, object, Table.get?_eq_some_iff.mpr listed,
        included, shows⟩
    · intro given
      obtain ⟨_, same, other, found', _, object, present, included, shows⟩ := given
      rw [← same] at found'
      cases found.symm.trans found'
      have listed := Table.get?_eq_some_iff.mp present
      obtain ⟨row, made, named⟩ := exists_rowOf record object reference
      obtain ⟨part, ran⟩ := mapM_ok_of_mem collected listed
      have mem : row ∈ part := (mem_objectRows ran).mpr ⟨included, _, shows, same ▸ made⟩
      exact ⟨row, ⟨part, ⟨_, _, listed, ran⟩, mem⟩, named⟩

theorem workspace_of_mem (ran : listing.workspaceRows store workspace = .ok rows)
    {row : ListedObject} (mem : row ∈ rows) : workspace.id = row.reference.workspace :=
  ((mem_workspaceRows ran).mp ⟨row, mem, rfl⟩).2.1

theorem workspaceRows_distinct (ran : listing.workspaceRows store workspace = .ok rows) :
    rows.Pairwise fun left right => left.reference ≠ right.reference := by
  rcases workspaceRows_ok ran with ⟨rfl, _⟩ | ⟨record, parts, _, _, _, collected, rfl⟩
  · exact .nil
  · apply List.pairwise_flatten.mpr
    constructor
    · intro part mem
      obtain ⟨entry, _, ran⟩ := (mem_mapM collected).mp mem
      exact objectRows_distinct ran
    · apply pairwise_mapM collected
      have ids : record.objects.entries.Pairwise fun left right => left.1 ≠ right.1 :=
        List.pairwise_map.mp record.objects.keys_nodup
      apply ids.imp
      intro left right apart first second ran ran' row mem row' mem' same
      obtain ⟨_, version, _, made⟩ := (mem_objectRows ran).mp mem
      obtain ⟨_, version', _, made'⟩ := (mem_objectRows ran').mp mem'
      have object := congrArg Reference.object same
      rw [(rowOf_ok made).2.1, (rowOf_ok made').2.1] at object
      exact apart object

end Workspace

variable {rows : List ListedObject}

theorem rows_ok (ran : listing.rows store = .ok rows) :
    ∃ parts, listing.permissions.workspaces.mapM (listing.workspaceRows store) = .ok parts ∧
      rows = parts.flatten.mergeSort fun left right =>
        left.reference.listedBefore right.reference := by
  simp only [Listing.rows, bind_eq_ok, pure, Except.pure, Except.ok.injEq] at ran
  obtain ⟨parts, collected, rfl⟩ := ran
  exact ⟨parts, collected, rfl⟩

theorem mem_rows (ran : listing.rows store = .ok rows) :
    (∃ row ∈ rows, row.reference = reference) ↔ listing.Shows store reference := by
  obtain ⟨parts, collected, rfl⟩ := rows_ok ran
  simp only [List.mem_mergeSort, List.mem_flatten, mem_mapM collected]
  constructor
  · intro given
    obtain ⟨row, ⟨part, ⟨workspace, listed, ran⟩, mem⟩, named⟩ := given
    exact ⟨workspace, listed, (mem_workspaceRows ran).mp ⟨row, mem, named⟩⟩
  · intro given
    obtain ⟨workspace, listed, shown⟩ := given
    obtain ⟨part, ran⟩ := mapM_ok_of_mem collected listed
    obtain ⟨row, mem, named⟩ := (mem_workspaceRows ran).mpr shown
    exact ⟨row, ⟨part, ⟨workspace, listed, ran⟩, mem⟩, named⟩

theorem rows_strict (distinct : (listing.permissions.workspaces.map ResolvedWorkspace.id).Nodup)
    (ran : listing.rows store = .ok rows) :
    rows.Pairwise fun left right => left.reference.ListedLess right.reference := by
  obtain ⟨parts, collected, rfl⟩ := rows_ok ran
  have sorted := List.pairwise_mergeSort
    (fun first second third : ListedObject => Reference.listedBefore_trans first.reference
      second.reference third.reference)
    (fun left right : ListedObject =>
      Reference.listedBefore_total left.reference right.reference) parts.flatten
  have apart : parts.flatten.Pairwise fun left right => left.reference ≠ right.reference := by
    apply List.pairwise_flatten.mpr
    constructor
    · intro part mem
      obtain ⟨workspace, _, ran⟩ := (mem_mapM collected).mp mem
      exact workspaceRows_distinct ran
    · apply pairwise_mapM collected
      apply (List.pairwise_map.mp distinct).imp
      intro left right apart first second ran ran' row mem row' mem' same
      apply apart
      rw [workspace_of_mem ran mem, workspace_of_mem ran' mem', same]
  have still := (List.mergeSort_perm parts.flatten fun left right =>
    left.reference.listedBefore right.reference).symm.pairwise apart fun differ same =>
      differ same.symm
  exact sorted.and still

section Answered

def Covers (listing : Listing) (store : Store) (workspace id : Nat) (object : ObjectRecord) : Prop :=
  ∃ form ∈ listing.permissions.workspaces,
    listing.permissions.hasPermission form .read = true ∧ form.id = workspace ∧
      ∃ record, store.workspaces.get? workspace = some record ∧ record.deleted = false ∧
        record.objects.get? id = some object ∧ listing.includes id object.deleted = true

-- At a multiple of the bound an object has no latest version to be listed by.
def Answerable (listing : Listing) (store : Store) : Prop :=
  listing.showAllVersions = true ∨
    ∀ workspace id object, listing.Covers store workspace id object →
      ¬ Text.versionBound ∣ object.versions.length

theorem exists_objectRows {workspace id : Nat} {record : WorkspaceRecord} {object : ObjectRecord}
    (workspace_pos : 0 < workspace) (object_pos : 0 < id)
    (latest : listing.includes id object.deleted = true →
      listing.showAllVersions = true ∨ object.latestVersion ≠ 0) :
    ∃ rows, listing.objectRows workspace record id object = .ok rows := by
  rw [objectRows_eq]
  split
  next included =>
    apply exists_mapM
    intro version mem
    have bound : object.latestVersion < Text.versionBound := Nat.mod_lt _ (by decide)
    have legal : 0 < version ∧ version < Text.versionBound := by
      have shows := (listing.mem_versions).mp mem
      simp only [ShowsVersion] at shows
      split at shows
      next => exact ⟨Store.hasVersion_pos shows, Store.hasVersion_lt shows⟩
      next some =>
        have nonzero := (latest included).resolve_left some
        omega
    simp [rowOf, Reference.ofParts, workspace_pos, object_pos, legal, Except.map]
  next => exact ⟨[], rfl⟩

theorem exists_workspaceRows (consistent : store.Consistent) (answerable : listing.Answerable store)
    {workspace : ResolvedWorkspace} (mem : workspace ∈ listing.permissions.workspaces) :
    ∃ rows, listing.workspaceRows store workspace = .ok rows := by
  simp only [workspaceRows]
  split
  next readable =>
    cases found : store.workspaces.get? workspace.id with
    | none => exact ⟨[], rfl⟩
    | some record =>
      simp only
      split
      next => exact ⟨[], rfl⟩
      next live =>
        have rows : ∃ parts, record.objects.entries.mapM (fun entry =>
            listing.objectRows workspace.id record entry.1 entry.2) = .ok parts := by
          apply exists_mapM
          intro entry listed
          have present := Table.get?_eq_some_iff.mpr listed
          apply exists_objectRows (consistent.numbered.pos found)
            ((consistent.records _ _ found).numbered.pos present)
          intro included
          apply answerable.imp_right
          intro latest zero
          exact latest workspace.id entry.1 entry.2 ⟨workspace, mem, readable, rfl, record, found,
            by simpa using live, present, included⟩ (Nat.dvd_of_mod_eq_zero zero)
        obtain ⟨parts, collected⟩ := rows
        exact ⟨parts.flatten, by rw [collected]; rfl⟩
  next => exact ⟨[], rfl⟩

theorem exists_rows (consistent : store.Consistent) (answerable : listing.Answerable store) :
    ∃ rows, listing.rows store = .ok rows := by
  obtain ⟨parts, collected⟩ := exists_mapM fun workspace
    (mem : workspace ∈ listing.permissions.workspaces) =>
      exists_workspaceRows consistent answerable mem
  simp only [Listing.rows, collected]
  exact ⟨_, rfl⟩

theorem answerable_of_rows (ran : listing.rows store = .ok rows) : listing.Answerable store := by
  by_cases all : listing.showAllVersions = true
  · exact .inl all
  · refine .inr fun workspace id object covers full => ?_
    obtain ⟨form, mem, readable, rfl, record, found, live, present, included⟩ := covers
    obtain ⟨parts, collected, rfl⟩ := rows_ok ran
    obtain ⟨part, made⟩ := mapM_ok_of_mem collected mem
    rcases workspaceRows_ok made with ⟨_, gone⟩ | ⟨_, _, _, found', _, listed, _⟩
    · exact absurd (gone record readable found) (by simp [live])
    · cases found.symm.trans found'
      obtain ⟨rows, made⟩ := mapM_ok_of_mem listed (Table.get?_eq_some_iff.mp present)
      rw [objectRows_eq, if_pos included] at made
      have latest : object.latestVersion ∈ listing.versions object := by simp [versions, all]
      obtain ⟨row, made⟩ := mapM_ok_of_mem made latest
      have positive := row.reference.version_pos
      have zero : object.latestVersion = 0 := Nat.mod_eq_zero_of_dvd full
      rw [(rowOf_ok made).2.2, zero] at positive
      exact Nat.lt_irrefl 0 positive

variable {cause : ValueError}

theorem objectRows_error {workspace id : Nat} {record : WorkspaceRecord} {object : ObjectRecord}
    (failed : listing.objectRows workspace record id object = .error cause) :
    cause = .invalidReference := by
  rw [objectRows_eq] at failed
  split at failed
  next =>
    obtain ⟨version, _, failed⟩ := mapM_eq_error failed
    simp only [rowOf, Reference.ofParts] at failed
    split at failed
    next => cases failed
    next =>
      cases failed
      rfl
  next => cases failed

theorem workspaceRows_error {workspace : ResolvedWorkspace}
    (failed : listing.workspaceRows store workspace = .error cause) : cause = .invalidReference := by
  simp only [workspaceRows] at failed
  split at failed
  next =>
    split at failed
    next => cases failed
    next record _ =>
      split at failed
      next => cases failed
      next =>
        cases collected : record.objects.entries.mapM (fun entry =>
            listing.objectRows workspace.id record entry.1 entry.2) with
        | ok parts =>
          rw [collected] at failed
          cases failed
        | error error =>
          rw [collected] at failed
          cases failed
          obtain ⟨entry, _, failed⟩ := mapM_eq_error collected
          exact objectRows_error failed
  next => cases failed

theorem rows_error (failed : listing.rows store = .error cause) : cause = .invalidReference := by
  rw [Listing.rows] at failed
  cases collected : listing.permissions.workspaces.mapM (listing.workspaceRows store) with
  | ok parts =>
    rw [collected] at failed
    cases failed
  | error error =>
    rw [collected] at failed
    cases failed
    obtain ⟨workspace, _, failed⟩ := mapM_eq_error collected
    exact workspaceRows_error failed

theorem rows_refused_iff (consistent : store.Consistent) :
    listing.rows store = .error .invalidReference ↔ ¬ listing.Answerable store := by
  constructor
  · intro failed answerable
    obtain ⟨rows, ran⟩ := exists_rows consistent answerable
    rw [ran] at failed
    cases failed
  · intro unanswerable
    cases ran : listing.rows store with
    | ok rows => exact absurd (answerable_of_rows ran) unanswerable
    | error cause => rw [rows_error ran]

end Answered

end Listing

end ObjectSpace
