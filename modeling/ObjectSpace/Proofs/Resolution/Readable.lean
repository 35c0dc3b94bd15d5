import ObjectSpace.Proofs.Resolution.Run

set_option autoImplicit false

namespace ObjectSpace

def ReadableWorkspaces.Holds (readable : ReadableWorkspaces) (store : Store) (caller : Caller) :
    Prop :=
  ∀ id, readable.contains id = true ↔ caller.asAdmin = true ∨
    ∃ record, store.workspaces.get? id = some record ∧ record.deleted = false ∧
      .read ≤ record.userPermission caller.user

def ReadableWorkspaces.Admits (readable : ReadableWorkspaces) (store : Store) (caller : Caller) :
    Prop :=
  ∀ reference, (readable.contains reference.workspace && (store.stateOf reference).any fun state =>
    !state.deleted && !state.workspaceDeleted) = store.opens caller reference

def Store.MaySearch (store : Store) (caller : Caller) : Prop :=
  caller.asAdmin = true ∨ ∃ id record, store.workspaces.get? id = some record ∧
    record.deleted = false ∧ .read ≤ record.userPermission caller.user

theorem Store.maySearch_of_opens {store : Store} {caller : Caller} {reference : Reference}
    (opened : store.opens caller reference = true) : store.MaySearch caller := by
  simp only [opens, Option.any_eq_true, Bool.and_eq_true, Bool.or_eq_true, Bool.not_eq_true',
    decide_eq_true_eq] at opened
  obtain ⟨record, present, ⟨live, granted⟩, _⟩ := opened
  exact granted.imp_right fun enough => ⟨_, record, present, live, enough⟩

namespace ReadableWorkspaces

variable {readable other : ReadableWorkspaces} {store : Store} {caller : Caller}

theorem isEmpty_eq_false_iff :
    readable.isEmpty = false ↔ ∃ id, readable.contains id = true := by
  cases readable with
  | all => simp [isEmpty, contains]
  | only ids =>
    simp only [isEmpty, contains, List.isEmpty_eq_false_iff_exists_mem, List.contains_iff_mem]

theorem isEmpty_congr (same : readable.contains = other.contains) :
    readable.isEmpty = other.isEmpty := by
  have both : readable.isEmpty = false ↔ other.isEmpty = false := by
    rw [isEmpty_eq_false_iff, isEmpty_eq_false_iff, same]
  cases one : readable.isEmpty <;> cases two : other.isEmpty <;> simp_all

namespace Holds

theorem admits (holds : readable.Holds store caller) : readable.Admits store caller := by
  intro reference
  have inside := holds reference.workspace
  cases present : store.workspaces.get? reference.workspace with
  | none => simp [Store.stateOf, Store.opens, present]
  | some record =>
    cases held : store.object? reference with
    | none => simp [Store.stateOf, Store.opens, present, held]
    | some object =>
      rw [Bool.eq_iff_iff]
      cases live : record.deleted <;>
        simp [Store.stateOf, Store.opens, present, held, live, inside]

theorem able (holds : readable.Holds store caller) :
    readable.isEmpty = false ↔ store.MaySearch caller := by
  rw [isEmpty_eq_false_iff, Store.MaySearch]
  constructor
  · intro given
    rcases given with ⟨id, inside⟩
    exact ((holds id).mp inside).imp_right fun found => ⟨id, found⟩
  · intro given
    rcases given with admin | ⟨id, found⟩
    · exact ⟨0, (holds 0).mpr (.inl admin)⟩
    · exact ⟨id, (holds id).mpr (.inr found)⟩

end Holds

end ReadableWorkspaces

namespace Resolver

variable {store : Store}

theorem counts_read {record : WorkspaceRecord} {user : Option User} :
    Store.Counts .read (record.countedGrant user false) ↔
      Permission.read ≤ record.userPermission user := by
  simp only [Store.Counts, WorkspaceRecord.countedGrant, Grant.effective, Bool.false_eq_true,
    if_false]
  cases record.userPermission user <;> decide

theorem mem_readable {set : PermissionSet} {user : Option User}
    (permits : store.Permits user .read false set) (id : Nat) :
    id ∈ set.workspaces.map ResolvedWorkspace.id ↔
      ∃ record, store.workspaces.get? id = some record ∧ record.deleted = false ∧
        Permission.read ≤ record.userPermission user := by
  simp only [PermissionSet.workspaces, List.mem_map, Table.mem_keys_iff,
    Option.isSome_iff_exists]
  constructor
  · intro given
    rcases given with ⟨workspace, ⟨grant, found⟩, rfl⟩
    obtain ⟨record, present, live, _, rfl, counts⟩ := (permits _ _).mp found
    exact ⟨record, present, live, counts_read.mp counts⟩
  · intro given
    rcases given with ⟨record, present, live, readable⟩
    have counts := counts_read.mpr readable
    exact ⟨record.shown id, ⟨_, (permits _ _).mpr ⟨record, present, live, rfl, rfl, counts⟩⟩, rfl⟩

theorem run_readableWorkspaces (consistent : store.Consistent) (resolver : Resolver) :
    ∃ readable, resolver.readableWorkspaces.run store = .ok readable ∧
      readable.Holds store resolver.caller := by
  rw [readableWorkspaces]
  cases admin : resolver.config.asAdmin with
  | true => exact ⟨.all, rfl, fun id => by simp [ReadableWorkspaces.contains, caller, admin]⟩
  | false =>
    obtain ⟨set, granted, permits⟩ :=
      Store.allPermissions_ok consistent resolver.user .read false
    have answered : store.answer (.allPermissions resolver.user .read false) = .ok set := granted
    simp only [Bool.false_eq_true, if_false]
    rw [Enquiry.run_bind_ok (Enquiry.run_query answered)]
    refine ⟨_, rfl, fun id => ?_⟩
    rw [ReadableWorkspaces.contains, List.contains_iff_mem, mem_readable permits]
    simp [caller, admin]

end Resolver

end ObjectSpace
