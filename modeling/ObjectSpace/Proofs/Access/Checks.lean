import ObjectSpace.Access.Check
import ObjectSpace.Proofs.Enquiry.Transcript
import ObjectSpace.Proofs.Store.Answers

set_option autoImplicit false

namespace ObjectSpace

namespace Store

variable {store : Store} {key : WorkspaceKey} {workspace : ResolvedWorkspace}

def enter (store : Store) (key : WorkspaceKey) : Except StoreError ResolvedWorkspace :=
  match store.find? key with
  | none => .error (.noSuchWorkspace key)
  | some (id, record) =>
    if record.deleted then .error (.workspaceDeleted key) else .ok (record.shown id)

def Live (store : Store) (key : WorkspaceKey) : Prop :=
  ∃ id record, store.find? key = some (id, record) ∧ record.deleted = false

theorem enter_of_live (live : store.Live key) :
    ∃ workspace, store.enter key = .ok workspace ∧ store.workspace? key = some workspace := by
  obtain ⟨id, record, found, here⟩ := live
  exact ⟨record.shown id, by simp [enter, found, here], by simp [workspace?, found]⟩

theorem live_of_enter (entered : store.enter key = .ok workspace) : store.Live key := by
  simp only [enter] at entered
  split at entered
  · cases entered
  next id record found =>
    split at entered
    · cases entered
    next live => exact ⟨id, record, found, by simpa using live⟩

theorem resolveWorkspaces_strict (consistent : store.Consistent) (keys : List WorkspaceKey) :
    store.resolveWorkspaces false keys = Table.gather keys store.enter := by
  refine foldlM_congr (fun table key _ => ?_) Table.empty
  simp only [resolveOne, enter]
  cases found : store.find? key with
  | none => rfl
  | some entry =>
    have present := (find?_eq_some found).1
    have resolved := WorkspaceRecord.resolved_eq (consistent.numbered.pos present)
      (consistent.records _ _ present).name_valid
    cases live : entry.2.deleted <;> simp [live, resolved] <;> rfl

end Store

namespace Demand

def available (demand : Demand) (record : WorkspaceRecord) : Permission :=
  (record.grant demand.user).effective

def LockedOut (demand : Demand) (record : WorkspaceRecord) : Prop :=
  .read < demand.permission ∧ record.locked = true

instance (demand : Demand) (record : WorkspaceRecord) : Decidable (demand.LockedOut record) :=
  inferInstanceAs (Decidable (_ ∧ _))

def Admitted (demand : Demand) (record : WorkspaceRecord) : Prop :=
  ¬ demand.LockedOut record ∧ demand.permission ≤ demand.available record

instance (demand : Demand) (record : WorkspaceRecord) : Decidable (demand.Admitted record) :=
  inferInstanceAs (Decidable (_ ∧ _))

def denial (demand : Demand) (key : WorkspaceKey) (id : Nat) (record : WorkspaceRecord) : Denial :=
  if demand.LockedOut record then .locked (record.shown id)
  else .insufficient demand.user demand.operation key demand.permission (demand.available record)

def verdict (store : Store) (demand : Demand) (key : WorkspaceKey) :
    Except CheckError ResolvedWorkspace :=
  match store.find? key with
  | none => .error (.store (.noSuchWorkspace key))
  | some (id, record) =>
    if record.deleted then .error (.store (.workspaceDeleted key))
    else if demand.Admitted record then .ok (record.shown id)
    else .error (.unauthorized (demand.denial key id record))

def Passes (store : Store) (demand : Demand) (key : WorkspaceKey) : Prop :=
  ∃ id record, store.find? key = some (id, record) ∧ record.deleted = false ∧
    demand.Admitted record

variable {store : Store} {demand : Demand} {key : WorkspaceKey}
variable {id : Nat} {record : WorkspaceRecord}

theorem verdict_eq_ok (found : store.find? key = some (id, record))
    (live : record.deleted = false) (admitted : demand.Admitted record) :
    demand.verdict store key = .ok (record.shown id) := by
  simp [verdict, found, live, admitted]

theorem verdict_eq_denial (found : store.find? key = some (id, record))
    (live : record.deleted = false) (refused : ¬ demand.Admitted record) :
    demand.verdict store key = .error (.unauthorized (demand.denial key id record)) := by
  simp [verdict, found, live, refused]

theorem verdict_of_absent {cause : StoreError} (failed : store.enter key = .error cause) :
    demand.verdict store key = .error (.store cause) := by
  simp only [Store.enter] at failed
  simp only [verdict]
  cases found : store.find? key with
  | none =>
    rw [found] at failed
    cases failed
    rfl
  | some entry =>
    cases live : entry.2.deleted <;> simp [found, live] at failed ⊢
    exact failed

theorem passes_of_verdict {workspace : ResolvedWorkspace}
    (passed : demand.verdict store key = .ok workspace) : demand.Passes store key := by
  simp only [verdict] at passed
  split at passed
  · cases passed
  next id record found =>
    split at passed
    · cases passed
    next live =>
      split at passed
      next admitted => exact ⟨id, record, found, by simpa using live, admitted⟩
      next => cases passed

theorem verdict_ok_iff :
    (∃ workspace, demand.verdict store key = .ok workspace) ↔ demand.Passes store key := by
  constructor
  · rintro ⟨workspace, passed⟩
    exact passes_of_verdict passed
  · rintro ⟨id, record, found, live, admitted⟩
    exact ⟨_, verdict_eq_ok found live admitted⟩

theorem grants_eq (key : WorkspaceKey) {permissions : PermissionSet}
    (told : permissions.permission (record.shown id) = demand.available record) :
    demand.grants permissions key (record.shown id) =
      if demand.Admitted record then .ok ()
      else .error (.unauthorized (demand.denial key id record)) := by
  simp only [grants, told, denial]
  by_cases locked : demand.LockedOut record
  · have refused : checkLocked demand.permission (record.shown id) =
        .error (.locked (record.shown id)) := if_pos locked
    have out : ¬ demand.Admitted record := fun admitted => admitted.1 locked
    rw [refused, if_neg out, if_pos locked]
    rfl
  · have passed : checkLocked demand.permission (record.shown id) = .ok () := if_neg locked
    by_cases short : demand.available record < demand.permission
    · have out : ¬ demand.Admitted record := fun admitted => Nat.not_le_of_lt short admitted.2
      rw [passed, checkPermission, if_pos short, if_neg out, if_neg locked]
      rfl
    · have admitted : demand.Admitted record := ⟨locked, Nat.le_of_not_lt short⟩
      rw [passed, checkPermission, if_neg short, if_pos admitted]
      rfl

end Demand

structure Fetched (store : Store) (demand : Demand)
    (resolved : Table WorkspaceKey ResolvedWorkspace) (permissions : PermissionSet)
    (key : WorkspaceKey) : Prop where
  workspace : resolved.get? key = store.workspace? key
  permission : ∀ id record, store.find? key = some (id, record) →
    permissions.permission (record.shown id) = demand.available record

theorem Demand.exists_permissions (store : Store) (demand : Demand)
    (resolved : Table WorkspaceKey ResolvedWorkspace) :
    ∃ permissions, (demand.permissionsOn resolved).run store = .ok permissions ∧
      ∀ key, resolved.get? key = store.workspace? key →
        Fetched store demand resolved permissions key := by
  have answered := store.permissions_eq demand.user (nodup_eraseDups resolved.values)
  refine ⟨_, Enquiry.run_query answered, fun key told => ⟨told, ?_⟩⟩
  intro id record found
  have shown : resolved.get? key = some (record.shown id) := by
    rw [told, Store.workspace?, found]
    rfl
  have mem : record.shown id ∈ resolved.values.eraseDups :=
    List.mem_eraseDups.mpr (Table.mem_values_iff.mpr ⟨key, shown⟩)
  have granted : store.grantOn demand.user (record.shown id).id = record.grant demand.user := by
    simp [Store.grantOn, WorkspaceRecord.shown, (Store.find?_eq_some found).1]
  simp only [PermissionSet.permission, PermissionSet.grant, Table.get?_tabulate, mem, if_true,
    Option.getD_some, granted, Demand.available]

namespace ObjectCheck

variable {store : Store} {demand : Demand} {check : ObjectCheck}

def alone (store : Store) (demand : Demand) (object : Address) :
    Except CheckError ResolvedAddress :=
  match demand.verdict store object.workspace with
  | .ok workspace => .ok (object.resolveIn workspace)
  | .error cause => .error (.inaccessibleObject object cause)

theorem alone_ok_iff {object : Address} :
    (∃ found, alone store demand object = .ok found) ↔ demand.Passes store object.workspace := by
  rw [← Demand.verdict_ok_iff, alone]
  cases demand.verdict store object.workspace <;> simp

theorem grantedWorkspace_eq (strict : check.includeDeleted = false)
    {resolved : Table WorkspaceKey ResolvedWorkspace} {permissions : PermissionSet}
    {object : Address}
    (fetched : Fetched store check.demand resolved permissions object.workspace) :
    check.grantedWorkspace resolved permissions object =
      check.demand.verdict store object.workspace := by
  simp only [grantedWorkspace, fetched.workspace, Store.workspace?, Demand.verdict]
  cases found : store.find? object.workspace with
  | none => rfl
  | some entry =>
    have granted := Demand.grants_eq object.workspace
      (fetched.permission entry.1 entry.2 found)
    simp only [Option.map_some, granted, strict]
    cases live : entry.2.deleted with
    | true => simp [WorkspaceRecord.shown, live, bind, Except.bind, throw, throwThe,
        MonadExceptOf.throw]
    | false =>
      by_cases admitted : check.demand.Admitted entry.2 <;>
        simp [WorkspaceRecord.shown, live, admitted, bind, Except.bind, pure, Except.pure]

theorem run_eq_foldlM (consistent : store.Consistent) (check : ObjectCheck)
    (strict : check.includeDeleted = false) :
    check.run.run store = check.objects.foldlM (fun answer object =>
      match alone store check.demand object with
      | .ok found => .ok (answer.insert object found)
      | .error error => if check.suppressErrors then .ok answer else .error error) .empty := by
  let keys := (check.objects.map Address.workspace).eraseDups
  have resolved : store.answer (.resolveWorkspaces keys true) =
      .ok (Table.collect keys store.workspace?) :=
    Store.resolveWorkspaces_eq consistent keys
  obtain ⟨permissions, priced, fetched⟩ :=
    check.demand.exists_permissions store (Table.collect keys store.workspace?)
  rw [run, Enquiry.run_bind_ok (Enquiry.run_query resolved), Enquiry.run_bind_ok priced,
    Enquiry.run_ofExcept]
  refine foldlM_congr (fun answer object mem => ?_) Table.empty
  have named : object.workspace ∈ keys :=
    List.mem_eraseDups.mpr (List.mem_map_of_mem mem)
  have here := grantedWorkspace_eq strict
    (fetched object.workspace (by rw [Table.get?_collect, if_pos named]))
  simp only [addObject, here, alone]
  cases check.demand.verdict store object.workspace <;> rfl

theorem run_strict (consistent : store.Consistent) (check : ObjectCheck)
    (strict : check.includeDeleted = false) (reported : check.suppressErrors = false) :
    check.run.run store = Table.gather check.objects (alone store check.demand) := by
  rw [run_eq_foldlM consistent check strict]
  refine foldlM_congr (fun answer object _ => ?_) Table.empty
  cases alone store check.demand object <;> simp [reported, Except.map]

theorem run_suppressed (consistent : store.Consistent) (check : ObjectCheck)
    (strict : check.includeDeleted = false) (suppressed : check.suppressErrors = true) :
    check.run.run store =
      .ok (Table.collect check.objects fun object =>
        (alone store check.demand object).toOption) := by
  rw [run_eq_foldlM consistent check strict]
  refine foldlM_eq_ok (fun answer object _ => ?_) Table.empty
  cases here : alone store check.demand object <;> simp [here, suppressed, Except.toOption]

theorem runSingle_eq (consistent : store.Consistent) (demand : Demand) (object : Address) :
    (runSingle demand object).run store = alone store demand object := by
  have ran := run_strict consistent { demand, objects := [object] } rfl rfl
  cases here : alone store demand object with
  | error error =>
    have fails : FailsFirst (alone store demand) [object] object error :=
      ⟨[], [], rfl, by simp, here⟩
    rw [Table.gather_eq_error fails] at ran
    exact Enquiry.run_bind_error ran _
  | ok found =>
    rw [Table.gather_eq_ok (by simpa using ⟨found, here⟩)] at ran
    rw [runSingle, Enquiry.run_bind_ok ran, Table.get?_collect]
    simp only [List.mem_singleton, if_true, here, Except.toOption]
    rfl

end ObjectCheck

namespace WorkspaceCheck

variable {store : Store} {demand : Demand} {check : WorkspaceCheck}
variable {resolved : Table WorkspaceKey ResolvedWorkspace}

theorem grantsOne_eq {permissions : PermissionSet} {key : WorkspaceKey} (live : store.Live key)
    (fetched : Fetched store check.demand resolved permissions key) :
    check.grantsOne resolved permissions key =
      (check.demand.verdict store key).map fun _ => () := by
  obtain ⟨id, record, found, here⟩ := live
  have granted := Demand.grants_eq key (fetched.permission id record found)
  simp only [grantsOne, fetched.workspace, Store.workspace?, found, Option.map_some, granted,
    Demand.verdict, here]
  by_cases admitted : check.demand.Admitted record <;> simp [admitted, Except.map]

theorem run_of_live (consistent : store.Consistent) (check : WorkspaceCheck)
    (live : ∀ key ∈ check.workspaces, store.Live key) :
    ∃ resolved, (∀ key ∈ check.workspaces, resolved.get? key = store.workspace? key) ∧
      check.run.run store =
        (check.workspaces.forM fun key => (check.demand.verdict store key).map fun _ => ()).map
          fun _ => resolved := by
  let keys := check.workspaces.eraseDups
  let resolved := Table.collect keys fun key => (store.enter key).toOption
  have entered : ∀ key ∈ keys, ∃ workspace, store.enter key = .ok workspace := by
    intro key mem
    obtain ⟨workspace, here, _⟩ := Store.enter_of_live (live key (List.mem_eraseDups.mp mem))
    exact ⟨workspace, here⟩
  have answered : store.answer (.resolveWorkspaces keys false) = .ok resolved :=
    (Store.resolveWorkspaces_strict consistent keys).trans (Table.gather_eq_ok entered)
  have told : ∀ key ∈ check.workspaces, resolved.get? key = store.workspace? key := by
    intro key mem
    obtain ⟨workspace, here, shown⟩ := Store.enter_of_live (live key mem)
    rw [Table.get?_collect, if_pos (List.mem_eraseDups.mpr mem), here, shown]
    rfl
  obtain ⟨permissions, priced, fetched⟩ := check.demand.exists_permissions store resolved
  refine ⟨resolved, told, ?_⟩
  rw [run, Enquiry.run_bind_ok (Enquiry.run_query answered), Enquiry.run_bind_ok priced,
    Enquiry.run_bind, Enquiry.run_ofExcept,
    forM_congr fun key mem => grantsOne_eq (live key mem) (fetched key (told key mem))]
  rfl

theorem run_passed (consistent : store.Consistent) (check : WorkspaceCheck)
    (passes : ∀ key ∈ check.workspaces, check.demand.Passes store key) :
    ∃ resolved, check.run.run store = .ok resolved ∧
      ∀ key ∈ check.workspaces, resolved.get? key = store.workspace? key := by
  have live : ∀ key ∈ check.workspaces, store.Live key := by
    intro key mem
    obtain ⟨id, record, found, here, _⟩ := passes key mem
    exact ⟨id, record, found, here⟩
  obtain ⟨resolved, told, ran⟩ := run_of_live consistent check live
  have fine : ∀ key ∈ check.workspaces,
      (check.demand.verdict store key).map (fun _ => ()) = .ok () := by
    intro key mem
    obtain ⟨workspace, passed⟩ := Demand.verdict_ok_iff.mpr (passes key mem)
    rw [passed]
    rfl
  rw [forM_eq_ok fine] at ran
  exact ⟨resolved, ran, told⟩

theorem run_refused (consistent : store.Consistent) (check : WorkspaceCheck)
    (live : ∀ key ∈ check.workspaces, store.Live key) {key : WorkspaceKey} {error : CheckError}
    (fails : FailsFirst (check.demand.verdict store) check.workspaces key error) :
    check.run.run store = .error error := by
  obtain ⟨resolved, _, ran⟩ := run_of_live consistent check live
  rw [ran, (fails.map fun _ => ()).forM]
  rfl

theorem run_absent (consistent : store.Consistent) (check : WorkspaceCheck)
    (absent : ∃ key ∈ check.workspaces, ¬ store.Live key) :
    ∃ key ∈ check.workspaces, ∃ cause, store.enter key = .error cause ∧
      check.run.run store = .error (.store cause) := by
  rcases all_ok_or_failsFirst store.enter check.workspaces.eraseDups with
    all | ⟨key, cause, fails⟩
  · obtain ⟨key, mem, dead⟩ := absent
    obtain ⟨workspace, entered⟩ := all key (List.mem_eraseDups.mpr mem)
    exact absurd (Store.live_of_enter entered) dead
  · obtain ⟨mem, refused⟩ := fails.mem
    have failed : store.answer (.resolveWorkspaces check.workspaces.eraseDups false) =
        .error cause :=
      (Store.resolveWorkspaces_strict consistent _).trans (Table.gather_eq_error fails)
    exact ⟨key, List.mem_eraseDups.mp mem, cause, refused,
      Enquiry.run_bind_error (Enquiry.run_query_error failed) _⟩

theorem runSingle_eq (consistent : store.Consistent) (demand : Demand) (key : WorkspaceKey) :
    (runSingle demand key).run store = demand.verdict store key := by
  by_cases live : store.Live key
  · cases ruled : demand.verdict store key with
    | ok workspace =>
      have passes := Demand.passes_of_verdict ruled
      obtain ⟨resolved, ran, told⟩ := run_passed consistent
        { demand, workspaces := [key] } (by simpa using passes)
      have shown : store.workspace? key = some workspace := by
        obtain ⟨id, record, found, here, admitted⟩ := passes
        rw [Demand.verdict_eq_ok found here admitted] at ruled
        cases ruled
        simp [Store.workspace?, found]
      rw [runSingle, Enquiry.run_bind_ok ran, told key List.mem_cons_self, shown]
      rfl
    | error error =>
      have ran := run_refused consistent { demand, workspaces := [key] } (by simpa using live)
        (failsFirst_singleton ruled)
      exact Enquiry.run_bind_error ran _
  · obtain ⟨other, mem, cause, failed, ran⟩ := run_absent consistent
      { demand, workspaces := [key] } (by simpa using live)
    obtain rfl : other = key := by simpa using mem
    rw [runSingle, Enquiry.run_bind_error ran, Demand.verdict_of_absent failed]

end WorkspaceCheck

structure ObjectCheck.Agrees (store : Store) (check : ObjectCheck) (objects : List Address)
    (single : Address → Except CheckError ResolvedAddress) : Prop where
  accepted : (∃ answer, check.run.run store = .ok answer) ↔
    ∀ object ∈ objects, ∃ found, single object = .ok found
  answers : ∀ answer, check.run.run store = .ok answer → ∀ object,
    answer.get? object = if object ∈ objects then (single object).toOption else none
  refused : (∃ object ∈ objects, ∃ error, single object = .error error) →
    ∃ object error, FailsFirst single objects object error ∧
      check.run.run store = .error error
  suppressed : ∃ answer,
    ({ check with suppressErrors := true } : ObjectCheck).run.run store = .ok answer ∧
      ∀ object, answer.get? object =
        if object ∈ objects then (single object).toOption else none

structure WorkspaceCheck.Decides (store : Store) (check : WorkspaceCheck)
    (keys : List WorkspaceKey) : Prop where
  accepted : (∃ answer, check.run.run store = .ok answer) ↔
    ∀ key ∈ keys, check.demand.Passes store key
  singly : (∃ answer, check.run.run store = .ok answer) ↔
    ∀ key ∈ keys, ∃ workspace, (runSingle check.demand key).run store = .ok workspace
  refused : (∀ key ∈ keys, store.Live key) → (∃ key ∈ keys, ¬ check.demand.Passes store key) →
    ∃ before key after id record, keys = before ++ key :: after ∧
      (∀ earlier ∈ before, check.demand.Passes store earlier) ∧
      store.find? key = some (id, record) ∧ ¬ check.demand.Admitted record ∧
      check.run.run store = .error (.unauthorized (check.demand.denial key id record))
  absent : (∃ key ∈ keys, ¬ store.Live key) →
    ∃ key ∈ keys, ∃ cause, store.enter key = .error cause ∧
      check.run.run store = .error (.store cause)

section Batch

variable {store : Store}

theorem ObjectCheck.agrees (consistent : store.Consistent) (demand : Demand)
    (objects : List Address) :
    ObjectCheck.Agrees store { demand, objects := objects.eraseDups } objects
      (ObjectCheck.alone store demand) := by
  have ran := run_strict consistent { demand, objects := objects.eraseDups } rfl rfl
  have passed (fine : ∀ object ∈ objects, ∃ found, alone store demand object = .ok found) :=
    ran.trans (Table.gather_eq_ok fun object mem => fine object (List.mem_eraseDups.mp mem))
  have failed {object : Address} {error : CheckError}
      (fails : FailsFirst (alone store demand) objects object error) :=
    ran.trans (Table.gather_eq_error fails.eraseDups)
  have collected : ∀ object,
      (Table.collect objects.eraseDups fun object => (alone store demand object).toOption).get?
        object = if object ∈ objects then (alone store demand object).toOption else none := by
    intro object
    simp only [Table.get?_collect, List.mem_eraseDups]
  have fine_of_ok : ∀ answer,
      ({ demand, objects := objects.eraseDups } : ObjectCheck).run.run store = .ok answer →
        ∀ object ∈ objects, ∃ found, alone store demand object = .ok found := by
    intro answer got
    rcases all_ok_or_failsFirst (alone store demand) objects with fine | ⟨object, error, fails⟩
    · exact fine
    · cases got.symm.trans (failed fails)
  constructor
  case accepted =>
    constructor
    · rintro ⟨answer, got⟩
      exact fine_of_ok answer got
    · exact fun fine => ⟨_, passed fine⟩
  case answers =>
    intro answer got
    cases got.symm.trans (passed (fine_of_ok answer got))
    exact collected
  case refused =>
    rintro ⟨object, mem, error, refused⟩
    rcases all_ok_or_failsFirst (alone store demand) objects with fine | ⟨first, cause, fails⟩
    · obtain ⟨found, here⟩ := fine object mem
      cases here.symm.trans refused
    · exact ⟨first, cause, fails, failed fails⟩
  case suppressed => exact ⟨_, run_suppressed consistent _ rfl rfl, collected⟩

theorem WorkspaceCheck.passes_of_ok (consistent : store.Consistent) {demand : Demand}
    {keys : List WorkspaceKey} {answer : Table WorkspaceKey ResolvedWorkspace}
    (ran : ({ demand, workspaces := keys.eraseDups } : WorkspaceCheck).run.run store =
      .ok answer) :
    ∀ key ∈ keys, demand.Passes store key := by
  let check : WorkspaceCheck := { demand, workspaces := keys.eraseDups }
  by_cases live : ∀ key ∈ keys, store.Live key
  · rcases all_ok_or_failsFirst (demand.verdict store) keys with fine | ⟨key, error, fails⟩
    · exact fun key mem => Demand.verdict_ok_iff.mp (fine key mem)
    · have failed := run_refused consistent check
        (fun key mem => live key (List.mem_eraseDups.mp mem)) fails.eraseDups
      cases ran.symm.trans failed
  · have dead : ∃ key ∈ check.workspaces, ¬ store.Live key := by simpa [check] using live
    obtain ⟨_, _, cause, _, failed⟩ := run_absent consistent check dead
    cases ran.symm.trans failed

theorem WorkspaceCheck.ok_iff_passes (consistent : store.Consistent) (demand : Demand)
    (keys : List WorkspaceKey) :
    (∃ answer, ({ demand, workspaces := keys.eraseDups } : WorkspaceCheck).run.run store =
      .ok answer) ↔ ∀ key ∈ keys, demand.Passes store key := by
  constructor
  · rintro ⟨answer, ran⟩
    exact passes_of_ok consistent ran
  · intro passes
    obtain ⟨resolved, ran, _⟩ := run_passed consistent
      { demand, workspaces := keys.eraseDups } fun key mem => passes key (List.mem_eraseDups.mp mem)
    exact ⟨resolved, ran⟩

theorem WorkspaceCheck.decides (consistent : store.Consistent) (demand : Demand)
    (keys : List WorkspaceKey) :
    WorkspaceCheck.Decides store { demand, workspaces := keys.eraseDups } keys := by
  have accepted := ok_iff_passes consistent demand keys
  constructor
  case accepted => exact accepted
  case singly =>
    simp only [accepted, runSingle_eq consistent, Demand.verdict_ok_iff]
  case refused =>
    rintro live ⟨stopped, listed, refused⟩
    rcases all_ok_or_failsFirst (demand.verdict store) keys with fine | ⟨key, error, fails⟩
    · exact absurd (Demand.verdict_ok_iff.mp (fine stopped listed)) refused
    · obtain ⟨id, record, found, here⟩ := live key fails.mem.1
      have ruled := fails.mem.2
      have shut : ¬ demand.Admitted record := by
        intro admitted
        cases (Demand.verdict_eq_ok found here admitted).symm.trans ruled
      cases (Demand.verdict_eq_denial found here shut).symm.trans ruled
      have ran := run_refused consistent { demand, workspaces := keys.eraseDups }
        (fun key mem => live key (List.mem_eraseDups.mp mem)) fails.eraseDups
      obtain ⟨before, after, split, passed, _⟩ := fails
      exact ⟨before, key, after, id, record, split,
        fun earlier mem => Demand.verdict_ok_iff.mp (passed earlier mem), found, shut, ran⟩
  case absent =>
    rintro ⟨key, mem, dead⟩
    obtain ⟨other, there, cause, failed, ran⟩ := run_absent consistent
      { demand, workspaces := keys.eraseDups } ⟨key, List.mem_eraseDups.mpr mem, dead⟩
    exact ⟨other, List.mem_eraseDups.mp there, cause, failed, ran⟩

-- Batch checks, single checks and workspace checks follow one rule.
theorem batch_checks_agree (reachable : store.Reachable) (demand : Demand) :
    (∀ objects, objects ≠ [] → ∃ check workspaces,
      ObjectCheck.make demand objects = .ok check ∧
      WorkspaceCheck.make demand (objects.map Address.workspace) = .ok workspaces ∧
      check.Agrees store objects (fun object => (ObjectCheck.runSingle demand object).run store) ∧
      ((∃ answer, check.run.run store = .ok answer) ↔
        ∃ answer, workspaces.run.run store = .ok answer)) ∧
    ∀ keys, keys ≠ [] → ∃ check, WorkspaceCheck.make demand keys = .ok check ∧
      check.Decides store keys := by
  have consistent := reachable.consistent
  constructor
  · intro objects some
    have named : objects.map Address.workspace ≠ [] := by simpa using some
    have decides := WorkspaceCheck.decides consistent demand (objects.map Address.workspace)
    have agrees := ObjectCheck.agrees consistent demand objects
    have same : (∀ object ∈ objects, ∃ found, ObjectCheck.alone store demand object = .ok found) ↔
        ∀ key ∈ objects.map Address.workspace, demand.Passes store key := by
      simp only [ObjectCheck.alone_ok_iff, List.forall_mem_map]
    have alone_eq : (fun object => (ObjectCheck.runSingle demand object).run store) =
        ObjectCheck.alone store demand := funext (ObjectCheck.runSingle_eq consistent demand)
    refine ⟨_, _, if_neg some, if_neg named, ?_, ?_⟩
    · rw [alone_eq]
      exact agrees
    · exact agrees.accepted.trans (same.trans decides.accepted.symm)
  · intro keys some
    exact ⟨_, if_neg some, WorkspaceCheck.decides consistent demand keys⟩

end Batch

namespace Store

namespace Sample

def edit : Demand := { user := some ⟨"alice"⟩, permission := .write }

def own : Address := .mk ⟨.id 1, .name "root", none, {}⟩ .direct

def shut : Address := .mk ⟨.name "hidden", .id 1, none, {}⟩ .direct

def shutOut : CheckError := .unauthorized (.locked ⟨2, "hidden", true, false⟩)

end Sample

open Sample

theorem sample_batch_checks_agree :
    ∃ check workspaces few, sample.Reachable ∧
      ObjectCheck.make edit [own, shut, own] = .ok check ∧
      WorkspaceCheck.make edit [.id 1, .name "hidden", .id 1] = .ok workspaces ∧
      check.run.run sample = .error (.inaccessibleObject shut shutOut) ∧
      (ObjectCheck.runSingle edit shut).run sample = .error (.inaccessibleObject shut shutOut) ∧
      ({ check with suppressErrors := true } : ObjectCheck).run.run sample = .ok few ∧
      few.get? own = some (own.resolveIn ⟨1, "top", false, false⟩) ∧ few.get? shut = none ∧
      workspaces.run.run sample = .error shutOut ∧
      ¬ ∀ key ∈ [.id 1, .name "hidden", .id 1], edit.Passes sample key := by
  obtain ⟨objectwise, keywise⟩ := batch_checks_agree reachable_sample edit
  obtain ⟨check, _, made, _, agrees, _⟩ := objectwise [own, shut, own] (by simp)
  obtain ⟨workspaces, made', decides⟩ := keywise [.id 1, .name "hidden", .id 1] (by simp)
  obtain ⟨few, suppressed, kept⟩ := agrees.suppressed
  cases made
  cases made'
  refine ⟨_, _, few, reachable_sample, rfl, rfl, rfl, rfl, suppressed, kept own, kept shut, rfl,
    fun passes => ?_⟩
  obtain ⟨_, ran⟩ := decides.accepted.mpr passes
  cases ran

end Store

end ObjectSpace
