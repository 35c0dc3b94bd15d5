import ObjectSpace.Proofs.Access.Checks
import ObjectSpace.Proofs.Resolution.Outcomes

set_option autoImplicit false

namespace ObjectSpace

def FailureCause.refusal? : FailureCause → Option CheckError
  | .noSuchWorkspace cause => some (.store cause)
  | .unauthorized denial => some (.unauthorized denial)
  | _ => none

def Outcome.refusal? : Outcome → Option CheckError
  | .error failure => failure.cause.refusal?
  | .ok _ => none

def Demand.reading (user : Option User) : Demand where
  user := user
  permission := .read

theorem Failure.message_of_refusal {failure : Failure} {refusal : CheckError}
    (refused : failure.cause.refusal? = some refusal) :
    failure.message = (CheckError.inaccessibleObject failure.object refusal).message := by
  rcases failure with ⟨object, cause⟩
  cases cause with
  | noSuchWorkspace | unauthorized =>
    cases refused
    rfl
  | noSuchObject | objectDeleted | brokenPath | inaccessible | searchLimitExceeded => cases refused

namespace Demand

variable {user : Option User} {record : WorkspaceRecord}

-- A lock keeps nobody from reading.
theorem not_lockedOut_reading : ¬ (reading user).LockedOut record :=
  fun locked => Nat.lt_irrefl _ locked.1

theorem admitted_reading :
    (reading user).Admitted record ↔ ¬ (record.grant user).effective < .read := by
  simp only [Admitted, not_lockedOut_reading, not_false_eq_true, true_and]
  exact Nat.not_lt.symm

end Demand

namespace Store

variable {store : Store} {user : Option User} {address : Address}

theorem workspaceAlone_verdict (store : Store) (user : Option User) (address : Address) :
    (store.workspaceAlone ⟨user, false⟩ address).mapError FailureCause.refusal? =
      ((Demand.reading user).verdict store address.workspace).mapError some := by
  simp only [workspaceAlone, workspace?, Demand.verdict]
  cases found : store.find? address.workspace with
  | none => rfl
  | some entry =>
    have granted : store.available ⟨user, false⟩ (entry.2.shown entry.1) =
        (entry.2.grant user).effective := by
      simp [available, grantOn, WorkspaceRecord.shown, (find?_eq_some found).1]
    have shown : (entry.2.shown entry.1).deleted = entry.2.deleted := rfl
    simp only [Option.map_some, shown, granted, true_and]
    cases entry.2.deleted with
    | true => rfl
    | false =>
      by_cases short : (entry.2.grant user).effective < .read
      next =>
        have out : ¬ (Demand.reading user).Admitted entry.2 :=
          fun admitted => Demand.admitted_reading.mp admitted short
        simp only [Bool.false_eq_true, if_false, short, if_true, out, Demand.denial,
          Demand.not_lockedOut_reading]
        rfl
      next =>
        have admitted : (Demand.reading user).Admitted entry.2 := Demand.admitted_reading.mpr short
        simp only [Bool.false_eq_true, if_false, short, admitted, if_true]
        rfl

theorem startIn_refusal? {inside : ResolvedAddress} {cause : FailureCause}
    (failed : store.startIn inside = .error cause) : cause.refusal? = none := by
  simp only [startIn] at failed
  cases found : store.locateIn? inside with
  | none =>
    simp only [found] at failed
    cases failed
    rfl
  | some head =>
    simp only [found] at failed
    split at failed
    next =>
      cases failed
      rfl
    next => cases failed

theorem walkAlone_refusal? {caller : Caller} {index position : Nat} {holder : Address}
    {previous : Located} {hops : List Address} {cause : FailureCause}
    (failed : store.walkAlone caller index position holder previous hops = .error cause) :
    cause.refusal? = none := by
  induction hops generalizing position holder previous with
  | nil => cases failed
  | cons hop rest ih =>
    simp only [walkAlone] at failed
    cases accepted : (store.locate? hop).filter (store.accepts caller previous.reference) with
    | none =>
      simp only [accepted] at failed
      cases failed
      rfl
    | some next =>
      simp only [accepted] at failed
      cases walked : store.walkAlone caller index (position + 1) hop next rest with
      | error first =>
        simp only [walked, Except.map] at failed
        cases failed
        exact ih walked
      | ok found => simp [walked, Except.map] at failed

theorem outcomeAlone_object {caller : Caller} {index : Nat} {failure : Failure}
    (failed : store.outcomeAlone caller index address = .error failure) :
    failure.object = address := by
  simp only [outcomeAlone] at failed
  split at failed
  next =>
    cases failed
    rfl
  next =>
    split at failed
    next =>
      cases failed
      rfl
    next => cases failed

theorem outcomeAlone_refusal? (store : Store) (user : Option User) (index : Nat)
    (address : Address) :
    Outcome.refusal? (store.outcomeAlone ⟨user, false⟩ index address) =
      match (Demand.reading user).verdict store address.workspace with
      | .error cause => some cause
      | .ok _ => none := by
  have rule := workspaceAlone_verdict store user address
  simp only [outcomeAlone, headAlone]
  cases entered : store.workspaceAlone ⟨user, false⟩ address with
  | error cause =>
    rw [entered] at rule
    cases ruled : (Demand.reading user).verdict store address.workspace with
    | error refusal =>
      rw [ruled] at rule
      exact Except.error.inj rule
    | ok workspace =>
      rw [ruled] at rule
      cases rule
  | ok workspace =>
    rw [entered] at rule
    cases ruled : (Demand.reading user).verdict store address.workspace with
    | error refusal =>
      rw [ruled] at rule
      cases rule
    | ok other =>
      -- Inside the workspace only the object or the path can be at fault.
      cases started : store.startIn (address.resolveIn workspace) with
      | error cause =>
        simp only [started]
        exact startIn_refusal? started
      | ok head =>
        cases walked : store.walkAlone ⟨user, false⟩ index 1 address head address.hops with
        | error cause =>
          simp only [started, walked]
          exact walkAlone_refusal? walked
        | ok found =>
          simp only [started, walked]
          rfl

structure RefusesAlike (address : Address) (outcome : Outcome)
    (checked : Except CheckError ResolvedAddress) : Prop where
  together : (∃ failure refusal, outcome = .error failure ∧
    failure.cause.refusal? = some refusal) ↔ ∃ error, checked = .error error
  reason : ∀ failure refusal error, outcome = .error failure →
    failure.cause.refusal? = some refusal → checked = .error error →
      error = .inaccessibleObject address refusal
  words : ∀ failure refusal error, outcome = .error failure →
    failure.cause.refusal? = some refusal → checked = .error error →
      failure.message = error.message

theorem alone_error_iff (index : Nat) {error : CheckError} :
    ObjectCheck.alone store (.reading user) address = .error error ↔
      ∃ refusal, Outcome.refusal? (store.outcomeAlone ⟨user, false⟩ index address) = some refusal ∧
        error = .inaccessibleObject address refusal := by
  rw [outcomeAlone_refusal?, ObjectCheck.alone]
  cases (Demand.reading user).verdict store address.workspace <;> simp [eq_comm]

theorem outcomeAlone_refuses (store : Store) (user : Option User) (index : Nat)
    (address : Address) :
    RefusesAlike address (store.outcomeAlone ⟨user, false⟩ index address)
      (ObjectCheck.alone store (.reading user) address) := by
  have refused : ∀ failure refusal, store.outcomeAlone ⟨user, false⟩ index address =
      .error failure → failure.cause.refusal? = some refusal →
        ObjectCheck.alone store (.reading user) address =
          .error (.inaccessibleObject address refusal) := by
    intro failure refusal failed kept_out
    apply (alone_error_iff index).mpr
    refine ⟨refusal, ?_, rfl⟩
    rw [failed]
    exact kept_out
  constructor
  case together =>
    constructor
    next =>
      intro given
      rcases given with ⟨failure, refusal, failed, kept_out⟩
      exact ⟨_, refused failure refusal failed kept_out⟩
    next =>
      intro given
      rcases given with ⟨error, checked⟩
      rcases (alone_error_iff index).mp checked with ⟨refusal, kept_out, _⟩
      cases failed : store.outcomeAlone ⟨user, false⟩ index address with
      | ok resolution => simp [failed, Outcome.refusal?] at kept_out
      | error failure =>
        rw [failed] at kept_out
        exact ⟨failure, refusal, rfl, kept_out⟩
  case reason =>
    intro failure refusal error failed kept_out checked
    cases checked.symm.trans (refused failure refusal failed kept_out)
    rfl
  case words =>
    intro failure refusal error failed kept_out checked
    cases checked.symm.trans (refused failure refusal failed kept_out)
    rw [Failure.message_of_refusal kept_out, outcomeAlone_object failed]

end Store

namespace Resolver

variable {store : Store} {user : Option User} {batch : List Address} {config : ResolverConfig}
variable {resolver : Resolver}

theorem refuses_as_checked (reachable : store.Reachable)
    (made : make user batch config = .ok resolver) (plain : config.asAdmin = false) :
    ∃ result, resolver.resolve.run store = .ok result ∧
      ∀ address ∈ batch, address.isLookup = false →
        ∃ outcome, result.outcome? address = some outcome ∧
          Store.RefusesAlike address outcome
            ((ObjectCheck.runSingle { user, permission := .read } address).run store) := by
  rcases resolve_ok reachable.consistent made with ⟨searched, _, ran⟩
  refine ⟨_, ran, ?_⟩
  intro address mem direct
  have listed : address ∈ batch.eraseDups := List.mem_eraseDups.mpr mem
  refine ⟨_, outcome?_eq listed (store.outcomeOf ⟨user, config.asAdmin⟩ searched), ?_⟩
  simp only [Store.outcomeOf, direct, Bool.false_eq_true, if_false, plain]
  rw [ObjectCheck.runSingle_eq reachable.consistent]
  exact Store.outcomeAlone_refuses store user _ address

theorem sample_refuses_as_checked :
    ∃ resolver result failure error, Store.sample.Reachable ∧
      make (some Store.Sample.alice) [Store.Sample.walk, Store.Sample.wanted .direct] {} =
        .ok resolver ∧
      resolver.resolve.run Store.sample = .ok result ∧
      result.outcome? (Store.Sample.wanted .direct) = some (.error failure) ∧
      failure.cause.refusal? = some (.unauthorized (.insufficient (some Store.Sample.alice) "read"
        (.name "hidden") .read .none)) ∧
      (ObjectCheck.runSingle { user := some Store.Sample.alice, permission := .read }
        (Store.Sample.wanted .direct)).run Store.sample = .error error ∧
      failure.message = error.message ∧
      error.message = "Object target cannot be accessed: " ++
        "User alice may not read workspace hidden" := by
  have made : make (some Store.Sample.alice)
      [Store.Sample.walk, Store.Sample.wanted .direct] {} = .ok _ := rfl
  rcases refuses_as_checked Store.reachable_sample made rfl with ⟨result, ran, each⟩
  rcases each (Store.Sample.wanted .direct) (by simp) rfl with
    ⟨outcome, there, together, reason, words⟩
  have checked : (ObjectCheck.runSingle { user := some Store.Sample.alice, permission := .read }
      (Store.Sample.wanted .direct)).run Store.sample = .error _ := rfl
  rcases together.mpr ⟨_, checked⟩ with ⟨failure, refusal, rfl, kept_out⟩
  have same := reason failure refusal _ rfl kept_out checked
  cases same
  exact ⟨_, result, failure, _, Store.reachable_sample, made, ran, there, kept_out, checked,
    words failure _ _ rfl kept_out checked, rfl⟩

end Resolver

end ObjectSpace
