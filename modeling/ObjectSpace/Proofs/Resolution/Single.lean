import ObjectSpace.Proofs.Store.Answers
import ObjectSpace.Resolution.Resolver

set_option autoImplicit false

namespace ObjectSpace

structure Caller where
  user : Option User
  asAdmin : Bool := false

def Resolver.caller (resolver : Resolver) : Caller := ⟨resolver.user, resolver.config.asAdmin⟩

theorem Grant.read_le_effective {grant : Grant} :
    .read ≤ grant.effective ↔ .read ≤ grant.user ∨ .read ≤ grant.world := by
  obtain ⟨user, world⟩ := grant
  cases user <;> cases world <;> decide

structure Located where
  address : ResolvedAddress
  reference : Reference
  object : ObjectRecord

def Located.shown (located : Located) : ResolvedObject where
  workspace := located.address.workspace
  reference := located.reference
  name := located.object.name
  deleted := located.object.deleted

namespace Store

def locateIn? (store : Store) (address : ResolvedAddress) : Option Located :=
  (store.stored? address).map fun stored =>
    { address, reference := stored.1, object := stored.2 }

def locate? (store : Store) (address : Address) : Option Located :=
  (store.workspace? address.workspace).bind fun workspace =>
    store.locateIn? (address.resolveIn workspace)

def available (store : Store) (caller : Caller) (workspace : ResolvedWorkspace) : Permission :=
  (store.grantOn caller.user workspace.id).effective

def mayRead (store : Store) (caller : Caller) (workspace : ResolvedWorkspace) : Bool :=
  !workspace.deleted && (caller.asAdmin || .read ≤ store.available caller workspace)

-- Missing, deleted, unreadable: checked in this order.
def workspaceAlone (store : Store) (caller : Caller) (address : Address) :
    Except FailureCause ResolvedWorkspace :=
  match store.workspace? address.workspace with
  | none => .error (.noSuchWorkspace (.noSuchWorkspace address.workspace))
  | some workspace =>
    if workspace.deleted then .error (.noSuchWorkspace (.workspaceDeleted address.workspace))
    else if caller.asAdmin = false ∧ store.available caller workspace < .read then
      .error (.unauthorized (.insufficient caller.user Permission.read.verb address.workspace
        .read (store.available caller workspace)))
    else .ok workspace

def startIn (store : Store) (address : ResolvedAddress) : Except FailureCause Located :=
  match store.locateIn? address with
  | none => .error (.noSuchObject address.workspace)
  | some head =>
    if head.object.deleted then .error (.objectDeleted address.workspace) else .ok head

def headAlone (store : Store) (caller : Caller) (address : Address) :
    Except FailureCause Located :=
  match store.workspaceAlone caller address with
  | .error cause => .error cause
  | .ok workspace => store.startIn (address.resolveIn workspace)

def accepts (store : Store) (caller : Caller) (previous : Reference) (hop : Located) : Bool :=
  store.mayRead caller hop.address.workspace && !hop.object.deleted ||
    store.refersTo previous hop.reference

-- Positions count from one.
def walkAlone (store : Store) (caller : Caller) (index : Nat) :
    Nat → Address → Located → List Address → Except FailureCause (Located × List Reference)
  | _, _, last, [] => .ok (last, [])
  | position, holder, previous, hop :: rest =>
    match (store.locate? hop).filter (store.accepts caller previous.reference) with
    | none => .error (.brokenPath index position holder hop)
    | some next =>
      (store.walkAlone caller index (position + 1) hop next rest).map fun walked =>
        (walked.1, next.reference :: walked.2)

def outcomeAlone (store : Store) (caller : Caller) (index : Nat) (address : Address) : Outcome :=
  match store.headAlone caller address with
  | .error cause => .error { object := address, cause }
  | .ok head =>
    match store.walkAlone caller index 1 address head address.hops with
    | .error cause => .error { object := address, cause }
    | .ok (last, walked) =>
      .ok
        { kind := if address.hasPath then .path else .direct
          object := last.shown
          path := head.reference :: walked }

-- What the world may read does not count.
def opens (store : Store) (caller : Caller) (reference : Reference) : Bool :=
  (store.workspaces.get? reference.workspace).any fun record =>
    !record.deleted && (caller.asAdmin || .read ≤ record.userPermission caller.user) &&
      (store.object? reference).any fun object => !object.deleted

def outcomeFound (store : Store) (caller : Caller) (searched : SearchResult) (address : Address) :
    Outcome :=
  match store.locate? address with
  | none => .error { object := address, cause := .inaccessible caller.user }
  | some target =>
    if store.opens caller target.reference then
      .ok { kind := .path, object := target.shown, path := [target.reference] }
    else
      match searched.paths.get? target.reference with
      | some path => .ok { kind := .path, object := target.shown, path }
      | none =>
        if searched.limitReached then .error { object := address, cause := .searchLimitExceeded }
        else .error { object := address, cause := .inaccessible caller.user }

def progressOf (store : Store) (caller : Caller) (index : Nat) (address : Address) : Progress :=
  if address.isLookup then
    match store.locate? address with
    | none => .settled (.error { object := address, cause := .inaccessible caller.user })
    | some target =>
      if store.opens caller target.reference then
        .settled (.ok { kind := .path, object := target.shown, path := [target.reference] })
      else .searching target.address target.reference
  else .settled (store.outcomeAlone caller index address)

def outcomeOf (store : Store) (caller : Caller) (searched : SearchResult) (index : Nat)
    (address : Address) : Outcome :=
  if address.isLookup then store.outcomeFound caller searched address
  else store.outcomeAlone caller index address

def searchTarget? (store : Store) (caller : Caller) (address : Address) : Option Reference :=
  if address.isLookup then
    ((store.locate? address).map Located.reference).filter fun target =>
      !store.opens caller target
  else none

variable {store : Store}

theorem locateIn?_eq_some {address : ResolvedAddress} {located : Located}
    (found : store.locateIn? address = some located) :
    located.address = address ∧
      store.stored? address = some (located.reference, located.object) := by
  obtain ⟨stored, present, rfl⟩ := Option.map_eq_some_iff.mp found
  exact ⟨rfl, present⟩

theorem locateIn?_object {address : ResolvedAddress} {located : Located}
    (found : store.locateIn? address = some located) :
    located.reference.workspace = address.workspace.id ∧
      store.object? located.reference = some located.object :=
  stored?_eq_some (locateIn?_eq_some found).2

theorem locate?_eq_some {address : Address} {located : Located}
    (found : store.locate? address = some located) :
    ∃ workspace, store.workspace? address.workspace = some workspace ∧
      store.locateIn? (address.resolveIn workspace) = some located := by
  exact Option.bind_eq_some_iff.mp found

theorem workspaceAlone_ok {caller : Caller} {address : Address} {workspace : ResolvedWorkspace}
    (entered : store.workspaceAlone caller address = .ok workspace) :
    store.workspace? address.workspace = some workspace ∧
      store.mayRead caller workspace = true := by
  simp only [workspaceAlone] at entered
  cases resolved : store.workspace? address.workspace with
  | none => simp [resolved] at entered
  | some found =>
    cases live : found.deleted with
    | true => simp [resolved, live] at entered
    | false =>
      by_cases denied : caller.asAdmin = false ∧ store.available caller found < .read
      · simp [resolved, live, denied] at entered
      · simp only [resolved, live, denied, Bool.false_eq_true, if_false, Except.ok.injEq] at entered
        subst entered
        refine ⟨rfl, ?_⟩
        rw [Permission.lt_iff] at denied
        simp only [mayRead, live, Bool.not_false, Bool.true_and, Bool.or_eq_true,
          decide_eq_true_eq, Permission.le_iff]
        cases admin : caller.asAdmin with
        | true => exact .inl rfl
        | false => exact .inr (Nat.le_of_not_lt fun less => denied ⟨admin, less⟩)

theorem workspaceAlone_of_mayRead {caller : Caller} {address : Address}
    {workspace : ResolvedWorkspace} (resolved : store.workspace? address.workspace = some workspace)
    (readable : store.mayRead caller workspace = true) :
    store.workspaceAlone caller address = .ok workspace := by
  simp only [mayRead, Bool.and_eq_true, Bool.not_eq_true', Bool.or_eq_true,
    decide_eq_true_eq] at readable
  have allowed : ¬ (caller.asAdmin = false ∧ store.available caller workspace < .read) := by
    intro given
    rcases readable.2 with admin | enough
    · simp [admin] at given
    · rw [Permission.le_iff] at enough
      have less := Permission.lt_iff.mp given.2
      omega
  simp [workspaceAlone, resolved, readable.1, allowed]

theorem startIn_ok {address : ResolvedAddress} {head : Located}
    (started : store.startIn address = .ok head) :
    store.locateIn? address = some head ∧ head.object.deleted = false := by
  simp only [startIn] at started
  cases found : store.locateIn? address with
  | none => simp [found] at started
  | some located =>
    simp only [found] at started
    split at started
    · cases started
    next live =>
      cases started
      exact ⟨rfl, by simpa using live⟩

theorem walkAlone_cons_ok {caller : Caller} {index position : Nat} {holder hop : Address}
    {previous last : Located} {rest : List Address} {walked : List Reference}
    (ran : store.walkAlone caller index position holder previous (hop :: rest) =
      .ok (last, walked)) :
    ∃ next further, store.locate? hop = some next ∧
      store.accepts caller previous.reference next = true ∧
      store.walkAlone caller index (position + 1) hop next rest = .ok (last, further) ∧
      walked = next.reference :: further := by
  simp only [walkAlone] at ran
  cases accepted : (store.locate? hop).filter (store.accepts caller previous.reference) with
  | none => simp [accepted] at ran
  | some next =>
    obtain ⟨found, justified⟩ := Option.filter_eq_some_iff.mp accepted
    simp only [accepted, Except.map] at ran
    cases further : store.walkAlone caller index (position + 1) hop next rest with
    | error cause => simp [further] at ran
    | ok walk =>
      simp only [further, Except.ok.injEq, Prod.mk.injEq] at ran
      obtain ⟨rfl, rfl⟩ := ran
      exact ⟨next, walk.2, found, justified, further, rfl⟩

theorem walkAlone_getLast? {caller : Caller} {index position : Nat} {holder : Address}
    {previous last : Located} {hops : List Address} {walked : List Reference}
    (ran : store.walkAlone caller index position holder previous hops = .ok (last, walked)) :
    (previous.reference :: walked).getLast? = some last.reference := by
  induction hops generalizing position holder previous walked with
  | nil =>
    cases ran
    rfl
  | cons hop rest ih =>
    obtain ⟨next, further, _, _, onward, rfl⟩ := walkAlone_cons_ok ran
    have tail := ih onward
    simpa using tail

theorem walkAlone_last {caller : Caller} {index position : Nat} {holder : Address}
    {previous last : Located} {hops : List Address} {walked : List Reference}
    (ran : store.walkAlone caller index position holder previous hops = .ok (last, walked)) :
    last = previous ∨ ∃ hop ∈ hops, store.locate? hop = some last := by
  induction hops generalizing position holder previous walked with
  | nil =>
    cases ran
    exact .inl rfl
  | cons hop rest ih =>
    obtain ⟨next, further, found, _, onward, _⟩ := walkAlone_cons_ok ran
    rcases ih onward with rfl | ⟨later, mem, found⟩
    · exact .inr ⟨hop, List.mem_cons_self, found⟩
    · exact .inr ⟨later, List.mem_cons_of_mem _ mem, found⟩

theorem read_of_opens {user : Option User} {reference : Reference}
    (opened : store.opens ⟨user, false⟩ reference = true) :
    .read ≤ (store.grantOn user reference.workspace).effective := by
  simp only [opens, Option.any_eq_true, Bool.and_eq_true, Bool.or_eq_true, Bool.not_eq_true',
    decide_eq_true_eq, Bool.false_eq_true, false_or] at opened
  obtain ⟨record, present, ⟨_, own⟩, _⟩ := opened
  rw [Grant.read_le_effective]
  exact .inl (by simpa [grantOn, present, WorkspaceRecord.grant] using own)

theorem opens_eq {key : WorkspaceKey} {address : ResolvedAddress}
    (resolved : store.workspace? key = some address.workspace) {located : Located}
    (found : store.locateIn? address = some located) (caller : Caller) :
    store.opens caller located.reference =
      (!address.workspace.deleted &&
        (caller.asAdmin || .read ≤ (store.grantOn caller.user address.workspace.id).user) &&
        !located.object.deleted) := by
  obtain ⟨record, _, present, shown⟩ := workspace?_eq_some resolved
  obtain ⟨in_workspace, held⟩ := locateIn?_object found
  have deleted : address.workspace.deleted = record.deleted := by
    rw [shown]
    rfl
  have granted : (store.grantOn caller.user address.workspace.id).user =
      record.userPermission caller.user := by
    simp [grantOn, present, WorkspaceRecord.grant]
  simp [opens, in_workspace, present, held, deleted, granted]

end Store

end ObjectSpace
