import ObjectSpace.Resolution.Config
import ObjectSpace.Resolution.Search

set_option autoImplicit false

namespace ObjectSpace

inductive ResolutionKind where
  | direct
  | path
  deriving DecidableEq, Repr

def ResolutionKind.name : ResolutionKind → String
  | .direct => "DIRECT"
  | .path => "PATH"

structure Resolution where
  kind : ResolutionKind
  object : ResolvedObject
  path : List Reference
  deriving DecidableEq

abbrev Outcome := Except Failure Resolution

structure Resolutions where
  outcomes : List (Address × Outcome)

namespace Resolutions

def of (objects : List Address) (written : Table Address Outcome) : Resolutions where
  outcomes := objects.filterMap fun object => (written.get? object).map fun outcome =>
    (object, outcome)

def objects (resolutions : Resolutions) : List Address := resolutions.outcomes.map Prod.fst

def outcome? (resolutions : Resolutions) (object : Address) : Option Outcome :=
  (resolutions.outcomes.find? fun entry => entry.1 = object).map Prod.snd

def resolution? (resolutions : Resolutions) (object : Address) : Option Resolution :=
  match resolutions.outcome? object with
  | some (.ok resolution) => some resolution
  | _ => none

def failure? (resolutions : Resolutions) (object : Address) : Option Failure :=
  match resolutions.outcome? object with
  | some (.error failure) => some failure
  | _ => none

def failures (resolutions : Resolutions) : List Failure :=
  resolutions.outcomes.filterMap fun entry =>
    match entry.2 with
    | .ok _ => none
    | .error failure => some failure

def resolvedObjects (resolutions : Resolutions) (kind : ResolutionKind) :
    List (Address × ResolvedObject) :=
  resolutions.outcomes.filterMap fun entry =>
    match entry.2 with
    | .ok resolution => if resolution.kind = kind then some (entry.1, resolution.object) else none
    | .error _ => none

def isComplete (resolutions : Resolutions) : Bool := resolutions.failures.isEmpty

end Resolutions

structure Snapshot where
  user : Option User
  workspaces : Table WorkspaceKey ResolvedWorkspace
  -- Nothing for an administrator.
  permissions : Option PermissionSet

namespace Snapshot

def isReadable (snapshot : Snapshot) (workspace : ResolvedWorkspace) : Bool :=
  !workspace.deleted && snapshot.permissions.all fun set => set.hasPermission workspace .read

def isUserReadable (snapshot : Snapshot) (workspace : ResolvedWorkspace) : Bool :=
  !workspace.deleted && snapshot.permissions.all fun set => set.hasUserPermission workspace .read

def readableWorkspace (snapshot : Snapshot) (object : Address) :
    Except FailureCause ResolvedWorkspace :=
  match snapshot.workspaces.get? object.workspace with
  | none => .error (.noSuchWorkspace (.noSuchWorkspace object.workspace))
  | some workspace =>
    if workspace.deleted then .error (.noSuchWorkspace (.workspaceDeleted object.workspace))
    else
      match snapshot.permissions with
      | none => .ok workspace
      | some set =>
        match checkPermission snapshot.user .read (set.permission workspace) object.workspace
            Permission.read.verb with
        | .ok () => .ok workspace
        | .error denial => .error (.unauthorized denial)

-- The workspace has to be readable unless the object is searched for.
def head (snapshot : Snapshot) (object : Address) : Except FailureCause ResolvedAddress :=
  if object.isLookup then
    match snapshot.workspaces.get? object.workspace with
    | none => .error (.inaccessible snapshot.user)
    | some workspace => .ok (object.resolveIn workspace)
  else (snapshot.readableWorkspace object).map object.resolveIn

def refusal? (snapshot : Snapshot) (object : Address) : Option Outcome :=
  match snapshot.head object with
  | .ok _ => none
  | .error cause => some (.error { object, cause })

def hop? (snapshot : Snapshot) (hop : Address) : Option ResolvedAddress :=
  (snapshot.workspaces.get? hop.workspace).map hop.resolveIn

def hops (snapshot : Snapshot) (object : Address) : List ResolvedAddress :=
  match snapshot.head object with
  | .ok _ => object.hops.filterMap snapshot.hop?
  | .error _ => []

end Snapshot

structure Findings where
  snapshot : Snapshot
  references : Table ResolvedAddress Reference
  states : Table Reference ObjectState

namespace Findings

def isLive (findings : Findings) (reference : Reference) : Bool :=
  (findings.states.get? reference).any fun state => !state.deleted

def isDirectlyReadable (findings : Findings) (address : ResolvedAddress) (reference : Reference) :
    Bool :=
  findings.snapshot.isReadable address.workspace && findings.isLive reference

def known? (findings : Findings) (address : ResolvedAddress) : Option Reference :=
  (findings.references.get? address).filter findings.states.contains

def resolution (findings : Findings) (kind : ResolutionKind) (target : ResolvedAddress)
    (path : List Reference) : Except ResolveError Resolution :=
  match path.getLast? with
  | none => .error (.store (.corrupt .emptyPath))
  | some reference =>
    match findings.states.get? reference with
    | none => .error (.store (.corrupt (.missingState reference)))
    | some state =>
      match ResolvedObject.make target.workspace reference.object reference.version state.name
          state.deleted with
      | .ok object => .ok { kind, object, path }
      | .error cause => .error (.value cause)

def headReference (findings : Findings) (head : ResolvedAddress) : Except FailureCause Reference :=
  match findings.known? head with
  | none => .error (.noSuchObject head.workspace)
  | some reference =>
    if findings.isLive reference then .ok reference else .error (.objectDeleted head.workspace)

-- Readable, or referred to by the element before.
def accept (findings : Findings) (incoming : Table Reference (List Reference))
    (previous : Reference) (hop : Address) : Option (ResolvedAddress × Reference) := do
  let address ← findings.snapshot.hop? hop
  let reference ← findings.known? address
  let isReferred := (incoming.get? reference).any fun referrers => previous ∈ referrers
  if findings.isDirectlyReadable address reference || isReferred then some (address, reference)
  else none

def walk (findings : Findings) (incoming : Table Reference (List Reference)) (index : Nat) :
    Nat → Address → ResolvedAddress → Reference → List Address →
      Except FailureCause (ResolvedAddress × List Reference)
  | _, _, target, _, [] => .ok (target, [])
  | position, holder, _, previous, hop :: rest =>
    match findings.accept incoming previous hop with
    | none => .error (.brokenPath index position holder hop)
    | some (address, reference) => do
      let (target, walked) ←
        findings.walk incoming index (position + 1) hop address reference rest
      return (target, reference :: walked)

def path (findings : Findings) (incoming : Table Reference (List Reference)) (index : Nat)
    (object : Address) (head : ResolvedAddress) (hops : List Address) :
    Except FailureCause (ResolvedAddress × List Reference) := do
  let first ← findings.headReference head
  let (target, walked) ← findings.walk incoming index 1 object head first hops
  return (target, first :: walked)

def unreadable (findings : Findings) (hops : List ResolvedAddress) : List Reference :=
  (hops.filterMap fun hop =>
    (findings.references.get? hop).filter fun reference =>
      !findings.isDirectlyReadable hop reference).eraseDups

end Findings

inductive Progress where
  | settled (outcome : Outcome)
  | searching (head : ResolvedAddress) (target : Reference)

structure Settling where
  outcomes : Table Address Outcome
  searches : List (Address × ResolvedAddress × Reference) := []

structure Resolver where
  user : Option User
  objects : List Address
  config : ResolverConfig := {}
  distinct : objects.Nodup := by simp

namespace Resolver

-- Repeated addresses count once.
def make (user : Option User) (objects : List Address) (config : ResolverConfig) :
    Except ResolveError Resolver :=
  if objects = [] then .error .noObjects
  else
    match config.validate with
    | .error cause => .error (.config cause)
    | .ok () => .ok { user, objects := objects.eraseDups, config }

def snapshot (resolver : Resolver) : Enquiry ResolveError Snapshot := do
  let named := resolver.objects.flatMap fun object => object :: object.hops
  let workspaces ←
    Enquiry.query (.resolveWorkspaces (named.map Address.workspace).eraseDups true)
  if resolver.config.asAdmin then
    return { user := resolver.user, workspaces, permissions := none }
  else do
    let live := (workspaces.values.filter fun workspace => !workspace.deleted).eraseDups
    let permissions ← Enquiry.query (.permissions resolver.user live)
    return { user := resolver.user, workspaces, permissions := some permissions }

def referencesOf (addresses : List ResolvedAddress) :
    Enquiry ResolveError (Table ResolvedAddress Reference) :=
  if addresses = [] then pure .empty else Enquiry.query (.objectReferences addresses)

def referrersOf (references : List Reference) :
    Enquiry ResolveError (Table Reference (List Reference)) :=
  if references = [] then pure .empty else Enquiry.query (.incomingReferences references)

def settle (object : Address) (found : Except FailureCause (Except ResolveError Resolution)) :
    Except ResolveError Outcome :=
  match found with
  | .error cause => .ok (.error { object, cause })
  | .ok resolution => resolution.map .ok

def progress (findings : Findings) (incoming : Table Reference (List Reference)) (object : Address)
    (index : Nat) : Except ResolveError Progress :=
  match findings.snapshot.head object with
  | .error cause => .ok (.settled (.error { object, cause }))
  | .ok head =>
    match object.locator with
    | .direct =>
      (settle object ((findings.headReference head).map fun reference =>
        findings.resolution .direct head [reference])).map .settled
    | .path hops =>
      (settle object ((findings.path incoming index object head hops).map fun found =>
        findings.resolution .path found.1 found.2)).map .settled
    | .lookup =>
      match findings.known? head with
      | none =>
        .ok (.settled (.error { object, cause := .inaccessible findings.snapshot.user }))
      | some reference =>
        if findings.snapshot.isUserReadable head.workspace && findings.isLive reference then
          (settle object (.ok (findings.resolution .path head [reference]))).map .settled
        else .ok (.searching head reference)

def settleNext (findings : Findings) (incoming : Table Reference (List Reference))
    (settling : Settling) (entry : Address × Nat) : Except ResolveError Settling :=
  match findings.snapshot.head entry.1 with
  | .error _ => .ok settling
  | .ok _ => do
    match ← progress findings incoming entry.1 (entry.2 + 1) with
    | .settled outcome =>
      return { settling with outcomes := settling.outcomes.insert entry.1 outcome }
    | .searching head target =>
      return { settling with searches := settling.searches ++ [(entry.1, head, target)] }

def readableWorkspaces (resolver : Resolver) : Enquiry ResolveError ReadableWorkspaces :=
  if resolver.config.asAdmin then return .all
  else do
    let set ← Enquiry.query (.allPermissions resolver.user .read false)
    return .only (set.workspaces.map ResolvedWorkspace.id)

def search (resolver : Resolver) (targets : List Reference) : Enquiry ResolveError SearchResult :=
  if targets = [] then return {}
  else do
    let readable ← resolver.readableWorkspaces
    Search.run readable resolver.config.maxSearchCount targets

def conclude (findings : Findings) (searched : SearchResult) (object : Address) :
    Progress → Except ResolveError Outcome
  | .settled outcome => .ok outcome
  | .searching head target =>
    settle object <|
      match searched.paths.get? target with
      | some path => .ok (findings.resolution .path head path)
      | none =>
        if searched.limitReached then .error .searchLimitExceeded
        else .error (.inaccessible findings.snapshot.user)

def concludeNext (findings : Findings) (searched : SearchResult)
    (outcomes : Table Address Outcome) (entry : Address × ResolvedAddress × Reference) :
    Except ResolveError (Table Address Outcome) := do
  return outcomes.insert entry.1
    (← conclude findings searched entry.1 (.searching entry.2.1 entry.2.2))

-- Three passes: refused at once, settled without a search, searched for.
def resolve (resolver : Resolver) : Enquiry ResolveError Resolutions := do
  let snapshot ← resolver.snapshot
  let refused := Table.collect resolver.objects snapshot.refusal?
  let heads := resolver.objects.filterMap fun object => (snapshot.head object).toOption
  let hops := (resolver.objects.flatMap snapshot.hops).eraseDups
  let references ← referencesOf (heads ++ hops).eraseDups
  let states ← Search.statesOf references.values.eraseDups
  let findings : Findings := { snapshot, references, states }
  let incoming ← referrersOf (findings.unreadable hops)
  let settling ← Enquiry.ofExcept <|
    resolver.objects.zipIdx.foldlM (settleNext findings incoming) { outcomes := refused }
  let searched ← resolver.search (settling.searches.map fun entry => entry.2.2)
  let outcomes ← Enquiry.ofExcept <|
    settling.searches.foldlM (concludeNext findings searched) settling.outcomes
  return .of resolver.objects outcomes

end Resolver

end ObjectSpace
