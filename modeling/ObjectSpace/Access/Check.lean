import ObjectSpace.Access.Denial
import ObjectSpace.Enquiry

set_option autoImplicit false

namespace ObjectSpace

inductive CheckError where
  | noWorkspaces
  | noObjects
  | emptyOperation
  | unauthorized (denial : Denial)
  | inaccessibleObject (object : Address) (cause : CheckError)
  | store (cause : StoreError)
  deriving DecidableEq

namespace CheckError

instance : OfStoreError CheckError := ⟨.store⟩

def message : CheckError → String
  | .noWorkspaces => "No workspace identifiers provided"
  | .noObjects => "No object identifiers provided"
  | .emptyOperation => "operation cannot be null or the empty string"
  | .unauthorized denial => denial.message
  | .inaccessibleObject object cause =>
      "Object " ++ object.object.toString ++ " cannot be accessed: " ++ cause.message
  | .store cause => cause.message

def denial? : CheckError → Option Denial
  | .unauthorized denial => some denial
  | .inaccessibleObject _ cause => cause.denial?
  | _ => none

end CheckError

structure Demand where
  user : Option User
  permission : Permission
  operation : String := permission.verb

namespace Demand

def withOperation (demand : Demand) (operation : String) : Except CheckError Demand :=
  if Text.trim operation.toList = [] then .error .emptyOperation
  else .ok { demand with operation }

-- The lock is checked before the permission.
def grants (demand : Demand) (permissions : PermissionSet) (key : WorkspaceKey)
    (workspace : ResolvedWorkspace) : Except CheckError Unit := do
  (checkLocked demand.permission workspace).mapError .unauthorized
  (checkPermission demand.user demand.permission (permissions.permission workspace) key
    demand.operation).mapError .unauthorized

def permissionsOn (demand : Demand) (resolved : Table WorkspaceKey ResolvedWorkspace) :
    Enquiry CheckError PermissionSet :=
  Enquiry.query (.permissions demand.user resolved.values.eraseDups)

end Demand

structure WorkspaceCheck where
  demand : Demand
  workspaces : List WorkspaceKey

namespace WorkspaceCheck

def make (demand : Demand) (workspaces : List WorkspaceKey) : Except CheckError WorkspaceCheck :=
  if workspaces = [] then .error .noWorkspaces
  else .ok { demand, workspaces := workspaces.eraseDups }

def grantsOne (check : WorkspaceCheck) (resolved : Table WorkspaceKey ResolvedWorkspace)
    (permissions : PermissionSet) (key : WorkspaceKey) : Except CheckError Unit :=
  match resolved.get? key with
  | none => .error (.store (.noSuchWorkspace key))
  | some workspace => check.demand.grants permissions key workspace

def run (check : WorkspaceCheck) : Enquiry CheckError (Table WorkspaceKey ResolvedWorkspace) := do
  let resolved ← Enquiry.query (.resolveWorkspaces check.workspaces.eraseDups false)
  let permissions ← check.demand.permissionsOn resolved
  Enquiry.ofExcept (check.workspaces.forM (check.grantsOne resolved permissions))
  return resolved

def runSingle (demand : Demand) (workspace : WorkspaceKey) :
    Enquiry CheckError ResolvedWorkspace := do
  let resolved ← run { demand, workspaces := [workspace] }
  match resolved.get? workspace with
  | some found => return found
  | none => throw (.store (.noSuchWorkspace workspace))

end WorkspaceCheck

structure ObjectCheck where
  demand : Demand
  objects : List Address
  suppressErrors : Bool := false
  includeDeleted : Bool := false

namespace ObjectCheck

def make (demand : Demand) (objects : List Address) : Except CheckError ObjectCheck :=
  if objects = [] then .error .noObjects else .ok { demand, objects := objects.eraseDups }

def grantedWorkspace (check : ObjectCheck) (resolved : Table WorkspaceKey ResolvedWorkspace)
    (permissions : PermissionSet) (object : Address) : Except CheckError ResolvedWorkspace :=
  match resolved.get? object.workspace with
  | none => .error (.store (.noSuchWorkspace object.workspace))
  | some workspace => do
    if workspace.deleted && !check.includeDeleted then
      throw (.store (.workspaceDeleted object.workspace))
    check.demand.grants permissions object.workspace workspace
    return workspace

def addObject (check : ObjectCheck) (resolved : Table WorkspaceKey ResolvedWorkspace)
    (permissions : PermissionSet) (answer : Table Address ResolvedAddress) (object : Address) :
    Except CheckError (Table Address ResolvedAddress) :=
  match check.grantedWorkspace resolved permissions object with
  | .ok workspace => .ok (answer.insert object (object.resolveIn workspace))
  | .error cause =>
    if check.suppressErrors then .ok answer else .error (.inaccessibleObject object cause)

def run (check : ObjectCheck) : Enquiry CheckError (Table Address ResolvedAddress) := do
  let keys := (check.objects.map Address.workspace).eraseDups
  let resolved ← Enquiry.query (.resolveWorkspaces keys true)
  let permissions ← check.demand.permissionsOn resolved
  Enquiry.ofExcept (check.objects.foldlM (check.addObject resolved permissions) .empty)

def runSingle (demand : Demand) (object : Address) : Enquiry CheckError ResolvedAddress := do
  let answer ← run { demand, objects := [object] }
  match answer.get? object with
  | some found => return found
  | none => throw (.store (.noSuchWorkspace object.workspace))

end ObjectCheck

end ObjectSpace
