import ObjectSpace.Permission.Basic
import ObjectSpace.User
import ObjectSpace.Workspace

set_option autoImplicit false

namespace ObjectSpace

inductive Denial where
  | locked (workspace : ResolvedWorkspace)
  | insufficient (user : Option User) (operation : String) (workspace : WorkspaceKey)
      (required available : Permission)
  deriving DecidableEq, Repr

namespace Denial

def workspace : Denial → WorkspaceKey
  | .locked workspace => workspace.key
  | .insufficient _ _ workspace _ _ => workspace

def actor : Option User → String
  | some user => "User " ++ user.name
  | none => "Anonymous users"

def message : Denial → String
  | .locked workspace =>
      "The workspace with id " ++ toString workspace.id ++ ", name " ++ workspace.name
        ++ ", is locked and may not be modified"
  | .insufficient user operation workspace _ _ =>
      actor user ++ " may not " ++ operation ++ " workspace " ++ workspace.toString

end Denial

def checkLocked (required : Permission) (workspace : ResolvedWorkspace) : Except Denial Unit :=
  if Permission.read < required ∧ workspace.locked then .error (.locked workspace) else .ok ()

def checkPermission (user : Option User) (required available : Permission)
    (workspace : WorkspaceKey) (operation : String) : Except Denial Unit :=
  if available < required then
    .error (.insufficient user operation workspace required available)
  else .ok ()

theorem checkPermission_ok_iff {user : Option User} {required available : Permission}
    {workspace : WorkspaceKey} {operation : String} :
    checkPermission user required available workspace operation = .ok () ↔
      required ≤ available := by
  simp only [checkPermission, Permission.lt_iff, Permission.le_iff]
  split <;> simp_all

end ObjectSpace
