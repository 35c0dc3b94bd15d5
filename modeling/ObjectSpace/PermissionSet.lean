import ObjectSpace.Permission.Parse
import ObjectSpace.Table
import ObjectSpace.User
import ObjectSpace.Workspace

set_option autoImplicit false

namespace ObjectSpace

structure Grant where
  user : Permission := .none
  world : Permission := .none
  deriving DecidableEq, Repr

def Grant.effective (grant : Grant) : Permission := max grant.user grant.world

structure PermissionSet where
  user : Option User
  everyone : Everyone := {}
  grants : Table ResolvedWorkspace Grant := .empty

namespace PermissionSet

def hasWorkspace (set : PermissionSet) (workspace : ResolvedWorkspace) : Bool :=
  set.grants.contains workspace

def grant (set : PermissionSet) (workspace : ResolvedWorkspace) : Grant :=
  (set.grants.get? workspace).getD {}

def permission (set : PermissionSet) (workspace : ResolvedWorkspace) : Permission :=
  (set.grant workspace).effective

def userPermission (set : PermissionSet) (workspace : ResolvedWorkspace) : Permission :=
  (set.grant workspace).user

def isWorldReadable (set : PermissionSet) (workspace : ResolvedWorkspace) : Bool :=
  (set.grant workspace).world.isReadable

def hasPermission (set : PermissionSet) (workspace : ResolvedWorkspace)
    (permission : Permission) : Bool :=
  permission ≤ set.permission workspace

def hasUserPermission (set : PermissionSet) (workspace : ResolvedWorkspace)
    (permission : Permission) : Bool :=
  permission ≤ set.userPermission workspace

def workspaces (set : PermissionSet) : List ResolvedWorkspace := set.grants.keys

-- The duplicate check wins over all others.
def takeReadable (set : PermissionSet) (workspace : ResolvedWorkspace) (grant : Grant) :
    Except ValueError Unit × PermissionSet :=
  if set.hasWorkspace workspace then (.error (.permissionsAlreadySet workspace.id), set)
  else if !grant.world.isWorldGrantable then (.error (.illegalWorldPermission grant.world), set)
  else if set.user = none ∧ grant.user ≠ .none then (.error .anonymousUserPermission, set)
  else if grant.user = .none ∧ grant.world = .none then (.error .unreadableWorkspace, set)
  else (.ok (), { set with grants := set.grants.insert workspace grant })

def takeUnreadable (set : PermissionSet) (workspace : ResolvedWorkspace) :
    Except ValueError Unit × PermissionSet :=
  if set.hasWorkspace workspace then (.error (.permissionsAlreadySet workspace.id), set)
  else (.ok (), { set with grants := set.grants.insert workspace {} })

def addReadable (set : PermissionSet) (workspace : ResolvedWorkspace) (grant : Grant) :
    Except ValueError PermissionSet :=
  match set.takeReadable workspace grant with
  | (.ok (), next) => .ok next
  | (.error cause, _) => .error cause

def addUnreadable (set : PermissionSet) (workspace : ResolvedWorkspace) :
    Except ValueError PermissionSet :=
  match set.takeUnreadable workspace with
  | (.ok (), next) => .ok next
  | (.error cause, _) => .error cause

end PermissionSet

end ObjectSpace
