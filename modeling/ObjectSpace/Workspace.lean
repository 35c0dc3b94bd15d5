import ObjectSpace.Name

set_option autoImplicit false

namespace ObjectSpace

inductive WorkspaceKey where
  | id (number : Nat)
  | name (text : String)
  deriving DecidableEq, Repr

structure ResolvedWorkspace where
  id : Nat
  name : String
  locked : Bool
  deleted : Bool
  deriving DecidableEq, Repr

namespace WorkspaceKey

def ofId (number : Int) : Except ValueError WorkspaceKey :=
  if number < 1 then .error (.notPositive .workspaceId) else .ok (.id number.toNat)

def ofName (text : String) : Except ValueError WorkspaceKey := do
  Name.checkWorkspace text
  return .name text

def id? : WorkspaceKey → Option Nat
  | .id number => some number
  | .name _ => none

def name? : WorkspaceKey → Option String
  | .id _ => none
  | .name text => some text

def toString : WorkspaceKey → String
  | .id number => ToString.toString number
  | .name text => text

instance : ToString WorkspaceKey := ⟨toString⟩

def isMatch (key : WorkspaceKey) (workspace : ResolvedWorkspace) : Bool :=
  match key with
  | .id number => number == workspace.id
  | .name text => text == workspace.name

def le : WorkspaceKey → WorkspaceKey → Bool
  | .id left, .id right => left ≤ right
  | .id _, .name _ => true
  | .name _, .id _ => false
  | .name left, .name right => left ≤ right

end WorkspaceKey

namespace ResolvedWorkspace

def make (id : Nat) (name : String) (locked deleted : Bool) :
    Except ValueError ResolvedWorkspace := do
  if id < 1 then throw (.notPositive .workspaceId)
  Name.checkWorkspace name
  return { id, name, locked, deleted }

def key (workspace : ResolvedWorkspace) : WorkspaceKey := .id workspace.id

def toString (workspace : ResolvedWorkspace) : String :=
  "ResolvedWorkspaceId [id=" ++ ToString.toString workspace.id ++ ", name=" ++ workspace.name
    ++ ", locked=" ++ ToString.toString workspace.locked
    ++ ", deleted=" ++ ToString.toString workspace.deleted ++ "]"

instance : ToString ResolvedWorkspace := ⟨toString⟩

-- By id, then name, then the two flags, unset before set.
def le (left right : ResolvedWorkspace) : Bool :=
  if left.id ≠ right.id then left.id < right.id
  else if left.name ≠ right.name then left.name < right.name
  else if left.locked ≠ right.locked then right.locked
  else left.deleted ≤ right.deleted

end ResolvedWorkspace

end ObjectSpace
