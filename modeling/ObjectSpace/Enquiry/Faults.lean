import ObjectSpace.Enquiry

set_option autoImplicit false

namespace ObjectSpace

inductive QueryKind where
  | resolveWorkspaces
  | permissions
  | allPermissions
  | objectReferences
  | objectStates
  | incomingReferences
  deriving DecidableEq, Repr

def Query.kind : Query → QueryKind
  | .resolveWorkspaces _ _ => .resolveWorkspaces
  | .permissions _ _ => .permissions
  | .allPermissions _ _ _ => .allPermissions
  | .objectReferences _ => .objectReferences
  | .objectStates _ => .objectStates
  | .incomingReferences _ => .incomingReferences

def QueryKind.name : QueryKind → String
  | .resolveWorkspaces => "resolve_workspaces"
  | .permissions => "get_permissions"
  | .allPermissions => "get_all_permissions"
  | .objectReferences => "get_object_reference"
  | .objectStates => "get_object_states"
  | .incomingReferences => "get_incoming_references"

def QueryKind.all : List QueryKind :=
  [.resolveWorkspaces, .permissions, .allPermissions, .objectReferences, .objectStates,
    .incomingReferences]

structure Faults where
  failures : List (QueryKind × Nat) := []
  hiddenWorkspaces : List WorkspaceKey := []
  hiddenObjects : List Reference := []
  states : Table Reference (Option ObjectState) := .empty
  referrers : Table Reference (List Reference) := .empty

namespace Faults

def state (faults : Faults) (store : Store) (reference : Reference) : Option ObjectState :=
  match faults.states.get? reference with
  | some state => state
  | none => store.stateOf reference

def referrersOf (faults : Faults) (store : Store) (reference : Reference) : List Reference :=
  ((store.incoming.get? reference).getD [] ++ (faults.referrers.get? reference).getD []).eraseDups

def answer (faults : Faults) (store : Store) : (query : Query) → Reply query
  | .resolveWorkspaces keys suppress => do
    let answer ← store.resolveWorkspaces suppress keys
    return faults.hiddenWorkspaces.foldl (fun table key => table.erase key) answer
  | .objectReferences addresses => do
    let answer ← store.objectReferences addresses
    return Table.collect addresses fun address =>
      (answer.get? address).filter fun reference => reference ∉ faults.hiddenObjects
  | .objectStates references => .ok (Table.collect references (faults.state store))
  | .incomingReferences references => .ok (Table.tabulate references (faults.referrersOf store))
  | .permissions user workspaces => store.permissions user workspaces
  | .allPermissions user minimum world => store.allPermissions user minimum world

-- A question that fails is recorded too.
def respond (faults : Faults) (store : Store) (query : Query) (asked : List Query) :
    Reply query × List Query :=
  let asked := asked ++ [query]
  let count := asked.countP fun other => other.kind = query.kind
  if (query.kind, count) ∈ faults.failures then
    (.error (.backend ("injected " ++ query.kind.name)), asked)
  else (faults.answer store query, asked)

end Faults

end ObjectSpace
