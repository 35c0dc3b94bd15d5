import ObjectSpace.Address.Basic
import ObjectSpace.Name

set_option autoImplicit false

namespace ObjectSpace

structure ResolvedAddress where
  workspace : ResolvedWorkspace
  object : ObjectKey
  version : Option Nat
  deriving DecidableEq, Repr

namespace ResolvedAddress

def ofReference (workspace : ResolvedWorkspace) (reference : Reference) : ResolvedAddress where
  workspace := workspace
  object := .id reference.object
  version := some reference.version

def toString (address : ResolvedAddress) : String :=
  ToString.toString address.workspace.id ++ "/" ++ address.object.toString ++
    match address.version with
    | some version => "/" ++ ToString.toString version
    | none => ""

instance : ToString ResolvedAddress := ⟨toString⟩

end ResolvedAddress

def Address.resolveIn (address : Address) (workspace : ResolvedWorkspace) : ResolvedAddress where
  workspace := workspace
  object := address.object
  version := address.version

structure ResolvedObject where
  workspace : ResolvedWorkspace
  reference : Reference
  name : String
  deleted : Bool
  deriving DecidableEq

def ResolvedObject.make (workspace : ResolvedWorkspace) (id version : Nat) (name : String)
    (deleted : Bool) : Except ValueError ResolvedObject := do
  if id < 1 then throw (.notPositive .objectId)
  if version < 1 then throw (.notPositive .objectVersion)
  let reference ← Reference.ofParts workspace.id id version
  Name.checkObject name
  return { workspace, reference, name, deleted }

end ObjectSpace
