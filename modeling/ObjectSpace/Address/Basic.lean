import ObjectSpace.Address.Error
import ObjectSpace.Address.Subset
import ObjectSpace.Reference
import ObjectSpace.Workspace

set_option autoImplicit false

namespace ObjectSpace

inductive ObjectKey where
  | name (text : String)
  | id (number : Nat)
  deriving DecidableEq, Repr

namespace ObjectKey

def name? : ObjectKey → Option String
  | .name text => some text
  | .id _ => none

def id? : ObjectKey → Option Nat
  | .name _ => none
  | .id number => some number

def toString : ObjectKey → String
  | .name text => text
  | .id number => ToString.toString number

instance : ToString ObjectKey := ⟨toString⟩

end ObjectKey

structure Target where
  workspace : WorkspaceKey
  object : ObjectKey
  version : Option Nat
  subset : Subset
  deriving DecidableEq, Repr

inductive Locator (α : Type) where
  | direct
  | path (hops : List α)
  | lookup

inductive Address where
  | mk (target : Target) (locator : Locator Address)

namespace Address

def target : Address → Target
  | .mk target _ => target

def locator : Address → Locator Address
  | .mk _ locator => locator

mutual

def same : Address → Address → Bool
  | .mk target .direct, .mk other .direct => target = other
  | .mk target .lookup, .mk other .lookup => target = other
  | .mk target (.path hops), .mk other (.path others) => target = other && sameAll hops others
  | _, _ => false

def sameAll : List Address → List Address → Bool
  | [], [] => true
  | hop :: hops, other :: others => same hop other && sameAll hops others
  | _, _ => false

end

mutual

theorem same_iff (left right : Address) : same left right = true ↔ left = right := by
  match left, right with
  | .mk _ .direct, .mk _ .direct => simp [same]
  | .mk _ .direct, .mk _ .lookup => simp [same]
  | .mk _ .direct, .mk _ (.path _) => simp [same]
  | .mk _ .lookup, .mk _ .direct => simp [same]
  | .mk _ .lookup, .mk _ .lookup => simp [same]
  | .mk _ .lookup, .mk _ (.path _) => simp [same]
  | .mk _ (.path _), .mk _ .direct => simp [same]
  | .mk _ (.path _), .mk _ .lookup => simp [same]
  | .mk _ (.path hops), .mk _ (.path others) => simp [same, sameAll_iff hops others]

theorem sameAll_iff (left right : List Address) : sameAll left right = true ↔ left = right := by
  match left, right with
  | [], [] => simp [sameAll]
  | [], _ :: _ => simp [sameAll]
  | _ :: _, [] => simp [sameAll]
  | hop :: hops, other :: others =>
    simp [sameAll, same_iff hop other, sameAll_iff hops others]

end

instance : DecidableEq Address := fun left right =>
  decidable_of_iff (same left right = true) (same_iff left right)

def workspace (address : Address) : WorkspaceKey := address.target.workspace

def object (address : Address) : ObjectKey := address.target.object

def version (address : Address) : Option Nat := address.target.version

def subset (address : Address) : Subset := address.target.subset

def hops (address : Address) : List Address :=
  match address.locator with
  | .path hops => hops
  | _ => []

def hasPath (address : Address) : Bool :=
  match address.locator with
  | .path _ => true
  | _ => false

def isLookup (address : Address) : Bool :=
  match address.locator with
  | .lookup => true
  | _ => false

def last (address : Address) : Except AddressError Address :=
  match address.hops.getLast? with
  | some hop => .ok hop
  | none => .error .noReferencePath

def toString (address : Address) : String :=
  address.workspace.toString ++ "/" ++ address.object.toString ++
    match address.version with
    | some version => "/" ++ ToString.toString version
    | none => ""

instance : ToString Address := ⟨toString⟩

def isAbsolute (address : Address) : Bool :=
  address.workspace.id?.isSome && address.object.id?.isSome

def reference? (address : Address) : Option Reference := do
  let workspace ← address.workspace.id?
  let object ← address.object.id?
  let version ← address.version
  (Reference.ofParts workspace object version).toOption

end Address

end ObjectSpace
