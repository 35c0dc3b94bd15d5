import ObjectSpace.Address.Basic
import ObjectSpace.Name
import ObjectSpace.Text.Decimal

set_option autoImplicit false

namespace ObjectSpace

structure AddressBuilder where
  workspace : WorkspaceKey
  object : Option ObjectKey := none
  version : Option Nat := none
  locator : Locator Address := .direct
  subset : Subset := {}

def Address.toBuilder (address : Address) : AddressBuilder where
  workspace := address.workspace
  object := some address.object
  version := address.version
  locator := address.locator
  subset := address.subset

namespace AddressBuilder

def name? (builder : AddressBuilder) : Option String := builder.object.bind ObjectKey.name?

def id? (builder : AddressBuilder) : Option Nat := builder.object.bind ObjectKey.id?

-- An exclusive name must not replace an id.
def withName (builder : AddressBuilder) (name : Option String) (exclusive : Bool := false) :
    Except AddressError AddressBuilder :=
  match name with
  | none => .ok builder
  | some name =>
    if exclusive ∧ builder.id?.isSome then .error (.nameOrId (some name) builder.id?)
    else
      match Name.checkObject name with
      | .error cause => .error (.value cause)
      | .ok () => .ok { builder with object := some (.name name) }

def withId (builder : AddressBuilder) (id : Option Int) (exclusive : Bool := false) :
    Except AddressError AddressBuilder :=
  match id with
  | none => .ok builder
  | some id =>
    if exclusive ∧ builder.name?.isSome then
      .error (.nameOrId builder.name? (if 0 ≤ id then some id.toNat else none))
    else if id < 1 then .error (.value (.notPositive .objectId))
    else .ok { builder with object := some (.id id.toNat) }

def withVersion (builder : AddressBuilder) (version : Option Int) :
    Except AddressError AddressBuilder :=
  match version with
  | none => .ok { builder with version := none }
  | some version =>
    if version < 1 then .error (.value (.notPositive .objectVersion))
    else if version.toNat < Text.versionBound then
      .ok { builder with version := some version.toNat }
    else .error (.value (.outOfRange .objectVersion version (Text.versionBound - 1)))

-- An empty path clears a path but not a lookup.
def withPath (builder : AddressBuilder) (hops : List Address) : AddressBuilder :=
  match hops, builder.locator with
  | [], .path _ => { builder with locator := .direct }
  | [], _ => builder
  | _, _ => { builder with locator := .path hops }

def withLookup (builder : AddressBuilder) (lookup : Bool) : AddressBuilder :=
  match lookup, builder.locator with
  | true, _ => { builder with locator := .lookup }
  | false, .lookup => { builder with locator := .direct }
  | false, _ => builder

def withSubset (builder : AddressBuilder) (subset : Option Subset) : AddressBuilder :=
  { builder with subset := subset.getD {} }

def build (builder : AddressBuilder) : Except AddressError Address :=
  match builder.object with
  | none => .error (.nameOrId none none)
  | some object =>
    .ok (.mk ⟨builder.workspace, object, builder.version, builder.subset⟩ builder.locator)

theorem build_toBuilder (address : Address) : address.toBuilder.build = .ok address := by
  cases address
  rfl

end AddressBuilder

end ObjectSpace
