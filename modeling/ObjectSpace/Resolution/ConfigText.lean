import ObjectSpace.Resolution.Config
import ObjectSpace.Toml.Read

set_option autoImplicit false

namespace ObjectSpace

namespace Toml

def withDefault {α : Type} (members : Members) (name : String) (decode : Toml → Option α)
    (default : α) : Option α :=
  match Table.lookup name members with
  | some value => decode value
  | none => some default

def bool? : Toml → Option Bool
  | .bool value => some value
  | _ => none

def nat? : Toml → Option Nat
  | .integer value => if 0 ≤ value then some value.toNat else none
  | _ => none

end Toml

namespace ResolverConfig

def ofToml? (members : Toml.Members) : Option ResolverConfig := do
  let defaults : ResolverConfig := {}
  return { maxSearchCount :=
             ← Toml.withDefault members "max_search_count" Toml.nat? defaults.maxSearchCount
           asAdmin := ← Toml.withDefault members "as_admin" Toml.bool? defaults.asAdmin }

def parse (text : String) : Except ResolveError ResolverConfig := do
  match (Toml.parse? text).bind ofToml? with
  | none => throw (.config .malformed)
  | some config =>
    config.validate.mapError .config
    return config

def toToml (config : ResolverConfig) : Except ResolveError String :=
  if config.maxSearchCount < Text.signedBound then
    .ok ("max_search_count = " ++ toString config.maxSearchCount ++ "\nas_admin = "
      ++ toString config.asAdmin ++ "\n")
  else .error (.config .tooLarge)

end ResolverConfig

end ObjectSpace
