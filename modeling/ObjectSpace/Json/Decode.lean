import ObjectSpace.Json.Read
import ObjectSpace.Reference.Cursor
import ObjectSpace.Resolution.Config
import ObjectSpace.Store.Fixture

set_option autoImplicit false

namespace ObjectSpace

namespace Json

structure Fields where
  values : List (Option Json)
  -- The record was written as an array.
  positional : Bool

def member? (members : List (String × Json)) (name : String) : Option (Option Json) :=
  match members.filter fun member => member.1 == name with
  | [] => some none
  | [member] => some (some member.2)
  | _ => none

def fields? (names : List String) : Json → Option Fields
  | .array items =>
    if names.length < items.length then none
    else some { values := names.zipIdx.map fun name => items[name.2]?, positional := true }
  | json => do
    let members ← json.members?
    return { values := ← names.mapM (member? members), positional := false }

namespace Fields

variable {α : Type}

def at? (fields : Fields) (place : Nat) : Option Json := (fields.values[place]?).join

def required (fields : Fields) (place : Nat) (decode : Json → Option α) : Option α :=
  (fields.at? place).bind decode

def withDefault (fields : Fields) (place : Nat) (decode : Json → Option α) (default : α) :
    Option α :=
  match fields.at? place with
  | some json => decode json
  | none => some default

def nullable (fields : Fields) (place : Nat) (decode : Json → Option α) : Option (Option α) :=
  match fields.at? place with
  | some .null => some none
  | some json => (decode json).map some
  | none => if fields.positional then none else some none

end Fields

end Json

open Json (Fields)

-- By its name, or as an object with the name and null.
def Permission.ofJson? : Json → Option Permission
  | .object [(.plain name, .null)] => ofName? name
  | json => json.text?.bind ofName?

def User.ofJson? (json : Json) : Option User := json.text?.map User.mk

def Everyone.ofJson? (json : Json) : Option Everyone := do
  let fields ← json.fields? ["symbol"]
  let symbol ← fields.required 0 Json.text?
  match symbol.toList with
  | [symbol] => some { symbol }
  | _ => none

def Reference.ofJson? (json : Json) : Option Reference :=
  json.text?.bind fun text => (Reference.parse text).toOption

def Cursor.ofJson? (json : Json) : Option Cursor := do
  let fields ← json.fields? ["workspace_id", "object_id", "version"]
  return { workspace := ← fields.nullable 0 (Json.below? Text.idBound)
           object := ← fields.nullable 1 (Json.below? Text.idBound)
           version := ← fields.nullable 2 (Json.below? Text.versionBound) }

def Subset.ofJson? (json : Json) : Option Subset := do
  let fields ← json.fields? ["paths", "strict_maps", "strict_arrays"]
  return { paths := ← fields.required 0 (Json.listOf? Json.text?)
           strictMaps := ← fields.required 1 Json.bool?
           strictArrays := ← fields.required 2 Json.bool? }

def ResolverConfig.ofJson? (json : Json) : Option ResolverConfig := do
  let fields ← json.fields? ["max_search_count", "as_admin"]
  return { maxSearchCount := ← fields.withDefault 0 (Json.below? Text.idBound)
             ({} : ResolverConfig).maxSearchCount
           asAdmin := ← fields.withDefault 1 Json.bool? false }

-- Of permissions for one user the last counts.
def permissionsOfJson? (json : Json) : Option (Table String Permission) := do
  match json with
  | .object _ =>
    (← json.members?).foldlM (fun table member => do
      return table.insert member.1 (← Permission.ofJson? member.2)) .empty
  | _ => none

def versionOfJson? (json : Json) : Option (List Reference) := do
  let fields ← json.fields? ["references"]
  fields.withDefault 0 (Json.listOf? Reference.ofJson?) []

def ObjectFixture.ofJson? (json : Json) : Option ObjectFixture := do
  let fields ← json.fields? ["name", "deleted", "versions"]
  return { name := ← fields.required 0 Json.text?
           deleted := ← fields.withDefault 1 Json.bool? false
           versions := ← fields.withDefault 2 (Json.listOf? versionOfJson?) [] }

def WorkspaceFixture.ofJson? (json : Json) : Option WorkspaceFixture := do
  let fields ← json.fields?
    ["name", "owner", "locked", "deleted", "world_readable", "permissions", "objects"]
  return { name := ← fields.required 0 Json.text?
           owner := ← fields.required 1 Json.text?
           locked := ← fields.withDefault 2 Json.bool? false
           deleted := ← fields.withDefault 3 Json.bool? false
           worldReadable := ← fields.withDefault 4 Json.bool? false
           permissions := ← fields.withDefault 5 permissionsOfJson? .empty
           objects := ← fields.withDefault 6 (Json.listOf? ObjectFixture.ofJson?) [] }

def Fixture.ofJson? (json : Json) : Option Fixture := do
  let fields ← json.fields? ["workspaces"]
  return { workspaces := ← fields.withDefault 0 (Json.listOf? WorkspaceFixture.ofJson?) [] }

def Fixture.parse (text : String) : Except StoreError Fixture :=
  match (Json.parse? text).bind Fixture.ofJson? with
  | some fixture => .ok fixture
  | none => .error .malformed

end ObjectSpace
