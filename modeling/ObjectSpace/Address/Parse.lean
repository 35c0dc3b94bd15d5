import ObjectSpace.Address.Builder
import ObjectSpace.Text.Blank
import ObjectSpace.Text.Pieces

set_option autoImplicit false

namespace ObjectSpace.Address

def pathSeparator : Char := ';'

def trimmedPieces (separator : Char) (text : List Char) : List (List Char) :=
  Text.dropEnd List.isEmpty ((Text.pieces separator text).map Text.trim)

def workspaceKey (part : List Char) : Except ValueError WorkspaceKey :=
  match Text.signed? part with
  | some id => WorkspaceKey.ofId id
  | none => WorkspaceKey.ofName (String.ofList part)

def withObject (builder : AddressBuilder) (part : List Char) :
    Except AddressError AddressBuilder :=
  match Text.signed? part with
  | some id => builder.withId (some id)
  | none => builder.withName (some (String.ofList part))

-- A version above 32 bits does not parse; it is not clamped.
def versionNumber? (part : List Char) : Option Int :=
  (Text.signed? part).filter (· < Text.versionBound)

def ofPieces (text : String) : List (List Char) → Except AddressError Address
  | [workspace, object] => do
    let workspace ← (workspaceKey workspace).mapError .value
    let builder ← withObject { workspace } object
    builder.build
  | [workspace, object, version] => do
    let workspace ← (workspaceKey workspace).mapError .value
    let builder ← withObject { workspace } object
    match versionNumber? version with
    | none => throw (.unparseableVersion text)
    | some version => do
      let builder ← builder.withVersion (some version)
      builder.build
  | _ => throw (.separators text)

def parse (text : String) (absolute : Bool := false) : Except AddressError Address :=
  let trimmed := Text.trim text.toList
  if trimmed = [] then .error (.empty .reference)
  else do
    let address ← ofPieces text (trimmedPieces Reference.separator trimmed)
    if absolute && !address.isAbsolute then .error (.notAbsolute (String.ofList trimmed))
    else .ok address

def parseFrom (absolute : Bool) (position : Nat) :
    List (List Char) → Except AddressError (List Address)
  | [] => .ok []
  | piece :: rest => do
    let address ← (parse (String.ofList piece) absolute).mapError (.atPosition position)
    let others ← parseFrom absolute (position + 1) rest
    return address :: others

-- Positions in errors count from one.
def parsePath (text : String) (absolute : Bool := false) : Except AddressError (List Address) :=
  match trimmedPieces pathSeparator text.toList with
  | [] => .error (.empty .path)
  | first :: rest => parseFrom absolute 1 (first :: rest)

def parseChain (text : String) : Except AddressError Address := do
  match ← parsePath text with
  | [] => throw (.empty .path)
  | head :: hops => (head.toBuilder.withPath hops).build

def validate (text : String) (absolute : Bool) : Except AddressError Unit :=
  (parse text absolute).map fun _ => ()

def validatePath (text : String) (absolute : Bool) : Except AddressError Unit :=
  (parsePath text absolute).map fun _ => ()

end ObjectSpace.Address
