import ObjectSpace.Reference

set_option autoImplicit false

namespace ObjectSpace

structure Cursor where
  workspace : Option Nat := none
  object : Option Nat := none
  version : Option Nat := none
  deriving DecidableEq, Repr

namespace Cursor

def start : Cursor := {}

-- A number that is not positive counts as missing.
def positive (value : Option Int) : Option Nat :=
  (value.filter (0 < ·)).map Int.toNat

-- Only the last parts may be missing; a version above 32 bits is clamped.
def ofParts (workspace object version : Option Int) : Except ValueError Cursor :=
  let workspace := positive workspace
  let object := positive object
  let version := (positive version).map (min · (Text.versionBound - 1))
  if version.isSome ∧ (object.isNone ∨ workspace.isNone) then .error .cursorVersionWithoutObject
  else if object.isSome ∧ workspace.isNone then .error .cursorObjectWithoutWorkspace
  else .ok { workspace, object, version }

def part (text : String) (part : CursorPart) (token : Option (List Char)) :
    Except ValueError (Option Int) :=
  match token with
  | none => .ok none
  | some token =>
    match Text.signed? (Text.trim token) with
    | some value => .ok (some value)
    | none => .error (.illegalCursorInteger part text (String.ofList (Text.trim token)))

-- Empty pieces at the end, unlike blank ones, do not count.
def parse (text : String) : Except ValueError Cursor :=
  if Text.trim text.toList = [] then .ok start
  else
    let tokens := Text.dropEnd List.isEmpty (Text.pieces Reference.separator text.toList)
    if 3 < tokens.length then .error (.cursorSeparators text)
    else do
      let workspace ← part text .workspace tokens[0]?
      let object ← part text .object tokens[1]?
      let version ← part text .version tokens[2]?
      ofParts workspace object version

def isPresent (cursor : Cursor) : Bool := cursor.workspace.isSome

-- The next older version, else the next object with an id no larger than the largest.
def next (cursor : Cursor) : Cursor :=
  match cursor.workspace, cursor.object, cursor.version with
  | some workspace, some object, some version =>
    if 1 < version then
      { workspace := some workspace, object := some object, version := some (version - 1) }
    else { workspace := some workspace, object := some (min (object + 1) (Text.idBound - 1)) }
  | _, _, _ => cursor

def admits (cursor : Cursor) (reference : Reference) : Bool :=
  match cursor.next.workspace with
  | none => true
  | some workspace =>
    let object := cursor.next.object.getD 0
    if workspace ≠ reference.workspace then workspace < reference.workspace
    else if object ≠ reference.object then object < reference.object
    else reference.version ≤ cursor.next.version.getD (Text.versionBound - 1)

def partText (part : Option Nat) : String :=
  match part with
  | some value => ToString.toString value
  | none => "null"

def toString (cursor : Cursor) : String :=
  "RefLimit [wsid=" ++ partText cursor.workspace ++ ", objid=" ++ partText cursor.object
    ++ ", ver=" ++ partText cursor.version ++ "]"

instance : ToString Cursor := ⟨toString⟩

end Cursor

end ObjectSpace
