import ObjectSpace.Text.Blank
import ObjectSpace.Text.Decimal
import ObjectSpace.Text.Pieces
import ObjectSpace.ValueError

set_option autoImplicit false

namespace ObjectSpace

structure Reference where
  workspace : Nat
  object : Nat
  version : Nat
  workspace_pos : 0 < workspace
  object_pos : 0 < object
  version_pos : 0 < version
  version_lt : version < Text.versionBound
  deriving DecidableEq

namespace Reference

def separator : Char := '/'

def ofParts (workspace object version : Nat) : Except ValueError Reference :=
  if valid : 0 < workspace ∧ 0 < object ∧ 0 < version ∧ version < Text.versionBound then
    .ok { workspace, object, version
          workspace_pos := valid.1
          object_pos := valid.2.1
          version_pos := valid.2.2.1
          version_lt := valid.2.2.2 }
  else .error .invalidReference

def toString (reference : Reference) : String :=
  ToString.toString reference.workspace ++ "/" ++ ToString.toString reference.object
    ++ "/" ++ ToString.toString reference.version

instance : ToString Reference := ⟨toString⟩

def ofText? (text : List Char) : Option Reference :=
  match (Text.pieces separator text).map Text.trim with
  | [workspace, object, version] => do
    let workspace ← Text.unsigned? Text.idBound workspace
    let object ← Text.unsigned? Text.idBound object
    let version ← Text.unsigned? Text.versionBound version
    (ofParts workspace object version).toOption
  | _ => none

def parse (text : String) : Except ValueError Reference :=
  if Text.trim text.toList = [] then .error (.empty .reference)
  else
    match ofText? text.toList with
    | some reference => .ok reference
    | none => .error (.notAbsoluteReference text)

def le (left right : Reference) : Bool :=
  if left.workspace ≠ right.workspace then left.workspace < right.workspace
  else if left.object ≠ right.object then left.object < right.object
  else left.version ≤ right.version

-- As `le`, but the newest version of each object first.
def listedBefore (left right : Reference) : Bool :=
  if left.workspace ≠ right.workspace then left.workspace < right.workspace
  else if left.object ≠ right.object then left.object < right.object
  else right.version ≤ left.version

theorem ext_parts {left right : Reference} (workspace : left.workspace = right.workspace)
    (object : left.object = right.object) (version : left.version = right.version) :
    left = right := by
  cases left
  cases right
  simp_all

theorem eq_iff_parts {left right : Reference} : left = right ↔ left.workspace = right.workspace ∧
    left.object = right.object ∧ left.version = right.version := by
  constructor
  · intro same
    subst same
    exact ⟨rfl, rfl, rfl⟩
  · intro given
    exact ext_parts given.1 given.2.1 given.2.2

theorem ofParts_parts (reference : Reference) :
    ofParts reference.workspace reference.object reference.version = .ok reference := by
  simp [ofParts, reference.workspace_pos, reference.object_pos, reference.version_pos,
    reference.version_lt]

end Reference

end ObjectSpace
