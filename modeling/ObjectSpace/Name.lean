import ObjectSpace.Text.Pieces
import ObjectSpace.ValueError

set_option autoImplicit false

namespace ObjectSpace.Name

def maxLength : Nat := 255

def delimiter : Char := ':'

def isObjectCharacter (c : Char) : Bool :=
  c.isAlphanum || c == '_' || c == '|' || c == '.' || c == '-'

def isWorkspaceCharacter (c : Char) : Bool :=
  c.isAlphanum || c == delimiter || c == '_' || c == '.' || c == '-'

def isIntegerLiteral (text : List Char) : Bool :=
  let digits := match text with
    | '-' :: rest => rest
    | _ => text
  !digits.isEmpty && digits.all Char.isDigit

def checkLength (field : Field) (name : String) : Except ValueError Unit :=
  if name.toList = [] then .error (.empty field)
  else if maxLength < name.toList.length then .error (.tooLong field maxLength)
  else .ok ()

def checkCharacters (named : Named) (legal : Char → Bool) (name : String) :
    Except ValueError Unit :=
  match name.toList.find? fun c => !legal c with
  | some c => .error (.illegalCharacter named name c)
  | none => .ok ()

def checkObject (name : String) : Except ValueError Unit := do
  checkLength .objectName name
  checkCharacters .object isObjectCharacter name
  if isIntegerLiteral name.toList then .error (.integerObjectName name)

def checkDelimiter (name : String) : Except ValueError Unit :=
  match Text.pieces delimiter name.toList with
  | [_] => .ok ()
  | [user, rest] =>
    if user = [] then .error (.missingUserName name)
    else if rest = [] then .error (.missingWorkspaceName name)
    else .ok ()
  | _ => .error (.multipleDelimiters name)

def checkWorkspace (name : String) : Except ValueError Unit := do
  checkLength .workspaceName name
  checkCharacters .workspace isWorkspaceCharacter name
  checkDelimiter name

end ObjectSpace.Name
