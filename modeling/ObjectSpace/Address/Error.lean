import ObjectSpace.ValueError

set_option autoImplicit false

namespace ObjectSpace

inductive AddressText where
  | reference
  | path
  deriving DecidableEq, Repr

def AddressText.label : AddressText → String
  | .reference => "reference"
  | .path => "refpath"

inductive AddressError where
  | empty (text : AddressText)
  | separators (reference : String)
  | unparseableVersion (reference : String)
  | nameOrId (name : Option String) (id : Option Nat)
  | noReferencePath
  | notAbsolute (reference : String)
  | atPosition (position : Nat) (cause : AddressError)
  | value (cause : ValueError)
  deriving DecidableEq, Repr

namespace AddressError

def message : AddressError → String
  | .empty text => text.label ++ " cannot be null or the empty string"
  | .separators reference =>
      "Illegal number of separators '/' in object reference '" ++ reference ++ "'"
  | .unparseableVersion reference =>
      "Unable to parse version portion of object reference '" ++ reference ++ "' to an integer"
  | .nameOrId name id =>
      "Must provide one and only one of object name (was: " ++ name.getD "null" ++ ") or id (was: "
        ++ (id.map toString).getD "null" ++ ")"
  | .noReferencePath => "This object identifier has no reference path"
  | .notAbsolute reference => "Reference " ++ reference ++ " is not absolute"
  | .atPosition position cause =>
      "Reference path position " ++ toString position ++ ": " ++ cause.message
  | .value cause => cause.message

def report : AddressError → List String
  | .atPosition position cause => (AddressError.atPosition position cause).message :: cause.report
  | error => [error.message]

end AddressError

end ObjectSpace
