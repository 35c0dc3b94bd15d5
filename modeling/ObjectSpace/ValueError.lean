import ObjectSpace.Permission.Basic

set_option autoImplicit false

namespace ObjectSpace

inductive Field where
  | objectName
  | workspaceName
  | username
  | reference
  | workspaceId
  | objectId
  | objectVersion
  deriving DecidableEq, Repr

def Field.label : Field → String
  | .objectName => "Object name"
  | .workspaceName => "Workspace name"
  | .username => "Username"
  | .reference => "reference"
  | .workspaceId => "Workspace id"
  | .objectId => "Object id"
  | .objectVersion => "Object version"

inductive Named where
  | workspace
  | object
  deriving DecidableEq, Repr

def Named.label : Named → String
  | .workspace => "workspace"
  | .object => "object"

inductive CursorPart where
  | workspace
  | object
  | version
  deriving DecidableEq, Repr

def CursorPart.label : CursorPart → String
  | .workspace => "workspace ID"
  | .object => "object ID"
  | .version => "version"

inductive ValueError where
  | empty (field : Field)
  | tooLong (field : Field) (limit : Nat)
  | illegalCharacter (named : Named) (name : String) (character : Char)
  | integerObjectName (name : String)
  | multipleDelimiters (name : String)
  | missingUserName (name : String)
  | missingWorkspaceName (name : String)
  | notPositive (field : Field)
  | outOfRange (field : Field) (value : Int) (maximum : Nat)
  | invalidReference
  | notAbsoluteReference (text : String)
  | cursorVersionWithoutObject
  | cursorObjectWithoutWorkspace
  | illegalCursorInteger (part : CursorPart) (text token : String)
  | cursorSeparators (text : String)
  | unknownPermission (text : String)
  | permissionsAlreadySet (workspace : Nat)
  | illegalWorldPermission (permission : Permission)
  | unreadableWorkspace
  | anonymousUserPermission
  deriving DecidableEq, Repr

def ValueError.message : ValueError → String
  | .empty field => field.label ++ " cannot be null or the empty string"
  | .tooLong field limit => field.label ++ " size greater than limit " ++ toString limit
  | .illegalCharacter named name character =>
      "Illegal character in " ++ named.label ++ " name " ++ name ++ ": " ++ character.toString
  | .integerObjectName name => "Object names cannot be integers: " ++ name
  | .multipleDelimiters name => "Workspace name " ++ name ++ " may only contain one : delimiter"
  | .missingUserName name => "User name missing from " ++ name
  | .missingWorkspaceName name => "Workspace name missing from " ++ name
  | .notPositive field => field.label ++ " must be > 0"
  | .outOfRange field value maximum =>
      field.label ++ " " ++ toString value ++ " exceeds the maximum of " ++ toString maximum
  | .invalidReference => "All arguments must be > 0"
  | .notAbsoluteReference text => "ref " ++ text ++ " is not an absolute reference"
  | .cursorVersionWithoutObject =>
      "If a version is specified in a reference limit the object ID and workspace ID must also be "
        ++ "specified"
  | .cursorObjectWithoutWorkspace =>
      "If an object ID is specified in a reference limit the workspace ID must also be specified"
  | .illegalCursorInteger part text token =>
      "Illegal integer " ++ part.label ++ " in reference string " ++ text ++ ": " ++ token
  | .cursorSeparators text =>
      "Illegal reference string, expected no more than 2 separators: " ++ text
  | .unknownPermission text => "Unknown permission: " ++ text
  | .permissionsAlreadySet workspace =>
      "Permissions for workspace " ++ toString workspace ++ " have already been set"
  | .illegalWorldPermission permission => "Illegal global permission: " ++ permission.name
  | .unreadableWorkspace => "Cannot add unreadable workspace"
  | .anonymousUserPermission => "anonymous users can't have user specific permissions"

end ObjectSpace
