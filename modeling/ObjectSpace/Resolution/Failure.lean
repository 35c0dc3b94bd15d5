import ObjectSpace.Access.Denial
import ObjectSpace.Enquiry

set_option autoImplicit false

namespace ObjectSpace

inductive ConfigError where
  | searchCount
  | malformed
  | tooLarge
  | file (cause : FileError)
  deriving DecidableEq, Repr

inductive ResolveError where
  | noObjects
  | config (cause : ConfigError)
  | store (cause : StoreError)
  | value (cause : ValueError)
  deriving DecidableEq

instance : OfStoreError ResolveError := ⟨.store⟩

def ConfigError.message : ConfigError → String
  | .searchCount => "max_search_count must be > 0"
  | _ => ""

def ResolveError.message : ResolveError → String
  | .noObjects => "No object identifiers provided"
  | .config cause => "Invalid resolver configuration: " ++ cause.message
  | .store cause => cause.message
  | .value cause => cause.message

inductive FailureCause where
  | noSuchWorkspace (cause : StoreError)
  | noSuchObject (workspace : ResolvedWorkspace)
  | objectDeleted (workspace : ResolvedWorkspace)
  | unauthorized (denial : Denial)
  -- `index` is the place in the batch, `position` that on the path.
  | brokenPath (index position : Nat) (holder missing : Address)
  | inaccessible (user : Option User)
  | searchLimitExceeded
  deriving DecidableEq

structure Failure where
  object : Address
  cause : FailureCause
  deriving DecidableEq

namespace Failure

def objectLabel (object : Address) : String :=
  (match object.object with
    | .id id => "id " ++ toString id
    | .name name => "name " ++ name) ++
  match object.version with
  | some version => " and version " ++ toString version
  | none => ""

def workspaceLabel (workspace : ResolvedWorkspace) : String :=
  "workspace " ++ toString workspace.id ++ " (name " ++ workspace.name ++ ")"

def stepLabel (object : Address) : String :=
  object.object.toString ++ " " ++
  (match object.version with
    | some version => "version " ++ toString version ++ " "
    | none => "") ++
  "in workspace " ++ object.workspace.toString

def searchedVersion (object : Address) : String :=
  match object.version with
  | some version => "Version " ++ toString version ++ " of "
  | none => "The latest version of "

def searcher : Option User → String
  | some user => "user " ++ user.name
  | none => "anonymous users"

def message (failure : Failure) : String :=
  let object := failure.object
  let key := object.object.toString
  match failure.cause with
  | .noSuchWorkspace cause => "Object " ++ key ++ " cannot be accessed: " ++ cause.message
  | .noSuchObject workspace =>
      "No object with " ++ objectLabel object ++ " exists in " ++ workspaceLabel workspace
  | .objectDeleted workspace =>
      "Object " ++ key ++ " in " ++ workspaceLabel workspace ++ " has been deleted"
  | .unauthorized denial => "Object " ++ key ++ " cannot be accessed: " ++ denial.message
  | .brokenPath index position holder missing =>
      "Reference path #" ++ toString index ++ " starting with object " ++ stepLabel object
        ++ ", position " ++ toString position ++ ": Object " ++ stepLabel holder
        ++ " does not contain a reference to object " ++ stepLabel missing
  | .inaccessible user =>
      searchedVersion object ++ "object " ++ key ++ " in workspace " ++ object.workspace.toString
        ++ " is not accessible to " ++ searcher user
  | .searchLimitExceeded => "Reached reference search limit"

def isNotFound (failure : Failure) : Bool :=
  match failure.cause with
  | .noSuchWorkspace _ | .noSuchObject _ | .objectDeleted _ | .brokenPath .. => true
  | _ => false

def isUnauthorized (failure : Failure) : Bool :=
  match failure.cause with
  | .unauthorized _ | .inaccessible _ => true
  | _ => false

end Failure

end ObjectSpace
