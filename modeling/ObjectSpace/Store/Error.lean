import ObjectSpace.File.Error
import ObjectSpace.Reference
import ObjectSpace.Workspace

set_option autoImplicit false

namespace ObjectSpace

inductive Flaw where
  | staleObjectName (name : String)
  | emptyPath
  | missingState (reference : Reference)
  deriving DecidableEq

def Flaw.message : Flaw → String
  | .staleObjectName name => "object index for " ++ name ++ " is stale"
  | .emptyPath => "empty reference path"
  | .missingState reference => "no state for reference " ++ reference.toString

inductive StoreError where
  | noSuchWorkspace (key : WorkspaceKey)
  | workspaceDeleted (key : WorkspaceKey)
  | workspaceNameInUse (name : String)
  | noSuchObject (workspace object : Nat)
  | danglingReference (target : Reference)
  | corrupt (flaw : Flaw)
  | backend (reason : String)
  | noVersions (workspace object : String)
  | malformed
  | file (cause : FileError)
  | value (cause : ValueError)
  deriving DecidableEq

def StoreError.message : StoreError → String
  | .noSuchWorkspace key =>
      let kind := match key with
        | .id _ => "id"
        | .name _ => "name"
      "No workspace with " ++ kind ++ " " ++ key.toString ++ " exists"
  | .workspaceDeleted key => "Workspace " ++ key.toString ++ " is deleted"
  | .workspaceNameInUse name => "Workspace name " ++ name ++ " is already in use"
  | .noSuchObject workspace object =>
      "No object with id " ++ toString object ++ " exists in workspace " ++ toString workspace
  | .danglingReference target => "Object references nonexistent object " ++ target.toString
  | .corrupt flaw => "corrupt store data: " ++ flaw.message
  | .backend reason => "store backend error: " ++ reason
  | .noVersions workspace object =>
      "Object " ++ object ++ " in workspace " ++ workspace ++ " has no versions"
  | .malformed => "serialization error: "
  | .file cause => "I/O error: " ++ cause.message
  | .value cause => cause.message

end ObjectSpace
