import ObjectSpace.Store.Basic

set_option autoImplicit false

namespace ObjectSpace.Store

def createWorkspace (store : Store) (owner : User) (name : String) :
    Except StoreError ResolvedWorkspace × Store :=
  match Name.checkWorkspace name with
  | .error cause => (.error (.value cause), store)
  | .ok () =>
    if store.workspaceNames.contains name then (.error (.workspaceNameInUse name), store)
    else
      let id := nextId store.workspaces
      let record : WorkspaceRecord := { name, acl := Table.empty.insert owner .owner }
      match record.resolved id with
      | .error cause => (.error (.value cause), store)
      | .ok resolved =>
        (.ok resolved,
          { store with
            workspaces := store.workspaces.insert id record
            workspaceNames := store.workspaceNames.insert name id })

def updateWorkspace (store : Store) (workspace : Nat)
    (change : WorkspaceRecord → WorkspaceRecord) : Except StoreError Unit × Store :=
  match store.workspaces.get? workspace with
  | none => (.error (.noSuchWorkspace (.id workspace)), store)
  | some record =>
    (.ok (), { store with workspaces := store.workspaces.insert workspace (change record) })

-- No permission takes the user's entry away.
def setPermission (store : Store) (workspace : Nat) (user : User) (permission : Permission) :
    Except StoreError Unit × Store :=
  store.updateWorkspace workspace fun record =>
    { record with
      acl := if permission = .none then record.acl.erase user
        else record.acl.insert user permission }

def setWorldReadable (store : Store) (workspace : Nat) (worldReadable : Bool) :
    Except StoreError Unit × Store :=
  store.updateWorkspace workspace fun record => { record with worldReadable }

def setLocked (store : Store) (workspace : Nat) (locked : Bool) :
    Except StoreError Unit × Store :=
  store.updateWorkspace workspace fun record => { record with locked }

def setWorkspaceDeleted (store : Store) (workspace : Nat) (deleted : Bool) :
    Except StoreError Unit × Store :=
  store.updateWorkspace workspace fun record => { record with deleted }

def resolvedWorkspace (store : Store) (workspace : Nat) : Except StoreError ResolvedWorkspace :=
  match store.workspaces.get? workspace with
  | none => .error (.noSuchWorkspace (.id workspace))
  | some record => (record.resolved workspace).mapError .value

def withObject (record : WorkspaceRecord) (name : String) : Nat × WorkspaceRecord :=
  match record.objectNames.get? name with
  | some id => (id, record)
  | none =>
    let id := nextId record.objects
    (id,
      { record with
        objects := record.objects.insert id { name }
        objectNames := record.objectNames.insert name id })

def addIncoming (incoming : Table Reference (List Reference)) (source : Reference)
    (targets : List Reference) : Table Reference (List Reference) :=
  targets.foldl (fun incoming target =>
    let sources := (incoming.get? target).getD []
    incoming.insert target (if source ∈ sources then sources else sources ++ [source])) incoming

def appendVersion (store : Store) (workspace : Nat) (record : WorkspaceRecord) (name : String)
    (references : List Reference) : Except StoreError Reference × Store :=
  let (id, record) := withObject record name
  match record.objects.get? id with
  | none => (.error (.corrupt (.staleObjectName name)), store)
  | some object =>
    let object := { object with versions := object.versions ++ [references] }
    let record := { record with objects := record.objects.insert id object }
    let store := { store with workspaces := store.workspaces.insert workspace record }
    match Reference.ofParts workspace id object.latestVersion with
    | .error cause => (.error (.value cause), store)
    | .ok saved =>
      (.ok saved, { store with incoming := addIncoming store.incoming saved references })

-- Everything it refers to has to be stored already.
def saveObject (store : Store) (workspace : Nat) (name : String) (references : List Reference) :
    Except StoreError Reference × Store :=
  match Name.checkObject name with
  | .error cause => (.error (.value cause), store)
  | .ok () =>
    match references.find? fun reference => !store.holds reference with
    | some target => (.error (.danglingReference target), store)
    | none =>
      match store.workspaces.get? workspace with
      | none => (.error (.noSuchWorkspace (.id workspace)), store)
      | some record =>
        if record.deleted then (.error (.workspaceDeleted (.id workspace)), store)
        else store.appendVersion workspace record name references

def setObjectDeleted (store : Store) (workspace object : Nat) (deleted : Bool) :
    Except StoreError Unit × Store :=
  match store.workspaces.get? workspace with
  | none => (.error (.noSuchWorkspace (.id workspace)), store)
  | some record =>
    match record.objects.get? object with
    | none => (.error (.noSuchObject workspace object), store)
    | some entry =>
      store.updateWorkspace workspace fun record =>
        { record with objects := record.objects.insert object { entry with deleted } }

end ObjectSpace.Store
