import ObjectSpace.Json.Basic
import ObjectSpace.Resolution.Resolver
import ObjectSpace.Store.Fixture
import ObjectSpace.Store.Listing

set_option autoImplicit false

namespace ObjectSpace

def Permission.toJson (permission : Permission) : Json := .text permission.name

def User.toJson (user : User) : Json := .text user.name

def Everyone.toJson (everyone : Everyone) : Json :=
  .record [("symbol", .text everyone.symbol.toString)]

def WorkspaceKey.toJson : WorkspaceKey → Json
  | .id number => .record [("id", .nat number)]
  | .name text => .record [("name", .text text)]

def ObjectKey.toJson : ObjectKey → Json
  | .id number => .record [("id", .nat number)]
  | .name text => .record [("name", .text text)]

def ResolvedWorkspace.toJson (workspace : ResolvedWorkspace) : Json :=
  .record [("id", .nat workspace.id), ("name", .text workspace.name),
    ("locked", .bool workspace.locked), ("deleted", .bool workspace.deleted)]

def Reference.toJson (reference : Reference) : Json := .text reference.toString

def Cursor.toJson (cursor : Cursor) : Json :=
  .record [("workspace_id", .optional .nat cursor.workspace),
    ("object_id", .optional .nat cursor.object), ("version", .optional .nat cursor.version)]

def Subset.toJson (subset : Subset) : Json :=
  .record [("paths", .array (subset.paths.map .text)), ("strict_maps", .bool subset.strictMaps),
    ("strict_arrays", .bool subset.strictArrays)]

def Address.summary (address : Address) : Json :=
  .record [("reference", .text address.toString), ("workspace", .text address.workspace.toString),
    ("object", .text address.object.toString), ("version", .optional .nat address.version),
    ("absolute", .bool address.isAbsolute)]

def ResolvedAddress.toJson (address : ResolvedAddress) : Json :=
  .record [("display", .text address.toString), ("workspace", address.workspace.toJson),
    ("object", address.object.toJson), ("object_display", .text address.object.toString),
    ("id", .optional .nat address.object.id?), ("name", .optional .text address.object.name?),
    ("version", .optional .nat address.version)]

def PermissionSet.toJson (set : PermissionSet) : Json :=
  let workspaces := set.workspaces.mergeSort ResolvedWorkspace.le
  .record [("user", .optional User.toJson set.user),
    ("global_user", .text set.everyone.symbol.toString), ("empty", .bool set.grants.isEmpty),
    ("len", .nat set.grants.size),
    ("workspaces", .array (workspaces.map fun workspace =>
      .record [("workspace", workspace.toJson), ("permission", (set.permission workspace).toJson),
        ("user_permission", (set.userPermission workspace).toJson),
        ("world_readable", .bool (set.isWorldReadable workspace))]))]

def ObjectState.toJson (state : ObjectState) : Json :=
  .record [("name", .text state.name), ("deleted", .bool state.deleted),
    ("workspace_deleted", .bool state.workspaceDeleted)]

def ResolvedObject.toJson (object : ResolvedObject) : Json :=
  .record [("workspace", object.workspace.toJson), ("reference", object.reference.toJson),
    ("name", .text object.name), ("deleted", .bool object.deleted)]

def ListedObject.toJson (row : ListedObject) : Json :=
  .record [("reference", row.reference.toJson), ("name", .text row.name),
    ("workspace_name", .text row.workspaceName), ("deleted", .bool row.deleted)]

def ResolverConfig.toJson (config : ResolverConfig) : Json :=
  .record [("max_search_count", .nat config.maxSearchCount), ("as_admin", .bool config.asAdmin)]

def ObjectFixture.toJson (object : ObjectFixture) : Json :=
  .record [("name", .text object.name), ("deleted", .bool object.deleted),
    ("versions", .array (object.versions.map fun references =>
      .record [("references", .array (references.map Reference.toJson))]))]

def WorkspaceFixture.toJson (workspace : WorkspaceFixture) : Json :=
  .record [("name", .text workspace.name), ("owner", .text workspace.owner),
    ("locked", .bool workspace.locked), ("deleted", .bool workspace.deleted),
    ("world_readable", .bool workspace.worldReadable),
    ("permissions", .record (workspace.permissions.entries.map fun entry =>
      (entry.1, entry.2.toJson))),
    ("objects", .array (workspace.objects.map ObjectFixture.toJson))]

def Fixture.toJson (fixture : Fixture) : Json :=
  .record [("workspaces", .array (fixture.workspaces.map WorkspaceFixture.toJson))]

end ObjectSpace
