import ObjectSpace.Address.Parse
import ObjectSpace.Command.Invocation
import ObjectSpace.Command.Report
import ObjectSpace.Json.Decode
import ObjectSpace.Json.Encode
import ObjectSpace.Json.Write
import ObjectSpace.Resolution.ConfigText

set_option autoImplicit false

namespace ObjectSpace

namespace Command

-- A run may fail after it has printed an answer.
structure Output where
  text : String := ""
  failure : Option Report := none
  deriving DecidableEq, Repr

abbrev Files := String → Except FileError String

def Output.ofExcept : Except Report String → Output
  | .ok text => { text }
  | .error report => { failure := some report }

def whileDoing {ε α : Type} (message : String) (causes : ε → List String) :
    Except ε α → Except Report α :=
  Except.mapError fun error => { message, causes := causes error }

def alone {ε α : Type} (message : ε → String) : Except ε α → Except Report α :=
  Except.mapError fun error => { message := message error }

def lines (lines : List String) : String := String.join (lines.map (· ++ "\n"))

def printJson (json : Json) : String := lines [json.pretty]

def runValidate (format : Format) (reference : String) (absolute : Bool) :
    Except Report String := do
  let address ← whileDoing ("invalid reference '" ++ reference ++ "'") AddressError.report
    (Address.parse reference absolute)
  match format with
  | .json => return printJson address.summary
  | .text => return lines ["✓ " ++ address.toString]

def runValidatePath (format : Format) (path : String) (absolute : Bool) : Except Report String := do
  let addresses ← whileDoing ("invalid reference path '" ++ path ++ "'") AddressError.report
    (Address.parsePath path absolute)
  match format with
  | .json => return printJson (.array (addresses.map Address.summary))
  | .text =>
    let element (address : Address) (place : Nat) : String :=
      "  " ++ Report.alignRight 3 (toString (place + 1)) ++ ". " ++ address.toString
    return lines (("✓ " ++ toString addresses.length ++ " elements")
      :: addresses.zipIdx.map fun (address, place) => element address place)

def readCursor (text : String) : Except Report Cursor :=
  whileDoing ("invalid listing cursor '" ++ text ++ "'") (fun error => [error.message])
    (Cursor.parse text)

def runParseCursor (format : Format) (text : String) : Except Report String := do
  let cursor ← readCursor text
  match format with
  | .json => return printJson cursor.toJson
  | .text => return lines [cursor.toString]

def loadStore (files : Files) (name : String) : Except Report Store :=
  whileDoing ("loading fixture " ++ name) (fun (error : StoreError) => [error.message]) do
    let text ← (files name).mapError .file
    (← Fixture.parse text).toStore

def loadConfig (files : Files) (name : Option String) : Except Report ResolverConfig :=
  match name with
  | none => return {}
  | some name =>
    alone ResolveError.message do
      let text ← (files name).mapError fun cause => .config (.file cause)
      ResolverConfig.parse text

def readUser (name : Option String) : Except Report (Option User) :=
  match name with
  | none => return none
  | some name => do
    let user ← whileDoing "invalid user name" (fun error => [error.message]) (User.ofName name)
    return some user

def readAddress (lookup : Bool) (text : String) : Except Report Address := do
  let address ← whileDoing ("invalid address '" ++ text ++ "'") AddressError.report
    (Address.parseChain text)
  if !lookup then return address
  else if address.hasPath then
    throw { message :=
      "address '" ++ text ++ "' has a reference path and cannot also be looked up" }
  else alone AddressError.message (address.toBuilder.withLookup true).build

def outcomeJson (written : String) : Outcome → Json
  | .error failure => .record [("address", .text written), ("error", .text failure.message)]
  | .ok resolution =>
    .record [("address", .text written), ("kind", .text resolution.kind.name),
      ("object", resolution.object.toJson),
      ("path", .array (resolution.path.map Reference.toJson))]

def outcomeLines (written : String) : Outcome → List String
  | .error failure => ["✗ " ++ written ++ ": " ++ failure.message]
  | .ok resolution =>
    let path := resolution.path.map Reference.toString
    let found := "✓ " ++ written ++ " → " ++ path.getLast?.getD "" ++ " ["
      ++ resolution.kind.name ++ "]"
    if 1 < path.length then [found, "    via " ++ String.intercalate " → " path] else [found]

def printOutcomes (format : Format) (rows : List (String × Outcome)) : String :=
  match format with
  | .json => printJson (.array (rows.map fun row => outcomeJson row.1 row.2))
  | .text => lines (rows.flatMap fun row => outcomeLines row.1 row.2)

def resolutionsOf (files : Files) (options : ResolveOptions) :
    Except Report (List Address × Resolutions) := do
  let store ← loadStore files options.fixture
  let config ← loadConfig files options.config
  let user ← readUser options.user
  let addresses ← options.addresses.mapM (readAddress options.lookup)
  let resolutions ← alone ResolveError.message do
    let resolver ← Resolver.make user addresses
      { config with asAdmin := config.asAdmin || options.admin }
    resolver.resolve.run store
  return (addresses, resolutions)

def runResolve (files : Files) (format : Format) (options : ResolveOptions) : Output :=
  match resolutionsOf files options with
  | .error report => { failure := some report }
  | .ok (addresses, resolutions) =>
    let rows := (options.addresses.zip addresses).filterMap fun (written, address) =>
      (resolutions.outcome? address).map fun outcome => (written, outcome)
    let failed := resolutions.failures.length
    { text := printOutcomes format rows
      failure :=
        if failed = 0 then none
        else some { message := toString failed ++ " of " ++ toString resolutions.objects.length
          ++ " objects could not be resolved" } }

def listedLine (row : ListedObject) : String :=
  Report.alignLeft 12 row.reference.toString ++ " " ++ row.workspaceName ++ "/" ++ row.name
    ++ if row.deleted then " (deleted)" else ""

def runList (files : Files) (format : Format) (options : ListOptions) : Except Report String := do
  let store ← loadStore files options.fixture
  let user ← readUser options.user
  let startAfter ← match options.after with
    | some text => readCursor text
    | none => pure .start
  let permissions ← alone StoreError.message (store.allPermissions user .read true)
  let listing : Listing :=
    { permissions, startAfter, showAllVersions := options.allVersions
      showDeleted := options.deleted }
  let rows ← alone StoreError.message ((listing.withLimit options.limit).page store)
  match format, rows with
  | .json, rows => return printJson (.array (rows.map ListedObject.toJson))
  | .text, [] => return lines ["No objects."]
  | .text, rows => return lines (rows.map listedLine)

def run (files : Files) (format : Format) : Command → Output
  | .validate reference absolute => .ofExcept (runValidate format reference absolute)
  | .validatePath path absolute => .ofExcept (runValidatePath format path absolute)
  | .parseCursor text => .ofExcept (runParseCursor format text)
  | .resolve options => runResolve files format options
  | .list options => .ofExcept (runList files format options)

end Command

def Invocation.run (files : Command.Files) (invocation : Invocation) : Command.Output :=
  invocation.command.run files invocation.format

end ObjectSpace
