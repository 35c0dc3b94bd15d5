import ObjectSpace.Command.Scan

set_option autoImplicit false

namespace ObjectSpace

namespace Command

structure ResolveOptions where
  fixture : String
  user : Option String
  config : Option String
  admin : Bool
  lookup : Bool
  addresses : List String
  deriving DecidableEq, Repr

structure ListOptions where
  fixture : String
  user : Option String
  after : Option String
  limit : Nat
  allVersions : Bool
  deleted : Bool
  deriving DecidableEq, Repr

end Command

open Command

inductive Command where
  | validate (reference : String) (absolute : Bool)
  | validatePath (path : String) (absolute : Bool)
  | parseCursor (text : String)
  | resolve (options : ResolveOptions)
  | list (options : ListOptions)
  deriving DecidableEq, Repr

namespace Command

def files : Command → List String
  | .resolve options => options.fixture :: options.config.toList
  | .list options => [options.fixture]
  | _ => []

def resolveOptions? (scan : Scan) (addresses : List String) : Option ResolveOptions := do
  return { fixture := ← scan.inner.get? .fixture
           user := scan.inner.get? .user
           config := scan.inner.get? .config
           admin := scan.inner.contains .admin
           lookup := scan.inner.contains .lookup
           addresses }

-- Without a limit the largest page is meant.
def listOptions? (scan : Scan) : Option ListOptions := do
  let limit := (scan.inner.get? .limit).bind fun text => Text.unsigned? Text.idBound text.toList
  return { fixture := ← scan.inner.get? .fixture
           user := scan.inner.get? .user
           after := scan.inner.get? .after
           limit := limit.getD 0
           allVersions := scan.inner.contains .allVersions
           deleted := scan.inner.contains .deleted }

def ofScan? (scan : Scan) : Option Command := do
  match ← scan.verb, scan.words with
  | .validate, [reference] => some (.validate reference (scan.inner.contains .absolute))
  | .validatePath, [path] => some (.validatePath path (scan.inner.contains .absolute))
  | .parseCursor, [text] => some (.parseCursor text)
  | .resolve, address :: addresses => (resolveOptions? scan (address :: addresses)).map .resolve
  | .list, [] => (listOptions? scan).map .list
  | _, _ => none

end Command

structure Invocation where
  command : Command
  format : Command.Format
  deriving DecidableEq, Repr

-- A format after the verb wins over one before it.
def Invocation.parse (tokens : List String) : Option Invocation := do
  let scan ← Scan.run tokens
  let format := (scan.inner.get? .format).or (scan.outer.get? .format)
  return { command := ← Command.ofScan? scan
           format := (format.bind Format.ofWord?).getD .text }

end ObjectSpace
