import ObjectSpace.Command.Run

set_option autoImplicit false

namespace ObjectSpace.Main

def usage : String := "usage: object-space <verb> [--format text|json] [-v] ...
  validate <reference> [--absolute]
  validate-path <path> [--absolute]
  parse-limit <reference>
  resolve --fixture <file> [-u <user>] [--config <file>] [--admin] [--lookup] <address>...
  list --fixture <file> [-u <user>] [--after <reference>] [-n <limit>] [--all-versions] [--deleted]"

-- The code may be the error number negated in 32 bits.
def fileError (code : UInt32) (reason : String) : FileError :=
  ((FileError.ofCode? code.toNat).or (FileError.ofCode? (-code).toNat)).getD (.other reason)

def readText (name : String) : IO (Except FileError String) := do
  try
    match String.fromUTF8? (← IO.FS.readBinFile name) with
    | some text => return .ok text
    | none => return .error .notText
  catch
    | .noFileOrDirectory _ code reason
    | .inappropriateType _ code reason
    | .invalidArgument _ code reason => return .error (fileError code reason)
    | error => return .error (.other (toString error))

end ObjectSpace.Main

open ObjectSpace

def main (arguments : List String) : IO UInt32 := do
  match Invocation.parse arguments with
  | none =>
    IO.eprintln Main.usage
    return 2
  | some invocation =>
    let texts ← invocation.command.files.mapM fun name => do
      return (name, ← Main.readText name)
    let output := invocation.run fun name => (texts.lookup name).getD (.error .notFound)
    IO.print output.text
    match output.failure with
    | none => return 0
    | some report =>
      IO.eprintln report
      return 1
