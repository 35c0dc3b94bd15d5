import ObjectSpace.Command.Setting
import ObjectSpace.Table

set_option autoImplicit false

namespace ObjectSpace.Command

structure Scan where
  verb : Option Verb := none
  outer : Table Setting String := .empty
  inner : Table Setting String := .empty
  words : List String := []
  pending : Option Setting := none
  wordsOnly : Bool := false

namespace Scan

def allowed (scan : Scan) : List Setting :=
  match scan.verb with
  | none => Setting.common
  | some verb => verb.settings

def set (scan : Scan) (setting : Setting) (value : String) : Option Scan :=
  let present := if scan.verb.isSome then scan.inner else scan.outer
  if present.contains setting || !setting.accepts value then none
  else if scan.verb.isSome then some { scan with inner := scan.inner.insert setting value }
  else some { scan with outer := scan.outer.insert setting value }

def addNamed (scan : Scan) (text : List Char) : Option Scan := do
  let name := String.ofList (text.takeWhile (· ≠ '='))
  let setting ← scan.allowed.find? fun setting => setting.name = name
  match text.dropWhile (· ≠ '='), setting.takesValue with
  | [], false => scan.set setting ""
  | [], true => some { scan with pending := some setting }
  | _ :: value, true => scan.set setting (String.ofList value)
  | _ :: _, false => none

def addLetters (scan : Scan) : List Char → Option Scan
  | [] => some scan
  | letter :: rest => do
    let setting ← scan.allowed.find? fun setting => setting.letter? = some letter
    if setting.takesValue then
      match rest with
      | [] => some { scan with pending := some setting }
      | '=' :: value => scan.set setting (String.ofList value)
      | value => scan.set setting (String.ofList value)
    else addLetters (← scan.set setting "") rest

def addWord (scan : Scan) (word : String) : Option Scan :=
  match scan.verb with
  | some _ => some { scan with words := scan.words ++ [word] }
  | none =>
    if scan.wordsOnly then none
    else do return { scan with verb := some (← Verb.ofWord? word) }

-- A single hyphen is a word.
def step (scan : Scan) (token : String) : Option Scan :=
  if scan.wordsOnly then scan.addWord token
  else
    match token.toList, scan.pending with
    | '-' :: _ :: _, some _ => none
    | ['-', '-'], none => some { scan with wordsOnly := true }
    | '-' :: '-' :: named, none => scan.addNamed named
    | '-' :: letter :: letters, none => scan.addLetters (letter :: letters)
    | _, some setting => { scan with pending := none }.set setting token
    | _, none => scan.addWord token

def run (tokens : List String) : Option Scan := do
  let scan ← tokens.foldlM step {}
  if scan.pending.isSome then none else return scan

end Scan

end ObjectSpace.Command
