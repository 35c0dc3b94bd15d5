import ObjectSpace.Json.Basic
import ObjectSpace.Text.Decimal
import ObjectSpace.Text.Reader

set_option autoImplicit false

namespace ObjectSpace.Json

open Text (Reader)

def isBlank (c : Char) : Bool := c == ' ' || c == '\t' || c == '\n' || c == '\r'

def skipBlanks : Reader Unit := Reader.skipWhile isBlank

def readWhole : Reader Nat := do
  match ← Reader.takeSome Char.isDigit with
  | '0' :: _ :: _ => failure
  | digits => return Nat.ofDigitChars 10 digits 0

def readFraction : Reader Bool := do
  if (← Reader.peek?) = some '.' then
    let _ ← Reader.next
    let _ ← Reader.takeSome Char.isDigit
    return true
  else return false

def readExponent : Reader Bool := do
  match ← Reader.peek? with
  | some 'e' | some 'E' =>
    let _ ← Reader.next
    match ← Reader.peek? with
    | some '+' | some '-' => let _ ← Reader.next
    | _ => pure ()
    let _ ← Reader.takeSome Char.isDigit
    return true
  | _ => return false

def readNumber : Reader Json := do
  let negative := (← Reader.peek?) = some '-'
  if negative then
    let _ ← Reader.next
  let whole ← readWhole
  let fraction ← readFraction
  let exponent ← readExponent
  if fraction || exponent || negative && whole == 0 then return .otherNumber
  else return .integer (if negative then -(whole : Int) else whole)

def readEscape : Reader Nat := do
  match ← Reader.next with
  | '"' => return '"'.toNat
  | '\\' => return '\\'.toNat
  | '/' => return '/'.toNat
  | 'b' => return 8
  | 'f' => return 12
  | 'n' => return 10
  | 'r' => return 13
  | 't' => return 9
  | 'u' =>
    match Text.hexNumber? (← Reader.times 4 Reader.next) with
    | some unit => return unit
    | none => failure
  | _ => failure

def readUnit : Reader Nat := do
  match ← Reader.next with
  | '"' => failure
  | '\\' => readEscape
  | c => if c.toNat < 0x20 then failure else return c.toNat

def isHigh (unit : Nat) : Bool := 0xD800 ≤ unit && unit < 0xDC00

def isLow (unit : Nat) : Bool := 0xDC00 ≤ unit && unit < 0xE000

def characters? : List Nat → Option (List Char)
  | [] => some []
  | unit :: rest =>
    if isLow unit then none
    else if isHigh unit then
      match rest with
      | low :: rest =>
        if isLow low then
          (characters? rest).map
            (Char.ofNat (0x10000 + (unit - 0xD800) * 0x400 + (low - 0xDC00)) :: ·)
        else none
      | [] => none
    else (characters? rest).map (Char.ofNat unit :: ·)

def readString : Reader JsonText := do
  Reader.char '"'
  let units ← Reader.many readUnit
  Reader.char '"'
  match characters? units with
  | some characters => return .plain (String.ofList characters)
  | none => return .unpaired

def readSeparated {α : Type} (close : Char) (item : Reader α) : Reader (List α) := do
  skipBlanks
  if (← Reader.peek?) = some close then
    Reader.char close
    return []
  else
    let first ← item
    let rest ← Reader.many (Reader.char ',' *> item)
    Reader.char close
    return first :: rest

def readValue : Nat → Reader Json
  | 0 => failure
  | depth + 1 => do
    skipBlanks
    match ← Reader.peek? with
    | some '{' =>
      Reader.char '{'
      return .object (← readSeparated '}' do
        skipBlanks
        let name ← readString
        skipBlanks
        Reader.char ':'
        return (name, ← readValue depth <* skipBlanks))
    | some '[' =>
      Reader.char '['
      return .array (← readSeparated ']' (readValue depth <* skipBlanks))
    | some '"' => return .string (← readString)
    | some 't' =>
      Reader.literal "true"
      return .bool true
    | some 'f' =>
      Reader.literal "false"
      return .bool false
    | some 'n' =>
      Reader.literal "null"
      return .null
    | _ => readNumber

-- No text nests deeper than it is long.
def parse? (text : String) : Option Json :=
  (readValue (text.toList.length + 1) <* skipBlanks).run text.toList

end ObjectSpace.Json
