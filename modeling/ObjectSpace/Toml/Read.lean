import ObjectSpace.Text.Reader
import ObjectSpace.Text.Decimal
import ObjectSpace.Toml.Document
import ObjectSpace.Toml.Moment

set_option autoImplicit false

namespace ObjectSpace.Toml

open Text (Reader)

def depthLimit : Nat := 80

def isBlank (c : Char) : Bool := c == ' ' || c == '\t'

def skipBlanks : Reader Unit := Reader.skipWhile isBlank

def readNewline : Reader Unit := Reader.char '\n' <|> Reader.literal "\r\n"

def isPlain (c : Char) : Bool := c == '\t' || 0x20 ≤ c.toNat && c.toNat ≠ 0x7F

def skipComment : Reader Unit := do
  Reader.char '#'
  Reader.skipWhile isPlain

def skipLineEnd : Reader Unit := do
  skipBlanks
  skipComment <|> pure ()

def skipLines : Reader Unit := do
  let _ ← Reader.many (Reader.satisfying isBlank *> pure () <|> skipComment *> readNewline
    <|> readNewline)

def readCodePoint (digits : Nat) : Reader Char := do
  match Text.hexNumber? (← Reader.times digits Reader.next) with
  | some value => if value.isValidChar then return Char.ofNat value else failure
  | none => failure

def readEscaped : Reader Char := do
  Reader.char '\\'
  match ← Reader.next with
  | 'b' => return '\x08'
  | 't' => return '\t'
  | 'n' => return '\n'
  | 'f' => return '\x0c'
  | 'r' => return '\r'
  | '"' => return '"'
  | '\\' => return '\\'
  | 'u' => readCodePoint 4
  | 'U' => readCodePoint 8
  | _ => failure

def readBasicCharacter : Reader Char :=
  Reader.satisfying (fun c => isPlain c && c ≠ '"' && c ≠ '\\') <|> readEscaped

def readLiteralCharacter : Reader Char := Reader.satisfying fun c => isPlain c && c ≠ '\''

def readQuoted (quote : Char) (character : Reader Char) : Reader String := do
  Reader.char quote
  let text ← Reader.many character
  Reader.char quote
  return String.ofList text

def readLineString : Reader String :=
  readQuoted '"' readBasicCharacter <|> readQuoted '\'' readLiteralCharacter

def skipJoined : Reader (List Char) := do
  Reader.char '\\'
  skipBlanks
  readNewline
  let _ ← Reader.many (Reader.satisfying isBlank *> pure () <|> readNewline)
  return []

def readFewQuotes (quote : Char) : Reader (List Char) := do
  let quotes ← Reader.takeSome (· == quote)
  if quotes.length < 3 then return quotes else failure

-- Up to two quotes may stand just before the end.
def readTripleQuoted (quote : Char) (stretch : Reader (List Char)) : Reader String := do
  Reader.literal (String.ofList [quote, quote, quote])
  readNewline <|> pure ()
  let text ← Reader.many (stretch <|> readNewline *> pure ['\n'] <|> readFewQuotes quote)
  let quotes ← Reader.takeSome (· == quote)
  if 3 ≤ quotes.length ∧ quotes.length ≤ 5 then
    return String.ofList (text.flatten ++ quotes.drop 3)
  else failure

def readString : Reader String :=
  readTripleQuoted '"' (skipJoined <|> readBasicCharacter.map ([·]))
    <|> readTripleQuoted '\'' (readLiteralCharacter.map ([·])) <|> readLineString

def readDigits (isDigit : Char → Bool) : Reader (List Char) := do
  let first ← Reader.takeSome isDigit
  let others ← Reader.many (Reader.char '_' *> Reader.takeSome isDigit)
  return first ++ others.flatten

def readSign : Reader Bool :=
  Reader.char '-' *> pure true <|> Reader.char '+' *> pure false <|> pure false

def readWhole : Reader (List Char) := do
  match ← readDigits Char.isDigit with
  | '0' :: _ :: _ => failure
  | digits => return digits

def readExponent : Reader Int := do
  let _ ← Reader.char 'e' <|> Reader.char 'E'
  let negative ← readSign
  let value : Nat := Nat.ofDigitChars 10 (← readDigits Char.isDigit) 0
  return if negative then -(value : Int) else value

-- The least number that rounds to infinity in double precision.
def overflow : Nat := Nat.pow 2 1024 - Nat.pow 2 970

-- No number of more than 310 places needs to be spelt out.
def overflows (digits : List Char) (exponent : Int) : Bool :=
  let mantissa := Nat.ofDigitChars 10 digits 0
  let places := (Nat.toDigits 10 mantissa).length + exponent
  if mantissa = 0 ∨ places < 300 then false
  else if 310 < places then true
  else overflow * Nat.pow 10 (-exponent).toNat ≤ mantissa * Nat.pow 10 exponent.toNat

def readFractional : Reader Toml := do
  let negative ← readSign
  let whole ← readWhole
  let fraction ← Reader.char '.' *> readDigits Char.isDigit <|> pure []
  let exponent ← readExponent.map some <|> pure none
  if fraction = [] ∧ exponent = none then failure
  if !negative && overflows (whole ++ fraction) (exponent.getD 0 - fraction.length) then failure
  return .fractional

def readSpecial : Reader Toml := do
  let _ ← readSign
  Reader.literal "inf" <|> Reader.literal "nan"
  return .fractional

def readInteger : Reader Toml := do
  let negative ← readSign
  let value : Nat := Nat.ofDigitChars 10 (← readWhole) 0
  if negative && value ≤ Text.signedBound then return .integer (-(value : Int))
  else if value < Text.signedBound then return .integer value
  else failure

def readBased (mark : String) (isDigit : Char → Bool) (value : List Char → Option Nat) :
    Reader Toml := do
  Reader.literal mark
  match value (← readDigits isDigit) with
  | some value => if value < Text.signedBound then return .integer value else failure
  | none => failure

def readOctal : Reader Toml :=
  readBased "0o" (fun c => '0' ≤ c && c ≤ '7') fun digits => some (Nat.ofDigitChars 8 digits 0)

def readBinary : Reader Toml :=
  readBased "0b" (fun c => c == '0' || c == '1') fun digits => some (Nat.ofDigitChars 2 digits 0)

def readHexadecimal : Reader Toml :=
  readBased "0x" (fun c => (Text.hexDigit? c).isSome) Text.hexNumber?

def readNumber : Reader Toml :=
  readMoment *> pure .moment <|> readFractional <|> readSpecial <|> readHexadecimal <|> readOctal
    <|> readBinary <|> readInteger

def isKeyCharacter (c : Char) : Bool := c.isAlphanum || c == '_' || c == '-'

def readKeyPart : Reader String := do
  skipBlanks
  let part ← readLineString <|> (Reader.takeSome isKeyCharacter).map String.ofList
  skipBlanks
  return part

def readKey : Reader (List String) := do
  let first ← readKeyPart
  let others ← Reader.many (Reader.char '.' *> readKeyPart)
  if others.length + 1 < depthLimit then return first :: others else failure

def readSeparated {α : Type} (item : Reader α) : Reader (List α) :=
  (do
    let first ← item
    let others ← Reader.many (Reader.char ',' *> item)
    return first :: others) <|> pure []

def readValue : Nat → Reader Toml
  | 0 => failure
  | depth + 1 => do
    match ← Reader.peek? with
    | some '[' =>
      if depth = 0 then failure
      Reader.char '['
      let items ← readSeparated do
        skipLines
        let item ← readValue depth
        skipLines
        return item
      if items ≠ [] then
        Reader.char ',' <|> pure ()
      skipLines
      Reader.char ']'
      return .array items
    | some '\x7b' =>
      if depth = 0 then failure
      Reader.char '\x7b'
      skipBlanks
      let pairs ← readSeparated do
        let key ← readKey
        Reader.char '='
        skipBlanks
        let value ← readValue depth
        skipBlanks
        return (key, value)
      Reader.char '\x7d'
      match pairs.foldlM (fun members pair => assign pair.2 members pair.1) [] with
      | some members => return .table .inline members
      | none => failure
    | some '"' | some '\'' => do return .string (← readString)
    | some 't' => do
      Reader.literal "true"
      return .bool true
    | some 'f' => do
      Reader.literal "false"
      return .bool false
    | _ => readNumber

def readElementHeader : Reader Line := do
  Reader.literal "[["
  let key ← readKey
  Reader.literal "]]"
  return .element key

def readHeader : Reader Line := do
  Reader.char '['
  let key ← readKey
  Reader.char ']'
  return .header key

def readAssignment : Reader Line := do
  let key ← readKey
  Reader.char '='
  skipBlanks
  return .assign key (← readValue depthLimit)

def readLine : Reader (Option Line) := do
  skipBlanks
  let line ← (readElementHeader <|> readHeader <|> readAssignment).map some <|> pure none
  skipLineEnd
  return line

-- A byte order mark may come first.
def readLines : Reader (List Line) := do
  Reader.char '\uFEFF' <|> pure ()
  let first ← readLine
  let others ← Reader.many (readNewline *> readLine)
  return (first :: others).filterMap id

def parse? (text : String) : Option Members := do
  let document ← Document.ofLines (← readLines.run text.toList)
  return document.members

end ObjectSpace.Toml
