set_option autoImplicit false

namespace ObjectSpace.Text

abbrev Reader := StateT (List Char) Option

namespace Reader

variable {α : Type}

def peek? : Reader (Option Char) := do return (← get).head?

def next : Reader Char := do
  match ← get with
  | [] => failure
  | c :: rest => do
    set rest
    return c

def satisfying (p : Char → Bool) : Reader Char := do
  let c ← next
  if p c then return c else failure

def char (c : Char) : Reader Unit := do
  let _ ← satisfying (· == c)

def literal (text : String) : Reader Unit := text.toList.forM char

def takeWhile (p : Char → Bool) : Reader (List Char) := do
  let text ← get
  set (text.dropWhile p)
  return text.takeWhile p

def takeSome (p : Char → Bool) : Reader (List Char) := do
  match ← takeWhile p with
  | [] => failure
  | found => return found

def skipWhile (p : Char → Bool) : Reader Unit := do
  let _ ← takeWhile p

def manyWithin (bound : List Char) (reader : Reader α) : Reader (List α) :=
  match bound with
  | [] => return []
  | _ :: bound => (do
    let first ← reader
    let rest ← manyWithin bound reader
    return first :: rest) <|> return []

def many (reader : Reader α) : Reader (List α) := do manyWithin (← get) reader

def times (count : Nat) (reader : Reader α) : Reader (List α) :=
  match count with
  | 0 => return []
  | count + 1 => do
    let first ← reader
    let rest ← times count reader
    return first :: rest

def run (reader : Reader α) (text : List Char) : Option α :=
  match StateT.run reader text with
  | some (value, []) => some value
  | _ => none

end Reader

def hexDigit? (c : Char) : Option Nat :=
  if c.isDigit then some (c.toNat - '0'.toNat)
  else if 'a' ≤ c ∧ c ≤ 'f' then some (c.toNat - 'a'.toNat + 10)
  else if 'A' ≤ c ∧ c ≤ 'F' then some (c.toNat - 'A'.toNat + 10)
  else none

def hexNumber? (text : List Char) : Option Nat :=
  text.foldlM (fun value c => (hexDigit? c).map (value * 16 + ·)) 0

end ObjectSpace.Text
