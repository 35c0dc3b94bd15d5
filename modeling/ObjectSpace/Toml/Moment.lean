import ObjectSpace.Text.Reader

set_option autoImplicit false

namespace ObjectSpace.Toml

open Text (Reader)

def readCount (digits least most : Nat) : Reader Nat := do
  let text ← Reader.times digits (Reader.satisfying Char.isDigit)
  let value := Nat.ofDigitChars 10 text 0
  if least ≤ value ∧ value ≤ most then return value else failure

def isLeapYear (year : Nat) : Bool := year % 4 = 0 && (year % 100 ≠ 0 || year % 400 = 0)

def daysInMonth (year month : Nat) : Nat :=
  match month with
  | 2 => if isLeapYear year then 29 else 28
  | 4 | 6 | 9 | 11 => 30
  | _ => 31

def readDate : Reader Unit := do
  let year ← readCount 4 0 9999
  Reader.char '-'
  let month ← readCount 2 1 12
  Reader.char '-'
  let _ ← readCount 2 1 (daysInMonth year month)

-- A minute may have a leap second.
def readTime : Reader Unit := do
  let _ ← readCount 2 0 23
  Reader.char ':'
  let _ ← readCount 2 0 59
  Reader.char ':'
  let _ ← readCount 2 0 60
  (do
    Reader.char '.'
    let _ ← Reader.takeSome Char.isDigit) <|> pure ()

def readOffset : Reader Unit := do
  match ← Reader.next with
  | 'Z' | 'z' => return ()
  | '+' | '-' =>
    let _ ← readCount 2 0 23
    Reader.char ':'
    let _ ← readCount 2 0 59
  | _ => failure

def readMoment : Reader Unit :=
  (do
    readDate
    (do
      let _ ← Reader.satisfying fun c => c == 'T' || c == 't' || c == ' '
      readTime
      readOffset <|> pure ()) <|> pure ()) <|> readTime

end ObjectSpace.Toml
