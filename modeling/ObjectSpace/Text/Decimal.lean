set_option autoImplicit false

namespace ObjectSpace.Text

def idBound : Nat := Nat.pow 2 64

def signedBound : Nat := Nat.pow 2 63

def versionBound : Nat := Nat.pow 2 32

def digits? (text : List Char) : Option Nat :=
  if text ≠ [] ∧ text.all Char.isDigit then some (Nat.ofDigitChars 10 text 0) else none

-- An optional plus sign and no minus sign.
def unsigned? (bound : Nat) (text : List Char) : Option Nat :=
  (digits? (match text with
    | '+' :: rest => rest
    | _ => text)).filter (· < bound)

def signed? (text : List Char) : Option Int :=
  match text with
  | '-' :: rest => ((digits? rest).filter (· ≤ signedBound)).map fun n => -(n : Int)
  | '+' :: rest => ((digits? rest).filter (· < signedBound)).map fun n => (n : Int)
  | _ => ((digits? text).filter (· < signedBound)).map fun n => (n : Int)

def decimal (n : Nat) : List Char := Nat.toDigits 10 n

theorem digits?_decimal (n : Nat) : digits? (decimal n) = some n := by
  have digit : ∀ c ∈ decimal n, c.isDigit = true := fun c mem =>
    Nat.isDigit_of_mem_toDigits (by decide) (by decide) mem
  have ne : decimal n ≠ [] := Nat.toDigits_ne_nil
  simp only [digits?, ne, ne_eq, not_false_eq_true, List.all_eq_true, true_and]
  rw [if_pos digit]
  simp [decimal, Nat.ofDigitChars_ten_toDigits]

end ObjectSpace.Text
