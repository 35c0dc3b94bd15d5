set_option autoImplicit false

namespace ObjectSpace

-- Escapes may name half of a surrogate pair; such a string denotes no text.
inductive JsonText where
  | plain (text : String)
  | unpaired
  deriving DecidableEq, Repr

inductive Json where
  | null
  | bool (value : Bool)
  | integer (value : Int)
  -- Fractions, exponents and minus zero.
  | otherNumber
  | string (text : JsonText)
  | array (items : List Json)
  | object (members : List (JsonText × Json))
  deriving Inhabited

namespace Json

def text (text : String) : Json := .string (.plain text)

def nat (value : Nat) : Json := .integer value

def optional {α : Type} (encode : α → Json) : Option α → Json
  | some value => encode value
  | none => .null

def record (members : List (String × Json)) : Json :=
  .object (members.map fun member => (.plain member.1, member.2))

def text? : Json → Option String
  | .string (.plain text) => some text
  | _ => none

def bool? : Json → Option Bool
  | .bool value => some value
  | _ => none

def integer? : Json → Option Int
  | .integer value => some value
  | _ => none

def below? (bound : Nat) (json : Json) : Option Nat :=
  (json.integer?.filter fun value => 0 ≤ value ∧ value.toNat < bound).map Int.toNat

def items? : Json → Option (List Json)
  | .array items => some items
  | _ => none

def listOf? {α : Type} (decode : Json → Option α) (json : Json) : Option (List α) := do
  (← json.items?).mapM decode

def members? : Json → Option (List (String × Json))
  | .object members => members.mapM fun (name, value) =>
      match name with
      | .plain name => some (name, value)
      | .unpaired => none
  | _ => none

end Json

end ObjectSpace
