import ObjectSpace.Table

set_option autoImplicit false

namespace ObjectSpace

inductive TableOrigin where
  | inline
  | header
  | implied
  | dotted
  deriving DecidableEq, Repr

inductive Toml where
  | string (text : String)
  | integer (value : Int)
  | bool (value : Bool)
  | fractional
  | moment
  | array (items : List Toml)
  | table (origin : TableOrigin) (members : List (String × Toml))
  | tables (newest : List (String × Toml)) (older : List (List (String × Toml)))

namespace Toml

abbrev Members := List (String × Toml)

-- Only a table that dotted keys made may take a new member from one.
def leadsInto (origin : TableOrigin) (parts : Nat) : Bool :=
  match origin with
  | .dotted => true
  | .implied => 1 < parts
  | .inline | .header => false

def assign (value : Toml) (members : Members) : List String → Option Members
  | [] => none
  | [name] =>
    match Table.lookup name members with
    | none => some (Table.put name value members)
    | some _ => none
  | name :: rest =>
    match Table.lookup name members with
    | none => do return Table.put name (.table .dotted (← assign value [] rest)) members
    | some (.table origin inner) =>
      if leadsInto origin rest.length then do
        return Table.put name (.table origin (← assign value inner rest)) members
      else none
    | some (.tables newest older) =>
      if 1 < rest.length then do
        return Table.put name (.tables (← assign value newest rest) older) members
      else none
    | some _ => none

-- Of several tables on the way the newest is meant, and a missing one is made.
def update (change : Option Toml → Option Toml) (members : Members) :
    List String → Option Members
  | [] => none
  | [name] => do return Table.put name (← change (Table.lookup name members)) members
  | name :: rest =>
    match Table.lookup name members with
    | none => do return Table.put name (.table .implied (← update change [] rest)) members
    | some (.table origin inner) =>
      if origin = .inline then none
      else do return Table.put name (.table origin (← update change inner rest)) members
    | some (.tables newest older) => do
      return Table.put name (.tables (← update change newest rest) older) members
    | some _ => none

def openTable : Option Toml → Option Toml
  | none => some (.table .header [])
  | some (.table .implied members) => some (.table .header members)
  | some _ => none

def openElement : Option Toml → Option Toml
  | none => some (.tables [] [])
  | some (.tables newest older) => some (.tables [] (newest :: older))
  | some _ => none

def assignUnder (key : List String) (value : Toml) : Option Toml → Option Toml
  | some (.table origin members) => do return .table origin (← assign value members key)
  | some (.tables newest older) => do return .tables (← assign value newest key) older
  | _ => none

end Toml

end ObjectSpace
