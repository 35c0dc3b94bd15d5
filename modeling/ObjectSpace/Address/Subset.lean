import ObjectSpace.Text.Blank
import ObjectSpace.Text.Pieces

set_option autoImplicit false

namespace ObjectSpace

structure Subset where
  paths : List String := []
  strictMaps : Bool := false
  strictArrays : Bool := true
  deriving DecidableEq, Repr

namespace Subset

def separator : Char := '/'

def unmark (mark meant : Char) : List Char → List Char
  | [] => []
  | [c] => [c]
  | c :: d :: rest =>
    if c = '~' ∧ d = mark then meant :: unmark mark meant rest
    else c :: unmark mark meant (d :: rest)

-- Slashes first: a tilde that comes from `~0` marks nothing.
def unescape (key : List Char) : List Char := unmark '0' '~' (unmark '1' '/' key)

def strip (path : List Char) : List Char :=
  let path := match path with
    | '/' :: rest => rest
    | _ => path
  match path.reverse with
  | '/' :: rest => rest.reverse
  | _ => path

def keys (path : String) : List String :=
  (Text.pieces separator (strip path.toList)).map fun key => String.ofList (unescape key)

def segments? (subset : Subset) (index : Nat) : Option (List String) :=
  subset.paths[index]?.map keys

end Subset

end ObjectSpace
