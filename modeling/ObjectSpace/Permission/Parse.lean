import ObjectSpace.Text.Blank
import ObjectSpace.ValueError

set_option autoImplicit false

namespace ObjectSpace.Permission

def ofSpelling? (spelling : List Char) : Option Permission :=
  match String.ofList spelling with
  | "n" | "none" => some .none
  | "r" | "read" => some .read
  | "w" | "write" => some .write
  | "a" | "admin" => some .admin
  | "owner" => some .owner
  | _ => Option.none

def parse (text : String) : Except ValueError Permission :=
  match ofSpelling? ((Text.trim text.toList).map Char.toLower) with
  | some permission => .ok permission
  | Option.none => .error (.unknownPermission text)

end ObjectSpace.Permission
