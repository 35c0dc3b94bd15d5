import ObjectSpace.Text.Pieces

set_option autoImplicit false

namespace ObjectSpace.Command

structure Report where
  message : String
  causes : List String := []
  deriving DecidableEq, Repr

namespace Report

def indented (lead indent text : String) : String :=
  lead ++ String.intercalate ("\n" ++ indent)
    ((Text.pieces '\n' text.toList).map String.ofList)

def alignRight (width : Nat) (text : String) : String :=
  String.ofList (List.replicate (width - text.length) ' ') ++ text

def alignLeft (width : Nat) (text : String) : String :=
  text ++ String.ofList (List.replicate (width - text.length) ' ')

def causeLines : List String → List String
  | [] => []
  | [cause] => [indented "    " "    " cause]
  | causes => causes.zipIdx.map fun (cause, place) =>
      indented (alignRight 5 (toString place) ++ ": ") "       " cause

def toString (report : Report) : String :=
  "Error: " ++ report.message ++
    match report.causes with
    | [] => ""
    | causes => String.intercalate "\n" ("\n\nCaused by:" :: causeLines causes)

instance : ToString Report := ⟨toString⟩

end Report

end ObjectSpace.Command
