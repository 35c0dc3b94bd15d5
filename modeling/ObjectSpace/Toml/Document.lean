import ObjectSpace.Toml.Basic

set_option autoImplicit false

namespace ObjectSpace.Toml

inductive Line where
  | assign (key : List String) (value : Toml)
  | header (key : List String)
  | element (key : List String)

structure Document where
  members : Members := []
  opened : List String := []

namespace Document

def addLine (document : Document) : Line → Option Document
  | .header key => do
    return { members := ← Toml.update openTable document.members key, opened := key }
  | .element key => do
    return { members := ← Toml.update openElement document.members key, opened := key }
  | .assign key value =>
    match document.opened with
    | [] => do return { document with members := ← Toml.assign value document.members key }
    | opened => do
      return { document with
        members := ← Toml.update (assignUnder key value) document.members opened }

def ofLines (lines : List Line) : Option Document := lines.foldlM addLine {}

end Document

end ObjectSpace.Toml
