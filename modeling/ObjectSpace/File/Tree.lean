import ObjectSpace.File.Error
import ObjectSpace.Text.Pieces

set_option autoImplicit false

namespace ObjectSpace

-- Names on the way from the root, the last one first.
abbrev Place := List String

structure FileTree where
  files : List (Place × String)
  folders : List Place := []

namespace FileTree

def maxNameSize : Nat := 255

def maxPathSize : Nat := 4095

def ofFolder (folder : Place) (files : List (String × String)) : FileTree where
  files := files.map fun (path, text) =>
    (((Text.pieces '/' path.toList).map String.ofList).reverse ++ folder, text)
  folders := [folder]

def text? (tree : FileTree) (place : Place) : Option String := tree.files.lookup place

def isFolder (tree : FileTree) (place : Place) : Bool :=
  place.isEmpty ||
    (tree.folders ++ tree.files.map fun file => file.1.tail).any fun folder =>
      place.isSuffixOf folder

def step (tree : FileTree) (place : Place) (part : String) : Except FileError Place :=
  if !tree.isFolder place then .error .notFolder
  else if part = "" ∨ part = "." then .ok place
  else if part = ".." then .ok place.tail
  else if maxNameSize < part.utf8ByteSize then .error .nameTooLong
  else if tree.isFolder (part :: place) || (tree.text? (part :: place)).isSome then
    .ok (part :: place)
  else .error .notFound

def locate (tree : FileTree) (folder : Place) (path : String) : Except FileError Place :=
  if path = "" then .error .notFound
  else if maxPathSize < path.utf8ByteSize then .error .nameTooLong
  else
    let start := if path.toList.head? = some '/' then [] else folder
    ((Text.pieces '/' path.toList).map String.ofList).foldlM tree.step start

def read (tree : FileTree) (folder : Place) (path : String) : Except FileError String := do
  match tree.text? (← tree.locate folder path) with
  | some text => return text
  | none => throw .isFolder

end FileTree

end ObjectSpace
