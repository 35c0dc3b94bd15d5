set_option autoImplicit false

namespace ObjectSpace

inductive FileError where
  | notFound
  | notFolder
  | isFolder
  | nameTooLong
  | notText
  | other (reason : String)
  deriving DecidableEq, Repr

namespace FileError

def code? : FileError → Option Nat
  | .notFound => some 2
  | .notFolder => some 20
  | .isFolder => some 21
  | .nameTooLong => some 36
  | .notText | .other _ => none

def ofCode? (code : Nat) : Option FileError :=
  [notFound, notFolder, isFolder, nameTooLong].find? fun error => error.code? = some code

def description : FileError → String
  | .notFound => "No such file or directory"
  | .notFolder => "Not a directory"
  | .isFolder => "Is a directory"
  | .nameTooLong => "File name too long"
  | .notText => "stream did not contain valid UTF-8"
  | .other reason => reason

def message (error : FileError) : String :=
  match error.code? with
  | some code => error.description ++ " (os error " ++ toString code ++ ")"
  | none => error.description

theorem ofCode?_eq_some {code : Nat} {error : FileError} (known : ofCode? code = some error) :
    error.code? = some code := by
  simpa using List.find?_some known

end FileError

end ObjectSpace
