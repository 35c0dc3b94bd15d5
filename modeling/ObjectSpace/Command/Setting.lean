import ObjectSpace.Text.Decimal

set_option autoImplicit false

namespace ObjectSpace.Command

inductive Format where
  | text
  | json
  deriving DecidableEq, Repr

def Format.ofWord? : String → Option Format
  | "text" => some .text
  | "json" => some .json
  | _ => none

inductive Setting where
  | verbose
  | format
  | absolute
  | fixture
  | user
  | config
  | admin
  | lookup
  | after
  | limit
  | allVersions
  | deleted
  deriving DecidableEq, Repr

namespace Setting

def name : Setting → String
  | .verbose => "verbose"
  | .format => "format"
  | .absolute => "absolute"
  | .fixture => "fixture"
  | .user => "user"
  | .config => "config"
  | .admin => "admin"
  | .lookup => "lookup"
  | .after => "after"
  | .limit => "limit"
  | .allVersions => "all-versions"
  | .deleted => "deleted"

def letter? : Setting → Option Char
  | .verbose => some 'v'
  | .user => some 'u'
  | .limit => some 'n'
  | _ => none

def takesValue : Setting → Bool
  | .format | .fixture | .user | .config | .after | .limit => true
  | _ => false

def accepts : Setting → String → Bool
  | .format, value => (Format.ofWord? value).isSome
  | .fixture, value | .config, value => value ≠ ""
  | .limit, value => (Text.unsigned? Text.idBound value.toList).isSome
  | _, _ => true

def common : List Setting := [.verbose, .format]

end Setting

inductive Verb where
  | validate
  | validatePath
  | parseCursor
  | resolve
  | list
  deriving DecidableEq, Repr

namespace Verb

def ofWord? : String → Option Verb
  | "validate" => some .validate
  | "validate-path" => some .validatePath
  | "parse-limit" => some .parseCursor
  | "resolve" => some .resolve
  | "list" => some .list
  | _ => none

def settings (verb : Verb) : List Setting :=
  Setting.common ++
    match verb with
    | .validate | .validatePath => [.absolute]
    | .parseCursor => []
    | .resolve => [.fixture, .user, .config, .admin, .lookup]
    | .list => [.fixture, .user, .after, .limit, .allVersions, .deleted]

end Verb

end ObjectSpace.Command
