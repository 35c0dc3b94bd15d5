import ObjectSpace.Text.Blank
import ObjectSpace.ValueError

set_option autoImplicit false

namespace ObjectSpace

structure User where
  name : String
  deriving DecidableEq, Repr

def User.ofName (name : String) : Except ValueError User :=
  if Text.trim name.toList = [] then .error (.empty .username) else .ok { name }

structure Everyone where
  symbol : Char := '*'
  deriving DecidableEq, Repr

end ObjectSpace
