set_option autoImplicit false

namespace ObjectSpace

inductive Permission where
  | none
  | read
  | write
  | admin
  | owner
  deriving DecidableEq, Repr

namespace Permission

def all : List Permission := [.none, .read, .write, .admin, .owner]

def level : Permission → Nat
  | .none => 0
  | .read => 1
  | .write => 2
  | .admin => 3
  | .owner => 4

def ofLevel? (level : Nat) : Option Permission := all[level]?

instance : LE Permission := ⟨fun left right => left.level ≤ right.level⟩

instance : LT Permission := ⟨fun left right => left.level < right.level⟩

instance (left right : Permission) : Decidable (left ≤ right) :=
  inferInstanceAs (Decidable (left.level ≤ right.level))

instance (left right : Permission) : Decidable (left < right) :=
  inferInstanceAs (Decidable (left.level < right.level))

instance : Max Permission := maxOfLe

def name : Permission → String
  | .none => "NONE"
  | .read => "READ"
  | .write => "WRITE"
  | .admin => "ADMIN"
  | .owner => "OWNER"

def ofName? (name : String) : Option Permission :=
  all.find? fun permission => permission.name == name

def verb : Permission → String
  | .none => "no permission required, this should never actually show up anywhere"
  | .read => "read"
  | .write => "write to"
  | .admin => "administrate"
  | .owner => "administrate as an owner"

def isReadable (permission : Permission) : Bool := Permission.read ≤ permission

def isWorldGrantable (permission : Permission) : Bool := permission ≤ Permission.read

@[simp] theorem ofLevel?_level (permission : Permission) :
    ofLevel? permission.level = some permission := by
  cases permission <;> rfl

@[simp] theorem ofName?_name (permission : Permission) :
    ofName? permission.name = some permission := by
  cases permission <;> decide

theorem level_injective {left right : Permission} (same : left.level = right.level) :
    left = right := by
  cases left <;> cases right <;> simp_all [level]

theorem le_iff {left right : Permission} : left ≤ right ↔ left.level ≤ right.level := Iff.rfl

theorem lt_iff {left right : Permission} : left < right ↔ left.level < right.level := Iff.rfl

end Permission

end ObjectSpace
