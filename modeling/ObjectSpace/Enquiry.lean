import ObjectSpace.Store.Lookup

set_option autoImplicit false

namespace ObjectSpace

inductive Query where
  | resolveWorkspaces (keys : List WorkspaceKey) (suppress : Bool)
  | permissions (user : Option User) (workspaces : List ResolvedWorkspace)
  | allPermissions (user : Option User) (minimum : Permission) (world : Bool)
  | objectReferences (addresses : List ResolvedAddress)
  | objectStates (references : List Reference)
  | incomingReferences (references : List Reference)
  deriving DecidableEq

abbrev Query.Answer : Query → Type
  | .resolveWorkspaces _ _ => Table WorkspaceKey ResolvedWorkspace
  | .permissions _ _ => PermissionSet
  | .allPermissions _ _ _ => PermissionSet
  | .objectReferences _ => Table ResolvedAddress Reference
  | .objectStates _ => Table Reference ObjectState
  | .incomingReferences _ => Table Reference (List Reference)

abbrev Reply (query : Query) := Except StoreError query.Answer

def Store.answer (store : Store) : (query : Query) → Reply query
  | .resolveWorkspaces keys suppress => store.resolveWorkspaces suppress keys
  | .permissions user workspaces => store.permissions user workspaces
  | .allPermissions user minimum world => store.allPermissions user minimum world
  | .objectReferences addresses => store.objectReferences addresses
  | .objectStates references => .ok (store.objectStates references)
  | .incomingReferences references => .ok (store.incomingReferences references)

inductive Enquiry (ε α : Type) where
  | done (value : α)
  | fail (error : ε)
  | ask (query : Query) (next : Reply query → Enquiry ε α)

class OfStoreError (ε : Type) where
  ofStoreError : StoreError → ε

instance : OfStoreError StoreError := ⟨id⟩

namespace Enquiry

variable {ε δ α β σ : Type}

def bind (enquiry : Enquiry ε α) (next : α → Enquiry ε β) : Enquiry ε β :=
  match enquiry with
  | .done value => next value
  | .fail error => .fail error
  | .ask query rest => .ask query fun reply => (rest reply).bind next

instance : Monad (Enquiry ε) where
  pure := .done
  bind := bind

instance : MonadExcept ε (Enquiry ε) where
  throw := .fail
  tryCatch enquiry handle :=
    let rec go : Enquiry ε _ → Enquiry ε _
      | .done value => .done value
      | .fail error => handle error
      | .ask query rest => .ask query fun reply => go (rest reply)
    go enquiry

-- A fault of the store ends the enquiry.
def query [OfStoreError ε] (query : Query) : Enquiry ε query.Answer :=
  .ask query fun
    | .ok answer => .done answer
    | .error error => .fail (OfStoreError.ofStoreError error)

def ofExcept : Except ε α → Enquiry ε α
  | .ok value => .done value
  | .error error => .fail error

def mapError (change : ε → δ) : Enquiry ε α → Enquiry δ α
  | .done value => .done value
  | .fail error => .fail (change error)
  | .ask query rest => .ask query fun reply => (rest reply).mapError change

def runWith (respond : (query : Query) → σ → Reply query × σ) :
    Enquiry ε α → σ → Except ε α × σ
  | .done value, state => (.ok value, state)
  | .fail error, state => (.error error, state)
  | .ask query rest, state =>
    let (reply, state) := respond query state
    (rest reply).runWith respond state

def run (store : Store) : Enquiry ε α → Except ε α
  | .done value => .ok value
  | .fail error => .error error
  | .ask query rest => (rest (store.answer query)).run store

def noting (respond : (query : Query) → σ → Reply query × σ) (query : Query)
    (state : List Query × σ) : Reply query × (List Query × σ) :=
  let (reply, inner) := respond query state.2
  (reply, (state.1 ++ [query], inner))

theorem bind_done (enquiry : Enquiry ε α) : enquiry.bind .done = enquiry := by
  induction enquiry with
  | done => rfl
  | fail => rfl
  | ask query rest ih => simp only [bind, ih]

theorem bind_assoc {γ : Type} (enquiry : Enquiry ε α) (first : α → Enquiry ε β)
    (second : β → Enquiry ε γ) :
    (enquiry.bind first).bind second = enquiry.bind fun value => (first value).bind second := by
  induction enquiry with
  | done => rfl
  | fail => rfl
  | ask query rest ih => simp only [bind, ih]

theorem run_bind (store : Store) (enquiry : Enquiry ε α) (next : α → Enquiry ε β) :
    (enquiry >>= next).run store = enquiry.run store >>= fun value => (next value).run store := by
  change (enquiry.bind next).run store = _
  induction enquiry with
  | done => rfl
  | fail => rfl
  | ask query rest ih => simpa only [bind, run] using ih (store.answer query)

end Enquiry

end ObjectSpace
