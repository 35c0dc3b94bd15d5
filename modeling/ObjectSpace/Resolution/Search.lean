import ObjectSpace.Enquiry

set_option autoImplicit false

namespace ObjectSpace

inductive ReadableWorkspaces where
  | all
  | only (ids : List Nat)
  deriving DecidableEq, Repr

namespace ReadableWorkspaces

def contains (readable : ReadableWorkspaces) (workspace : Nat) : Bool :=
  match readable with
  | .all => true
  | .only ids => ids.contains workspace

def isEmpty : ReadableWorkspaces → Bool
  | .all => false
  | .only ids => ids.isEmpty

end ReadableWorkspaces

structure Chain where
  source : Reference
  onward : List Reference := []
  deriving DecidableEq

namespace Chain

def toList (chain : Chain) : List Reference := chain.source :: chain.onward

def extend (chain : Chain) (referrer : Reference) : Chain where
  source := referrer
  onward := chain.toList

end Chain

structure SearchTree where
  target : Reference
  frontier : List Chain
  found : List Reference := []

structure SearchResult where
  paths : Table Reference (List Reference) := .empty
  limitReached : Bool := false

namespace SearchTree

def ofTarget (target : Reference) : SearchTree where
  target := target
  frontier := [{ source := target }]

inductive Growth where
  | reached (path : List Reference)
  | grown (tree : SearchTree)

-- In the order of the frontier and, for one chain, of the new starts.
def candidates (incoming : Table Reference (List Reference)) (tree : SearchTree) : List Chain :=
  tree.frontier.flatMap fun chain =>
    (((incoming.get? chain.source).getD []).mergeSort Reference.le).map chain.extend

def takeUp (isTerminal : Reference → Bool) (tree : SearchTree) : List Chain → Growth
  | [] => .grown tree
  | chain :: rest =>
    if chain.source = tree.target ∨ chain.source ∈ tree.found then takeUp isTerminal tree rest
    else if isTerminal chain.source then .reached chain.toList
    else
      takeUp isTerminal
        { tree with
          frontier := tree.frontier ++ [chain]
          found := chain.source :: tree.found } rest

def grow (incoming : Table Reference (List Reference)) (isTerminal : Reference → Bool)
    (tree : SearchTree) : Growth :=
  takeUp isTerminal { tree with frontier := [] } (tree.candidates incoming)

end SearchTree

namespace Search

-- Trees with a path or without a frontier are dropped.
def growAll (incoming : Table Reference (List Reference)) (isTerminal : Reference → Bool) :
    List SearchTree → SearchResult → List SearchTree × SearchResult
  | [], result => ([], result)
  | tree :: rest, result =>
    match tree.grow incoming isTerminal with
    | .reached path =>
      growAll incoming isTerminal rest
        { result with paths := result.paths.insert tree.target path }
    | .grown grown =>
      let (remaining, result) := growAll incoming isTerminal rest result
      if grown.frontier = [] then (remaining, result) else (grown :: remaining, result)

variable {ε : Type} [OfStoreError ε]

def statesOf (references : List Reference) : Enquiry ε (Table Reference ObjectState) :=
  if references = [] then pure .empty else Enquiry.query (.objectStates references)

def isTerminal (readable : ReadableWorkspaces) (states : Table Reference ObjectState)
    (reference : Reference) : Bool :=
  readable.contains reference.workspace &&
    (states.get? reference).any fun state => !state.deleted && !state.workspaceDeleted

-- A level that leaves a tree behind adds to `count`, so the fuel of `run` lasts.
def levels (readable : ReadableWorkspaces) (limit : Nat) :
    Nat → Nat → List SearchTree → SearchResult → Enquiry ε SearchResult
  | 0, _, _, result => return { result with limitReached := true }
  | fuel + 1, count, trees, result =>
    if trees.isEmpty then return result
    else do
      let frontier := (trees.flatMap fun tree => tree.frontier.map Chain.source).eraseDups
      let incoming ← Enquiry.query (.incomingReferences frontier)
      let count := count + incoming.values.flatten.length
      if limit < count then return { result with limitReached := true }
      else do
        let inReadable := fun (reference : Reference) => readable.contains reference.workspace
        let states ← statesOf (incoming.values.flatten.filter inReadable).eraseDups
        let (trees, result) := growAll incoming (isTerminal readable states) trees result
        levels readable limit fuel count trees result

-- The targets count among the references looked at.
def run (readable : ReadableWorkspaces) (limit : Nat) (targets : List Reference) :
    Enquiry ε SearchResult :=
  let targets := targets.eraseDups
  if targets.isEmpty || readable.isEmpty then return {}
  else if limit < targets.length then return { limitReached := true }
  else
    levels readable limit (limit + 1) targets.length
      ((targets.mergeSort Reference.le).map SearchTree.ofTarget) {}

end Search

end ObjectSpace
