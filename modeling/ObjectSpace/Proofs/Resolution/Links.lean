import ObjectSpace.Proofs.Resolution.Climb

set_option autoImplicit false

namespace ObjectSpace

structure LinkedTree where
  target : Reference
  frontier : List Reference
  child : Table Reference Reference := .empty

namespace LinkedTree

def ofTarget (target : Reference) : LinkedTree where
  target := target
  frontier := [target]

-- Nothing where the steps run out, as on links that turn in a circle.
def pathFrom? (child : Table Reference Reference) : Nat → Reference → Option (List Reference)
  | 0, _ => none
  | steps + 1, current =>
    match child.get? current with
    | none => some [current]
    | some next => (pathFrom? child steps next).map (current :: ·)

inductive Growth where
  | reached (path : List Reference)
  | grown (tree : LinkedTree)

def candidates (incoming : Table Reference (List Reference)) (tree : LinkedTree) :
    List (Reference × Reference) :=
  tree.frontier.flatMap fun current =>
    (((incoming.get? current).getD []).mergeSort Reference.le).map fun referrer =>
      (referrer, current)

def takeUp (steps : Nat) (isTerminal : Reference → Bool) (tree : LinkedTree) :
    List (Reference × Reference) → Option Growth
  | [] => some (.grown tree)
  | (referrer, current) :: rest =>
    if referrer = tree.target ∨ tree.child.contains referrer = true then
      takeUp steps isTerminal tree rest
    else
      let child := tree.child.insert referrer current
      if isTerminal referrer then (pathFrom? child steps referrer).map .reached
      else takeUp steps isTerminal { tree with frontier := tree.frontier ++ [referrer], child } rest

def grow (steps : Nat) (incoming : Table Reference (List Reference)) (isTerminal : Reference → Bool)
    (tree : LinkedTree) : Option Growth :=
  takeUp steps isTerminal { tree with frontier := [] } (tree.candidates incoming)

end LinkedTree

namespace LinkedSearch

def growAll (steps : Nat) (incoming : Table Reference (List Reference))
    (isTerminal : Reference → Bool) :
    List LinkedTree → SearchResult → Option (List LinkedTree × SearchResult)
  | [], result => some ([], result)
  | tree :: rest, result => do
    match ← tree.grow steps incoming isTerminal with
    | .reached path =>
      growAll steps incoming isTerminal rest
        { result with paths := result.paths.insert tree.target path }
    | .grown grown =>
      let (remaining, result) ← growAll steps incoming isTerminal rest result
      if grown.frontier = [] then return (remaining, result)
      else return (grown :: remaining, result)

variable {ε : Type} [OfStoreError ε]

def levels (readable : ReadableWorkspaces) (limit steps : Nat) :
    Nat → Nat → List LinkedTree → SearchResult → Enquiry ε (Option SearchResult)
  | 0, _, _, _ => return none
  | rounds + 1, count, trees, result =>
    if trees.isEmpty then return some result
    else do
      let frontier := (trees.flatMap LinkedTree.frontier).eraseDups
      let incoming ← Enquiry.query (.incomingReferences frontier)
      let count := count + incoming.values.flatten.length
      if limit < count then return some { result with limitReached := true }
      else do
        let states ← Search.statesOf (Search.judged readable incoming)
        match growAll steps incoming (Search.isTerminal readable states) trees result with
        | none => return none
        | some (trees, result) => levels readable limit steps rounds count trees result

def run (readable : ReadableWorkspaces) (limit rounds : Nat) (targets : List Reference) :
    Enquiry ε (Option SearchResult) :=
  let targets := targets.eraseDups
  if targets.isEmpty || readable.isEmpty then return some {}
  else if limit < targets.length then return some { limitReached := true }
  else
    levels readable limit rounds rounds targets.length
      ((targets.mergeSort Reference.le).map LinkedTree.ofTarget) {}

end LinkedSearch

namespace LinkedTree

section Path

variable {child : Table Reference Reference} {current referrer : Reference} {path : List Reference}
variable {steps : Nat}

theorem pathFrom?_insert {further : Reference} (built : pathFrom? child steps current = some path)
    (apart : referrer ∉ path) :
    pathFrom? (child.insert referrer further) steps current = some path := by
  induction steps generalizing current path with
  | zero => cases built
  | succ steps ih =>
    rw [pathFrom?] at built ⊢
    cases linked : child.get? current with
    | none =>
      rw [linked] at built
      cases built
      have elsewhere : referrer ≠ current := by simpa using apart
      rw [Table.get?_insert, if_neg elsewhere, linked]
    | some next =>
      rw [linked] at built
      rcases Option.map_eq_some_iff.mp built with ⟨rest, onward, rfl⟩
      have elsewhere : referrer ≠ current ∧ referrer ∉ rest := by simpa using apart
      rw [Table.get?_insert, if_neg elsewhere.1, linked]
      exact Option.map_eq_some_iff.mpr ⟨rest, ih onward elsewhere.2, rfl⟩

theorem pathFrom?_insert_self (built : pathFrom? child steps current = some path)
    (apart : referrer ∉ path) :
    pathFrom? (child.insert referrer current) (steps + 1) referrer = some (referrer :: path) := by
  rw [pathFrom?, Table.get?_insert, if_pos rfl]
  exact Option.map_eq_some_iff.mpr ⟨path, pathFrom?_insert built apart, rfl⟩

end Path

structure Builds (child : Table Reference Reference) (tree : SearchTree) (chain : Chain) :
    Prop where
  path : ∀ steps, chain.toList.length ≤ steps →
    pathFrom? child steps chain.source = some chain.toList
  inside : ∀ reference ∈ chain.toList, reference = tree.target ∨ reference ∈ tree.found

structure Parallels (linked : LinkedTree) (tree : SearchTree) : Prop where
  target : linked.target = tree.target
  frontier : linked.frontier = tree.frontier.map Chain.source
  found : ∀ reference, linked.child.contains reference = true ↔ reference ∈ tree.found
  builds : ∀ chain ∈ tree.frontier, Builds linked.child tree chain

inductive Follows : Option Growth → SearchTree.Growth → Prop where
  | reached (path : List Reference) : Follows (some (.reached path)) (.reached path)
  | grown {linked : LinkedTree} {tree : SearchTree} (parallels : linked.Parallels tree) :
      Follows (some (.grown linked)) (.grown tree)

theorem parallels_ofTarget (target : Reference) :
    (ofTarget target).Parallels (SearchTree.ofTarget target) := by
  refine ⟨rfl, rfl, by simp [ofTarget, SearchTree.ofTarget, Table.contains], ?_⟩
  intro chain mem
  obtain rfl := List.mem_singleton.mp mem
  constructor
  · intro steps long
    cases steps with
    | zero => cases long
    | succ steps => rfl
  · intro reference mem
    exact .inl (List.mem_singleton.mp mem)

section Insert

variable {child : Table Reference Reference} {tree : SearchTree} {chain : Chain}
variable {referrer : Reference} (frontier : List Chain)

theorem Builds.remembered (builds : Builds child tree chain) :
    ∀ reference ∈ chain.toList, reference = tree.target ∨ reference ∈ referrer :: tree.found := by
  intro reference mem
  rcases builds.inside reference mem with same | known
  · exact .inl same
  · exact .inr (List.mem_cons_of_mem _ known)

theorem Builds.insert {further : Reference} (builds : Builds child tree chain)
    (new : ¬ (referrer = tree.target ∨ referrer ∈ tree.found)) :
    Builds (child.insert referrer further)
      { tree with frontier := frontier, found := referrer :: tree.found } chain := by
  constructor
  · intro steps long
    exact pathFrom?_insert (builds.path steps long) fun mem => new (builds.inside referrer mem)
  · exact builds.remembered

theorem Builds.extend (builds : Builds child tree chain)
    (new : ¬ (referrer = tree.target ∨ referrer ∈ tree.found)) :
    Builds (child.insert referrer chain.source)
      { tree with frontier := frontier, found := referrer :: tree.found }
      (chain.extend referrer) := by
  constructor
  · intro steps long
    cases steps with
    | zero => cases long
    | succ steps =>
      apply pathFrom?_insert_self (builds.path steps (Nat.le_of_succ_le_succ long))
      exact fun mem => new (builds.inside referrer mem)
  · intro reference mem
    rcases List.mem_cons.mp mem with rfl | onward
    · exact .inr List.mem_cons_self
    · exact builds.remembered reference onward

end Insert

variable (incoming : Table Reference (List Reference)) (isTerminal : Reference → Bool)
variable {linked : LinkedTree} {tree : SearchTree} {steps : Nat}

theorem takeUp_follows (parallels : linked.Parallels tree) {pairs : List (Chain × Reference)}
    (builds : ∀ pair ∈ pairs, Builds linked.child tree pair.1)
    (short : ∀ pair ∈ pairs, pair.1.toList.length < steps) :
    Follows (takeUp steps isTerminal linked (pairs.map fun pair => (pair.2, pair.1.source)))
      (SearchTree.takeUp isTerminal tree (pairs.map fun pair => pair.1.extend pair.2)) := by
  induction pairs generalizing linked tree with
  | nil => exact .grown parallels
  | cons pair rest ih =>
    have parted := List.forall_mem_cons.mp builds
    have parted' := List.forall_mem_cons.mp short
    have source : (pair.1.extend pair.2).source = pair.2 := rfl
    simp only [List.map_cons, takeUp, SearchTree.takeUp, parallels.target, parallels.found, source]
    by_cases known : pair.2 = tree.target ∨ pair.2 ∈ tree.found
    · rw [if_pos known, if_pos known]
      exact ih parallels parted.2 parted'.2
    · rw [if_neg known, if_neg known]
      have extended := fun frontier => parted.1.extend frontier known
      cases terminal : isTerminal pair.2 with
      | true =>
        have path := (extended []).path steps parted'.1
        rw [source] at path
        simp only [path, if_true]
        exact .reached _
      | false =>
        simp only [Bool.false_eq_true, if_false]
        refine ih ?_ ?_ parted'.2
        · constructor
          · rfl
          · simp [parallels.frontier, source]
          · intro reference
            simp [Table.contains_insert, parallels.found, @eq_comm _ pair.2]
          · intro chain mem
            rcases List.mem_append.mp mem with earlier | last
            · exact (parallels.builds chain earlier).insert _ known
            · obtain rfl := List.mem_singleton.mp last
              exact extended _
        · intro other listed
          exact (parted.2 other listed).insert _ known

theorem grow_follows (parallels : linked.Parallels tree)
    (short : ∀ chain ∈ tree.frontier, chain.toList.length < steps) :
    Follows (linked.grow steps incoming isTerminal) (tree.grow incoming isTerminal) := by
  let pairs := tree.frontier.flatMap fun chain =>
    (((incoming.get? chain.source).getD []).mergeSort Reference.le).map fun referrer =>
      (chain, referrer)
  have same : linked.candidates incoming = pairs.map fun pair => (pair.2, pair.1.source) := by
    simp [pairs, candidates, parallels.frontier, List.flatMap_map, List.map_flatMap,
      Function.comp_def]
  have same' : tree.candidates incoming = pairs.map fun pair => pair.1.extend pair.2 := by
    simp [pairs, SearchTree.candidates, List.map_flatMap, Function.comp_def]
  have on_frontier : ∀ pair ∈ pairs, pair.1 ∈ tree.frontier := by
    intro pair listed
    rcases List.mem_flatMap.mp listed with ⟨chain, on_frontier, extended⟩
    rcases List.mem_map.mp extended with ⟨referrer, _, rfl⟩
    exact on_frontier
  rw [grow, SearchTree.grow, same, same']
  apply takeUp_follows
  · exact ⟨parallels.target, rfl, parallels.found, by simp⟩
  · intro pair listed
    have builds := parallels.builds pair.1 (on_frontier pair listed)
    exact ⟨builds.path, builds.inside⟩
  · intro pair listed
    exact short pair.1 (on_frontier pair listed)

end LinkedTree

namespace LinkedSearch

open LinkedTree (Parallels Follows)

variable {linkeds : List LinkedTree} {trees : List SearchTree} {steps : Nat}

theorem frontier_parallels (parallel : List.Forall₂ Parallels linkeds trees) :
    (linkeds.flatMap LinkedTree.frontier).eraseDups = Search.frontierOf trees := by
  rw [Search.frontierOf]
  congr 1
  induction parallel with
  | nil => rfl
  | cons parallels _ ih => simp only [List.flatMap_cons, parallels.frontier, ih]

theorem growAll_parallels (incoming : Table Reference (List Reference))
    (isTerminal : Reference → Bool) (parallel : List.Forall₂ Parallels linkeds trees)
    (short : ∀ tree ∈ trees, ∀ chain ∈ tree.frontier, chain.toList.length < steps)
    (result : SearchResult) :
    ∃ grown, growAll steps incoming isTerminal linkeds result =
        some (grown, (Search.growAll incoming isTerminal trees result).2) ∧
      List.Forall₂ Parallels grown (Search.growAll incoming isTerminal trees result).1 := by
  induction parallel generalizing result with
  | nil => exact ⟨[], rfl, .nil⟩
  | @cons linked tree linkeds trees parallels _ ih =>
    have parted := List.forall_mem_cons.mp short
    have follows := LinkedTree.grow_follows incoming isTerminal parallels parted.1
    simp only [growAll, Search.growAll, parallels.target]
    generalize linked.grow steps incoming isTerminal = growth at follows ⊢
    generalize tree.grow incoming isTerminal = growth' at follows ⊢
    cases follows with
    | reached path =>
      rcases ih parted.2 { result with paths := result.paths.insert tree.target path } with
        ⟨grown, same, onward⟩
      exact ⟨grown, same, onward⟩
    | @grown next next' next_parallels =>
      rcases ih parted.2 result with ⟨grown, same, onward⟩
      have out : next.frontier = [] ↔ next'.frontier = [] := by simp [next_parallels.frontier]
      simp only [same, Option.bind_eq_bind, Option.bind_some, out]
      by_cases empty : next'.frontier = []
      · simp only [empty, if_true]
        exact ⟨grown, rfl, onward⟩
      · simp only [empty, if_false]
        exact ⟨next :: grown, rfl, .cons next_parallels onward⟩

theorem growAll_longer {incoming : Table Reference (List Reference)} {isTerminal : Reference → Bool}
    {result : SearchResult} {grown : SearchTree} {chain : Chain}
    (listed : grown ∈ (Search.growAll incoming isTerminal trees result).1)
    (on_frontier : chain ∈ grown.frontier) :
    ∃ tree ∈ trees, ∃ before ∈ tree.frontier,
      chain.toList.length = before.toList.length + 1 := by
  rcases Search.mem_growAll incoming isTerminal listed with ⟨tree, known, rfl, _⟩
  rcases SearchTree.mem_ascents on_frontier with ⟨before, earlier, _, _, _, same, _⟩
  refine ⟨tree, known, before, earlier, ?_⟩
  rw [same]
  rfl

variable {ε : Type} [OfStoreError ε] {readable : ReadableWorkspaces}
variable {limit rounds fuel count : Nat}

-- Each level makes the chains longer by one, so the steps last as the rounds do.
theorem levels_eq (parallel : List.Forall₂ Parallels linkeds trees) {result : SearchResult}
    (short : ∀ tree ∈ trees, ∀ chain ∈ tree.frontier, chain.toList.length + rounds ≤ steps + 1)
    (below : count ≤ limit) (lasts : limit < count + fuel) (lasts' : limit < count + rounds)
    (lasts_on : trees ≠ [] → limit + 1 < count + fuel ∧ limit + 1 < count + rounds) :
    (levels readable limit steps rounds count linkeds result : Enquiry ε _) =
      Search.levels readable limit fuel count trees result >>= fun searched =>
        pure (some searched) := by
  induction fuel generalizing rounds count linkeds trees result with
  | zero => omega
  | succ fuel ih =>
    cases rounds with
    | zero => omega
    | succ rounds =>
      have empty : linkeds.isEmpty = trees.isEmpty := by cases parallel <;> rfl
      have folded : (trees.flatMap fun tree => tree.frontier.map Chain.source).eraseDups =
          Search.frontierOf trees := rfl
      rw [levels, Search.levels, empty, frontier_parallels parallel, folded]
      by_cases none : trees = []
      · subst none
        rfl
      · have more : trees.isEmpty = false := by simpa using none
        have long := lasts_on none
        simp only [more, Bool.false_eq_true, if_false]
        change Enquiry.bind _ _ = Enquiry.bind (Enquiry.bind _ _) _
        rw [Enquiry.bind_assoc]
        congr 1
        funext incoming
        by_cases exceeds : limit < count + incoming.values.flatten.length
        · simp only [exceeds, if_true]
          rfl
        · simp only [exceeds, if_false]
          change Enquiry.bind _ _ = Enquiry.bind (Enquiry.bind _ _) _
          rw [Enquiry.bind_assoc]
          congr 1
          funext states
          have shorter : ∀ tree ∈ trees, ∀ chain ∈ tree.frontier, chain.toList.length < steps := by
            intro tree listed chain on_frontier
            have := short tree listed chain on_frontier
            omega
          rcases growAll_parallels incoming (Search.isTerminal readable states) parallel shorter
            result with ⟨grown, same, onward⟩
          rw [same]
          refine ih onward ?_ (by omega) (by omega) (by omega) ?_
          · intro tree listed chain on_frontier
            rcases growAll_longer listed on_frontier with
              ⟨before, known, earlier, on_earlier, longer⟩
            have := short before known earlier on_earlier
            omega
          · intro left
            have counts := Search.growAll_counts incoming _ left
            omega

theorem planted_parallels (targets : List Reference) :
    List.Forall₂ Parallels (targets.map LinkedTree.ofTarget) (targets.map SearchTree.ofTarget) := by
  induction targets with
  | nil => exact .nil
  | cons target rest ih => exact .cons (LinkedTree.parallels_ofTarget target) ih

theorem run_eq (readable : ReadableWorkspaces) (long : limit < rounds) (targets : List Reference) :
    (run readable limit rounds targets : Enquiry ε _) =
      Search.run readable limit targets >>= fun searched => pure (some searched) := by
  simp only [run, Search.run]
  by_cases nothing : (targets.eraseDups.isEmpty || readable.isEmpty) = true
  · simp only [nothing, if_true]
    rfl
  · simp only [nothing]
    by_cases exceeds : limit < targets.eraseDups.length
    · simp only [exceeds, if_true]
      rfl
    · simp only [exceeds, if_false]
      have positive : 0 < targets.eraseDups.length := by
        simp only [Bool.or_eq_true, List.isEmpty_iff, not_or] at nothing
        exact List.length_pos_iff.mpr nothing.1
      refine levels_eq (planted_parallels _) ?_ (by omega) (by omega) (by omega) fun _ => by omega
      intro tree listed chain on_frontier
      rcases List.mem_map.mp listed with ⟨target, _, rfl⟩
      obtain rfl := List.mem_singleton.mp on_frontier
      exact (Nat.add_comm 1 rounds).le

end LinkedSearch

end ObjectSpace
