import ObjectSpace.Proofs.Enquiry.Transcript
import ObjectSpace.Proofs.Resolution.Levels

set_option autoImplicit false

namespace ObjectSpace

namespace SearchTree

variable (incoming : Table Reference (List Reference)) (isTerminal : Reference → Bool)
variable (tree : SearchTree)

def ascended : SearchTree where
  target := tree.target
  frontier := tree.ascents incoming
  found := ((tree.ascents incoming).map Chain.source).reverse ++ tree.found

theorem grow_cases :
    (∃ chain ∈ tree.ascents incoming, isTerminal chain.source = true ∧
      tree.grow incoming isTerminal = .reached chain.toList) ∨
    tree.grow incoming isTerminal = .grown (tree.ascended incoming) := by
  rw [grow, takeUp_eq]
  split
  next chain first =>
    have terminal : isTerminal chain.source = true := by simpa using List.find?_some first
    exact .inl ⟨chain, List.mem_of_find?_eq_some first, terminal, rfl⟩
  next => exact .inr rfl

variable {incoming tree}

theorem mem_ascents {chain : Chain} (mem : chain ∈ tree.ascents incoming) :
    ∃ before ∈ tree.frontier, ∃ referrers, incoming.get? before.source = some referrers ∧
      chain.source ∈ referrers ∧ chain = before.extend chain.source ∧
      ¬ (chain.source = tree.target ∨ chain.source ∈ tree.found) := by
  have new := fresh_source mem
  have candidate := fresh_sublist.mem mem
  simp only [candidates, List.mem_flatMap, List.mem_map, List.mem_mergeSort] at candidate
  rcases candidate with ⟨before, on_frontier, source, listed, rfl⟩
  cases answered : incoming.get? before.source with
  | none => simp [answered] at listed
  | some referrers =>
    rw [answered, Option.getD_some] at listed
    exact ⟨before, on_frontier, referrers, answered, listed, rfl, new⟩

end SearchTree

namespace Search

section Trees

variable (incoming : Table Reference (List Reference)) (isTerminal : Reference → Bool)
variable {trees : List SearchTree} {result : SearchResult} {target : Reference}

theorem growAll_apart (apart : target ∉ trees.map SearchTree.target) :
    (growAll incoming isTerminal trees result).2.paths.get? target =
      result.paths.get? target := by
  induction trees generalizing result with
  | nil => rfl
  | cons tree rest ih =>
    simp only [List.map_cons, List.mem_cons, not_or] at apart
    cases grows : tree.grow incoming isTerminal with
    | reached path =>
      have other : ¬ tree.target = target := fun same => apart.1 same.symm
      simp [growAll, grows, ih apart.2, Table.get?_insert, other]
    | grown grown =>
      simp only [growAll, grows]
      split <;> exact ih apart.2

theorem growAll_targets :
    ((growAll incoming isTerminal trees result).1.map SearchTree.target).Sublist
      (trees.map SearchTree.target) := by
  induction trees generalizing result with
  | nil => exact .slnil
  | cons tree rest ih =>
    rcases tree.grow_cases incoming isTerminal with ⟨chain, _, _, grows⟩ | grows
    · simp only [growAll, grows, List.map_cons]
      exact ih.cons _
    · simp only [growAll, grows, List.map_cons]
      split
      · exact ih.cons _
      · exact ih.cons_cons _

theorem mem_growAll {grown : SearchTree}
    (mem : grown ∈ (growAll incoming isTerminal trees result).1) :
    ∃ tree ∈ trees, grown = tree.ascended incoming ∧ tree.ascents incoming ≠ [] := by
  induction trees generalizing result with
  | nil => cases mem
  | cons tree rest ih =>
    rcases tree.grow_cases incoming isTerminal with ⟨chain, _, _, grows⟩ | grows
    · simp only [growAll, grows] at mem
      rcases ih mem with ⟨before, listed, grew⟩
      exact ⟨before, List.mem_cons_of_mem _ listed, grew⟩
    · simp only [growAll, grows] at mem
      split at mem
      next =>
        rcases ih mem with ⟨before, listed, grew⟩
        exact ⟨before, List.mem_cons_of_mem _ listed, grew⟩
      next filled =>
        rcases List.mem_cons.mp mem with rfl | later
        · exact ⟨tree, List.mem_cons_self, rfl, filled⟩
        · rcases ih later with ⟨before, listed, grew⟩
          exact ⟨before, List.mem_cons_of_mem _ listed, grew⟩

theorem growAll_path {path : List Reference}
    (found : (growAll incoming isTerminal trees result).2.paths.get? target = some path) :
    result.paths.get? target = some path ∨ ∃ tree ∈ trees, tree.target = target ∧
      ∃ chain ∈ tree.ascents incoming, isTerminal chain.source = true ∧ path = chain.toList := by
  induction trees generalizing result with
  | nil => exact .inl found
  | cons tree rest ih =>
    rcases tree.grow_cases incoming isTerminal with ⟨chain, kept, terminal, grows⟩ | grows
    · simp only [growAll, grows] at found
      rcases ih found with before | ⟨other, listed, reached⟩
      · rw [Table.get?_insert] at before
        split at before
        next same =>
          cases before
          exact .inr ⟨tree, List.mem_cons_self, same, chain, kept, terminal, rfl⟩
        next => exact .inl before
      · exact .inr ⟨other, List.mem_cons_of_mem _ listed, reached⟩
    · have later : (growAll incoming isTerminal rest result).2.paths.get? target = some path := by
        simp only [growAll, grows] at found
        split at found <;> exact found
      rcases ih later with before | ⟨other, listed, reached⟩
      · exact .inl before
      · exact .inr ⟨other, List.mem_cons_of_mem _ listed, reached⟩

theorem growAll_counts (left : (growAll incoming isTerminal trees result).1 ≠ []) :
    0 < incoming.values.flatten.length := by
  rcases List.exists_mem_of_ne_nil _ left with ⟨grown, mem⟩
  rcases mem_growAll incoming isTerminal mem with ⟨tree, _, _, grew⟩
  rcases List.exists_mem_of_ne_nil _ grew with ⟨chain, kept⟩
  rcases SearchTree.mem_ascents kept with ⟨before, _, referrers, answered, listed, _⟩
  apply List.length_pos_of_mem
  exact List.mem_flatten.mpr ⟨referrers, Table.mem_values_iff.mpr ⟨_, answered⟩, listed⟩

structure Pending (trees : List SearchTree) (result : SearchResult) : Prop where
  nodup : (trees.map SearchTree.target).Nodup
  absent : ∀ tree ∈ trees, result.paths.get? tree.target = none

namespace Pending

theorem grown (pending : Pending trees result) :
    Pending (growAll incoming isTerminal trees result).1
      (growAll incoming isTerminal trees result).2 := by
  refine ⟨pending.nodup.sublist (growAll_targets incoming isTerminal), ?_⟩
  rcases pending with ⟨nodup, absent⟩
  induction trees generalizing result with
  | nil => simp [growAll]
  | cons tree rest ih =>
    have parted := List.nodup_cons.mp nodup
    have apart : ∀ other ∈ rest, ¬ tree.target = other.target := by
      intro other listed same
      exact parted.1 (same ▸ List.mem_map_of_mem listed)
    have others : ∀ other ∈ rest, result.paths.get? other.target = none :=
      fun other listed => absent other (List.mem_cons_of_mem _ listed)
    rcases tree.grow_cases incoming isTerminal with ⟨chain, _, _, grows⟩ | grows
    · simp only [growAll, grows]
      apply ih parted.2
      intro other listed
      simp [Table.get?_insert, apart other listed, others other listed]
    · simp only [growAll, grows]
      split
      · exact ih parted.2 others
      · intro other mem
        rcases List.mem_cons.mp mem with rfl | later
        · change (growAll incoming isTerminal rest result).2.paths.get? tree.target = none
          rw [growAll_apart incoming isTerminal parted.1]
          exact absent tree List.mem_cons_self
        · exact ih parted.2 others other later

theorem kept (pending : Pending trees result) {path : List Reference}
    (found : result.paths.get? target = some path) :
    (growAll incoming isTerminal trees result).2.paths.get? target = some path := by
  rw [growAll_apart incoming isTerminal, found]
  intro searched
  rcases List.mem_map.mp searched with ⟨tree, mem, rfl⟩
  rw [pending.absent tree mem] at found
  cases found

end Pending

end Trees

section Climb

variable {ε σ : Type} [OfStoreError ε]

def judged (readable : ReadableWorkspaces) (incoming : Table Reference (List Reference)) :
    List Reference :=
  (incoming.values.flatten.filter fun reference =>
    readable.contains reference.workspace).eraseDups

inductive Climb (respond : Responder σ) (readable : ReadableWorkspaces) (limit : Nat) :
    Nat → List SearchTree → SearchResult → σ → List (Exchange σ) → Except ε SearchResult →
      Prop where
  | done {count : Nat} {result : SearchResult} {state : σ} :
      Climb respond readable limit count [] result state [] (.ok result)
  | unanswered {count : Nat} {trees : List SearchTree} {result : SearchResult} {state after : σ}
      {fault : StoreError} (some_tree : trees ≠ [])
      (asked : respond (.incomingReferences (frontierOf trees)) state = (.error fault, after)) :
      Climb respond readable limit count trees result state
        [⟨.incomingReferences (frontierOf trees), .error fault, after⟩]
        (.error (OfStoreError.ofStoreError fault))
  | exceeded {count : Nat} {trees : List SearchTree} {result : SearchResult} {state after : σ}
      {incoming : Table Reference (List Reference)} (some_tree : trees ≠ [])
      (asked : respond (.incomingReferences (frontierOf trees)) state = (.ok incoming, after))
      (exceeds : limit < count + incoming.values.flatten.length) :
      Climb respond readable limit count trees result state
        [⟨.incomingReferences (frontierOf trees), .ok incoming, after⟩]
        (.ok { result with limitReached := true })
  | unjudged {count : Nat} {trees : List SearchTree} {result : SearchResult}
      {state after between : σ} {incoming : Table Reference (List Reference)} {error : ε}
      (some_tree : trees ≠ [])
      (asked : respond (.incomingReferences (frontierOf trees)) state = (.ok incoming, after))
      (within : count + incoming.values.flatten.length ≤ limit)
      (failed : (statesOf (judged readable incoming) : Enquiry ε _).runWith respond after =
        (.error error, between)) :
      Climb respond readable limit count trees result state
        (⟨.incomingReferences (frontierOf trees), .ok incoming, after⟩ ::
          (statesOf (judged readable incoming) : Enquiry ε _).transcript respond after)
        (.error error)
  | level {count : Nat} {trees : List SearchTree} {result : SearchResult} {state after between : σ}
      {incoming : Table Reference (List Reference)} {states : Table Reference ObjectState}
      {later : List (Exchange σ)} {outcome : Except ε SearchResult} (some_tree : trees ≠ [])
      (asked : respond (.incomingReferences (frontierOf trees)) state = (.ok incoming, after))
      (within : count + incoming.values.flatten.length ≤ limit)
      (told : (statesOf (judged readable incoming) : Enquiry ε _).runWith respond after =
        (.ok states, between))
      (onward : Climb respond readable limit (count + incoming.values.flatten.length)
        (growAll incoming (Search.isTerminal readable states) trees result).1
        (growAll incoming (Search.isTerminal readable states) trees result).2 between later
        outcome) :
      Climb respond readable limit count trees result state
        (⟨.incomingReferences (frontierOf trees), .ok incoming, after⟩ ::
          ((statesOf (judged readable incoming) : Enquiry ε _).transcript respond after ++ later))
        outcome

variable {respond : Responder σ} {readable : ReadableWorkspaces} {limit fuel count : Nat}
variable {trees : List SearchTree} {result : SearchResult} {state : σ}

theorem climb_levels (lasts : limit < count + fuel)
    (lasts_on : trees ≠ [] → limit + 1 < count + fuel) (below : count ≤ limit) :
    Climb respond readable limit count trees result state
      ((levels readable limit fuel count trees result : Enquiry ε _).transcript respond state)
      ((levels readable limit fuel count trees result : Enquiry ε _).runWith respond state).1 := by
  induction fuel generalizing count trees result state with
  | zero => omega
  | succ fuel ih =>
    by_cases none : trees = []
    · subst none
      exact .done
    · have more : trees.isEmpty = false := by simpa using none
      have long := lasts_on none
      have folded : (trees.flatMap fun tree => tree.frontier.map Chain.source).eraseDups =
          frontierOf trees := rfl
      rw [levels, more, folded]
      simp only [Bool.false_eq_true, if_false]
      cases asked : respond (.incomingReferences (frontierOf trees)) state with
      | mk reply after =>
        cases reply with
        | error fault =>
          rw [(Enquiry.query_bind_fault _ asked).1, (Enquiry.query_bind_fault _ asked).2]
          exact .unanswered none asked
        | ok incoming =>
          rw [(Enquiry.query_bind_ok _ asked).1, (Enquiry.query_bind_ok _ asked).2]
          by_cases exceeds : limit < count + incoming.values.flatten.length
          · simp only [exceeds, if_true]
            exact .exceeded none asked exceeds
          · have within : count + incoming.values.flatten.length ≤ limit := by omega
            simp only [exceeds, if_false]
            rw [Enquiry.transcript_bind, Enquiry.runWith_bind]
            cases told : (statesOf (judged readable incoming) : Enquiry ε _).runWith respond after
              with
            | mk states between =>
              rw [judged] at told
              cases states with
              | error error =>
                rw [told, List.append_nil]
                exact .unjudged none asked within told
              | ok states =>
                rw [told]
                apply Climb.level none asked within told
                apply ih (by omega) _ within
                intro left
                have counts := growAll_counts incoming _ left
                omega

def planted (targets : List Reference) : List SearchTree :=
  (targets.eraseDups.mergeSort Reference.le).map SearchTree.ofTarget

theorem pending_planted (targets : List Reference) : Pending (planted targets) {} := by
  constructor
  · simp [planted, List.map_map, Function.comp_def, SearchTree.ofTarget]
  · intro tree mem
    rfl

variable {targets : List Reference}

theorem eraseDups_pos (some_target : targets ≠ []) : 0 < targets.eraseDups.length := by
  rcases List.exists_mem_of_ne_nil _ some_target with ⟨target, mem⟩
  exact List.length_pos_of_mem (List.mem_eraseDups.mpr mem)

theorem run_nothing (nothing : targets = [] ∨ readable.isEmpty = true) :
    (Search.run readable limit targets : Enquiry ε _) = pure {} := by
  rcases nothing with rfl | unreadable <;> simp [Search.run, *]

theorem run_over (some_target : targets ≠ []) (able : readable.isEmpty = false)
    (exceeds : limit < targets.eraseDups.length) :
    (Search.run readable limit targets : Enquiry ε _) = pure { limitReached := true } := by
  have distinct := List.ne_nil_of_length_pos (eraseDups_pos some_target)
  simp [Search.run, able, exceeds, distinct]

theorem run_planted (some_target : targets ≠ []) (able : readable.isEmpty = false)
    (within : targets.eraseDups.length ≤ limit) :
    (Search.run readable limit targets : Enquiry ε _) =
      levels readable limit (limit + 1) targets.eraseDups.length (planted targets) {} := by
  have counted : ¬ limit < targets.eraseDups.length := by omega
  have distinct := List.ne_nil_of_length_pos (eraseDups_pos some_target)
  simp [Search.run, able, counted, distinct, planted]

theorem climb_run (some_target : targets ≠ []) (able : readable.isEmpty = false)
    (within : targets.eraseDups.length ≤ limit) :
    Climb respond readable limit targets.eraseDups.length (planted targets) {} state
      ((Search.run readable limit targets : Enquiry ε _).transcript respond state)
      ((Search.run readable limit targets : Enquiry ε _).runWith respond state).1 := by
  have positive := eraseDups_pos some_target
  rw [run_planted some_target able within]
  exact climb_levels (by omega) (fun _ => by omega) within

end Climb

end Search

end ObjectSpace
