import ObjectSpace.Proofs.Resolution.Ascent
import ObjectSpace.Proofs.Resolution.Run

set_option autoImplicit false

namespace ObjectSpace

namespace SearchTree

def Rooted (tree : SearchTree) (chains : List Chain) : Prop :=
  ∀ chain ∈ chains, chain.toList.getLast? = some tree.target

variable {tree : SearchTree} (incoming : Table Reference (List Reference))
variable (isTerminal : Reference → Bool)

theorem rooted_candidates (rooted : tree.Rooted tree.frontier) :
    tree.Rooted (tree.candidates incoming) := by
  intro longer mem
  rcases List.mem_flatMap.mp mem with ⟨chain, on_frontier, extended⟩
  rcases List.mem_map.mp extended with ⟨referrer, _, rfl⟩
  have ends := rooted chain on_frontier
  simpa [Chain.extend, Chain.toList] using ends

theorem grow_rooted (rooted : tree.Rooted tree.frontier) :
    (∀ path, tree.grow incoming isTerminal = .reached path → path.getLast? = some tree.target) ∧
      ∀ next, tree.grow incoming isTerminal = .grown next → next.target = tree.target ∧
        next.Rooted next.frontier := by
  have candidates := rooted_candidates incoming rooted
  have kept : tree.Rooted (fresh tree.target tree.found (tree.candidates incoming)) :=
    fun chain mem => candidates chain (fresh_sublist.mem mem)
  constructor
  · intro path reached
    rw [grow, takeUp_eq] at reached
    split at reached
    next chain first =>
      cases reached
      exact kept chain (List.mem_of_find?_eq_some first)
    next => cases reached
  · intro next grown
    rw [grow, takeUp_eq] at grown
    split at grown
    next => cases grown
    next =>
      cases grown
      exact ⟨rfl, by simpa [Rooted] using kept⟩

end SearchTree

namespace Search

open Resolver (PathsEnd)

variable (incoming : Table Reference (List Reference)) (isTerminal : Reference → Bool)
variable {trees : List SearchTree} {result : SearchResult}

theorem growAll_ends (rooted : ∀ tree ∈ trees, tree.Rooted tree.frontier) (ends : PathsEnd result) :
    (∀ tree ∈ (growAll incoming isTerminal trees result).1, tree.Rooted tree.frontier) ∧
      PathsEnd (growAll incoming isTerminal trees result).2 := by
  induction trees generalizing result with
  | nil => exact ⟨by simp [growAll], ends⟩
  | cons first rest ih =>
    have grows := SearchTree.grow_rooted incoming isTerminal (rooted first List.mem_cons_self)
    have others : ∀ tree ∈ rest, tree.Rooted tree.frontier :=
      fun tree mem => rooted tree (List.mem_cons_of_mem _ mem)
    cases grown : first.grow incoming isTerminal with
    | reached path =>
      simp only [growAll, grown]
      apply ih others
      intro target other found
      rw [Table.get?_insert] at found
      split at found
      next same =>
        cases found
        exact same ▸ grows.1 path grown
      next => exact ends target other found
    | grown next =>
      have onward := ih others ends
      simp only [growAll, grown]
      split
      · exact onward
      · refine ⟨?_, onward.2⟩
        intro tree mem
        rcases List.mem_cons.mp mem with rfl | mem
        · exact (grows.2 _ grown).2
        · exact onward.1 tree mem

variable (store : Store) (readable : ReadableWorkspaces) (limit : Nat)

theorem run_levels_ends (fuel count : Nat) (rooted : ∀ tree ∈ trees, tree.Rooted tree.frontier)
    (ends : PathsEnd result) :
    ∃ searched, (levels readable limit fuel count trees result :
        Enquiry ResolveError SearchResult).run store = .ok searched ∧ PathsEnd searched := by
  induction fuel generalizing count trees result with
  | zero => exact ⟨_, rfl, ends⟩
  | succ fuel ih =>
    rw [levels]
    split
    · exact ⟨_, rfl, ends⟩
    · rw [Enquiry.run_bind_ok (Enquiry.run_query rfl)]
      dsimp only
      split
      · exact ⟨_, rfl, ends⟩
      · rw [Enquiry.run_bind_ok (Resolver.run_statesOf store _)]
        have grown := fun incoming isTerminal => growAll_ends incoming isTerminal rooted ends
        exact ih _ (grown _ _).1 (grown _ _).2

theorem run_ends (targets : List Reference) :
    ∃ searched, (Search.run readable limit targets : Enquiry ResolveError SearchResult).run store =
        .ok searched ∧ PathsEnd searched := by
  have nothing : ∀ reached, PathsEnd { limitReached := reached } := by
    intro reached target path found
    cases found
  simp only [Search.run]
  split
  · exact ⟨_, rfl, nothing _⟩
  · split
    · exact ⟨_, rfl, nothing _⟩
    · apply run_levels_ends
      · intro tree mem
        rcases List.mem_map.mp mem with ⟨target, _, rfl⟩
        simp [SearchTree.Rooted, SearchTree.ofTarget, Chain.toList]
      · exact nothing _

end Search

end ObjectSpace
