import Mathlib.Data.Set.Card
import ObjectSpace.Proofs.Resolution.Ascent
import ObjectSpace.Proofs.Resolution.Readable

set_option autoImplicit false

namespace ObjectSpace

def Store.examined (store : Store) (caller : Caller) (targets : Set Reference) :
    Set (Nat × Reference × Reference) :=
  {entry | store.refersTo entry.2.2 entry.2.1 = true ∧ ∃ target ∈ targets,
    store.AtDistance target entry.1 entry.2.1 ∧ store.ClosedWithin caller target entry.1}

noncomputable def Store.searchCost (store : Store) (caller : Caller) (targets : Set Reference) :
    ℕ∞ :=
  targets.encard + (store.examined caller targets).encard

namespace Search

def examinedBefore (store : Store) (caller : Caller) (targets : Set Reference) (depth : Nat) :
    Set (Nat × Reference × Reference) :=
  {entry ∈ store.examined caller targets | entry.1 < depth}

noncomputable def costBefore (store : Store) (caller : Caller) (targets : Set Reference)
    (depth : Nat) : ℕ∞ :=
  targets.encard + (examinedBefore store caller targets depth).encard

section Cost

variable (store : Store) (caller : Caller) (targets : Set Reference)

theorem costBefore_mono {near far : Nat} (below : near ≤ far) :
    costBefore store caller targets near ≤ costBefore store caller targets far := by
  have fewer : examinedBefore store caller targets near ⊆
      examinedBefore store caller targets far :=
    fun _ mem => ⟨mem.1, Nat.lt_of_lt_of_le mem.2 below⟩
  rw [costBefore, costBefore]
  gcongr

theorem costBefore_le (depth : Nat) :
    costBefore store caller targets depth ≤ store.searchCost caller targets := by
  rw [costBefore, Store.searchCost]
  gcongr
  exact Set.sep_subset _ _

theorem encard_le_costBefore (depth : Nat) :
    targets.encard ≤ costBefore store caller targets depth :=
  le_self_add

end Cost

variable {store : Store} {caller : Caller} {depth : Nat}
variable {incoming : Table Reference (List Reference)} {isTerminal : Reference → Bool}
variable {trees : List SearchTree} {result : SearchResult}

structure Advanced (store : Store) (caller : Caller) (depth : Nat)
    (incoming : Table Reference (List Reference)) (trees : List SearchTree)
    (result : SearchResult) (grown : List SearchTree × SearchResult) : Prop where
  level : ∀ tree ∈ grown.1, tree.Level store caller (depth + 1)
  grew : ∀ tree ∈ grown.1, ∃ before ∈ trees, tree.target = before.target ∧
    before.ascents incoming ≠ []
  canonical : ∀ target path, grown.2.paths.get? target = some path →
    result.paths.get? target = some path ∨
      store.Canonical caller path target ∧ path.length = depth + 2
  kept : ∀ target, result.paths.contains target = true → grown.2.paths.contains target = true
  settled : ∀ tree ∈ trees, (∃ later ∈ grown.1, later.target = tree.target) ∨
    grown.2.paths.contains tree.target = true ∨ store.Exhausted caller tree.target (depth + 1)
  limitReached : grown.2.limitReached = result.limitReached

namespace Advanced

variable {tree : SearchTree} {grown : List SearchTree × SearchResult}

theorem done (advanced : Advanced store caller depth incoming trees result grown)
    (gone : grown.2.paths.contains tree.target = true ∨
      store.Exhausted caller tree.target (depth + 1)) :
    Advanced store caller depth incoming (tree :: trees) result grown := by
  refine ⟨advanced.level, ?_, advanced.canonical, advanced.kept, ?_, advanced.limitReached⟩
  · intro later mem
    obtain ⟨before, listed, grew⟩ := advanced.grew later mem
    exact ⟨before, List.mem_cons_of_mem _ listed, grew⟩
  · intro other mem
    rcases List.mem_cons.mp mem with rfl | later
    · exact .inr gone
    · exact advanced.settled other later

theorem reached {path : List Reference}
    (advanced : Advanced store caller depth incoming trees
      { result with paths := result.paths.insert tree.target path } grown)
    (canonical : store.Canonical caller path tree.target ∧ path.length = depth + 2) :
    Advanced store caller depth incoming (tree :: trees) result grown := by
  have found : grown.2.paths.contains tree.target = true :=
    advanced.kept tree.target (by simp [Table.contains_insert])
  refine { advanced.done (.inl found) with canonical := ?_, kept := ?_ }
  · intro target other present
    rcases advanced.canonical target other present with before | canonical
    · rw [Table.get?_insert] at before
      split at before
      next same =>
        cases before
        exact .inr (same ▸ canonical)
      next => exact .inl before
    · exact .inr canonical
  · intro target present
    exact advanced.kept target (by simp [Table.contains_insert, present])

theorem left {next : SearchTree}
    (advanced : Advanced store caller depth incoming trees result grown)
    (same : next.target = tree.target) (grew : tree.ascents incoming ≠ [])
    (level : next.Level store caller (depth + 1)) :
    Advanced store caller depth incoming (tree :: trees) result (next :: grown.1, grown.2) := by
  refine ⟨?_, ?_, advanced.canonical, advanced.kept, ?_, advanced.limitReached⟩
  · intro later mem
    rcases List.mem_cons.mp mem with rfl | listed
    · exact level
    · exact advanced.level later listed
  · intro later mem
    rcases List.mem_cons.mp mem with rfl | listed
    · exact ⟨tree, List.mem_cons_self, same, grew⟩
    · obtain ⟨before, listed, grew⟩ := advanced.grew later listed
      exact ⟨before, List.mem_cons_of_mem _ listed, grew⟩
  · intro other mem
    rcases List.mem_cons.mp mem with rfl | later
    · exact .inl ⟨next, List.mem_cons_self, same⟩
    · rcases advanced.settled other later with ⟨remaining, listed, same⟩ | settled
      · exact .inl ⟨remaining, List.mem_cons_of_mem _ listed, same⟩
      · exact .inr settled

end Advanced

theorem growAll_advanced (consistent : store.Consistent)
    (levels : ∀ tree ∈ trees, tree.Level store caller depth)
    (informed : ∀ tree ∈ trees, tree.Informed store caller incoming isTerminal) :
    Advanced store caller depth incoming trees result
      (growAll incoming isTerminal trees result) := by
  induction trees generalizing result with
  | nil => exact ⟨by simp [growAll], by simp [growAll], fun _ _ found => .inl found,
      fun _ present => present, by simp, rfl⟩
  | cons tree rest ih =>
    have level := levels tree List.mem_cons_self
    have known := informed tree List.mem_cons_self
    have others := fun result => @ih result
      (fun tree mem => levels tree (List.mem_cons_of_mem _ mem))
      (fun tree mem => informed tree (List.mem_cons_of_mem _ mem))
    cases grows : tree.grow incoming isTerminal with
    | reached path =>
      simp only [growAll, grows]
      exact (others _).reached (SearchTree.grow_reached consistent level known grows)
    | grown grown =>
      obtain ⟨same, frontier, next⟩ := SearchTree.grow_grown consistent level known grows
      simp only [growAll, grows]
      by_cases out : grown.frontier = []
      · -- Nothing is one step farther away, so nothing is farther away at all.
        have none : ∀ source, ¬ store.AtDistance tree.target (depth + 1) source := by
          intro source far
          obtain ⟨chain, kept, _⟩ := next.layer.complete source (same ▸ far)
          simp [out] at kept
        simp only [out, if_true]
        exact (others result).done (.inr ⟨level.closed.hopeless none, none⟩)
      · simp only [out, if_false]
        exact (others result).left same (frontier ▸ out) next

def frontierOf (trees : List SearchTree) : List Reference :=
  (trees.flatMap fun tree => tree.frontier.map Chain.source).eraseDups

theorem mem_frontierOf {source : Reference} :
    source ∈ frontierOf trees ↔ ∃ tree ∈ trees, ∃ chain ∈ tree.frontier, chain.source = source := by
  simp [frontierOf, List.mem_eraseDups]

theorem frontierOf_nodup (trees : List SearchTree) : (frontierOf trees).Nodup :=
  nodup_eraseDups _

def referrersAt (store : Store) (trees : List SearchTree) : Table Reference (List Reference) :=
  Table.tabulate (frontierOf trees) store.referrers

def statesAt (store : Store) (readable : ReadableWorkspaces)
    (incoming : Table Reference (List Reference)) : Table Reference ObjectState :=
  Table.collect (incoming.values.flatten.filter fun reference =>
    readable.contains reference.workspace).eraseDups store.stateOf

theorem informed {readable : ReadableWorkspaces} (admits : readable.Admits store caller)
    {tree : SearchTree} (mem : tree ∈ trees) :
    tree.Informed store caller (referrersAt store trees)
      (Search.isTerminal readable (statesAt store readable (referrersAt store trees))) := by
  have answered : tree.Answered store (referrersAt store trees) := by
    intro chain listed
    have known : chain.source ∈ frontierOf trees :=
      mem_frontierOf.mpr ⟨tree, mem, chain, listed, rfl⟩
    rw [referrersAt, Table.get?_tabulate, if_pos known]
  refine ⟨answered, ?_⟩
  intro chain candidate
  obtain ⟨before, listed, source, referrer, rfl⟩ :=
    (SearchTree.mem_candidates answered).mp candidate
  rw [← admits, Search.isTerminal]
  -- A state is asked for only where the workspace is readable.
  cases inside : readable.contains (before.extend source).source.workspace with
  | false => rfl
  | true =>
    have asked : source ∈ ((referrersAt store trees).values.flatten.filter fun reference =>
        readable.contains reference.workspace).eraseDups := by
      rw [List.mem_eraseDups, List.mem_filter, List.mem_flatten]
      refine ⟨⟨store.referrers before.source, ?_, referrer⟩, inside⟩
      exact Table.mem_values_iff.mpr ⟨before.source, answered before listed⟩
    have state : (statesAt store readable (referrersAt store trees)).get? source =
        store.stateOf source := by
      rw [statesAt, Table.get?_collect, if_pos asked]
    simp only [Chain.extend, state]

def lookedAt (store : Store) (depth : Nat) (frontier : List Reference) :
    List (Nat × Reference × Reference) :=
  frontier.flatMap fun source => (store.referrers source).map fun referrer =>
    (depth, source, referrer)

theorem lookedAt_nodup (consistent : store.Consistent) {frontier : List Reference}
    (nodup : frontier.Nodup) : (lookedAt store depth frontier).Nodup := by
  rw [lookedAt, List.Nodup, List.pairwise_flatMap]
  constructor
  · intro source _
    refine List.pairwise_map.mpr ((consistent.referrers_nodup source).imp ?_)
    intro first second apart same
    cases same
    exact apart rfl
  · apply nodup.imp
    intro first second apart entry mem other mem' same
    obtain ⟨_, _, rfl⟩ := List.mem_map.mp mem
    obtain ⟨_, _, rfl⟩ := List.mem_map.mp mem'
    cases same
    exact apart rfl

theorem length_lookedAt (store : Store) (depth : Nat) (trees : List SearchTree) :
    (lookedAt store depth (frontierOf trees)).length =
      (referrersAt store trees).values.flatten.length := by
  rw [referrersAt, Table.values_tabulate _ (frontierOf_nodup trees), lookedAt, List.length_flatMap,
    List.length_flatten]
  simp [Function.comp_def]

variable {targets : Set Reference} {count : Nat}

structure Underway (store : Store) (caller : Caller) (targets : Set Reference) (depth count : Nat)
    (trees : List SearchTree) (result : SearchResult) : Prop where
  level : ∀ tree ∈ trees, tree.Level store caller depth
  listed : ∀ tree ∈ trees, tree.target ∈ targets
  canonical : ∀ target path, result.paths.get? target = some path →
    store.Canonical caller path target
  near : ∀ target path, result.paths.get? target = some path → path.length ≤ depth + 1
  settled : ∀ target ∈ targets, (∃ tree ∈ trees, tree.target = target) ∨
    result.paths.contains target = true ∨ store.Exhausted caller target depth
  limitReached : result.limitReached = false
  counted : (count : ℕ∞) = costBefore store caller targets depth

structure Finished (store : Store) (caller : Caller) (targets : Set Reference) (limit : Nat)
    (searched : SearchResult) : Prop where
  canonical : ∀ target path, searched.paths.get? target = some path →
    store.Canonical caller path target
  afforded : ∀ target path, searched.paths.get? target = some path →
    costBefore store caller targets (path.length - 1) ≤ limit
  reported : ∀ target ∈ targets, ∀ chain, store.OpenChain caller chain target →
    costBefore store caller targets (chain.length - 1) ≤ limit →
      searched.paths.contains target = true
  reached : searched.limitReached = true ↔
    store.MaySearch caller ∧ (limit : ℕ∞) < store.searchCost caller targets

variable {limit : Nat}

namespace Finished

variable {searched : SearchResult}

theorem exceeded (finished : Finished store caller targets limit searched)
    (reached : searched.limitReached = true) : (limit : ℕ∞) < store.searchCost caller targets :=
  (finished.reached.mp reached).2

theorem cost_le (finished : Finished store caller targets limit searched)
    (below : searched.limitReached = false) (may : store.MaySearch caller) :
    store.searchCost caller targets ≤ limit := by
  by_contra more
  have reached := finished.reached.mpr ⟨may, not_le.mp more⟩
  simp [below] at reached

theorem complete (finished : Finished store caller targets limit searched)
    (below : searched.limitReached = false) (target : Reference) (mem : target ∈ targets)
    (absent : searched.paths.get? target = none) : store.Hopeless caller target := by
  intro source onward leads
  rw [Bool.eq_false_iff]
  intro opened
  have chain : store.OpenChain caller (source :: onward) target := ⟨leads, source, rfl, opened⟩
  have cost := finished.cost_le below (Store.maySearch_of_opens opened)
  have found := finished.reported target mem _ chain ((costBefore_le _ _ _ _).trans cost)
  simp [Table.contains, absent] at found

end Finished

namespace Underway

theorem live (underway : Underway store caller targets depth count trees result)
    {target source : Reference} {far : Nat} (mem : target ∈ targets) (beyond : depth ≤ far)
    (distance : store.AtDistance target far source)
    (closed : store.ClosedWithin caller target far) : ∃ tree ∈ trees, tree.target = target := by
  rcases underway.settled target mem with live | found | exhausted
  · exact live
  · obtain ⟨path, here⟩ := Option.isSome_iff_exists.mp found
    have short := underway.near target path here
    exact absurd closed ((underway.canonical target path here).not_closed (by omega))
  · exact absurd distance (exhausted.beyond beyond source)

theorem mem_lookedAt (consistent : store.Consistent)
    (underway : Underway store caller targets depth count trees result)
    (entry : Nat × Reference × Reference) :
    entry ∈ lookedAt store depth (frontierOf trees) ↔
      entry ∈ store.examined caller targets ∧ entry.1 = depth := by
  constructor
  · intro looked
    obtain ⟨source, known, mapped⟩ := List.mem_flatMap.mp looked
    obtain ⟨referrer, refers, rfl⟩ := List.mem_map.mp mapped
    obtain ⟨tree, growing, chain, on_frontier, rfl⟩ := mem_frontierOf.mp known
    have level := underway.level tree growing
    exact ⟨⟨(consistent.referred _ _).mp refers, tree.target, underway.listed tree growing,
      level.layer.distance chain on_frontier, level.closed⟩, rfl⟩
  · intro given
    rcases given with ⟨⟨refers, target, mem, distance, closed⟩, rfl⟩
    obtain ⟨tree, growing, rfl⟩ := underway.live mem (Nat.le_refl _) distance closed
    obtain ⟨chain, on_frontier, same⟩ :=
      (underway.level tree growing).layer.complete entry.2.1 distance
    refine List.mem_flatMap.mpr ⟨entry.2.1, ?_, List.mem_map.mpr ⟨entry.2.2, ?_, rfl⟩⟩
    · exact mem_frontierOf.mpr ⟨tree, growing, chain, on_frontier, same⟩
    · exact (consistent.referred _ _).mpr refers

theorem counted_level (consistent : store.Consistent)
    (underway : Underway store caller targets depth count trees result) :
    ((count + (referrersAt store trees).values.flatten.length : ℕ) : ℕ∞) =
      costBefore store caller targets (depth + 1) := by
  have nodup : (lookedAt store depth (frontierOf trees)).Nodup :=
    lookedAt_nodup consistent (frontierOf_nodup trees)
  have known := underway.mem_lookedAt consistent
  have counted := underway.counted
  rw [← length_lookedAt store depth]
  set looked := lookedAt store depth (frontierOf trees) with here
  have length : {entry | entry ∈ looked}.encard = looked.length := by
    rw [← List.coe_toFinset, Set.encard_coe_eq_coe_finsetCard,
      List.toFinset_card_of_nodup nodup]
  have apart : Disjoint (examinedBefore store caller targets depth) {entry | entry ∈ looked} := by
    rw [Set.disjoint_left]
    intro entry before mem
    exact absurd ((known entry).mp mem).2 (Nat.ne_of_lt before.2)
  have together : examinedBefore store caller targets depth ∪ {entry | entry ∈ looked} =
      examinedBefore store caller targets (depth + 1) := by
    ext entry
    simp only [examinedBefore, Set.mem_union, Set.mem_ofPred_eq, known, ← and_or_left]
    exact and_congr_right fun _ => by omega
  calc ((count + looked.length : ℕ) : ℕ∞) = count + looked.length := Nat.cast_add _ _
    _ = targets.encard + (examinedBefore store caller targets depth).encard +
          {entry | entry ∈ looked}.encard := by
        rw [counted, length, costBefore]
    _ = targets.encard + (examinedBefore store caller targets depth ∪
          {entry | entry ∈ looked}).encard := by
        rw [Set.encard_union_eq apart, add_assoc]
    _ = costBefore store caller targets (depth + 1) := by
        rw [together, costBefore]

theorem next (consistent : store.Consistent)
    (underway : Underway store caller targets depth count trees result)
    (informed : ∀ tree ∈ trees, tree.Informed store caller (referrersAt store trees) isTerminal) :
    Underway store caller targets (depth + 1)
      (count + (referrersAt store trees).values.flatten.length)
      (growAll (referrersAt store trees) isTerminal trees result).1
      (growAll (referrersAt store trees) isTerminal trees result).2 := by
  have advanced : Advanced store caller depth (referrersAt store trees) trees result
      (growAll (referrersAt store trees) isTerminal trees result) :=
    growAll_advanced consistent underway.level informed
  refine ⟨advanced.level, ?_, ?_, ?_, ?_, ?_, underway.counted_level consistent⟩
  · intro tree mem
    obtain ⟨before, listed, same, _⟩ := advanced.grew tree mem
    exact same ▸ underway.listed before listed
  · intro target path found
    rcases advanced.canonical target path found with before | ⟨canonical, _⟩
    · exact underway.canonical target path before
    · exact canonical
  · intro target path found
    rcases advanced.canonical target path found with before | ⟨_, length⟩
    · have short := underway.near target path before
      omega
    · omega
  · intro target mem
    rcases underway.settled target mem with ⟨tree, growing, rfl⟩ | found | exhausted
    · exact advanced.settled tree growing
    · exact .inr (.inl (advanced.kept target found))
    · exact .inr (.inr (exhausted.later (Nat.le_succ depth)))
  · rw [advanced.limitReached, underway.limitReached]

theorem afforded (underway : Underway store caller targets depth count trees result)
    (below : count ≤ limit) (target : Reference) (path : List Reference)
    (found : result.paths.get? target = some path) :
    costBefore store caller targets (path.length - 1) ≤ limit := by
  have short := underway.near target path found
  calc costBefore store caller targets (path.length - 1)
      ≤ costBefore store caller targets depth := costBefore_mono _ _ _ (by omega)
    _ = count := underway.counted.symm
    _ ≤ limit := by exact_mod_cast below

theorem finished (underway : Underway store caller targets depth count [] result)
    (below : count ≤ limit) : Finished store caller targets limit result := by
  refine ⟨underway.canonical, underway.afforded below, ?_, ?_⟩
  · intro target mem chain opened _
    rcases underway.settled target mem with ⟨tree, growing, _⟩ | found | exhausted
    · cases growing
    · exact found
    · exact absurd exhausted.hopeless opened.not_hopeless
  · -- Without a tree nothing more is examined, however far away.
    have all : store.examined caller targets ⊆ examinedBefore store caller targets depth := by
      intro entry looked
      have there := looked
      obtain ⟨_, target, mem, distance, closed⟩ := there
      refine ⟨looked, Nat.lt_of_not_ge fun beyond => ?_⟩
      obtain ⟨tree, growing, _⟩ := underway.live mem beyond distance closed
      cases growing
    have cost : store.searchCost caller targets ≤ limit := by
      calc store.searchCost caller targets
          ≤ costBefore store caller targets depth := by
            rw [Store.searchCost, costBefore]
            gcongr
        _ = count := underway.counted.symm
        _ ≤ limit := by exact_mod_cast below
    simp [underway.limitReached, cost]

theorem exceeded (consistent : store.Consistent)
    (underway : Underway store caller targets depth count trees result)
    (may : store.MaySearch caller) (below : count ≤ limit)
    (more : limit < count + (referrersAt store trees).values.flatten.length) :
    Finished store caller targets limit { result with limitReached := true } := by
  have above : (limit : ℕ∞) < costBefore store caller targets (depth + 1) := by
    rw [← underway.counted_level consistent]
    exact_mod_cast more
  refine ⟨underway.canonical, underway.afforded below, ?_, ?_⟩
  · intro target mem chain opened affords
    have short : chain.length ≤ depth + 1 := by
      by_contra long
      exact absurd (above.trans_le (costBefore_mono _ _ _ (by omega))) (not_lt.mpr affords)
    rcases underway.settled target mem with ⟨tree, growing, rfl⟩ | found | exhausted
    · exact absurd (underway.level tree growing).closed (opened.not_closed short)
    · exact found
    · exact absurd exhausted.hopeless opened.not_hopeless
  · simpa [may] using above.trans_le (costBefore_le _ _ _ _)

end Underway

-- A tree that a level leaves behind has added to the count.
theorem grown_counts {grown : List SearchTree × SearchResult}
    (advanced : Advanced store caller depth (referrersAt store trees) trees result grown)
    (answered : ∀ tree ∈ trees, tree.Answered store (referrersAt store trees))
    (left : grown.1 ≠ []) :
    0 < (referrersAt store trees).values.flatten.length := by
  obtain ⟨tree, mem⟩ := List.exists_mem_of_ne_nil _ left
  obtain ⟨before, listed, _, grew⟩ := advanced.grew tree mem
  obtain ⟨chain, kept⟩ := List.exists_mem_of_ne_nil _ grew
  obtain ⟨first, on_frontier, source, referrer, rfl⟩ :=
    (SearchTree.mem_candidates (answered before listed)).mp (SearchTree.fresh_sublist.mem kept)
  have looked : (depth, first.source, source) ∈ lookedAt store depth (frontierOf trees) := by
    refine List.mem_flatMap.mpr ⟨first.source, ?_, List.mem_map.mpr ⟨source, referrer, rfl⟩⟩
    exact mem_frontierOf.mpr ⟨before, listed, first, on_frontier, rfl⟩
  rw [← length_lookedAt store depth]
  exact List.length_pos_of_mem looked

theorem run_levels (consistent : store.Consistent) {readable : ReadableWorkspaces}
    (admits : readable.Admits store caller) (may : store.MaySearch caller) {fuel : Nat}
    (underway : Underway store caller targets depth count trees result) (below : count ≤ limit)
    (lasts : limit < count + fuel) (lasts_on : trees ≠ [] → limit + 1 < count + fuel) :
    ∃ searched, (levels readable limit fuel count trees result :
        Enquiry ResolveError SearchResult).run store = .ok searched ∧
      Finished store caller targets limit searched := by
  induction fuel generalizing depth count trees result with
  | zero => omega
  | succ fuel ih =>
    by_cases none : trees = []
    · subst none
      exact ⟨result, rfl, underway.finished below⟩
    · have more : trees.isEmpty = false := by simpa using none
      have answered : store.answer (.incomingReferences (frontierOf trees)) =
          .ok (referrersAt store trees) := rfl
      have folded : (trees.flatMap fun tree => tree.frontier.map Chain.source).eraseDups =
          frontierOf trees := rfl
      rw [levels, more, folded]
      simp only [Bool.false_eq_true, if_false]
      rw [Enquiry.run_bind_ok (Enquiry.run_query answered)]
      by_cases exceeds : limit < count + (referrersAt store trees).values.flatten.length
      · simp only [exceeds, if_true]
        exact ⟨_, rfl, underway.exceeded consistent may below exceeds⟩
      · have known : ∀ tree ∈ trees, tree.Informed store caller (referrersAt store trees)
            (Search.isTerminal readable (statesAt store readable (referrersAt store trees))) :=
          fun tree mem => informed admits mem
        have long := lasts_on none
        simp only [exceeds, if_false]
        rw [Enquiry.run_bind_ok (Resolver.run_statesOf store _)]
        apply ih (underway.next consistent known) (by omega) (by omega)
        intro left
        have advanced : Advanced store caller depth (referrersAt store trees) trees result _ :=
          growAll_advanced consistent underway.level known
        have counts := grown_counts advanced (fun tree mem => (known tree mem).answered) left
        omega

theorem distinct_targets (targets : List Reference) :
    {target | target ∈ targets}.encard = targets.eraseDups.length := by
  have same : {target | target ∈ targets} = {target | target ∈ targets.eraseDups} := by
    ext target
    exact List.mem_eraseDups.symm
  rw [same, ← List.coe_toFinset, Set.encard_coe_eq_coe_finsetCard,
    List.toFinset_card_of_nodup (nodup_eraseDups _)]

theorem underway_start {targets : List Reference}
    (shut : ∀ target ∈ targets, store.opens caller target = false) :
    Underway store caller {target | target ∈ targets} 0 targets.eraseDups.length
      ((targets.eraseDups.mergeSort Reference.le).map SearchTree.ofTarget) {} := by
  have member : ∀ tree ∈ (targets.eraseDups.mergeSort Reference.le).map SearchTree.ofTarget,
      ∃ target ∈ targets, SearchTree.ofTarget target = tree := by
    intro tree mem
    obtain ⟨target, listed, rfl⟩ := List.mem_map.mp mem
    exact ⟨target, by simpa [List.mem_eraseDups] using listed, rfl⟩
  refine ⟨?_, ?_, ?_, ?_, ?_, rfl, ?_⟩
  · intro tree mem
    obtain ⟨target, listed, rfl⟩ := member tree mem
    exact SearchTree.level_ofTarget (shut target listed)
  · intro tree mem
    obtain ⟨target, listed, rfl⟩ := member tree mem
    exact listed
  · intro target path found
    cases found
  · intro target path found
    cases found
  · intro target mem
    refine .inl ⟨.ofTarget target, List.mem_map.mpr ⟨target, ?_, rfl⟩, rfl⟩
    rw [List.mem_mergeSort, List.mem_eraseDups]
    exact mem
  · simp [costBefore, examinedBefore, distinct_targets]

theorem finished_empty {reached : Bool}
    (lost : ∀ target ∈ targets, ∀ chain, store.OpenChain caller chain target →
      (limit : ℕ∞) < targets.encard)
    (told : reached = true ↔
      store.MaySearch caller ∧ (limit : ℕ∞) < store.searchCost caller targets) :
    Finished store caller targets limit { limitReached := reached } := by
  refine ⟨?_, ?_, ?_, told⟩
  · intro target path found
    cases found
  · intro target path found
    cases found
  · intro target mem chain opened affords
    have least := encard_le_costBefore store caller targets (chain.length - 1)
    exact absurd (least.trans affords) (not_le.mpr (lost target mem chain opened))

theorem finished_nothing :
    Finished store caller {target | target ∈ ([] : List Reference)} limit {} := by
  apply finished_empty
  · intro target mem
    cases mem
  · simp [Store.searchCost, Store.examined]

theorem run_ok (consistent : store.Consistent) {readable : ReadableWorkspaces}
    (admits : readable.Admits store caller)
    (able : readable.isEmpty = false ↔ store.MaySearch caller) {targets : List Reference}
    (shut : ∀ target ∈ targets, store.opens caller target = false) :
    ∃ searched, (Search.run readable limit targets : Enquiry ResolveError SearchResult).run store =
        .ok searched ∧
      Finished store caller {target | target ∈ targets} limit searched := by
  have start := underway_start shut
  rw [Search.run]
  by_cases empty : targets = []
  · subst empty
    exact ⟨{}, rfl, finished_nothing⟩
  by_cases unreadable : readable.isEmpty = true
  · -- Without a readable workspace no version ends a search.
    have unable : ¬ store.MaySearch caller := by simp [← able, unreadable]
    refine ⟨{}, by simp [unreadable]; rfl, finished_empty ?_ (by simp [unable])⟩
    intro target _ chain opened
    obtain ⟨_, source, _, opens⟩ := opened
    exact absurd (Store.maySearch_of_opens opens) unable
  have may := able.mp (by simpa using unreadable)
  obtain ⟨target, mem⟩ := List.exists_mem_of_ne_nil _ empty
  have some_target : 0 < targets.eraseDups.length :=
    List.length_pos_of_mem (List.mem_eraseDups.mpr mem)
  have early : (targets.eraseDups.isEmpty || readable.isEmpty) = false := by
    simp [List.isEmpty_eq_false_iff.mpr (List.ne_nil_of_length_pos some_target), unreadable]
  simp only [early, Bool.false_eq_true, if_false]
  by_cases exceeds : limit < targets.eraseDups.length
  · have above : (limit : ℕ∞) < {target | target ∈ targets}.encard := by
      rw [distinct_targets]
      exact_mod_cast exceeds
    simp only [exceeds, if_true]
    refine ⟨_, rfl, finished_empty (fun _ _ _ _ => above) ?_⟩
    simpa [may, Store.searchCost] using above.trans_le le_self_add
  · simp only [exceeds, if_false]
    exact run_levels consistent admits may start (by omega) (by omega) (fun _ => by omega)

end Search

namespace Resolver

variable {store : Store}

theorem run_search (consistent : store.Consistent) (resolver : Resolver)
    {targets : List Reference}
    (shut : ∀ target ∈ targets, store.opens resolver.caller target = false) :
    ∃ searched, (resolver.search targets).run store = .ok searched ∧
      Search.Finished store resolver.caller {target | target ∈ targets}
        resolver.config.maxSearchCount searched := by
  rw [search]
  by_cases none : targets = []
  · subst none
    exact ⟨{}, rfl, Search.finished_nothing⟩
  · obtain ⟨readable, found, holds⟩ := run_readableWorkspaces consistent resolver
    simp only [none, if_false]
    rw [Enquiry.run_bind_ok found]
    exact Search.run_ok consistent holds.admits holds.able shut

end Resolver

end ObjectSpace
