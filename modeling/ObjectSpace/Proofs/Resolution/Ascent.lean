import ObjectSpace.Proofs.Resolution.Chains

set_option autoImplicit false

namespace ObjectSpace

theorem find?_first {α : Type} {r : α → α → Prop} {elements : List α} {accepts : α → Bool}
    {first other : α} (sorted : elements.Pairwise r) (found : elements.find? accepts = some first)
    (mem : other ∈ elements) (accepted : accepts other = true) : other = first ∨ r first other := by
  obtain ⟨_, before, after, rfl, refused⟩ := List.find?_eq_some_iff_append.mp found
  rcases List.mem_append.mp mem with early | late
  · have no := refused other early
    simp [accepted] at no
  · rcases List.mem_cons.mp late with same | later
    · exact .inl same
    · have tail := (List.pairwise_append.mp sorted).2.1
      exact .inr ((List.pairwise_cons.mp tail).1 other later)

namespace SearchTree

def fresh (target : Reference) (found : List Reference) : List Chain → List Chain
  | [] => []
  | chain :: rest =>
    if chain.source = target ∨ chain.source ∈ found then fresh target found rest
    else chain :: fresh target (chain.source :: found) rest

theorem takeUp_eq (isTerminal : Reference → Bool) (tree : SearchTree) (chains : List Chain) :
    takeUp isTerminal tree chains =
      match (fresh tree.target tree.found chains).find? fun chain => isTerminal chain.source with
      | some chain => .reached chain.toList
      | none => .grown
          { target := tree.target
            frontier := tree.frontier ++ fresh tree.target tree.found chains
            found := ((fresh tree.target tree.found chains).map Chain.source).reverse ++
              tree.found } := by
  induction chains generalizing tree with
  | nil => simp [takeUp, fresh]
  | cons chain rest ih =>
    by_cases known : chain.source = tree.target ∨ chain.source ∈ tree.found
    · simp only [takeUp, fresh, known, if_true, ih]
    · cases terminal : isTerminal chain.source with
      | true => simp [takeUp, fresh, known, terminal]
      | false => simp [takeUp, fresh, known, terminal, ih]

section Fresh

variable {target : Reference} {found : List Reference} {chains : List Chain} {chain other : Chain}

theorem fresh_sublist : (fresh target found chains).Sublist chains := by
  induction chains generalizing found with
  | nil => exact .slnil
  | cons first rest ih =>
    simp only [fresh]
    split
    · exact ih.cons _
    · exact ih.cons_cons _

theorem fresh_source (mem : chain ∈ fresh target found chains) :
    ¬ (chain.source = target ∨ chain.source ∈ found) := by
  induction chains generalizing found with
  | nil => simp [fresh] at mem
  | cons first rest ih =>
    simp only [fresh] at mem
    split at mem
    · exact ih mem
    next new =>
      rcases List.mem_cons.mp mem with rfl | later
      · exact new
      · have apart := ih later
        simp only [List.mem_cons, not_or] at apart ⊢
        exact ⟨apart.1, apart.2.2⟩

theorem fresh_complete (mem : chain ∈ chains)
    (new : ¬ (chain.source = target ∨ chain.source ∈ found)) :
    ∃ first ∈ fresh target found chains, first.source = chain.source := by
  induction chains generalizing found with
  | nil => cases mem
  | cons head rest ih =>
    simp only [fresh]
    by_cases known : head.source = target ∨ head.source ∈ found
    · rcases List.mem_cons.mp mem with rfl | later
      · exact absurd known new
      · simpa only [known, if_true] using ih later new
    · simp only [known, if_false]
      by_cases same : head.source = chain.source
      · exact ⟨head, List.mem_cons_self, same⟩
      · have later : chain ∈ rest := by
          rcases List.mem_cons.mp mem with rfl | later
          · exact absurd rfl same
          · exact later
        have new' : ¬ (chain.source = target ∨ chain.source ∈ head.source :: found) := by
          simp only [List.mem_cons, not_or] at new ⊢
          exact ⟨new.1, fun equal => same equal.symm, new.2⟩
        obtain ⟨first, kept, equal⟩ := ih later new'
        exact ⟨first, List.mem_cons_of_mem _ kept, equal⟩

theorem fresh_first {r : Chain → Chain → Prop} (sorted : chains.Pairwise r)
    (kept : chain ∈ fresh target found chains) (mem : other ∈ chains)
    (same : other.source = chain.source) : other = chain ∨ r chain other := by
  induction chains generalizing found with
  | nil => cases mem
  | cons head rest ih =>
    have parts := List.pairwise_cons.mp sorted
    simp only [fresh] at kept
    split at kept
    next known =>
      rcases List.mem_cons.mp mem with rfl | later
      · exact absurd (same ▸ known) (fresh_source kept)
      · exact ih parts.2 kept later
    next new =>
      rcases List.mem_cons.mp kept with rfl | kept
      · rcases List.mem_cons.mp mem with equal | later
        · exact .inl equal
        · exact .inr (parts.1 other later)
      · rcases List.mem_cons.mp mem with rfl | later
        · -- A chain kept later has another source than the head.
          have apart := fresh_source kept
          simp [← same] at apart
        · exact ih parts.2 kept later

end Fresh

-- For each version at the distance the least of its shortest chains, in order.
structure Layer (store : Store) (target : Reference) (depth : Nat) (chains : List Chain) : Prop where
  leads : ∀ chain ∈ chains, store.Leads chain.toList target
  length : ∀ chain ∈ chains, chain.onward.length = depth
  distance : ∀ chain ∈ chains, store.AtDistance target depth chain.source
  complete : ∀ source, store.AtDistance target depth source →
    ∃ chain ∈ chains, chain.source = source
  least : ∀ chain ∈ chains, ∀ onward, store.Leads (chain.source :: onward) target →
    onward.length = depth → onward = chain.onward ∨ Ahead chain.onward onward
  sorted : chains.Pairwise fun left right => Ahead left.toList right.toList

structure Level (tree : SearchTree) (store : Store) (caller : Caller) (depth : Nat) : Prop where
  layer : Layer store tree.target depth tree.frontier
  found : ∀ source, source = tree.target ∨ source ∈ tree.found ↔
    ∃ steps ≤ depth, store.AtDistance tree.target steps source
  closed : store.ClosedWithin caller tree.target depth

variable {store : Store} {caller : Caller} {target : Reference} {depth : Nat}

theorem layer_zero (store : Store) (target : Reference) :
    Layer store target 0 [{ source := target }] := by
  refine ⟨?_, ?_, ?_, ?_, ?_, ?_⟩
  · intro chain mem
    obtain rfl := List.mem_singleton.mp mem
    exact Store.leads_singleton.mpr rfl
  · intro chain mem
    obtain rfl := List.mem_singleton.mp mem
    rfl
  · intro chain mem
    obtain rfl := List.mem_singleton.mp mem
    exact Store.AtDistance.zero_iff.mpr rfl
  · intro source near
    exact ⟨_, List.mem_singleton_self _, (Store.AtDistance.zero_iff.mp near).symm⟩
  · intro chain mem onward _ short
    obtain rfl := List.mem_singleton.mp mem
    exact .inl (List.length_eq_zero_iff.mp short)
  · exact List.pairwise_singleton _ _

theorem level_ofTarget (shut : store.opens caller target = false) :
    (ofTarget target).Level store caller 0 := by
  refine ⟨layer_zero store target, fun source => ?_, .zero shut⟩
  constructor
  · intro known
    have same : source = target := by simpa [ofTarget] using known
    exact ⟨0, Nat.le_refl _, Store.AtDistance.zero_iff.mpr same⟩
  · intro given
    rcases given with ⟨steps, small, near⟩
    obtain rfl : steps = 0 := by omega
    exact .inl (Store.AtDistance.zero_iff.mp near)

def Answered (tree : SearchTree) (store : Store) (incoming : Table Reference (List Reference)) :
    Prop :=
  ∀ chain ∈ tree.frontier, incoming.get? chain.source = some (store.referrers chain.source)

section Candidates

variable {incoming : Table Reference (List Reference)} {tree : SearchTree}

theorem mem_candidates (answered : tree.Answered store incoming) {chain : Chain} :
    chain ∈ tree.candidates incoming ↔
      ∃ before ∈ tree.frontier, ∃ source ∈ store.referrers before.source,
        chain = before.extend source := by
  simp only [candidates, List.mem_flatMap, List.mem_map, List.mem_mergeSort]
  constructor
  · intro given
    rcases given with ⟨before, mem, source, referrer, rfl⟩
    exact ⟨before, mem, source, by simpa [answered before mem] using referrer, rfl⟩
  · intro given
    rcases given with ⟨before, mem, source, referrer, rfl⟩
    exact ⟨before, mem, source, by simpa [answered before mem] using referrer, rfl⟩

theorem candidates_sorted (consistent : store.Consistent)
    (layer : Layer store tree.target depth tree.frontier)
    (answered : tree.Answered store incoming) :
    (tree.candidates incoming).Pairwise fun left right => Ahead left.toList right.toList := by
  rw [candidates, List.pairwise_flatMap]
  constructor
  · intro chain mem
    -- Referrers are distinct, so their order is strict.
    have referrers := List.pairwise_mergeSort Reference.le_trans Reference.le_total
      (store.referrers chain.source)
    have distinct := (List.mergeSort_perm (store.referrers chain.source) Reference.le).symm.nodup
      (consistent.referrers_nodup chain.source)
    rw [answered chain mem, Option.getD_some, List.pairwise_map]
    apply (referrers.and distinct).imp
    intro first second less
    exact .inr ⟨rfl, less⟩
  · apply layer.sorted.imp
    intro left right ahead first mem second mem'
    obtain ⟨_, _, rfl⟩ := List.mem_map.mp mem
    obtain ⟨_, _, rfl⟩ := List.mem_map.mp mem'
    exact .inl ahead

def ascents (incoming : Table Reference (List Reference)) (tree : SearchTree) : List Chain :=
  fresh tree.target tree.found (tree.candidates incoming)

variable {source : Reference} {onward : List Reference}

theorem exists_candidate (consistent : store.Consistent)
    (layer : Layer store tree.target depth tree.frontier) (answered : tree.Answered store incoming)
    (far : store.AtDistance tree.target (depth + 1) source)
    (leads : store.Leads (source :: onward) tree.target) (length : onward.length = depth + 1) :
    ∃ chain ∈ tree.candidates incoming, chain.source = source ∧
      (onward = chain.onward ∨ Ahead chain.onward onward) := by
  cases onward with
  | nil => simp at length
  | cons middle onward =>
    have shorter : onward.length = depth := by simpa using length
    obtain ⟨refers, rest⟩ := Store.leads_cons_cons.mp leads
    -- The frontier has a chain of the middle version no later than the given one.
    obtain ⟨before, mem, rfl⟩ := layer.complete middle (far.tail leads shorter)
    have candidate : before.extend source ∈ tree.candidates incoming :=
      (mem_candidates answered).mpr
        ⟨before, mem, source, (consistent.referred _ _).mpr refers, rfl⟩
    refine ⟨_, candidate, rfl, ?_⟩
    rcases layer.least before mem onward rest shorter with rfl | later
    · exact .inl rfl
    · exact .inr (.inl later)

theorem layer_ascents (consistent : store.Consistent) (level : tree.Level store caller depth)
    (answered : tree.Answered store incoming) :
    Layer store tree.target (depth + 1) (tree.ascents incoming) := by
  have sorted := candidates_sorted consistent level.layer answered
  have extended : ∀ chain ∈ tree.ascents incoming,
      ∃ before ∈ tree.frontier, store.refersTo chain.source before.source = true ∧
        chain.onward = before.toList := by
    intro chain kept
    obtain ⟨before, mem, source, referrer, rfl⟩ :=
      (mem_candidates answered).mp (fresh_sublist.mem kept)
    exact ⟨before, mem, (consistent.referred _ _).mp referrer, rfl⟩
  have distance : ∀ chain ∈ tree.ascents incoming,
      store.AtDistance tree.target (depth + 1) chain.source := by
    intro chain kept
    obtain ⟨before, mem, refers, _⟩ := extended chain kept
    refine Store.AtDistance.succ_iff.mpr
      ⟨⟨before.source, level.layer.distance before mem, refers⟩, ?_⟩
    intro nearer small near
    exact fresh_source kept ((level.found chain.source).mpr ⟨nearer, small, near⟩)
  refine ⟨?_, ?_, distance, ?_, ?_, ?_⟩
  · intro chain kept
    obtain ⟨before, mem, refers, onward⟩ := extended chain kept
    rw [Chain.toList, onward]
    exact Store.leads_cons_cons.mpr ⟨refers, level.layer.leads before mem⟩
  · intro chain kept
    obtain ⟨before, mem, _, onward⟩ := extended chain kept
    rw [onward, Chain.toList, List.length_cons, level.layer.length before mem]
  · intro source far
    obtain ⟨onward, leads, length⟩ := far.chain
    obtain ⟨candidate, mem, rfl, _⟩ :=
      exists_candidate consistent level.layer answered far leads length
    refine fresh_complete mem fun known => ?_
    obtain ⟨steps, small, near⟩ := (level.found candidate.source).mp known
    have := far.unique near
    omega
  · intro chain kept onward leads length
    have far := distance chain kept
    obtain ⟨candidate, mem, same, least⟩ :=
      exists_candidate consistent level.layer answered far leads length
    -- What was kept is the first candidate of its source.
    rcases fresh_first sorted kept mem same with rfl | earlier
    · exact least
    · rw [Chain.toList, Chain.toList, same, Ahead.cons_self] at earlier
      rcases least with rfl | later
      · exact .inr earlier
      · exact .inr (earlier.trans later)
  · exact sorted.sublist fresh_sublist

end Candidates

theorem Layer.canonical {chains : List Chain} {chain : Chain}
    (layer : Layer store target (depth + 1) chains)
    (closed : store.ClosedWithin caller target depth)
    (found : (chains.find? fun chain => store.opens caller chain.source) = some chain) :
    store.Canonical caller chain.toList target := by
  have mem := List.mem_of_find?_eq_some found
  have opened : store.opens caller chain.source = true := by
    simpa using List.find?_some found
  have length : chain.toList.length = depth + 2 := by
    rw [Chain.toList, List.length_cons, layer.length chain mem]
  -- Versions that end the search are farther away than what is closed.
  have far : ∀ source onward, store.Leads (source :: onward) target →
      store.opens caller source = true →
      ∃ steps, depth < steps ∧ steps ≤ onward.length ∧ store.AtDistance target steps source := by
    intro source onward leads opens
    obtain ⟨steps, bound, near⟩ := leads.exists_distance
    refine ⟨steps, ?_, bound, near⟩
    by_cases small : steps ≤ depth
    · have shut := closed steps small source near
      simp [opens] at shut
    · omega
  refine ⟨⟨layer.leads chain mem, chain.source, rfl, opened⟩, ?_, ?_⟩
  · intro other given
    rcases given with ⟨leads, source, head, opens⟩
    obtain ⟨onward, rfl⟩ := List.head?_eq_some_iff.mp head
    obtain ⟨steps, beyond, bound, _⟩ := far source onward leads opens
    rw [length, List.length_cons]
    omega
  · intro other given level
    rcases given with ⟨leads, source, head, opens⟩
    obtain ⟨onward, rfl⟩ := List.head?_eq_some_iff.mp head
    obtain ⟨steps, beyond, bound, near⟩ := far source onward leads opens
    have short : onward.length = depth + 1 := by simpa [length] using level
    obtain rfl : steps = depth + 1 := by omega
    obtain ⟨rival, listed, rfl⟩ := layer.complete source near
    have first := find?_first layer.sorted found listed opens
    have least := layer.least rival listed onward leads short
    have ahead : rival.source :: onward = chain.toList ∨
        Ahead chain.toList (rival.source :: onward) := by
      rcases least with rfl | later
      · rcases first with rfl | earlier
        · exact .inl rfl
        · exact .inr earlier
      · have later : Ahead rival.toList (rival.source :: onward) := .inl later
        rcases first with rfl | earlier
        · exact .inr later
        · exact .inr (earlier.trans later)
    exact ahead.imp_right fun ahead => ahead.lex level.symm

structure Informed (tree : SearchTree) (store : Store) (caller : Caller)
    (incoming : Table Reference (List Reference)) (isTerminal : Reference → Bool) : Prop where
  answered : tree.Answered store incoming
  judged : ∀ chain ∈ tree.candidates incoming,
    isTerminal chain.source = store.opens caller chain.source

section Grow

variable {incoming : Table Reference (List Reference)} {isTerminal : Reference → Bool}
variable {tree : SearchTree}

theorem grow_eq (informed : tree.Informed store caller incoming isTerminal) :
    tree.grow incoming isTerminal =
      match (tree.ascents incoming).find? fun chain => store.opens caller chain.source with
      | some chain => .reached chain.toList
      | none => .grown
          { target := tree.target
            frontier := tree.ascents incoming
            found := ((tree.ascents incoming).map Chain.source).reverse ++ tree.found } := by
  have same : ((tree.ascents incoming).find? fun chain => isTerminal chain.source) =
      (tree.ascents incoming).find? fun chain => store.opens caller chain.source := by
    rw [← List.head?_filter, ← List.head?_filter]
    exact congrArg List.head?
      (List.filter_congr fun chain kept => informed.judged chain (fresh_sublist.mem kept))
  rw [grow, takeUp_eq]
  simp only [List.nil_append]
  rw [← same]
  rfl

theorem grow_reached {path : List Reference} (consistent : store.Consistent)
    (level : tree.Level store caller depth)
    (informed : tree.Informed store caller incoming isTerminal)
    (reached : tree.grow incoming isTerminal = .reached path) :
    store.Canonical caller path tree.target ∧ path.length = depth + 2 := by
  rw [grow_eq informed] at reached
  split at reached
  next chain found =>
    have layer := layer_ascents consistent level informed.answered
    cases reached
    refine ⟨layer.canonical level.closed found, ?_⟩
    rw [Chain.toList, List.length_cons, layer.length chain (List.mem_of_find?_eq_some found)]
  next => cases reached

theorem grow_grown {grown : SearchTree} (consistent : store.Consistent)
    (level : tree.Level store caller depth)
    (informed : tree.Informed store caller incoming isTerminal)
    (result : tree.grow incoming isTerminal = .grown grown) :
    grown.target = tree.target ∧ grown.frontier = tree.ascents incoming ∧
      grown.Level store caller (depth + 1) := by
  rw [grow_eq informed] at result
  split at result
  next => cases result
  next none =>
    have layer := layer_ascents consistent level informed.answered
    cases result
    refine ⟨rfl, rfl, layer, fun source => ?_, ?_⟩
    · have known : source = tree.target ∨
          source ∈ ((tree.ascents incoming).map Chain.source).reverse ++ tree.found ↔
          (source = tree.target ∨ source ∈ tree.found) ∨
            ∃ chain ∈ tree.ascents incoming, chain.source = source := by
        simp only [List.mem_append, List.mem_reverse, List.mem_map]
        grind
      rw [known, level.found source]
      constructor
      · intro given
        rcases given with ⟨steps, small, near⟩ | ⟨chain, kept, rfl⟩
        · exact ⟨steps, by omega, near⟩
        · exact ⟨depth + 1, Nat.le_refl _, layer.distance chain kept⟩
      · intro given
        rcases given with ⟨steps, small, near⟩
        by_cases last : steps = depth + 1
        · exact .inr (layer.complete source (last ▸ near))
        · exact .inl ⟨steps, by omega, near⟩
    · refine level.closed.succ fun source far => ?_
      obtain ⟨chain, kept, rfl⟩ := layer.complete source far
      simpa using List.find?_eq_none.mp none chain kept

end Grow

end SearchTree

end ObjectSpace
