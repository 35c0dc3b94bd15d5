import ObjectSpace.Proofs.Resolution.Levels

set_option autoImplicit false

namespace ObjectSpace

theorem find?_zipIdx {α : Type} [DecidableEq α] {elements : List α} {wanted : α}
    (mem : wanted ∈ elements) (start : Nat) :
    ((elements.zipIdx start).find? fun entry => entry.1 = wanted) =
      some (wanted, elements.idxOf wanted + start) := by
  induction elements generalizing start with
  | nil => cases mem
  | cons first rest ih =>
    rw [List.zipIdx_cons, List.idxOf_cons]
    by_cases here : first = wanted
    · simp [here]
    · have later : wanted ∈ rest := by
        rcases List.mem_cons.mp mem with rfl | later
        · exact absurd rfl here
        · exact later
      have place : rest.idxOf wanted + (start + 1) = rest.idxOf wanted + 1 + start := by omega
      simp [here, beq_eq_false_iff_ne.mpr here, ih later, place]

theorem outcome?_eq {objects : List Address} {address : Address} (mem : address ∈ objects)
    (outcome : Nat → Address → Outcome) :
    (Resolutions.mk (objects.zipIdx.map fun entry =>
        (entry.1, outcome (entry.2 + 1) entry.1))).outcome? address =
      some (outcome (objects.idxOf address + 1) address) := by
  have found := find?_zipIdx mem 0
  simp only [Resolutions.outcome?, List.find?_map, Function.comp_def, found]
  rfl

namespace Store

def lookupTargets (store : Store) (caller : Caller) (batch : List Address) : Set Reference :=
  {target | ∃ address ∈ batch, store.searchTarget? caller address = some target}

theorem searchTarget?_shut {store : Store} {caller : Caller} {address : Address}
    {target : Reference} (searched : store.searchTarget? caller address = some target) :
    store.opens caller target = false := by
  simp only [searchTarget?] at searched
  split at searched
  · simpa using (Option.filter_eq_some_iff.mp searched).2
  · cases searched

namespace Sample

def alice : User := ⟨"alice"⟩

def naming (workspace object : String) (locator : Locator Address) : Address :=
  .mk { workspace := .name workspace, object := .name object, version := none, subset := {} } locator

def wanted (locator : Locator Address) : Address := naming "hidden" "target" locator

def walk : Address :=
  naming "top" "root" (.path [naming "hidden" "middle" .direct, wanted .direct])

def walked : Resolution where
  kind := .path
  object :=
    { workspace := { id := 2, name := "hidden", locked := true, deleted := false }
      reference := target
      name := "target"
      deleted := true }
  path := [root, middle, target]

end Sample

end Store

namespace Resolver

variable {store : Store} {user : Option User} {batch : List Address} {config : ResolverConfig}
variable {resolver : Resolver}

theorem make_eq_ok_iff : make user batch config = .ok resolver ↔ batch ≠ [] ∧
    config.validate = .ok () ∧ resolver = { user, objects := batch.eraseDups, config } := by
  by_cases none : batch = []
  · simp [make, none]
  · cases valid : config.validate with
    | error cause => simp [make, none, valid]
    | ok => simp [make, none, valid, eq_comm]

theorem make_eq_ok (made : make user batch config = .ok resolver) :
    resolver = { user, objects := batch.eraseDups, config } :=
  (make_eq_ok_iff.mp made).2.2

theorem sought_shut (resolver : Resolver) :
    ∀ target ∈ resolver.sought store, store.opens resolver.caller target = false := by
  intro target mem
  rcases List.mem_filterMap.mp mem with ⟨_, _, searched⟩
  exact Store.searchTarget?_shut searched

theorem sought_eq_lookupTargets (made : make user batch config = .ok resolver) :
    {target | target ∈ resolver.sought store} =
      store.lookupTargets ⟨user, config.asAdmin⟩ batch := by
  obtain rfl := make_eq_ok made
  ext target
  simp [sought, caller, Store.lookupTargets, List.mem_eraseDups]

theorem resolve_searched (consistent : store.Consistent) (resolver : Resolver) :
    ∃ searched, (resolver.search (resolver.sought store)).run store = .ok searched ∧
      Search.Finished store resolver.caller {target | target ∈ resolver.sought store}
        resolver.config.maxSearchCount searched ∧
      resolver.resolve.run store = .ok (resolver.outcomesOf store searched) := by
  rcases run_search consistent resolver (sought_shut _) with ⟨searched, found, finished⟩
  have ends : PathsEnd searched :=
    fun target path present => (finished.canonical target path present).leads.2
  exact ⟨searched, found, finished, run_resolve consistent _ found ends⟩

theorem resolve_ok (consistent : store.Consistent) (made : make user batch config = .ok resolver) :
    ∃ searched, Search.Finished store ⟨user, config.asAdmin⟩
        (store.lookupTargets ⟨user, config.asAdmin⟩ batch) config.maxSearchCount searched ∧
      resolver.resolve.run store = .ok
        { outcomes := batch.eraseDups.zipIdx.map fun entry =>
            (entry.1, store.outcomeOf ⟨user, config.asAdmin⟩ searched (entry.2 + 1) entry.1) } := by
  rw [← sought_eq_lookupTargets made]
  obtain rfl := make_eq_ok made
  rcases resolve_searched consistent (Resolver.mk user batch.eraseDups config) with
    ⟨searched, _, finished, ran⟩
  exact ⟨searched, finished, ran⟩

theorem outcome_eq_alone (reachable : store.Reachable)
    (made : make user batch config = .ok resolver) :
    ∃ result, resolver.resolve.run store = .ok result ∧
      ∀ address ∈ batch, address.isLookup = false →
        result.outcome? address = some (store.outcomeAlone ⟨user, config.asAdmin⟩
          (batch.eraseDups.idxOf address + 1) address) := by
  obtain ⟨searched, _, ran⟩ := resolve_ok reachable.consistent made
  refine ⟨_, ran, ?_⟩
  intro address mem direct
  have listed : address ∈ batch.eraseDups := List.mem_eraseDups.mpr mem
  rw [outcome?_eq listed (store.outcomeOf ⟨user, config.asAdmin⟩ searched)]
  simp [Store.outcomeOf, direct]

theorem sample_outcome_eq_alone :
    ∃ resolver result, Store.sample.Reachable ∧
      make (some Store.Sample.alice) [Store.Sample.walk, Store.Sample.wanted .direct] {} =
        .ok resolver ∧
      resolver.resolve.run Store.sample = .ok result ∧
      result.outcome? Store.Sample.walk = some (.ok Store.Sample.walked) := by
  have made : make (some Store.Sample.alice)
      [Store.Sample.walk, Store.Sample.wanted .direct] {} = .ok _ := rfl
  obtain ⟨result, ran, alone⟩ := outcome_eq_alone Store.reachable_sample made
  refine ⟨_, result, Store.reachable_sample, made, ran, ?_⟩
  rw [alone Store.Sample.walk List.mem_cons_self rfl]
  decide

end Resolver

end ObjectSpace
