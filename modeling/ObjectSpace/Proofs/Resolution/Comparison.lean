import ObjectSpace.Proofs.Resolution.Lookups

set_option autoImplicit false

namespace ObjectSpace

namespace Store

theorem AtDistance.congr {store other : Store} {source target : Reference} {steps : Nat}
    (same : ∀ onward, store.Leads (source :: onward) target ↔
      other.Leads (source :: onward) target) (far : store.AtDistance target steps source) :
    other.AtDistance target steps source := by
  constructor
  · obtain ⟨onward, leads, length⟩ := far.chain
    exact ⟨onward, (same onward).mp leads, length⟩
  · intro onward leads
    exact far.least onward ((same onward).mpr leads)

namespace Canonical

variable {store other : Store} {caller : Caller} {target : Reference} {left right : List Reference}

theorem unique (first : store.Canonical caller left target)
    (second : store.Canonical caller right target) : left = right := by
  have below := first.shortest right second.toOpenChain
  have above := second.shortest left first.toOpenChain
  have level : right.length = left.length := by omega
  rcases first.least right second.toOpenChain level with same | less
  · exact same.symm
  rcases second.least left first.toOpenChain level.symm with same | more
  · exact same
  have round : List.Lex Reference.Less left.reverse left.reverse :=
    List.lex_trans Reference.Less.trans less more
  exact absurd round (List.lex_irrefl Reference.Less.irrefl _)

theorem congr (same : ∀ path, store.OpenChain caller path target ↔
    other.OpenChain caller path target) (canonical : store.Canonical caller left target) :
    other.Canonical caller left target := by
  refine ⟨(same left).mp canonical.toOpenChain, ?_, ?_⟩
  · intro path chain
    exact canonical.shortest path ((same path).mpr chain)
  · intro path chain
    exact canonical.least path ((same path).mpr chain)

end Canonical

end Store

namespace Search

structure Within (store : Store) (caller : Caller) (targets : Set Reference) (store' : Store)
    (caller' : Caller) (targets' : Set Reference) : Prop where
  listed : targets ⊆ targets'
  examined : store.examined caller targets ⊆ store'.examined caller' targets'

variable {store store' : Store} {caller caller' : Caller} {targets targets' : Set Reference}

theorem Within.costBefore_le (within : Within store caller targets store' caller' targets')
    (depth : Nat) :
    costBefore store caller targets depth ≤ costBefore store' caller' targets' depth := by
  have fewer : examinedBefore store caller targets depth ⊆
      examinedBefore store' caller' targets' depth :=
    fun _ mem => ⟨within.examined mem.1, mem.2⟩
  have known := within.listed
  rw [costBefore, costBefore]
  gcongr

theorem Within.searchCost_le (within : Within store caller targets store' caller' targets') :
    store.searchCost caller targets ≤ store'.searchCost caller' targets' := by
  have known := within.listed
  have fewer := within.examined
  rw [Store.searchCost, Store.searchCost]
  gcongr

theorem within_of_subset (fewer : targets ⊆ targets') :
    Within store caller targets store caller targets' := by
  refine ⟨fewer, ?_⟩
  intro entry looked
  obtain ⟨refers, target, mem, known⟩ := looked
  exact ⟨refers, target, fewer mem, known⟩

variable {limit : Nat} {searched searched' : SearchResult} {target : Reference}

theorem Finished.agrees (finished : Finished store caller targets limit searched)
    (finished' : Finished store' caller targets' limit searched')
    (within : Within store caller targets store' caller targets')
    (may : store.MaySearch caller → store'.MaySearch caller) (mem : target ∈ targets)
    (same : ∀ path, store.OpenChain caller path target ↔ store'.OpenChain caller path target)
    (told : searched'.paths.get? target = none → searched'.limitReached = false) :
    searched.paths.get? target = searched'.paths.get? target ∧
      (searched.paths.get? target = none → searched.limitReached = false) := by
  cases found : searched'.paths.get? target with
  | some path =>
    have canonical := (finished'.canonical target path found).congr fun other => (same other).symm
    have cost := (within.costBefore_le _).trans (finished'.afforded target path found)
    have reported := finished.reported target mem path canonical.toOpenChain cost
    obtain ⟨path', found'⟩ := Option.isSome_iff_exists.mp reported
    rw [found', canonical.unique (finished.canonical target path' found')]
    exact ⟨rfl, fun absent => by cases absent⟩
  | none =>
    have below := told found
    constructor
    · cases found' : searched.paths.get? target with
      | none => rfl
      | some path =>
        have chain := (same path).mp (finished.canonical target path found').toOpenChain
        exact absurd (finished'.complete below target (within.listed mem) found)
          chain.not_hopeless
    · intro _
      rw [Bool.eq_false_iff]
      intro reached
      have more := (finished.exceeded reached).trans_le within.searchCost_le
      have reached' := finished'.reached.mpr ⟨may (finished.reached.mp reached).1, more⟩
      simp [below] at reached'

end Search

namespace Store

variable {store store' : Store} {caller : Caller} {targets targets' : Set Reference} {limit : Nat}
variable {searched searched' : SearchResult} {address : Address} {named named' : Located}

theorem outcomeFound_agrees (finished : Search.Finished store caller targets limit searched)
    (finished' : Search.Finished store' caller targets' limit searched')
    (within : Search.Within store caller targets store' caller targets')
    (may : store.MaySearch caller → store'.MaySearch caller)
    (found : store.locate? address = some named) (found' : store'.locate? address = some named')
    (shown : named.shown = named'.shown)
    (opens : store.opens caller named.reference = store'.opens caller named.reference)
    (listed : store.opens caller named.reference = false → named.reference ∈ targets)
    (same : ∀ path, store.OpenChain caller path named.reference ↔
      store'.OpenChain caller path named.reference)
    (told : store'.outcomeFound caller searched' address ≠
      .error { object := address, cause := .searchLimitExceeded }) :
    store.outcomeFound caller searched address = store'.outcomeFound caller searched' address := by
  have reference : named'.reference = named.reference :=
    (congrArg ResolvedObject.reference shown).symm
  cases opened : store'.opens caller named.reference with
  | true => simp [outcomeFound, found, found', reference, shown, opens, opened]
  | false =>
    have ended : searched'.paths.get? named.reference = none → searched'.limitReached = false := by
      intro absent
      rw [Bool.eq_false_iff]
      intro reached
      simp [outcomeFound, found', reference, opened, absent, reached] at told
    obtain ⟨path, below⟩ :=
      finished.agrees finished' within may (listed (opens.trans opened)) same ended
    simp only [outcomeFound, found, found', reference, shown, opens, opened, Bool.false_eq_true,
      if_false, path]
    cases absent : searched'.paths.get? named.reference with
    | some path => rfl
    | none => simp [ended absent, below (path.trans absent)]

end Store

end ObjectSpace
