import Mathlib.Data.List.Dedup
import ObjectSpace.Proofs.Resolution.Composition

set_option autoImplicit false

namespace ObjectSpace

section Distinct

variable {α : Type} [DecidableEq α] {elements : List α} {element : α}

theorem perm_eraseDups_dedup (elements : List α) : elements.eraseDups.Perm elements.dedup := by
  rw [List.perm_ext_iff_of_nodup (nodup_eraseDups _) (List.nodup_dedup _)]
  simp [List.mem_eraseDups]

theorem length_eraseDups_le (elements : List α) : elements.eraseDups.length ≤ elements.length := by
  rw [(perm_eraseDups_dedup elements).length_eq]
  exact (List.dedup_sublist elements).length_le

theorem length_eraseDups_eq_iff :
    elements.eraseDups.length = elements.length ↔ elements.Nodup := by
  rw [(perm_eraseDups_dedup elements).length_eq, ← List.dedup_eq_self]
  constructor
  · exact (List.dedup_sublist elements).eq_of_length
  · intro same
    rw [same]

theorem idxOf_eraseDups (mem : element ∈ elements) :
    elements.eraseDups.idxOf element =
      (elements.take (elements.idxOf element)).eraseDups.length := by
  obtain ⟨before, after, rfl, fresh⟩ := List.eq_append_cons_of_mem mem
  have place : (before ++ element :: after).idxOf element = before.length := by
    rw [List.idxOf_append_of_notMem fresh, List.idxOf_cons_self, Nat.add_zero]
  have fresh' : element ∉ before.eraseDups := fun mem => fresh (List.mem_eraseDups.mp mem)
  rw [place, List.take_left, List.eraseDups_append, List.cons_removeAll,
    if_pos (by simpa using fresh), List.eraseDups_cons, List.idxOf_append_of_notMem fresh',
    List.idxOf_cons_self, Nat.add_zero]

end Distinct

def FailureCause.place? : FailureCause → Option Nat
  | .brokenPath index .. => some index
  | _ => none

namespace Store

variable {store : Store} {caller : Caller} {address : Address} {cause : FailureCause}
variable {failure : Failure} {index : Nat}

theorem workspaceAlone_place? (refused : store.workspaceAlone caller address = .error cause) :
    cause.place? = none := by
  simp only [workspaceAlone] at refused
  split at refused
  next => cases refused; rfl
  next =>
    split at refused
    next => cases refused; rfl
    next =>
      split at refused
      next => cases refused; rfl
      next => cases refused

theorem startIn_place? {start : ResolvedAddress} (missing : store.startIn start = .error cause) :
    cause.place? = none := by
  simp only [startIn] at missing
  split at missing
  next => cases missing; rfl
  next =>
    split at missing
    next => cases missing; rfl
    next => cases missing

theorem headAlone_place? (missing : store.headAlone caller address = .error cause) :
    cause.place? = none := by
  simp only [headAlone] at missing
  split at missing
  next _ refused =>
    cases missing
    exact workspaceAlone_place? refused
  next => exact startIn_place? missing

theorem walkAlone_place? {position : Nat} {holder : Address} {previous : Located}
    {hops : List Address}
    (broken : store.walkAlone caller index position holder previous hops = .error cause) :
    cause.place? = some index := by
  induction hops generalizing position holder previous with
  | nil => cases broken
  | cons hop rest ih =>
    simp only [walkAlone] at broken
    split at broken
    next => cases broken; rfl
    next next _ =>
      cases onward : store.walkAlone caller index (position + 1) hop next rest with
      | ok walked =>
        rw [onward] at broken
        cases broken
      | error =>
        rw [onward] at broken
        cases broken
        exact ih onward

theorem outcomeAlone_place? (failed : store.outcomeAlone caller index address = .error failure) :
    failure.cause.place? = none ∨ failure.cause.place? = some index := by
  simp only [outcomeAlone] at failed
  split at failed
  next _ missing =>
    cases failed
    exact .inl (headAlone_place? missing)
  next =>
    split at failed
    next _ broken =>
      cases failed
      exact .inr (walkAlone_place? broken)
    next => cases failed

theorem outcomeFound_place? {searched : SearchResult}
    (failed : store.outcomeFound caller searched address = .error failure) :
    failure.cause.place? = none := by
  simp only [outcomeFound] at failed
  split at failed
  next => cases failed; rfl
  next =>
    split at failed
    next => cases failed
    next =>
      split at failed
      next => cases failed
      next => split at failed <;> cases failed <;> rfl

theorem outcomeOf_place? {searched : SearchResult}
    (failed : store.outcomeOf caller searched index address = .error failure) :
    failure.cause.place? = none ∨ failure.cause.place? = some index := by
  simp only [outcomeOf] at failed
  split at failed
  next => exact .inl (outcomeFound_place? failed)
  next => exact outcomeAlone_place? failed

end Store

theorem Resolutions.failure?_eq_some_iff {resolutions : Resolutions} {address : Address}
    {failure : Failure} : resolutions.failure? address = some failure ↔
      resolutions.outcome? address = some (.error failure) := by
  simp only [failure?]
  split <;> simp_all

namespace Resolver

variable {store : Store} {user : Option User} {batch : List Address} {config : ResolverConfig}
variable {resolver : Resolver}

theorem broken_path_numbered (reachable : store.Reachable)
    (made : make user batch config = .ok resolver) :
    ∃ result, resolver.resolve.run store = .ok result ∧
      ∀ address ∈ batch, ∀ failure index position holder missing,
        result.failure? address = some failure →
        failure.cause = .brokenPath index position holder missing →
          index = result.objects.idxOf address + 1 ∧
          index = (batch.take (batch.idxOf address)).eraseDups.length + 1 ∧
          index ≤ batch.idxOf address + 1 ∧
          (index = batch.idxOf address + 1 ↔ (batch.take (batch.idxOf address)).Nodup) := by
  obtain ⟨searched, _, ran⟩ := resolve_ok reachable.consistent made
  refine ⟨_, ran, ?_⟩
  intro address mem failure index position holder missing failed broken
  have listed : address ∈ batch.eraseDups := List.mem_eraseDups.mpr mem
  rw [Resolutions.failure?_eq_some_iff,
    outcome?_eq listed (store.outcomeOf ⟨user, config.asAdmin⟩ searched)] at failed
  have placed := Store.outcomeOf_place? (Option.some.inj failed)
  rw [broken] at placed
  obtain rfl : index = batch.eraseDups.idxOf address + 1 := by
    simpa [FailureCause.place?] using placed
  have counted := idxOf_eraseDups mem
  have front : (batch.take (batch.idxOf address)).length = batch.idxOf address :=
    List.length_take_of_le (List.idxOf_lt_length_of_mem mem).le
  have fewer := length_eraseDups_le (batch.take (batch.idxOf address))
  have distinct := @length_eraseDups_eq_iff _ _ (batch.take (batch.idxOf address))
  rw [front] at fewer distinct
  refine ⟨?_, ?_, ?_, ?_⟩
  · simp [Resolutions.objects, Function.comp_def, List.zipIdx_map_fst]
  · rw [counted]
  · omega
  · rw [← distinct, counted]
    omega

namespace Sample

def repeated : List Address :=
  [Store.Sample.walk, Store.Sample.walk, Store.Sample.stray]

end Sample

theorem sample_broken_path_numbered :
    ∃ resolver result, Store.sample.Reachable ∧
      make (some Store.Sample.alice) Sample.repeated {} = .ok resolver ∧
      resolver.resolve.run Store.sample = .ok result ∧
      result.failure? Store.Sample.stray = some (Store.Sample.astray 2) ∧
      Sample.repeated.idxOf Store.Sample.stray = 2 ∧ ¬ (Sample.repeated.take 2).Nodup := by
  have made : make (some Store.Sample.alice) Sample.repeated {} = .ok _ := rfl
  obtain ⟨result, ran, numbered⟩ := broken_path_numbered Store.reachable_sample made
  have place : Sample.repeated.idxOf Store.Sample.stray = 2 := by decide
  have failed : result.failure? Store.Sample.stray = some (Store.Sample.astray 2) := by
    obtain ⟨searched, _, ran'⟩ := resolve_ok Store.reachable_sample.consistent made
    rw [Except.ok.inj (ran.symm.trans ran'), Resolutions.failure?_eq_some_iff]
    rfl
  obtain ⟨_, _, _, repetition⟩ := numbered Store.Sample.stray (by decide) _ _ _ _ _ failed rfl
  rw [place] at repetition
  have ahead : ¬ 2 = 2 + 1 := by decide
  exact ⟨_, result, Store.reachable_sample, made, ran, failed, place, mt repetition.mpr ahead⟩

-- The third address of the batch has the number two.
theorem sample_numbered_ahead :
    ¬ ∀ (store : Store) (user : Option User) (batch : List Address) (config : ResolverConfig)
      (resolver : Resolver) (result : Resolutions), store.Reachable →
      make user batch config = .ok resolver → resolver.resolve.run store = .ok result →
      ∀ address ∈ batch, ∀ failure index position holder missing,
        result.failure? address = some failure →
        failure.cause = .brokenPath index position holder missing →
          index = batch.idxOf address + 1 := by
  intro claimed
  have made : make (some Store.Sample.alice) Sample.repeated {} = .ok _ := rfl
  obtain ⟨searched, _, ran⟩ := resolve_ok Store.reachable_sample.consistent made
  have place := claimed Store.sample _ _ _ _ _ Store.reachable_sample made ran
    Store.Sample.stray (by decide) (Store.Sample.astray 2) 2 1 Store.Sample.stray
    (Store.Sample.wanted .direct) (Resolutions.failure?_eq_some_iff.mpr rfl) rfl
  exact absurd place (by decide)

end Resolver

end ObjectSpace
