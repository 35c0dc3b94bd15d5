import ObjectSpace.Proofs.Enquiry.Transcript
import ObjectSpace.Proofs.Resolution.Passes

set_option autoImplicit false

namespace ObjectSpace

namespace Resolver

structure Opening where
  findings : Findings
  progress : List (Address × Progress)

def Opening.outcomes (opening : Opening) (searched : SearchResult) :
    Except ResolveError (List (Address × Outcome)) :=
  opening.progress.mapM (concluded opening.findings searched)

def heads (resolver : Resolver) (snapshot : Snapshot) : List ResolvedAddress :=
  resolver.objects.filterMap fun object => (snapshot.head object).toOption

def hops (resolver : Resolver) (snapshot : Snapshot) : List ResolvedAddress :=
  (resolver.objects.flatMap snapshot.hops).eraseDups

def opening (resolver : Resolver) : Enquiry ResolveError Opening := do
  let snapshot ← resolver.snapshot
  let references ←
    referencesOf (resolver.heads snapshot ++ resolver.hops snapshot).eraseDups
  let states ← Search.statesOf references.values.eraseDups
  let findings : Findings := { snapshot, references, states }
  let incoming ← referrersOf (findings.unreadable (resolver.hops snapshot))
  let progress ← Enquiry.ofExcept (resolver.progressAll findings incoming)
  return { findings, progress }

theorem passes_eq (resolver : Resolver) (findings : Findings)
    (incoming : Table Reference (List Reference)) :
    (Enquiry.ofExcept (resolver.objects.zipIdx.foldlM (settleNext findings incoming)
        { outcomes := Table.collect resolver.objects findings.snapshot.refusal? }) >>=
      fun settling => resolver.search (settling.searches.map fun entry => entry.2.2) >>=
      fun searched => Enquiry.ofExcept
        ((settling.searches.foldlM (concludeNext findings searched) settling.outcomes).map
          (Resolutions.of resolver.objects))) =
    (Enquiry.ofExcept (resolver.progressAll findings incoming) >>=
      fun reached => resolver.search (targets reached) >>=
      fun searched => Enquiry.ofExcept
        ((Opening.outcomes ⟨findings, reached⟩ searched).map Resolutions.mk)) := by
  rw [foldlM_settleNext]
  cases ran : resolver.progressAll findings incoming with
  | error error => rfl
  | ok reached =>
    change (resolver.search
      ((resolver.settling findings.snapshot reached).searches.map fun entry => entry.2.2) >>= _) = _
    rw [settling_searches ran, targets_eq]
    exact congrArg _ (funext fun searched =>
      congrArg Enquiry.ofExcept (foldlM_concludeNext ran searched))

theorem resolve_eq (resolver : Resolver) :
    resolver.resolve = resolver.opening >>= fun opening =>
      resolver.search (targets opening.progress) >>= fun searched =>
        Enquiry.ofExcept ((opening.outcomes searched).map Resolutions.mk) := by
  have passes := passes_eq resolver
  simp only [Enquiry.ofExcept_map, Bind.bind] at passes
  simp only [Enquiry.ofExcept_map, resolve, opening, Bind.bind, Enquiry.bind_assoc]
  refine congrArg _ (funext fun snapshot => ?_)
  refine congrArg _ (funext fun references => ?_)
  refine congrArg _ (funext fun states => ?_)
  exact congrArg _ (funext fun incoming => passes _ incoming)

theorem opening_ok {resolver : Resolver} {σ : Type} {respond : Responder σ} {state after : σ} {opening : Opening}
    (opened : resolver.opening.runWith respond state = (.ok opening, after)) :
    ∃ incoming, resolver.progressAll opening.findings incoming = .ok opening.progress := by
  rcases Enquiry.runWith_bind_ok opened with ⟨snapshot, _, _, ran⟩
  rcases Enquiry.runWith_bind_ok ran with ⟨references, _, _, ran⟩
  rcases Enquiry.runWith_bind_ok ran with ⟨states, _, _, ran⟩
  rcases Enquiry.runWith_bind_ok ran with ⟨incoming, _, _, ran⟩
  rcases Enquiry.runWith_bind_ok ran with ⟨reached, _, progressed, ran⟩
  rw [Enquiry.runWith_ofExcept] at progressed
  cases ran
  exact ⟨incoming, (Prod.mk.inj progressed).1⟩

end Resolver

open Enquiry (HaltsOnFault)

namespace Search

variable {ε : Type} [OfStoreError ε]

theorem statesOf_halts (references : List Reference) :
    (statesOf references : Enquiry ε _).HaltsOnFault := by
  rw [statesOf]
  split
  · exact .done _
  · exact .query _

theorem levels_halts (readable : ReadableWorkspaces) (limit fuel count : Nat)
    (trees : List SearchTree) (result : SearchResult) :
    (levels readable limit fuel count trees result : Enquiry ε _).HaltsOnFault := by
  induction fuel generalizing count trees result with
  | zero => exact .done _
  | succ fuel ih =>
    rw [levels]
    split
    · exact .done _
    · apply HaltsOnFault.bind (.query _)
      intro incoming
      dsimp only
      split
      · exact .done _
      · exact .bind (statesOf_halts _) fun states => ih _ _ _

theorem run_halts (readable : ReadableWorkspaces) (limit : Nat) (targets : List Reference) :
    (Search.run readable limit targets : Enquiry ε _).HaltsOnFault := by
  simp only [Search.run]
  split
  · exact .done _
  · split
    · exact .done _
    · exact levels_halts _ _ _ _ _ _

end Search

namespace Resolver

theorem snapshot_halts (resolver : Resolver) : resolver.snapshot.HaltsOnFault := by
  apply HaltsOnFault.bind (.query _)
  intro workspaces
  split
  · exact .done _
  · exact .bind (.query _) fun permissions => .done _

theorem referencesOf_halts (addresses : List ResolvedAddress) :
    (referencesOf addresses).HaltsOnFault := by
  rw [referencesOf]
  split
  · exact .done _
  · exact .query _

theorem referrersOf_halts (references : List Reference) :
    (referrersOf references).HaltsOnFault := by
  rw [referrersOf]
  split
  · exact .done _
  · exact .query _

theorem opening_halts (resolver : Resolver) : resolver.opening.HaltsOnFault := by
  refine .bind resolver.snapshot_halts fun snapshot => ?_
  refine .bind (referencesOf_halts _) fun references => ?_
  refine .bind (Search.statesOf_halts _) fun states => ?_
  refine .bind (referrersOf_halts _) fun incoming => ?_
  exact .bind (.ofExcept _) fun progress => .done _

theorem search_halts (resolver : Resolver) (targets : List Reference) :
    (resolver.search targets).HaltsOnFault := by
  rw [search]
  split
  · exact .done _
  · apply HaltsOnFault.bind
    · rw [readableWorkspaces]
      split
      · exact .done _
      · exact .bind (.query _) fun set => .done _
    · exact fun readable => Search.run_halts _ _ _

theorem resolve_halts (resolver : Resolver) : resolver.resolve.HaltsOnFault := by
  rw [resolve_eq]
  refine .bind resolver.opening_halts fun opening => ?_
  exact .bind (resolver.search_halts _) fun searched => .ofExcept _

end Resolver

end ObjectSpace
