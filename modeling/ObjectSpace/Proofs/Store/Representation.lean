import ObjectSpace.Proofs.Store.Growth

set_option autoImplicit false

namespace ObjectSpace.Store

theorem reachable_represents {store : Store} (reachable : store.Reachable)
    (fits : store.VersionsFit) :
    store.WellFormed ∧
      (∀ keys, ∃ table, store.resolveWorkspaces true keys = .ok table) ∧
      ∀ suppress keys table, store.resolveWorkspaces suppress keys = .ok table →
        ∀ key workspace, table.get? key = some workspace → key.isMatch workspace = true := by
  have wellFormed := reachable.wellFormed fits
  refine ⟨wellFormed, ?_, ?_⟩
  · intro keys
    exact ⟨_, resolveWorkspaces_eq wellFormed.toConsistent keys⟩
  · intro suppress keys table resolved key workspace found
    exact wellFormed.toConsistent.isMatch (resolveWorkspaces_get? resolved found)

theorem sample_represents :
    sample.Reachable ∧ sample.VersionsFit ∧ sample.WellFormed ∧
      sample.referrers Sample.target = [Sample.middle] ∧
      sample.references? Sample.middle = some [Sample.target, Sample.target] := by
  have fits : sample.VersionsFit := by decide
  refine ⟨reachable_sample, fits, (reachable_represents reachable_sample fits).1, ?_, ?_⟩
  · decide
  · decide

end ObjectSpace.Store
