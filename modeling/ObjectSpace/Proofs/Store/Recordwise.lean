import ObjectSpace.Proofs.Store.Answers

set_option autoImplicit false

namespace ObjectSpace.Store

structure Recordwise (related : WorkspaceRecord → WorkspaceRecord → Prop) (before after : Store) :
    Prop where
  workspaceNames : after.workspaceNames = before.workspaceNames
  missing : ∀ id, before.workspaces.get? id = none → after.workspaces.get? id = none
  records : ∀ id record, before.workspaces.get? id = some record →
    ∃ now, after.workspaces.get? id = some now ∧ related record now

namespace Recordwise

variable {related other : WorkspaceRecord → WorkspaceRecord → Prop} {store after last : Store}
variable {workspace : Nat}

theorem refl (same : ∀ record, related record record) (store : Store) :
    store.Recordwise related store :=
  ⟨rfl, fun _ missing => missing, fun _ record found => ⟨record, found, same record⟩⟩

theorem imp (recordwise : store.Recordwise related after)
    (weaker : ∀ record now, related record now → other record now) :
    store.Recordwise other after := by
  refine ⟨recordwise.workspaceNames, recordwise.missing, ?_⟩
  intro id record found
  rcases recordwise.records id record found with ⟨now, present, change⟩
  exact ⟨now, present, weaker record now change⟩

theorem trans (joined : ∀ record now later, related record now → related now later →
      related record later) (first : store.Recordwise related after)
    (second : after.Recordwise related last) : store.Recordwise related last := by
  refine ⟨second.workspaceNames.trans first.workspaceNames,
    fun id missing => second.missing id (first.missing id missing), ?_⟩
  intro id record found
  rcases first.records id record found with ⟨now, present, change⟩
  rcases second.records id now present with ⟨later, held, again⟩
  exact ⟨later, held, joined record now later change again⟩

theorem insert (same : ∀ record, related record record) {record changed : WorkspaceRecord}
    (found : store.workspaces.get? workspace = some record) (change : related record changed)
    (incoming : Table Reference (List Reference)) :
    store.Recordwise related
      { store with workspaces := store.workspaces.insert workspace changed, incoming } := by
  refine ⟨rfl, fun id missing => ?_, fun id other present => ?_⟩
  · have apart : workspace ≠ id := by
      intro here
      simp [← here, found] at missing
    rw [Table.get?_insert_of_ne _ _ apart, missing]
  · rw [Table.get?_insert]
    by_cases here : workspace = id
    · subst here
      cases found.symm.trans present
      exact ⟨changed, if_pos rfl, change⟩
    · rw [if_neg here]
      exact ⟨other, present, same other⟩

theorem updateWorkspace (same : ∀ record, related record record)
    {change : WorkspaceRecord → WorkspaceRecord}
    (changes : ∀ record, store.workspaces.get? workspace = some record →
      related record (change record)) :
    store.Recordwise related (store.updateWorkspace workspace change).2 := by
  cases found : store.workspaces.get? workspace with
  | none =>
    simp only [Store.updateWorkspace, found]
    exact refl same store
  | some record =>
    simp only [Store.updateWorkspace, found]
    exact insert same found (changes record found) _

theorem find?_eq_none (recordwise : store.Recordwise related after) {key : WorkspaceKey}
    (missing : store.find? key = none) : after.find? key = none := by
  have by_id : ∀ id, store.find? (.id id) = none → after.find? (.id id) = none := by
    intro id
    simp only [find?_id, Option.map_eq_none_iff]
    exact recordwise.missing id
  cases key with
  | id id => exact by_id id missing
  | name name =>
    simp only [find?_name, Option.bind_eq_none_iff] at missing ⊢
    intro id named
    rw [recordwise.workspaceNames] at named
    exact by_id id (missing id named)

theorem find?_eq_some (recordwise : store.Recordwise related after) {key : WorkspaceKey} {id : Nat}
    {record : WorkspaceRecord} (found : store.find? key = some (id, record)) :
    ∃ now, after.find? key = some (id, now) ∧ related record now := by
  rcases Store.find?_eq_some found with ⟨here, named⟩
  rcases recordwise.records id record here with ⟨now, present, change⟩
  refine ⟨now, ?_, change⟩
  rcases named with rfl | ⟨name, rfl, named⟩
  · rw [find?_id, present]
    rfl
  · rw [find?_name, recordwise.workspaceNames, named, Option.bind_some, find?_id, present]
    rfl

theorem workspace?_eq (shown : ∀ record now, related record now →
    ∀ id, now.shown id = record.shown id) (recordwise : store.Recordwise related after)
    (key : WorkspaceKey) : after.workspace? key = store.workspace? key := by
  cases found : store.find? key with
  | none => simp [workspace?, found, recordwise.find?_eq_none found]
  | some entry =>
    rcases recordwise.find?_eq_some found with ⟨now, present, change⟩
    simp [workspace?, found, present, shown entry.2 now change]

end Recordwise

end ObjectSpace.Store
