import ObjectSpace.Proofs.Store.History
import ObjectSpace.Proofs.Store.Refusal

set_option autoImplicit false

namespace ObjectSpace.Store

def objectNamed (store : Store) (workspace : Nat) (name : String) : ObjectRecord :=
  (store.workspaces.get? workspace).elim { name } fun record => record.objectFor name

def idNamed (store : Store) (workspace : Nat) (name : String) : Option Nat :=
  (store.workspaces.get? workspace).map fun record => record.idFor name

structure NewVersion (store : Store) (returned : List Reference) (workspace : Nat) (name : String)
    (saved : Reference) (after : Store) : Prop where
  fresh : saved ∉ returned
  in_workspace : saved.workspace = workspace
  in_object : store.idNamed workspace name = some saved.object
  numbered : saved.version = (store.objectNamed workspace name).latestVersion + 1
  stored : after.holds saved = true

def SavesAnew (store : Store) (returned : List Reference) (workspace : Nat) (name : String)
    (references : List Reference) : Prop :=
  match store.saveObject workspace name references with
  | (.error _, after) => after = store
  | (.ok saved, after) => store.NewVersion returned workspace name saved after

-- A multiple of the bound loses all versions; other saves return one again.
def RunsOut (store : Store) (returned : List Reference) (workspace : Nat) (name : String)
    (references : List Reference) : Prop :=
  match store.saveObject workspace name references with
  | (.error cause, after) =>
    Text.versionBound ∣ (store.objectNamed workspace name).versions.length + 1 ∧
      cause = .value .invalidReference ∧ after ≠ store ∧
      ∀ lost : Reference, lost.workspace = workspace →
        store.idNamed workspace name = some lost.object → after.holds lost = false
  | (.ok saved, _) =>
    ¬ Text.versionBound ∣ (store.objectNamed workspace name).versions.length + 1 ∧
      saved ∈ returned

inductive SaveOutcome (store : Store) (workspace : Nat) (name : String)
    (references : List Reference) : Except StoreError Reference × Store → Prop where
  | refused {cause : StoreError} (why : store.SaveRefused workspace name references cause) :
      SaveOutcome store workspace name references (.error cause, store)
  | saved {record : WorkspaceRecord} {saved : Reference} {after : Store}
      (in_workspace : saved.workspace = workspace)
      (saves : store.Saves record name references saved after) :
      SaveOutcome store workspace name references (.ok saved, after)
  | exhausted {record : WorkspaceRecord} {after : Store}
      (found : store.workspaces.get? workspace = some record)
      (unnumbered : record.savedNumber name = 0)
      (outcome : after =
        { store with
          workspaces := store.workspaces.insert workspace (record.save name references) }) :
      SaveOutcome store workspace name references (.error (.value .invalidReference), after)

structure Counted (store : Store) (entries : List Entry) : Prop where
  within : ∀ entry ∈ entries,
    entry.reference.version ≤
      (store.versionsOf entry.reference.workspace entry.reference.object).length
  returned : ∀ workspace object place, 1 ≤ place →
    place ≤ (store.versionsOf workspace object).length → place % Text.versionBound ≠ 0 →
      ∃ entry ∈ entries, entry.reference.workspace = workspace ∧
        entry.reference.object = object ∧ entry.reference.version = place % Text.versionBound

variable {store after : Store} {workspace : Nat} {name : String} {references : List Reference}
variable {record : WorkspaceRecord} {entries : List Entry}

theorem saveObject_outcome (consistent : store.Consistent) (workspace : Nat) (name : String)
    (references : List Reference) :
    store.SaveOutcome workspace name references (store.saveObject workspace name references) := by
  by_cases refused : ∃ cause, store.SaveRefused workspace name references cause
  · obtain ⟨cause, why⟩ := refused
    rw [why.saveObject_eq]
    exact .refused why
  · obtain ⟨record, found, _, held, appended⟩ := saveObject_accepted refused
    have ok := consistent.records workspace record found
    rw [appended, appendVersion_eq store workspace ok]
    cases made : Reference.ofParts workspace (record.idFor name) (record.savedNumber name) with
    | ok saved =>
      obtain ⟨rfl, in_object, numbered⟩ := ofParts_eq_ok made
      exact .saved rfl ⟨found, held, in_object, numbered, rfl⟩
    | error cause =>
      have positive := consistent.numbered.pos found
      have object_pos := WorkspaceRecord.idFor_pos ok name
      have bound : record.savedNumber name < Text.versionBound := Nat.mod_lt _ (by decide)
      -- The ids are positive and the number has 32 bits, so it can only be zero.
      simp only [Reference.ofParts, positive, object_pos, bound, true_and, and_true] at made
      split at made
      next => cases made
      next unnumbered =>
        cases made
        exact .exhausted found (by omega) rfl

theorem objectNamed_eq (name : String) (found : store.workspaces.get? workspace = some record) :
    store.objectNamed workspace name = record.objectFor name := by
  rw [objectNamed, found, Option.elim_some]

theorem idNamed_eq (name : String) (found : store.workspaces.get? workspace = some record) :
    store.idNamed workspace name = some (record.idFor name) := by
  rw [idNamed, found, Option.map_some]

theorem append_ne (found : store.workspaces.get? workspace = some record)
    (appended :
      after.workspaces = store.workspaces.insert workspace (record.save name references)) :
    after ≠ store := by
  intro same
  have now := versionsOf_append found appended workspace (record.idFor name)
  rw [same, versionsOf_idFor name found, if_pos ⟨rfl, rfl⟩] at now
  simp at now

theorem Counted.append (counted : store.Counted entries)
    (found : store.workspaces.get? workspace = some record)
    (appended : after.workspaces = store.workspaces.insert workspace (record.save name references))
    (noted : List Entry)
    (placed : ∀ entry ∈ noted, entry.reference.workspace = workspace ∧
      entry.reference.object = record.idFor name ∧
      entry.reference.version = record.savedNumber name)
    (numbered : record.savedNumber name ≠ 0 → noted ≠ []) :
    after.Counted (entries ++ noted) := by
  have now := versionsOf_append found appended
  have before := versionsOf_idFor name found
  refine ⟨?_, ?_⟩
  · intro entry mem
    rw [now]
    rcases List.mem_append.mp mem with old | new
    · have within := counted.within entry old
      split
      next here =>
        rw [← here.1, ← here.2, before] at within
        simp only [List.length_append, List.length_singleton]
        omega
      next => exact within
    · obtain ⟨in_workspace, in_object, number⟩ := placed entry new
      rw [if_pos ⟨in_workspace.symm, in_object.symm⟩, number]
      simpa [WorkspaceRecord.savedNumber] using Nat.mod_le _ Text.versionBound
  · intro other object place positive within number
    have earlier : place ≤ (store.versionsOf other object).length →
        ∃ entry ∈ entries ++ noted, entry.reference.workspace = other ∧
          entry.reference.object = object ∧
          entry.reference.version = place % Text.versionBound := by
      intro within
      obtain ⟨entry, mem, parts⟩ := counted.returned other object place positive within number
      exact ⟨entry, List.mem_append_left _ mem, parts⟩
    rw [now] at within
    split at within
    next here =>
      obtain ⟨rfl, rfl⟩ := here
      simp only [List.length_append, List.length_singleton] at within
      by_cases old : place ≤ (record.objectFor name).versions.length
      · exact earlier (by rwa [before])
      · have last : place % Text.versionBound = record.savedNumber name := by
          rw [WorkspaceRecord.savedNumber]
          congr 1
          omega
        obtain ⟨entry, mem⟩ := List.exists_mem_of_ne_nil _ (numbered (last ▸ number))
        exact ⟨entry, List.mem_append_right _ mem, last ▸ placed entry mem⟩
    next => exact earlier within

theorem Counted.kept (counted : store.Counted entries) {update : Update}
    (unsaved : store.savedBy? update = none ∧
      (store.update update).versionsOf = store.versionsOf) :
    (store.update update).Counted (entries ++ (store.savedBy? update).toList) := by
  obtain ⟨none_saved, same⟩ := unsaved
  rw [none_saved, Option.toList_none, List.append_nil]
  exact ⟨same ▸ counted.within, same ▸ counted.returned⟩

theorem Counted.update (consistent : store.Consistent) (counted : store.Counted entries)
    (update : Update) :
    (store.update update).Counted (entries ++ (store.savedBy? update).toList) := by
  cases update with
  | saveObject workspace name references =>
    cases ran : store.saveObject workspace name references with
    | mk answer after =>
      have outcome := saveObject_outcome consistent workspace name references
      rw [savedBy?_saveObject ran]
      simp only [Store.update, ran] at outcome ⊢
      cases outcome with
      | refused why => simpa [Except.toOption] using counted
      | saved in_workspace saves =>
        subst in_workspace
        refine counted.append saves.found (by rw [saves.outcome]) _ ?_ (by simp [Except.toOption])
        simp [Except.toOption, saves.in_object, saves.numbered]
      | exhausted found unnumbered outcome =>
        exact counted.append found (by rw [outcome]) _ (by simp [Except.toOption])
          (absurd unnumbered)
  | createWorkspace | setPermission | setWorldReadable | setLocked | setWorkspaceDeleted
  | setObjectDeleted => exact counted.kept (update_unsaved (by simp))

theorem Counted.foldl (consistent : store.Consistent) (counted : store.Counted entries)
    (updates : List Update) :
    (updates.foldl Store.update store).Counted (entries ++ store.entriesOf updates) := by
  induction updates generalizing store entries with
  | nil => simpa [entriesOf] using counted
  | cons first rest ih =>
    have now := step_consistent consistent (update_step consistent first)
    have grown := ih now (counted.update consistent first)
    rwa [List.append_assoc] at grown

theorem run_counted (updates : List Update) : (run updates).Counted (history updates) := by
  have start : empty.Counted [] := ⟨by simp, by simp [versionsOf, empty]; omega⟩
  exact start.foldl empty_consistent updates

theorem Saves.numbered_next {saved : Reference}
    (saves : store.Saves record name references saved after) :
    saved.version = (record.objectFor name).latestVersion + 1 := by
  have bound : Text.versionBound = 4294967296 := rfl
  have positive := saved.version_pos
  have numbered := saves.numbered
  simp only [WorkspaceRecord.savedNumber, bound] at numbered
  simp only [ObjectRecord.latestVersion, bound]
  omega

theorem Counted.fresh_iff (counted : store.Counted entries) {saved : Reference}
    (saves : store.Saves record name references saved after) :
    saved ∉ entries.map Entry.reference ↔
      (record.objectFor name).versions.length + 1 < Text.versionBound := by
  have before := versionsOf_idFor name saves.found
  have numbered := saves.numbered
  rw [← saves.in_object] at before
  constructor
  · intro fresh
    refine Nat.lt_of_not_le fun full => ?_
    have positive := saved.version_pos
    have below := saved.version_lt
    have same := Nat.mod_eq_of_lt below
    obtain ⟨entry, mem, in_workspace, in_object, number⟩ :=
      counted.returned saved.workspace saved.object saved.version positive
        (by rw [before]; omega) (by omega)
    exact fresh (List.mem_map.mpr
      ⟨entry, mem, Reference.ext_parts in_workspace in_object (number.trans same)⟩)
  · intro few listed
    obtain ⟨entry, mem, rfl⟩ := List.mem_map.mp listed
    have within := counted.within entry mem
    rw [WorkspaceRecord.savedNumber_eq few] at numbered
    rw [before] at within
    omega

theorem exhausted_lost (found : store.workspaces.get? workspace = some record)
    (unnumbered : record.savedNumber name = 0)
    (appended : after.workspaces = store.workspaces.insert workspace (record.save name references))
    (lost : Reference) (in_workspace : lost.workspace = workspace)
    (in_object : store.idNamed workspace name = some lost.object) :
    after.holds lost = false := by
  rw [idNamed_eq name found, Option.some.injEq] at in_object
  rw [Bool.eq_false_iff]
  intro held
  obtain ⟨object, stored⟩ := Option.isSome_iff_exists.mp held
  obtain ⟨now, located, present, numbered⟩ := object?_eq_some.mp stored
  rw [appended, in_workspace, Table.get?_insert_self, Option.some.injEq] at located
  rw [← located, ← in_object, WorkspaceRecord.save, Table.get?_insert_self,
    Option.some.injEq] at present
  obtain ⟨positive, within⟩ := hasVersion_iff_latest.mp numbered
  rw [← present, WorkspaceRecord.latestVersion_append, unnumbered] at within
  omega

theorem Saves.newVersion {saved : Reference} {returned : List Reference}
    (saves : store.Saves record name references saved after) (fresh : saved ∉ returned) :
    store.NewVersion returned saved.workspace name saved after where
  fresh := fresh
  in_workspace := rfl
  in_object := by rw [idNamed_eq name saves.found, saves.in_object]
  numbered := by rw [objectNamed_eq name saves.found, saves.numbered_next]
  stored := by simp [holds, saves.object?_saved]

theorem savesAnew_iff (consistent : store.Consistent) (counted : store.Counted entries)
    (workspace : Nat) (name : String) (references : List Reference) :
    store.SavesAnew (entries.map Entry.reference) workspace name references ↔
      (∃ cause, store.SaveRefused workspace name references cause) ∨
        (store.objectNamed workspace name).versions.length + 1 < Text.versionBound := by
  have outcome := saveObject_outcome consistent workspace name references
  have refusal : ∀ cause, store.SaveRefused workspace name references cause →
      store.saveObject workspace name references = (.error cause, store) :=
    fun _ why => why.saveObject_eq
  simp only [SavesAnew]
  generalize store.saveObject workspace name references = result at outcome refusal
  cases outcome with
  | refused why => exact iff_of_true rfl (.inl ⟨_, why⟩)
  | saved in_workspace saves =>
    subst in_workspace
    rw [objectNamed_eq name saves.found, ← counted.fresh_iff saves]
    constructor
    · intro new
      exact .inr new.fresh
    · intro either
      rcases either with ⟨cause, why⟩ | fresh
      · cases refusal cause why
      · exact saves.newVersion fresh
  | exhausted found unnumbered outcome =>
    have changed := append_ne found (congrArg workspaces outcome)
    refine iff_of_false changed ?_
    intro either
    rcases either with ⟨cause, why⟩ | few
    · exact changed (Prod.mk.inj (refusal cause why)).2
    · rw [objectNamed_eq name found] at few
      rw [WorkspaceRecord.savedNumber_eq few] at unnumbered
      cases unnumbered

theorem savesAnew_or_runsOut (consistent : store.Consistent) (returned : List Reference)
    (workspace : Nat) (name : String) (references : List Reference) :
    store.SavesAnew returned workspace name references ∨
      store.RunsOut returned workspace name references := by
  have outcome := saveObject_outcome consistent workspace name references
  simp only [SavesAnew, RunsOut]
  generalize store.saveObject workspace name references = result at outcome
  cases outcome with
  | refused => exact .inl rfl
  | @saved record saved after in_workspace saves =>
    subst in_workspace
    by_cases again : saved ∈ returned
    · have positive := saved.version_pos
      have numbered := saves.numbered
      rw [WorkspaceRecord.savedNumber] at numbered
      rw [objectNamed_eq name saves.found, Nat.dvd_iff_mod_eq_zero]
      exact .inr ⟨by omega, again⟩
    · exact .inl (saves.newVersion again)
  | exhausted found unnumbered outcome =>
    have appended := congrArg workspaces outcome
    rw [objectNamed_eq name found]
    exact .inr ⟨Nat.dvd_of_mod_eq_zero unnumbered, rfl, append_ne found appended,
      exhausted_lost found unnumbered appended⟩

section Resaving

structure Saveable (store : Store) (workspace : Nat) (record : WorkspaceRecord) (name : String)
    (id : Nat) (object : ObjectRecord) : Prop where
  valid : Name.checkObject name = .ok ()
  found : store.workspaces.get? workspace = some record
  live : record.deleted = false
  named : record.objectNames.get? name = some id
  present : record.objects.get? id = some object

def withVersions (store : Store) (workspace : Nat) (record : WorkspaceRecord) (id : Nat)
    (object : ObjectRecord) (versions : List (List Reference)) : Store :=
  { store with
    workspaces := store.workspaces.insert workspace
      { record with objects := record.objects.insert id { object with versions } } }

variable {id : Nat} {object : ObjectRecord}

theorem Saveable.saveObject_eq (saveable : store.Saveable workspace record name id object) :
    store.saveObject workspace name [] =
      ((Reference.ofParts workspace id ((object.versions.length + 1) % Text.versionBound)).mapError
          .value,
        store.withVersions workspace record id object (object.versions ++ [[]])) := by
  obtain ⟨valid, found, live, named, present⟩ := saveable
  have number : ({ object with versions := object.versions ++ [[]] } : ObjectRecord).latestVersion =
      (object.versions.length + 1) % Text.versionBound := by
    simp [ObjectRecord.latestVersion]
  have kept : ¬ record.deleted = true := by simp [live]
  simp only [saveObject, valid, List.find?_nil, found, if_neg kept, appendVersion, withObject, named,
    present, number]
  cases Reference.ofParts workspace id ((object.versions.length + 1) % Text.versionBound) <;> rfl

theorem Saveable.withVersions (saveable : store.Saveable workspace record name id object)
    (versions : List (List Reference)) :
    (store.withVersions workspace record id object versions).Saveable workspace
      { record with objects := record.objects.insert id { object with versions } } name id
      { object with versions } where
  valid := saveable.valid
  found := Table.get?_insert_self _ _ _
  live := saveable.live
  named := saveable.named
  present := Table.get?_insert_self _ _ _

theorem Saveable.foldl_update (saveable : store.Saveable workspace record name id object)
    (count : Nat) :
    (List.replicate count (.saveObject workspace name [])).foldl update store =
      store.withVersions workspace record id object
        (object.versions ++ List.replicate count []) := by
  induction count generalizing store record object with
  | zero =>
    simp only [List.replicate_zero, List.foldl_nil, List.append_nil, Store.withVersions,
      Table.insert_of_get? saveable.present, Table.insert_of_get? saveable.found]
  | succ count ih =>
    have once : store.update (.saveObject workspace name []) =
        store.withVersions workspace record id object (object.versions ++ [[]]) :=
      congrArg Prod.snd saveable.saveObject_eq
    rw [List.replicate_succ, List.foldl_cons, once, ih (saveable.withVersions _)]
    simp only [Store.withVersions, Table.insert_insert, List.append_assoc, List.singleton_append,
      List.replicate_succ]

end Resaving

theorem saves_anew_until_full (updates : List Update) (workspace : Nat) (name : String)
    (references : List Reference) :
    ((run updates).SavesAnew ((history updates).map Entry.reference) workspace name references ↔
      (∃ cause, (run updates).SaveRefused workspace name references cause) ∨
        ((run updates).objectNamed workspace name).versions.length + 1 < Text.versionBound) ∧
      ((run updates).SavesAnew ((history updates).map Entry.reference) workspace name references ∨
        (run updates).RunsOut ((history updates).map Entry.reference) workspace name
          references) := by
  have consistent := (reachable_run updates).consistent
  exact ⟨savesAnew_iff consistent (run_counted updates) workspace name references,
    savesAnew_or_runsOut consistent _ workspace name references⟩

namespace Sample

def saves (count : Nat) : List Update :=
  .createWorkspace ⟨"alice"⟩ "top" :: List.replicate count (.saveObject 1 "x" [])

def kept (versions : List (List Reference)) : WorkspaceRecord where
  name := "top"
  acl := Table.empty.insert ⟨"alice"⟩ .owner
  objects := Table.empty.insert 1 { name := "x", versions }
  objectNames := Table.empty.insert "x" 1

def saved (versions : List (List Reference)) : Store where
  workspaces := Table.empty.insert 1 (kept versions)
  workspaceNames := Table.empty.insert "top" 1

end Sample

theorem run_saves (count : Nat) :
    run (Sample.saves (count + 1)) = Sample.saved (List.replicate (count + 1) []) := by
  have first : (Sample.saved [[]]).Saveable 1 (Sample.kept [[]]) "x" 1
      { name := "x", versions := [[]] } := ⟨rfl, rfl, rfl, rfl, rfl⟩
  have later : run (Sample.saves (count + 1)) = _ := first.foldl_update count
  rw [later]
  rfl

-- The bound by another name, so that no list of that length is written out.
theorem exists_full : ∃ count, Text.versionBound = count + 1 ∧
    Text.versionBound ∣ (List.replicate (count + 1) ([] : List Reference)).length := by
  obtain ⟨count, last⟩ : ∃ count, Text.versionBound = count + 1 :=
    Nat.exists_eq_succ_of_ne_zero (by decide)
  refine ⟨count, last, Nat.dvd_of_mod_eq_zero ?_⟩
  rw [List.length_replicate, last, Nat.mod_self]

theorem saves_count (count : Nat) :
    (¬ ∃ cause, (run (Sample.saves count)).SaveRefused 1 "x" [] cause) ∧
      ((run (Sample.saves count)).objectNamed 1 "x").versions.length = count := by
  have valid : Name.checkObject "x" = .ok () := rfl
  have accepted : ∀ {store : Store} {record : WorkspaceRecord},
      store.workspaces.get? 1 = some record → record.deleted = false →
        ¬ ∃ cause, store.SaveRefused 1 "x" [] cause := by
    intro store record found live
    simp [exists_saveRefused_iff, valid, found, live]
  cases count with
  | zero => exact ⟨accepted rfl rfl, rfl⟩
  | succ count =>
    rw [run_saves]
    exact ⟨accepted rfl rfl, List.length_replicate⟩

-- The save fails and does not leave the store as it was.
theorem sample_saves_full :
    ¬ (run (Sample.saves (Text.versionBound - 1))).SavesAnew
        ((history (Sample.saves (Text.versionBound - 1))).map Entry.reference) 1 "x" [] ∧
      ∃ after, (run (Sample.saves (Text.versionBound - 1))).saveObject 1 "x" [] =
          (.error (.value .invalidReference), after) ∧
        after ≠ run (Sample.saves (Text.versionBound - 1)) := by
  generalize last : Text.versionBound - 1 = count
  have full : count + 1 = Text.versionBound := by
    rw [← last]
    decide
  obtain ⟨accepted, counted⟩ := saves_count count
  have consistent := (reachable_run (Sample.saves count)).consistent
  have not_anew : ¬ (run (Sample.saves count)).SavesAnew
      ((history (Sample.saves count)).map Entry.reference) 1 "x" [] := by
    rw [savesAnew_iff consistent (run_counted _), counted, full]
    exact fun either => either.elim accepted (Nat.lt_irrefl _)
  refine ⟨not_anew, ?_⟩
  have out := (savesAnew_or_runsOut consistent _ 1 "x" []).resolve_left not_anew
  rw [RunsOut, counted, full] at out
  split at out
  next cause after ran =>
    obtain ⟨_, rfl, changed, _⟩ := out
    exact ⟨after, ran, changed⟩
  next => exact absurd (Nat.dvd_refl _) out.1

end ObjectSpace.Store
