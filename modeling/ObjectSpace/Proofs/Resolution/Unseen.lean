import ObjectSpace.Proofs.Resolution.Comparison
import ObjectSpace.Proofs.Resolution.Justified
import ObjectSpace.Proofs.Store.Exhaustion
import ObjectSpace.Proofs.Store.Saving

set_option autoImplicit false

namespace ObjectSpace

def Address.PinnedIn (address : Address) (store : Store) (workspace : Nat) : Prop :=
  ∀ resolved ∈ store.workspace? address.workspace, resolved.id = workspace →
    address.version.isSome = true

instance (address : Address) (store : Store) (workspace : Nat) :
    Decidable (address.PinnedIn store workspace) :=
  inferInstanceAs (Decidable (∀ _ ∈ _, _ → _))

namespace Store

inductive Alike (saved : Reference) : Option Located → Option Located → Prop where
  | missing : Alike saved none none
  | shown {before now : Located} (same : before.shown = now.shown)
      (old : before.reference ≠ saved) : Alike saved (some before) (some now)
  | fresh {now : Located} (new : now.reference = saved) : Alike saved none (some now)

structure Unseen (store : Store) (user : Option User) (saved : Reference) (after : Store) :
    Prop where
  front : store.Recordwise WorkspaceRecord.SameFront after
  hidden : (store.grantOn user saved.workspace).effective = .none
  elsewhere : ∀ id, saved.workspace ≠ id → after.workspaces.get? id = store.workspaces.get? id
  pinned : ∀ address : ResolvedAddress, address.version.isSome = true →
    Alike saved (store.locateIn? address) (after.locateIn? address)
  kept : ∀ source target, store.refersTo source target = true →
    after.refersTo source target = true
  refersTo_eq : ∀ source target, source ≠ saved →
    after.refersTo source target = store.refersTo source target
  unreferred : ∀ source, after.refersTo source saved = false

variable {store after : Store} {user : Option User} {saved : Reference}

theorem Saves.unseen {record : WorkspaceRecord} {name : String} {references : List Reference}
    (saves : store.Saves record name references saved after) (reachable : store.Reachable)
    (now : after.Consistent)
    (fits : ∀ object, after.object? saved = some object →
      object.versions.length < Text.versionBound)
    (hidden : (store.grantOn user saved.workspace).effective = .none) :
    store.Unseen user saved after := by
  have refersTo_iff := saves.refersTo_iff reachable.consistent now
  refine ⟨saves.sameFront, hidden, fun _ => saves.elsewhere, ?_, ?_, ?_,
    saves.unreferred fits reachable now⟩
  · intro address version
    obtain ⟨number, pinned⟩ := Option.isSome_iff_exists.mp version
    cases found : store.stored? address with
    | some entry =>
      obtain ⟨old, later, found', name, deleted⟩ :=
        saves.stored?_before fits reachable.consistent now pinned found
      simp only [locateIn?, found, found', Option.map_some]
      exact .shown (by simp [Located.shown, name, deleted]) old
    | none =>
      cases found' : after.stored? address with
      | none =>
        simp only [locateIn?, found, found', Option.map_none]
        exact .missing
      | some entry =>
        simp only [locateIn?, found, found', Option.map_none, Option.map_some]
        rcases saves.stored?_after fits reachable.consistent now pinned found' with new | ⟨_, prior⟩
        · exact .fresh new
        · cases found.symm.trans prior
  · intro source target refers
    exact (refersTo_iff source target).mpr (.inl refers)
  · intro source target old
    rw [Bool.eq_iff_iff, refersTo_iff]
    simp [old]

namespace Unseen

variable (unseen : store.Unseen user saved after)

include unseen

theorem workspace?_eq (key : WorkspaceKey) : after.workspace? key = store.workspace? key := by
  apply Recordwise.workspace?_eq _ unseen.front
  intro record now same id
  simp [WorkspaceRecord.shown, same.name, same.locked, same.deleted]

theorem grantOn_eq (workspace : Nat) :
    after.grantOn user workspace = store.grantOn user workspace := by
  cases found : store.workspaces.get? workspace with
  | none => simp [grantOn, found, unseen.front.missing _ found]
  | some record =>
    obtain ⟨now, present, same⟩ := unseen.front.records _ record found
    have own : now.userPermission user = record.userPermission user := by
      cases user <;> simp [WorkspaceRecord.userPermission, same.acl]
    simp [grantOn, found, present, WorkspaceRecord.grant, own, WorkspaceRecord.worldPermission,
      same.worldReadable]

theorem available_eq (asAdmin : Bool) (workspace : ResolvedWorkspace) :
    after.available ⟨user, asAdmin⟩ workspace = store.available ⟨user, asAdmin⟩ workspace :=
  congrArg Grant.effective (unseen.grantOn_eq workspace.id)

theorem mayRead_eq (workspace : ResolvedWorkspace) :
    after.mayRead ⟨user, false⟩ workspace = store.mayRead ⟨user, false⟩ workspace := by
  rw [mayRead, mayRead, unseen.available_eq]

theorem not_mayRead {workspace : ResolvedWorkspace} (inside : workspace.id = saved.workspace) :
    store.mayRead ⟨user, false⟩ workspace = false := by
  have nothing : store.available ⟨user, false⟩ workspace = .none := by
    rw [available, inside, unseen.hidden]
  rw [mayRead, nothing]
  cases workspace.deleted <;> rfl

theorem maySearch (may : store.MaySearch ⟨user, false⟩) : after.MaySearch ⟨user, false⟩ := by
  rcases may with admin | ⟨id, record, found, live, enough⟩
  · exact .inl admin
  · obtain ⟨now, present, same⟩ := unseen.front.records id record found
    have own : now.userPermission user = record.userPermission user := by
      cases user <;> simp [WorkspaceRecord.userPermission, same.acl]
    exact .inr ⟨id, now, present, same.deleted.trans live, own ▸ enough⟩

theorem not_opens {reference : Reference} (inside : reference.workspace = saved.workspace) :
    store.opens ⟨user, false⟩ reference = false := by
  rw [Bool.eq_false_iff]
  intro opened
  have enough := read_of_opens opened
  rw [inside, unseen.hidden] at enough
  cases enough

theorem opens_eq (reference : Reference) :
    after.opens ⟨user, false⟩ reference = store.opens ⟨user, false⟩ reference := by
  by_cases inside : reference.workspace = saved.workspace
  · rw [unseen.not_opens inside, Bool.eq_false_iff]
    intro opened
    have enough := read_of_opens opened
    rw [unseen.grantOn_eq, inside, unseen.hidden] at enough
    cases enough
  · have apart : saved.workspace ≠ reference.workspace := fun same => inside same.symm
    simp only [opens, object?, unseen.elsewhere _ apart]

theorem old_of_opens {source : Reference} (opened : store.opens ⟨user, false⟩ source = true) :
    source ≠ saved := by
  intro new
  simp [unseen.not_opens (congrArg Reference.workspace new)] at opened

-- Nothing refers to the new version, so it is on no chain but at its start.
theorem leads_iff {source : Reference} (old : source ≠ saved) (onward : List Reference)
    (target : Reference) :
    store.Leads (source :: onward) target ↔ after.Leads (source :: onward) target := by
  induction onward generalizing source with
  | nil => simp only [leads_singleton]
  | cons middle onward ih =>
    rw [leads_cons_cons, leads_cons_cons, unseen.refersTo_eq source middle old]
    refine and_congr_right fun refers => ih ?_
    intro new
    subst new
    have kept := unseen.kept _ _ refers
    simp [unseen.unreferred] at kept

theorem openChain_iff (path : List Reference) (target : Reference) :
    store.OpenChain ⟨user, false⟩ path target ↔ after.OpenChain ⟨user, false⟩ path target := by
  constructor
  · intro chain
    obtain ⟨leads, source, head, opened⟩ := chain
    obtain ⟨onward, rfl⟩ := List.head?_eq_some_iff.mp head
    have old := unseen.old_of_opens opened
    exact ⟨(unseen.leads_iff old onward target).mp leads, source, head,
      (unseen.opens_eq source).trans opened⟩
  · intro chain
    obtain ⟨leads, source, head, opened⟩ := chain
    obtain ⟨onward, rfl⟩ := List.head?_eq_some_iff.mp head
    rw [unseen.opens_eq] at opened
    have old := unseen.old_of_opens opened
    exact ⟨(unseen.leads_iff old onward target).mpr leads, source, head, opened⟩

theorem locateIn?_eq (address : ResolvedAddress)
    (apart : saved.workspace ≠ address.workspace.id) :
    after.locateIn? address = store.locateIn? address := by
  simp only [locateIn?, stored?, unseen.elsewhere _ apart]

theorem locate?_alike {address : Address} (pinned : address.PinnedIn store saved.workspace) :
    Alike saved (store.locate? address) (after.locate? address) := by
  simp only [locate?, unseen.workspace?_eq]
  cases resolved : store.workspace? address.workspace with
  | none => exact .missing
  | some workspace =>
    rw [Option.bind_some, Option.bind_some]
    by_cases inside : workspace.id = saved.workspace
    · exact unseen.pinned _ (pinned workspace resolved inside)
    · have apart : saved.workspace ≠ (address.resolveIn workspace).workspace.id :=
        fun same => inside same.symm
      rw [unseen.locateIn?_eq _ apart]
      cases found : store.locateIn? (address.resolveIn workspace) with
      | none => exact .missing
      | some named =>
        refine .shown rfl fun new => inside ?_
        rw [← new]
        exact (locateIn?_object found).1.symm

variable {batch : List Address}

theorem within (pinned : ∀ address ∈ batch, address.PinnedIn store saved.workspace) :
    Search.Within store ⟨user, false⟩ (store.lookupTargets ⟨user, false⟩ batch)
      after ⟨user, false⟩ (after.lookupTargets ⟨user, false⟩ batch) := by
  have listed : store.lookupTargets ⟨user, false⟩ batch ⊆
      after.lookupTargets ⟨user, false⟩ batch := by
    intro target given
    obtain ⟨address, mem, wanted⟩ := given
    refine ⟨address, mem, ?_⟩
    have alike := unseen.locate?_alike (pinned address mem)
    simp only [searchTarget?] at wanted ⊢
    generalize store.locate? address = before at alike wanted
    generalize after.locate? address = now at alike
    cases alike with
    | missing => exact wanted
    | fresh => simp at wanted
    | shown same =>
      have reference := congrArg ResolvedObject.reference same
      simp only [Located.shown] at reference
      simpa only [Option.map_some, reference, unseen.opens_eq] using wanted
  refine ⟨listed, ?_⟩
  intro entry looked
  obtain ⟨refers, target, mem, distance, closed⟩ := looked
  have old : entry.2.1 ≠ saved := by
    intro new
    have kept := unseen.kept _ _ refers
    simp [new, unseen.unreferred] at kept
  refine ⟨unseen.kept _ _ refers, target, listed mem,
    distance.congr fun onward => unseen.leads_iff old onward target, ?_⟩
  intro nearer small source near
  rw [unseen.opens_eq]
  by_cases new : source = saved
  · exact unseen.not_opens (congrArg Reference.workspace new)
  · exact closed nearer small source
      (near.congr fun onward => (unseen.leads_iff new onward target).symm)

theorem workspaceAlone_eq (address : Address) :
    after.workspaceAlone ⟨user, false⟩ address = store.workspaceAlone ⟨user, false⟩ address := by
  simp only [workspaceAlone, unseen.workspace?_eq, unseen.available_eq]

theorem apart_of_entered {address : Address} {workspace : ResolvedWorkspace}
    (entered : store.workspaceAlone ⟨user, false⟩ address = .ok workspace) :
    saved.workspace ≠ workspace.id := by
  intro inside
  have readable := (workspaceAlone_ok entered).2
  simp [unseen.not_mayRead inside.symm] at readable

theorem headAlone_eq (address : Address) :
    after.headAlone ⟨user, false⟩ address = store.headAlone ⟨user, false⟩ address := by
  simp only [headAlone, unseen.workspaceAlone_eq]
  cases entered : store.workspaceAlone ⟨user, false⟩ address with
  | error cause => rfl
  | ok workspace =>
    have apart := unseen.apart_of_entered entered
    simp only [startIn, unseen.locateIn?_eq (address.resolveIn workspace) apart]

theorem old_head {address : Address} {head : Located}
    (entered : store.headAlone ⟨user, false⟩ address = .ok head) : head.reference ≠ saved := by
  obtain ⟨workspace, inside, started⟩ := headAlone_ok entered
  intro new
  apply unseen.apart_of_entered inside
  rw [← new]
  exact (locateIn?_object (startIn_ok started).1).1

theorem accepts_eq {previous : Reference} (old : previous ≠ saved) {hop hop' : Located}
    (same : hop.shown = hop'.shown) :
    after.accepts ⟨user, false⟩ previous hop' = store.accepts ⟨user, false⟩ previous hop := by
  simp only [Located.shown, ResolvedObject.mk.injEq] at same
  obtain ⟨workspace, reference, _, deleted⟩ := same
  simp only [accepts, unseen.mayRead_eq, unseen.refersTo_eq _ _ old, workspace, reference, deleted]

-- The caller cannot read it, and what came before does not refer to it.
theorem not_accepts {previous : Reference} {hop : Address} {next : Located}
    (found : after.locate? hop = some next) (new : next.reference = saved) :
    after.accepts ⟨user, false⟩ previous next = false := by
  obtain ⟨workspace, _, located⟩ := locate?_eq_some found
  have inside : next.address.workspace.id = saved.workspace := by
    rw [(locateIn?_eq_some located).1, ← (locateIn?_object located).1, new]
  simp [accepts, unseen.mayRead_eq, unseen.not_mayRead inside, new, unseen.unreferred]

theorem walkAlone_shown (index position : Nat) (holder : Address) {previous previous' : Located}
    {hops : List Address} (pinned : ∀ hop ∈ hops, hop.PinnedIn store saved.workspace)
    (old : previous.reference ≠ saved) (same : previous.shown = previous'.shown) :
    (after.walkAlone ⟨user, false⟩ index position holder previous' hops).map
        (Prod.map Located.shown id) =
      (store.walkAlone ⟨user, false⟩ index position holder previous hops).map
        (Prod.map Located.shown id) := by
  induction hops generalizing position holder previous previous' with
  | nil => simp [walkAlone, Except.map, same]
  | cons hop rest ih =>
    have alike := unseen.locate?_alike (pinned hop List.mem_cons_self)
    have rest_pinned : ∀ later ∈ rest, later.PinnedIn store saved.workspace :=
      fun later mem => pinned later (List.mem_cons_of_mem _ mem)
    have reference : previous'.reference = previous.reference :=
      (congrArg ResolvedObject.reference same).symm
    simp only [walkAlone, reference]
    generalize found : store.locate? hop = before at alike
    generalize found' : after.locate? hop = now at alike
    cases alike with
    | missing => rfl
    | fresh new => simp [Option.filter, unseen.not_accepts found' new]
    | @shown next next' shown old_next =>
      have rest_alike := ih (position + 1) hop rest_pinned old_next shown
      have reference : next'.reference = next.reference :=
        (congrArg ResolvedObject.reference shown).symm
      simp only [Option.filter, unseen.accepts_eq old shown]
      cases store.accepts ⟨user, false⟩ previous.reference next with
      | false => rfl
      | true =>
        cases walked : store.walkAlone ⟨user, false⟩ index (position + 1) hop next rest <;>
          cases walked' : after.walkAlone ⟨user, false⟩ index (position + 1) hop next' rest <;>
            simp_all [Except.map, Prod.map]

theorem outcomeAlone_eq {index : Nat} {address : Address}
    (pinned : ∀ hop ∈ address.hops, hop.PinnedIn store saved.workspace) :
    after.outcomeAlone ⟨user, false⟩ index address =
      store.outcomeAlone ⟨user, false⟩ index address := by
  simp only [outcomeAlone, unseen.headAlone_eq]
  cases entered : store.headAlone ⟨user, false⟩ address with
  | error cause => rfl
  | ok head =>
    have alike := unseen.walkAlone_shown index 1 address pinned (unseen.old_head entered) rfl
    cases walked : store.walkAlone ⟨user, false⟩ index 1 address head address.hops <;>
      cases walked' : after.walkAlone ⟨user, false⟩ index 1 address head address.hops <;>
        simp_all [Except.map, Prod.map]

theorem not_leads_saved {source : Reference} (old : source ≠ saved) (onward : List Reference) :
    ¬ after.Leads (source :: onward) saved := by
  induction onward generalizing source with
  | nil => simpa only [leads_singleton] using old
  | cons middle onward ih =>
    rw [leads_cons_cons]
    intro given
    apply ih _ given.2
    intro new
    subst new
    simp [unseen.unreferred] at given

theorem no_path {targets : Set Reference} {limit : Nat} {searched : SearchResult}
    (finished : Search.Finished after ⟨user, false⟩ targets limit searched) :
    searched.paths.get? saved = none := by
  rw [Option.eq_none_iff_forall_ne_some]
  intro path found
  obtain ⟨leads, source, head, opened⟩ := (finished.canonical _ _ found).toOpenChain
  obtain ⟨onward, rfl⟩ := List.head?_eq_some_iff.mp head
  rw [unseen.opens_eq] at opened
  exact unseen.not_leads_saved (unseen.old_of_opens opened) onward leads

theorem outcomeFound_eq {limit : Nat} {searched searched' : SearchResult}
    (pinned : ∀ address ∈ batch, address.PinnedIn store saved.workspace)
    (finished : Search.Finished store ⟨user, false⟩
      (store.lookupTargets ⟨user, false⟩ batch) limit searched)
    (finished' : Search.Finished after ⟨user, false⟩
      (after.lookupTargets ⟨user, false⟩ batch) limit searched')
    {address : Address} (mem : address ∈ batch) (lookup : address.isLookup = true)
    (told : after.outcomeFound ⟨user, false⟩ searched' address ≠
      .error { object := address, cause := .searchLimitExceeded }) :
    store.outcomeFound ⟨user, false⟩ searched address =
      after.outcomeFound ⟨user, false⟩ searched' address := by
  have alike := unseen.locate?_alike (pinned address mem)
  generalize found : store.locate? address = before at alike
  generalize found' : after.locate? address = now at alike
  cases alike with
  | missing => simp [outcomeFound, found, found']
  | @fresh named new =>
    have closed : after.opens ⟨user, false⟩ saved = false := by
      rw [unseen.opens_eq, unseen.not_opens rfl]
    have absent := unseen.no_path finished'
    simp only [outcomeFound, found', closed, new, absent, Bool.false_eq_true, if_false] at told ⊢
    cases reached : searched'.limitReached with
    | true => simp [reached] at told
    | false => simp [found]
  | @shown named _ same old =>
    have listed : store.opens ⟨user, false⟩ named.reference = false →
        named.reference ∈ store.lookupTargets ⟨user, false⟩ batch := by
      intro shut
      exact ⟨address, mem, by simp [searchTarget?, lookup, found, shut]⟩
    exact outcomeFound_agrees finished finished' (unseen.within pinned) unseen.maySearch found
      found' same (unseen.opens_eq _).symm listed (fun path => unseen.openChain_iff path _) told

end Unseen

namespace Sample

def numbered (object : String) : Address :=
  .mk { workspace := .name "hidden", object := .name object, version := some 1, subset := {} }
    .direct

def numberedWalk : Address :=
  naming "top" "root" (.path [numbered "middle", numbered "target"])

def restoring : Address := naming "top" "root" (.path [numbered "target"])

def restored : Resolution where
  kind := .path
  object :=
    { workspace := { id := 2, name := "hidden", locked := false, deleted := false }
      reference := target
      name := "target"
      deleted := false }
  path := [root, target]

def targeted (versions : List (List Reference)) : WorkspaceRecord where
  name := "hidden"
  acl := Table.empty.insert ⟨"bob"⟩ .owner
  objects := Table.empty.insert 1 { name := "target", versions }
  objectNames := Table.empty.insert "target" 1

def referring (versions : List (List Reference)) : Store where
  workspaces := (Table.empty.insert 1
    { name := "top", acl := Table.empty.insert alice .owner
      objects := Table.empty.insert 1 { name := "root", versions := [[target]] }
      objectNames := Table.empty.insert "root" 1 }).insert 2 (targeted versions)
  workspaceNames := (Table.empty.insert "top" 1).insert "hidden" 2
  incoming := Table.empty.insert target [root]

def resaves (count : Nat) : List Update :=
  [.createWorkspace alice "top", .createWorkspace ⟨"bob"⟩ "hidden", .saveObject 2 "target" [],
    .saveObject 1 "root" [target]] ++ List.replicate count (.saveObject 2 "target" [])

end Sample

theorem referring_saveable (versions : List (List Reference)) :
    (Sample.referring versions).Saveable 2 (Sample.targeted versions) "target" 1
      { name := "target", versions } := ⟨rfl, rfl, rfl, rfl, rfl⟩

theorem run_resaves (count : Nat) :
    run (Sample.resaves count) = Sample.referring (List.replicate (count + 1) []) := by
  have later : run (Sample.resaves count) = _ := (referring_saveable [[]]).foldl_update count
  rw [later]
  rfl

theorem latest_refilled {versions : List (List Reference)}
    (full : Text.versionBound ∣ versions.length) :
    (versions.length + 1) % Text.versionBound = 1 := by
  rw [Nat.add_mod, Nat.mod_eq_zero_of_dvd full]
  decide

theorem saveObject_referring {versions : List (List Reference)}
    (full : Text.versionBound ∣ versions.length) :
    (Sample.referring versions).saveObject 2 "target" [] =
      (.ok Sample.target, Sample.referring (versions ++ [[]])) := by
  rw [(referring_saveable versions).saveObject_eq, latest_refilled full]
  rfl

theorem outcomeAlone_referring (versions : List (List Reference)) :
    (Sample.referring versions).outcomeAlone ⟨some Sample.alice, false⟩ 1 Sample.restoring =
      if ObjectRecord.hasVersion { name := "target", versions } 1 then .ok Sample.restored
      else .error
        { object := Sample.restoring
          cause := .brokenPath 1 1 Sample.restoring (Sample.numbered "target") } := by
  have located : (Sample.referring versions).locate? (Sample.numbered "target") =
      (if ObjectRecord.hasVersion { name := "target", versions } 1 then
        some (Sample.target, { name := "target", versions }) else none).map fun stored =>
          { address := (Sample.numbered "target").resolveIn Sample.restored.object.workspace
            reference := stored.1
            object := stored.2 } := rfl
  have head : (Sample.referring versions).headAlone ⟨some Sample.alice, false⟩ Sample.restoring =
      .ok _ := rfl
  have hops : Sample.restoring.hops = [Sample.numbered "target"] := rfl
  rw [outcomeAlone, head, hops]
  simp only [walkAlone, located]
  cases ObjectRecord.hasVersion { name := "target", versions } 1 with
  | true => rfl
  | false => rfl

end Store

namespace Resolver

variable {store after : Store} {user : Option User} {batch : List Address}
variable {config : ResolverConfig} {resolver : Resolver}

theorem outcomes_after_unseen_save (reachable : store.Reachable)
    (made : make user batch config = .ok resolver) (plain : config.asAdmin = false)
    {workspace : Nat} {name : String} {references : List Reference} {saved : Reference}
    (ran : store.saveObject workspace name references = (.ok saved, after))
    (fits : ∀ object, after.object? saved = some object →
      object.versions.length < Text.versionBound)
    (hidden : (store.grantOn user workspace).effective = .none)
    (pinned : ∀ address ∈ batch, ∀ element ∈ address :: address.hops,
      element.PinnedIn store workspace) :
    ∃ result result', resolver.resolve.run store = .ok result ∧
      resolver.resolve.run after = .ok result' ∧
      ∀ address ∈ batch, ∃ outcome, result'.outcome? address = some outcome ∧
        (outcome ≠ .error { object := address, cause := .searchLimitExceeded } →
          result.outcome? address = some outcome) := by
  have consistent := reachable.consistent
  obtain ⟨rfl, record, saves⟩ := Store.saveObject_saves consistent ran
  have reachable' : after.Reachable := by
    have updated := reachable.update (.saveObject saved.workspace name references)
    rwa [Store.update, ran] at updated
  have unseen := saves.unseen reachable reachable'.consistent fits hidden
  obtain ⟨searched, finished, told⟩ := resolve_ok consistent made
  obtain ⟨searched', finished', told'⟩ := resolve_ok reachable'.consistent made
  rw [plain] at finished told finished' told'
  refine ⟨_, _, told, told', ?_⟩
  intro address mem
  have listed : address ∈ batch.eraseDups := List.mem_eraseDups.mpr mem
  refine ⟨_, outcome?_eq listed (after.outcomeOf ⟨user, false⟩ searched'), ?_⟩
  rw [outcome?_eq listed (store.outcomeOf ⟨user, false⟩ searched)]
  cases lookup : address.isLookup with
  | true =>
    simp only [Store.outcomeOf, lookup, if_true]
    intro within
    have heads : ∀ address ∈ batch, address.PinnedIn store saved.workspace :=
      fun address mem => pinned address mem address List.mem_cons_self
    rw [unseen.outcomeFound_eq heads finished finished' mem lookup within]
  | false =>
    simp only [Store.outcomeOf, lookup, Bool.false_eq_true, if_false]
    intro _
    rw [unseen.outcomeAlone_eq fun hop on_path =>
      pinned address mem hop (List.mem_cons_of_mem _ on_path)]

theorem sample_outcomes_after_unseen_save :
    ∃ resolver result result' after, Store.sample.Reachable ∧
      make (some Store.Sample.alice) [Store.Sample.numberedWalk] {} = .ok resolver ∧
      Store.sample.saveObject 2 "target" [] = (.ok Store.Sample.renewed, after) ∧
      (∀ object ∈ after.object? Store.Sample.renewed,
        object.versions.length < Text.versionBound) ∧
      (Store.sample.grantOn (some Store.Sample.alice) 2).effective = .none ∧
      (∀ element ∈ Store.Sample.numberedWalk :: Store.Sample.numberedWalk.hops,
        element.PinnedIn Store.sample 2) ∧
      resolver.resolve.run Store.sample = .ok result ∧ resolver.resolve.run after = .ok result' ∧
      result'.outcome? Store.Sample.numberedWalk = some (.ok Store.Sample.walked) ∧
      result.outcome? Store.Sample.numberedWalk = some (.ok Store.Sample.walked) := by
  have made : make (some Store.Sample.alice) [Store.Sample.numberedWalk] {} = .ok _ := rfl
  have ran : Store.sample.saveObject 2 "target" [] =
    (.ok Store.Sample.renewed, (Store.sample.saveObject 2 "target" []).2) := rfl
  have fits : ∀ object ∈ (Store.sample.saveObject 2 "target" []).2.object? Store.Sample.renewed,
      object.versions.length < Text.versionBound := by decide
  have hidden : (Store.sample.grantOn (some Store.Sample.alice) 2).effective = .none := by decide
  have pinned : ∀ element ∈ Store.Sample.numberedWalk :: Store.Sample.numberedWalk.hops,
      element.PinnedIn Store.sample 2 := by decide
  have all_pinned : ∀ address ∈ [Store.Sample.numberedWalk],
      ∀ element ∈ address :: address.hops, element.PinnedIn Store.sample 2 := by
    intro address mem
    obtain rfl := List.mem_singleton.mp mem
    exact pinned
  obtain ⟨result, result', told, told', each⟩ :=
    outcomes_after_unseen_save Store.reachable_sample made rfl ran fits hidden all_pinned
  obtain ⟨outcome, there, same⟩ := each Store.Sample.numberedWalk List.mem_cons_self
  have reachable : (Store.sample.saveObject 2 "target" []).2.Reachable :=
    Store.reachable_sample.update (.saveObject 2 "target" [])
  obtain ⟨searched, _, told''⟩ := resolve_ok reachable.consistent made
  have known : result'.outcome? Store.Sample.numberedWalk = some (.ok Store.Sample.walked) := by
    rw [Except.ok.inj (told'.symm.trans told'')]
    rfl
  obtain rfl := Option.some.inj (there.symm.trans known)
  exact ⟨_, result, result', _, Store.reachable_sample, made, ran, fits, hidden, pinned, told,
    told', known, same (by decide)⟩

-- The save brings back a version that the store had lost.
theorem sample_unseen_save_restores :
    ∃ store after resolver result result',
      store = Store.run (Store.Sample.resaves (Text.versionBound - 1)) ∧ store.Reachable ∧
      make (some Store.Sample.alice) [Store.Sample.restoring] {} = .ok resolver ∧
      store.saveObject 2 "target" [] = (.ok Store.Sample.target, after) ∧
      (store.grantOn (some Store.Sample.alice) 2).effective = .none ∧
      (∀ element ∈ Store.Sample.restoring :: Store.Sample.restoring.hops,
        element.PinnedIn store 2) ∧
      resolver.resolve.run store = .ok result ∧ resolver.resolve.run after = .ok result' ∧
      result.outcome? Store.Sample.restoring = some (.error
        { object := Store.Sample.restoring
          cause := .brokenPath 1 1 Store.Sample.restoring (Store.Sample.numbered "target") }) ∧
      result'.outcome? Store.Sample.restoring = some (.ok Store.Sample.restored) := by
  obtain ⟨count, last, full⟩ := Store.exists_full
  have reachable := Store.reachable_run (Store.Sample.resaves count)
  have bound : Text.versionBound - 1 = count := by
    rw [last, Nat.add_sub_cancel]
  rw [Store.run_resaves] at reachable
  rw [bound, Store.run_resaves]
  have saved := Store.saveObject_referring full
  have later : (Store.Sample.referring (List.replicate (count + 1) [] ++ [[]])).Reachable := by
    have updated := reachable.update (.saveObject 2 "target" [])
    rwa [Store.update, saved] at updated
  have made : make (some Store.Sample.alice) [Store.Sample.restoring] {} = .ok _ := rfl
  obtain ⟨searched, _, ran⟩ := resolve_ok reachable.consistent made
  obtain ⟨searched', _, ran'⟩ := resolve_ok later.consistent made
  refine ⟨_, _, _, _, _, rfl, reachable, made, saved, rfl, ?_, ran, ran', ?_, ?_⟩
  · intro element mem workspace resolved inside
    rcases List.mem_cons.mp mem with rfl | mem
    · cases resolved
      cases inside
    · obtain rfl := List.mem_singleton.mp mem
      rfl
  · have alone := Store.outcomeAlone_referring (List.replicate (count + 1) [])
    have lost : ObjectRecord.hasVersion
        { name := "target", versions := List.replicate (count + 1) [] } 1 = false := by
      rw [ObjectRecord.hasVersion, ObjectRecord.latestVersion, Nat.mod_eq_zero_of_dvd full]
      rfl
    rw [lost] at alone
    exact congrArg some alone
  · have alone := Store.outcomeAlone_referring (List.replicate (count + 1) [] ++ [[]])
    have again : ObjectRecord.hasVersion
        { name := "target", versions := List.replicate (count + 1) [] ++ [[]] } 1 = true := by
      rw [ObjectRecord.hasVersion, ObjectRecord.latestVersion, List.length_append,
        List.length_singleton, Store.latest_refilled full]
      rfl
    rw [again] at alone
    exact congrArg some alone

end Resolver

end ObjectSpace
