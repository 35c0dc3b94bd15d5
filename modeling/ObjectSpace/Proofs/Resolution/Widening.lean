import ObjectSpace.Proofs.Resolution.Comparison
import ObjectSpace.Proofs.Resolution.Justified
import ObjectSpace.Proofs.Store.Regranting

set_option autoImplicit false

namespace ObjectSpace

theorem Permission.le_trans {low middle high : Permission} (below : low ≤ middle)
    (above : middle ≤ high) : low ≤ high := by
  rw [Permission.le_iff] at below above ⊢
  exact Nat.le_trans below above

structure WorkspaceRecord.Wider (user : Option User) (before after : WorkspaceRecord) : Prop where
  name : after.name = before.name
  locked : after.locked = before.locked
  deleted : after.deleted = before.deleted
  objects : after.objects = before.objects
  objectNames : after.objectNames = before.objectNames
  own : before.userPermission user ≤ after.userPermission user
  world : before.worldPermission ≤ after.worldPermission

theorem WorkspaceRecord.Wider.refl {user : Option User} (record : WorkspaceRecord) :
    record.Wider user record :=
  ⟨rfl, rfl, rfl, rfl, rfl, Nat.le_refl _, Nat.le_refl _⟩

namespace Store

abbrev Wider (user : Option User) (before after : Store) : Prop :=
  before.Recordwise (WorkspaceRecord.Wider user) after

inductive Widens (store : Store) (user : Option User) (asAdmin : Bool) : Store → Bool → Prop where
  | granted (workspace : Nat) (name : User) (permission : Permission) (own : user = some name)
      (more : (store.grantOn user workspace).user ≤ permission) :
      Widens store user asAdmin (store.setPermission workspace name permission).2 asAdmin
  | opened (workspace : Nat) :
      Widens store user asAdmin (store.setWorldReadable workspace true).2 asAdmin
  | promoted : Widens store user asAdmin store true

variable {store after : Store} {user : Option User} {asAdmin asAdmin' : Bool}

namespace Wider

variable (wider : store.Wider user after)

include wider

theorem regranted : store.Recordwise WorkspaceRecord.Regranted after :=
  wider.imp fun _ _ same => ⟨same.name, same.locked, same.deleted, same.objects, same.objectNames⟩

theorem workspace?_eq (key : WorkspaceKey) : after.workspace? key = store.workspace? key :=
  wider.regranted.workspace?_eq WorkspaceRecord.Regranted.shown key

theorem locateIn?_eq (address : ResolvedAddress) :
    after.locateIn? address = store.locateIn? address := by
  rw [locateIn?, locateIn?, Regranted.stored?_eq wider.regranted]

theorem locate?_eq (address : Address) : after.locate? address = store.locate? address := by
  simp only [locate?, wider.workspace?_eq, wider.locateIn?_eq]

theorem refersTo_eq (source target : Reference) :
    after.refersTo source target = store.refersTo source target :=
  Regranted.refersTo_eq wider.regranted source target

theorem read_effective {workspace : Nat}
    (enough : .read ≤ (store.grantOn user workspace).effective) :
    .read ≤ (after.grantOn user workspace).effective := by
  cases found : store.workspaces.get? workspace with
  | none => simpa [grantOn, found, wider.missing _ found] using enough
  | some record =>
    obtain ⟨now, present, same⟩ := wider.records _ record found
    simp only [grantOn, found, present, Grant.read_le_effective] at enough ⊢
    exact enough.imp (Permission.le_trans · same.own) (Permission.le_trans · same.world)

variable (kept : asAdmin = true → asAdmin' = true)

include kept

theorem mayRead {workspace : ResolvedWorkspace}
    (readable : store.mayRead ⟨user, asAdmin⟩ workspace = true) :
    after.mayRead ⟨user, asAdmin'⟩ workspace = true := by
  simp only [Store.mayRead, Bool.and_eq_true, Bool.or_eq_true, decide_eq_true_eq] at readable ⊢
  exact ⟨readable.1, readable.2.imp kept wider.read_effective⟩

theorem opens {reference : Reference} (opened : store.opens ⟨user, asAdmin⟩ reference = true) :
    after.opens ⟨user, asAdmin'⟩ reference = true := by
  cases found : store.workspaces.get? reference.workspace with
  | none => simp [Store.opens, found] at opened
  | some record =>
    obtain ⟨now, present, same⟩ := wider.records _ record found
    simp only [Store.opens, object?, found, present, Option.any_some, Bool.and_eq_true,
      Bool.or_eq_true, decide_eq_true_eq, Option.bind_eq_bind, Option.bind_some, same.deleted,
      same.objects] at opened ⊢
    exact ⟨⟨opened.1.1, opened.1.2.imp kept (Permission.le_trans · same.own)⟩, opened.2⟩

theorem workspaceAlone {address : Address} {workspace : ResolvedWorkspace}
    (entered : store.workspaceAlone ⟨user, asAdmin⟩ address = .ok workspace) :
    after.workspaceAlone ⟨user, asAdmin'⟩ address = .ok workspace := by
  obtain ⟨resolved, readable⟩ := workspaceAlone_ok entered
  apply workspaceAlone_of_mayRead
  · rw [wider.workspace?_eq, resolved]
  · exact wider.mayRead kept readable

theorem headAlone {address : Address} {head : Located}
    (entered : store.headAlone ⟨user, asAdmin⟩ address = .ok head) :
    after.headAlone ⟨user, asAdmin'⟩ address = .ok head := by
  obtain ⟨workspace, inside, started⟩ := headAlone_ok entered
  simp only [Store.headAlone, wider.workspaceAlone kept inside]
  rw [← started, startIn, startIn, wider.locateIn?_eq]

theorem accepts {previous : Reference} {hop : Located}
    (accepted : store.accepts ⟨user, asAdmin⟩ previous hop = true) :
    after.accepts ⟨user, asAdmin'⟩ previous hop = true := by
  simp only [Store.accepts, Bool.or_eq_true, Bool.and_eq_true, wider.refersTo_eq] at accepted ⊢
  exact accepted.imp_left fun readable => ⟨wider.mayRead kept readable.1, readable.2⟩

theorem walkAlone {index position : Nat} {holder : Address} {previous last : Located}
    {hops : List Address} {walked : List Reference}
    (ran : store.walkAlone ⟨user, asAdmin⟩ index position holder previous hops =
      .ok (last, walked)) :
    after.walkAlone ⟨user, asAdmin'⟩ index position holder previous hops = .ok (last, walked) := by
  induction hops generalizing position holder previous walked with
  | nil => exact ran
  | cons hop rest ih =>
    obtain ⟨next, further, found, accepted, onward, rfl⟩ := walkAlone_cons_ok ran
    have kept_step := wider.accepts kept accepted
    simp [Store.walkAlone, wider.locate?_eq, found, Option.filter, kept_step, ih onward, Except.map]

theorem outcomeAlone {index : Nat} {address : Address} {resolution : Resolution}
    (found : store.outcomeAlone ⟨user, asAdmin⟩ index address = .ok resolution) :
    after.outcomeAlone ⟨user, asAdmin'⟩ index address = .ok resolution := by
  obtain ⟨head, last, walked, entered, ran, rfl⟩ := outcomeAlone_ok found
  simp only [Store.outcomeAlone, wider.headAlone kept entered, wider.walkAlone kept ran]

omit kept in
theorem leads_iff (path : List Reference) (target : Reference) :
    after.Leads path target ↔ store.Leads path target := by
  simp only [Leads, wider.refersTo_eq]

theorem openChain {path : List Reference} {target : Reference}
    (chain : store.OpenChain ⟨user, asAdmin⟩ path target) :
    after.OpenChain ⟨user, asAdmin'⟩ path target := by
  obtain ⟨leads, source, head, opened⟩ := chain
  exact ⟨(wider.leads_iff path target).mpr leads, source, head, wider.opens kept opened⟩

theorem shut {reference : Reference} (shut : after.opens ⟨user, asAdmin'⟩ reference = false) :
    store.opens ⟨user, asAdmin⟩ reference = false := by
  rw [Bool.eq_false_iff]
  intro opened
  simp [wider.opens kept opened] at shut

-- A search that may end at more versions looks at fewer.
theorem within (batch : List Address) :
    Search.Within after ⟨user, asAdmin'⟩ (after.lookupTargets ⟨user, asAdmin'⟩ batch)
      store ⟨user, asAdmin⟩ (store.lookupTargets ⟨user, asAdmin⟩ batch) := by
  have listed : after.lookupTargets ⟨user, asAdmin'⟩ batch ⊆
      store.lookupTargets ⟨user, asAdmin⟩ batch := by
    intro target given
    obtain ⟨address, mem, wanted⟩ := given
    refine ⟨address, mem, ?_⟩
    simp only [searchTarget?, wider.locate?_eq] at wanted ⊢
    split at wanted
    next lookup =>
      obtain ⟨named, closed⟩ := Option.filter_eq_some_iff.mp wanted
      have before := wider.shut kept (by simpa using closed)
      rw [if_pos lookup, Option.filter_eq_some_iff]
      exact ⟨named, by simpa using before⟩
    next => cases wanted
  refine ⟨listed, ?_⟩
  intro entry looked
  obtain ⟨refers, target, mem, distance, closed⟩ := looked
  have same : ∀ source onward, after.Leads (source :: onward) target ↔
      store.Leads (source :: onward) target := fun _ _ => wider.leads_iff _ _
  refine ⟨by rwa [← wider.refersTo_eq], target, listed mem, distance.congr (same _), ?_⟩
  intro nearer small source near
  have far := near.congr fun onward => (same source onward).symm
  exact wider.shut kept (closed nearer small source far)

theorem outcomeFound {batch : List Address} {limit : Nat} {searched searched' : SearchResult}
    (finished : Search.Finished store ⟨user, asAdmin⟩
      (store.lookupTargets ⟨user, asAdmin⟩ batch) limit searched)
    (finished' : Search.Finished after ⟨user, asAdmin'⟩
      (after.lookupTargets ⟨user, asAdmin'⟩ batch) limit searched')
    {address : Address} (mem : address ∈ batch) (lookup : address.isLookup = true)
    {resolution : Resolution}
    (found : store.outcomeFound ⟨user, asAdmin⟩ searched address = .ok resolution) :
    ∃ resolution', after.outcomeFound ⟨user, asAdmin'⟩ searched' address = .ok resolution' ∧
      resolution'.object = resolution.object := by
  obtain ⟨named, there, _, shown, _⟩ := outcomeFound_ok finished.canonical found
  have there' : after.locate? address = some named := by rw [wider.locate?_eq, there]
  cases opened : after.opens ⟨user, asAdmin'⟩ named.reference with
  | true =>
    exact ⟨{ kind := .path, object := named.shown, path := [named.reference] },
      by simp [Store.outcomeFound, there', opened], shown.symm⟩
  | false =>
    have closed := wider.shut kept opened
    -- The path found before is one that the search can still afford.
    have path : searched.paths.get? named.reference = some resolution.path := by
      simp only [Store.outcomeFound, there, closed, Bool.false_eq_true, if_false] at found
      cases path : searched.paths.get? named.reference with
      | some path =>
        simp only [path, Except.ok.injEq] at found
        rw [← found]
      | none =>
        simp only [path] at found
        split at found <;> cases found
    have chain := wider.openChain kept (finished.canonical _ _ path).toOpenChain
    have cost := ((wider.within kept batch).costBefore_le _).trans (finished.afforded _ _ path)
    have listed : named.reference ∈ after.lookupTargets ⟨user, asAdmin'⟩ batch :=
      ⟨address, mem, by simp [searchTarget?, lookup, there', opened]⟩
    obtain ⟨path', found'⟩ := Option.isSome_iff_exists.mp
      (finished'.reported _ listed resolution.path chain cost)
    exact ⟨{ kind := .path, object := named.shown, path := path' },
      by simp [Store.outcomeFound, there', opened, found'], shown.symm⟩

end Wider

namespace Widens

theorem wider (widens : store.Widens user asAdmin after asAdmin') : store.Wider user after := by
  cases widens with
  | granted workspace name permission own more =>
    subst own
    apply Recordwise.updateWorkspace .refl
    intro record found
    refine ⟨rfl, rfl, rfl, rfl, rfl, ?_, Nat.le_refl _⟩
    have now : record.userPermission (some name) ≤ permission := by
      simpa [grantOn, found, WorkspaceRecord.grant] using more
    by_cases nothing : permission = .none
    · simpa [nothing, WorkspaceRecord.userPermission, Table.get?_erase] using now
    · simpa [nothing, WorkspaceRecord.userPermission, Table.get?_insert] using now
  | opened workspace =>
    apply Recordwise.updateWorkspace .refl
    intro record _
    refine ⟨rfl, rfl, rfl, rfl, rfl, Nat.le_refl _, ?_⟩
    cases readable : record.worldReadable <;>
      simp [WorkspaceRecord.worldPermission, readable] <;> decide
  | promoted => exact Recordwise.refl .refl store

theorem kept (widens : store.Widens user asAdmin after asAdmin') (admin : asAdmin = true) :
    asAdmin' = true := by
  cases widens with
  | granted => exact admin
  | opened => exact admin
  | promoted => rfl

theorem reachable (widens : store.Widens user asAdmin after asAdmin')
    (reachable : store.Reachable) : after.Reachable := by
  cases widens with
  | granted workspace name permission =>
    exact reachable.update (.setPermission workspace name permission)
  | opened workspace => exact reachable.update (.setWorldReadable workspace true)
  | promoted => exact reachable

end Widens

end Store

namespace Resolver

variable {store after : Store} {user : Option User} {batch : List Address}
variable {config : ResolverConfig} {resolver : Resolver} {asAdmin' : Bool}

theorem resolves_when_widened (reachable : store.Reachable)
    (made : make user batch config = .ok resolver)
    (widens : store.Widens user config.asAdmin after asAdmin') :
    ∃ resolver' result result',
      make user batch { config with asAdmin := asAdmin' } = .ok resolver' ∧
      resolver.resolve.run store = .ok result ∧ resolver'.resolve.run after = .ok result' ∧
      ∀ address ∈ batch, ∀ resolution, result.outcome? address = some (.ok resolution) →
        ∃ resolution', result'.outcome? address = some (.ok resolution') ∧
          resolution'.object = resolution.object ∧
          (address.isLookup = false → resolution' = resolution) := by
  have wider := widens.wider
  obtain ⟨some_address, valid, _⟩ := make_eq_ok_iff.mp made
  have made' : make user batch { config with asAdmin := asAdmin' } =
      .ok { user, objects := batch.eraseDups, config := { config with asAdmin := asAdmin' } } :=
    make_eq_ok_iff.mpr ⟨some_address, valid, rfl⟩
  obtain ⟨searched, finished, ran⟩ := resolve_ok reachable.consistent made
  obtain ⟨searched', finished', ran'⟩ := resolve_ok (widens.reachable reachable).consistent made'
  refine ⟨_, _, _, made', ran, ran', ?_⟩
  intro address mem resolution found
  have listed : address ∈ batch.eraseDups := List.mem_eraseDups.mpr mem
  rw [outcome?_eq listed (store.outcomeOf ⟨user, config.asAdmin⟩ searched)] at found
  rw [outcome?_eq listed (after.outcomeOf ⟨user, asAdmin'⟩ searched')]
  have found := Option.some.inj found
  cases lookup : address.isLookup with
  | true =>
    simp only [Store.outcomeOf, lookup, if_true] at found ⊢
    obtain ⟨resolution', there, same⟩ :=
      wider.outcomeFound widens.kept finished finished' mem lookup found
    exact ⟨resolution', congrArg some there, same, fun other => by cases other⟩
  | false =>
    simp only [Store.outcomeOf, lookup, Bool.false_eq_true, if_false] at found ⊢
    exact ⟨resolution, congrArg some (wider.outcomeAlone widens.kept found), rfl, fun _ => rfl⟩

theorem sample_resolves_when_widened :
    ∃ resolver resolver' result result', Store.sample.Reachable ∧
      make (some Store.Sample.alice) [Store.Sample.walk, Store.Sample.wanted .lookup] {} =
        .ok resolver ∧
      Store.sample.Widens (some Store.Sample.alice) false
        (Store.sample.setPermission 2 Store.Sample.alice .read).2 false ∧
      make (some Store.Sample.alice) [Store.Sample.walk, Store.Sample.wanted .lookup]
        { asAdmin := false } = .ok resolver' ∧
      resolver.resolve.run Store.sample = .ok result ∧
      resolver'.resolve.run (Store.sample.setPermission 2 Store.Sample.alice .read).2 =
        .ok result' ∧
      result.outcome? Store.Sample.walk = some (.ok Store.Sample.walked) ∧
      result'.outcome? Store.Sample.walk = some (.ok Store.Sample.walked) := by
  have made : make (some Store.Sample.alice)
      [Store.Sample.walk, Store.Sample.wanted .lookup] {} = .ok _ := rfl
  have widens : Store.sample.Widens (some Store.Sample.alice) false
      (Store.sample.setPermission 2 Store.Sample.alice .read).2 false :=
    .granted 2 Store.Sample.alice .read rfl (by decide)
  obtain ⟨resolver', result, result', made', ran, ran', each⟩ :=
    resolves_when_widened Store.reachable_sample made widens
  have known : result.outcome? Store.Sample.walk = some (.ok Store.Sample.walked) := by
    obtain ⟨searched, _, ran''⟩ := resolve_ok Store.reachable_sample.consistent made
    rw [Except.ok.inj (ran.symm.trans ran'')]
    rfl
  obtain ⟨resolution', there, _, same⟩ := each Store.Sample.walk List.mem_cons_self _ known
  obtain rfl := same rfl
  exact ⟨_, resolver', result, result', Store.reachable_sample, made, widens, made', ran, ran',
    known, there⟩

end Resolver

end ObjectSpace
