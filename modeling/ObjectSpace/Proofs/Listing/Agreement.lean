import ObjectSpace.Proofs.Address.Absolute
import ObjectSpace.Proofs.Listing.Walk
import ObjectSpace.Proofs.Resolution.Justified
import ObjectSpace.Proofs.Store.Saving

set_option autoImplicit false

namespace ObjectSpace

structure Store.Offers (store : Store) (user : Option User) (reference : Reference)
    (record : WorkspaceRecord) (object : ObjectRecord) : Prop where
  found : store.workspaces.get? reference.workspace = some record
  live : record.deleted = false
  readable : .read ≤ (record.grant user).effective
  held : store.object? reference = some object

variable {store : Store} {user : Option User} {reference : Reference}

namespace Listing

def everything (permissions : PermissionSet) (limit : Nat) (onlyDeleted : Bool) : Listing where
  permissions := permissions
  limit := limit
  showOnlyDeleted := onlyDeleted
  showAllVersions := true

variable {set : PermissionSet} {limit : Nat} {onlyDeleted : Bool}

theorem everything_includes (id : Nat) (deleted : Bool) :
    (everything set limit onlyDeleted).includes id deleted = true ↔ deleted = onlyDeleted := by
  cases onlyDeleted <;> cases deleted <;> simp [includes, everything]

theorem everything_shows (permits : store.Permits user .read true set) :
    (everything set limit onlyDeleted).Shows store reference ↔
      ∃ record object, store.Offers user reference record object ∧
        object.deleted = onlyDeleted := by
  simp only [Shows, everything_includes]
  constructor
  · intro given
    rcases given with ⟨workspace, listed, _, same, record, found, live, object, present, kind, shows⟩
    refine ⟨record, object, ?_, kind⟩
    rcases Option.isSome_iff_exists.mp (Table.mem_keys_iff.mp listed) with ⟨grant, granted⟩
    rcases (permits workspace grant).mp granted with ⟨other, found', _, _, rfl, counts⟩
    rw [same] at found'
    obtain rfl : record = other := Option.some.inj (found.symm.trans found')
    exact ⟨found, live, counts.2, Store.object?_eq_some.mpr ⟨record, found, present, shows⟩⟩
  · intro given
    rcases given with ⟨record, object, offers, kind⟩
    rcases Store.object?_eq_some.mp offers.held with ⟨other, found, present, shows⟩
    obtain rfl : record = other := Option.some.inj (offers.found.symm.trans found)
    have readable : .read ≤ (record.countedGrant user true).effective := offers.readable
    have counts : Store.Counts .read (record.countedGrant user true) := by
      refine ⟨?_, readable⟩
      intro nothing
      rw [nothing] at readable
      exact absurd readable (by decide)
    have granted := (permits (record.shown reference.workspace) _).mpr
      ⟨record, found, offers.live, rfl, rfl, counts⟩
    refine ⟨record.shown reference.workspace, ?_, ?_, rfl, record, found, offers.live, object,
      present, kind, shows⟩
    · exact Table.mem_keys_iff.mpr (Option.isSome_iff_exists.mpr ⟨_, granted⟩)
    · simpa [everything, PermissionSet.hasPermission, PermissionSet.permission,
        PermissionSet.grant, granted] using readable

variable {listing : Listing} {rows : List ListedObject}

theorem row_told (ran : listing.rows store = .ok rows) {row : ListedObject} (mem : row ∈ rows) :
    ∃ record object, store.workspaces.get? row.reference.workspace = some record ∧
      record.objects.get? row.reference.object = some object ∧ row.name = object.name ∧
      row.workspaceName = record.name ∧ row.deleted = object.deleted := by
  rcases rows_ok ran with ⟨parts, collected, rfl⟩
  rcases List.mem_flatten.mp (List.mem_mergeSort.mp mem) with ⟨part, listed, inside⟩
  rcases (mem_mapM collected).mp listed with ⟨workspace, _, ran⟩
  rcases workspaceRows_ok ran with ⟨rfl, _⟩ | ⟨record, parts, _, found, _, collected, rfl⟩
  · cases inside
  · rcases List.mem_flatten.mp inside with ⟨part, listed, inside⟩
    rcases (mem_mapM collected).mp listed with ⟨entry, present, ran⟩
    rcases (mem_objectRows ran).mp inside with ⟨_, version, _, made⟩
    have places := rowOf_ok made
    refine ⟨record, entry.2, ?_, ?_, ?_⟩
    · rw [places.1, found]
    · rw [places.2.1]
      exact Table.get?_eq_some_iff.mpr present
    · rw [rowOf] at made
      cases parts : Reference.ofParts workspace.id entry.1 version with
      | error cause => simp [parts, Except.map] at made
      | ok reference =>
        simp only [parts, Except.map, Except.ok.injEq] at made
        subst made
        exact ⟨rfl, rfl, rfl⟩

end Listing

namespace Store

variable {address : Address} {record : WorkspaceRecord} {object : ObjectRecord}

theorem workspace?_of_spelled (spelled : address.reference? = some reference) :
    store.workspace? address.workspace =
      (store.workspaces.get? reference.workspace).map fun record =>
        record.shown reference.workspace := by
  rw [(Reference.reference?_eq_some_iff.mp spelled).1, workspace?, find?_id]
  cases store.workspaces.get? reference.workspace <;> rfl

theorem mayRead_shown (found : store.workspaces.get? reference.workspace = some record)
    (live : record.deleted = false) :
    store.mayRead ⟨user, false⟩ (record.shown reference.workspace) = true ↔
      .read ≤ (record.grant user).effective := by
  simp [mayRead, available, grantOn, WorkspaceRecord.shown, found, live]

theorem locateIn?_of_spelled (consistent : store.Consistent)
    (spelled : address.reference? = some reference) {workspace : ResolvedWorkspace}
    (same : workspace.id = reference.workspace) :
    store.locateIn? (address.resolveIn workspace) =
      (store.object? reference).map fun object =>
        ⟨address.resolveIn workspace, reference, object⟩ := by
  rcases Reference.reference?_eq_some_iff.mp spelled with ⟨_, in_object, numbered⟩
  have pinned : (address.resolveIn workspace).version = some reference.version := numbered
  have stored : store.stored? (address.resolveIn workspace) =
      (store.object? reference).map fun object => (reference, object) := by
    apply Option.ext
    intro entry
    simp only [stored?_eq_some_iff consistent pinned, Option.map_eq_some_iff, Prod.ext_iff]
    have names : (address.resolveIn workspace).object = .id reference.object := in_object
    have in_workspace : (address.resolveIn workspace).workspace.id = reference.workspace := same
    rw [names, in_workspace]
    constructor
    · intro given
      rcases given with ⟨workspace_eq, version_eq, held, object_eq⟩
      have whole := Reference.ext_parts workspace_eq object_eq.symm version_eq
      exact ⟨entry.2, whole ▸ held, whole.symm, rfl⟩
    · intro given
      rcases given with ⟨object, held, whole, rfl⟩
      rw [← whole]
      exact ⟨rfl, rfl, held, rfl⟩
  rw [locateIn?, stored, Option.map_map]
  rfl

theorem headAlone_of_offers (consistent : store.Consistent)
    (spelled : address.reference? = some reference)
    (offers : store.Offers user reference record object) :
    store.headAlone ⟨user, false⟩ address =
      if object.deleted then .error (.objectDeleted (record.shown reference.workspace))
      else .ok ⟨address.resolveIn (record.shown reference.workspace), reference, object⟩ := by
  have resolved : store.workspace? address.workspace = some (record.shown reference.workspace) := by
    rw [workspace?_of_spelled spelled, offers.found]
    rfl
  have entered := workspaceAlone_of_mayRead resolved
    ((mayRead_shown offers.found offers.live).mpr offers.readable)
  have located := locateIn?_of_spelled consistent spelled
    (rfl : (record.shown reference.workspace).id = reference.workspace)
  rw [offers.held, Option.map_some] at located
  simp only [headAlone, entered, startIn, located]
  rfl

theorem exists_offers (consistent : store.Consistent)
    (spelled : address.reference? = some reference) {workspace : ResolvedWorkspace}
    (entered : store.workspaceAlone ⟨user, false⟩ address = .ok workspace) {located : Located}
    (found : store.locateIn? (address.resolveIn workspace) = some located) :
    ∃ record, store.Offers user reference record located.object := by
  rcases workspaceAlone_ok entered with ⟨resolved, readable⟩
  rw [workspace?_of_spelled spelled, Option.map_eq_some_iff] at resolved
  rcases resolved with ⟨record, present, rfl⟩
  rw [locateIn?_of_spelled consistent spelled rfl, Option.map_eq_some_iff] at found
  rcases found with ⟨object, held, rfl⟩
  have live : record.deleted = false := by
    simp only [mayRead, Bool.and_eq_true, Bool.not_eq_true'] at readable
    exact readable.1
  exact ⟨record, present, live, (mayRead_shown present live).mp readable, held⟩

theorem offers_of_objectDeleted (consistent : store.Consistent)
    (spelled : address.reference? = some reference) {workspace : ResolvedWorkspace}
    (refused : store.headAlone ⟨user, false⟩ address = .error (.objectDeleted workspace)) :
    ∃ record object, store.Offers user reference record object ∧ object.deleted = true := by
  simp only [headAlone] at refused
  cases entered : store.workspaceAlone ⟨user, false⟩ address with
  | error cause =>
    rw [entered] at refused
    cases refused
    simp only [workspaceAlone] at entered
    split at entered
    · cases entered
    · split at entered
      · cases entered
      · split at entered <;> cases entered
  | ok inside =>
    simp only [entered, startIn] at refused
    split at refused
    · cases refused
    next located found =>
      split at refused
      next deleted =>
        rcases exists_offers consistent spelled entered found with ⟨record, offers⟩
        exact ⟨record, located.object, offers, deleted⟩
      · cases refused

theorem outcomeAlone_direct (direct : address.locator = .direct) (caller : Caller) (index : Nat) :
    store.outcomeAlone caller index address =
      match store.headAlone caller address with
      | .error cause => .error { object := address, cause }
      | .ok head => .ok { kind := .direct, object := head.shown, path := [head.reference] } := by
  simp only [outcomeAlone, Address.hops, Address.hasPath, direct, walkAlone]
  rfl

end Store

namespace Listing

structure Gives (listing : Listing) (store : Store) (rows : List ListedObject) : Prop where
  whole : listing.rows store = .ok rows
  paged : (∀ row ∈ rows, row.reference.IdsFit) → ∃ pages,
    (∃ enough, ∀ most, enough ≤ most → listing.pages store most = .ok pages) ∧
      pages.flatten = rows

structure Agrees (live deleted : List ListedObject) (reference : Reference) (address : Address)
    (outcome : Outcome) : Prop where
  listed : (∃ row ∈ live, row.reference = reference) ↔ ∃ resolution,
    outcome = .ok resolution ∧ resolution.kind = .direct ∧ resolution.object.reference = reference
  told : ∀ row ∈ live, row.reference = reference → ∀ resolution, outcome = .ok resolution →
    row.name = resolution.object.name ∧ row.workspaceName = resolution.object.workspace.name ∧
      row.deleted = resolution.object.deleted
  refused : (∃ row ∈ deleted, row.reference = reference) ↔ ∃ workspace,
    outcome = .error { object := address, cause := .objectDeleted workspace }

theorem gives_of_rows {listing : Listing} {rows : List ListedObject}
    (distinct : (listing.permissions.workspaces.map ResolvedWorkspace.id).Nodup)
    (sized : 0 < listing.limit) (fresh : listing.startAfter = .start)
    (whole : listing.rows store = .ok rows) : listing.Gives store rows := by
  refine ⟨whole, fun fit => ?_⟩
  rcases pages_eq (rows_strict distinct whole) fit sized whole with ⟨pages, told, joined⟩
  rw [remaining_start fresh] at told joined
  exact ⟨pages, ⟨rows.length + 1, fun most enough => told most (by omega)⟩, joined⟩

theorem agrees_outcomeAlone (consistent : store.Consistent) {set : PermissionSet} {limit : Nat}
    (permits : store.Permits user .read true set) {live deleted : List ListedObject}
    (live_rows : (everything set limit false).rows store = .ok live)
    (deleted_rows : (everything set limit true).rows store = .ok deleted) {address : Address}
    (direct : address.locator = .direct) (spelled : address.reference? = some reference)
    (index : Nat) :
    Agrees live deleted reference address (store.outcomeAlone ⟨user, false⟩ index address) := by
  have shown : ∀ record object, store.Offers user reference record object →
      store.outcomeAlone ⟨user, false⟩ index address =
        if object.deleted then
          .error { object := address, cause := .objectDeleted (record.shown reference.workspace) }
        else .ok
          { kind := .direct
            object := Located.shown
              ⟨address.resolveIn (record.shown reference.workspace), reference, object⟩
            path := [reference] } := by
    intro record object offers
    rw [Store.outcomeAlone_direct direct, Store.headAlone_of_offers consistent spelled offers]
    cases object.deleted <;> rfl
  refine ⟨?_, ?_, ?_⟩
  · rw [mem_rows live_rows, everything_shows permits]
    constructor
    · intro given
      rcases given with ⟨record, object, offers, live⟩
      rw [shown record object offers, live]
      exact ⟨_, rfl, rfl, rfl⟩
    · intro given
      rcases given with ⟨resolution, resolved, _, _⟩
      rw [Store.outcomeAlone_direct direct] at resolved
      cases entered : store.headAlone ⟨user, false⟩ address with
      | error cause => simp [entered] at resolved
      | ok head =>
        rcases Store.headAlone_ok entered with ⟨workspace, inside, started⟩
        rcases Store.startIn_ok started with ⟨found, live⟩
        rcases Store.exists_offers consistent spelled inside found with ⟨record, offers⟩
        exact ⟨record, head.object, offers, live⟩
  · intro row mem same resolution resolved
    rcases (everything_shows permits).mp ((mem_rows live_rows).mp ⟨row, mem, same⟩) with
      ⟨record, object, offers, live⟩
    rcases Store.object?_eq_some.mp offers.held with ⟨_, found, present, _⟩
    rcases row_told live_rows mem with ⟨record', object', found', present', told⟩
    rw [same] at found' present'
    obtain rfl := Option.some.inj (found.symm.trans found')
    obtain rfl := Option.some.inj (present.symm.trans present')
    obtain rfl := Option.some.inj (offers.found.symm.trans found)
    rw [shown record object offers, live] at resolved
    cases resolved
    exact told
  · rw [mem_rows deleted_rows, everything_shows permits]
    constructor
    · intro given
      rcases given with ⟨record, object, offers, gone⟩
      exact ⟨_, by rw [shown record object offers, if_pos gone]⟩
    · intro given
      rcases given with ⟨workspace, failed⟩
      rw [Store.outcomeAlone_direct direct] at failed
      cases entered : store.headAlone ⟨user, false⟩ address with
      | error cause =>
        simp only [entered, Except.error.injEq, Failure.mk.injEq, true_and] at failed
        subst failed
        exact Store.offers_of_objectDeleted consistent spelled entered
      | ok head => simp [entered] at failed

-- Listed live iff resolved, listed deleted iff refused as deleted.
theorem listing_agrees_with_resolution (reachable : store.Reachable) (user : Option User) :
    ∃ set live deleted, store.allPermissions user .read true = .ok set ∧
      (∀ limit, 0 < limit → (everything set limit false).Gives store live ∧
        (everything set limit true).Gives store deleted) ∧
      ∀ reference address batch config resolver, address.locator = .direct →
        address.reference? = some reference → address ∈ batch → config.asAdmin = false →
          Resolver.make user batch config = .ok resolver →
            ∃ result outcome, resolver.resolve.run store = .ok result ∧
              result.outcome? address = some outcome ∧
              Agrees live deleted reference address outcome := by
  have consistent := reachable.consistent
  rcases Store.allPermissions_ok consistent user .read true with ⟨set, granted, permits⟩
  rcases exists_rows consistent (.inl rfl : (everything set 1 false).Answerable store) with
    ⟨live, live_rows⟩
  rcases exists_rows consistent (.inl rfl : (everything set 1 true).Answerable store) with
    ⟨deleted, deleted_rows⟩
  have distinct : (set.workspaces.map ResolvedWorkspace.id).Nodup := by
    apply List.pairwise_map.mpr
    apply set.grants.keys_nodup.imp_of_mem
    intro left right mem mem' apart same
    rcases Option.isSome_iff_exists.mp (Table.mem_keys_iff.mp mem) with ⟨grant, here⟩
    rcases Option.isSome_iff_exists.mp (Table.mem_keys_iff.mp mem') with ⟨grant', there⟩
    rcases (permits left grant).mp here with ⟨record, found, _, shown, _⟩
    rcases (permits right grant').mp there with ⟨record', found', _, shown', _⟩
    rw [same] at found shown
    obtain rfl := Option.some.inj (found.symm.trans found')
    exact apart (shown.trans shown'.symm)
  refine ⟨set, live, deleted, granted, ?_, ?_⟩
  · intro limit sized
    exact ⟨gives_of_rows distinct sized rfl live_rows, gives_of_rows distinct sized rfl deleted_rows⟩
  · intro reference address batch config resolver direct spelled mem unprivileged made
    rcases Resolver.resolve_ok consistent made with ⟨searched, _, ran⟩
    refine ⟨_, _, ran, outcome?_eq (List.mem_eraseDups.mpr mem) _, ?_⟩
    have alone : address.isLookup = false := by simp [Address.isLookup, direct]
    rw [Store.outcomeOf, unprivileged, alone]
    exact agrees_outcomeAlone consistent permits live_rows deleted_rows direct spelled _

namespace Sample

def bob : User := ⟨"bob"⟩

def numbered (reference : Reference) : Address :=
  .mk
    { workspace := .id reference.workspace
      object := .id reference.object
      version := some reference.version
      subset := {} } .direct

end Sample

theorem sample_listing_agrees :
    ∃ set live deleted resolver result, Store.sample.Reachable ∧
      Store.sample.allPermissions (some Sample.bob) .read true = .ok set ∧
      (everything set 1 false).Gives Store.sample live ∧
      (everything set 1 true).Gives Store.sample deleted ∧
      Resolver.make (some Sample.bob)
        [Sample.numbered Store.Sample.middle, Sample.numbered Store.Sample.target] {} =
          .ok resolver ∧
      resolver.resolve.run Store.sample = .ok result ∧
      (∃ resolution, result.outcome? (Sample.numbered Store.Sample.middle) =
        some (.ok resolution)) ∧
      (∃ row ∈ live, row.reference = Store.Sample.middle) ∧
      (∃ row ∈ deleted, row.reference = Store.Sample.target) := by
  rcases listing_agrees_with_resolution Store.reachable_sample (some Sample.bob) with
    ⟨set, live, deleted, granted, gives, agrees⟩
  have made : Resolver.make (some Sample.bob)
      [Sample.numbered Store.Sample.middle, Sample.numbered Store.Sample.target] {} =
        .ok _ := rfl
  rcases agrees Store.Sample.middle (Sample.numbered Store.Sample.middle) _ {} _ rfl (by decide)
    List.mem_cons_self rfl made with ⟨result, outcome, ran, told, middle⟩
  rcases agrees Store.Sample.target (Sample.numbered Store.Sample.target) _ {} _ rfl (by decide)
    (List.mem_cons_of_mem _ List.mem_cons_self) rfl made with
    ⟨result', outcome', ran', told', target⟩
  obtain rfl := Except.ok.inj (ran.symm.trans ran')
  rcases Resolver.resolve_ok Store.reachable_sample.consistent made with ⟨searched, _, alone⟩
  obtain rfl := Except.ok.inj (ran.symm.trans alone)
  have resolved := told.symm.trans (rfl : _ = some (Except.ok _))
  have refused := told'.symm.trans (rfl : _ = some (Except.error _))
  refine ⟨set, live, deleted, _, _, Store.reachable_sample, granted,
    (gives 1 (by decide)).1, (gives 1 (by decide)).2, made, ran,
    ⟨_, told.trans resolved⟩, ?_, ?_⟩
  · exact middle.listed.mpr ⟨_, Option.some.inj resolved, rfl, rfl⟩
  · exact target.refused.mpr ⟨_, Option.some.inj refused⟩

end Listing

end ObjectSpace
