import ObjectSpace.Proofs.Listing.Page
import ObjectSpace.Proofs.Store.Exhaustion

set_option autoImplicit false

namespace ObjectSpace

namespace Listing

structure Request where
  store : Store
  rows : List ListedObject

-- Each request resumes after the last row, and an empty page ends the walk.
def walk (listing : Listing) (store : Store) : List (List Update) → Except StoreError (List Request)
  | [] => .ok []
  | changes :: later => do
    let store := changes.foldl Store.update store
    let rows ← listing.page store
    match rows.getLast? with
    | none => return [{ store, rows }]
    | some last => do
      let listing ← (listing.resumeAfter last).mapError .value
      return { store, rows } :: (← listing.walk store later)

def returned (requests : List Request) : List Reference :=
  (requests.flatMap Request.rows).map ListedObject.reference

def Ended (requests : List Request) : Prop := ∃ request ∈ requests, request.rows = []

variable {listing : Listing} {store : Store} {reference : Reference}

theorem walk_cons_ok {changes : List Update} {later : List (List Update)}
    {requests : List Request} (ran : listing.walk store (changes :: later) = .ok requests) :
    ∃ rows, listing.page (changes.foldl Store.update store) = .ok rows ∧
      (rows = [] ∧ requests = [⟨changes.foldl Store.update store, []⟩] ∨
        ∃ last rest, rows.getLast? = some last ∧
          (listing.resumed last.reference).walk (changes.foldl Store.update store) later =
            .ok rest ∧
          requests = ⟨changes.foldl Store.update store, rows⟩ :: rest) := by
  obtain ⟨rows, shown, ran⟩ := bind_eq_ok.mp ran
  refine ⟨rows, shown, ?_⟩
  cases ends : rows.getLast? with
  | none =>
    obtain rfl := List.getLast?_eq_none_iff.mp ends
    simp only [List.getLast?_nil, pure, Except.pure, Except.ok.injEq] at ran
    exact .inl ⟨rfl, ran.symm⟩
  | some last =>
    simp only [ends, mapError_resumeAfter, bind_eq_ok, pure, Except.pure, Except.ok.injEq,
      exists_eq_left'] at ran
    obtain ⟨rest, onward, rfl⟩ := ran
    exact .inr ⟨last, rest, rfl, onward, rfl⟩

@[simp] theorem returned_cons (request : Request) (rest : List Request) :
    returned (request :: rest) = request.rows.map ListedObject.reference ++ returned rest := by
  simp [returned]

section Walk

variable {changes : List (List Update)} {requests : List Request}

theorem walk_shown (ran : listing.walk store changes = .ok requests) :
    ∀ request ∈ requests, ∀ row ∈ request.rows, listing.Shows request.store row.reference := by
  induction changes generalizing listing store requests with
  | nil =>
    cases ran
    simp
  | cons first later ih =>
    obtain ⟨rows, page, ⟨rfl, rfl⟩ | ⟨last, rest, _, onward, rfl⟩⟩ := walk_cons_ok ran
    · simp
    · intro request mem
      rcases List.mem_cons.mp mem with rfl | mem
      · exact fun row shown => (page_shown page shown).1
      · exact ih onward request mem

theorem walk_stores (ran : listing.walk store changes = .ok requests) :
    ∀ request ∈ requests, ∃ count ≤ changes.length,
      request.store = (changes.take count).flatten.foldl Store.update store := by
  induction changes generalizing listing store requests with
  | nil =>
    cases ran
    simp
  | cons first later ih =>
    obtain ⟨rows, _, ⟨rfl, rfl⟩ | ⟨last, rest, _, onward, rfl⟩⟩ := walk_cons_ok ran
    · intro request mem
      obtain rfl := List.mem_singleton.mp mem
      exact ⟨1, by simp, by simp⟩
    · intro request mem
      rcases List.mem_cons.mp mem with rfl | mem
      · exact ⟨1, by simp, by simp⟩
      · obtain ⟨count, bound, same⟩ := ih onward request mem
        refine ⟨count + 1, by simpa using bound, ?_⟩
        simpa using same

theorem walk_strict (ran : listing.walk store changes = .ok requests)
    (distinct : (listing.permissions.workspaces.map ResolvedWorkspace.id).Nodup)
    (fit : ∀ reference ∈ returned requests, reference.IdsFit) :
    (returned requests).Pairwise Reference.ListedLess ∧
      ∀ reference ∈ returned requests, listing.startAfter.admits reference = true := by
  induction changes generalizing listing store requests with
  | nil =>
    cases ran
    simp [returned]
  | cons first later ih =>
    obtain ⟨rows, page, ⟨rfl, rfl⟩ | ⟨last, rest, ends, onward, rfl⟩⟩ := walk_cons_ok ran
    · simp [returned]
    · have last_mem := List.mem_of_getLast? ends
      have last_fits : last.reference.IdsFit := by
        apply fit
        rw [returned_cons]
        exact List.mem_append_left _ (List.mem_map.mpr ⟨last, last_mem, rfl⟩)
      obtain ⟨strict, admitted⟩ := ih onward distinct fun reference mem => by
        apply fit
        rw [returned_cons]
        exact List.mem_append_right _ mem
      have beyond : ∀ reference ∈ returned rest, last.reference.ListedLess reference :=
        fun reference mem => (Cursor.admits_ofReference last_fits).mp (admitted reference mem)
      have own := page_strict distinct page
      rw [returned_cons]
      constructor
      · apply List.pairwise_append.mpr
        refine ⟨List.pairwise_map.mpr own, strict, ?_⟩
        intro left mem right mem'
        obtain ⟨row, listed, rfl⟩ := List.mem_map.mp mem
        rcases eq_last_or_rel own ends listed with rfl | less
        · exact beyond right mem'
        · exact less.trans (beyond right mem')
      · intro reference mem
        rcases List.mem_append.mp mem with here | later
        · obtain ⟨row, listed, rfl⟩ := List.mem_map.mp here
          exact (page_shown page listed).2
        · exact Cursor.admits_of_less (page_shown page last_mem).2 (beyond reference later)

-- Invariant: a version that every request has shown was returned or lies ahead.
theorem walk_complete (ran : listing.walk store changes = .ok requests)
    (distinct : (listing.permissions.workspaces.map ResolvedWorkspace.id).Nodup)
    (sized : 0 < listing.limit) (fit : ∀ reference ∈ returned requests, reference.IdsFit)
    (ended : Ended requests)
    (shown : ∀ request ∈ requests, listing.Shows request.store reference)
    (ahead : listing.startAfter.admits reference = true) : reference ∈ returned requests := by
  induction changes generalizing listing store requests with
  | nil =>
    cases ran
    obtain ⟨_, mem, _⟩ := ended
    cases mem
  | cons first later ih =>
    obtain ⟨rows, page, cases⟩ := walk_cons_ok ran
    have now : listing.Shows (first.foldl Store.update store) reference := by
      rcases cases with ⟨_, rfl⟩ | ⟨_, _, _, _, rfl⟩
      · exact shown _ List.mem_cons_self
      · exact shown _ List.mem_cons_self
    have found := page_complete distinct sized page now ahead
    rcases cases with ⟨rfl, rfl⟩ | ⟨last, rest, ends, onward, rfl⟩
    · simp at found
    · rw [returned_cons] at fit ⊢
      rcases found with ⟨row, mem, rfl⟩ | ⟨other, ends', less⟩
      · exact List.mem_append_left _ (List.mem_map.mpr ⟨row, mem, rfl⟩)
      · obtain rfl := Option.some.inj (ends.symm.trans ends')
        have mem := List.mem_of_getLast? ends
        have last_fits : last.reference.IdsFit :=
          fit _ (List.mem_append_left _ (List.mem_map.mpr ⟨last, mem, rfl⟩))
        apply List.mem_append_right
        apply ih onward distinct sized (fun reference mem => fit _ (List.mem_append_right _ mem))
        · obtain ⟨request, listed, empty⟩ := ended
          rcases List.mem_cons.mp listed with rfl | listed
          · simp only at empty
            simp [empty] at mem
          · exact ⟨request, listed, empty⟩
        · exact fun request listed => shown request (List.mem_cons_of_mem _ listed)
        · exact (Cursor.admits_ofReference last_fits).mpr less

end Walk

theorem exists_page (reachable : store.Reachable) (answerable : listing.Answerable store) :
    ∃ rows, listing.page store = .ok rows := by
  obtain ⟨all, whole⟩ := exists_rows reachable.consistent answerable
  exact ⟨_, page_eq whole⟩

theorem page_refused_iff (reachable : store.Reachable) :
    listing.page store = .error (.value .invalidReference) ↔ ¬ listing.Answerable store := by
  rw [← rows_refused_iff reachable.consistent, page]
  cases listing.rows store with
  | ok rows => constructor <;> intro failed <;> cases failed
  | error cause =>
    constructor
    · intro failed
      cases failed
      rfl
    · intro failed
      cases failed
      rfl

theorem exists_walk {changes : List (List Update)} (reachable : store.Reachable)
    (answerable : ∀ before, before <+: changes →
      listing.Answerable (before.flatten.foldl Store.update store)) :
    ∃ requests, listing.walk store changes = .ok requests := by
  induction changes generalizing listing store with
  | nil => exact ⟨[], rfl⟩
  | cons first later ih =>
    have now := reachable.foldl first
    have answered : listing.Answerable (first.foldl Store.update store) := by
      simpa using answerable [first] (List.cons_prefix_cons.mpr ⟨rfl, List.nil_prefix⟩)
    obtain ⟨rows, page⟩ := exists_page now answered
    simp only [walk, page, bind, Except.bind, mapError_resumeAfter]
    cases ends : rows.getLast? with
    | none => exact ⟨_, rfl⟩
    | some last =>
      have onward : ∃ rest, (listing.resumed last.reference).walk
          (first.foldl Store.update store) later = .ok rest := by
        apply ih now
        intro before within
        have whole := answerable (first :: before) (List.cons_prefix_cons.mpr ⟨rfl, within⟩)
        rwa [List.flatten_cons, List.foldl_append] at whole
      obtain ⟨rest, onward⟩ := onward
      simp only [onward]
      exact ⟨_, rfl⟩

theorem filter_beyond {α : Type} {r : α → α → Prop} {elements : List α} {last : α} {most : Nat}
    {beyond : α → Bool} (asymm : ∀ left right, r left right → ¬ r right left)
    (sorted : elements.Pairwise r) (ends : (elements.take most).getLast? = some last)
    (exact_beyond : ∀ element, beyond element = true ↔ r last element) :
    elements.filter beyond = elements.drop most := by
  have parts := List.pairwise_append.mp ((List.take_append_drop most elements).symm ▸ sorted)
  have taken : (elements.take most).filter beyond = [] := by
    apply List.filter_eq_nil_iff.mpr
    intro element mem further
    have later := (exact_beyond element).mp further
    rcases eq_last_or_rel parts.1 ends mem with rfl | less
    · exact asymm _ _ later later
    · exact asymm _ _ less later
  have dropped : (elements.drop most).filter beyond = elements.drop most := by
    apply List.filter_eq_self.mpr
    intro element mem
    exact (exact_beyond element).mpr (parts.2.2 last (List.mem_of_getLast? ends) element mem)
  calc elements.filter beyond = (elements.take most ++ elements.drop most).filter beyond := by
        rw [List.take_append_drop]
    _ = elements.drop most := by rw [List.filter_append, taken, dropped, List.nil_append]

def remaining (listing : Listing) (all : List ListedObject) : List ListedObject :=
  all.filter fun row => listing.startAfter.admits row.reference

section Pages

variable {all : List ListedObject}
variable (strict : all.Pairwise fun left right => left.reference.ListedLess right.reference)
variable (fit : ∀ row ∈ all, row.reference.IdsFit)

include strict fit

theorem remaining_resumed {last : ListedObject}
    (ends : ((listing.remaining all).take listing.limit).getLast? = some last) :
    (listing.resumed last.reference).remaining all =
      (listing.remaining all).drop listing.limit := by
  have kept : last ∈ listing.remaining all :=
    List.mem_of_mem_take (List.mem_of_getLast? ends)
  obtain ⟨listed, admitted⟩ := List.mem_filter.mp kept
  have beyond : ∀ row : ListedObject,
      (Cursor.ofReference last.reference).admits row.reference = true ↔
        last.reference.ListedLess row.reference :=
    fun row => Cursor.admits_ofReference (fit last listed)
  have cut := filter_beyond (fun left right : ListedObject => Reference.ListedLess.asymm)
    (strict.filter fun row => listing.startAfter.admits row.reference) ends beyond
  rw [← remaining] at cut
  rw [← cut, remaining, remaining, List.filter_filter]
  apply List.filter_congr
  intro row _
  rw [Bool.eq_iff_iff, Bool.and_eq_true]
  constructor
  · intro further
    exact ⟨further, Cursor.admits_of_less admitted ((beyond row).mp further)⟩
  · exact And.left

theorem pages_eq (sized : 0 < listing.limit) (whole : listing.rows store = .ok all) :
    ∃ pages, (∀ most, (listing.remaining all).length < most →
        listing.pages store most = .ok pages) ∧
      pages.flatten = listing.remaining all := by
  generalize size : (listing.remaining all).length = count
  induction count using Nat.strongRecOn generalizing listing with
  | ind count ih =>
    have page := page_eq whole
    rw [← remaining] at page
    cases ends : ((listing.remaining all).take listing.limit).getLast? with
    | none =>
      have none_left : listing.remaining all = [] := by
        rcases List.take_eq_nil_iff.mp (List.getLast?_eq_none_iff.mp ends) with zero | empty
        · omega
        · exact empty
      refine ⟨[], ?_, none_left.symm⟩
      intro most enough
      cases most with
      | zero => omega
      | succ most =>
        simp only [pages, page, bind, Except.bind, ends]
        rfl
    | some last =>
      have rest := remaining_resumed strict fit ends
      have fewer : ((listing.remaining all).drop listing.limit).length < count := by
        have some_left := List.length_pos_of_mem
          (List.mem_of_mem_take (List.mem_of_getLast? ends))
        rw [List.length_drop]
        omega
      have sized' : 0 < (listing.resumed last.reference).limit := sized
      have whole' : (listing.resumed last.reference).rows store = .ok all := whole
      obtain ⟨pages, told, joined⟩ := ih _ fewer sized' whole' (congrArg List.length rest)
      refine ⟨(listing.remaining all).take listing.limit :: pages, ?_, ?_⟩
      · intro most enough
        cases most with
        | zero => omega
        | succ most =>
          have onward := told most (by omega)
          simp only [Listing.pages, page, bind, Except.bind, ends, mapError_resumeAfter, onward]
          rfl
      · rw [List.flatten_cons, joined, rest, List.take_append_drop]

end Pages

theorem remaining_start {all : List ListedObject} (fresh : listing.startAfter = .start) :
    listing.remaining all = all := by
  simp [remaining, fresh]

theorem walk_exact (distinct : (listing.permissions.workspaces.map ResolvedWorkspace.id).Nodup)
    (sized : 0 < listing.limit) (fresh : listing.startAfter = .start) :
    (∀ store changes requests, listing.walk store changes = .ok requests →
      (∀ reference ∈ returned requests, reference.IdsFit) →
        (returned requests).Pairwise Reference.ListedLess ∧
        (∀ request ∈ requests, ∀ row ∈ request.rows,
          listing.Shows request.store row.reference) ∧
        (Ended requests → ∀ reference,
          (∀ request ∈ requests, listing.Shows request.store reference) →
            reference ∈ returned requests)) ∧
    (∀ (store : Store) changes, store.Reachable →
      (∀ before, before <+: changes →
        listing.Answerable (before.flatten.foldl Store.update store)) →
          ∃ requests, listing.walk store changes = .ok requests) ∧
    ∀ store, store.Reachable →
      (listing.page store = .error (.value .invalidReference) ↔ ¬ listing.Answerable store) ∧
      (listing.Answerable store →
        (∀ reference, listing.Shows store reference → reference.IdsFit) →
          ∃ pages, (∃ enough, ∀ most, enough ≤ most → listing.pages store most = .ok pages) ∧
            (pages.flatten.map ListedObject.reference).Pairwise Reference.ListedLess ∧
            ∀ reference, reference ∈ pages.flatten.map ListedObject.reference ↔
              listing.Shows store reference) := by
  refine ⟨?_, fun store changes => exists_walk, ?_⟩
  · intro store changes requests ran fit
    refine ⟨(walk_strict ran distinct fit).1, walk_shown ran, ?_⟩
    intro ended reference shown
    apply walk_complete ran distinct sized fit ended shown
    rw [fresh]
    exact Cursor.admits_start reference
  · intro store reachable
    refine ⟨page_refused_iff reachable, fun answerable fit => ?_⟩
    obtain ⟨all, whole⟩ := exists_rows reachable.consistent answerable
    have strict := rows_strict distinct whole
    have rows_fit : ∀ row ∈ all, row.reference.IdsFit :=
      fun row mem => fit _ ((mem_rows whole).mp ⟨row, mem, rfl⟩)
    obtain ⟨pages, told, joined⟩ := pages_eq strict rows_fit sized whole
    rw [remaining_start fresh] at told joined
    refine ⟨pages, ⟨all.length + 1, fun most enough => told most (by omega)⟩, ?_, ?_⟩
    · rw [joined]
      exact List.pairwise_map.mpr strict
    · intro reference
      rw [joined, ← mem_rows whole, List.mem_map]

namespace Sample

def shared : Listing where
  permissions :=
    { user := some ⟨"alice"⟩
      grants := (Table.empty.insert
        { id := 1, name := "top", locked := false, deleted := false } { user := .owner }).insert
        { id := 2, name := "hidden", locked := true, deleted := false } { world := .read } }
  limit := 1
  showAllVersions := true

def changes : List (List Update) :=
  [[], [.saveObject 1 "root" [], .saveObject 1 "later" []], [.setObjectDeleted 1 1 true], []]

def owned : Listing where
  permissions :=
    { user := some ⟨"alice"⟩
      grants := Table.empty.insert
        { id := 1, name := "top", locked := false, deleted := false } { user := .owner } }

end Sample

theorem sample_walk_exact :
    ∃ pages requests, Store.sample.Reachable ∧
      (∃ enough, ∀ most, enough ≤ most → Sample.shared.pages Store.sample most = .ok pages) ∧
      Store.Sample.root ∈ pages.flatten.map ListedObject.reference ∧
      Store.Sample.middle ∈ pages.flatten.map ListedObject.reference ∧
      Sample.shared.walk Store.sample Sample.changes = .ok requests ∧
      (returned requests).Pairwise Reference.ListedLess := by
  have answerable : ∀ store, Sample.shared.Answerable store := fun _ => .inl rfl
  have fit : ∀ count ≤ Sample.changes.length, ∀ workspace ∈
      ((Sample.changes.take count).flatten.foldl Store.update Store.sample).workspaces.entries,
        workspace.1 < Text.signedBound ∧
          ∀ object ∈ workspace.2.objects.entries, object.1 < Text.signedBound := by
    decide
  have shown_fit : ∀ count ≤ Sample.changes.length, ∀ reference, Sample.shared.Shows
      ((Sample.changes.take count).flatten.foldl Store.update Store.sample) reference →
        reference.IdsFit := by
    intro count bound reference shown
    obtain ⟨_, _, _, _, record, found, _, object, present, _⟩ := shown
    obtain ⟨workspace, objects⟩ := fit count bound _ (Table.get?_eq_some_iff.mp found)
    exact ⟨workspace, objects _ (Table.get?_eq_some_iff.mp present)⟩
  obtain ⟨walks, answered, still⟩ :=
    @walk_exact Sample.shared (by decide) (by decide) rfl
  obtain ⟨pages, told, _, exactly⟩ := (still Store.sample Store.reachable_sample).2 (answerable _)
    (shown_fit 0 (Nat.zero_le _))
  obtain ⟨requests, ran⟩ := answered Store.sample Sample.changes Store.reachable_sample
    fun _ _ => answerable _
  refine ⟨pages, requests, Store.reachable_sample, told, ?_, ?_, ran, ?_⟩
  · apply (exactly _).mpr
    exact ⟨{ id := 1, name := "top", locked := false, deleted := false }, by decide, by decide,
      rfl, _, rfl, rfl, _, rfl, by decide, by decide⟩
  · apply (exactly _).mpr
    exact ⟨{ id := 2, name := "hidden", locked := true, deleted := false }, by decide, by decide,
      rfl, _, rfl, rfl, _, rfl, by decide, by decide⟩
  · refine (walks Store.sample Sample.changes requests ran ?_).1
    intro reference mem
    obtain ⟨row, listed, rfl⟩ := List.mem_map.mp mem
    obtain ⟨request, asked, listed⟩ := List.mem_flatMap.mp listed
    obtain ⟨count, bound, same⟩ := walk_stores ran request asked
    exact shown_fit count bound _ (same ▸ walk_shown ran request asked row listed)

section Full

variable {versions : List (List Reference)} (full : Text.versionBound ∣ versions.length)

include full

theorem saved_not_shows (reference : Reference) :
    ¬ Sample.owned.Shows (Store.Sample.saved versions) reference := by
  intro shows
  obtain ⟨_, _, _, _, record, found, _, object, present, _, numbered⟩ := shows
  have workspaces : (Store.Sample.saved versions).workspaces.entries =
      [(1, Store.Sample.kept versions)] := rfl
  have objects : (Store.Sample.kept versions).objects.entries =
      [(1, { name := "x", versions })] := rfl
  have here := Table.get?_eq_some_iff.mp found
  rw [workspaces, List.mem_singleton, Prod.mk.injEq] at here
  rw [here.2] at present
  have there := Table.get?_eq_some_iff.mp present
  rw [objects, List.mem_singleton, Prod.mk.injEq] at there
  have latest : reference.version = object.latestVersion := numbered
  have positive := reference.version_pos
  rw [latest, there.2, ObjectRecord.latestVersion, Nat.mod_eq_zero_of_dvd full] at positive
  exact Nat.lt_irrefl 0 positive

theorem saved_not_answerable : ¬ Sample.owned.Answerable (Store.Sample.saved versions) := by
  intro answerable
  rcases answerable with all | numbered
  · cases all
  · refine numbered 1 1 { name := "x", versions } ?_ full
    exact ⟨{ id := 1, name := "top", locked := false, deleted := false }, by decide, by decide,
      rfl, _, rfl, rfl, rfl, rfl⟩

end Full

-- Nothing matches, and still no page is given.
theorem sample_full_unlisted :
    (Store.run (Store.Sample.saves Text.versionBound)).Reachable ∧
      (Sample.owned.permissions.workspaces.map ResolvedWorkspace.id).Nodup ∧
      0 < Sample.owned.limit ∧ Sample.owned.startAfter = .start ∧
      (∀ reference,
        ¬ Sample.owned.Shows (Store.run (Store.Sample.saves Text.versionBound)) reference) ∧
      ∀ most, Sample.owned.pages (Store.run (Store.Sample.saves Text.versionBound)) (most + 1) =
        .error (.value .invalidReference) := by
  obtain ⟨count, last, full⟩ := Store.exists_full
  have reachable := Store.reachable_run (Store.Sample.saves (count + 1))
  rw [Store.run_saves] at reachable
  rw [last, Store.run_saves]
  refine ⟨reachable, by decide, by decide, rfl, saved_not_shows full, ?_⟩
  intro most
  rw [Listing.pages, (page_refused_iff reachable).mpr (saved_not_answerable full)]
  rfl

end Listing

end ObjectSpace
