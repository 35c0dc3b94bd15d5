import ObjectSpace.Proofs.Address.Building

set_option autoImplicit false

namespace ObjectSpace.AddressBuilder

namespace Change

def object? : Change → Option ObjectKey
  | .name text _ => text.map .name
  | .id number _ => number.map fun number => .id number.toNat
  | _ => none

def version? : Change → Option (Option Nat)
  | .version number => some (number.map Int.toNat)
  | _ => none

def subset? : Change → Option Subset
  | .subset part => some (part.getD {})
  | _ => none

def locator? : Change → Option (Locator Address)
  | .path (hop :: hops) => some (.path (hop :: hops))
  | .lookup true => some .lookup
  | _ => none

def clears : Change → Locator Address → Bool
  | .path [], .path _ => true
  | .lookup false, .lookup => true
  | _, _ => false

def moves (change : Change) (locator : Locator Address) : Locator Address :=
  change.locator?.getD (if change.clears locator then .direct else locator)

end Change

def keep (builder : AddressBuilder) (change : Change) : AddressBuilder :=
  match builder.change change with
  | .ok next => next
  | .error _ => builder

def taken (builder : AddressBuilder) : List Change → List Change
  | [] => []
  | change :: rest =>
    match builder.change change with
    | .ok next => change :: next.taken rest
    | .error _ => builder.taken rest

def ran (key : WorkspaceKey) (changes : List Change) : AddressBuilder :=
  changes.foldl keep { workspace := key }

def took (key : WorkspaceKey) (changes : List Change) : List Change :=
  taken { workspace := key } changes

-- None of the later changes replaces or clears it.
def Located (locator : Locator Address) (changes : List Change) : Prop :=
  ∃ before change after, changes = before ++ change :: after ∧
    change.locator? = some locator ∧
    ∀ later ∈ after, later.locator? = none ∧ later.clears locator = false

structure Becomes (builder : AddressBuilder) (change : Change) (next : AddressBuilder) : Prop where
  workspace : next.workspace = builder.workspace
  object : next.object = change.object?.or builder.object
  version : next.version = change.version?.getD builder.version
  subset : next.subset = change.subset?.getD builder.subset
  locator : next.locator = change.moves builder.locator

structure Tells (builder : AddressBuilder) (key : WorkspaceKey) (changes : List Change) : Prop where
  workspace : builder.workspace = key
  object : builder.object = (changes.filterMap Change.object?).getLast?
  version : builder.version = (changes.filterMap Change.version?).getLast?.join
  subset : builder.subset = (changes.filterMap Change.subset?).getLast?.getD {}
  located : ∀ locator, locator ≠ .direct → (builder.locator = locator ↔ Located locator changes)

structure Slots where
  name : Option String := none
  id : Option Nat := none
  deriving DecidableEq

def slots (builder : AddressBuilder) : Slots := ⟨builder.name?, builder.id?⟩

namespace Slots

def withName (slots : Slots) (name : Option String) (exclusive : Bool) :
    Except AddressError Slots :=
  match name with
  | none => .ok slots
  | some name =>
    if exclusive ∧ slots.id.isSome then .error (.nameOrId (some name) slots.id)
    else
      match Name.checkObject name with
      | .error cause => .error (.value cause)
      | .ok () => .ok { name := some name, id := none }

def withId (slots : Slots) (id : Option Int) (exclusive : Bool) : Except AddressError Slots :=
  match id with
  | none => .ok slots
  | some id =>
    if exclusive ∧ slots.name.isSome then
      .error (.nameOrId slots.name (if 0 ≤ id then some id.toNat else none))
    else if id < 1 then .error (.value (.notPositive .objectId))
    else .ok { name := none, id := some id.toNat }

def object : Slots → Except AddressError ObjectKey
  | ⟨some name, none⟩ => .ok (.name name)
  | ⟨none, some id⟩ => .ok (.id id)
  | ⟨name, id⟩ => .error (.nameOrId name id)

def change (slots : Slots) : Change → Except AddressError Slots
  | .name name exclusive => slots.withName name exclusive
  | .id id exclusive => slots.withId id exclusive
  | .rebuild => slots.object.map fun object => ⟨object.name?, object.id?⟩
  | .version _ | .path _ | .lookup _ | .subset _ => .ok slots

def keep (slots : Slots) (change : Change) : Slots :=
  match slots.change change with
  | .ok next => next
  | .error _ => slots

end Slots

variable {builder next : AddressBuilder} {change : Change} {changes : List Change}

theorem withPath_becomes (builder : AddressBuilder) (hops : List Address) :
    builder.Becomes (.path hops) (builder.withPath hops) := by
  obtain ⟨locator, same⟩ := builder.withPath_parts hops
  have moved : (builder.withPath hops).locator = (Change.path hops).moves builder.locator := by
    cases hops with
    | cons hop hops => rfl
    | nil =>
      cases located : builder.locator <;>
        simp [withPath, Change.moves, Change.locator?, Change.clears, located]
  rw [same] at moved ⊢
  exact ⟨rfl, rfl, rfl, rfl, moved⟩

theorem withLookup_becomes (builder : AddressBuilder) (lookup : Bool) :
    builder.Becomes (.lookup lookup) (builder.withLookup lookup) := by
  obtain ⟨locator, same⟩ := builder.withLookup_parts lookup
  have moved : (builder.withLookup lookup).locator =
      (Change.lookup lookup).moves builder.locator := by
    cases lookup with
    | true => rfl
    | false =>
      cases located : builder.locator <;>
        simp [withLookup, Change.moves, Change.locator?, Change.clears, located]
  rw [same] at moved ⊢
  exact ⟨rfl, rfl, rfl, rfl, moved⟩

theorem change_becomes (made : builder.change change = .ok next) :
    builder.Becomes change next := by
  cases change with
  | name name exclusive =>
    cases name with
    | none =>
      cases made
      exact ⟨rfl, rfl, rfl, rfl, rfl⟩
    | some name =>
      obtain ⟨_, rfl⟩ := withName_ok made
      exact ⟨rfl, rfl, rfl, rfl, rfl⟩
  | id id exclusive =>
    cases id with
    | none =>
      cases made
      exact ⟨rfl, rfl, rfl, rfl, rfl⟩
    | some id =>
      obtain ⟨_, rfl⟩ := withId_ok made
      exact ⟨rfl, rfl, rfl, rfl, rfl⟩
  | version version =>
    cases version with
    | none =>
      cases made
      exact ⟨rfl, rfl, rfl, rfl, rfl⟩
    | some version =>
      obtain ⟨_, _, rfl⟩ := withVersion_ok made
      exact ⟨rfl, rfl, rfl, rfl, rfl⟩
  | path hops =>
    cases made
    exact builder.withPath_becomes hops
  | lookup lookup =>
    cases made
    exact builder.withLookup_becomes lookup
  | subset subset =>
    cases made
    exact ⟨rfl, rfl, rfl, rfl, rfl⟩
  | rebuild =>
    cases built : builder.build with
    | error cause => simp [AddressBuilder.change, built, Except.map] at made
    | ok address =>
      simp only [AddressBuilder.change, built, Except.map, Except.ok.injEq] at made
      rw [← made, ← build_ok built]
      exact ⟨rfl, rfl, rfl, rfl, rfl⟩

theorem Change.moves_eq_iff {locator before : Locator Address} (present : locator ≠ .direct) :
    change.moves before = locator ↔ change.locator? = some locator ∨
      change.locator? = none ∧ change.clears locator = false ∧ before = locator := by
  unfold Change.moves
  cases set : change.locator? with
  | some other => simp
  | none =>
    simp only [Option.getD_none, reduceCtorEq, false_or, true_and]
    by_cases cleared : change.clears before = true
    · simp only [cleared, if_true]
      constructor
      · exact fun same => absurd same.symm present
      · rintro ⟨kept, rfl⟩
        rw [cleared] at kept
        cases kept
    · simp only [cleared]
      constructor
      · rintro rfl
        exact ⟨by simpa using cleared, rfl⟩
      · exact fun given => given.2

theorem located_nil {locator : Locator Address} : ¬ Located locator [] := by
  rintro ⟨before, change, after, split, _⟩
  simp at split

theorem located_append_singleton {locator : Locator Address} :
    Located locator (changes ++ [change]) ↔ change.locator? = some locator ∨
      change.locator? = none ∧ change.clears locator = false ∧ Located locator changes := by
  constructor
  · rintro ⟨before, setter, after, split, sets, kept⟩
    rcases after.eq_nil_or_concat with rfl | ⟨rest, last, rfl⟩
    · obtain ⟨rfl, same⟩ := List.append_inj' split rfl
      cases same
      exact .inl sets
    · rw [List.concat_eq_append, ← List.cons_append, ← List.append_assoc] at split
      obtain ⟨rfl, same⟩ := List.append_inj' split rfl
      cases same
      have end_kept := kept change (by simp)
      exact .inr ⟨end_kept.1, end_kept.2, before, setter, rest, rfl, sets,
        fun later mem => kept later (by simp [mem])⟩
  · rintro (sets | ⟨unset, uncleared, before, setter, after, rfl, sets, kept⟩)
    · exact ⟨changes, change, [], rfl, sets, fun later mem => by cases mem⟩
    · refine ⟨before, setter, after ++ [change], by simp, sets, ?_⟩
      intro later mem
      rcases List.mem_append.mp mem with old | new
      · exact kept later old
      · obtain rfl := List.mem_singleton.mp new
        exact ⟨unset, uncleared⟩

theorem getLast?_filterMap_append_singleton {α β : Type} (value? : α → Option β) (front : List α)
    (last : α) :
    ((front ++ [last]).filterMap value?).getLast? =
      (value? last).or (front.filterMap value?).getLast? := by
  cases given : value? last <;> simp [List.filterMap_append, given]

theorem Tells.extend {key : WorkspaceKey} (tells : builder.Tells key changes)
    (becomes : builder.Becomes change next) : next.Tells key (changes ++ [change]) := by
  constructor
  case workspace => exact becomes.workspace.trans tells.workspace
  case object => rw [becomes.object, tells.object, getLast?_filterMap_append_singleton]
  case version =>
    rw [becomes.version, tells.version, getLast?_filterMap_append_singleton]
    cases change.version? <;> rfl
  case subset =>
    rw [becomes.subset, tells.subset, getLast?_filterMap_append_singleton]
    cases change.subset? <;> rfl
  case located =>
    intro locator present
    rw [becomes.locator, Change.moves_eq_iff present, tells.located locator present,
      located_append_singleton]

theorem Tells.foldl {key : WorkspaceKey} (tells : builder.Tells key changes)
    (later : List Change) :
    (later.foldl keep builder).Tells key (changes ++ builder.taken later) := by
  induction later generalizing builder changes with
  | nil => simpa [taken] using tells
  | cons change rest ih =>
    rw [List.foldl_cons, keep, taken]
    cases made : builder.change change with
    | error cause => exact ih tells
    | ok next => simpa using ih (tells.extend (change_becomes made))

theorem start_tells (key : WorkspaceKey) : AddressBuilder.Tells { workspace := key } key [] := by
  refine ⟨rfl, rfl, rfl, rfl, ?_⟩
  intro locator present
  constructor
  · exact fun same => absurd same.symm present
  · exact fun located => absurd located located_nil

theorem ran_tells (key : WorkspaceKey) (changes : List Change) :
    (ran key changes).Tells key (took key changes) :=
  (start_tells key).foldl changes

theorem mem_taken (mem : change ∈ builder.taken changes) :
    change ∈ changes ∧ ∃ earlier next : AddressBuilder, earlier.change change = .ok next := by
  induction changes generalizing builder with
  | nil => cases mem
  | cons first rest ih =>
    rw [taken] at mem
    cases made : builder.change first with
    | error cause =>
      rw [made] at mem
      exact ⟨List.mem_cons_of_mem _ (ih mem).1, (ih mem).2⟩
    | ok next =>
      rw [made] at mem
      rcases List.mem_cons.mp mem with rfl | later
      · exact ⟨List.mem_cons_self, builder, next, made⟩
      · exact ⟨List.mem_cons_of_mem _ (ih later).1, (ih later).2⟩

theorem object_valid (fits : change.Fits) (made : builder.change change = .ok next)
    {object : ObjectKey} (names : change.object? = some object) : object.Valid := by
  cases change with
  | name text exclusive =>
    obtain ⟨text, rfl, rfl⟩ := Option.map_eq_some_iff.mp names
    exact .name (withName_ok made).1
  | id number exclusive =>
    obtain ⟨number, rfl, rfl⟩ := Option.map_eq_some_iff.mp names
    have upper := fits number rfl
    have positive := (withId_ok made).1
    exact .id (by omega) (by omega)
  | version | path | lookup | subset | rebuild => cases names

theorem version_valid (made : builder.change change = .ok next) {version : Nat}
    (tells : change.version? = some (some version)) :
    0 < version ∧ version < Text.versionBound := by
  cases change with
  | version number =>
    obtain ⟨number, rfl, rfl⟩ := Option.map_eq_some_iff.mp (Option.some.inj tells)
    obtain ⟨positive, small, _⟩ := withVersion_ok made
    exact ⟨by omega, small⟩
  | name | id | path | lookup | subset | rebuild => cases tells

theorem isSome_build_iff :
    (∃ address, builder.build = .ok address) ↔ builder.object.isSome = true := by
  unfold build
  cases builder.object with
  | none => simp
  | some object => simp

theorem slots_withName (builder : AddressBuilder) (name : Option String) (exclusive : Bool) :
    builder.slots.withName name exclusive = (builder.withName name exclusive).map slots := by
  cases name with
  | none => rfl
  | some name =>
    by_cases other : exclusive ∧ builder.id?.isSome
    · simp only [Slots.withName, withName, slots, other, and_self, if_true, Except.map]
    · simp only [Slots.withName, withName, slots, other, if_false]
      cases Name.checkObject name <;> rfl

theorem slots_withId (builder : AddressBuilder) (id : Option Int) (exclusive : Bool) :
    builder.slots.withId id exclusive = (builder.withId id exclusive).map slots := by
  cases id with
  | none => rfl
  | some id =>
    by_cases other : exclusive ∧ builder.name?.isSome
    · simp only [Slots.withId, withId, slots, other, and_self, if_true, Except.map]
    · simp only [Slots.withId, withId, slots, other, if_false]
      by_cases small : id < 1
      · simp only [small, if_true, Except.map]
      · simp only [small, if_false]
        rfl

theorem object_slots (builder : AddressBuilder) :
    builder.slots.object = builder.build.map Address.object := by
  simp only [slots, name?, id?, build]
  cases builder.object with
  | none => rfl
  | some object => cases object <;> rfl

theorem slots_congr (same : next.object = builder.object) : next.slots = builder.slots := by
  simp only [slots, name?, id?, same]

theorem slots_keep (builder : AddressBuilder) (change : Change) :
    (builder.keep change).slots = builder.slots.keep change := by
  have told : builder.slots.change change = (builder.change change).map slots ∨
      builder.slots.change change = .ok builder.slots ∧
        ∀ next, builder.change change = .ok next → next.slots = builder.slots := by
    cases change with
    | name name exclusive => exact .inl (builder.slots_withName name exclusive)
    | id id exclusive => exact .inl (builder.slots_withId id exclusive)
    | rebuild =>
      left
      simp only [Slots.change, AddressBuilder.change, object_slots]
      cases builder.build <;> rfl
    | version | path | lookup | subset =>
      exact .inr ⟨rfl, fun next made => slots_congr (change_becomes made).object⟩
  rw [keep, Slots.keep]
  rcases told with same | ⟨still, kept⟩
  · rw [same]
    cases builder.change change <;> rfl
  · rw [still]
    cases made : builder.change change with
    | error cause => rfl
    | ok next => exact kept next made

theorem slots_foldl (builder : AddressBuilder) (changes : List Change) :
    (changes.foldl keep builder).slots = changes.foldl Slots.keep builder.slots := by
  induction changes generalizing builder with
  | nil => rfl
  | cons change rest ih => rw [List.foldl_cons, ih, slots_keep, List.foldl_cons]

theorem slots_exclusive (builder : AddressBuilder) :
    ¬ (builder.slots.name.isSome = true ∧ builder.slots.id.isSome = true) := by
  simp only [slots, name?, id?]
  cases builder.object with
  | none => simp
  | some object => cases object <;> simp [ObjectKey.name?, ObjectKey.id?]

theorem Located.proper {locator : Locator Address} (located : Located locator changes) :
    locator ≠ .direct ∧ locator ≠ .path [] := by
  obtain ⟨_, change, _, _, sets, _⟩ := located
  unfold Change.locator? at sets
  split at sets
  · cases sets
    simp
  · cases sets
    simp
  · cases sets

theorem Tells.ne_empty_path {key : WorkspaceKey} (tells : builder.Tells key changes) :
    builder.locator ≠ .path [] := fun empty =>
  ((tells.located _ (by simp)).mp empty).proper.2 rfl

theorem Tells.direct_iff {key : WorkspaceKey} (tells : builder.Tells key changes) :
    builder.locator = .direct ↔ ∀ locator, ¬ Located locator changes := by
  constructor
  · intro direct locator located
    have same := (tells.located locator located.proper.1).mpr located
    exact located.proper.1 (same.symm.trans direct)
  · intro nowhere
    cases present : builder.locator with
    | direct => rfl
    | path hops => exact absurd ((tells.located _ (by simp)).mp present) (nowhere _)
    | lookup => exact absurd ((tells.located _ (by simp)).mp present) (nowhere _)

theorem Tells.exists_build_iff {key : WorkspaceKey} (tells : builder.Tells key changes) :
    (∃ address, builder.build = .ok address) ↔
      ∃ change ∈ changes, change.object?.isSome = true := by
  rw [isSome_build_iff, tells.object, List.getLast?_isSome, ne_eq, List.filterMap_eq_nil_iff]
  simp [Option.isSome_iff_ne_none]

theorem exists_last_iff {address : Address} (filled : address.locator ≠ .path []) :
    (∃ hop, address.last = .ok hop) ↔ address.hasPath = true := by
  unfold Address.last Address.hops Address.hasPath
  cases located : address.locator with
  | direct | lookup => simp
  | path hops =>
    cases ends : hops.getLast? with
    | none => exact absurd (located.trans (by rw [List.getLast?_eq_none_iff.mp ends])) filled
    | some hop => simp

structure Gives (builder : AddressBuilder) (address : Address) : Prop where
  parts : address.toBuilder = builder
  object : address.object.Valid
  version : ∀ version ∈ address.version, 0 < version ∧ version < Text.versionBound
  last : (∃ hop, address.last = .ok hop) ↔ address.hasPath = true
  again : address.toBuilder.build = .ok address

theorem gives_of_tells {key : WorkspaceKey} (tells : builder.Tells key changes)
    (accepted : ∀ change ∈ changes, change.Fits ∧
      ∃ earlier next : AddressBuilder, earlier.change change = .ok next)
    {address : Address} (built : builder.build = .ok address) : builder.Gives address := by
  obtain rfl := build_ok built
  constructor
  case parts => rfl
  case object =>
    have told : (changes.filterMap Change.object?).getLast? = some address.object :=
      tells.object.symm
    obtain ⟨change, mem, names⟩ := List.mem_filterMap.mp (List.mem_of_getLast? told)
    obtain ⟨fits, _, _, made⟩ := accepted change mem
    exact object_valid fits made names
  case version =>
    intro version pinned
    have told : (changes.filterMap Change.version?).getLast? = some (some version) :=
      Option.join_eq_some_iff.mp (tells.version.symm.trans pinned)
    obtain ⟨change, mem, pins⟩ := List.mem_filterMap.mp (List.mem_of_getLast? told)
    obtain ⟨_, _, _, made⟩ := accepted change mem
    exact version_valid made pins
  case last => exact exists_last_iff tells.ne_empty_path
  case again => exact build_toBuilder address

-- Each field is what the last effective change of it set.
theorem changes_told (key : WorkspaceKey) (changes : List Change)
    (fits : ∀ change ∈ changes, change.Fits) :
    (ran key changes).Tells key (took key changes) ∧
      ((ran key changes).locator = .direct ↔ ∀ locator, ¬ Located locator (took key changes)) ∧
      (ran key changes).locator ≠ .path [] ∧
      (changes.foldl Slots.keep {} = (ran key changes).slots ∧
        (ran key changes).slots.object = (ran key changes).build.map Address.object ∧
        ¬ ((ran key changes).slots.name.isSome = true ∧
          (ran key changes).slots.id.isSome = true)) ∧
      ((∃ address, (ran key changes).build = .ok address) ↔
        ∃ change ∈ took key changes, change.object?.isSome = true) ∧
      ∀ address, (ran key changes).build = .ok address → (ran key changes).Gives address := by
  have tells := ran_tells key changes
  refine ⟨tells, tells.direct_iff, tells.ne_empty_path, ⟨?_, ?_, ?_⟩, tells.exists_build_iff, ?_⟩
  · exact (slots_foldl { workspace := key } changes).symm
  · exact object_slots _
  · exact slots_exclusive _
  · intro address built
    refine gives_of_tells tells ?_ built
    intro change mem
    obtain ⟨asked, accepted⟩ := mem_taken mem
    exact ⟨fits change asked, accepted⟩

namespace Sample

def hop : Address := .mk ⟨.id 2, .name "target", none, {}⟩ .direct

def asked : List Change :=
  [.name (some "draft") false, .id (some 5) true, .id (some 6) false, .version (some 3),
    .path [hop], .lookup false, .path [], .version (some 0), .lookup true, .path [], .rebuild,
    .name none true]

def address : Address := .mk ⟨.id 7, .id 6, some 3, {}⟩ .lookup

end Sample

theorem sample_changes_told :
    (∀ change ∈ Sample.asked, change.Fits) ∧
      (took (.id 7) Sample.asked).length = 10 ∧
      (ran (.id 7) Sample.asked).build = .ok Sample.address ∧
      (ran (.id 7) Sample.asked).Gives Sample.address ∧
      Located .lookup (took (.id 7) Sample.asked) ∧
      Sample.asked.foldl Slots.keep {} = ⟨none, some 6⟩ := by
  have fits : ∀ change ∈ Sample.asked, change.Fits := by
    simp [Sample.asked, Change.Fits, Text.Fits, Text.signedBound]
  have built : (ran (.id 7) Sample.asked).build = .ok Sample.address := rfl
  have told := changes_told (.id 7) Sample.asked fits
  refine ⟨fits, rfl, built, told.2.2.2.2.2 _ built, ?_, told.2.2.2.1.1⟩
  exact (told.1.located .lookup (by simp)).mp rfl

end ObjectSpace.AddressBuilder
