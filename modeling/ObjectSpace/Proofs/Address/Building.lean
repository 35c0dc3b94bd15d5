import ObjectSpace.Proofs.Address.Grammar

set_option autoImplicit false

namespace ObjectSpace

inductive WorkspaceKey.Valid : WorkspaceKey → Prop where
  | id {number : Nat} (positive : 0 < number) (small : number < Text.signedBound) :
      Valid (.id number)
  | name {text : String} (valid : Name.checkWorkspace text = .ok ()) : Valid (.name text)

inductive ObjectKey.Valid : ObjectKey → Prop where
  | id {number : Nat} (positive : 0 < number) (small : number < Text.signedBound) :
      Valid (.id number)
  | name {text : String} (valid : Name.checkObject text = .ok ()) : Valid (.name text)

inductive WorkspaceKey.Made (key : WorkspaceKey) : Prop where
  | id {number : Int} (fits : Text.Fits (some number)) (made : ofId number = .ok key) : Made key
  | name {text : String} (made : ofName text = .ok key) : Made key

theorem WorkspaceKey.Made.valid {key : WorkspaceKey} (made : key.Made) : key.Valid := by
  cases made with
  | @id number fits made =>
    have upper := fits number rfl
    unfold ofId at made
    split at made
    next => cases made
    next =>
      cases made
      exact .id (by omega) (by omega)
  | name made =>
    obtain ⟨_, valid, same⟩ := bind_eq_ok.mp made
    cases same
    exact .name valid

namespace AddressBuilder

-- To rebuild is to build the address and to start over from it.
inductive Change where
  | name (name : Option String) (exclusive : Bool)
  | id (id : Option Int) (exclusive : Bool)
  | version (version : Option Int)
  | path (hops : List Address)
  | lookup (lookup : Bool)
  | subset (subset : Option Subset)
  | rebuild

def Change.Fits : Change → Prop
  | .id number _ => Text.Fits number
  | _ => True

def change (builder : AddressBuilder) : Change → Except AddressError AddressBuilder
  | .name name exclusive => builder.withName name exclusive
  | .id id exclusive => builder.withId id exclusive
  | .version version => builder.withVersion version
  | .path hops => .ok (builder.withPath hops)
  | .lookup lookup => .ok (builder.withLookup lookup)
  | .subset subset => .ok (builder.withSubset subset)
  | .rebuild => builder.build.map Address.toBuilder

-- Refused changes are left out: they leave the builder as it was.
inductive Reached : AddressBuilder → Prop where
  | start {key : WorkspaceKey} (made : key.Made) : Reached { workspace := key }
  | changed {builder next : AddressBuilder} (reached : Reached builder) (change : Change)
      (fits : change.Fits) (made : builder.change change = .ok next) : Reached next

structure Valid (builder : AddressBuilder) : Prop where
  workspace : builder.workspace.Valid
  object : ∀ object ∈ builder.object, object.Valid
  version : ∀ version ∈ builder.version, 0 < version ∧ version < Text.versionBound

variable {builder next : AddressBuilder}

theorem withName_ok {name : String} {exclusive : Bool}
    (made : builder.withName (some name) exclusive = .ok next) :
    Name.checkObject name = .ok () ∧ next = { builder with object := some (.name name) } := by
  simp only [AddressBuilder.withName] at made
  split at made
  next => cases made
  next =>
    cases checked : Name.checkObject name with
    | error cause => simp [checked] at made
    | ok =>
      simp only [checked, Except.ok.injEq] at made
      exact ⟨rfl, made.symm⟩

theorem withId_ok {id : Int} {exclusive : Bool}
    (made : builder.withId (some id) exclusive = .ok next) :
    0 < id ∧ next = { builder with object := some (.id id.toNat) } := by
  simp only [AddressBuilder.withId] at made
  split at made
  next => cases made
  next =>
    split at made
    next => cases made
    next large =>
      cases made
      exact ⟨by omega, rfl⟩

theorem withVersion_ok {version : Int} (made : builder.withVersion (some version) = .ok next) :
    0 < version ∧ version.toNat < Text.versionBound ∧
      next = { builder with version := some version.toNat } := by
  simp only [AddressBuilder.withVersion] at made
  split at made
  next => cases made
  next large =>
    split at made
    next small =>
      cases made
      exact ⟨by omega, small, rfl⟩
    next => cases made

theorem Valid.withName (valid : builder.Valid) {name : Option String} {exclusive : Bool}
    (made : builder.withName name exclusive = .ok next) : next.Valid := by
  cases name with
  | none =>
    cases made
    exact valid
  | some name =>
    obtain ⟨checked, rfl⟩ := withName_ok made
    exact ⟨valid.workspace, by simpa using .name checked, valid.version⟩

theorem Valid.withId (valid : builder.Valid) {id : Option Int} {exclusive : Bool}
    (fits : Text.Fits id) (made : builder.withId id exclusive = .ok next) : next.Valid := by
  cases id with
  | none =>
    cases made
    exact valid
  | some id =>
    have upper := fits id rfl
    obtain ⟨positive, rfl⟩ := withId_ok made
    refine ⟨valid.workspace, ?_, valid.version⟩
    simpa using .id (by omega) (by omega)

theorem Valid.withVersion (valid : builder.Valid) {version : Option Int}
    (made : builder.withVersion version = .ok next) : next.Valid := by
  cases version with
  | none =>
    cases made
    exact ⟨valid.workspace, valid.object, by simp⟩
  | some version =>
    obtain ⟨positive, small, rfl⟩ := withVersion_ok made
    refine ⟨valid.workspace, valid.object, ?_⟩
    simp only [Option.mem_def, Option.some.injEq, forall_eq']
    omega

theorem withPath_parts (builder : AddressBuilder) (hops : List Address) :
    ∃ locator, builder.withPath hops = { builder with locator } := by
  unfold AddressBuilder.withPath
  split
  · exact ⟨_, rfl⟩
  · exact ⟨_, rfl⟩
  · exact ⟨_, rfl⟩

theorem withLookup_parts (builder : AddressBuilder) (lookup : Bool) :
    ∃ locator, builder.withLookup lookup = { builder with locator } := by
  unfold AddressBuilder.withLookup
  split
  · exact ⟨_, rfl⟩
  · exact ⟨_, rfl⟩
  · exact ⟨_, rfl⟩

theorem build_ok {address : Address} (built : builder.build = .ok address) :
    builder = address.toBuilder := by
  unfold build at built
  split at built
  next => cases built
  next object named =>
    cases built
    simp [Address.toBuilder, Address.workspace, Address.object, Address.version, Address.subset,
      Address.target, Address.locator, ← named]

theorem Valid.change (valid : builder.Valid) {change : Change} (fits : change.Fits)
    (made : builder.change change = .ok next) : next.Valid := by
  cases change with
  | name name exclusive => exact valid.withName made
  | id id exclusive => exact valid.withId fits made
  | version version => exact valid.withVersion made
  | path hops =>
    obtain ⟨locator, same⟩ := builder.withPath_parts hops
    simp only [AddressBuilder.change, same, Except.ok.injEq] at made
    exact made ▸ ⟨valid.workspace, valid.object, valid.version⟩
  | lookup lookup =>
    obtain ⟨locator, same⟩ := builder.withLookup_parts lookup
    simp only [AddressBuilder.change, same, Except.ok.injEq] at made
    exact made ▸ ⟨valid.workspace, valid.object, valid.version⟩
  | subset subset =>
    cases made
    exact ⟨valid.workspace, valid.object, valid.version⟩
  | rebuild =>
    cases built : builder.build with
    | error cause => simp [AddressBuilder.change, built, Except.map] at made
    | ok address =>
      simp only [AddressBuilder.change, built, Except.map, Except.ok.injEq] at made
      exact made ▸ build_ok built ▸ valid

theorem Reached.valid (reached : builder.Reached) : builder.Valid := by
  induction reached with
  | start made => exact ⟨made.valid, by simp, by simp⟩
  | changed _ change fits made ih => exact ih.change fits made

end AddressBuilder

end ObjectSpace
