import ObjectSpace.Proofs.Address.RoundTrip
import ObjectSpace.Proofs.Listing.Page

set_option autoImplicit false

namespace ObjectSpace

namespace Address

variable {part : List Char} {id : Nat}

theorem SpellsWorkspace.number (spells : SpellsWorkspace part (.id id)) :
    Text.Unsigned part id ∧ id < Text.signedBound := by
  cases spells with
  | id literal positive => exact literal.unsigned positive

theorem SpellsObject.number (spells : SpellsObject part (.id id)) :
    Text.Unsigned part id ∧ id < Text.signedBound := by
  cases spells with
  | id literal positive => exact literal.unsigned positive

end Address

namespace Reference

def IdsHeld (reference : Reference) : Prop :=
  reference.workspace < Text.idBound ∧ reference.object < Text.idBound

instance (reference : Reference) : Decidable reference.IdsFit :=
  inferInstanceAs (Decidable (_ ∧ _))

instance (reference : Reference) : Decidable reference.IdsHeld :=
  inferInstanceAs (Decidable (_ ∧ _))

structure SpelledBy (reference : Reference) (workspace object version : List Char) : Prop where
  workspace : Text.Unsigned workspace reference.workspace
  object : Text.Unsigned object reference.object
  version : Text.Unsigned version reference.version

def toAddress (reference : Reference) : Address :=
  .mk ⟨.id reference.workspace, .id reference.object, some reference.version, {}⟩ .direct

variable {reference : Reference} {address : Address}

theorem IdsFit.held (fits : reference.IdsFit) : reference.IdsHeld := by
  have below : Text.signedBound < Text.idBound := by decide
  exact ⟨Nat.lt_trans fits.1 below, Nat.lt_trans fits.2 below⟩

theorem ofParts_eq_ok_iff {workspace object version : Nat} :
    ofParts workspace object version = .ok reference ↔
      workspace = reference.workspace ∧ object = reference.object ∧
        version = reference.version := by
  constructor
  · intro made
    obtain ⟨rfl, rfl, rfl⟩ := Store.ofParts_eq_ok made
    exact ⟨rfl, rfl, rfl⟩
  · rintro ⟨rfl, rfl, rfl⟩
    exact ofParts_parts reference

theorem ofText?_eq_some_iff {text : List Char} :
    ofText? text = some reference ↔ ∃ workspace object version,
      Address.partsIn text = [workspace, object, version] ∧
        reference.SpelledBy workspace object version ∧ reference.IdsHeld := by
  have small := reference.version_lt
  have read : ∀ workspace object version,
      (do
        let workspace ← Text.unsigned? Text.idBound workspace
        let object ← Text.unsigned? Text.idBound object
        let version ← Text.unsigned? Text.versionBound version
        (ofParts workspace object version).toOption) = some reference ↔
      reference.SpelledBy workspace object version ∧ reference.IdsHeld := by
    intro workspace object version
    simp only [Option.bind_eq_bind, Option.bind_eq_some_iff, Text.unsigned?_eq_some_iff,
      toOption_eq_some_iff, ofParts_eq_ok_iff]
    constructor
    · rintro ⟨_, ⟨first, first_lt⟩, _, ⟨second, second_lt⟩, _, ⟨third, _⟩, rfl, rfl, rfl⟩
      exact ⟨⟨first, second, third⟩, first_lt, second_lt⟩
    · rintro ⟨spelled, held⟩
      exact ⟨_, ⟨spelled.workspace, held.1⟩, _, ⟨spelled.object, held.2⟩, _,
        ⟨spelled.version, small⟩, rfl, rfl, rfl⟩
  unfold ofText?
  split
  next workspace object version cut =>
    have parts : Address.partsIn text = [workspace, object, version] := cut
    refine (read workspace object version).trans ?_
    simp [parts]
  next other =>
    constructor
    · intro none
      cases none
    · rintro ⟨workspace, object, version, cut, _⟩
      exact absurd cut (other workspace object version)

theorem parse_eq_ok_iff {text : String} :
    parse text = .ok reference ↔ ∃ workspace object version,
      Address.partsIn text.toList = [workspace, object, version] ∧
        reference.SpelledBy workspace object version ∧ reference.IdsHeld := by
  rw [← ofText?_eq_some_iff, parse]
  split
  next blank =>
    have parts : Address.partsIn text.toList = [[]] := by
      rw [← Address.partsIn_trim, blank]
      rfl
    have unread : ofText? text.toList ≠ some reference := by
      rw [Ne, ofText?_eq_some_iff, parts]
      simp
    simp [unread]
  next =>
    cases ofText? text.toList <;> simp

theorem reference?_eq_some_iff :
    address.reference? = some reference ↔ address.workspace = .id reference.workspace ∧
      address.object = .id reference.object ∧ address.version = some reference.version := by
  obtain ⟨⟨workspace, object, version, subset⟩, locator⟩ := address
  cases workspace <;> cases object <;> cases version <;>
    simp [Address.reference?, Address.workspace, Address.object, Address.version, Address.target,
      WorkspaceKey.id?, ObjectKey.id?, toOption_eq_some_iff, ofParts_eq_ok_iff]

theorem toAddress_reference? (reference : Reference) :
    reference.toAddress.reference? = some reference :=
  reference?_eq_some_iff.mpr ⟨rfl, rfl, rfl⟩

theorem SpelledBy.standsFor {workspace object version : List Char}
    (spelled : reference.SpelledBy workspace object version) (fits : reference.IdsFit) :
    Address.StandsFor [workspace, object, version] reference.toAddress := by
  have bound : Text.versionBound = 4294967296 := rfl
  have below : Text.versionBound < Text.signedBound := by decide
  have workspace_pos := reference.workspace_pos
  have object_pos := reference.object_pos
  have version_pos := reference.version_pos
  have version_lt := reference.version_lt
  have within := Address.SpellsWorkspace.id (spelled.workspace.literal fits.1) (by omega)
  have calls := Address.SpellsObject.id (spelled.object.literal fits.2) (by omega)
  have pins : Address.SpellsVersion version reference.version :=
    ⟨spelled.version.literal (by omega), by omega, by omega⟩
  exact .pinned within calls pins

theorem SpelledBy.reference?_of_standsFor {workspace object version : List Char}
    (spelled : reference.SpelledBy workspace object version)
    (stands : Address.StandsFor [workspace, object, version] address)
    (absolute : address.isAbsolute = true) : address.reference? = some reference := by
  obtain ⟨first, second, within, calls⟩ := Address.isAbsolute_iff.mp absolute
  cases stands with
  | @pinned _ _ _ key called number workspace_spelled object_spelled pins =>
    obtain rfl : key = .id first := within
    obtain rfl : called = .id second := calls
    have first_eq := spelled.workspace.unique workspace_spelled.number.1
    have second_eq := spelled.object.unique object_spelled.number.1
    have third_eq := spelled.version.unique (pins.literal.unsigned pins.positive).1
    rw [reference?_eq_some_iff, first_eq, second_eq, third_eq]
    exact ⟨rfl, rfl, rfl⟩

theorem idsFit_of_standsFor {parts : List (List Char)} (stands : Address.StandsFor parts address)
    (named : address.reference? = some reference) : reference.IdsFit := by
  obtain ⟨within, calls, _⟩ := reference?_eq_some_iff.mp named
  cases stands with
  | @latest _ _ key called workspace_spelled object_spelled
  | @pinned _ _ _ key called _ workspace_spelled object_spelled =>
    obtain rfl : key = .id reference.workspace := within
    obtain rfl : called = .id reference.object := calls
    exact ⟨workspace_spelled.number.2, object_spelled.number.2⟩

theorem toString_eq (named : address.reference? = some reference) :
    address.toString = reference.toString := by
  obtain ⟨within, calls, numbered⟩ := reference?_eq_some_iff.mp named
  simp only [Address.toString, within, calls, numbered]
  exact String.append_assoc.symm

theorem parse_toString (held : reference.IdsHeld) :
    parse reference.toString = .ok reference := by
  have legible : ∀ part ∈ reference.toAddress.parts, Address.Legible part :=
    Address.legible_parts (Address.legible_number _) (Address.legible_number _)
  have cut := Address.partsIn_toString legible
  rw [toString_eq (toAddress_reference? reference)] at cut
  exact parse_eq_ok_iff.mpr
    ⟨_, _, _, cut, ⟨.toString _, .toString _, .toString _⟩, held⟩

theorem parse_address_iff {text : String} {workspace object version : List Char}
    (cut : Address.partsIn text.toList = [workspace, object, version])
    (spelled : reference.SpelledBy workspace object version) :
    Address.parse text = .ok address ↔ Address.StandsFor [workspace, object, version] address := by
  have filled : ∀ part ∈ [workspace, object, version], part.isEmpty = false := by
    simp [spelled.workspace.ne_nil, spelled.object.ne_nil, spelled.version.ne_nil]
  rw [Address.parse_ok_iff, Address.readParts, cut, Text.dropEnd_of_none filled,
    toOption_eq_some_iff, Address.ofPieces_ok_iff_standsFor]

-- Ids of 64 bits are read as references but not as addresses.
theorem readings_agree (text : String) :
    (∀ reference, parse text = .ok reference →
      ((∃ address, Address.parse text true = .ok address ∧
          address.reference? = some reference) ↔ reference.IdsFit) ∧
        (¬ reference.IdsFit → ∃ cause, Address.parse text true = .error cause)) ∧
      (∀ absolute address reference, Address.parse text absolute = .ok address →
        address.reference? = some reference →
          reference.toString = address.toString ∧
            parse address.toString = .ok reference) ∧
      ∀ reference : Reference, reference.IdsHeld →
        parse reference.toString = .ok reference := by
  refine ⟨?_, ?_, fun reference => parse_toString⟩
  · intro reference read
    obtain ⟨workspace, object, version, cut, spelled, _⟩ := parse_eq_ok_iff.mp read
    have addressed : ∀ address, Address.parse text true = .ok address →
        address.reference? = some reference ∧ reference.IdsFit := by
      intro address absolute
      obtain ⟨found, both⟩ := Address.parse_absolute_iff.mp absolute
      have stands := (parse_address_iff cut spelled).mp found
      have named := spelled.reference?_of_standsFor stands both
      exact ⟨named, idsFit_of_standsFor stands named⟩
    refine ⟨⟨?_, ?_⟩, ?_⟩
    · rintro ⟨address, absolute, _⟩
      exact (addressed address absolute).2
    · intro fits
      have found := (parse_address_iff cut spelled).mpr (spelled.standsFor fits)
      exact ⟨reference.toAddress, Address.parse_absolute_iff.mpr ⟨found, rfl⟩,
        toAddress_reference? reference⟩
    · intro unfit
      cases absolute : Address.parse text true with
      | error cause => exact ⟨cause, rfl⟩
      | ok address => exact absurd (addressed address absolute).2 unfit
  · intro absolute address reference found named
    have plain : Address.parse text = .ok address := by
      cases absolute with
      | false => exact found
      | true => exact (Address.parse_absolute_iff.mp found).1
    obtain ⟨parts, _, stands⟩ := Address.parse_iff_spells.mp plain
    have fits := idsFit_of_standsFor stands named
    rw [toString_eq named]
    exact ⟨rfl, parse_toString fits.held⟩

namespace Sample

def padded : String := " 31/ +24 /05"

def beyond : String := "9223372036854775808/41/43"

def named : Reference := ⟨31, 24, 5, by decide, by decide, by decide, by decide⟩

def unfit : Reference := ⟨9223372036854775808, 41, 43, by decide, by decide, by decide, by decide⟩

end Sample

theorem sample_readings_agree :
    parse Sample.padded = .ok Sample.named ∧ Sample.named.IdsFit ∧
      (∃ address, Address.parse Sample.padded true = .ok address ∧
        address.reference? = some Sample.named ∧ address.toString = "31/24/5") ∧
      parse "31/24/5" = .ok Sample.named ∧
      parse Sample.beyond = .ok Sample.unfit ∧ ¬ Sample.unfit.IdsFit ∧
      (∃ cause, Address.parse Sample.beyond true = .error cause) ∧
      parse Sample.unfit.toString = .ok Sample.unfit := by
  have read : parse Sample.padded = .ok Sample.named :=
    toOption_eq_some_iff.mp (by decide +kernel)
  have read' : parse Sample.beyond = .ok Sample.unfit :=
    toOption_eq_some_iff.mp (by decide +kernel)
  have fits : Sample.named.IdsFit := by decide
  have unfit : ¬ Sample.unfit.IdsFit := by decide
  have held : Sample.unfit.IdsHeld := by decide
  obtain ⟨onward, back, _⟩ := readings_agree Sample.padded
  obtain ⟨refused, _, written⟩ := readings_agree Sample.beyond
  obtain ⟨address, found, spelled⟩ := (onward _ read).1.mpr fits
  obtain ⟨same, again⟩ := back true address Sample.named found spelled
  have text : Sample.named.toString = "31/24/5" := by decide
  rw [← same, text] at again
  exact ⟨read, fits, ⟨address, found, spelled, same ▸ text⟩, again, read', unfit,
    (refused _ read').2 unfit, written _ held⟩

end Reference

end ObjectSpace
