import ObjectSpace.Proofs.Address.Building

set_option autoImplicit false

namespace ObjectSpace.Address

def within (address : Address) (key : WorkspaceKey) : Address :=
  .mk ⟨key, address.object, address.version, address.subset⟩ .direct

theorem within_workspace {address : Address} (direct : address.locator = .direct) :
    address.within address.workspace = address := by
  obtain ⟨target, locator⟩ := address
  obtain rfl : locator = .direct := direct
  rfl

theorem literal_decimal {number : Nat} (small : number < Text.signedBound) :
    Text.Literal (ToString.toString number).toList (number : Int) :=
  (Text.Unsigned.toString number).literal small

theorem not_literal_of_spellsObject {text : List Char} (spelled : Name.SpellsObject text)
    (number : Int) : ¬ Text.Literal text number := by
  intro literal
  have digits : ∀ {digits : List Char} {n : Nat}, Text.Numeral digits n →
      digits ≠ [] ∧ ∀ c ∈ digits, c.isDigit = true :=
    fun numeral => ⟨numeral.digits.1, by simpa using numeral.digits.2.1⟩
  cases literal.spelled with
  | bare numeral => exact spelled.word ⟨_, (digits numeral).1, (digits numeral).2, .inl rfl⟩
  | plus numeral => exact absurd (spelled.legal '+' List.mem_cons_self) (by decide)
  | minus numeral => exact spelled.word ⟨_, (digits numeral).1, (digits numeral).2, .inr rfl⟩

theorem spellsObject_of_valid {object : ObjectKey} (valid : object.Valid) :
    SpellsObject object.toString.toList object := by
  cases valid with
  | id positive small => exact .id (literal_decimal small) (by omega)
  | @name text valid =>
    have spelled := Name.checkObject_ok_iff.mp valid
    have named := SpellsObject.name (not_literal_of_spellsObject spelled) spelled
    rwa [String.ofList_toList] at named

theorem spellsVersion_of_valid {version : Nat} (positive : 0 < version)
    (small : version < Text.versionBound) :
    SpellsVersion (ToString.toString version).toList (version : Int) := by
  have bound : Text.versionBound = 4294967296 := rfl
  have below : Text.versionBound < Text.signedBound := by decide
  exact ⟨literal_decimal (by omega), by omega, by omega⟩

theorem spellsWorkspace_of_valid {key : WorkspaceKey} (valid : key.Valid)
    (word : ∀ text number, key = .name text → ¬ Text.Literal text.toList number) :
    SpellsWorkspace key.toString.toList key := by
  cases valid with
  | id positive small => exact .id (literal_decimal small) (by omega)
  | @name text valid =>
    have named := SpellsWorkspace.name (word text · rfl) (Name.checkWorkspace_ok_iff.mp valid)
    rwa [String.ofList_toList] at named

theorem legible_of_valid {key : WorkspaceKey} (valid : key.Valid) : Legible key.toString.toList := by
  cases valid with
  | id => exact legible_number _
  | name valid => exact legible_workspace valid

theorem parse_written {address : Address} (legible : ∀ part ∈ address.parts, Legible part) :
    parse address.toString = ofPieces address.toString address.parts := by
  have trimmed : partsIn (Text.trim address.toString.toList) = address.parts := by
    rw [partsIn_trim, partsIn_toString legible]
  have filled : Text.trim address.toString.toList ≠ [] := by
    intro empty
    rw [empty] at trimmed
    have several := congrArg List.length trimmed
    simp [partsIn, Text.pieces, parts] at several
  have whole : trimmedPieces Reference.separator (Text.trim address.toString.toList) =
      address.parts := by
    change Text.dropEnd List.isEmpty (partsIn _) = _
    rw [trimmed, dropEnd_parts legible]
  rw [parse, if_neg filled, whole]
  cases ofPieces address.toString address.parts <;> rfl

section Written

variable {address : Address}

theorem standsFor_parts {key : WorkspaceKey}
    (spells : SpellsWorkspace address.workspace.toString.toList key)
    (object : address.object.Valid)
    (version : ∀ version ∈ address.version, 0 < version ∧ version < Text.versionBound)
    (whole : address.subset = {}) :
    StandsFor address.parts (address.within key) := by
  obtain ⟨⟨workspace, called, numbered, subset⟩, locator⟩ := address
  obtain rfl : subset = {} := whole
  have calls := spellsObject_of_valid object
  cases numbered with
  | none => exact .latest spells calls
  | some number =>
    obtain ⟨positive, small⟩ := version number rfl
    exact .pinned spells calls (spellsVersion_of_valid positive small)

theorem legible_parts_of_valid (valid : address.toBuilder.Valid) :
    ∀ part ∈ address.parts, Legible part :=
  legible_parts (legible_of_valid valid.workspace)
    (spellsObject_of_valid (valid.object _ rfl)).legible

theorem parse_standsFor (valid : address.toBuilder.Valid) {other : Address}
    (stands : StandsFor address.parts other) : parse address.toString = .ok other := by
  rw [parse_written (legible_parts_of_valid valid)]
  exact ofPieces_ok_iff_standsFor.mpr stands

theorem parse_misnumbered (valid : address.toBuilder.Valid) {number : Int}
    (literal : Text.Literal address.workspace.toString.toList number) (small : number < 1) :
    parse address.toString = .error (.value (.notPositive .workspaceId)) := by
  have refused : workspaceKey address.workspace.toString.toList =
      .error (.notPositive .workspaceId) := by
    simp [workspaceKey, literal.signed?, WorkspaceKey.ofId, small]
  rw [parse_written (legible_parts_of_valid valid), parts]
  cases address.version with
  | none | some =>
    simp only [List.cons_append, List.nil_append, ofPieces, refused]
    rfl

end Written

-- An integer as the name of a workspace reads back as an id.
theorem parse_toString_iff {builder : AddressBuilder} {address : Address}
    (reached : builder.Reached) (built : builder.build = .ok address)
    (direct : address.locator = .direct) (whole : address.subset = {}) :
    (parse address.toString = .ok address ↔
        ¬ ∃ text number, address.workspace = .name text ∧ Text.Literal text.toList number) ∧
      ∀ text number, address.workspace = .name text → Text.Literal text.toList number →
        parse address.toString ≠ .ok address ∧
          (1 ≤ number → parse address.toString = .ok (address.within (.id number.toNat))) ∧
          (number < 1 → parse address.toString = .error (.value (.notPositive .workspaceId))) := by
  have valid : address.toBuilder.Valid := AddressBuilder.build_ok built ▸ reached.valid
  have object : address.object.Valid := valid.object _ rfl
  have numbered : ∀ text number, address.workspace = .name text →
      Text.Literal text.toList number → 1 ≤ number →
        parse address.toString = .ok (address.within (.id number.toNat)) := by
    intro text number named literal positive
    have spells : SpellsWorkspace address.workspace.toString.toList (.id number.toNat) := by
      rw [named]
      exact .id literal positive
    exact parse_standsFor valid (standsFor_parts spells object valid.version whole)
  have misnumbered : ∀ text number, address.workspace = .name text →
      Text.Literal text.toList number → number < 1 →
        parse address.toString = .error (.value (.notPositive .workspaceId)) := by
    intro text number named literal small
    have spelled : Text.Literal address.workspace.toString.toList number := by rwa [named]
    exact parse_misnumbered valid spelled small
  have changed : ∀ text number, address.workspace = .name text →
      Text.Literal text.toList number → parse address.toString ≠ .ok address := by
    intro text number named literal read
    by_cases positive : 1 ≤ number
    · have same := Except.ok.inj ((numbered text number named literal positive).symm.trans read)
      have key := congrArg Address.workspace same
      rw [named] at key
      cases key
    · rw [misnumbered text number named literal (by omega)] at read
      cases read
  refine ⟨⟨?_, ?_⟩, ?_⟩
  · rintro read ⟨text, number, named, literal⟩
    exact changed text number named literal read
  · intro word
    have spells := spellsWorkspace_of_valid valid.workspace
      fun text number named literal => word ⟨text, number, named, literal⟩
    have read := parse_standsFor valid (standsFor_parts spells object valid.version whole)
    exact read.trans (congrArg Except.ok (within_workspace direct))
  · intro text number named literal
    exact ⟨changed text number named literal, numbered text number named literal,
      misnumbered text number named literal⟩

namespace Sample

def numbered : Address :=
  .mk ⟨.name "007", .id 9223372036854775807, some 3, {}⟩ .direct

theorem numbered_reached : numbered.toBuilder.Reached := by
  have named : WorkspaceKey.ofName "007" = .ok (.name "007") :=
    toOption_eq_some_iff.mp (by decide +kernel)
  have fits : Text.Fits (some 9223372036854775807) := by
    intro number same
    cases same
    decide
  have first := (AddressBuilder.Reached.start (.name named)).changed
    (.name (some "a|b") true) trivial rfl
  have second := first.changed (.id (some 9223372036854775807) false) fits rfl
  exact (second.changed (.version (some 3)) trivial rfl).changed .rebuild trivial rfl

end Sample

theorem sample_parse_toString :
    Sample.numbered.toBuilder.Reached ∧
      Sample.numbered.toBuilder.build = .ok Sample.numbered ∧
      Sample.numbered.toString = "007/9223372036854775807/3" ∧
      parse "007/9223372036854775807/3" = .ok (Sample.numbered.within (.id 7)) ∧
      parse "007/9223372036854775807/3" ≠ .ok Sample.numbered := by
  have literal : Text.Literal "007".toList 7 := .of_signed? (by decide)
  have written : Sample.numbered.toString = "007/9223372036854775807/3" := by decide
  have built : Sample.numbered.toBuilder.build = .ok Sample.numbered := rfl
  obtain ⟨_, numbered⟩ := parse_toString_iff Sample.numbered_reached built rfl rfl
  obtain ⟨changed, moved, _⟩ := numbered "007" 7 rfl literal
  rw [written] at changed moved
  exact ⟨Sample.numbered_reached, built, written, moved (by decide), changed⟩

end ObjectSpace.Address
