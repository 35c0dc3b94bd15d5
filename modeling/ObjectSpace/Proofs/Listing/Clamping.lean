import ObjectSpace.Proofs.Address.Spelling
import ObjectSpace.Proofs.Listing.Resumption

set_option autoImplicit false

namespace ObjectSpace.Cursor

-- Unlike a reference, a place may have a version above 32 bits.
structure Place where
  workspace : Nat
  object : Nat
  version : Nat

namespace Place

def Before (place : Place) (reference : Reference) : Prop :=
  place.workspace < reference.workspace ∨
    place.workspace = reference.workspace ∧
      (place.object < reference.object ∨
        place.object = reference.object ∧ reference.version < place.version)

instance (place : Place) (reference : Reference) : Decidable (place.Before reference) :=
  inferInstanceAs (Decidable (_ ∨ _))

def Tops (place : Place) (reference : Reference) : Prop :=
  reference.workspace = place.workspace ∧ reference.object = place.object ∧
    reference.version = Text.versionBound - 1

structure Askable (place : Place) : Prop where
  workspace_pos : 0 < place.workspace
  object_pos : 0 < place.object
  version_pos : 0 < place.version
  workspace_lt : place.workspace < Text.signedBound
  object_lt : place.object < Text.signedBound
  version_lt : place.version < Text.signedBound

def clamped (place : Place) : Place :=
  { place with version := min place.version (Text.versionBound - 1) }

def cursor (place : Place) : Cursor where
  workspace := some place.workspace
  object := some place.object
  version := some place.clamped.version

def SpelledIn (place : Place) (text : String) : Prop :=
  ∃ workspace object version, Address.partsIn text.toList = [workspace, object, version] ∧
    Text.Unsigned workspace place.workspace ∧ Text.Unsigned object place.object ∧
    Text.Unsigned version place.version

def toString (place : Place) : String :=
  ToString.toString place.workspace ++ "/" ++ ToString.toString place.object
    ++ "/" ++ ToString.toString place.version

def toAddress (place : Place) : Address :=
  .mk ⟨.id place.workspace, .id place.object, some place.version, {}⟩ .direct

def ofReference (reference : Reference) : Place :=
  ⟨reference.workspace, reference.object, reference.version⟩

variable {place : Place} {text : String}

theorem ofReference_before_iff {left right : Reference} :
    (ofReference left).Before right ↔ left.ListedLess right := by
  rw [Reference.ListedLess, ne_eq, Reference.eq_iff_parts, Reference.listedBefore, Before,
    ofReference]
  grind

theorem Askable.exists_last (askable : place.Askable) :
    ∃ last : Reference, last.IdsFit ∧ place.cursor = .ofReference last ∧
      ofReference last = place.clamped := by
  have bound : Text.versionBound = 4294967296 := rfl
  have version_pos := askable.version_pos
  have clamped : 0 < place.clamped.version ∧ place.clamped.version < Text.versionBound := by
    simp only [Place.clamped]
    omega
  exact ⟨⟨place.workspace, place.object, place.clamped.version, askable.workspace_pos,
    askable.object_pos, clamped.1, clamped.2⟩, ⟨askable.workspace_lt, askable.object_lt⟩, rfl, rfl⟩

theorem Askable.admits_iff (askable : place.Askable) (reference : Reference) :
    place.cursor.admits reference = true ↔ place.clamped.Before reference := by
  obtain ⟨last, fits, same, clamped⟩ := askable.exists_last
  rw [same, Cursor.admits_ofReference fits, ← ofReference_before_iff, clamped]

-- Only the largest version tells the place from its clamped form.
theorem before_clamped_iff (beyond : Text.versionBound ≤ place.version) (reference : Reference) :
    place.clamped.Before reference ↔ place.Before reference ∧ ¬ place.Tops reference := by
  have version_lt := reference.version_lt
  simp only [Before, Tops, clamped]
  omega

theorem Askable.ofParts_eq (askable : place.Askable) :
    Cursor.ofParts (some place.workspace) (some place.object) (some place.version) =
      .ok place.cursor := by
  simp [Cursor.ofParts, cursor, clamped, Cursor.positive_natCast askable.workspace_pos,
    Cursor.positive_natCast askable.object_pos, Cursor.positive_natCast askable.version_pos]

theorem Askable.parse_eq (askable : place.Askable) (spelled : place.SpelledIn text) :
    Cursor.parse text = .ok place.cursor := by
  obtain ⟨_, _, _, cut, workspace_spelled, object_spelled, version_spelled⟩ := spelled
  simp only [Address.partsIn, List.map_eq_cons_iff, List.map_eq_nil_iff] at cut
  obtain ⟨workspace, _, cut, rfl, object, _, rfl, rfl, version, _, rfl, rfl, rfl⟩ := cut
  have workspace_read := reads_iff.mpr (workspace_spelled.literal askable.workspace_lt)
  have object_read := reads_iff.mpr (object_spelled.literal askable.object_lt)
  have version_read := reads_iff.mpr (version_spelled.literal askable.version_lt)
  have whole : tokens text.toList = [workspace, object, version] := by
    refine (congrArg (Text.dropEnd List.isEmpty) cut).trans ?_
    rw [Text.dropEnd_cons_of_neg workspace_read.filled, Text.dropEnd_cons_of_neg object_read.filled,
      Text.dropEnd_cons_of_neg version_read.filled, Text.dropEnd_nil]
  have listed : Lists text.toList [(place.workspace : Int), place.object, place.version] := by
    rw [lists_iff, whole]
    exact .cons workspace_read (.cons object_read (.cons version_read .nil))
  exact parse_ok_iff.mpr ⟨_, .listed listed (by simp), askable.ofParts_eq⟩

theorem spelledIn_toString (place : Place) : place.SpelledIn place.toString := by
  have legible : ∀ part ∈ place.toAddress.parts, Address.Legible part :=
    Address.legible_parts (Address.legible_number _) (Address.legible_number _)
  have cut := Address.partsIn_toString legible
  have written : place.toAddress.toString = place.toString := String.append_assoc.symm
  rw [written] at cut
  exact ⟨_, _, _, cut, .toString _, .toString _, .toString _⟩

theorem beyond_admits_all_but_one (askable : place.Askable)
    (beyond : Text.versionBound ≤ place.version) :
    Cursor.ofParts (some place.workspace) (some place.object) (some place.version) =
        .ok place.cursor ∧
      Cursor.parse place.toString = .ok place.cursor ∧
      (∀ text, place.SpelledIn text → Cursor.parse text = .ok place.cursor) ∧
      (∀ reference, place.cursor.admits reference = true ↔
        place.Before reference ∧ ¬ place.Tops reference) ∧
      ∀ reference : Reference, reference.workspace = place.workspace →
        reference.object = place.object →
          (place.cursor.admits reference = true ↔ reference.version < Text.versionBound - 1) := by
  have admitted : ∀ reference, place.cursor.admits reference = true ↔
      place.Before reference ∧ ¬ place.Tops reference :=
    fun reference => (askable.admits_iff reference).trans (before_clamped_iff beyond reference)
  refine ⟨askable.ofParts_eq, askable.parse_eq place.spelledIn_toString,
    fun text => askable.parse_eq, admitted, ?_⟩
  intro reference in_workspace in_object
  have version_lt := reference.version_lt
  simp only [admitted, Before, Tops]
  omega

namespace Sample

def oversized : Place := ⟨6, 24, 99999999999⟩

end Sample

theorem sample_beyond_admits :
    Sample.oversized.Askable ∧ Text.versionBound ≤ Sample.oversized.version ∧
      Cursor.parse "6/24/99999999999" =
        .ok { workspace := some 6, object := some 24, version := some 4294967295 } ∧
      ∀ reference : Reference, reference.workspace = 6 → reference.object = 24 →
        (Sample.oversized.cursor.admits reference = true ↔ reference.version < 4294967295) := by
  have askable : Sample.oversized.Askable := by
    constructor <;> decide
  have beyond : Text.versionBound ≤ Sample.oversized.version := by decide
  obtain ⟨_, read, _, _, in_object⟩ := beyond_admits_all_but_one askable beyond
  exact ⟨askable, beyond, read, in_object⟩

theorem sample_top_passed_over :
    Cursor.ofParts (some 6) (some 24) (some 99999999999) = .ok Sample.oversized.cursor ∧
      ∃ top : Reference, top.workspace = 6 ∧ top.object = 24 ∧ top.version = 4294967295 ∧
        Sample.oversized.Before top ∧ Sample.oversized.cursor.admits top = false :=
  ⟨rfl, ⟨6, 24, 4294967295, by decide, by decide, by decide, by decide⟩, rfl, rfl, rfl,
    by decide, by decide⟩

end Place

end ObjectSpace.Cursor
