import ObjectSpace.Json.Decode
import ObjectSpace.Json.Encode
import ObjectSpace.Proofs.Address.Absolute
import ObjectSpace.Proofs.Json.RoundTrip
import ObjectSpace.Proofs.Listing.Written

set_option autoImplicit false

namespace ObjectSpace

namespace Cursor

def Held (cursor : Cursor) : Prop := cursor.Each (· < Text.idBound) (· < Text.versionBound)

variable {cursor : Cursor}

theorem Held.made_iff (held : cursor.Held) : cursor.Made ↔
    cursor.Gapless ∧ cursor.Each (fun id => 0 < id ∧ id < Text.signedBound) (0 < ·) := by
  rw [Cursor.made_iff]
  constructor
  · rintro ⟨gapless, sound⟩
    exact ⟨gapless, sound.imp (fun _ => id) fun _ => And.left⟩
  · rintro ⟨gapless, each⟩
    exact ⟨gapless, each.workspace, each.object, fun number mem =>
      ⟨each.version number mem, held.version number mem⟩⟩

-- No id follows the largest: the cursor stays there, at the newest version.
theorem admits_itself_iff {reference : Reference} (held : reference.IdsHeld) :
    (ofReference reference).admits reference = true ↔
      reference.object + 1 = Text.idBound ∧ reference.version = 1 := by
  have first := reference.version_pos
  have version_lt := reference.version_lt
  have object_lt := held.2
  by_cases older : 1 < reference.version
  · have before : ¬ reference.version ≤ reference.version - 1 := by omega
    refine iff_of_false ?_ fun last => by omega
    simp [admits, next, ofReference, older, before]
  · simp only [admits, next, ofReference, older, if_false, Option.getD_some, Option.getD_none,
      ne_eq, not_true_eq_false, ite_not]
    split <;> simp only [decide_eq_true_eq] <;> omega

theorem below_of_nullable {fields : Json.Fields} {place bound : Nat} {value : Option Nat}
    (read : fields.nullable place (Json.below? bound) = some value) :
    ∀ number ∈ value, number < bound := by
  rintro number ⟨⟩
  unfold Json.Fields.nullable at read
  split at read
  next => cases read
  next json _ =>
    obtain ⟨found, below, same⟩ := Option.map_eq_some_iff.mp read
    obtain ⟨integer, within, rfl⟩ := Option.map_eq_some_iff.mp below
    cases same
    have small := (Option.filter_eq_some_iff.mp within).2
    simp only [decide_eq_true_eq] at small
    exact small.2
  next => split at read <;> cases read

theorem nullable_optional {fields : Json.Fields} {place bound : Nat} {value : Option Nat}
    (stands : fields.at? place = some (Json.optional Json.nat value))
    (below : ∀ number ∈ value, number < bound) :
    fields.nullable place (Json.below? bound) = some value := by
  unfold Json.Fields.nullable
  cases value with
  | none =>
    rw [stands]
    rfl
  | some number =>
    rw [stands]
    have small := below number rfl
    simp [Json.optional, Json.nat, Json.below?, Json.integer?, Option.filter, small]

theorem held_of_ofJson? {json : Json} (read : ofJson? json = some cursor) : cursor.Held := by
  simp only [ofJson?, Option.bind_eq_bind, Option.bind_eq_some_iff, Option.pure_def,
    Option.some.injEq] at read
  obtain ⟨fields, _, workspace, first, object, second, version, third, rfl⟩ := read
  exact ⟨below_of_nullable first, below_of_nullable second, below_of_nullable third⟩

theorem fields?_toJson (cursor : Cursor) :
    cursor.toJson.fields? ["workspace_id", "object_id", "version"] =
      some { values := [some (.optional .nat cursor.workspace), some (.optional .nat cursor.object),
        some (.optional .nat cursor.version)], positional := false } := rfl

theorem ofJson?_toJson (held : cursor.Held) : ofJson? cursor.toJson = some cursor := by
  rw [ofJson?, fields?_toJson]
  simp only [Option.bind_eq_bind, Option.bind_some]
  rw [nullable_optional rfl held.workspace, nullable_optional rfl held.object,
    nullable_optional rfl held.version]
  rfl

theorem textual_toJson (cursor : Cursor) : Json.Textual cursor.toJson := by
  have optional : ∀ value, Json.Textual (.optional .nat value) := by
    intro value
    cases value with
    | none => exact .null
    | some number => exact .integer number
  refine .object ?_ ?_
  · simp
  · simp [optional]

end Cursor

theorem Reference.held_of_ofJson? {json : Json} {reference : Reference}
    (read : Reference.ofJson? json = some reference) : reference.IdsHeld := by
  obtain ⟨text, _, parsed⟩ := Option.bind_eq_some_iff.mp read
  obtain ⟨_, _, _, _, _, held⟩ := Reference.parse_eq_ok_iff.mp (toOption_eq_some_iff.mp parsed)
  exact held

theorem Reference.ofJson?_toJson {reference : Reference} (held : reference.IdsHeld) :
    Reference.ofJson? reference.toJson = some reference := by
  simp only [Reference.ofJson?, Reference.toJson, Json.text, Json.text?, Option.bind_some,
    Reference.parse_toString held]
  rfl

theorem User.exists_ofName_iff {user : User} :
    (∃ name, User.ofName name = .ok user) ↔ Text.trim user.name.toList ≠ [] := by
  constructor
  · rintro ⟨name, made⟩
    unfold User.ofName at made
    split at made
    next => cases made
    next visible =>
      cases made
      exact visible
  · intro visible
    exact ⟨user.name, if_neg visible⟩

namespace Json

theorem exists_text {α : Type} {decode : Json → Option α} {json : Json} {value : α}
    (textual : Textual json) (decoded : decode json = some value) :
    ∃ text, (parse? text).bind decode = some value :=
  ⟨compact json, Option.bind_eq_some_iff.mpr ⟨json, (parse?_compact_pretty textual).1, decoded⟩⟩

theorem decoded_values (reference : Reference) (user : User) (cursor : Cursor) :
    ((∃ text, (parse? text).bind Reference.ofJson? = some reference) ↔
        ∃ workspace object version, 0 < workspace ∧ 0 < object ∧ 0 < version ∧
          workspace < Text.idBound ∧ object < Text.idBound ∧
          Reference.ofParts workspace object version = .ok reference) ∧
      (∃ text, (parse? text).bind User.ofJson? = some user) ∧
      ((∃ name, User.ofName name = .ok user) ↔ Text.trim user.name.toList ≠ []) ∧
      ((∃ text, (parse? text).bind Cursor.ofJson? = some cursor) ↔ cursor.Held) ∧
      (cursor.Held → (cursor.Made ↔ cursor.Gapless ∧
        cursor.Each (fun id => 0 < id ∧ id < Text.signedBound) (0 < ·))) ∧
      (reference.IdsHeld → ((Cursor.ofReference reference).admits reference = true ↔
        reference.object + 1 = Text.idBound ∧ reference.version = 1)) := by
  refine ⟨⟨?_, ?_⟩, ?_, User.exists_ofName_iff, ⟨?_, ?_⟩, Cursor.Held.made_iff,
    Cursor.admits_itself_iff⟩
  · rintro ⟨text, read⟩
    obtain ⟨json, _, decoded⟩ := Option.bind_eq_some_iff.mp read
    have held := Reference.held_of_ofJson? decoded
    exact ⟨_, _, _, reference.workspace_pos, reference.object_pos, reference.version_pos, held.1,
      held.2, reference.ofParts_parts⟩
  · rintro ⟨workspace, object, version, _, _, _, workspace_lt, object_lt, made⟩
    obtain ⟨rfl, rfl, rfl⟩ := Reference.ofParts_eq_ok_iff.mp made
    exact exists_text (.string _) (Reference.ofJson?_toJson ⟨workspace_lt, object_lt⟩)
  · exact exists_text (.string user.name) rfl
  · rintro ⟨text, read⟩
    obtain ⟨json, _, decoded⟩ := Option.bind_eq_some_iff.mp read
    exact Cursor.held_of_ofJson? decoded
  · exact fun held => exists_text cursor.textual_toJson (Cursor.ofJson?_toJson held)

namespace Sample

def placed : Reference := ⟨17, 19, 23, by decide, by decide, by decide, by decide⟩

def forged : Cursor := { workspace := some 0, version := some 3 }

end Sample

theorem sample_decoded_values :
    (∃ text, (parse? text).bind Reference.ofJson? = some Sample.placed) ∧
      (∃ text, (parse? text).bind User.ofJson? = some ⟨"  "⟩) ∧
      (¬ ∃ name, User.ofName name = .ok ⟨"  "⟩) ∧
      (∃ text, (parse? text).bind Cursor.ofJson? = some (.ofReference Sample.placed)) ∧
      (Cursor.ofReference Sample.placed).Made ∧
      (Cursor.ofReference Sample.placed).admits Sample.placed = false := by
  obtain ⟨references, users, named, cursors, rules, itself⟩ :=
    decoded_values Sample.placed ⟨"  "⟩ (.ofReference Sample.placed)
  have ids : Sample.placed.IdsHeld := by decide
  have held : (Cursor.ofReference Sample.placed).Held :=
    ⟨by rintro _ ⟨⟩; decide, by rintro _ ⟨⟩; decide, by rintro _ ⟨⟩; decide⟩
  have each : (Cursor.ofReference Sample.placed).Each
      (fun id => 0 < id ∧ id < Text.signedBound) (0 < ·) :=
    ⟨by rintro _ ⟨⟩; decide, by rintro _ ⟨⟩; decide, by rintro _ ⟨⟩; decide⟩
  have blank : ¬ Text.trim (User.mk "  ").name.toList ≠ [] := by decide
  have inner : ¬ (Sample.placed.object + 1 = Text.idBound ∧ Sample.placed.version = 1) := by decide
  refine ⟨references.mpr ?_, users, mt named.mp blank, cursors.mpr held,
    (rules held).mpr ⟨⟨fun _ => rfl, fun _ => rfl⟩, each⟩, ?_⟩
  · exact ⟨17, 19, 23, by decide, by decide, by decide, by decide, by decide, rfl⟩
  · exact Bool.eq_false_iff.mpr (mt (itself ids).mp inner)

theorem sample_forged :
    (¬ ∀ text user, (parse? text).bind User.ofJson? = some user →
        ∃ name, User.ofName name = .ok user) ∧
      (¬ ∀ text cursor, (parse? text).bind Cursor.ofJson? = some cursor →
        cursor.Each (0 < ·) (0 < ·)) ∧
      (¬ ∀ text cursor, (parse? text).bind Cursor.ofJson? = some cursor → cursor.Gapless) ∧
      ¬ ∀ text cursor reference, (parse? text).bind Cursor.ofJson? = some cursor →
        cursor = .ofReference reference → cursor.admits reference = false := by
  have user : (parse? "\"  \"").bind User.ofJson? = some ⟨"  "⟩ := by decide +kernel
  have forged : (parse? "[0,null,3]").bind Cursor.ofJson? = some Sample.forged := by
    decide +kernel
  have final : (parse? "[1,18446744073709551615,1]").bind Cursor.ofJson? =
      some (.ofReference ⟨1, 18446744073709551615, 1, by decide, by decide, by decide,
        by decide⟩) := by decide +kernel
  refine ⟨fun named => ?_, fun positive => ?_, fun gapless => ?_, fun excluded => ?_⟩
  · exact absurd (User.exists_ofName_iff.mp (named _ _ user)) (by decide)
  · exact absurd ((positive _ _ forged).workspace 0 rfl) (by decide)
  · exact absurd ((gapless _ _ forged).object rfl) (by decide)
  · exact absurd (excluded _ _ _ final rfl) (by decide +kernel)

end Json

end ObjectSpace
