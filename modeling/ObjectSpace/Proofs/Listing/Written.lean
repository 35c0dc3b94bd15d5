import ObjectSpace.Proofs.Listing.Resumption

set_option autoImplicit false

namespace ObjectSpace.Cursor

variable {cursor : Cursor}

structure Each (cursor : Cursor) (id version : Nat → Prop) : Prop where
  workspace : ∀ number ∈ cursor.workspace, id number
  object : ∀ number ∈ cursor.object, id number
  version : ∀ number ∈ cursor.version, version number

def Sound (cursor : Cursor) : Prop :=
  cursor.Each (fun id => 0 < id ∧ id < Text.signedBound)
    (fun version => 0 < version ∧ version < Text.versionBound)

def numbers (cursor : Cursor) : List Nat :=
  cursor.workspace.toList ++ (cursor.object.toList ++ cursor.version.toList)

theorem Each.imp {id version id' version' : Nat → Prop} (each : cursor.Each id version)
    (ids : ∀ number, id number → id' number)
    (versions : ∀ number, version number → version' number) : cursor.Each id' version' where
  workspace number mem := ids number (each.workspace number mem)
  object number mem := ids number (each.object number mem)
  version number mem := versions number (each.version number mem)

theorem Made.sound (made : cursor.Made) : cursor.Sound := by
  obtain ⟨_, _, _, workspace_fits, object_fits, made⟩ := made.parts
  obtain ⟨_, rfl⟩ := ofParts_ok made
  have fits : ∀ {value : Option Int} {number : Nat}, Text.Fits value →
      number ∈ positive value → 0 < number ∧ number < Text.signedBound := by
    intro value number small found
    obtain ⟨above, given⟩ := positive_eq_some found
    exact ⟨above, Int.ofNat_lt.mp (small _ given)⟩
  refine ⟨fun _ => fits workspace_fits, fun _ => fits object_fits, ?_⟩
  intro number found
  obtain ⟨given, there, rfl⟩ := Option.map_eq_some_iff.mp found
  have above := (positive_eq_some there).1
  have bound : 1 < Text.versionBound := by decide
  omega

theorem positive_map_natCast {value : Option Nat} (above : ∀ number ∈ value, 0 < number) :
    positive (value.map Nat.cast) = value := by
  cases value with
  | none => rfl
  | some number => exact positive_natCast (above number rfl)

theorem fits_map_natCast {value : Option Nat}
    (small : ∀ number ∈ value, number < Text.signedBound) : Text.Fits (value.map Nat.cast) := by
  intro given found
  obtain ⟨number, there, rfl⟩ := Option.map_eq_some_iff.mp found
  exact Int.ofNat_lt.mpr (small number there)

theorem ofParts_numbers (gapless : cursor.Gapless) (sound : cursor.Sound) :
    ofParts (cursor.workspace.map Nat.cast) (cursor.object.map Nat.cast)
      (cursor.version.map Nat.cast) = .ok cursor := by
  obtain ⟨workspace, object, version⟩ := cursor
  have first := positive_map_natCast fun number mem => (sound.workspace number mem).1
  have second := positive_map_natCast fun number mem => (sound.object number mem).1
  have third := positive_map_natCast fun number mem => (sound.version number mem).1
  have clamped : version.map (min · (Text.versionBound - 1)) = version := by
    cases version with
    | none => rfl
    | some number =>
      have below := (sound.version number rfl).2
      exact congrArg some (Nat.min_eq_left (by omega))
  have numbered : version.isSome = true → object.isSome = true := gapless.object
  have placed : object.isSome = true → workspace.isSome = true := gapless.workspace
  simp only [ofParts, first, second, third, clamped]
  cases workspace <;> cases object <;> cases version <;> simp_all

theorem made_iff : cursor.Made ↔ cursor.Gapless ∧ cursor.Sound := by
  constructor
  · exact fun made => ⟨made.form.gapless, made.sound⟩
  · rintro ⟨gapless, sound⟩
    exact .built (fits_map_natCast fun number mem => (sound.workspace number mem).2)
      (fits_map_natCast fun number mem => (sound.object number mem).2)
      (ofParts_numbers gapless sound)

def WrittenIn (cursor : Cursor) (text : String) : Prop :=
  ∃ pieces count,
    List.Forall₂ (fun number => Address.Padded (Text.decimal number)) cursor.numbers pieces ∧
      text.toList = Text.join '/' pieces ++ List.replicate count '/'

def written (cursor : Cursor) : String :=
  String.ofList (Text.join '/' (cursor.numbers.map Text.decimal))

section Written

theorem toList_written (cursor : Cursor) :
    cursor.written.toList = Text.join '/' (cursor.numbers.map Text.decimal) := String.toList_ofList

theorem writtenIn_written (cursor : Cursor) : cursor.WrittenIn cursor.written := by
  refine ⟨cursor.numbers.map Text.decimal, 0, ?_, by simp [toList_written]⟩
  rw [List.forall₂_map_right_iff, List.forall₂_same]
  intro number _
  simpa using @Address.Padded.blanks (Text.decimal number) [] [] (List.forall_mem_nil _)
    (List.forall_mem_nil _)

theorem reads_decimal {number : Nat} {piece : List Char} (small : number < Text.signedBound)
    (padded : Address.Padded (Text.decimal number) piece) : Reads piece number :=
  ⟨_, padded, (Text.Unsigned.decimal number).literal small⟩

theorem lists_padded {numbers : List Nat} {pieces : List (List Char)}
    (padded : List.Forall₂ (fun number => Address.Padded (Text.decimal number)) numbers pieces)
    (small : ∀ number ∈ numbers, number < Text.signedBound) (count : Nat) :
    Lists (Text.join '/' pieces ++ List.replicate count '/') (numbers.map Nat.cast) := by
  induction padded with
  | nil => exact .done count
  | @cons _ piece _ _ here later ih =>
    have parted := List.forall_mem_cons.mp small
    have reads := reads_decimal parted.1 here
    have rest := ih parted.2
    cases later with
    | nil =>
      cases count with
      | zero =>
        rw [List.replicate_zero, List.append_nil]
        exact .last reads
      | succ count => exact .cons reads (.done count)
    | @cons _ second _ others =>
      have onward : Text.join '/' (piece :: second :: others) =
          piece ++ '/' :: Text.join '/' (second :: others) := rfl
      rw [onward, List.append_assoc]
      exact .cons reads rest

theorem Made.numbers_lt (made : cursor.Made) :
    ∀ number ∈ cursor.numbers, number < Text.signedBound := by
  have below : Text.versionBound < Text.signedBound := by decide
  have sound := made.sound
  intro number mem
  simp only [numbers, List.mem_append, Option.mem_toList] at mem
  rcases mem with inside | inside | inside
  · exact (sound.workspace number inside).2
  · exact (sound.object number inside).2
  · exact Nat.lt_trans (sound.version number inside).2 below

theorem Made.numbers_ofParts (made : cursor.Made) :
    ofParts (cursor.numbers.map Nat.cast)[0]? (cursor.numbers.map Nat.cast)[1]?
      (cursor.numbers.map Nat.cast)[2]? = .ok cursor := by
  have again := ofParts_numbers made.form.gapless made.sound
  cases made.form with
  | start | workspace | object | full => exact again

theorem Made.few_numbers (made : cursor.Made) : cursor.numbers.length ≤ 3 := by
  cases made.form with
  | start | workspace | object | full => simp [numbers, start, ofReference]

theorem Made.reads_back (made : cursor.Made) {text : String} (written : cursor.WrittenIn text) :
    parse text = .ok cursor := by
  obtain ⟨pieces, count, padded, laid⟩ := written
  have listed := lists_padded padded made.numbers_lt count
  rw [← laid] at listed
  have few : (cursor.numbers.map (Nat.cast : Nat → Int)).length ≤ 3 := by
    simpa using made.few_numbers
  exact parse_ok_iff.mpr ⟨_, .listed listed few, made.numbers_ofParts⟩

theorem written_ofReference (reference : Reference) :
    (ofReference reference).written = reference.toString := by
  rw [← String.toList_inj, toList_written]
  simp [numbers, ofReference, Reference.toString, Text.join, Text.decimal]

theorem made_ofReference_iff {reference : Reference} :
    (ofReference reference).Made ↔ reference.IdsFit := by
  constructor
  · exact fun made => ⟨(made.sound.workspace _ rfl).2, (made.sound.object _ rfl).2⟩
  · intro fits
    have held : ∀ {id : Nat}, id < Text.signedBound → Text.Fits (some (id : Int)) := by
      rintro id small _ ⟨⟩
      exact Int.ofNat_lt.mpr small
    exact .built (held fits.1) (held fits.2) (ofParts_reference reference)

end Written

theorem written_reads_back (cursor : Cursor) (reference : Reference) :
    (cursor.Made ↔ ∀ text, cursor.WrittenIn text → parse text = .ok cursor) ∧
      (∀ text, parse text = .ok cursor →
        cursor.WrittenIn cursor.written ∧ parse cursor.written = .ok cursor) ∧
      (parse reference.toString = .ok (.ofReference reference) ↔ reference.IdsFit) := by
  have plainest := writtenIn_written cursor
  refine ⟨⟨fun made text => made.reads_back, ?_⟩, ?_, ?_⟩
  · exact fun back => .read (back _ plainest)
  · intro text read
    exact ⟨plainest, (Made.read read).reads_back plainest⟩
  · rw [← made_ofReference_iff, ← written_ofReference]
    constructor
    · exact Made.read
    · exact fun made => made.reads_back (writtenIn_written _)

namespace Sample

def loose : String := " +06 /\t024 / -1"

def spaced : String := " 6 /24\t//"

def followed : Reference := ⟨37, 47, 11, by decide, by decide, by decide, by decide⟩

end Sample

theorem sample_written_reads_back :
    parse Sample.loose = .ok { workspace := some 6, object := some 24 } ∧
      parse "6/24" = .ok { workspace := some 6, object := some 24 } ∧
      parse Sample.spaced = .ok { workspace := some 6, object := some 24 } ∧
      parse Sample.followed.toString = .ok (.ofReference Sample.followed) := by
  have read : parse Sample.loose = .ok { workspace := some 6, object := some 24 } :=
    toOption_eq_some_iff.mp (by decide +kernel)
  obtain ⟨made, plainest, behind⟩ :=
    written_reads_back { workspace := some 6, object := some 24 } Sample.followed
  have again := (plainest _ read).2
  have spaced : WrittenIn { workspace := some 6, object := some 24 } Sample.spaced := by
    have blank : Address.Blank [' '] := List.forall_mem_singleton.mpr (by decide)
    have tab : Address.Blank ['\t'] := List.forall_mem_singleton.mpr (by decide)
    refine ⟨[" 6 ".toList, "24\t".toList], 2, .cons ?_ (.cons ?_ .nil), by decide⟩
    · exact @Address.Padded.blanks ['6'] [' '] [' '] blank blank
    · exact @Address.Padded.blanks ['2', '4'] [] ['\t'] (List.forall_mem_nil _) tab
  exact ⟨read, again, made.mp (.read read) _ spaced, behind.mpr ⟨by decide, by decide⟩⟩

end ObjectSpace.Cursor
