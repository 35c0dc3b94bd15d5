import Mathlib.Data.List.Forall2
import ObjectSpace.Proofs.Address.Grammar
import ObjectSpace.Proofs.Collecting
import ObjectSpace.Reference.Cursor

set_option autoImplicit false

namespace ObjectSpace.Cursor

def Reads (piece : List Char) (number : Int) : Prop :=
  ∃ part, Address.Padded part piece ∧ Text.Literal part number

-- A separator at the end need not be followed by a piece.
inductive Lists : List Char → List Int → Prop where
  | done (count : Nat) : Lists (List.replicate count '/') []
  | last {piece : List Char} {number : Int} (reads : Reads piece number) : Lists piece [number]
  | cons {piece rest : List Char} {number : Int} {numbers : List Int} (reads : Reads piece number)
      (later : Lists rest numbers) : Lists (piece ++ '/' :: rest) (number :: numbers)

inductive Spells : List Char → List Int → Prop where
  | blank {text : List Char} (blank : Address.Blank text) : Spells text []
  | listed {text : List Char} {numbers : List Int} (listed : Lists text numbers)
      (few : numbers.length ≤ 3) : Spells text numbers

def tokens (text : List Char) : List (List Char) :=
  Text.dropEnd List.isEmpty (Text.pieces '/' text)

section Reads

variable {piece : List Char} {number : Int}

theorem reads_iff : Reads piece number ↔ Text.Literal (Text.trim piece) number := by
  constructor
  · rintro ⟨part, padded, literal⟩
    have inked := (Address.legible_literal literal).inked
    have trimmed := Text.trim_of_none fun c inside => (inked c inside).unblank
    cases padded with
    | blanks front back =>
      rwa [Text.Overlooks.around _ _ (fun c inside => Text.trim_overlooks (front c inside))
        (fun c inside => Text.trim_overlooks (back c inside)), trimmed]
  · exact fun literal => ⟨_, Address.padded_trim piece, literal⟩

theorem Reads.filled (reads : Reads piece number) : piece.isEmpty = false := by
  rw [List.isEmpty_eq_false_iff]
  rintro rfl
  exact (Address.legible_literal (reads_iff.mp reads)).ne_nil rfl

theorem Reads.whole (reads : Reads piece number) : '/' ∉ piece := by
  obtain ⟨part, padded, literal⟩ := reads
  have inked := (Address.legible_literal literal).inked
  cases padded with
  | blanks front back =>
    simp only [List.mem_append, not_or]
    exact ⟨fun inside => absurd (front _ inside) (by decide),
      fun inside => (inked _ inside).inside rfl,
      fun inside => absurd (back _ inside) (by decide)⟩

end Reads

section Lists

variable {text : List Char} {numbers : List Int}

theorem tokens_replicate (count : Nat) : tokens (List.replicate count '/') = [] := by
  rw [tokens, Text.dropEnd_eq_nil_iff]
  induction count with
  | zero => simp [Text.pieces]
  | succ count ih => simpa [List.replicate_succ, Text.pieces] using ih

theorem Lists.reads (listed : Lists text numbers) : List.Forall₂ Reads (tokens text) numbers := by
  induction listed with
  | done count =>
    rw [tokens_replicate]
    exact .nil
  | last reads =>
    rw [tokens, Text.pieces_of_not_mem reads.whole, Text.dropEnd_cons_of_neg reads.filled]
    exact .cons reads .nil
  | cons reads later ih =>
    rw [tokens, Text.pieces_separated, Text.pieces_of_not_mem reads.whole, List.singleton_append,
      Text.dropEnd_cons_of_neg reads.filled]
    exact .cons reads ih

theorem Lists.slash (listed : Lists text []) : Lists ('/' :: text) [] := by
  cases listed with
  | done count => exact .done (count + 1)

theorem lists_join {pieces : List (List Char)}
    (reads : List.Forall₂ Reads (Text.dropEnd List.isEmpty pieces) numbers) :
    Lists (Text.join '/' pieces) numbers := by
  induction pieces generalizing numbers with
  | nil =>
    cases reads
    exact .done 0
  | cons first rest ih =>
    cases filled : first.isEmpty with
    | false =>
      rw [Text.dropEnd_cons_of_neg filled] at reads
      cases reads with
      | cons here later =>
        cases rest with
        | nil =>
          cases later
          exact .last here
        | cons second others => exact .cons here (ih later)
    | true =>
      -- An empty piece is no integer, so all pieces after it are empty too.
      obtain rfl := List.isEmpty_iff.mp filled
      rw [Text.dropEnd_cons] at reads
      by_cases empty : Text.dropEnd List.isEmpty rest = []
      · rw [if_pos empty] at reads
        cases reads
        cases rest with
        | nil => exact .done 0
        | cons second others => exact (ih (empty ▸ .nil)).slash
      · rw [if_neg empty] at reads
        cases reads with
        | cons here => exact absurd here.filled (by simp)

theorem lists_iff : Lists text numbers ↔ List.Forall₂ Reads (tokens text) numbers := by
  constructor
  · exact Lists.reads
  · intro reads
    have listed := lists_join reads
    rwa [Text.join_pieces] at listed

theorem Lists.inked {number : Int} (listed : Lists text (number :: numbers)) :
    ¬ Address.Blank text := by
  intro blank
  cases listed with
  | last reads =>
    have literal := reads_iff.mp reads
    rw [Address.trim_eq_nil_iff.mpr blank] at literal
    exact (Address.legible_literal literal).ne_nil rfl
  | cons reads later => exact absurd (blank '/' (by simp)) (by decide)

theorem spells_blank_iff (blank : Address.Blank text) : Spells text numbers ↔ numbers = [] := by
  constructor
  · intro spells
    cases spells with
    | blank => rfl
    | listed listed =>
      cases numbers with
      | nil => rfl
      | cons => exact absurd blank listed.inked
  · rintro rfl
    exact .blank blank

theorem spells_inked_iff (inked : ¬ Address.Blank text) :
    Spells text numbers ↔ List.Forall₂ Reads (tokens text) numbers ∧ (tokens text).length ≤ 3 := by
  constructor
  · rintro (blank | ⟨listed, few⟩)
    · exact absurd blank inked
    · exact ⟨listed.reads, listed.reads.length_eq ▸ few⟩
  · rintro ⟨reads, few⟩
    exact .listed (lists_iff.mpr reads) (reads.length_eq ▸ few)

theorem Lists.literal (listed : Lists text numbers) :
    ∀ number ∈ numbers, ∃ part, Text.Literal part number := by
  induction listed with
  | done => simp
  | last reads => exact List.forall_mem_singleton.mpr (reads.imp fun _ => And.right)
  | cons reads later ih => exact List.forall_mem_cons.mpr ⟨reads.imp fun _ => And.right, ih⟩

theorem Spells.literal (spells : Spells text numbers) :
    ∀ number ∈ numbers, ∃ part, Text.Literal part number := by
  cases spells with
  | blank => simp
  | listed listed => exact listed.literal

end Lists

section Parse

variable {text : String} {cursor : Cursor}

theorem part_some_iff {part : CursorPart} {piece : List Char} {value : Option Int} :
    Cursor.part text part (some piece) = .ok value ↔
      ∃ number, Reads piece number ∧ value = number := by
  simp only [Cursor.part, reads_iff, ← Text.signed?_eq_some_iff]
  cases Text.signed? (Text.trim piece) <;> simp [eq_comm]

theorem part_none_iff {part : CursorPart} {value : Option Int} :
    Cursor.part text part none = .ok value ↔ value = none := by
  simp [Cursor.part, eq_comm]

theorem parts_ok_iff {tokens : List (List Char)} (few : tokens.length ≤ 3) :
    (do
      let workspace ← Cursor.part text .workspace tokens[0]?
      let object ← Cursor.part text .object tokens[1]?
      let version ← Cursor.part text .version tokens[2]?
      ofParts workspace object version) = .ok cursor ↔
    ∃ numbers, List.Forall₂ Reads tokens numbers ∧
      ofParts numbers[0]? numbers[1]? numbers[2]? = .ok cursor := by
  match tokens with
  | [] => simp [bind_eq_ok, part_none_iff]
  | [_] => simp [bind_eq_ok, part_none_iff, part_some_iff, List.forall₂_cons_left_iff]
  | [_, _] => simp [bind_eq_ok, part_none_iff, part_some_iff, List.forall₂_cons_left_iff, and_assoc]
  | [_, _, _] => simp [bind_eq_ok, part_some_iff, List.forall₂_cons_left_iff, and_assoc]
  | _ :: _ :: _ :: _ :: _ =>
    simp only [List.length_cons] at few
    omega

theorem parse_ok_iff : parse text = .ok cursor ↔
    ∃ numbers, Spells text.toList numbers ∧
      ofParts numbers[0]? numbers[1]? numbers[2]? = .ok cursor := by
  unfold parse
  split
  next blank =>
    simp only [spells_blank_iff (Address.trim_eq_nil_iff.mp blank), exists_eq_left]
    rfl
  next inked =>
    simp only [spells_inked_iff (mt Address.trim_eq_nil_iff.mpr inked)]
    split
    next many =>
      refine iff_of_false (by simp) ?_
      rintro ⟨_, ⟨_, few⟩, _⟩
      exact absurd many (Nat.not_lt.mpr few)
    next few =>
      have few := Nat.not_lt.mp few
      refine (parts_ok_iff few).trans (exists_congr fun numbers => and_congr_left' ?_)
      exact (and_iff_left few).symm

end Parse

end ObjectSpace.Cursor
