import ObjectSpace.Proofs.Listing.Grammar
import ObjectSpace.Proofs.Listing.Page

set_option autoImplicit false

namespace ObjectSpace

namespace Cursor

structure Gapless (cursor : Cursor) : Prop where
  object : cursor.version.isSome = true → cursor.object.isSome = true
  workspace : cursor.object.isSome = true → cursor.workspace.isSome = true

inductive Made (cursor : Cursor) : Prop where
  | built {workspace object version : Option Int} (workspace_fits : Text.Fits workspace)
      (object_fits : Text.Fits object) (made : ofParts workspace object version = .ok cursor) :
      Made cursor
  | read {text : String} (made : parse text = .ok cursor) : Made cursor

def Precedes (cursor : Cursor) (reference : Reference) : Prop :=
  match cursor.workspace, cursor.object, cursor.version with
  | none, _, _ => True
  | some workspace, none, _ => workspace ≤ reference.workspace
  | some workspace, some object, none =>
      workspace < reference.workspace ∨
        workspace = reference.workspace ∧ object ≤ reference.object
  | some _, some _, some _ =>
      ∃ place : Reference, cursor = .ofReference place ∧ place.ListedLess reference

inductive Form : Cursor → Prop where
  | start : Form start
  | workspace (workspace : Nat) : Form { workspace := some workspace }
  | object (workspace object : Nat) : Form { workspace := some workspace, object := some object }
  | full (place : Reference) (fits : place.IdsFit) : Form (ofReference place)

variable {cursor : Cursor} {reference : Reference}

theorem positive_eq_some {value : Option Int} {number : Nat} (found : positive value = some number) :
    0 < number ∧ value = some (number : Int) := by
  simp only [positive, Option.map_eq_some_iff, Option.filter_eq_some_iff, decide_eq_true_eq] at found
  obtain ⟨given, ⟨rfl, above⟩, rfl⟩ := found
  exact ⟨by omega, congrArg some (Int.toNat_of_nonneg (by omega)).symm⟩

theorem ofParts_ok {workspace object version : Option Int}
    (made : ofParts workspace object version = .ok cursor) :
    cursor.Gapless ∧ cursor = ⟨positive workspace, positive object,
      (positive version).map (min · (Text.versionBound - 1))⟩ := by
  unfold ofParts at made
  simp only at made
  split at made
  next => cases made
  next numbered =>
    split at made
    next => cases made
    next placed =>
      cases made
      refine ⟨⟨fun given => ?_, fun given => ?_⟩, rfl⟩
      · exact Option.isSome_iff_ne_none.mpr fun missing =>
          numbered ⟨given, .inl (Option.isNone_iff_eq_none.mpr missing)⟩
      · exact Option.isSome_iff_ne_none.mpr fun missing =>
          placed ⟨given, Option.isNone_iff_eq_none.mpr missing⟩

theorem form_of_ofParts {workspace object version : Option Int} (workspace_fits : Text.Fits workspace)
    (object_fits : Text.Fits object) (made : ofParts workspace object version = .ok cursor) :
    cursor.Form := by
  obtain ⟨gapless, parts⟩ := ofParts_ok made
  match cursor with
  | ⟨none, none, none⟩ => exact .start
  | ⟨some _, none, none⟩ => exact .workspace _
  | ⟨some _, some _, none⟩ => exact .object _ _
  | ⟨none, some _, _⟩ => exact absurd (gapless.workspace rfl) (by simp)
  | ⟨_, none, some _⟩ => exact absurd (gapless.object rfl) (by simp)
  | ⟨some first, some second, some third⟩ =>
    simp only [mk.injEq] at parts
    obtain ⟨workspace_pos, rfl⟩ := positive_eq_some parts.1.symm
    obtain ⟨object_pos, rfl⟩ := positive_eq_some parts.2.1.symm
    obtain ⟨number, given, rfl⟩ := Option.map_eq_some_iff.mp parts.2.2.symm
    have version_pos := (positive_eq_some given).1
    have bound : 1 < Text.versionBound := by decide
    exact .full ⟨first, second, _, workspace_pos, object_pos, by omega, by omega⟩
      ⟨Int.ofNat_lt.mp (workspace_fits _ rfl), Int.ofNat_lt.mp (object_fits _ rfl)⟩

theorem Spells.fits {text : List Char} {numbers : List Int} (spells : Spells text numbers)
    (place : Nat) : Text.Fits numbers[place]? := by
  have bound : Text.signedBound = 9223372036854775808 := rfl
  intro number found
  obtain ⟨part, literal⟩ := spells.literal number (List.mem_of_getElem? found)
  have upper := literal.upper
  omega

theorem Made.parts (made : cursor.Made) :
    ∃ workspace object version, Text.Fits workspace ∧ Text.Fits object ∧
      ofParts workspace object version = .ok cursor := by
  cases made with
  | built workspace_fits object_fits made => exact ⟨_, _, _, workspace_fits, object_fits, made⟩
  | read made =>
    obtain ⟨numbers, spells, made⟩ := parse_ok_iff.mp made
    exact ⟨_, _, _, spells.fits 0, spells.fits 1, made⟩

theorem Made.form (made : cursor.Made) : cursor.Form := by
  obtain ⟨_, _, _, workspace_fits, object_fits, made⟩ := made.parts
  exact form_of_ofParts workspace_fits object_fits made

theorem Form.gapless (form : cursor.Form) : cursor.Gapless := by
  cases form with
  | start => exact ⟨id, id⟩
  | workspace => exact ⟨id, fun _ => rfl⟩
  | object | full => exact ⟨fun _ => rfl, fun _ => rfl⟩

theorem Gapless.next (gapless : cursor.Gapless) : cursor.next.Gapless := by
  unfold Cursor.next
  split
  · split <;> constructor <;> simp
  · exact gapless

theorem ofReference_injective {left right : Reference} (same : ofReference left = ofReference right) :
    left = right := by
  simp only [ofReference, mk.injEq, Option.some.injEq] at same
  exact Reference.ext_parts same.1 same.2.1 same.2.2

theorem Form.admits_iff (form : cursor.Form) :
    cursor.admits reference = true ↔ cursor.Precedes reference := by
  have version_lt := reference.version_lt
  cases form with
  | start => exact ⟨fun _ => trivial, fun _ => rfl⟩
  | workspace workspace =>
    simp only [admits, next, Precedes, Option.getD_none]
    grind
  | object workspace object =>
    simp only [admits, next, Precedes, Option.getD_some, Option.getD_none]
    grind
  | full place fits =>
    rw [admits_ofReference fits]
    constructor
    · intro less
      exact ⟨place, rfl, less⟩
    · rintro ⟨other, same, less⟩
      rwa [ofReference_injective same]

theorem admits_of_before {left right : Reference} (before : left.listedBefore right = true)
    (admitted : cursor.admits left = true) : cursor.admits right = true := by
  by_cases same : left = right
  · exact same ▸ admitted
  · exact admits_of_less admitted ⟨before, same⟩

end Cursor

theorem filter_suffix {α : Type} {r : α → α → Prop} {passes : α → Bool} {elements : List α}
    (sorted : elements.Pairwise r)
    (onward : ∀ left right, r left right → passes left = true → passes right = true) :
    elements.filter passes <:+ elements := by
  induction elements with
  | nil => exact List.suffix_refl []
  | cons first rest ih =>
    have parts := List.pairwise_cons.mp sorted
    by_cases here : passes first = true
    · have all : ∀ element ∈ first :: rest, passes element = true :=
        List.forall_mem_cons.mpr
          ⟨here, fun element mem => onward first element (parts.1 element mem) here⟩
      exact ⟨[], (List.nil_append _).trans (List.filter_eq_self.mpr all)⟩
    · rw [List.filter_cons_of_neg here]
      exact (ih parts.2).trans (List.suffix_cons first rest)

namespace Cursor

theorem admits_suffix {cursor : Cursor} (made : cursor.Made) :
    cursor.Gapless ∧
      (∀ reference, cursor.admits reference = true ↔ cursor.Precedes reference) ∧
      (∀ references : List Reference,
        references.Pairwise (fun left right => left.listedBefore right = true) →
          references.filter cursor.admits <:+ references) ∧
      cursor.next.Gapless := by
  have form := made.form
  refine ⟨form.gapless, fun _ => form.admits_iff, ?_, form.gapless.next⟩
  intro references sorted
  exact filter_suffix sorted fun _ _ => admits_of_before

namespace Sample

def oldest : String := " 6 / 24/1"

def listed : List Reference :=
  [(6, 23, 9), (6, 24, 2), (6, 24, 1), (6, 25, 4294967295), (7, 1, 1)].filterMap fun parts =>
    (Reference.ofParts parts.1 parts.2.1 parts.2.2).toOption

end Sample

theorem sample_admits_suffix :
    ∃ cursor, parse Sample.oldest = .ok cursor ∧ cursor.Made ∧ cursor.Gapless ∧
      cursor.next = { workspace := some 6, object := some 25 } ∧ cursor.next.Gapless ∧
      Sample.listed.filter cursor.admits = Sample.listed.drop 3 ∧
      Sample.listed.filter cursor.admits <:+ Sample.listed ∧
      ∀ reference ∈ Sample.listed.drop 3, cursor.Precedes reference := by
  have read : parse Sample.oldest =
      .ok { workspace := some 6, object := some 24, version := some 1 } :=
    toOption_eq_some_iff.mp (by decide +kernel)
  have made := Made.read read
  obtain ⟨gapless, exactly, cut, onward⟩ := admits_suffix made
  have admitted : ∀ reference ∈ Sample.listed.drop 3,
      admits { workspace := some 6, object := some 24, version := some 1 } reference = true := by
    decide
  exact ⟨_, read, made, gapless, by decide, onward, by decide, cut _ (by decide),
    fun reference mem => (exactly reference).mp (admitted reference mem)⟩

end Cursor

end ObjectSpace
