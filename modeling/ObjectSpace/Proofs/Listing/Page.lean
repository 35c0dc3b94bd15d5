import ObjectSpace.Proofs.Listing.Rows

set_option autoImplicit false

namespace ObjectSpace

def Reference.IdsFit (reference : Reference) : Prop :=
  reference.workspace < Text.signedBound ∧ reference.object < Text.signedBound

namespace Cursor

def ofReference (reference : Reference) : Cursor where
  workspace := some reference.workspace
  object := some reference.object
  version := some reference.version

theorem positive_natCast {number : Nat} (pos : 0 < number) :
    positive (some (number : Int)) = some number := by
  simp [positive, Option.filter, pos]

theorem ofParts_reference (reference : Reference) :
    ofParts (some reference.workspace) (some reference.object) (some reference.version) =
      .ok (ofReference reference) := by
  have within : min reference.version (Text.versionBound - 1) = reference.version := by
    have bound := reference.version_lt
    omega
  simp [ofParts, ofReference, positive_natCast reference.workspace_pos,
    positive_natCast reference.object_pos, positive_natCast reference.version_pos, within]

theorem next_ofReference {last : Reference} (fits : last.IdsFit) :
    (ofReference last).next =
      if 1 < last.version then
        { workspace := some last.workspace, object := some last.object
          version := some (last.version - 1) }
      else { workspace := some last.workspace, object := some (last.object + 1) } := by
  have small : min (last.object + 1) (Text.idBound - 1) = last.object + 1 := by
    have below : Text.signedBound < Text.idBound := by decide
    have bound := fits.2
    omega
  simp [next, ofReference, small]

-- After the oldest version comes the newest that the next object could have.
theorem admits_ofReference {last reference : Reference} (fits : last.IdsFit) :
    (ofReference last).admits reference = true ↔ last.ListedLess reference := by
  have first := last.version_pos
  have version_pos := reference.version_pos
  have version_lt := reference.version_lt
  rw [admits, next_ofReference fits, Reference.ListedLess, ne_eq, Reference.eq_iff_parts,
    Reference.listedBefore]
  split
  next older => grind
  next oldest => grind

theorem admits_of_less {cursor : Cursor} {left right : Reference}
    (admitted : cursor.admits left = true) (less : left.ListedLess right) :
    cursor.admits right = true := by
  have before := less.1
  have version_lt := right.version_lt
  simp only [admits, Reference.listedBefore] at admitted before ⊢
  split
  next => rfl
  next workspace bounded =>
    simp only [bounded] at admitted
    grind

@[simp] theorem admits_start (reference : Reference) : start.admits reference = true := rfl

end Cursor

theorem eq_last_or_rel {α : Type} {r : α → α → Prop} {elements : List α} {element last : α}
    (sorted : elements.Pairwise r) (ends : elements.getLast? = some last)
    (mem : element ∈ elements) : element = last ∨ r element last := by
  obtain ⟨front, rfl⟩ := List.getLast?_eq_some_iff.mp ends
  rcases List.mem_append.mp mem with early | here
  · exact .inr ((List.pairwise_append.mp sorted).2.2 element early last (List.mem_singleton_self _))
  · exact .inl (List.mem_singleton.mp here)

theorem mem_take_or_last {α : Type} {r : α → α → Prop} {elements : List α} {element : α}
    {most : Nat} (sorted : elements.Pairwise r) (some_room : 0 < most) (mem : element ∈ elements) :
    element ∈ elements.take most ∨
      ∃ last, (elements.take most).getLast? = some last ∧ r last element := by
  rw [← List.take_append_drop most elements] at sorted mem
  rcases List.mem_append.mp mem with here | cut
  · exact .inl here
  · have taken : elements.take most ≠ [] := by
      intro none
      rcases List.take_eq_nil_iff.mp none with zero | empty
      · omega
      · simp [empty] at cut
    refine .inr ⟨_, List.getLast?_eq_some_getLast taken, ?_⟩
    exact (List.pairwise_append.mp sorted).2.2 _ (List.getLast_mem taken) element cut

namespace Listing

variable {listing : Listing} {store : Store} {reference : Reference}

def resumed (listing : Listing) (last : Reference) : Listing :=
  { listing with startAfter := .ofReference last }

theorem resumeAfter_eq (listing : Listing) (row : ListedObject) :
    listing.resumeAfter row = .ok (listing.resumed row.reference) := by
  simp only [resumeAfter, Cursor.ofParts_reference, bind, Except.bind, pure, Except.pure, resumed]

theorem mapError_resumeAfter (listing : Listing) (row : ListedObject) :
    (listing.resumeAfter row).mapError StoreError.value = .ok (listing.resumed row.reference) := by
  rw [resumeAfter_eq]
  rfl

section Page

variable {rows : List ListedObject}

theorem page_ok (ran : listing.page store = .ok rows) :
    ∃ all, listing.rows store = .ok all ∧
      rows =
        (all.filter fun row => listing.startAfter.admits row.reference).take listing.limit := by
  rw [page] at ran
  cases whole : listing.rows store with
  | error cause =>
    rw [whole] at ran
    cases ran
  | ok all =>
    rw [whole] at ran
    exact ⟨all, rfl, (Except.ok.inj ran).symm⟩

theorem page_eq {all : List ListedObject} (whole : listing.rows store = .ok all) :
    listing.page store = .ok
      ((all.filter fun row => listing.startAfter.admits row.reference).take listing.limit) := by
  rw [page, whole]
  rfl

theorem page_shown (ran : listing.page store = .ok rows) {row : ListedObject} (mem : row ∈ rows) :
    listing.Shows store row.reference ∧ listing.startAfter.admits row.reference = true := by
  obtain ⟨all, whole, rfl⟩ := page_ok ran
  obtain ⟨listed, admitted⟩ := List.mem_filter.mp (List.mem_of_mem_take mem)
  exact ⟨(mem_rows whole).mp ⟨row, listed, rfl⟩, admitted⟩

variable (distinct : (listing.permissions.workspaces.map ResolvedWorkspace.id).Nodup)

include distinct

theorem page_strict (ran : listing.page store = .ok rows) :
    rows.Pairwise fun left right => left.reference.ListedLess right.reference := by
  obtain ⟨all, whole, rfl⟩ := page_ok ran
  have sublist := (List.take_sublist listing.limit
    (all.filter fun row => listing.startAfter.admits row.reference)).trans List.filter_sublist
  exact (rows_strict distinct whole).sublist sublist

theorem page_complete (sized : 0 < listing.limit) (ran : listing.page store = .ok rows)
    (shown : listing.Shows store reference)
    (admitted : listing.startAfter.admits reference = true) :
    (∃ row ∈ rows, row.reference = reference) ∨
      ∃ last, rows.getLast? = some last ∧ last.reference.ListedLess reference := by
  obtain ⟨all, whole, rfl⟩ := page_ok ran
  obtain ⟨row, listed, rfl⟩ := (mem_rows whole).mpr shown
  have sorted := (rows_strict distinct whole).filter fun row =>
    listing.startAfter.admits row.reference
  rcases mem_take_or_last sorted sized (List.mem_filter.mpr ⟨listed, admitted⟩) with here | later
  · exact .inl ⟨row, here, rfl⟩
  · exact .inr later

end Page

end Listing

end ObjectSpace
