import Mathlib.Data.List.Basic
import Mathlib.Data.List.Induction
import Mathlib.Data.List.TakeWhile
import ObjectSpace.Text.Blank
import ObjectSpace.Text.Pieces

set_option autoImplicit false

namespace ObjectSpace.Text

section Pieces

variable {separator : Char} {piece : List Char}

theorem pieces_of_not_mem (whole : separator ∉ piece) : pieces separator piece = [piece] := by
  induction piece with
  | nil => rfl
  | cons c rest ih =>
    simp only [List.mem_cons, not_or] at whole
    have apart : c ≠ separator := fun same => whole.1 same.symm
    simp [pieces, apart, ih whole.2]

theorem exists_pieces (separator : Char) (text : List Char) :
    ∃ first late, pieces separator text = first :: late :=
  List.exists_cons_of_ne_nil (pieces_ne_nil separator text)

theorem pieces_append (separator : Char) (left : List Char) :
    ∃ early last, pieces separator left = early ++ [last] ∧
      ∀ right first late, pieces separator right = first :: late →
        pieces separator (left ++ right) = early ++ (last ++ first) :: late := by
  induction left with
  | nil => exact ⟨[], [], rfl, fun right first late cut => cut⟩
  | cons c rest ih =>
    obtain ⟨early, last, ends, meet⟩ := ih
    by_cases same : c = separator
    · refine ⟨[] :: early, last, by simp [pieces, same, ends], ?_⟩
      intro right first late cut
      simp [pieces, same, meet right first late cut]
    · cases early with
      | nil =>
        refine ⟨[], c :: last, by simp [pieces, same, ends], ?_⟩
        intro right first late cut
        simp [pieces, same, meet right first late cut]
      | cons front more =>
        refine ⟨(c :: front) :: more, last, by simp [pieces, same, ends], ?_⟩
        intro right first late cut
        simp [pieces, same, meet right first late cut]

theorem pieces_separated (separator : Char) (left right : List Char) :
    pieces separator (left ++ separator :: right) =
      pieces separator left ++ pieces separator right := by
  obtain ⟨early, last, ends, meet⟩ := pieces_append separator left
  have cut : pieces separator (separator :: right) = [] :: pieces separator right := by
    simp [pieces]
  rw [meet _ _ _ cut, ends]
  simp

theorem map_pieces_within {β : Type} {read : List Char → β} {stretch other : List Char}
    (whole : separator ∉ stretch) (whole' : separator ∉ other)
    (same : ∀ before after, read (before ++ (stretch ++ after)) = read (before ++ (other ++ after)))
    (left right : List Char) :
    (pieces separator (left ++ (stretch ++ right))).map read =
      (pieces separator (left ++ (other ++ right))).map read := by
  obtain ⟨early, last, ends, meet⟩ := pieces_append separator left
  obtain ⟨first, late, starts⟩ := exists_pieces separator right
  have cut : ∀ middle, separator ∉ middle →
      pieces separator (middle ++ right) = (middle ++ first) :: late := by
    intro middle whole
    obtain ⟨none, only, single, meet⟩ := pieces_append separator middle
    rw [pieces_of_not_mem whole] at single
    obtain ⟨rfl, rfl⟩ : none = [] ∧ only = middle := by
      cases none <;> simp_all
    exact meet right first late starts
  rw [meet _ _ _ (cut stretch whole), meet _ _ _ (cut other whole')]
  simp [same]

theorem pieces_join {parts : List (List Char)} (some : parts ≠ [])
    (whole : ∀ part ∈ parts, separator ∉ part) :
    pieces separator (join separator parts) = parts := by
  induction parts with
  | nil => exact absurd rfl some
  | cons first rest ih =>
    have parted := List.forall_mem_cons.mp whole
    cases rest with
    | nil => exact pieces_of_not_mem parted.1
    | cons second others =>
      have later := ih (by simp) parted.2
      simp only [join, pieces_separated, pieces_of_not_mem parted.1, later, List.singleton_append]

theorem mem_join {c : Char} {parts : List (List Char)} (mem : c ∈ join separator parts) :
    c = separator ∨ ∃ part ∈ parts, c ∈ part := by
  induction parts with
  | nil => cases mem
  | cons first rest ih =>
    cases rest with
    | nil => exact .inr ⟨first, List.mem_cons_self, mem⟩
    | cons second others =>
      simp only [join, List.mem_append, List.mem_cons] at mem
      rcases mem with here | rfl | later
      · exact .inr ⟨first, List.mem_cons_self, here⟩
      · exact .inl rfl
      · rcases ih later with same | ⟨part, listed, inside⟩
        · exact .inl same
        · exact .inr ⟨part, List.mem_cons_of_mem _ listed, inside⟩

theorem join_append {left right : List (List Char)} (some : left ≠ []) (some' : right ≠ []) :
    join separator (left ++ right) = join separator left ++ separator :: join separator right := by
  obtain ⟨second, others, rfl⟩ := List.exists_cons_of_ne_nil some'
  induction left with
  | nil => exact absurd rfl some
  | cons first rest ih =>
    cases rest with
    | nil => rfl
    | cons next more =>
      have later := ih (by simp)
      simp only [List.cons_append] at later ⊢
      simp [join, later]

theorem getLast?_join {parts : List (List Char)} {last : List Char} (filled : last ≠ []) :
    (join separator (parts ++ [last])).getLast? = last.getLast? := by
  by_cases alone : parts = []
  · subst alone
    rfl
  · have parted : join separator (parts ++ [last]) =
        (join separator parts ++ [separator]) ++ last := by
      rw [join_append alone (List.cons_ne_nil _ _)]
      simp [join]
    rw [parted, List.getLast?_append_of_ne_nil _ filled]

theorem join_eq_intercalate (separator : Char) (parts : List (List Char)) :
    join separator parts = [separator].intercalate parts := by
  induction parts with
  | nil => rfl
  | cons first rest ih =>
    cases rest with
    | nil => simp [join]
    | cons second others => simp [join, ih, List.intercalate_cons_cons]

theorem not_mem_of_mem_pieces {text : List Char} (listed : piece ∈ pieces separator text) :
    separator ∉ piece := by
  induction text generalizing piece with
  | nil => simp_all [pieces]
  | cons c rest ih =>
    by_cases same : c = separator
    · simp only [pieces, same, if_true, List.mem_cons] at listed
      rcases listed with rfl | later
      · simp
      · exact ih later
    · obtain ⟨first, late, cut⟩ := exists_pieces separator rest
      have whole : separator ∉ first := ih (by simp [cut])
      simp only [pieces, same, if_false, cut, List.mem_cons] at listed
      rcases listed with rfl | later
      · simp [whole, Ne.symm same]
      · exact ih (by simp [cut, later])

end Pieces

theorem dropEnd_map {α β : Type} (p : β → Bool) (change : α → β) (elements : List α) :
    dropEnd p (elements.map change) = (dropEnd (p ∘ change) elements).map change := by
  simp [dropEnd, ← List.map_reverse, List.dropWhile_map]

structure Overlooks {β : Type} (read : List Char → β) (c : Char) : Prop where
  front : ∀ text, read (c :: text) = read text
  back : ∀ text, read (text ++ [c]) = read text

theorem ne_of_isBlank {c inked : Char} (blank : isBlank c = true)
    (unblank : isBlank inked = false) : c ≠ inked := by
  rintro rfl
  rw [blank] at unblank
  cases unblank

theorem trim_overlooks {c : Char} (blank : isBlank c = true) : Overlooks trim c where
  front text := by
    rw [trim, dropStart, List.dropWhile_cons_of_pos blank]
    rfl
  back text := by
    simp only [trim, dropStart, List.dropWhile_append]
    split
    next empty =>
      rw [List.isEmpty_iff.mp empty, List.dropWhile_cons_of_pos blank]
      rfl
    next => exact dropEnd_append_of_all (by simpa using blank)

theorem dropWhile_of_none {α : Type} {p : α → Bool} {elements : List α}
    (kept : ∀ element ∈ elements, p element = false) : elements.dropWhile p = elements := by
  cases elements with
  | nil => rfl
  | cons first rest => rw [List.dropWhile_cons_of_neg (by simp [kept first List.mem_cons_self])]

theorem dropEnd_of_none {α : Type} {p : α → Bool} {elements : List α}
    (kept : ∀ element ∈ elements, p element = false) : dropEnd p elements = elements := by
  rw [dropEnd, dropWhile_of_none (by simpa using kept), List.reverse_reverse]

theorem trim_of_none {text : List Char} (inked : ∀ c ∈ text, isBlank c = false) :
    trim text = text := by
  rw [trim, dropStart, dropWhile_of_none inked, dropEnd_of_none inked]

theorem dropEnd_eq_nil_iff {α : Type} {p : α → Bool} {elements : List α} :
    dropEnd p elements = [] ↔ ∀ element ∈ elements, p element = true := by
  simp [dropEnd, List.dropWhile_eq_nil_iff]

theorem dropEnd_cons {α : Type} (p : α → Bool) (first : α) (rest : List α) :
    dropEnd p (first :: rest) =
      if dropEnd p rest = [] then dropEnd p [first] else first :: dropEnd p rest := by
  simp only [dropEnd, List.reverse_cons, List.dropWhile_append, List.reverse_eq_nil_iff,
    List.isEmpty_iff, List.reverse_nil, List.nil_append]
  split <;> simp

theorem dropEnd_cons_of_neg {α : Type} {p : α → Bool} {first : α} (kept : p first = false)
    (rest : List α) : dropEnd p (first :: rest) = first :: dropEnd p rest := by
  rw [dropEnd_cons]
  split
  next empty => rw [empty, dropEnd_of_none (by simpa using kept)]
  next => rfl

theorem exists_dropEnd {α : Type} (p : α → Bool) (elements : List α) :
    ∃ tail, elements = dropEnd p elements ++ tail ∧ ∀ element ∈ tail, p element = true := by
  refine ⟨(elements.reverse.takeWhile p).reverse, ?_, ?_⟩
  · rw [dropEnd, ← List.reverse_append, List.takeWhile_append_dropWhile, List.reverse_reverse]
  · intro element mem
    exact List.all_eq_true.mp List.all_takeWhile element (List.mem_reverse.mp mem)

theorem exists_trim (text : List Char) :
    ∃ before after, text = before ++ (trim text ++ after) ∧
      (∀ c ∈ before, isBlank c = true) ∧ ∀ c ∈ after, isBlank c = true := by
  have back := exists_dropEnd isBlank (dropStart isBlank text)
  rcases back with ⟨after, split, blank⟩
  refine ⟨text.takeWhile isBlank, after, ?_, List.all_eq_true.mp List.all_takeWhile, blank⟩
  rw [trim, ← split, dropStart, List.takeWhile_append_dropWhile]

namespace Overlooks

variable {β : Type} {read : List Char → β} {c separator : Char}

theorem read_trim (overlooks : ∀ c, isBlank c = true → Overlooks read c) (text : List Char) :
    read (trim text) = read text := by
  have front : ∀ text, read (text.dropWhile isBlank) = read text := by
    intro text
    induction text with
    | nil => rfl
    | cons c rest ih =>
      cases blank : isBlank c with
      | true => rw [List.dropWhile_cons_of_pos blank, ih, (overlooks c blank).front]
      | false => rw [List.dropWhile_cons_of_neg (by simp [blank])]
  -- Dropped from its end, so the induction is on the text turned round.
  have back : ∀ turned : List Char,
      read (turned.dropWhile isBlank).reverse = read turned.reverse := by
    intro turned
    induction turned with
    | nil => rfl
    | cons c rest ih =>
      cases blank : isBlank c with
      | true =>
        rw [List.dropWhile_cons_of_pos blank, ih, List.reverse_cons, (overlooks c blank).back]
      | false => rw [List.dropWhile_cons_of_neg (by simp [blank])]
  rw [trim, dropEnd, back, List.reverse_reverse]
  exact front text

theorem around (before after : List Char) (front : ∀ c ∈ before, Overlooks read c)
    (back : ∀ c ∈ after, Overlooks read c) (text : List Char) :
    read (before ++ (text ++ after)) = read text := by
  induction before with
  | nil =>
    induction after using List.reverseRecOn with
    | nil => simp
    | append_singleton rest c ih =>
      have last := back c (by simp)
      have inner := ih fun c mem => back c (by simp [mem])
      rw [List.nil_append, ← List.append_assoc, last.back]
      exact inner
  | cons c rest ih =>
    rw [List.cons_append, (front c List.mem_cons_self).front]
    exact ih fun c mem => front c (List.mem_cons_of_mem _ mem)

theorem pieces (overlooks : Overlooks read c) (apart : c ≠ separator) :
    Overlooks (fun text => (pieces separator text).map read) c where
  front text := by
    obtain ⟨first, late, cut⟩ := exists_pieces separator text
    simp [Text.pieces, apart, cut, overlooks.front]
  back text := by
    obtain ⟨early, last, ends, meet⟩ := pieces_append separator text
    have single : Text.pieces separator [c] = [[c]] := by simp [Text.pieces, apart]
    simp [meet _ _ _ single, ends, overlooks.back]

theorem before (overlooks : Overlooks read c) (apart : c ≠ separator) (left right : List Char) :
    (Text.pieces separator (left ++ c :: separator :: right)).map read =
      (Text.pieces separator (left ++ separator :: right)).map read := by
  have closed : left ++ c :: separator :: right = (left ++ [c]) ++ separator :: right := by simp
  rw [closed, pieces_separated, pieces_separated, List.map_append, List.map_append]
  exact congrArg (· ++ _) ((overlooks.pieces apart).back left)

theorem after (overlooks : Overlooks read c) (apart : c ≠ separator) (left right : List Char) :
    (Text.pieces separator (left ++ separator :: c :: right)).map read =
      (Text.pieces separator (left ++ separator :: right)).map read := by
  rw [pieces_separated, pieces_separated, List.map_append, List.map_append]
  exact congrArg _ ((overlooks.pieces apart).front right)

end Overlooks

end ObjectSpace.Text
