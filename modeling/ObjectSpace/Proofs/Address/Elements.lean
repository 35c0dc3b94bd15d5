import Mathlib.Data.List.Forall2
import ObjectSpace.Proofs.Address.Grammar

set_option autoImplicit false

namespace ObjectSpace

namespace Text

theorem getLast?_dropEnd {α : Type} {p : α → Bool} {elements : List α} {last : α}
    (ends : (dropEnd p elements).getLast? = some last) : p last = false := by
  rw [dropEnd, List.getLast?_reverse] at ends
  have first := List.head?_dropWhile_not p elements.reverse
  rw [ends] at first
  exact first

theorem dropEnd_of_getLast? {α : Type} {p : α → Bool} {elements : List α}
    (kept : ∀ last, elements.getLast? = some last → p last = false) :
    dropEnd p elements = elements := by
  induction elements using List.reverseRecOn with
  | nil => rfl
  | append_singleton front last ih =>
    have here : p last = false := kept last (by simp)
    simp [dropEnd, here]

end Text

namespace Address

-- Pieces are trimmed, and blank ones at the end are dropped.
structure Elements (text : List Char) (elements : List (List Char)) : Prop where
  written : ∃ pieces tail, text = Text.join pathSeparator (pieces ++ tail) ∧ pieces ++ tail ≠ [] ∧
    (∀ piece ∈ pieces ++ tail, pathSeparator ∉ piece) ∧ pieces.map Text.trim = elements ∧
    ∀ piece ∈ tail, Text.trim piece = []
  ends : elements.getLast? ≠ some []

theorem elements_trimmedPieces (text : List Char) :
    Elements text (trimmedPieces pathSeparator text) := by
  obtain ⟨void, split, blank⟩ := Text.exists_dropEnd List.isEmpty
    ((Text.pieces pathSeparator text).map Text.trim)
  obtain ⟨pieces, tail, cut, kept, dropped⟩ := List.map_eq_append_iff.mp split
  constructor
  case written =>
    refine ⟨pieces, tail, ?_, ?_, ?_, kept, ?_⟩
    · rw [← cut, Text.join_pieces]
    · rw [← cut]
      exact Text.pieces_ne_nil _ _
    · rw [← cut]
      exact fun piece => Text.not_mem_of_mem_pieces
    · intro piece mem
      have listed : Text.trim piece ∈ void := dropped ▸ List.mem_map_of_mem mem
      exact List.isEmpty_iff.mp (blank _ listed)
  case ends =>
    intro last
    exact absurd (Text.getLast?_dropEnd last) (by simp)

theorem elements_iff {text : List Char} {elements : List (List Char)} :
    Elements text elements ↔ elements = trimmedPieces pathSeparator text := by
  constructor
  · rintro ⟨⟨pieces, tail, rfl, some, whole, rfl, blank⟩, ends⟩
    have void : ∀ piece ∈ tail.map Text.trim, piece.isEmpty = true := by
      simpa using blank
    have kept : ∀ last, (pieces.map Text.trim).getLast? = .some last → last.isEmpty = false := by
      intro last found
      rw [List.isEmpty_eq_false_iff]
      rintro rfl
      exact ends found
    rw [trimmedPieces, Text.pieces_join some whole, List.map_append,
      Text.dropEnd_append_of_all void, Text.dropEnd_of_getLast? kept]
  · rintro rfl
    exact elements_trimmedPieces text

def ReadsAs (absolute : Bool) (element : List Char) (address : Address) : Prop :=
  parse (String.ofList element) absolute = .ok address

def FailsAt (absolute : Bool) (elements : List (List Char)) (position : Nat)
    (cause : AddressError) : Prop :=
  ∃ before element after, elements = before ++ element :: after ∧ position = before.length + 1 ∧
    (∀ earlier ∈ before, ∃ address, ReadsAs absolute earlier address) ∧
    parse (String.ofList element) absolute = .error cause

section From

variable {absolute : Bool} {start : Nat} {elements : List (List Char)}

theorem parseFrom_eq_ok_iff {addresses : List Address} :
    parseFrom absolute start elements = .ok addresses ↔
      List.Forall₂ (ReadsAs absolute) elements addresses := by
  induction elements generalizing start addresses with
  | nil =>
    constructor
    · intro read
      cases read
      exact .nil
    · intro none
      cases none
      rfl
  | cons element rest ih =>
    rw [parseFrom_cons_ok]
    constructor
    · rintro ⟨address, others, here, later, rfl⟩
      exact .cons here (ih.mp later)
    · intro all
      cases all with
      | cons here later => exact ⟨_, _, here, ih.mpr later, rfl⟩

theorem parseFrom_cons_error {element : List Char} {cause : AddressError}
    (failed : parse (String.ofList element) absolute = .error cause) :
    parseFrom absolute start (element :: elements) = .error (.atPosition start cause) := by
  rw [parseFrom, failed]
  rfl

theorem parseFrom_cons_reads {element : List Char} {address : Address} {cause : AddressError}
    (reads : ReadsAs absolute element address) :
    parseFrom absolute start (element :: elements) = .error cause ↔
      parseFrom absolute (start + 1) elements = .error cause := by
  rw [parseFrom, reads]
  change (parseFrom absolute (start + 1) elements >>= _) = _ ↔ _
  cases parseFrom absolute (start + 1) elements <;> simp [bind, Except.bind, pure, Except.pure]

theorem parseFrom_eq_error_iff {cause : AddressError} :
    parseFrom absolute start elements = .error cause ↔ ∃ before element after inner,
      elements = before ++ element :: after ∧
        (∀ earlier ∈ before, ∃ address, ReadsAs absolute earlier address) ∧
        parse (String.ofList element) absolute = .error inner ∧
        cause = .atPosition (start + before.length) inner := by
  constructor
  · intro failed
    induction elements generalizing start with
    | nil => cases failed
    | cons element rest ih =>
      cases here : parse (String.ofList element) absolute with
      | error inner =>
        rw [parseFrom_cons_error here] at failed
        cases failed
        exact ⟨[], element, rest, inner, rfl, by simp, here, rfl⟩
      | ok address =>
        obtain ⟨before, later, after, inner, rfl, fine, there, same⟩ :=
          ih ((parseFrom_cons_reads here).mp failed)
        refine ⟨element :: before, later, after, inner, rfl, ?_, there, ?_⟩
        · exact List.forall_mem_cons.mpr ⟨⟨address, here⟩, fine⟩
        · rw [same, List.length_cons, Nat.add_right_comm, Nat.add_assoc]
  · rintro ⟨before, element, after, inner, rfl, fine, failed, rfl⟩
    induction before generalizing start with
    | nil => exact parseFrom_cons_error failed
    | cons first rest ih =>
      have parts := List.forall_mem_cons.mp fine
      obtain ⟨address, here⟩ := parts.1
      have later := @ih (start + 1) parts.2
      rw [Nat.add_assoc, Nat.add_comm 1] at later
      exact (parseFrom_cons_reads here).mpr later

end From

section Path

variable {text : String} {elements : List (List Char)}

theorem parsePath_eq (cut : Elements text.toList elements) (absolute : Bool) :
    parsePath text absolute =
      if elements = [] then .error (.empty .path) else parseFrom absolute 1 elements := by
  rw [parsePath, ← elements_iff.mp cut]
  cases elements <;> rfl

theorem validatePath_eq_error_iff {absolute : Bool} {cause : AddressError} :
    validatePath text absolute = .error cause ↔ parsePath text absolute = .error cause := by
  rw [validatePath]
  cases parsePath text absolute <;> simp [Except.map]

theorem validatePath_eq_ok_iff {absolute : Bool} :
    validatePath text absolute = .ok () ↔ ∃ addresses, parsePath text absolute = .ok addresses := by
  rw [validatePath]
  cases parsePath text absolute <;> simp [Except.map]

theorem exists_forall₂_iff {absolute : Bool} :
    (∃ addresses, List.Forall₂ (ReadsAs absolute) elements addresses) ↔
      ∀ element ∈ elements, ∃ address, ReadsAs absolute element address := by
  induction elements with
  | nil => exact ⟨fun _ => by simp, fun _ => ⟨[], .nil⟩⟩
  | cons element rest ih =>
    rw [List.forall_mem_cons, ← ih]
    constructor
    · rintro ⟨_, all⟩
      cases all with
      | cons here later => exact ⟨⟨_, here⟩, _, later⟩
    · rintro ⟨⟨address, here⟩, addresses, later⟩
      exact ⟨address :: addresses, .cons here later⟩

theorem parsePath_eq_ok_iff (cut : Elements text.toList elements) {absolute : Bool}
    {addresses : List Address} :
    parsePath text absolute = .ok addresses ↔
      elements ≠ [] ∧ List.Forall₂ (ReadsAs absolute) elements addresses := by
  rw [parsePath_eq cut]
  split
  next empty => simp [empty]
  next filled => simp [filled, parseFrom_eq_ok_iff]

theorem locator_of_parse {address : Address} (read : parse text = .ok address) :
    address.locator = .direct := by
  obtain ⟨parts, _, stands⟩ := parse_iff_spells.mp read
  cases stands <;> rfl

theorem parseChain_of_parsePath {head : Address} {hops : List Address}
    (path : parsePath text = .ok (head :: hops)) :
    parseChain text = .ok (.mk head.target (if hops = [] then .direct else .path hops)) := by
  obtain ⟨_, all⟩ := (parsePath_eq_ok_iff (elements_trimmedPieces _)).mp path
  obtain ⟨element, _, reads, _⟩ := List.forall₂_cons_right_iff.mp all
  have direct := locator_of_parse reads
  obtain ⟨target, locator⟩ := head
  obtain rfl : locator = .direct := direct
  cases hops <;> simp only [parseChain, path] <;> rfl

theorem parseChain_eq_error_iff {cause : AddressError} :
    parseChain text = .error cause ↔ parsePath text = .error cause := by
  cases path : parsePath text with
  | error other => simp [parseChain, path, bind, Except.bind]
  | ok addresses =>
    obtain ⟨head, hops, rfl⟩ := List.exists_cons_of_ne_nil (parsePath_ok_iff.mp path).1
    simp [parseChain_of_parsePath path]

structure ReadByElements (text : String) (elements : List (List Char)) : Prop where
  empty : elements = [] → ∀ absolute, parsePath text absolute = .error (.empty .path) ∧
    validatePath text absolute = .error (.empty .path)
  reads : elements ≠ [] → ∀ absolute addresses, parsePath text absolute = .ok addresses ↔
    List.Forall₂ (ReadsAs absolute) elements addresses
  valid : elements ≠ [] → ∀ absolute, validatePath text absolute = .ok () ↔
    ∀ element ∈ elements, ∃ address, ReadsAs absolute element address
  fails : elements ≠ [] → ∀ absolute cause, parsePath text absolute = .error cause ↔
    ∃ position inner, FailsAt absolute elements position inner ∧ cause = .atPosition position inner
  invalid : ∀ absolute cause, validatePath text absolute = .error cause ↔
    parsePath text absolute = .error cause
  chained : ∀ head hops, parsePath text = .ok (head :: hops) → ∃ address,
    parseChain text = .ok address ∧ address.target = head.target ∧ address.hops = hops ∧
      address.isLookup = false ∧ (address.hasPath = false ↔ elements.length = 1)
  unchained : ∀ cause, parseChain text = .error cause ↔ parsePath text = .error cause

theorem readByElements (cut : Elements text.toList elements) : ReadByElements text elements := by
  constructor
  case empty =>
    intro none absolute
    have refused : parsePath text absolute = .error (.empty .path) := by
      rw [parsePath_eq cut, if_pos none]
    exact ⟨refused, validatePath_eq_error_iff.mpr refused⟩
  case reads =>
    intro filled absolute addresses
    rw [parsePath_eq_ok_iff cut, and_iff_right filled]
  case valid =>
    intro filled absolute
    simp only [validatePath_eq_ok_iff, parsePath_eq_ok_iff cut, and_iff_right filled,
      exists_forall₂_iff]
  case fails =>
    intro filled absolute cause
    rw [parsePath_eq cut, if_neg filled, parseFrom_eq_error_iff]
    constructor
    · rintro ⟨before, element, after, inner, whole, fine, here, rfl⟩
      exact ⟨_, inner, ⟨before, element, after, whole, rfl, fine, here⟩, by rw [Nat.add_comm]⟩
    · rintro ⟨_, inner, ⟨before, element, after, whole, rfl, fine, here⟩, rfl⟩
      exact ⟨before, element, after, inner, whole, fine, here, by rw [Nat.add_comm]⟩
  case invalid => exact fun absolute cause => validatePath_eq_error_iff
  case chained =>
    intro head hops path
    have length := ((parsePath_eq_ok_iff cut).mp path).2.length_eq
    refine ⟨_, parseChain_of_parsePath path, rfl, ?_⟩
    cases hops <;> simp [length, Address.hops, isLookup, hasPath, locator]
  case unchained => exact fun cause => parseChain_eq_error_iff

-- Blank elements still count in error positions.
theorem path_read_by_elements (text : String) :
    ∃ elements, (∀ others, Elements text.toList others ↔ others = elements) ∧
      ReadByElements text elements :=
  ⟨_, fun _ => elements_iff, readByElements (elements_trimmedPieces _)⟩

example : parsePath "1/1; ;2;" = .error (.atPosition 2 (.empty .reference)) :=
  by decide +kernel

end Path

end Address

end ObjectSpace
