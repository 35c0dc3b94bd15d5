import ObjectSpace.Address.Parse
import ObjectSpace.Proofs.Collecting
import ObjectSpace.Proofs.Text.Cutting

set_option autoImplicit false

namespace ObjectSpace.Address

def partsIn (text : List Char) : List (List Char) :=
  (Text.pieces Reference.separator text).map Text.trim

def rowsIn (text : List Char) : List (List (List Char)) :=
  (Text.pieces pathSeparator text).map partsIn

def isVoid (parts : List (List Char)) : Bool := parts == [[]]

def readParts (parts : List (List Char)) : Option Address :=
  (ofPieces "" (Text.dropEnd List.isEmpty parts)).toOption

section Pieces

variable {text : String} {workspace object version : List Char} {address : Address}

theorem ofPieces_pair_ok :
    ofPieces text [workspace, object] = .ok address ↔ ∃ key builder,
      workspaceKey workspace = .ok key ∧ withObject { workspace := key } object = .ok builder ∧
      builder.build = .ok address := by
  simp only [ofPieces, bind_eq_ok, mapError_eq_ok, exists_and_left]

theorem ofPieces_triple_ok :
    ofPieces text [workspace, object, version] = .ok address ↔ ∃ key builder number whole,
      workspaceKey workspace = .ok key ∧ withObject { workspace := key } object = .ok builder ∧
      versionNumber? version = some number ∧ builder.withVersion (some number) = .ok whole ∧
      whole.build = .ok address := by
  cases numbered : versionNumber? version with
  | none => simp [ofPieces, bind_eq_ok, numbered, throw, throwThe, MonadExceptOf.throw]
  | some number =>
    simp only [ofPieces, bind_eq_ok, mapError_eq_ok, numbered, Option.some.injEq, exists_and_left,
      exists_eq_left']

-- The text itself only shows in errors.
theorem ofPieces_ok_iff {pieces : List (List Char)} (other : String) :
    ofPieces text pieces = .ok address ↔ ofPieces other pieces = .ok address := by
  match pieces with
  | [] => simp [ofPieces, throw, throwThe, MonadExceptOf.throw]
  | [_] => simp [ofPieces, throw, throwThe, MonadExceptOf.throw]
  | [_, _] => rw [ofPieces_pair_ok, ofPieces_pair_ok]
  | [_, _, _] => rw [ofPieces_triple_ok, ofPieces_triple_ok]
  | _ :: _ :: _ :: _ :: _ => simp [ofPieces, throw, throwThe, MonadExceptOf.throw]

end Pieces

theorem partsIn_overlooks {c : Char} (blank : Text.isBlank c = true) : Text.Overlooks partsIn c :=
  (Text.trim_overlooks blank).pieces (Text.ne_of_isBlank blank (by decide))

theorem partsIn_trim (text : List Char) : partsIn (Text.trim text) = partsIn text :=
  Text.Overlooks.read_trim (fun _ => partsIn_overlooks) text

theorem parse_ok_iff {text : String} {address : Address} :
    parse text = .ok address ↔ readParts (partsIn text.toList) = some address := by
  rw [readParts, toOption_eq_some_iff, ← partsIn_trim, parse]
  by_cases empty : Text.trim text.toList = []
  · simp [empty, partsIn, Text.pieces, ofPieces, Text.dropEnd, throw, throwThe,
      MonadExceptOf.throw]
  · rw [if_neg empty, ofPieces_ok_iff text]
    change _ ↔ ofPieces text (trimmedPieces Reference.separator (Text.trim text.toList)) = _
    cases ofPieces text (trimmedPieces Reference.separator (Text.trim text.toList)) <;>
      simp [bind, Except.bind]

theorem parseFrom_cons_ok {absolute : Bool} {position : Nat} {piece : List Char}
    {rest : List (List Char)} {addresses : List Address} :
    parseFrom absolute position (piece :: rest) = .ok addresses ↔
      ∃ address others, parse (String.ofList piece) absolute = .ok address ∧
        parseFrom absolute (position + 1) rest = .ok others ∧ address :: others = addresses := by
  simp only [parseFrom, bind_eq_ok, mapError_eq_ok, exists_and_left, pure, Except.pure,
    Except.ok.injEq]

theorem parseFrom_ok_iff {position : Nat} {pieces : List (List Char)} {addresses : List Address} :
    parseFrom false position pieces = .ok addresses ↔
      pieces.map (fun piece => readParts (partsIn piece)) = addresses.map some := by
  induction pieces generalizing position addresses with
  | nil => cases addresses <;> simp [parseFrom]
  | cons piece rest ih =>
    have here : ∀ address, parse (String.ofList piece) = .ok address ↔
        readParts (partsIn piece) = some address := by
      intro address
      rw [parse_ok_iff, String.toList_ofList]
    rw [parseFrom_cons_ok]
    simp only [here, ih]
    cases addresses <;> simp

theorem isVoid_partsIn (piece : List Char) :
    isVoid (partsIn piece) = (Text.trim piece).isEmpty := by
  rw [Bool.eq_iff_iff, List.isEmpty_iff, isVoid, beq_iff_eq]
  constructor
  · intro void
    simp only [partsIn, List.map_eq_singleton_iff] at void
    obtain ⟨whole, cut, empty⟩ := void
    have joined := Text.join_pieces Reference.separator piece
    rw [cut] at joined
    rwa [← joined]
  · intro empty
    rw [← partsIn_trim, empty]
    rfl

def readRows (text : List Char) : List (List (List Char)) := Text.dropEnd isVoid (rowsIn text)

theorem readRows_eq (text : List Char) :
    readRows text = (trimmedPieces pathSeparator text).map partsIn := by
  have same : isVoid ∘ partsIn = List.isEmpty ∘ Text.trim := funext isVoid_partsIn
  simp only [readRows, rowsIn, trimmedPieces, Text.dropEnd_map, same, List.map_map]
  exact List.map_congr_left fun piece _ => (partsIn_trim piece).symm

theorem parsePath_ok_iff {text : String} {addresses : List Address} :
    parsePath text = .ok addresses ↔
      addresses ≠ [] ∧ (readRows text.toList).map readParts = addresses.map some := by
  rw [readRows_eq, parsePath, List.map_map]
  cases trimmedPieces pathSeparator text.toList with
  | nil => cases addresses <;> simp
  | cons first rest =>
    change parseFrom false 1 (first :: rest) = _ ↔ _
    rw [parseFrom_ok_iff]
    cases addresses <;> simp [Function.comp_def]

theorem parseChain_ok_iff {text : String} {address : Address} :
    parseChain text = .ok address ↔ ∃ head hops,
      (readRows text.toList).map readParts = (head :: hops).map some ∧
      (head.toBuilder.withPath hops).build = .ok address := by
  rw [parseChain]
  constructor
  · intro read
    cases path : parsePath text with
    | error cause => simp [path, bind, Except.bind] at read
    | ok addresses =>
      obtain ⟨some, rows⟩ := parsePath_ok_iff.mp path
      cases addresses with
      | nil => exact absurd rfl some
      | cons head hops => exact ⟨head, hops, rows, by simpa [path, bind, Except.bind] using read⟩
  · rintro ⟨head, hops, rows, built⟩
    have path : parsePath text = .ok (head :: hops) := parsePath_ok_iff.mpr ⟨by simp, rows⟩
    simpa [path, bind, Except.bind] using built

end ObjectSpace.Address
