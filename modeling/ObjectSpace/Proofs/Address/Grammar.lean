import ObjectSpace.Proofs.Address.Spelling
import ObjectSpace.Proofs.Text.Numerals

set_option autoImplicit false

namespace ObjectSpace

namespace Name

structure SpellsObject (text : List Char) : Prop where
  length : 1 ≤ text.length ∧ text.length ≤ 255
  legal : ∀ c ∈ text, c.isAlphanum = true ∨ c ∈ ['.', '_', '|', '-']
  word : ¬ ∃ digits, digits ≠ [] ∧ (∀ c ∈ digits, c.isDigit = true) ∧
    (text = digits ∨ text = '-' :: digits)

structure SpellsWorkspace (text : List Char) : Prop where
  length : 1 ≤ text.length ∧ text.length ≤ 255
  legal : ∀ c ∈ text, c.isAlphanum = true ∨ c ∈ ['.', '_', ':', '-']
  parted : ':' ∉ text ∨ ∃ user rest, text = user ++ ':' :: rest ∧
    user ≠ [] ∧ ':' ∉ user ∧ rest ≠ [] ∧ ':' ∉ rest

variable {name : String}

theorem checkLength_ok_iff {field : Field} :
    checkLength field name = .ok () ↔ 1 ≤ name.toList.length ∧ name.toList.length ≤ 255 := by
  have some : 1 ≤ name.toList.length ↔ name.toList ≠ [] := List.length_pos_iff
  rw [some, checkLength]
  by_cases empty : name.toList = []
  · simp [empty]
  · by_cases long : maxLength < name.toList.length
    · have short : ¬ name.toList.length ≤ 255 := by simpa [maxLength] using long
      simp only [empty, long, short, if_true, if_false, and_false, reduceCtorEq]
    · have short : name.toList.length ≤ 255 := by simpa [maxLength] using long
      simp only [empty, long, short, if_false, ne_eq, not_false_eq_true, and_true]

theorem checkCharacters_ok_iff {named : Named} {legal : Char → Bool} :
    checkCharacters named legal name = .ok () ↔ ∀ c ∈ name.toList, legal c = true := by
  constructor
  · exact Address.legal_of_checkCharacters
  · intro clean
    have none : name.toList.find? (fun c => !legal c) = none := by simpa using clean
    simp [checkCharacters, none]

theorem isIntegerLiteral_iff {text : List Char} :
    isIntegerLiteral text = true ↔ ∃ digits, digits ≠ [] ∧ (∀ c ∈ digits, c.isDigit = true) ∧
      (text = digits ∨ text = '-' :: digits) := by
  unfold isIntegerLiteral
  split
  next rest =>
    constructor
    · intro read
      exact ⟨rest, by simpa using read⟩
    · rintro ⟨digits, some, all, rfl | same⟩
      · exact absurd (all '-' List.mem_cons_self) (by decide)
      · cases same
        simpa [some] using all
  next unsigned =>
    constructor
    · intro read
      exact ⟨text, by simpa using read⟩
    · rintro ⟨digits, some, all, rfl | same⟩
      · simpa [some] using all
      · exact absurd same (unsigned digits)

theorem checkObject_ok_iff : checkObject name = .ok () ↔ SpellsObject name.toList := by
  have word : (if isIntegerLiteral name.toList then Except.error (.integerObjectName name)
      else pure () : Except ValueError Unit) = .ok () ↔ ¬ isIntegerLiteral name.toList = true := by
    split <;> simp_all [pure, Except.pure]
  have legal : ∀ c, isObjectCharacter c = true ↔
      c.isAlphanum = true ∨ c ∈ ['.', '_', '|', '-'] := by
    intro c
    simp only [isObjectCharacter, Bool.or_eq_true, beq_iff_eq, List.mem_cons, List.not_mem_nil]
    tauto
  simp only [checkObject, bind_unit_eq_ok, checkLength_ok_iff, checkCharacters_ok_iff, legal, word,
    isIntegerLiteral_iff]
  constructor
  · intro checked
    exact ⟨checked.1, checked.2.1, checked.2.2⟩
  · intro spelled
    exact ⟨spelled.length, spelled.legal, spelled.word⟩

theorem checkDelimiter_ok_iff :
    checkDelimiter name = .ok () ↔ ':' ∉ name.toList ∨ ∃ user rest,
      name.toList = user ++ ':' :: rest ∧ user ≠ [] ∧ ':' ∉ user ∧ rest ≠ [] ∧ ':' ∉ rest := by
  have joined := Text.join_pieces delimiter name.toList
  have whole : ∀ piece ∈ Text.pieces delimiter name.toList, ':' ∉ piece :=
    fun piece listed => Text.not_mem_of_mem_pieces listed
  constructor
  · intro checked
    unfold checkDelimiter at checked
    split at checked
    next piece cut =>
      rw [cut] at joined whole
      exact .inl (joined ▸ whole piece List.mem_cons_self)
    next user rest cut =>
      rw [cut] at joined whole
      by_cases userless : user = []
      · simp [userless] at checked
      · by_cases restless : rest = []
        · simp [userless, restless] at checked
        · exact .inr ⟨user, rest, joined.symm, userless, whole user (by simp), restless,
            whole rest (by simp)⟩
    next => cases checked
  · rintro (single | ⟨user, rest, parted, userful, user_whole, restful, rest_whole⟩)
    · have cut : Text.pieces delimiter name.toList = [name.toList] :=
        Text.pieces_of_not_mem single
      simp [checkDelimiter, cut]
    · have cut : Text.pieces delimiter name.toList = [user, rest] := by
        rw [parted, delimiter, Text.pieces_separated, Text.pieces_of_not_mem user_whole,
          Text.pieces_of_not_mem rest_whole]
        rfl
      simp [checkDelimiter, cut, userful, restful]

theorem checkWorkspace_ok_iff : checkWorkspace name = .ok () ↔ SpellsWorkspace name.toList := by
  have legal : ∀ c, isWorkspaceCharacter c = true ↔
      c.isAlphanum = true ∨ c ∈ ['.', '_', ':', '-'] := by
    intro c
    simp only [isWorkspaceCharacter, delimiter, Bool.or_eq_true, beq_iff_eq, List.mem_cons,
      List.not_mem_nil]
    tauto
  simp only [checkWorkspace, bind_unit_eq_ok, checkLength_ok_iff, checkCharacters_ok_iff, legal,
    checkDelimiter_ok_iff]
  constructor
  · intro checked
    exact ⟨checked.1, checked.2.1, checked.2.2⟩
  · intro spelled
    exact ⟨spelled.length, spelled.legal, spelled.parted⟩

end Name

namespace Address

inductive SpellsWorkspace : List Char → WorkspaceKey → Prop where
  | id {part : List Char} {id : Int} (literal : Text.Literal part id) (positive : 1 ≤ id) :
      SpellsWorkspace part (.id id.toNat)
  | name {part : List Char} (word : ∀ id, ¬ Text.Literal part id)
      (spelled : Name.SpellsWorkspace part) : SpellsWorkspace part (.name (String.ofList part))

inductive SpellsObject : List Char → ObjectKey → Prop where
  | id {part : List Char} {id : Int} (literal : Text.Literal part id) (positive : 1 ≤ id) :
      SpellsObject part (.id id.toNat)
  | name {part : List Char} (word : ∀ id, ¬ Text.Literal part id)
      (spelled : Name.SpellsObject part) : SpellsObject part (.name (String.ofList part))

structure SpellsVersion (part : List Char) (version : Int) : Prop where
  literal : Text.Literal part version
  positive : 1 ≤ version
  small : version ≤ 4294967295

inductive StandsFor : List (List Char) → Address → Prop where
  | latest {workspace object : List Char} {key : WorkspaceKey} {called : ObjectKey}
      (within : SpellsWorkspace workspace key) (calls : SpellsObject object called) :
      StandsFor [workspace, object] (.mk ⟨key, called, none, {}⟩ .direct)
  | pinned {workspace object version : List Char} {key : WorkspaceKey} {called : ObjectKey}
      {number : Int} (within : SpellsWorkspace workspace key) (calls : SpellsObject object called)
      (pins : SpellsVersion version number) :
      StandsFor [workspace, object, version] (.mk ⟨key, called, some number.toNat, {}⟩ .direct)

def Blank (text : List Char) : Prop := ∀ c ∈ text, Text.isBlank c = true

inductive Padded (part : List Char) : List Char → Prop where
  | blanks {before after : List Char} (front : Blank before) (back : Blank after) :
      Padded part (before ++ (part ++ after))

inductive Trailing : List Char → Prop where
  | nil : Trailing []
  | separator {blanks rest : List Char} (blank : Blank blanks) (later : Trailing rest) :
      Trailing ('/' :: (blanks ++ rest))

inductive Laid : List (List Char) → List Char → Prop where
  | last {part text tail : List Char} (padded : Padded part text) (trailing : Trailing tail) :
      Laid [part] (text ++ tail)
  | cons {part text rest : List Char} {parts : List (List Char)} (padded : Padded part text)
      (later : Laid parts rest) : Laid (part :: parts) (text ++ '/' :: rest)

def Spells (text : List Char) (address : Address) : Prop :=
  ∃ parts, Laid parts text ∧ StandsFor parts address

section StandsFor

variable {part : List Char} {builder next : AddressBuilder}

theorem workspaceKey_ok_iff {key : WorkspaceKey} :
    workspaceKey part = .ok key ↔ SpellsWorkspace part key := by
  constructor
  · intro read
    cases number : Text.signed? part with
    | some id =>
      by_cases small : id < 1
      · simp [workspaceKey, number, WorkspaceKey.ofId, small] at read
      · simp only [workspaceKey, number, WorkspaceKey.ofId, small, if_false, Except.ok.injEq]
          at read
        exact read ▸ .id (Text.signed?_eq_some_iff.mp number) (by omega)
    | none =>
      simp only [workspaceKey, number, WorkspaceKey.ofName, bind_eq_ok] at read
      obtain ⟨_, valid, same⟩ := read
      cases same
      have spelled := Name.checkWorkspace_ok_iff.mp valid
      rw [String.toList_ofList] at spelled
      exact .name (Text.signed?_eq_none_iff.mp number) spelled
  · intro spells
    cases spells with
    | @id id literal positive =>
      have large : ¬ id < 1 := by omega
      simp [workspaceKey, Text.signed?_eq_some_iff.mpr literal, WorkspaceKey.ofId, large]
    | name word spelled =>
      have valid : Name.checkWorkspace (String.ofList part) = .ok () :=
        Name.checkWorkspace_ok_iff.mpr (by rwa [String.toList_ofList])
      simp only [workspaceKey, Text.signed?_eq_none_iff.mpr word, WorkspaceKey.ofName, valid]
      rfl

theorem withObject_ok_iff :
    withObject builder part = .ok next ↔
      ∃ object, SpellsObject part object ∧ { builder with object := some object } = next := by
  constructor
  · intro read
    cases number : Text.signed? part with
    | some id =>
      by_cases small : id < 1
      · simp [withObject, number, AddressBuilder.withId, small] at read
      · simp only [withObject, number, AddressBuilder.withId, small, if_false, Bool.false_eq_true,
          false_and, Except.ok.injEq] at read
        exact ⟨_, .id (Text.signed?_eq_some_iff.mp number) (by omega), read⟩
    | none =>
      cases valid : Name.checkObject (String.ofList part) with
      | error cause => simp [withObject, number, AddressBuilder.withName, valid] at read
      | ok =>
        simp only [withObject, number, AddressBuilder.withName, valid, if_false,
          Bool.false_eq_true, false_and, Except.ok.injEq] at read
        have spelled := Name.checkObject_ok_iff.mp valid
        rw [String.toList_ofList] at spelled
        exact ⟨_, .name (Text.signed?_eq_none_iff.mp number) spelled, read⟩
  · rintro ⟨object, spells, rfl⟩
    cases spells with
    | @id id literal positive =>
      have large : ¬ id < 1 := by omega
      simp [withObject, Text.signed?_eq_some_iff.mpr literal, AddressBuilder.withId, large]
    | name word spelled =>
      have valid : Name.checkObject (String.ofList part) = .ok () :=
        Name.checkObject_ok_iff.mpr (by rwa [String.toList_ofList])
      simp [withObject, Text.signed?_eq_none_iff.mpr word, AddressBuilder.withName, valid]

theorem withVersion_ok_iff :
    (∃ number, versionNumber? part = some number ∧
        builder.withVersion (some number) = .ok next) ↔
      ∃ number, SpellsVersion part number ∧
        { builder with version := some number.toNat } = next := by
  have bound : Text.versionBound = 4294967296 := rfl
  constructor
  · rintro ⟨number, numbered, given⟩
    simp only [versionNumber?, Option.filter_eq_some_iff, decide_eq_true_eq,
      Text.signed?_eq_some_iff] at numbered
    by_cases small : number < 1
    · simp [AddressBuilder.withVersion, small] at given
    · have bounded : number.toNat < Text.versionBound := by omega
      simp only [AddressBuilder.withVersion, small, bounded, if_true, if_false,
        Except.ok.injEq] at given
      exact ⟨number, ⟨numbered.1, by omega, by omega⟩, given⟩
  · rintro ⟨number, pins, rfl⟩
    have literal := pins.literal
    have positive := pins.positive
    have small := pins.small
    have large : ¬ number < 1 := by omega
    have bounded : number.toNat < Text.versionBound := by omega
    refine ⟨number, ?_, by simp [AddressBuilder.withVersion, large, bounded]⟩
    simp only [versionNumber?, Option.filter_eq_some_iff, decide_eq_true_eq,
      Text.signed?_eq_some_iff]
    exact ⟨literal, by omega⟩

theorem ofPieces_ok_iff_standsFor {text : String} {pieces : List (List Char)} {address : Address} :
    ofPieces text pieces = .ok address ↔ StandsFor pieces address := by
  constructor
  · intro read
    match pieces with
    | [] => cases read
    | [_] => cases read
    | [workspace, object] =>
      obtain ⟨key, builder, named, made, built⟩ := ofPieces_pair_ok.mp read
      obtain ⟨called, calls, rfl⟩ := withObject_ok_iff.mp made
      cases built
      exact .latest (workspaceKey_ok_iff.mp named) calls
    | [workspace, object, version] =>
      obtain ⟨key, builder, number, whole, named, made, numbered, given, built⟩ :=
        ofPieces_triple_ok.mp read
      obtain ⟨called, calls, rfl⟩ := withObject_ok_iff.mp made
      obtain ⟨number, pins, rfl⟩ := withVersion_ok_iff.mp ⟨number, numbered, given⟩
      cases built
      exact .pinned (workspaceKey_ok_iff.mp named) calls pins
    | _ :: _ :: _ :: _ :: _ => cases read
  · intro stands
    cases stands with
    | @latest _ _ key called within calls =>
      have made : withObject { workspace := key } _ = .ok _ :=
        withObject_ok_iff.mpr ⟨called, calls, rfl⟩
      exact ofPieces_pair_ok.mpr ⟨key, _, workspaceKey_ok_iff.mpr within, made, rfl⟩
    | @pinned _ _ _ key called number within calls pins =>
      have made : withObject { workspace := key } _ = .ok _ :=
        withObject_ok_iff.mpr ⟨called, calls, rfl⟩
      obtain ⟨number, numbered, given⟩ := withVersion_ok_iff.mpr ⟨number, pins, rfl⟩
      exact ofPieces_triple_ok.mpr
        ⟨key, _, number, _, workspaceKey_ok_iff.mpr within, made, numbered, given, rfl⟩

end StandsFor

section Laid

theorem padded_trim (text : List Char) : Padded (Text.trim text) text := by
  obtain ⟨before, after, split, front, back⟩ := Text.exists_trim text
  have padded : Padded (Text.trim text) (before ++ (Text.trim text ++ after)) :=
    .blanks front back
  rwa [← split] at padded

theorem blank_of_trim {text : List Char} (empty : Text.trim text = []) : Blank text := by
  have padded := padded_trim text
  rw [empty] at padded
  cases padded with
  | blanks front back =>
    simpa [Blank, or_imp, forall_and] using And.intro front back

theorem trim_eq_nil_iff {text : List Char} : Text.trim text = [] ↔ Blank text := by
  constructor
  · exact blank_of_trim
  · intro blank
    have alone := Text.Overlooks.around text [] (fun c inside => Text.trim_overlooks (blank c inside))
      (by simp) []
    simpa using alone

theorem trailing_join {pieces : List (List Char)} (blank : ∀ piece ∈ pieces, Blank piece)
    (some : pieces ≠ []) : Trailing ('/' :: Text.join '/' pieces) := by
  induction pieces with
  | nil => exact absurd rfl some
  | cons first rest ih =>
    have parted := List.forall_mem_cons.mp blank
    cases rest with
    | nil => simpa [Text.join] using Trailing.separator parted.1 .nil
    | cons second others => exact .separator parted.1 (ih parted.2 (by simp))

theorem laid_join {pieces parts : List (List Char)} (some : parts ≠ [])
    (cut : Text.dropEnd List.isEmpty (pieces.map Text.trim) = parts) :
    Laid parts (Text.join '/' pieces) := by
  induction pieces generalizing parts with
  | nil => exact absurd cut.symm some
  | cons first rest ih =>
    rw [List.map_cons, Text.dropEnd_cons] at cut
    by_cases empty : Text.dropEnd List.isEmpty (rest.map Text.trim) = []
    · -- Here the last part stands: all pieces after it are blank.
      have blank : ∀ piece ∈ rest, Blank piece := by
        intro piece listed
        have void := Text.dropEnd_eq_nil_iff.mp empty _ (List.mem_map_of_mem listed)
        exact blank_of_trim (List.isEmpty_iff.mp void)
      rw [if_pos empty] at cut
      have filled : Text.trim first ≠ [] := by
        intro void
        rw [void] at cut
        exact some cut.symm
      have single : parts = [Text.trim first] := by
        rw [← cut]
        exact Text.dropEnd_of_none (by simp [filled])
      subst single
      cases rest with
      | nil => simpa [Text.join] using Laid.last (padded_trim first) .nil
      | cons second others => exact .last (padded_trim first) (trailing_join blank (by simp))
    · rw [if_neg empty] at cut
      subst cut
      cases rest with
      | nil => exact absurd rfl empty
      | cons second others => exact .cons (padded_trim first) (ih empty rfl)

theorem partsIn_separated (left right : List Char) :
    partsIn (left ++ '/' :: right) = partsIn left ++ partsIn right := by
  rw [partsIn, Reference.separator, Text.pieces_separated, List.map_append]
  rfl

theorem partsIn_padded {part text : List Char} (legible : Legible part)
    (padded : Padded part text) : partsIn text = [part] := by
  have whole : Reference.separator ∉ part := fun inside => (legible.inked _ inside).inside rfl
  have trimmed : Text.trim part = part :=
    Text.trim_of_none fun c inside => (legible.inked c inside).unblank
  cases padded with
  | blanks front back =>
    rw [Text.Overlooks.around _ _ (fun c inside => partsIn_overlooks (front c inside))
      (fun c inside => partsIn_overlooks (back c inside)), partsIn,
      Text.pieces_of_not_mem whole, List.map_singleton, trimmed]

theorem partsIn_trailing {tail : List Char} (trailing : Trailing tail) (front : List Char) :
    Text.dropEnd List.isEmpty (partsIn (front ++ tail)) =
      Text.dropEnd List.isEmpty (partsIn front) := by
  induction trailing generalizing front with
  | nil => rw [List.append_nil]
  | @separator blanks rest blank later ih =>
    have void : partsIn blanks = [[]] := by
      have alone := Text.Overlooks.around blanks []
        (fun c inside => partsIn_overlooks (blank c inside)) (by simp) []
      simpa [partsIn, Text.pieces] using alone
    have again : front ++ '/' :: (blanks ++ rest) = (front ++ '/' :: blanks) ++ rest := by simp
    rw [again, ih, partsIn_separated, void]
    exact Text.dropEnd_append_of_all (by simp)

theorem partsIn_laid {parts : List (List Char)} {text : List Char} (laid : Laid parts text)
    (legible : ∀ part ∈ parts, Legible part) :
    Text.dropEnd List.isEmpty (partsIn text) = parts := by
  induction laid with
  | last padded trailing =>
    have alone := legible _ List.mem_cons_self
    rw [partsIn_trailing trailing, partsIn_padded alone padded]
    exact Text.dropEnd_of_none (by simp [alone.ne_nil])
  | @cons part text rest parts padded later ih =>
    have parted := List.forall_mem_cons.mp legible
    have rest := ih parted.2
    have some : parts ≠ [] := by
      cases later <;> simp
    rw [partsIn_separated, partsIn_padded parted.1 padded, List.singleton_append,
      Text.dropEnd_cons, rest, if_neg some]

end Laid

theorem legible_literal {part : List Char} {id : Int} (literal : Text.Literal part id) :
    Legible part := by
  have digits : ∀ {text : List Char} {n : Nat}, Text.Numeral text n → ∀ c ∈ text, Inked c := by
    intro text n numeral c inside
    have digit := List.all_eq_true.mp numeral.digits.2.1 c inside
    exact .of_isAlphanum (Bool.or_eq_true_iff.mpr (.inr digit))
  cases literal.spelled with
  | bare numeral => exact ⟨numeral.digits.1, digits numeral⟩
  | plus numeral | minus numeral =>
    refine ⟨by simp, List.forall_mem_cons.mpr ⟨⟨by decide, by decide, by decide⟩, digits numeral⟩⟩

theorem SpellsWorkspace.legible {part : List Char} {key : WorkspaceKey}
    (spells : SpellsWorkspace part key) : Legible part := by
  cases spells with
  | id literal positive => exact legible_literal literal
  | name word spelled =>
    have valid : Name.checkWorkspace (String.ofList part) = .ok () :=
      Name.checkWorkspace_ok_iff.mpr (by rwa [String.toList_ofList])
    simpa using legible_workspace valid

theorem SpellsObject.legible {part : List Char} {called : ObjectKey}
    (spells : SpellsObject part called) : Legible part := by
  cases spells with
  | id literal positive => exact legible_literal literal
  | name word spelled =>
    have valid : Name.checkObject (String.ofList part) = .ok () :=
      Name.checkObject_ok_iff.mpr (by rwa [String.toList_ofList])
    simpa using legible_object valid

theorem StandsFor.legible {parts : List (List Char)} {address : Address}
    (stands : StandsFor parts address) : ∀ part ∈ parts, Legible part := by
  cases stands with
  | latest within calls => simp [within.legible, calls.legible]
  | pinned within calls pins =>
    simp [within.legible, calls.legible, legible_literal pins.literal]

theorem StandsFor.ne_nil {parts : List (List Char)} {address : Address}
    (stands : StandsFor parts address) : parts ≠ [] := by
  cases stands <;> simp

theorem parse_iff_spells {text : String} {address : Address} :
    parse text = .ok address ↔ Spells text.toList address := by
  rw [parse_ok_iff, readParts, toOption_eq_some_iff, ofPieces_ok_iff_standsFor]
  constructor
  · intro stands
    have laid : Laid _ (Text.join '/' (Text.pieces '/' text.toList)) :=
      laid_join stands.ne_nil rfl
    rw [Text.join_pieces] at laid
    exact ⟨_, laid, stands⟩
  · rintro ⟨parts, laid, stands⟩
    rwa [partsIn_laid laid stands.legible]

theorem isAbsolute_iff {address : Address} :
    address.isAbsolute = true ↔
      ∃ workspace object, address.workspace = .id workspace ∧ address.object = .id object := by
  rcases address with ⟨⟨workspace, object, version, subset⟩, locator⟩
  cases workspace <;> cases object <;>
    simp [isAbsolute, Address.workspace, Address.object, target, WorkspaceKey.id?, ObjectKey.id?]

theorem parse_absolute_iff {text : String} {address : Address} :
    parse text true = .ok address ↔ parse text = .ok address ∧ address.isAbsolute = true := by
  simp only [parse]
  by_cases empty : Text.trim text.toList = []
  · simp [empty]
  · cases ofPieces text (trimmedPieces Reference.separator (Text.trim text.toList)) with
    | error cause => simp [empty, bind, Except.bind]
    | ok other =>
      cases absolute : other.isAbsolute <;> simp [empty, bind, Except.bind, absolute] <;>
        rintro rfl <;> exact absolute

theorem parse_ok_iff_spells (text : String) (address : Address) :
    (parse text = .ok address ↔ Spells text.toList address) ∧
      (parse text true = .ok address ↔ parse text = .ok address ∧
        ∃ workspace object, address.workspace = .id workspace ∧ address.object = .id object) :=
  ⟨parse_iff_spells, by rw [parse_absolute_iff, isAbsolute_iff]⟩

-- A number too large for an id is a name, though not of an object.
example : (parse " 9223372036854775808 / +1 / /").toOption =
    some (.mk ⟨.name "9223372036854775808", .id 1, none, {}⟩ .direct) := by decide +kernel

example : (parse "1/9223372036854775808").toOption = none := by decide +kernel

end Address

end ObjectSpace
