import ObjectSpace.Proofs.Address.Reading
import ObjectSpace.Proofs.Text.Numerals

set_option autoImplicit false

namespace ObjectSpace

namespace Text

theorem isBlank_of_isAlphanum {c : Char} (alphanum : c.isAlphanum = true) : isBlank c = false := by
  change (decide ('A'.val ≤ c.val ∧ c.val ≤ 'Z'.val) ||
    (decide ('a'.val ≤ c.val) && decide (c.val ≤ 'z'.val)) ||
    (decide ('0'.val ≤ c.val) && decide (c.val ≤ '9'.val))) = true at alphanum
  simp only [Bool.or_eq_true, Bool.and_eq_true, decide_eq_true_eq, UInt32.le_iff_toNat_le]
    at alphanum
  -- The bounds as numbers, for omega.
  change ((65 ≤ c.toNat ∧ c.toNat ≤ 90) ∨ (97 ≤ c.toNat ∧ c.toNat ≤ 122)) ∨
    (48 ≤ c.toNat ∧ c.toNat ≤ 57) at alphanum
  have outside : ∀ range ∈ blankRanges, ¬ (range.1 ≤ c.toNat ∧ c.toNat ≤ range.2) := by
    simp only [blankRanges, List.forall_mem_cons, List.not_mem_nil, false_implies, implies_true,
      and_true]
    omega
  simpa [isBlank] using outside

theorem signed?_decimal {n : Nat} (small : n < signedBound) :
    signed? (decimal n) = some (n : Int) := ((Unsigned.decimal n).literal small).signed?

theorem signed?_lt {part : List Char} {id : Int} (read : signed? part = some id) :
    id < signedBound := by
  have bound : signedBound = 9223372036854775808 := rfl
  have upper := (Literal.of_signed? read).upper
  omega

theorem signed?_again {part : List Char} {id : Int} (read : signed? part = some id)
    (positive : ¬ id < 1) : signed? (toString id.toNat).toList = some id := by
  have small := signed?_lt read
  have same : (id.toNat : Int) = id := Int.toNat_of_nonneg (by omega)
  rw [toList_toString, signed?_decimal (by omega), same]

end Text

namespace Address

structure Inked (c : Char) : Prop where
  unblank : Text.isBlank c = false
  inside : c ≠ Reference.separator
  within : c ≠ pathSeparator

structure Legible (part : List Char) : Prop where
  ne_nil : part ≠ []
  inked : ∀ c ∈ part, Inked c

theorem Inked.of_isAlphanum {c : Char} (alphanum : c.isAlphanum = true) : Inked c where
  unblank := Text.isBlank_of_isAlphanum alphanum
  inside := by
    rintro rfl
    exact absurd alphanum (by decide)
  within := by
    rintro rfl
    exact absurd alphanum (by decide)

theorem Inked.of_workspace {c : Char} (legal : Name.isWorkspaceCharacter c = true) : Inked c := by
  simp only [Name.isWorkspaceCharacter, Bool.or_eq_true, beq_iff_eq] at legal
  rcases legal with (((alphanum | rfl) | rfl) | rfl) | rfl
  · exact .of_isAlphanum alphanum
  all_goals exact ⟨by decide, by decide, by decide⟩

theorem Inked.of_object {c : Char} (legal : Name.isObjectCharacter c = true) : Inked c := by
  simp only [Name.isObjectCharacter, Bool.or_eq_true, beq_iff_eq] at legal
  rcases legal with (((alphanum | rfl) | rfl) | rfl) | rfl
  · exact .of_isAlphanum alphanum
  all_goals exact ⟨by decide, by decide, by decide⟩

theorem legible_number (n : Nat) : Legible (ToString.toString n).toList where
  ne_nil := by
    rw [Text.toList_toString]
    exact Text.decimal_ne_nil n
  inked c mem := by
    rw [Text.toList_toString] at mem
    have digit := Text.isDigit_of_mem_decimal mem
    exact .of_isAlphanum (Bool.or_eq_true_iff.mpr (.inr digit))

theorem ne_nil_of_checkLength {field : Field} {name : String}
    (checked : Name.checkLength field name = .ok ()) : name.toList ≠ [] := by
  intro empty
  simp [Name.checkLength, empty] at checked

theorem legal_of_checkCharacters {named : Named} {legal : Char → Bool} {name : String}
    (checked : Name.checkCharacters named legal name = .ok ()) :
    ∀ c ∈ name.toList, legal c = true := by
  simp only [Name.checkCharacters] at checked
  split at checked
  · cases checked
  next clean => simpa using clean

theorem legible_workspace {name : String} (valid : Name.checkWorkspace name = .ok ()) :
    Legible name.toList := by
  simp only [Name.checkWorkspace, bind_eq_ok] at valid
  obtain ⟨_, long, _, legal, _⟩ := valid
  exact ⟨ne_nil_of_checkLength long, fun c mem =>
    .of_workspace (legal_of_checkCharacters legal c mem)⟩

theorem legible_object {name : String} (valid : Name.checkObject name = .ok ()) :
    Legible name.toList := by
  simp only [Name.checkObject, bind_eq_ok] at valid
  obtain ⟨_, long, _, legal, _⟩ := valid
  exact ⟨ne_nil_of_checkLength long, fun c mem =>
    .of_object (legal_of_checkCharacters legal c mem)⟩

theorem workspaceKey_again {part : List Char} {key : WorkspaceKey}
    (read : workspaceKey part = .ok key) :
    workspaceKey key.toString.toList = .ok key ∧ Legible key.toString.toList := by
  cases number : Text.signed? part with
  | some id =>
    by_cases small : id < 1
    · simp [workspaceKey, number, WorkspaceKey.ofId, small] at read
    · simp only [workspaceKey, number, WorkspaceKey.ofId, small, if_false, Except.ok.injEq] at read
      subst read
      have again := Text.signed?_again number small
      refine ⟨?_, legible_number _⟩
      simp only [workspaceKey, WorkspaceKey.toString, again, WorkspaceKey.ofId, small, if_false]
  | none =>
    -- Numbers that are too large are names, and are read as names again.
    simp only [workspaceKey, number, WorkspaceKey.ofName, bind_eq_ok] at read
    obtain ⟨_, valid, same⟩ := read
    cases same
    refine ⟨?_, legible_workspace valid⟩
    simp only [workspaceKey, WorkspaceKey.toString, String.toList_ofList, number,
      WorkspaceKey.ofName, valid]
    rfl

theorem withObject_again {builder next : AddressBuilder} {part : List Char}
    (read : withObject builder part = .ok next) :
    ∃ object : ObjectKey, next = { builder with object := some object } ∧
      withObject builder object.toString.toList = .ok next ∧ Legible object.toString.toList := by
  cases number : Text.signed? part with
  | some id =>
    by_cases small : id < 1
    · simp [withObject, number, AddressBuilder.withId, small] at read
    · simp only [withObject, number, AddressBuilder.withId, small, if_false, Bool.false_eq_true,
        false_and, Except.ok.injEq] at read
      have again := Text.signed?_again number small
      refine ⟨.id id.toNat, read.symm, ?_, legible_number _⟩
      simp only [withObject, ObjectKey.toString, again, AddressBuilder.withId, small, if_false,
        Bool.false_eq_true, false_and, read]
  | none =>
    cases valid : Name.checkObject (String.ofList part) with
    | error cause => simp [withObject, number, AddressBuilder.withName, valid] at read
    | ok =>
      simp only [withObject, number, AddressBuilder.withName, valid, if_false, Bool.false_eq_true,
        false_and, Except.ok.injEq] at read
      refine ⟨.name (String.ofList part), read.symm, ?_, legible_object valid⟩
      simp only [withObject, ObjectKey.toString, String.toList_ofList, number,
        AddressBuilder.withName, valid, if_false, Bool.false_eq_true, false_and, read]

theorem withVersion_again {builder next : AddressBuilder} {part : List Char} {number : Int}
    (read : versionNumber? part = some number)
    (given : builder.withVersion (some number) = .ok next) :
    ∃ version : Nat, next = { builder with version := some version } ∧
      versionNumber? (ToString.toString version).toList = some number := by
  simp only [versionNumber?, Option.filter_eq_some_iff, decide_eq_true_eq] at read
  by_cases small : number < 1
  · simp [AddressBuilder.withVersion, small] at given
  · have bounded : number.toNat < Text.versionBound := by omega
    simp only [AddressBuilder.withVersion, small, bounded, if_true, if_false,
      Except.ok.injEq] at given
    refine ⟨number.toNat, given.symm, ?_⟩
    simp only [versionNumber?, Text.signed?_again read.1 small, Option.filter_eq_some_iff,
      decide_eq_true_eq, true_and]
    exact read.2

def parts (address : Address) : List (List Char) :=
  [address.workspace.toString.toList, address.object.toString.toList] ++
    match address.version with
    | some version => [(ToString.toString version).toList]
    | none => []

structure Plain (address : Address) : Prop where
  direct : address.locator = .direct
  again : ofPieces "" address.parts = .ok address
  legible : ∀ part ∈ address.parts, Legible part

theorem legible_parts {address : Address} (workspace : Legible address.workspace.toString.toList)
    (object : Legible address.object.toString.toList) : ∀ part ∈ address.parts, Legible part := by
  intro part mem
  simp only [parts, List.cons_append, List.nil_append, List.mem_cons] at mem
  rcases mem with rfl | rfl | mem
  · exact workspace
  · exact object
  · cases numbered : address.version with
    | none => simp [numbered] at mem
    | some version =>
      rw [numbered, List.mem_singleton] at mem
      exact mem ▸ legible_number version

theorem plain_of_ofPieces {pieces : List (List Char)} {address : Address}
    (read : ofPieces "" pieces = .ok address) : Plain address := by
  match pieces with
  | [] => cases read
  | [_] => cases read
  | [workspace, object] =>
    obtain ⟨key, builder, named, made, built⟩ := ofPieces_pair_ok.mp read
    obtain ⟨key_again, key_legible⟩ := workspaceKey_again named
    obtain ⟨object, rfl, object_again, object_legible⟩ := withObject_again made
    cases built
    refine ⟨rfl, ?_, legible_parts key_legible object_legible⟩
    exact ofPieces_pair_ok.mpr ⟨key, _, key_again, object_again, rfl⟩
  | [workspace, object, version] =>
    obtain ⟨key, builder, number, whole, named, made, numbered, given, built⟩ :=
      ofPieces_triple_ok.mp read
    obtain ⟨key_again, key_legible⟩ := workspaceKey_again named
    obtain ⟨object, rfl, object_again, object_legible⟩ := withObject_again made
    obtain ⟨version, rfl, version_again⟩ := withVersion_again numbered given
    cases built
    refine ⟨rfl, ?_, legible_parts key_legible object_legible⟩
    exact ofPieces_triple_ok.mpr
      ⟨key, _, number, _, key_again, object_again, version_again, given, rfl⟩
  | _ :: _ :: _ :: _ :: _ => cases read

theorem toList_toString (address : Address) :
    address.toString.toList = Text.join Reference.separator address.parts := by
  simp only [Address.toString, parts]
  cases address.version <;> simp [Text.join, Reference.separator]

section Written

variable {address : Address}

section Legible

variable (legible : ∀ part ∈ address.parts, Legible part)

include legible

theorem partsIn_toString : partsIn address.toString.toList = address.parts := by
  have whole : ∀ part ∈ address.parts, Reference.separator ∉ part := fun part listed inside =>
    ((legible part listed).inked _ inside).inside rfl
  have trimmed : ∀ part ∈ address.parts, Text.trim part = part := fun part listed =>
    Text.trim_of_none fun c inside => ((legible part listed).inked c inside).unblank
  rw [partsIn, toList_toString, Text.pieces_join (by simp [parts]) whole]
  exact (List.map_congr_left trimmed).trans (List.map_id _)

theorem separator_not_mem_toString : pathSeparator ∉ address.toString.toList := by
  intro mem
  rw [toList_toString] at mem
  rcases Text.mem_join mem with same | ⟨part, listed, inside⟩
  · exact absurd same (by decide)
  · exact ((legible part listed).inked _ inside).within rfl

theorem dropEnd_parts : Text.dropEnd List.isEmpty address.parts = address.parts := by
  have kept : ∀ part ∈ address.parts, part.isEmpty = false := fun part listed => by
    simpa using (legible part listed).ne_nil
  exact Text.dropEnd_of_none kept

end Legible

theorem readParts_parts (plain : Plain address) : readParts address.parts = some address := by
  rw [readParts, dropEnd_parts plain.legible, toOption_eq_some_iff]
  exact plain.again

end Written

theorem readRows_written {addresses : List Address} (some : addresses ≠ [])
    (plain : ∀ address ∈ addresses, Plain address) :
    readRows (";".intercalate (addresses.map Address.toString)).toList =
      addresses.map parts := by
  have joined : (";".intercalate (addresses.map Address.toString)).toList =
      Text.join pathSeparator (addresses.map fun address => address.toString.toList) := by
    rw [String.toList_intercalate, Text.join_eq_intercalate, List.map_map]
    rfl
  have whole : ∀ part ∈ addresses.map fun address => address.toString.toList,
      pathSeparator ∉ part := by
    simpa using fun address listed => separator_not_mem_toString (plain address listed).legible
  have written : rowsIn (";".intercalate (addresses.map Address.toString)).toList =
      addresses.map parts := by
    rw [joined, rowsIn, Text.pieces_join (by simpa using some) whole, List.map_map]
    exact List.map_congr_left fun address listed => partsIn_toString (plain address listed).legible
  have kept : ∀ row ∈ addresses.map parts, isVoid row = false := by
    simp [isVoid, parts]
  rw [readRows, written, Text.dropEnd_of_none kept]

-- Blanks mean nothing at an end or next to a separator.
def Loose (before after : List Char) : Prop :=
  before = [] ∨ after = [] ∨ ∃ separator, (separator = Reference.separator ∨
    separator = pathSeparator) ∧
      ((∃ left, before = left ++ [separator]) ∨ ∃ right, after = separator :: right)

inductive Widens (text : List Char) : List Char → Prop where
  | same : Widens text text
  | blank {before after : List Char} {c : Char} (narrower : Widens text (before ++ after))
      (white : Text.isBlank c = true) (loose : Loose before after) :
      Widens text (before ++ c :: after)
  | semicolon {wide : List Char} (narrower : Widens text wide) :
      Widens text (wide ++ [pathSeparator])

theorem rowsIn_overlooks {c : Char} (white : Text.isBlank c = true) :
    Text.Overlooks rowsIn c :=
  (partsIn_overlooks white).pieces (Text.ne_of_isBlank white (by decide))

theorem rowsIn_blank {before after : List Char} {c : Char} (white : Text.isBlank c = true)
    (loose : Loose before after) : rowsIn (before ++ c :: after) = rowsIn (before ++ after) := by
  have outside : c ≠ pathSeparator := Text.ne_of_isBlank white (by decide)
  have inside : c ≠ Reference.separator := Text.ne_of_isBlank white (by decide)
  have slash : pathSeparator ∉ [Reference.separator] := by decide
  have blank_slash : pathSeparator ∉ [c, Reference.separator] :=
    List.not_mem_cons_of_ne_of_not_mem outside.symm slash
  have slash_blank : pathSeparator ∉ [Reference.separator, c] :=
    List.not_mem_cons_of_ne_of_not_mem (by decide) (by simpa using outside.symm)
  rcases loose with rfl | rfl | ⟨separator, rfl | rfl, ⟨left, rfl⟩ | ⟨right, rfl⟩⟩
  · exact (rowsIn_overlooks white).front after
  · simpa using (rowsIn_overlooks white).back before
  · have same : rowsIn (left ++ ([Reference.separator, c] ++ after)) =
        rowsIn (left ++ ([Reference.separator] ++ after)) :=
      Text.map_pieces_within slash_blank slash ((Text.trim_overlooks white).after inside) left after
    simpa using same
  · exact Text.map_pieces_within blank_slash slash
      ((Text.trim_overlooks white).before inside) before right
  · simpa [rowsIn] using (partsIn_overlooks white).after outside left after
  · exact (partsIn_overlooks white).before outside before right

theorem readRows_widens {text wide : List Char} (widens : Widens text wide) :
    readRows wide = readRows text := by
  induction widens with
  | same => rfl
  | blank narrower white loose ih => rw [readRows, rowsIn_blank white loose, ← readRows, ih]
  | semicolon narrower ih =>
    rw [readRows, rowsIn, Text.pieces_separated, List.map_append,
      Text.dropEnd_append_of_all (by simp [Text.pieces, isVoid, partsIn])]
    exact ih

theorem spelled_of_built {head address : Address} {hops : List Address}
    (direct : head.locator = .direct)
    (built : (head.toBuilder.withPath hops).build = .ok address) :
    address.hops = hops ∧ address.toString = head.toString := by
  obtain ⟨target, locator⟩ := head
  cases direct
  cases hops <;> cases built <;> exact ⟨rfl, rfl⟩

theorem parseChain_respelled {text : String} {address : Address}
    (read : parseChain text = .ok address) :
    parseChain (";".intercalate ((address :: address.hops).map Address.toString)) = .ok address ∧
      ∀ wide : String, Widens text.toList wide.toList → parseChain wide = .ok address := by
  obtain ⟨head, hops, rows, built⟩ := parseChain_ok_iff.mp read
  constructor
  · have plain : ∀ hop ∈ head :: hops, Plain hop := by
      intro hop listed
      have mem : some hop ∈ (readRows text.toList).map readParts := by
        rw [rows]
        exact List.mem_map_of_mem listed
      obtain ⟨row, _, found⟩ := List.mem_map.mp mem
      exact plain_of_ofPieces (toOption_eq_some_iff.mp found)
    obtain ⟨hops_eq, spelled⟩ := spelled_of_built (plain head List.mem_cons_self).direct built
    have again : ((head :: hops).map parts).map readParts = (head :: hops).map some := by
      rw [List.map_map]
      exact List.map_congr_left fun hop listed => readParts_parts (plain hop listed)
    have written : (address :: address.hops).map Address.toString =
        (head :: hops).map Address.toString := by
      rw [hops_eq, List.map_cons, List.map_cons, spelled]
    refine parseChain_ok_iff.mpr ⟨head, hops, ?_, built⟩
    rw [written, readRows_written (by simp) plain, again]
  · intro wide widens
    exact parseChain_ok_iff.mpr ⟨head, hops, by rw [readRows_widens widens, rows], built⟩

namespace Sample

def spelled : String := " bob:ws / +07/;2/a.b/03"

def chain : Address :=
  .mk ⟨.name "bob:ws", .id 7, none, {}⟩ (.path [.mk ⟨.id 2, .name "a.b", some 3, {}⟩ .direct])

end Sample

theorem sample_parseChain_respelled :
    parseChain Sample.spelled = .ok Sample.chain ∧
      parseChain "bob:ws/7;2/a.b/3" = .ok Sample.chain ∧
      parseChain " bob:ws / +07/;2/ a.b/03 ;" = .ok Sample.chain := by
  have read : parseChain Sample.spelled = .ok Sample.chain :=
    toOption_eq_some_iff.mp (by decide +kernel)
  obtain ⟨written, wider⟩ := parseChain_respelled read
  have spelled : ";".intercalate ((Sample.chain :: Sample.chain.hops).map Address.toString) =
      "bob:ws/7;2/a.b/3" := by decide
  rw [spelled] at written
  refine ⟨read, written, wider _ ?_⟩
  have cut : Sample.spelled.toList = " bob:ws / +07/;2/".toList ++ "a.b/03".toList := by
    decide +kernel
  have slash : Widens Sample.spelled.toList
      (" bob:ws / +07/;2/".toList ++ ' ' :: "a.b/03".toList) := by
    refine .blank (cut ▸ .same) rfl (.inr (.inr ⟨'/', .inl rfl, .inl ?_⟩))
    exact ⟨" bob:ws / +07/;2".toList, by decide +kernel⟩
  have joined : " bob:ws / +07/;2/ a.b/03 ;".toList =
      (" bob:ws / +07/;2/".toList ++ ' ' :: "a.b/03".toList) ++ ' ' :: [] ++ [';'] := by
    decide +kernel
  rw [joined]
  exact .semicolon (.blank (by simpa using slash) rfl (.inr (.inl rfl)))

end Address

end ObjectSpace
