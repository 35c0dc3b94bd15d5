import ObjectSpace.Proofs.Json.Scalars

set_option autoImplicit false

namespace ObjectSpace.Json

open Text (Reader)
open Text.Reader

def Blank (text : List Char) : Prop := ∀ c ∈ text, isBlank c = true

structure Layout.Blank (layout : Layout) : Prop where
  newPart : ∀ depth, Json.Blank (layout.newPart depth).toList
  afterColon : Json.Blank layout.afterColon.toList

theorem blank_nil : Blank [] := by simp [Blank]

theorem blank_compact : Layout.compact.Blank where
  newPart := fun _ => blank_nil
  afterColon := blank_nil

theorem blank_pretty : Layout.pretty.Blank where
  newPart := by
    intro depth c mem
    simp only [Layout.pretty, String.toList_append, String.toList_ofList, List.mem_append,
      List.mem_replicate] at mem
    rcases mem with line | ⟨_, rfl⟩
    · obtain rfl : c = '\n' := by simpa using line
      rfl
    · rfl
  afterColon := by
    intro c mem
    obtain rfl : c = ' ' := by simpa [Layout.pretty] using mem
    rfl

inductive Textual : Json → Prop where
  | null : Textual .null
  | bool (value : Bool) : Textual (.bool value)
  | integer (value : Int) : Textual (.integer value)
  | otherNumber : Textual .otherNumber
  | string (text : String) : Textual (.string (.plain text))
  | array {items : List Json} (each : ∀ item ∈ items, Textual item) : Textual (.array items)
  | object {members : List (JsonText × Json)}
      (names : ∀ member ∈ members, ∃ name, member.1 = .plain name)
      (each : ∀ member ∈ members, Textual member.2) : Textual (.object members)

variable {front gap rest : List Char}

theorem reads_skipBlanks (blank : Blank front) (stops : Stops isBlank rest) :
    Reads skipBlanks (front ++ rest) () rest := reads_skipWhile blank stops

theorem stops_of_head? {c : Char} (begins : rest.head? = some c) (visible : isBlank c = false) :
    Stops isBlank rest := by
  intro first mem
  rw [begins] at mem
  cases mem
  exact visible

section Separated

variable {α : Type} {close : Char} {item : Reader α} {core : α → List Char}

structure Parted (close : Char) (item : Reader α) (core : α → List Char) (value : α) : Prop where
  begins : ∃ c, (core value).head? = some c ∧ isBlank c = false ∧ c ≠ close
  reads : ∀ front gap tail, Blank front → Blank gap →
    (tail.head? = some ',' ∨ tail.head? = some close) →
      Reads item (front ++ core value ++ (gap ++ tail)) value tail

def later (front : List Char) (core : α → List Char) (others : List α) : List Char :=
  others.flatMap fun value => ',' :: (front ++ core value)

def joined (front : List Char) (core : α → List Char) : List α → List Char
  | [] => []
  | first :: others => front ++ core first ++ later front core others

theorem length_core_le {values : List α} {value : α} (mem : value ∈ values) :
    (core value).length ≤ (joined front core values).length := by
  cases values with
  | nil => cases mem
  | cons first others =>
    rw [joined, List.length_append, List.length_append]
    rcases List.mem_cons.mp mem with rfl | mem
    · omega
    · have part : (',' :: (front ++ core value)).Sublist (later front core others) :=
        List.sublist_flatten_of_mem (List.mem_map_of_mem mem)
      have shorter := part.length_le
      rw [List.length_cons, List.length_append] at shorter
      omega

theorem readsAll_later {others : List α} (comma : close ≠ ',')
    (parted : ∀ value ∈ others, Parted close item core value) (blank : Blank front)
    (blank' : Blank gap) : ∃ between tail,
      later front core others ++ (gap ++ close :: rest) = between ++ tail ∧
        Blank between ∧ (tail.head? = some ',' ∨ tail.head? = some close) ∧
        ReadsAll (char ',' *> item) tail others (close :: rest) := by
  induction others with
  | nil => exact ⟨gap, close :: rest, rfl, blank', .inr rfl, .stop (fails_char comma rest).seqRight⟩
  | cons value others ih =>
    have parts := List.forall_mem_cons.mp parted
    obtain ⟨between, tail, after, void, head, onward⟩ := ih parts.2
    have read := parts.1.reads front between tail blank void head
    refine ⟨[], ',' :: (front ++ core value ++ (between ++ tail)), ?_, blank_nil, .inl rfl,
      .step ((reads_char ',' _).seqRight read) ?_ onward⟩
    · rw [← after]
      simp [later]
    · simp only [List.length_cons, List.length_append]
      omega

theorem reads_readSeparated {values : List α} (visible : isBlank close = false)
    (comma : close ≠ ',') (parted : ∀ value ∈ values, Parted close item core value)
    (blank : Blank front) (blank' : Blank gap) :
    Reads (readSeparated close item) (joined front core values ++ (gap ++ close :: rest)) values
      rest := by
  cases values with
  | nil =>
    refine (reads_skipBlanks blank' (stops_of_head? rfl visible)).bind ((reads_peek? _).bind ?_)
    rw [List.head?_cons, if_pos rfl]
    exact (reads_char close rest).bind (reads_pure [] rest)
  | cons first others =>
    have parts := List.forall_mem_cons.mp parted
    obtain ⟨between, tail, after, void, head, onward⟩ :=
      @readsAll_later front gap rest α close item core others comma parts.2 blank blank'
    obtain ⟨c, begins, shown, other⟩ := parts.1.begins
    have read := parts.1.reads [] between tail blank_nil void head
    have begins' : (core first ++ (between ++ tail)).head? = some c := by
      rw [List.head?_append, begins, Option.some_or]
    rw [joined, List.append_assoc, List.append_assoc, after]
    refine (reads_skipBlanks blank (stops_of_head? begins' shown)).bind ((reads_peek? _).bind ?_)
    rw [begins', if_neg (by simpa using other)]
    exact read.bind (onward.many.bind ((reads_char close rest).bind (reads_pure _ rest)))

end Separated

section Written

variable {layout : Layout}

def written (layout : Layout) (level : Nat) (json : Json) : List Char :=
  (write layout level json).toList

def writtenMember (layout : Layout) (level : Nat) (member : JsonText × Json) : List Char :=
  (writeText member.1).toList ++ ':' :: (layout.afterColon.toList ++ written layout level member.2)

theorem toList_writeItems (level : Nat) (items : List Json) :
    (writeItems layout level items).toList =
      later (layout.newPart level).toList (written layout level) items := by
  induction items with
  | nil => rfl
  | cons item rest ih => simp [writeItems, ih, later, written]

theorem toList_writeMembers (level : Nat) (members : List (JsonText × Json)) :
    (writeMembers layout level members).toList =
      later (layout.newPart level).toList (writtenMember layout level) members := by
  induction members with
  | nil => rfl
  | cons member rest ih =>
    obtain ⟨name, value⟩ := member
    simp [writeMembers, ih, later, written, writtenMember]

theorem written_array (blank : layout.Blank) (level : Nat) (items : List Json) : ∃ gap, Blank gap ∧
    written layout level (.array items) = '[' :: (joined (layout.newPart (level + 1)).toList
      (written layout (level + 1)) items ++ (gap ++ [']'])) := by
  cases items with
  | nil => exact ⟨[], blank_nil, by simp [written, write, joined]⟩
  | cons first rest =>
    refine ⟨_, blank.newPart level, ?_⟩
    simp [written, write, joined, toList_writeItems]

theorem written_object (blank : layout.Blank) (level : Nat) (members : List (JsonText × Json)) :
    ∃ gap, Blank gap ∧ written layout level (.object members) =
      '\x7b' :: (joined (layout.newPart (level + 1)).toList (writtenMember layout (level + 1))
        members ++ (gap ++ ['\x7d'])) := by
  cases members with
  | nil => exact ⟨[], blank_nil, by simp [written, write, joined]⟩
  | cons first rest =>
    obtain ⟨name, value⟩ := first
    refine ⟨_, blank.newPart level, ?_⟩
    simp [written, write, joined, writtenMember, toList_writeMembers]

theorem written_begins (level : Nat) (json : Json) :
    ∃ c, (written layout level json).head? = some c ∧ isBlank c = false ∧ c ≠ ']' := by
  cases json with
  | null => exact ⟨'n', by simp [written, write], rfl, by decide⟩
  | bool value =>
    cases value with
    | true => exact ⟨'t', by simp [written, write], rfl, by decide⟩
    | false => exact ⟨'f', by simp [written, write], rfl, by decide⟩
  | integer i =>
    obtain ⟨c, begins, other⟩ := toString_begins i
    refine ⟨c, by rwa [written, write], ?_, ?_⟩
    · exact Bool.eq_false_iff.mpr fun blank => other (mem_openers_of_blank blank)
    · rintro rfl
      exact other (by decide)
  | otherNumber => exact ⟨'-', by simp [written, write], rfl, by decide⟩
  | string text =>
    cases text <;> exact ⟨'"', by simp [written, write, writeText, quote], rfl, by decide⟩
  | array items => cases items <;> exact ⟨'[', by simp [written, write], rfl, by decide⟩
  | object members => cases members <;> exact ⟨'\x7b', by simp [written, write], rfl, by decide⟩

theorem mem_delimiters_of_blank {c : Char} (blank : isBlank c = true) : c ∈ delimiters := by
  simp only [isBlank, Bool.or_eq_true, beq_iff_eq] at blank
  rcases blank with ((rfl | rfl) | rfl) | rfl <;> decide

variable {close : Char} {tail : List Char}

theorem stops_tail (visible : isBlank close = false)
    (ends : tail.head? = some ',' ∨ tail.head? = some close) : Stops isBlank tail := by
  rcases ends with comma | closed
  · exact stops_of_head? comma rfl
  · exact stops_of_head? closed visible

theorem delimited_append (delimits : close ∈ delimiters) (void : Blank gap)
    (ends : tail.head? = some ',' ∨ tail.head? = some close) : Delimited (gap ++ tail) := by
  intro c first
  rw [List.head?_append] at first
  cases gap with
  | nil =>
    rcases ends with ends | ends <;> rw [ends] at first <;> cases first
    · decide
    · exact delimits
  | cons blank others =>
    cases first
    exact mem_delimiters_of_blank (void c List.mem_cons_self)

def Readable (layout : Layout) (fuel : Nat) (json : Json) : Prop :=
  ∀ {level : Nat} {front rest : List Char}, Blank front →
    (written layout level json).length ≤ fuel → Delimited rest →
      Reads (readValue fuel) (front ++ (written layout level json ++ rest)) json rest

variable {fuel level : Nat} {json : Json}

theorem parted_item (readable : Readable layout fuel json)
    (enough : (written layout level json).length ≤ fuel) :
    Parted ']' (readValue fuel <* skipBlanks) (written layout level) json where
  begins := written_begins level json
  reads := by
    intro front gap tail void void' ends
    have value := readable void enough (delimited_append (by decide) void' ends)
    rw [List.append_assoc]
    exact value.seqLeft (reads_skipBlanks void' (stops_tail rfl ends))

def readMember (fuel : Nat) : Reader (JsonText × Json) := do
  skipBlanks
  let name ← readString
  skipBlanks
  char ':'
  return (name, ← readValue fuel <* skipBlanks)

theorem parted_member (blank : layout.Blank) {name : String} (readable : Readable layout fuel json)
    (enough : (written layout level json).length ≤ fuel) :
    Parted '\x7d' (readMember fuel) (writtenMember layout level) (.plain name, json) where
  begins := ⟨'"', by simp [writtenMember, writeText, quote], rfl, by decide⟩
  reads := by
    intro front gap tail void void' ends
    have value := readable blank.afterColon enough (delimited_append (by decide) void' ends)
    have quoted : ∀ onward, ((quote name).toList ++ onward).head? = some '"' := by simp [quote]
    rw [writtenMember, writeText, List.append_assoc, List.append_assoc, List.cons_append,
      List.append_assoc]
    refine (reads_skipBlanks void (stops_of_head? (quoted _) rfl)).bind
      ((reads_readString name _).bind ?_)
    refine (reads_skipBlanks blank_nil (stops_of_head? rfl rfl)).bind ((reads_char ':' _).bind ?_)
    exact (value.seqLeft (reads_skipBlanks void' (stops_tail rfl ends))).bind (reads_pure _ tail)

theorem reads_readValue (blank : layout.Blank) (textual : Textual json) :
    Readable layout fuel json := by
  induction fuel generalizing json with
  | zero =>
    intro level front rest void enough delimited
    obtain ⟨c, begins, _⟩ := @written_begins layout level json
    rw [List.eq_nil_of_length_eq_zero (Nat.le_zero.mp enough)] at begins
    cases begins
  | succ fuel ih =>
    intro level front rest void enough delimited
    obtain ⟨c, begins, visible, _⟩ := @written_begins layout level json
    have begins' : (written layout level json ++ rest).head? = some c := by
      rw [List.head?_append, begins, Option.some_or]
    refine (reads_skipBlanks void (stops_of_head? begins' visible)).bind
      ((reads_peek? _).bind ?_)
    cases textual with
    | null =>
      simp only [written, write]
      exact (reads_literal "null" rest).bind (reads_pure _ rest)
    | bool value =>
      cases value with
      | true =>
        simp only [written, write]
        exact (reads_literal "true" rest).bind (reads_pure _ rest)
      | false =>
        simp only [written, write]
        exact (reads_literal "false" rest).bind (reads_pure _ rest)
    | integer value =>
      obtain ⟨c, begins, other⟩ := toString_begins value
      simp only [written, write]
      rw [List.head?_append, begins, Option.some_or]
      split
      all_goals try (next same => cases same; exact absurd (by decide) other)
      exact reads_readNumber value delimited
    | otherNumber =>
      simp only [written, write]
      exact reads_readNumber_minus 0 delimited
    | string text =>
      simp only [written, write, writeText]
      have quoted : ((quote text).toList ++ rest).head? = some '"' := by simp [quote]
      rw [quoted]
      exact (reads_readString text rest).bind (reads_pure _ rest)
    | @array items each =>
      obtain ⟨gap, void', text⟩ := written_array blank level items
      have parted : ∀ item ∈ items,
          Parted ']' (readValue fuel <* skipBlanks) (written layout (level + 1)) item := by
        intro item mem
        have part := @length_core_le (layout.newPart (level + 1)).toList _
          (written layout (level + 1)) _ _ mem
        rw [text, List.length_cons, List.length_append] at enough
        exact parted_item (ih (each item mem)) (by omega)
      have listed := @reads_readSeparated (layout.newPart (level + 1)).toList gap rest _ ']' _ _ _
        rfl (by decide) parted (blank.newPart (level + 1)) void'
      rw [text, List.cons_append, List.append_assoc, List.append_assoc]
      exact (reads_char '[' _).bind (listed.bind (reads_pure _ rest))
    | @object members names each =>
      obtain ⟨gap, void', text⟩ := written_object blank level members
      have parted : ∀ member ∈ members,
          Parted '\x7d' (readMember fuel) (writtenMember layout (level + 1)) member := by
        intro member mem
        obtain ⟨name, named⟩ := names member mem
        have part := @length_core_le (layout.newPart (level + 1)).toList _
          (writtenMember layout (level + 1)) _ _ mem
        rw [text, List.length_cons, List.length_append] at enough
        have value : (written layout (level + 1) member.2).length ≤
            (writtenMember layout (level + 1) member).length := by
          simp only [writtenMember, List.length_append, List.length_cons]
          omega
        have pair : member = (.plain name, member.2) := Prod.ext named rfl
        rw [pair]
        exact parted_member blank (ih (each member mem)) (by omega)
      have listed := @reads_readSeparated (layout.newPart (level + 1)).toList gap rest _ '\x7d' _ _
        _ rfl (by decide) parted (blank.newPart (level + 1)) void'
      rw [text, List.cons_append, List.append_assoc, List.append_assoc]
      exact (reads_char '\x7b' _).bind (listed.bind (reads_pure _ rest))

end Written

theorem parse?_write {layout : Layout} (blank : layout.Blank) {json : Json}
    (textual : Textual json) : parse? (write layout 0 json) = some json := by
  have delimited : Delimited [] := fun _ none => by cases none
  have read := @reads_readValue layout ((write layout 0 json).toList.length + 1) json blank textual
    0 [] [] blank_nil (Nat.le_succ _) delimited
  rw [List.nil_append, List.append_nil] at read
  exact (read.seqLeft (reads_skipBlanks blank_nil fun _ none => by cases none)).run_eq_some

theorem parse?_compact_pretty {json : Json} (textual : Textual json) :
    parse? (compact json) = some json ∧ parse? (pretty json) = some json :=
  ⟨parse?_write blank_compact textual, parse?_write blank_pretty textual⟩

end ObjectSpace.Json
