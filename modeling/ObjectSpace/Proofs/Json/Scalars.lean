import Mathlib.Tactic.SplitIfs
import ObjectSpace.Json.Read
import ObjectSpace.Json.Write
import ObjectSpace.Proofs.Text.Numerals
import ObjectSpace.Proofs.Text.Readers

set_option autoImplicit false

namespace ObjectSpace

namespace Json

open Text (Reader)
open Text.Reader

def delimiters : List Char := [' ', '\t', '\n', '\r', ',', ']', '\x7d']

def Delimited (rest : List Char) : Prop := ∀ c ∈ rest.head?, c ∈ delimiters

variable {rest : List Char}

theorem Delimited.stops (delimited : Delimited rest) {p : Char → Bool}
    (none : delimiters.all (fun c => !p c) = true) : Stops p rest := by
  intro c first
  simpa using List.all_eq_true.mp none c (delimited c first)

theorem Delimited.head?_ne (delimited : Delimited rest) {c : Char} (other : c ∉ delimiters) :
    rest.head? ≠ some c := fun same => other (delimited c same)

section Numbers

theorem reads_readWhole (n : Nat) (stops : Stops Char.isDigit rest) :
    Reads readWhole (Text.decimal n ++ rest) n rest := by
  have digits : ∀ c ∈ Text.decimal n, c.isDigit = true := fun _ => Text.isDigit_of_mem_decimal
  refine (reads_takeSome (Text.decimal_ne_nil n) digits stops).bind ?_
  split
  next c others zero =>
    by_cases positive : 0 < n
    · exact absurd zero (Text.decimal_ne_zero_cons positive _)
    · obtain rfl : n = 0 := by omega
      cases zero
  next =>
    have value : Nat.ofDigitChars 10 (Text.decimal n) 0 = n := Nat.ofDigitChars_ten_toDigits
    rw [value]
    exact reads_pure n rest

theorem reads_readFraction (delimited : Delimited rest) : Reads readFraction rest false rest := by
  refine (reads_peek? rest).bind ?_
  rw [if_neg (delimited.head?_ne (by decide))]
  exact reads_pure false rest

theorem reads_readExponent (delimited : Delimited rest) : Reads readExponent rest false rest := by
  refine (reads_peek? rest).bind ?_
  split
  next small => exact absurd small (delimited.head?_ne (by decide))
  next large => exact absurd large (delimited.head?_ne (by decide))
  next => exact reads_pure false rest

theorem decimal_begins (n : Nat) : ∃ c, (Text.decimal n).head? = some c ∧ c.isDigit = true := by
  obtain ⟨c, others, front⟩ := List.exists_cons_of_ne_nil (Text.decimal_ne_nil n)
  have mem : c ∈ Text.decimal n := by simp [front]
  exact ⟨c, congrArg List.head? front, Text.isDigit_of_mem_decimal mem⟩

theorem reads_readNumber_decimal (n : Nat) (delimited : Delimited rest) :
    Reads readNumber (Text.decimal n ++ rest) (.integer n) rest := by
  have unsigned : (Text.decimal n ++ rest).head? ≠ some '-' := by
    obtain ⟨c, begins, digit⟩ := decimal_begins n
    rw [List.head?_append, begins, Option.some_or]
    rintro ⟨⟩
    exact absurd digit (by decide)
  refine (reads_peek? _).bind ?_
  rw [if_neg unsigned]
  refine (reads_readWhole n (delimited.stops rfl)).bind ?_
  refine (reads_readFraction delimited).bind ((reads_readExponent delimited).bind ?_)
  simp only [unsigned]
  exact reads_pure _ rest

theorem reads_readNumber_minus (n : Nat) (delimited : Delimited rest) :
    Reads readNumber ('-' :: (Text.decimal n ++ rest))
      (if n = 0 then .otherNumber else .integer (-n)) rest := by
  have signed : ('-' :: (Text.decimal n ++ rest)).head? = some '-' := rfl
  refine (reads_peek? _).bind ?_
  rw [if_pos signed]
  refine (reads_next '-' _).bind ?_
  refine (reads_readWhole n (delimited.stops rfl)).bind ?_
  refine (reads_readFraction delimited).bind ((reads_readExponent delimited).bind ?_)
  by_cases zero : n = 0
  · subst zero
    exact reads_pure _ rest
  · simp only [signed, decide_true, Bool.true_and, beq_iff_eq, zero, if_false, if_true,
      Bool.or_self, Bool.false_or]
    exact reads_pure _ rest

theorem toList_toString_ofNat (n : Nat) : (toString (Int.ofNat n)).toList = Text.decimal n :=
  Nat.toList_repr

theorem toList_toString_negSucc (n : Nat) :
    (toString (Int.negSucc n)).toList = '-' :: Text.decimal (n + 1) := by
  rw [Int.toString_eq_repr, Int.repr, String.toList_append, Nat.toList_repr]
  rfl

def openers : List Char := [' ', '\t', '\n', '\r', ']', '\x7b', '[', '"', 't', 'f', 'n']

theorem mem_openers_of_blank {c : Char} (blank : isBlank c = true) : c ∈ openers := by
  simp only [isBlank, Bool.or_eq_true, beq_iff_eq] at blank
  rcases blank with ((rfl | rfl) | rfl) | rfl <;> decide

theorem toString_begins (i : Int) : ∃ c, (toString i).toList.head? = some c ∧ c ∉ openers := by
  cases i with
  | ofNat n =>
    obtain ⟨c, begins, digit⟩ := decimal_begins n
    have none : openers.all (fun c => !c.isDigit) = true := rfl
    refine ⟨c, (congrArg List.head? (toList_toString_ofNat n)).trans begins, fun mem => ?_⟩
    have other := List.all_eq_true.mp none c mem
    rw [digit] at other
    cases other
  | negSucc n => exact ⟨'-', congrArg List.head? (toList_toString_negSucc n), by decide⟩

theorem reads_readNumber (i : Int) (delimited : Delimited rest) :
    Reads readNumber ((toString i).toList ++ rest) (.integer i) rest := by
  cases i with
  | ofNat n =>
    rw [toList_toString_ofNat]
    exact reads_readNumber_decimal n delimited
  | negSucc n =>
    rw [toList_toString_negSucc]
    exact reads_readNumber_minus (n + 1) delimited

end Numbers

section Strings

theorem hexDigit?_hexDigit : ∀ digit < 16, Text.hexDigit? (hexDigit digit) = some digit := by
  decide

theorem hexNumber?_control {code : Nat} (control : code < 32) :
    Text.hexNumber? ['0', '0', hexDigit (code / 16), hexDigit code] = some code := by
  have high := hexDigit?_hexDigit (code / 16) (by omega)
  have low := hexDigit?_hexDigit (code % 16) (by omega)
  have same : hexDigit (code % 16) = hexDigit code := by rw [hexDigit, hexDigit, Nat.mod_mod]
  have zero : Text.hexDigit? '0' = some 0 := rfl
  rw [same] at low
  simp only [Text.hexNumber?, List.foldlM_cons, List.foldlM_nil, zero, high, low, Option.map_some,
    Option.bind_eq_bind, Option.bind_some, Option.pure_def, Option.some.injEq]
  omega

inductive Escaped (c : Char) : List Char → Prop where
  | letter (letter : Char) (reads : ∀ rest, Reads readEscape (letter :: rest) c.toNat rest) :
      Escaped c ['\\', letter]
  | code (control : c.toNat < 32) :
      Escaped c ['\\', 'u', '0', '0', hexDigit (c.toNat / 16), hexDigit c.toNat]
  | plain (quote : c ≠ '"') (backslash : c ≠ '\\') (visible : 32 ≤ c.toNat) : Escaped c [c]

theorem escaped_escape (c : Char) : Escaped c (escape c).toList := by
  unfold escape
  split_ifs with quote backslash back feed line carriage tab control
  · subst quote
    exact .letter '"' fun _ => rfl
  · subst backslash
    exact .letter '\\' fun _ => rfl
  · exact .letter 'b' fun _ => back ▸ rfl
  · exact .letter 'f' fun _ => feed ▸ rfl
  · subst line
    exact .letter 'n' fun _ => rfl
  · subst carriage
    exact .letter 'r' fun _ => rfl
  · subst tab
    exact .letter 't' fun _ => rfl
  · simpa using Escaped.code control
  · have visible : 32 ≤ c.toNat := by omega
    simpa [Char.toString] using Escaped.plain quote backslash visible

theorem Escaped.reads_readUnit {c : Char} {text : List Char} (escaped : Escaped c text)
    (rest : List Char) : Reads readUnit (text ++ rest) c.toNat rest := by
  cases escaped with
  | letter letter reads => exact (reads_next '\\' _).bind (reads rest)
  | code control =>
    refine (reads_next '\\' _).bind ((reads_next 'u' _).bind ?_)
    refine (reads_times_next ['0', '0', hexDigit (c.toNat / 16), hexDigit c.toNat] rest).bind ?_
    rw [hexNumber?_control control]
    exact reads_pure _ rest
  | plain quote backslash visible =>
    refine (reads_next c rest).bind ?_
    split
    next => exact absurd rfl quote
    next => exact absurd rfl backslash
    next =>
      rw [if_neg (by omega)]
      exact reads_pure _ rest

theorem Escaped.ne_nil {c : Char} {text : List Char} (escaped : Escaped c text) : text ≠ [] := by
  cases escaped <;> exact List.cons_ne_nil _ _

theorem characters?_map_toNat (characters : List Char) :
    characters? (characters.map Char.toNat) = some characters := by
  induction characters with
  | nil => rfl
  | cons c others ih =>
    -- No character is half of a pair.
    have whole : isLow c.toNat = false ∧ isHigh c.toNat = false := by
      have valid : Nat.isValidChar c.toNat := c.valid
      simp only [isLow, isHigh, Bool.and_eq_false_iff, decide_eq_false_iff_not]
      rcases valid with low | high <;> constructor <;> omega
    rw [List.map_cons, characters?.eq_def]
    simp [whole, ih]

theorem reads_readString (text : String) (rest : List Char) :
    Reads readString ((quote text).toList ++ rest) (.plain text) rest := by
  have units : ∀ characters : List Char, ReadsAll readUnit
      (characters.flatMap (fun c => (escape c).toList) ++ '"' :: rest)
      (characters.map Char.toNat) ('"' :: rest) := by
    intro characters
    induction characters with
    | nil => exact .stop rfl
    | cons c others ih =>
      have escaped := escaped_escape c
      rw [List.flatMap_cons, List.append_assoc]
      refine .step (escaped.reads_readUnit _) ?_ ih
      have some := List.length_pos_iff.mpr escaped.ne_nil
      simp only [List.length_append]
      omega
  have written : (quote text).toList ++ rest =
      '"' :: (text.toList.flatMap (fun c => (escape c).toList) ++ '"' :: rest) := by
    simp [quote, String.toList_join, List.flatMap_map]
  rw [written]
  refine (reads_char '"' _).bind ((units text.toList).many.bind ((reads_char '"' rest).bind ?_))
  rw [characters?_map_toNat]
  change Reads (pure (JsonText.plain (String.ofList text.toList))) rest _ rest
  rw [String.ofList_toList]
  exact reads_pure _ rest

end Strings

end Json

end ObjectSpace
