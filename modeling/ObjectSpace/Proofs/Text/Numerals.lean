import Mathlib.Data.List.Induction
import ObjectSpace.Text.Decimal

set_option autoImplicit false

namespace ObjectSpace.Text

inductive Numeral : List Char → Nat → Prop where
  | digit {c : Char} (digit : c.isDigit = true) : Numeral [c] (c.toNat - '0'.toNat)
  | append {text : List Char} {n : Nat} {c : Char} (front : Numeral text n)
      (digit : c.isDigit = true) : Numeral (text ++ [c]) (10 * n + (c.toNat - '0'.toNat))

inductive Signed : List Char → Int → Prop where
  | bare {text : List Char} {n : Nat} (numeral : Numeral text n) : Signed text n
  | plus {text : List Char} {n : Nat} (numeral : Numeral text n) : Signed ('+' :: text) n
  | minus {text : List Char} {n : Nat} (numeral : Numeral text n) :
      Signed ('-' :: text) (-(n : Int))

inductive Unsigned : List Char → Nat → Prop where
  | bare {text : List Char} {n : Nat} (numeral : Numeral text n) : Unsigned text n
  | plus {text : List Char} {n : Nat} (numeral : Numeral text n) : Unsigned ('+' :: text) n

structure Literal (text : List Char) (i : Int) : Prop where
  spelled : Signed text i
  lower : -9223372036854775808 ≤ i
  upper : i ≤ 9223372036854775807

def Fits (value : Option Int) : Prop := ∀ number ∈ value, number < signedBound

theorem toList_toString (n : Nat) : (toString n).toList = decimal n := Nat.toList_repr

theorem isDigit_of_mem_decimal {n : Nat} {c : Char} (mem : c ∈ decimal n) : c.isDigit = true :=
  Nat.isDigit_of_mem_toDigits (by decide) (by decide) mem

theorem decimal_ne_nil (n : Nat) : decimal n ≠ [] := Nat.toDigits_ne_nil

theorem decimal_ne_zero_cons {n : Nat} (positive : 0 < n) (rest : List Char) :
    decimal n ≠ '0' :: rest := by
  induction n using Nat.strongRecOn generalizing rest with
  | _ n ih =>
    intro same
    by_cases small : n < 10
    · rw [decimal, Nat.toDigits_of_lt_base small] at same
      have zero := Nat.digitChar_eq_zero.mp (List.cons.inj same).1
      omega
    · have ten : 10 ≤ n := by omega
      obtain ⟨c, others, front⟩ := List.exists_cons_of_ne_nil (@Nat.toDigits_ne_nil (n / 10) 10)
      rw [decimal, Nat.toDigits_of_base_le (by decide) ten, front] at same
      obtain ⟨rfl, _⟩ := List.cons.inj same
      exact ih (n / 10) (by omega) (by omega) others front

theorem Numeral.digits {text : List Char} {n : Nat} (numeral : Numeral text n) :
    text ≠ [] ∧ text.all Char.isDigit = true ∧ Nat.ofDigitChars 10 text 0 = n := by
  induction numeral with
  | digit digit => simp [digit, Nat.ofDigitChars_cons, Nat.ofDigitChars_nil]
  | append front digit ih =>
    have last := ih.2.2
    simp [ih.2.1, digit, Nat.ofDigitChars_append, Nat.ofDigitChars_cons, Nat.ofDigitChars_nil, last]

theorem numeral_of_digits {text : List Char} (some : text ≠ [])
    (digits : text.all Char.isDigit = true) : Numeral text (Nat.ofDigitChars 10 text 0) := by
  induction text using List.reverseRecOn with
  | nil => exact absurd rfl some
  | append_singleton front c ih =>
    simp only [List.all_append, List.all_cons, List.all_nil, Bool.and_true, Bool.and_eq_true]
      at digits
    rw [Nat.ofDigitChars_append, Nat.ofDigitChars_cons, Nat.ofDigitChars_nil]
    by_cases first : front = []
    · subst first
      simpa [Nat.ofDigitChars_nil] using Numeral.digit digits.2
    · exact .append (ih first digits.1) digits.2

theorem digits?_eq_some_iff {text : List Char} {n : Nat} :
    digits? text = some n ↔ Numeral text n := by
  constructor
  · intro read
    simp only [digits?] at read
    split at read
    next all =>
      cases read
      exact numeral_of_digits all.1 all.2
    next => cases read
  · intro numeral
    have digits := numeral.digits
    simp [digits?, digits]

theorem Numeral.not_signed {c : Char} {rest : List Char} {n : Nat}
    (numeral : Numeral (c :: rest) n) : c ≠ '-' ∧ c ≠ '+' := by
  have digits := numeral.digits.2.1
  simp only [List.all_cons, Bool.and_eq_true] at digits
  constructor <;> rintro rfl <;> exact absurd digits.1 (by decide)

theorem Literal.of_signed? {text : List Char} {i : Int} (read : signed? text = some i) :
    Literal text i := by
  have bound : signedBound = 9223372036854775808 := rfl
  unfold signed? at read
  split at read
  all_goals
    simp only [Option.map_eq_some_iff, Option.bind_eq_bind, Option.bind_eq_some_iff,
      Option.filter_eq_some_iff, Option.pure_def, Option.some.injEq, decide_eq_true_eq,
      digits?_eq_some_iff] at read
    rcases read with ⟨_, ⟨n, ⟨numeral, small⟩, rfl⟩, rfl⟩
  next => exact ⟨.minus numeral, by omega, by omega⟩
  next => exact ⟨.plus numeral, by omega, by omega⟩
  next => exact ⟨.bare numeral, by omega, by omega⟩

theorem Literal.signed? {text : List Char} {i : Int} (literal : Literal text i) :
    signed? text = some i := by
  have bound : signedBound = 9223372036854775808 := rfl
  have lower := literal.lower
  have upper := literal.upper
  cases literal.spelled with
  | @minus rest n numeral =>
    have small : n ≤ signedBound := by omega
    simp [Text.signed?, digits?_eq_some_iff.mpr numeral, Option.filter, small]
  | @plus rest n numeral =>
    have small : n < signedBound := by omega
    simp [Text.signed?, digits?_eq_some_iff.mpr numeral, Option.filter, small]
  | @bare text n numeral =>
    have small : n < signedBound := by omega
    unfold Text.signed?
    split
    next => exact absurd rfl numeral.not_signed.1
    next => exact absurd rfl numeral.not_signed.2
    next => simp [digits?_eq_some_iff.mpr numeral, Option.filter, small]

theorem signed?_eq_some_iff {text : List Char} {i : Int} :
    signed? text = some i ↔ Literal text i :=
  ⟨Literal.of_signed?, Literal.signed?⟩

theorem signed?_eq_none_iff {text : List Char} :
    signed? text = none ↔ ∀ i, ¬ Literal text i := by
  simp [Option.eq_none_iff_forall_ne_some, signed?_eq_some_iff]

theorem unsigned?_eq_some_iff {bound n : Nat} {text : List Char} :
    unsigned? bound text = some n ↔ Unsigned text n ∧ n < bound := by
  simp only [unsigned?, Option.filter_eq_some_iff, decide_eq_true_eq, digits?_eq_some_iff]
  refine and_congr_left fun _ => ?_
  split
  next rest =>
    constructor
    · exact .plus
    · intro spelled
      cases spelled with
      | bare numeral => exact absurd rfl numeral.not_signed.2
      | plus numeral => exact numeral
  next unsigned =>
    constructor
    · exact .bare
    · intro spelled
      cases spelled with
      | bare numeral => exact numeral
      | @plus rest _ numeral => exact absurd rfl (unsigned rest)

theorem Unsigned.decimal (n : Nat) : Unsigned (Text.decimal n) n :=
  .bare (digits?_eq_some_iff.mp (digits?_decimal n))

theorem Unsigned.toString (n : Nat) : Unsigned (ToString.toString n).toList n := by
  rw [toList_toString]
  exact .decimal n

theorem Unsigned.unique {text : List Char} {n m : Nat} (one : Unsigned text n)
    (other : Unsigned text m) : n = m := by
  have read := unsigned?_eq_some_iff.mpr ⟨one, Nat.lt_succ_of_le (Nat.le_max_left n m)⟩
  rw [unsigned?_eq_some_iff.mpr ⟨other, Nat.lt_succ_of_le (Nat.le_max_right n m)⟩] at read
  exact (Option.some.inj read).symm

theorem Unsigned.ne_nil {text : List Char} {n : Nat} (spelled : Unsigned text n) : text ≠ [] := by
  cases spelled with
  | bare numeral => exact numeral.digits.1
  | plus => exact List.cons_ne_nil _ _

theorem Unsigned.literal {text : List Char} {n : Nat} (spelled : Unsigned text n)
    (small : n < signedBound) : Literal text (n : Int) := by
  have bound : signedBound = 9223372036854775808 := rfl
  cases spelled with
  | bare numeral => exact ⟨.bare numeral, by omega, by omega⟩
  | plus numeral => exact ⟨.plus numeral, by omega, by omega⟩

theorem Literal.unsigned {text : List Char} {i : Int} (literal : Literal text i)
    (positive : 1 ≤ i) : Unsigned text i.toNat ∧ i.toNat < signedBound := by
  have bound : signedBound = 9223372036854775808 := rfl
  have upper := literal.upper
  refine ⟨?_, by omega⟩
  cases literal.spelled with
  | bare numeral => exact .bare numeral
  | plus numeral => exact .plus numeral
  | minus numeral => omega

end ObjectSpace.Text
