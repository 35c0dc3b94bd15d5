set_option autoImplicit false

namespace ObjectSpace.Text

def blankRanges : List (Nat × Nat) :=
  [(0x9, 0xD), (0x20, 0x20), (0x85, 0x85), (0xA0, 0xA0), (0x1680, 0x1680), (0x2000, 0x200A),
    (0x2028, 0x2029), (0x202F, 0x202F), (0x205F, 0x205F), (0x3000, 0x3000)]

def isBlank (c : Char) : Bool :=
  blankRanges.any fun range => range.1 ≤ c.toNat && c.toNat ≤ range.2

theorem isBlank_of_isWhitespace {c : Char} (white : c.isWhitespace = true) : isBlank c = true := by
  simp only [Char.isWhitespace, Bool.or_eq_true, decide_eq_true_eq] at white
  rcases white with ((white | white) | white) | white <;> subst white <;> decide

def dropStart (p : Char → Bool) (text : List Char) : List Char := text.dropWhile p

def dropEnd {α : Type} (p : α → Bool) (text : List α) : List α :=
  (text.reverse.dropWhile p).reverse

def trim (text : List Char) : List Char := dropEnd isBlank (dropStart isBlank text)

@[simp] theorem dropEnd_nil {α : Type} (p : α → Bool) : dropEnd p [] = [] := rfl

theorem dropEnd_append_of_all {α : Type} {p : α → Bool} {text tail : List α}
    (all : ∀ c ∈ tail, p c = true) : dropEnd p (text ++ tail) = dropEnd p text := by
  have dropped : (tail.reverse ++ text.reverse).dropWhile p = text.reverse.dropWhile p :=
    List.dropWhile_append_of_pos (by simpa using all)
  simp [dropEnd, dropped]

@[simp] theorem trim_nil : trim [] = [] := rfl

end ObjectSpace.Text
