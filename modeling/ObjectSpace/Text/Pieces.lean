set_option autoImplicit false

namespace ObjectSpace.Text

def pieces (separator : Char) : List Char → List (List Char)
  | [] => [[]]
  | c :: rest =>
    if c = separator then [] :: pieces separator rest
    else
      match pieces separator rest with
      | [] => [[c]]
      | first :: others => (c :: first) :: others

def join (separator : Char) : List (List Char) → List Char
  | [] => []
  | [piece] => piece
  | piece :: rest => piece ++ separator :: join separator rest

theorem pieces_ne_nil (separator : Char) (text : List Char) : pieces separator text ≠ [] := by
  cases text with
  | nil => simp [pieces]
  | cons c rest =>
    by_cases same : c = separator
    · simp [pieces, same]
    · simp only [pieces, same, if_false]
      split <;> simp

theorem join_pieces (separator : Char) (text : List Char) :
    join separator (pieces separator text) = text := by
  induction text with
  | nil => rfl
  | cons c rest ih =>
    cases cut : pieces separator rest with
    | nil => exact absurd cut (pieces_ne_nil separator rest)
    | cons first others =>
      rw [cut] at ih
      by_cases same : c = separator
      · simp [pieces, same, cut, join, ih]
      · cases others with
        | nil => simpa [pieces, same, cut, join] using ih
        | cons second more => simpa [pieces, same, cut, join] using ih

end ObjectSpace.Text
