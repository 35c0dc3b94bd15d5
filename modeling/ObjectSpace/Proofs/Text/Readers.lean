import ObjectSpace.Text.Reader

set_option autoImplicit false

namespace ObjectSpace.Text.Reader

variable {α β : Type} {reader : Reader α} {next : α → Reader β} {text front rest : List Char}
variable {value : α} {result : β} {p : Char → Bool}

def Reads (reader : Reader α) (text : List Char) (value : α) (rest : List Char) : Prop :=
  StateT.run reader text = some (value, rest)

def Fails (reader : Reader α) (text : List Char) : Prop := StateT.run reader text = none

def Stops (p : Char → Bool) (rest : List Char) : Prop := ∀ c ∈ rest.head?, p c = false

theorem reads_pure (value : α) (text : List Char) : Reads (pure value) text value text := rfl

theorem Reads.bind (first : Reads reader text value rest) {onward : List Char}
    (second : Reads (next value) rest result onward) :
    Reads (reader >>= next) text result onward := by
  change (StateT.run reader text >>= fun found => StateT.run (next found.1) found.2) = _
  rw [first]
  exact second

theorem Reads.seqRight {other : Reader β} (first : Reads reader text value rest)
    {onward : List Char} (second : Reads other rest result onward) :
    Reads (reader *> other) text result onward := first.bind second

theorem Reads.seqLeft {other : Reader β} (first : Reads reader text value rest)
    {onward : List Char} (second : Reads other rest result onward) :
    Reads (reader <* other) text value onward := first.bind (second.bind (reads_pure value onward))

theorem Fails.bind (fails : Fails reader text) : Fails (reader >>= next) text := by
  change (StateT.run reader text >>= fun found => StateT.run (next found.1) found.2) = _
  rw [fails]
  rfl

theorem Fails.seqRight {other : Reader β} (fails : Fails reader text) :
    Fails (reader *> other) text := fails.bind

theorem Reads.orElse (taken : Reads reader text value rest) (other : Reader α) :
    Reads (reader <|> other) text value rest := by
  change (StateT.run reader text <|> StateT.run other text) = _
  rw [taken]
  rfl

theorem Fails.orElse {other : Reader α} (fails : Fails reader text)
    (taken : Reads other text value rest) : Reads (reader <|> other) text value rest := by
  change (StateT.run reader text <|> StateT.run other text) = _
  rw [fails]
  exact taken

theorem reads_peek? (text : List Char) : Reads peek? text text.head? text := rfl

theorem reads_next (c : Char) (rest : List Char) : Reads Reader.next (c :: rest) c rest := rfl

theorem reads_char (c : Char) (rest : List Char) : Reads (char c) (c :: rest) () rest := by
  have found : Reads (satisfying (· == c)) (c :: rest) c rest := by
    refine (reads_next c rest).bind ?_
    simp only [beq_self_eq_true, if_true]
    exact reads_pure c rest
  exact found.bind (reads_pure () rest)

theorem fails_char {c other : Char} (ne : other ≠ c) (rest : List Char) :
    Fails (char c) (other :: rest) := by
  refine Fails.bind ?_
  change StateT.run (if other == c then pure other else failure) rest = none
  rw [if_neg (by simpa using ne)]
  rfl

theorem reads_literal (text : String) (rest : List Char) :
    Reads (literal text) (text.toList ++ rest) () rest := by
  rw [literal]
  induction text.toList with
  | nil => exact reads_pure () rest
  | cons c others ih => exact (reads_char c _).bind ih

theorem takeWhile_append_of_stops (all : ∀ c ∈ front, p c = true) (stops : Stops p rest) :
    (front ++ rest).takeWhile p = front ∧ (front ++ rest).dropWhile p = rest := by
  have none : rest.takeWhile p = [] ∧ rest.dropWhile p = rest := by
    cases rest with
    | nil => exact ⟨rfl, rfl⟩
    | cons c others =>
      have other : p c = false := stops c rfl
      simp [other]
  rw [List.takeWhile_append_of_pos all, List.dropWhile_append_of_pos all, none.1, none.2]
  exact ⟨List.append_nil front, rfl⟩

theorem reads_takeWhile (all : ∀ c ∈ front, p c = true) (stops : Stops p rest) :
    Reads (takeWhile p) (front ++ rest) front rest := by
  obtain ⟨taken, left⟩ := takeWhile_append_of_stops all stops
  change some ((front ++ rest).takeWhile p, (front ++ rest).dropWhile p) = _
  rw [taken, left]

theorem reads_skipWhile (all : ∀ c ∈ front, p c = true) (stops : Stops p rest) :
    Reads (skipWhile p) (front ++ rest) () rest :=
  (reads_takeWhile all stops).bind (reads_pure () rest)

theorem reads_takeSome (ne : front ≠ []) (all : ∀ c ∈ front, p c = true) (stops : Stops p rest) :
    Reads (takeSome p) (front ++ rest) front rest := by
  refine (reads_takeWhile all stops).bind ?_
  cases front with
  | nil => exact absurd rfl ne
  | cons => exact reads_pure _ rest

theorem reads_times_next (front rest : List Char) :
    Reads (times front.length Reader.next) (front ++ rest) front rest := by
  induction front with
  | nil => exact reads_pure [] rest
  | cons c others ih => exact (reads_next c _).bind (ih.bind (reads_pure _ rest))

inductive ReadsAll (reader : Reader α) : List Char → List α → List Char → Prop where
  | stop {rest : List Char} (fails : Fails reader rest) : ReadsAll reader rest [] rest
  | step {text between rest : List Char} {value : α} {others : List α}
      (first : Reads reader text value between) (shorter : between.length < text.length)
      (later : ReadsAll reader between others rest) : ReadsAll reader text (value :: others) rest

theorem ReadsAll.manyWithin {bound : List Char} {values : List α}
    (all : ReadsAll reader text values rest) (enough : text.length ≤ bound.length) :
    Reads (manyWithin bound reader) text values rest := by
  induction all generalizing bound with
  | stop fails =>
    cases bound with
    | nil => exact reads_pure [] _
    | cons => exact fails.bind.orElse (reads_pure [] _)
  | step first shorter later ih =>
    cases bound with
    | nil => exact absurd (Nat.lt_of_lt_of_le shorter enough) (Nat.not_lt_zero _)
    | cons c bound =>
      have fewer := Nat.le_of_lt_succ (Nat.lt_of_lt_of_le shorter enough)
      refine Reads.orElse (first.bind ?_) _
      exact (ih fewer).bind (reads_pure _ _)

theorem ReadsAll.many {values : List α} (all : ReadsAll reader text values rest) :
    Reads (many reader) text values rest := all.manyWithin (Nat.le_refl _)

theorem Reads.run_eq_some (taken : Reads reader text value []) : reader.run text = some value := by
  rw [run, taken]

end ObjectSpace.Text.Reader
