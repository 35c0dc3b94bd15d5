import ObjectSpace.Address.Subset
import ObjectSpace.Proofs.Text.Cutting

set_option autoImplicit false

namespace ObjectSpace.Subset

def decode : List Char → List Char
  | '~' :: '1' :: rest => '/' :: decode rest
  | '~' :: '0' :: rest => '~' :: decode rest
  | c :: rest => c :: decode rest
  | [] => []

def mark (meant sign : Char) (key : List Char) : List Char :=
  key.flatMap fun c => if c = meant then ['~', sign] else [c]

-- Tildes first: those that come with the marks stay unmarked.
def escape (key : List Char) : List Char := mark '/' '1' (mark '~' '0' key)

def pathTo (keys : List String) : String :=
  String.ofList ('/' :: Text.join '/' (keys.map fun key => escape key.toList))

inductive OffFront : List Char → List Char → Prop where
  | slash (rest : List Char) : OffFront ('/' :: rest) rest
  | none {text : List Char} (bare : ∀ rest, text ≠ '/' :: rest) : OffFront text text

inductive OffEnd : List Char → List Char → Prop where
  | slash (rest : List Char) : OffEnd (rest ++ ['/']) rest
  | none {text : List Char} (bare : ∀ rest, text ≠ rest ++ ['/']) : OffEnd text text

structure Cut (text : List Char) (pieces : List (List Char)) : Prop where
  joined : Text.join '/' pieces = text
  some : pieces ≠ []
  whole : ∀ piece ∈ pieces, '/' ∉ piece

def Names (path : String) (keys : List String) : Prop :=
  ∃ middle inner pieces, OffFront path.toList middle ∧ OffEnd middle inner ∧ Cut inner pieces ∧
    keys = pieces.map fun piece => String.ofList (decode piece)

section Decode

variable {c sign meant : Char} {key : List Char}

theorem decode_cons_of_ne (plain : c ≠ '~') (rest : List Char) :
    decode (c :: rest) = c :: decode rest := by
  rw [decode]
  · rintro _ rfl
    exact absurd rfl plain
  · rintro _ rfl
    exact absurd rfl plain

theorem unmark_cons (unmarked : ¬ (c = '~' ∧ key.head? = some sign)) :
    unmark sign meant (c :: key) = c :: unmark sign meant key := by
  cases key with
  | nil => rfl
  | cons d rest =>
    rw [unmark, if_neg]
    simpa using unmarked

theorem head?_unmark {d : Char} (other : d ≠ meant)
    (front : (unmark sign meant key).head? = some d) : key.head? = some d := by
  match key with
  | [] => exact front
  | [c] => exact front
  | c :: e :: rest =>
    rw [unmark] at front
    split at front
    · exact absurd (Option.some.inj front).symm other
    · exact front

theorem unescape_eq_decode (key : List Char) : unescape key = decode key := by
  induction key using decode.induct with
  | case1 rest ih =>
    -- The first pass makes no tilde of the mark, and the second leaves it.
    have undone : unescape ('~' :: '1' :: rest) = '/' :: unescape rest :=
      unmark_cons (by simp)
    rw [undone, ih, decode]
  | case2 rest ih =>
    have kept : unmark '1' '/' ('~' :: '0' :: rest) = '~' :: '0' :: unmark '1' '/' rest := by
      rw [unmark_cons (by simp), unmark_cons (by simp)]
    rw [unescape, kept, decode, ← ih]
    rfl
  | case3 c rest no_slash no_tilde ih =>
    -- The first pass leaves the front alone and puts no mark after it.
    have first : unmark '1' '/' (c :: rest) = c :: unmark '1' '/' rest := by
      refine unmark_cons ?_
      rintro ⟨tilde, slash⟩
      obtain ⟨more, rfl⟩ := List.head?_eq_some_iff.mp slash
      exact no_slash more tilde rfl
    have second : unescape (c :: rest) = c :: unescape rest := by
      rw [unescape, first]
      refine unmark_cons ?_
      rintro ⟨tilde, zero⟩
      obtain ⟨more, rfl⟩ := List.head?_eq_some_iff.mp (head?_unmark (by decide) zero)
      exact no_tilde more tilde rfl
    rw [second, ih, decode]
    · exact fun more tilde => no_slash more tilde
    · exact fun more tilde => no_tilde more tilde
  | case4 => rfl

theorem mark_append (meant sign : Char) (left right : List Char) :
    mark meant sign (left ++ right) = mark meant sign left ++ mark meant sign right :=
  List.flatMap_append

theorem escape_cons (c : Char) (rest : List Char) :
    escape (c :: rest) = escape [c] ++ escape rest := by
  simp only [escape, ← mark_append, List.singleton_append]

theorem decode_escape (key : List Char) : decode (escape key) = key := by
  induction key with
  | nil => rfl
  | cons c rest ih =>
    rw [escape_cons]
    by_cases tilde : c = '~'
    · subst tilde
      exact congrArg ('~' :: ·) ih
    · by_cases slash : c = '/'
      · subst slash
        exact congrArg ('/' :: ·) ih
      · have plain : escape [c] = [c] := by simp [escape, mark, tilde, slash]
        rw [plain, List.singleton_append, decode_cons_of_ne tilde, ih]

theorem slash_not_mem_escape (key : List Char) : '/' ∉ escape key := by
  intro inside
  obtain ⟨c, _, made⟩ := List.mem_flatMap.mp inside
  split at made
  · simp at made
  next other => exact other (List.mem_singleton.mp made).symm

theorem escape_eq_nil_iff : escape key = [] ↔ key = [] := by
  constructor
  · intro empty
    rw [← decode_escape key, empty]
    rfl
  · rintro rfl
    rfl

end Decode

section Names

variable {path : String} {names : List String} {text : List Char}

theorem offFront_iff {rest : List Char} :
    OffFront text rest ↔ rest = match text with
      | '/' :: rest => rest
      | _ => text := by
  constructor
  · intro off
    cases off with
    | slash => rfl
    | none bare =>
      split
      next more => exact absurd rfl (bare more)
      next => rfl
  · rintro rfl
    split
    next rest => exact .slash rest
    next bare => exact .none bare

theorem offEnd_iff {rest : List Char} :
    OffEnd text rest ↔ rest = match text.reverse with
      | '/' :: rest => rest.reverse
      | _ => text := by
  constructor
  · intro off
    cases off with
    | slash => simp
    | none bare =>
      split
      next more turned => exact absurd (List.reverse_eq_cons_iff.mp turned) (bare _)
      next => rfl
  · rintro rfl
    split
    next rest turned =>
      rw [List.reverse_eq_cons_iff.mp turned]
      exact .slash _
    next bare =>
      refine .none fun rest ends => bare rest.reverse ?_
      simp [ends]

theorem cut_iff {pieces : List (List Char)} : Cut text pieces ↔ pieces = Text.pieces '/' text := by
  constructor
  · rintro ⟨rfl, some, whole⟩
    exact (Text.pieces_join some whole).symm
  · rintro rfl
    exact ⟨Text.join_pieces '/' text, Text.pieces_ne_nil '/' text,
      fun piece => Text.not_mem_of_mem_pieces⟩

theorem names_iff : Names path names ↔ names = keys path := by
  constructor
  · rintro ⟨middle, inner, pieces, front, back, cut, rfl⟩
    obtain rfl := offFront_iff.mp front
    obtain rfl := offEnd_iff.mp back
    obtain rfl := cut_iff.mp cut
    simp only [keys, unescape_eq_decode]
    rfl
  · rintro rfl
    refine ⟨_, _, _, offFront_iff.mpr rfl, offEnd_iff.mpr rfl, cut_iff.mpr rfl, ?_⟩
    simp only [keys, unescape_eq_decode]
    rfl

theorem names_of_offEnd (some : names ≠ [])
    (off : OffEnd text (Text.join '/' (names.map fun name => escape name.toList))) :
    Names (String.ofList ('/' :: text)) names := by
  refine ⟨text, _, names.map fun name => escape name.toList, ?_, off, ⟨rfl, by simpa, ?_⟩, ?_⟩
  · rw [String.toList_ofList]
    exact .slash text
  · intro piece listed
    obtain ⟨name, _, rfl⟩ := List.mem_map.mp listed
    exact slash_not_mem_escape name.toList
  · simp [Function.comp_def, decode_escape]

theorem names_pathTo_single : Names (pathTo [""]) [""] :=
  names_of_offEnd (by simp) (.none (by simp [Text.join, escape, mark]))

theorem names_pathTo_append {last : String} (filled : last ≠ "") :
    Names (pathTo (names ++ [last])) (names ++ [last]) := by
  have written : escape last.toList ≠ [] := by
    rw [Ne, escape_eq_nil_iff]
    simpa using filled
  refine names_of_offEnd (by simp) (.none fun rest ends => ?_)
  have back : (escape last.toList).getLast? = some '/' := by
    have joined := congrArg List.getLast? ends
    rwa [List.map_append, List.map_singleton, Text.getLast?_join written, List.getLast?_concat]
      at joined
  exact slash_not_mem_escape _ (List.mem_of_getLast? back)

theorem names_pathTo_empty (some : names ≠ []) : Names (pathTo (names ++ [""])) names := by
  have parted : Text.join '/' ((names ++ [""]).map fun name => escape name.toList) =
      Text.join '/' (names.map fun name => escape name.toList) ++ ['/'] := by
    rw [List.map_append, Text.join_append (by simpa) (by simp)]
    rfl
  rw [pathTo, parted]
  exact names_of_offEnd some (.slash _)

-- The path of no keys is that of a single empty key.
theorem names_pathTo_iff :
    Names (pathTo names) names ↔ names = [""] ∨ ∃ last, names.getLast? = some last ∧ last ≠ "" := by
  constructor
  · intro named
    rcases List.eq_nil_or_concat' names with rfl | ⟨front, last, rfl⟩
    · obtain ⟨_, _, pieces, _, _, cut, none⟩ := named
      exact absurd (List.map_eq_nil_iff.mp none.symm) cut.some
    · by_cases filled : last ≠ ""
      · exact .inr ⟨last, List.getLast?_concat, filled⟩
      · obtain rfl : last = "" := not_not.mp filled
        by_cases alone : front = []
        · exact .inl (by rw [alone]; rfl)
        · have same := (names_iff.mp named).trans (names_iff.mp (names_pathTo_empty alone)).symm
          exact absurd same (by simp)
  · rintro (rfl | ⟨last, ends, filled⟩)
    · exact names_pathTo_single
    · obtain ⟨front, rfl⟩ := List.getLast?_eq_some_iff.mp ends
      exact names_pathTo_append filled

end Names

theorem segments_in_one_pass (subset : Subset) (index : Nat) :
    (subset.segments? index = none ↔ subset.paths[index]? = none) ∧
      ∀ path, subset.paths[index]? = some path →
        (∃ names, subset.segments? index = some names) ∧
          (∀ names, subset.segments? index = some names ↔ Names path names) ∧
          ∀ names, path = pathTo names → (subset.segments? index = some names ↔
            names = [""] ∨ ∃ last, names.getLast? = some last ∧ last ≠ "") := by
  refine ⟨Option.map_eq_none_iff, ?_⟩
  intro path given
  have segments : subset.segments? index = some (keys path) := by
    rw [segments?, given]
    rfl
  have named : ∀ names, subset.segments? index = some names ↔ Names path names := by
    intro names
    rw [segments, names_iff, Option.some.injEq, eq_comm]
  refine ⟨⟨_, segments⟩, named, ?_⟩
  rintro names rfl
  rw [named, names_pathTo_iff]

namespace Sample

def marked : Subset := { paths := ["/a/b~1c/d~0e/", "x~01//~~10", pathTo ["~1", "", "a/b~"]] }

end Sample

theorem sample_segments_in_one_pass :
    Sample.marked.segments? 0 = some ["a", "b/c", "d~e"] ∧
      Names "x~01//~~10" ["x~1", "", "~/0"] ∧
      Sample.marked.paths[2]? = some "/~01//a~1b~0" ∧
      Sample.marked.segments? 2 = some ["~1", "", "a/b~"] ∧
      Sample.marked.segments? 3 = none := by
  have given : Sample.marked.paths[1]? = some "x~01//~~10" := by decide
  have given' : Sample.marked.paths[2]? = some (pathTo ["~1", "", "a/b~"]) := by decide
  obtain ⟨_, named, _⟩ := (segments_in_one_pass Sample.marked 1).2 _ given
  obtain ⟨_, _, back⟩ := (segments_in_one_pass Sample.marked 2).2 _ given'
  refine ⟨by decide, (named _).mp (by decide), by decide, (back _ rfl).mpr ?_, ?_⟩
  · exact .inr ⟨"a/b~", rfl, by decide⟩
  · exact (segments_in_one_pass Sample.marked 3).1.mpr (by decide)

end ObjectSpace.Subset
