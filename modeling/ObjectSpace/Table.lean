set_option autoImplicit false

namespace ObjectSpace

@[simp] theorem nodup_eraseDups {α : Type} [DecidableEq α] (elements : List α) :
    elements.eraseDups.Nodup := by
  match elements with
  | [] => exact List.nodup_nil
  | first :: rest =>
    rw [List.eraseDups_cons, List.nodup_cons]
    refine ⟨?_, nodup_eraseDups _⟩
    rw [List.mem_eraseDups, List.mem_filter]
    simp
termination_by elements.length
decreasing_by
  have shorter := List.length_filter_le (fun other => !other == first) rest
  simp only [List.length_cons]
  omega

structure Table (κ ν : Type) where
  entries : List (κ × ν)
  keys_nodup : (entries.map Prod.fst).Nodup

namespace Table

variable {κ ν : Type}

def empty : Table κ ν where
  entries := []
  keys_nodup := List.nodup_nil

def keys (table : Table κ ν) : List κ := table.entries.map Prod.fst

def values (table : Table κ ν) : List ν := table.entries.map Prod.snd

def size (table : Table κ ν) : Nat := table.entries.length

def isEmpty (table : Table κ ν) : Bool := table.entries.isEmpty

variable [DecidableEq κ]

def lookup (key : κ) : List (κ × ν) → Option ν
  | [] => none
  | (other, value) :: rest => if other = key then some value else lookup key rest

def put (key : κ) (value : ν) : List (κ × ν) → List (κ × ν)
  | [] => [(key, value)]
  | (other, previous) :: rest =>
    if other = key then (key, value) :: rest else (other, previous) :: put key value rest

omit [DecidableEq κ] in
theorem mem_keys_of_mem {entries : List (κ × ν)} {key : κ} {value : ν}
    (mem : (key, value) ∈ entries) : key ∈ entries.map Prod.fst :=
  List.mem_map.mpr ⟨(key, value), mem, rfl⟩

theorem mem_keys_put {key other : κ} {value : ν} {entries : List (κ × ν)} :
    other ∈ (put key value entries).map Prod.fst ↔ other = key ∨ other ∈ entries.map Prod.fst := by
  induction entries with
  | nil => simp [put]
  | cons entry rest ih =>
    by_cases same : entry.1 = key
    · simp [put, same]
    · simp only [put, same, if_false, List.map_cons, List.mem_cons, ih]
      constructor <;> rintro (h | h | h) <;> simp [h]

theorem keys_put_nodup {key : κ} {value : ν} {entries : List (κ × ν)}
    (nodup : (entries.map Prod.fst).Nodup) : ((put key value entries).map Prod.fst).Nodup := by
  induction entries with
  | nil => simp [put]
  | cons entry rest ih =>
    have parts := List.nodup_cons.mp nodup
    by_cases same : entry.1 = key
    · simpa [put, same] using nodup
    · simp only [put, same, if_false, List.map_cons, List.nodup_cons]
      refine ⟨fun mem => ?_, ih parts.2⟩
      rcases mem_keys_put.mp mem with equal | mem
      · exact same equal
      · exact parts.1 mem

def get? (table : Table κ ν) (key : κ) : Option ν := lookup key table.entries

def contains (table : Table κ ν) (key : κ) : Bool := (table.get? key).isSome

def insert (table : Table κ ν) (key : κ) (value : ν) : Table κ ν where
  entries := put key value table.entries
  keys_nodup := keys_put_nodup table.keys_nodup

def erase (table : Table κ ν) (key : κ) : Table κ ν where
  entries := table.entries.filter fun entry => entry.1 ≠ key
  keys_nodup := table.keys_nodup.sublist (List.filter_sublist.map Prod.fst)

-- Of several entries with one key the last counts.
def ofList (entries : List (κ × ν)) : Table κ ν :=
  entries.foldl (fun table entry => table.insert entry.1 entry.2) empty

def collect (keys : List κ) (value? : κ → Option ν) : Table κ ν :=
  keys.foldl (fun table key =>
    match value? key with
    | some value => table.insert key value
    | none => table) empty

def tabulate (keys : List κ) (value : κ → ν) : Table κ ν := collect keys fun key => some (value key)

@[simp] theorem get?_empty (key : κ) : (empty : Table κ ν).get? key = none := rfl

theorem lookup_put (key other : κ) (value : ν) (entries : List (κ × ν)) :
    lookup other (put key value entries) =
      if key = other then some value else lookup other entries := by
  induction entries with
  | nil => simp [put, lookup]
  | cons entry rest ih =>
    by_cases here : entry.1 = key
    · by_cases same : key = other <;> simp [put, lookup, here, same]
    · by_cases first : entry.1 = other
      · have differ : key ≠ other := fun equal => here (first.trans equal.symm)
        have apart : other ≠ key := fun equal => differ equal.symm
        simp [put, lookup, first, differ, apart]
      · simp [put, lookup, here, first, ih]

theorem get?_insert (table : Table κ ν) (key other : κ) (value : ν) :
    (table.insert key value).get? other = if key = other then some value else table.get? other :=
  lookup_put key other value table.entries

theorem lookup_filter (key other : κ) (entries : List (κ × ν)) :
    lookup other (entries.filter fun entry => entry.1 ≠ key) =
      if key = other then none else lookup other entries := by
  induction entries with
  | nil => simp [lookup]
  | cons entry rest ih =>
    by_cases here : entry.1 = key
    · by_cases same : key = other
      · simpa [here, same] using ih
      · simpa [here, same, lookup] using ih
    · by_cases first : entry.1 = other
      · have differ : key ≠ other := fun equal => here (first.trans equal.symm)
        have apart : other ≠ key := fun equal => differ equal.symm
        simp [lookup, first, differ, apart]
      · simpa [lookup, here, first] using ih

theorem get?_erase (table : Table κ ν) (key other : κ) :
    (table.erase key).get? other = if key = other then none else table.get? other :=
  lookup_filter key other table.entries

theorem mem_keys_iff {table : Table κ ν} {key : κ} :
    key ∈ table.keys ↔ (table.get? key).isSome := by
  simp only [keys, get?]
  induction table.entries with
  | nil => simp [lookup]
  | cons entry rest ih =>
    by_cases here : entry.1 = key
    · simp [lookup, here]
    · have apart : key ≠ entry.1 := fun equal => here equal.symm
      simp only [List.map_cons, List.mem_cons, apart, false_or, lookup, here, if_false]
      exact ih

theorem get?_collect (keys : List κ) (value? : κ → Option ν) (key : κ) :
    (collect keys value?).get? key = if key ∈ keys then value? key else none := by
  have generalised : ∀ (table : Table κ ν),
      (keys.foldl (fun table key =>
        match value? key with
        | some value => table.insert key value
        | none => table) table).get? key =
        if key ∈ keys then (value? key).or (table.get? key) else table.get? key := by
    induction keys with
    | nil => simp
    | cons first rest ih =>
      intro table
      rw [List.foldl_cons, ih]
      by_cases same : first = key
      · subst same
        cases value? first <;> simp [get?_insert]
      · have apart : key ≠ first := fun equal => same equal.symm
        cases value? first <;> simp [get?_insert, apart, same]
  simp [collect, generalised]

theorem get?_tabulate (keys : List κ) (value : κ → ν) (key : κ) :
    (tabulate keys value).get? key = if key ∈ keys then some (value key) else none :=
  get?_collect keys _ key

end Table

end ObjectSpace
