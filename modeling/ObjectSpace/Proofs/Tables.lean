import ObjectSpace.Table

set_option autoImplicit false

namespace ObjectSpace

namespace Table

variable {κ ν : Type} [DecidableEq κ]

theorem lookup_eq_some_iff {key : κ} {value : ν} {entries : List (κ × ν)}
    (nodup : (entries.map Prod.fst).Nodup) :
    lookup key entries = some value ↔ (key, value) ∈ entries := by
  induction entries with
  | nil => simp [lookup]
  | cons entry rest ih =>
    have parts := List.nodup_cons.mp nodup
    by_cases here : entry.1 = key
    · -- The key stands at the front, so it cannot stand in the rest.
      have absent : (key, value) ∉ rest := fun mem =>
        parts.1 (here ▸ List.mem_map.mpr ⟨(key, value), mem, rfl⟩)
      simp only [lookup, here, if_true, Option.some.injEq, List.mem_cons, absent, or_false]
      constructor
      · intro same
        subst same
        exact Prod.ext here.symm rfl
      · intro same
        exact (congrArg Prod.snd same).symm
    · have apart : (key, value) ≠ entry := fun same => here (congrArg Prod.fst same).symm
      simp [lookup, here, apart, ih parts.2]

theorem get?_eq_some_iff {table : Table κ ν} {key : κ} {value : ν} :
    table.get? key = some value ↔ (key, value) ∈ table.entries :=
  lookup_eq_some_iff table.keys_nodup

theorem mem_values_iff {table : Table κ ν} {value : ν} :
    value ∈ table.values ↔ ∃ key, table.get? key = some value := by
  simp only [values, List.mem_map, get?_eq_some_iff]
  constructor
  · intro given
    rcases given with ⟨⟨key, _⟩, mem, rfl⟩
    exact ⟨key, mem⟩
  · intro given
    rcases given with ⟨key, mem⟩
    exact ⟨(key, value), mem, rfl⟩

@[simp] theorem get?_insert_self (table : Table κ ν) (key : κ) (value : ν) :
    (table.insert key value).get? key = some value := by
  simp [get?_insert]

theorem get?_insert_of_ne (table : Table κ ν) {key other : κ} (value : ν) (apart : key ≠ other) :
    (table.insert key value).get? other = table.get? other := by
  simp [get?_insert, apart]

theorem contains_insert (table : Table κ ν) (key other : κ) (value : ν) :
    (table.insert key value).contains other = (key = other || table.contains other) := by
  by_cases same : key = other <;> simp [contains, get?_insert, same]

theorem put_put (key : κ) (first second : ν) (entries : List (κ × ν)) :
    put key second (put key first entries) = put key second entries := by
  induction entries with
  | nil => simp [put]
  | cons entry rest ih =>
    by_cases here : entry.1 = key <;> simp [put, here, ih]

theorem put_of_lookup {key : κ} {value : ν} {entries : List (κ × ν)}
    (found : lookup key entries = some value) : put key value entries = entries := by
  induction entries with
  | nil => simp [lookup] at found
  | cons entry rest ih =>
    by_cases here : entry.1 = key
    · simp only [lookup, here, if_true, Option.some.injEq] at found
      simp [put, ← here, ← found]
    · simp only [lookup, here, if_false] at found
      simp [put, here, ih found]

omit [DecidableEq κ] in
theorem ext_entries {left right : Table κ ν} (same : left.entries = right.entries) :
    left = right := by
  cases left
  cases right
  simp_all

theorem insert_insert (table : Table κ ν) (key : κ) (first second : ν) :
    (table.insert key first).insert key second = table.insert key second :=
  ext_entries (put_put key first second table.entries)

theorem insert_of_get? {table : Table κ ν} {key : κ} {value : ν}
    (found : table.get? key = some value) : table.insert key value = table :=
  ext_entries (put_of_lookup found)

theorem put_fresh {key : κ} (value : ν) {entries : List (κ × ν)}
    (fresh : key ∉ entries.map Prod.fst) : put key value entries = entries ++ [(key, value)] := by
  induction entries with
  | nil => rfl
  | cons entry rest ih =>
    simp only [List.map_cons, List.mem_cons, not_or] at fresh
    have apart : entry.1 ≠ key := fun same => fresh.1 same.symm
    simp [put, apart, ih fresh.2]

omit [DecidableEq κ] in
@[simp] theorem entries_empty : (empty : Table κ ν).entries = [] := rfl

theorem entries_foldl_insert {keys : List κ} (value : κ → ν) (nodup : keys.Nodup)
    (table : Table κ ν) (fresh : ∀ key ∈ keys, key ∉ table.entries.map Prod.fst) :
    (keys.foldl (fun table key => table.insert key (value key)) table).entries =
      table.entries ++ keys.map fun key => (key, value key) := by
  induction keys generalizing table with
  | nil => simp
  | cons first rest ih =>
    have parts := List.nodup_cons.mp nodup
    have grown : (table.insert first (value first)).entries =
        table.entries ++ [(first, value first)] :=
      put_fresh _ (fresh first List.mem_cons_self)
    have still : ∀ key ∈ rest, key ∉ (table.insert first (value first)).entries.map Prod.fst := by
      intro key mem
      have apart : key ≠ first := fun same => parts.1 (same ▸ mem)
      have before := fresh key (List.mem_cons_of_mem _ mem)
      simp only [grown, List.map_append, List.map_cons, List.map_nil, List.mem_append,
        List.mem_singleton, not_or]
      exact ⟨before, apart⟩
    rw [List.foldl_cons, ih parts.2 _ still, grown]
    simp

theorem entries_tabulate {keys : List κ} (value : κ → ν) (nodup : keys.Nodup) :
    (tabulate keys value).entries = keys.map fun key => (key, value key) := by
  simpa [tabulate, collect] using entries_foldl_insert value nodup empty (by simp)

theorem values_tabulate {keys : List κ} (value : κ → ν) (nodup : keys.Nodup) :
    (tabulate keys value).values = keys.map value := by
  simp [values, entries_tabulate value nodup, Function.comp_def]

theorem get?_foldl_insert {entries : List (κ × ν)} (nodup : (entries.map Prod.fst).Nodup)
    (table : Table κ ν) (key : κ) :
    (entries.foldl (fun table entry => table.insert entry.1 entry.2) table).get? key =
      (lookup key entries).or (table.get? key) := by
  induction entries generalizing table with
  | nil => simp [lookup]
  | cons entry rest ih =>
    have parts := List.nodup_cons.mp nodup
    rw [List.foldl_cons, ih parts.2, get?_insert, lookup]
    by_cases here : entry.1 = key
    · have absent : lookup key rest = none := by
        rw [Option.eq_none_iff_forall_ne_some]
        intro value found
        exact parts.1 (here ▸ mem_keys_of_mem ((lookup_eq_some_iff parts.2).mp found))
      simp [here, absent]
    · simp [here]

theorem get?_foldl_insert_of_sublist {entries written : List (κ × ν)}
    (nodup : (entries.map Prod.fst).Nodup) (part : written.Sublist entries) (table : Table κ ν)
    {entry : κ × ν} (mem : entry ∈ entries)
    (otherwise : entry ∉ written → table.get? entry.1 = some entry.2) :
    (written.foldl (fun table entry => table.insert entry.1 entry.2) table).get? entry.1 =
      some entry.2 := by
  have nodup' := (part.map Prod.fst).nodup nodup
  rw [get?_foldl_insert nodup']
  cases found : lookup entry.1 written with
  | none =>
    have absent : entry ∉ written := fun listed => by
      rw [(lookup_eq_some_iff nodup').mpr listed] at found
      cases found
    exact otherwise absent
  | some value =>
    have listed := part.subset ((lookup_eq_some_iff nodup').mp found)
    have here := (lookup_eq_some_iff nodup).mpr mem
    exact ((lookup_eq_some_iff nodup).mpr listed).symm.trans here

theorem get?_ofList_perm {entries : List (κ × ν)} {table : Table κ ν}
    (perm : entries.Perm table.entries) (key : κ) : (ofList entries).get? key = table.get? key := by
  have nodup : (entries.map Prod.fst).Nodup := (perm.map Prod.fst).nodup_iff.mpr table.keys_nodup
  apply Option.ext
  intro value
  rw [ofList, get?_foldl_insert nodup, get?_empty, Option.or_none, lookup_eq_some_iff nodup,
    perm.mem_iff, get?_eq_some_iff]

end Table

end ObjectSpace
