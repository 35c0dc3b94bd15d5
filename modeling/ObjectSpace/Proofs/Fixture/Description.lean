import ObjectSpace.Proofs.Store.Growth
import ObjectSpace.Store.Fixture

set_option autoImplicit false

namespace ObjectSpace

def listed? {α : Type} (elements : List α) : Nat → Option α
  | 0 => none
  | place + 1 => elements[place]?

theorem listed?_eq_some {α : Type} {elements : List α} {id : Nat} {element : α} :
    listed? elements id = some element ↔ 1 ≤ id ∧ elements[id - 1]? = some element := by
  cases id with
  | zero => simp [listed?]
  | succ place => simp [listed?]

theorem listed?_isSome {α : Type} {elements : List α} {id : Nat} :
    (listed? elements id).isSome = true ↔ 1 ≤ id ∧ id ≤ elements.length := by
  cases id with
  | zero => simp [listed?]
  | succ place =>
    have within : (elements[place]?).isSome = true ↔ place < elements.length := by simp
    rw [listed?, within]
    omega

theorem listed?_append_singleton {α : Type} (front : List α) (last : α) (id : Nat) :
    listed? (front ++ [last]) id =
      if id = front.length + 1 then some last else listed? front id := by
  cases id with
  | zero => rfl
  | succ place =>
    simp only [listed?, List.getElem?_append, Nat.add_right_cancel_iff]
    grind

def ObjectFixture.record (object : ObjectFixture) : ObjectRecord where
  name := object.name
  deleted := object.deleted
  versions := object.versions

-- The owner owns the workspace unless the permissions say otherwise.
def WorkspaceFixture.granted (workspace : WorkspaceFixture) (user : User) : Option Permission :=
  match workspace.permissions.get? user.name with
  | some permission => if permission = .none then none else some permission
  | none => if user.name = workspace.owner then some .owner else none

structure WorkspaceFixture.HeldBy (workspace : WorkspaceFixture) (record : WorkspaceRecord) :
    Prop where
  name : record.name = workspace.name
  locked : record.locked = workspace.locked
  deleted : record.deleted = workspace.deleted
  worldReadable : record.worldReadable = workspace.worldReadable
  granted : ∀ user, record.acl.get? user = workspace.granted user
  objects : ∀ id, record.objects.get? id =
    (listed? workspace.objects id).map ObjectFixture.record

structure WorkspaceFixture.Describes (workspace : WorkspaceFixture) (record : WorkspaceRecord) :
    Prop extends workspace.HeldBy record where
  names : ∀ name id, record.objectNames.get? name = some id ↔
    ∃ object, listed? workspace.objects id = some object ∧ object.name = name

namespace Fixture

def references? (fixture : Fixture) (reference : Reference) : Option (List Reference) := do
  let workspace ← listed? fixture.workspaces reference.workspace
  let object ← listed? workspace.objects reference.object
  listed? object.versions reference.version

structure Describes (fixture : Fixture) (store : Store) : Prop where
  workspaces : ∀ id, Option.Rel WorkspaceFixture.Describes (listed? fixture.workspaces id)
    (store.workspaces.get? id)
  names : ∀ name id, store.workspaceNames.get? name = some id ↔
    ∃ workspace, listed? fixture.workspaces id = some workspace ∧ workspace.name = name
  references : ∀ reference, store.references? reference = fixture.references? reference
  referrers : ∀ source target, source ∈ store.referrers target ↔
    ∃ references, fixture.references? source = some references ∧ target ∈ references

end Fixture

namespace ObjectFixture

def join (first second : ObjectFixture) : ObjectFixture where
  name := first.name
  deleted := first.deleted || second.deleted
  versions := first.versions ++ second.versions

def absorb : List ObjectFixture → ObjectFixture → List ObjectFixture
  | [], object => [object]
  | first :: rest, object =>
    if first.name = object.name then first.join object :: rest else first :: absorb rest object

def merge (objects : List ObjectFixture) : List ObjectFixture := objects.foldl absorb []

def place (name : String) (objects : List ObjectFixture) : Nat :=
  objects.findIdx fun object => object.name = name

variable {objects : List ObjectFixture} {object : ObjectFixture}

theorem place_lt (mem : object ∈ objects) : place object.name objects < objects.length :=
  List.findIdx_lt_length.mpr ⟨object, mem, decide_eq_true rfl⟩

theorem exists_getElem?_place (mem : object ∈ objects) :
    ∃ first, objects[place object.name objects]? = some first ∧ first.name = object.name := by
  have named := @List.findIdx_getElem _ _ _ (place_lt mem)
  exact ⟨_, List.getElem?_eq_getElem (place_lt mem), of_decide_eq_true named⟩

theorem absorb_absorb {first second : ObjectFixture} (same : first.name = second.name) :
    absorb (absorb objects first) second = absorb objects (first.join second) := by
  induction objects with
  | nil => simp [absorb, same]
  | cons head rest ih =>
    by_cases here : head.name = first.name
    next => simp [absorb, join, here, same, Bool.or_assoc]
    next =>
      have apart : head.name ≠ second.name := same ▸ here
      simp [absorb, join, here, apart, ih]

theorem absorb_fresh (fresh : object.name ∉ objects.map name) :
    absorb objects object = objects ++ [object] := by
  induction objects with
  | nil => rfl
  | cons head rest ih =>
    simp only [List.map_cons, List.mem_cons, not_or] at fresh
    rw [absorb, if_neg (Ne.symm fresh.1), ih fresh.2, List.cons_append]

theorem getElem?_absorb (objects : List ObjectFixture) (object : ObjectFixture) (index : Nat) :
    (absorb objects object)[index]? =
      if index = place object.name objects then
        some ((objects[index]?.map fun first => first.join object).getD object)
      else objects[index]? := by
  induction objects generalizing index with
  | nil => cases index <;> simp [absorb, place]
  | cons head rest ih =>
    by_cases here : head.name = object.name
    next => cases index <;> simp [absorb, place, List.findIdx_cons, here]
    next =>
      have later : place object.name (head :: rest) = place object.name rest + 1 := by
        simp [place, List.findIdx_cons, here]
      cases index with
      | zero => simp [absorb, here, later]
      | succ index =>
        simp only [absorb, if_neg here, later, List.getElem?_cons_succ, ih,
          Nat.add_right_cancel_iff]

theorem place_absorb (objects : List ObjectFixture) (object : ObjectFixture) :
    place object.name (absorb objects object) = place object.name objects := by
  induction objects with
  | nil => simp [absorb, place]
  | cons head rest ih =>
    simp only [place] at ih
    by_cases here : head.name = object.name
    next => simp [absorb, place, join, List.findIdx_cons, here]
    next => simp [absorb, place, List.findIdx_cons, here, ih]

theorem foldl_absorb_distinct {front objects : List ObjectFixture}
    (distinct : ((front ++ objects).map name).Nodup) :
    objects.foldl absorb front = front ++ objects := by
  induction objects generalizing front with
  | nil => simp
  | cons object rest ih =>
    have fresh : object.name ∉ front.map name := by
      rw [List.map_append, List.map_cons] at distinct
      exact fun mem => (List.nodup_append.mp distinct).2.2 _ mem _ List.mem_cons_self rfl
    rw [List.foldl_cons, absorb_fresh fresh]
    have moved : front ++ object :: rest = front ++ [object] ++ rest := by simp
    rw [ih (moved ▸ distinct), moved]

theorem merge_distinct (distinct : (objects.map name).Nodup) : merge objects = objects :=
  foldl_absorb_distinct distinct

end ObjectFixture

namespace WorkspaceFixture

def add (workspace : WorkspaceFixture) (object : ObjectFixture) : WorkspaceFixture :=
  { workspace with objects := ObjectFixture.absorb workspace.objects object }

def idOf (workspace : WorkspaceFixture) (name : String) : Nat :=
  ObjectFixture.place name workspace.objects + 1

def permit (workspace : WorkspaceFixture) (entry : String × Permission) : WorkspaceFixture :=
  { workspace with permissions := workspace.permissions.insert entry.1 entry.2 }

theorem foldl_permit (workspace : WorkspaceFixture) (entries : List (String × Permission)) :
    entries.foldl permit workspace =
      { workspace with
        permissions := entries.foldl (fun table entry => table.insert entry.1 entry.2)
          workspace.permissions } :=
  List.foldl_hom (fun permissions => { workspace with permissions }) fun _ _ => rfl

theorem add_add {first second : ObjectFixture} (same : first.name = second.name)
    (workspace : WorkspaceFixture) :
    (workspace.add first).add second = workspace.add (first.join second) := by
  simp only [add, ObjectFixture.absorb_absorb same]

theorem listed?_add (workspace : WorkspaceFixture) (object : ObjectFixture) (id : Nat) :
    listed? (workspace.add object).objects id =
      if id = workspace.idOf object.name then
        some (((listed? workspace.objects id).map fun first => first.join object).getD object)
      else listed? workspace.objects id := by
  cases id with
  | zero => rfl
  | succ index =>
    simp only [listed?, add, idOf, ObjectFixture.getElem?_absorb, Nat.add_right_cancel_iff]

theorem idOf_add (workspace : WorkspaceFixture) (object : ObjectFixture) :
    (workspace.add object).idOf object.name = workspace.idOf object.name :=
  congrArg (· + 1) (ObjectFixture.place_absorb workspace.objects object)

theorem foldl_add (workspace : WorkspaceFixture) (objects : List ObjectFixture) :
    objects.foldl add workspace =
      { workspace with objects := objects.foldl ObjectFixture.absorb workspace.objects } :=
  List.foldl_hom (fun objects => { workspace with objects }) fun _ _ => rfl

end WorkspaceFixture

def WorkspaceFixture.merged (workspace : WorkspaceFixture) : WorkspaceFixture :=
  { workspace with objects := ObjectFixture.merge workspace.objects }

def Fixture.merged (fixture : Fixture) : Fixture where
  workspaces := fixture.workspaces.map WorkspaceFixture.merged

def WorkspaceFixture.ListsOnce (workspace : WorkspaceFixture) : Prop :=
  (workspace.objects.map ObjectFixture.name).Nodup

theorem WorkspaceFixture.merged_eq {workspace : WorkspaceFixture} (once : workspace.ListsOnce) :
    workspace.merged = workspace := by
  rw [merged, ObjectFixture.merge_distinct once]

theorem Fixture.merged_eq {fixture : Fixture}
    (once : ∀ workspace ∈ fixture.workspaces, workspace.ListsOnce) : fixture.merged = fixture := by
  have same : fixture.workspaces.map WorkspaceFixture.merged = fixture.workspaces :=
    calc fixture.workspaces.map WorkspaceFixture.merged
      _ = fixture.workspaces.map id :=
        List.map_congr_left fun workspace mem => WorkspaceFixture.merged_eq (once workspace mem)
      _ = fixture.workspaces := List.map_id _
  rw [merged, same]

end ObjectSpace
