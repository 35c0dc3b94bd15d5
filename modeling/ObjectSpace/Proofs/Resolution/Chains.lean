import Mathlib.Data.List.Chain
import Mathlib.Data.Nat.Find
import Mathlib.Logic.Relation
import ObjectSpace.Proofs.Resolution.Single

set_option autoImplicit false

namespace ObjectSpace

namespace Reference

def Less (left right : Reference) : Prop := left.le right = true ∧ left ≠ right

theorem le_total (left right : Reference) : (left.le right || right.le left) = true := by
  simp only [le, Bool.or_eq_true]
  grind

theorem le_trans (first second third : Reference) (left : first.le second = true)
    (right : second.le third = true) : first.le third = true := by
  simp only [le] at left right ⊢
  grind

theorem le_antisymm {left right : Reference} (below : left.le right = true)
    (above : right.le left = true) : left = right := by
  simp only [le] at below above
  exact ext_parts (by grind) (by grind) (by grind)

theorem Less.irrefl (reference : Reference) : ¬ reference.Less reference :=
  fun less => less.2 rfl

theorem Less.trans {first second third : Reference} (left : first.Less second)
    (right : second.Less third) : first.Less third := by
  refine ⟨le_trans _ _ _ left.1 right.1, ?_⟩
  intro same
  subst same
  exact left.2 (le_antisymm left.1 right.1)

end Reference

-- The lists have one length and are compared from their ends.
def Ahead : List Reference → List Reference → Prop
  | [], _ => False
  | _, [] => False
  | first :: left, second :: right => Ahead left right ∨ left = right ∧ first.Less second

namespace Ahead

theorem cons_self {first : Reference} {left right : List Reference} :
    Ahead (first :: left) (first :: right) ↔ Ahead left right := by
  simp [Ahead, Reference.Less.irrefl]

theorem trans {first second third : List Reference} (left : Ahead first second)
    (right : Ahead second third) : Ahead first third := by
  induction first generalizing second third with
  | nil => exact left.elim
  | cons head tail ih =>
    cases second with
    | nil => exact left.elim
    | cons head' tail' =>
      cases third with
      | nil => exact right.elim
      | cons head'' tail'' =>
        rcases left with left | ⟨rfl, left⟩
        · rcases right with right | ⟨rfl, _⟩
          · exact .inl (ih left right)
          · exact .inl left
        · rcases right with right | ⟨rfl, right⟩
          · exact .inl right
          · exact .inr ⟨rfl, left.trans right⟩

theorem lex_append {r : Reference → Reference → Prop} {left right : List Reference}
    (less : List.Lex r left right) (level : left.length = right.length)
    (more other : List Reference) : List.Lex r (left ++ more) (right ++ other) := by
  induction less with
  | nil => simp at level
  | rel here => exact .rel here
  | cons _ ih => exact .cons (ih (by simpa using level))

theorem lex {left right : List Reference} (ahead : Ahead left right)
    (level : left.length = right.length) :
    List.Lex Reference.Less left.reverse right.reverse := by
  induction left generalizing right with
  | nil => exact ahead.elim
  | cons first rest ih =>
    cases right with
    | nil => exact ahead.elim
    | cons second others =>
      rw [List.reverse_cons, List.reverse_cons]
      rcases ahead with later | ⟨rfl, less⟩
      · have same : rest.length = others.length := by simpa using level
        exact lex_append (ih later same) (by simpa using same) _ _
      · exact List.Lex.append_left _ (.rel less) _

end Ahead

namespace Store

variable {store : Store} {caller : Caller} {source middle target : Reference}
variable {path onward : List Reference}

def Leads (store : Store) (path : List Reference) (target : Reference) : Prop :=
  path.IsChain (fun source target => store.refersTo source target = true) ∧
    path.getLast? = some target

@[simp] theorem leads_singleton : store.Leads [source] target ↔ source = target := by
  simp [Leads]

@[simp] theorem leads_cons_cons :
    store.Leads (source :: middle :: onward) target ↔
      store.refersTo source middle = true ∧ store.Leads (middle :: onward) target := by
  simp [Leads, and_assoc]

structure OpenChain (store : Store) (caller : Caller) (path : List Reference)
    (target : Reference) : Prop where
  leads : store.Leads path target
  opened : ∃ source, path.head? = some source ∧ store.opens caller source = true

-- Shortest first, then least when read from the target upwards.
structure Canonical (store : Store) (caller : Caller) (path : List Reference)
    (target : Reference) : Prop extends store.OpenChain caller path target where
  shortest : ∀ other, store.OpenChain caller other target → path.length ≤ other.length
  least : ∀ other, store.OpenChain caller other target → other.length = path.length →
    other = path ∨ List.Lex Reference.Less path.reverse other.reverse

structure AtDistance (store : Store) (target : Reference) (steps : Nat) (source : Reference) :
    Prop where
  chain : ∃ onward, store.Leads (source :: onward) target ∧ onward.length = steps
  least : ∀ onward, store.Leads (source :: onward) target → steps ≤ onward.length

namespace AtDistance

variable {steps other : Nat}

theorem unique (left : store.AtDistance target steps source)
    (right : store.AtDistance target other source) : steps = other := by
  obtain ⟨onward, leads, length⟩ := left.chain
  obtain ⟨onward', leads', length'⟩ := right.chain
  have below := left.least onward' leads'
  have above := right.least onward leads
  omega

theorem zero_iff : store.AtDistance target 0 source ↔ source = target := by
  constructor
  · intro near
    obtain ⟨onward, leads, length⟩ := near.chain
    rw [List.length_eq_zero_iff] at length
    subst length
    exact leads_singleton.mp leads
  · intro same
    exact ⟨⟨[], leads_singleton.mpr same, rfl⟩, fun _ _ => Nat.zero_le _⟩

end AtDistance

theorem Leads.exists_distance (leads : store.Leads (source :: onward) target) :
    ∃ steps ≤ onward.length, store.AtDistance target steps source := by
  classical
  have lengths : ∃ steps, ∃ onward, store.Leads (source :: onward) target ∧
      onward.length = steps := ⟨_, onward, leads, rfl⟩
  refine ⟨Nat.find lengths, Nat.find_min' lengths ⟨onward, leads, rfl⟩, Nat.find_spec lengths, ?_⟩
  intro other leads
  exact Nat.find_min' lengths ⟨other, leads, rfl⟩

namespace AtDistance

variable {steps : Nat}

theorem tail (far : store.AtDistance target (steps + 1) source)
    (leads : store.Leads (source :: middle :: onward) target) (length : onward.length = steps) :
    store.AtDistance target steps middle := by
  obtain ⟨refers, rest⟩ := leads_cons_cons.mp leads
  refine ⟨⟨onward, rest, length⟩, ?_⟩
  intro other leads'
  have longer := far.least _ (leads_cons_cons.mpr ⟨refers, leads'⟩)
  simpa using longer

theorem succ_iff : store.AtDistance target (steps + 1) source ↔
    (∃ middle, store.AtDistance target steps middle ∧ store.refersTo source middle = true) ∧
      ∀ nearer ≤ steps, ¬ store.AtDistance target nearer source := by
  constructor
  · intro far
    obtain ⟨onward, leads, length⟩ := far.chain
    refine ⟨?_, fun nearer small near => ?_⟩
    · cases onward with
      | nil => simp at length
      | cons middle onward =>
        refine ⟨middle, far.tail leads (by simpa using length), ?_⟩
        exact (leads_cons_cons.mp leads).1
    · have := far.unique near
      omega
  · intro given
    rcases given with ⟨⟨middle, near, refers⟩, apart⟩
    obtain ⟨onward, leads, length⟩ := near.chain
    have leads : store.Leads (source :: middle :: onward) target :=
      leads_cons_cons.mpr ⟨refers, leads⟩
    obtain ⟨distance, bound, found⟩ := leads.exists_distance
    have exact : distance = steps + 1 := by
      by_cases small : distance ≤ steps
      · exact absurd found (apart distance small)
      · simp only [List.length_cons] at bound
        omega
    exact exact ▸ found

theorem nearer {far : Nat} (found : store.AtDistance target far source) (below : steps ≤ far) :
    ∃ middle, store.AtDistance target steps middle := by
  induction far generalizing source with
  | zero =>
    obtain rfl : steps = 0 := by omega
    exact ⟨source, found⟩
  | succ far ih =>
    by_cases here : steps = far + 1
    · exact ⟨source, here ▸ found⟩
    · obtain ⟨⟨middle, near, _⟩, _⟩ := succ_iff.mp found
      exact ih near (by omega)

end AtDistance

def Hopeless (store : Store) (caller : Caller) (target : Reference) : Prop :=
  ∀ source onward, store.Leads (source :: onward) target → store.opens caller source = false

def ClosedWithin (store : Store) (caller : Caller) (target : Reference) (steps : Nat) : Prop :=
  ∀ nearer ≤ steps, ∀ source, store.AtDistance target nearer source →
    store.opens caller source = false

theorem ClosedWithin.zero (shut : store.opens caller target = false) :
    store.ClosedWithin caller target 0 := by
  intro nearer small source near
  obtain rfl : nearer = 0 := by omega
  obtain rfl := AtDistance.zero_iff.mp near
  exact shut

theorem ClosedWithin.succ {steps : Nat} (closed : store.ClosedWithin caller target steps)
    (next : ∀ source, store.AtDistance target (steps + 1) source →
      store.opens caller source = false) : store.ClosedWithin caller target (steps + 1) := by
  intro nearer small source near
  by_cases last : nearer = steps + 1
  · exact next source (last ▸ near)
  · exact closed nearer (by omega) source near

theorem OpenChain.not_hopeless (chain : store.OpenChain caller path target) :
    ¬ store.Hopeless caller target := by
  intro hopeless
  obtain ⟨leads, source, head, opened⟩ := chain
  obtain ⟨onward, rfl⟩ := List.head?_eq_some_iff.mp head
  simp [hopeless source onward leads] at opened

theorem OpenChain.not_closed {steps : Nat} (chain : store.OpenChain caller path target)
    (short : path.length ≤ steps + 1) : ¬ store.ClosedWithin caller target steps := by
  intro closed
  obtain ⟨leads, source, head, opened⟩ := chain
  obtain ⟨onward, rfl⟩ := List.head?_eq_some_iff.mp head
  obtain ⟨distance, bound, near⟩ := leads.exists_distance
  simp only [List.length_cons] at short
  simp [closed distance (by omega) source near] at opened

structure Exhausted (store : Store) (caller : Caller) (target : Reference) (depth : Nat) :
    Prop where
  hopeless : store.Hopeless caller target
  out : ∀ source, ¬ store.AtDistance target depth source

theorem Exhausted.beyond {depth far : Nat} (exhausted : store.Exhausted caller target depth)
    (later : depth ≤ far) (source : Reference) : ¬ store.AtDistance target far source := by
  intro found
  obtain ⟨middle, near⟩ := found.nearer later
  exact exhausted.out middle near

theorem Exhausted.later {depth far : Nat} (exhausted : store.Exhausted caller target depth)
    (later : depth ≤ far) : store.Exhausted caller target far :=
  ⟨exhausted.hopeless, exhausted.beyond later⟩

theorem ClosedWithin.hopeless {steps : Nat} (closed : store.ClosedWithin caller target steps)
    (out : ∀ source, ¬ store.AtDistance target (steps + 1) source) :
    store.Hopeless caller target := by
  intro source onward leads
  obtain ⟨distance, _, found⟩ := leads.exists_distance
  by_cases small : distance ≤ steps
  · exact closed distance small source found
  · obtain ⟨middle, near⟩ := found.nearer (by omega : steps + 1 ≤ distance)
    exact absurd near (out middle)

theorem leads_of_transGen
    (reaches : Relation.TransGen (fun source target => store.refersTo source target = true)
      source target) : ∃ onward, store.Leads (source :: onward) target := by
  induction reaches using Relation.TransGen.head_induction_on with
  | single refers => exact ⟨[target], by simpa using refers⟩
  | head refers _ ih =>
    obtain ⟨onward, leads⟩ := ih
    exact ⟨_ :: onward, leads_cons_cons.mpr ⟨refers, leads⟩⟩

theorem Leads.transGen (leads : store.Leads (source :: middle :: onward) target) :
    Relation.TransGen (fun source target => store.refersTo source target = true)
      source target := by
  induction onward generalizing source middle with
  | nil =>
    obtain ⟨refers, last⟩ := leads_cons_cons.mp leads
    obtain rfl := leads_singleton.mp last
    exact .single refers
  | cons next onward ih =>
    obtain ⟨refers, leads⟩ := leads_cons_cons.mp leads
    exact .head refers (ih leads)

end Store

end ObjectSpace
