import ObjectSpace.Table

set_option autoImplicit false

namespace ObjectSpace

section Success

variable {α β ε δ : Type} {value : α}

theorem bind_eq_ok {first : Except ε β} {next : β → Except ε α} :
    (first >>= next) = .ok value ↔ ∃ found, first = .ok found ∧ next found = .ok value := by
  cases first <;> simp [bind, Except.bind]

theorem bind_unit_eq_ok {ε α : Type} {first : Except ε Unit} {second : Except ε α} {value : α} :
    (first >>= fun _ => second) = .ok value ↔ first = .ok () ∧ second = .ok value := by
  cases first <;> simp [bind, Except.bind]

theorem mapError_eq_ok {result : Except ε α} {change : ε → δ} :
    result.mapError change = .ok value ↔ result = .ok value := by
  cases result with
  | error cause =>
    change (Except.error (change cause) : Except δ α) = .ok value ↔ _
    simp
  | ok found =>
    change (Except.ok found : Except δ α) = .ok value ↔ _
    simp

theorem toOption_eq_some_iff {result : Except ε α} :
    result.toOption = some value ↔ result = .ok value := by
  cases result <;> simp [Except.toOption]

end Success

theorem foldlM_eq_ok {α σ ε : Type} {step : σ → α → Except ε σ} {next : σ → α → σ}
    {elements : List α}
    (steps : ∀ state, ∀ element ∈ elements, step state element = .ok (next state element))
    (state : σ) : elements.foldlM step state = .ok (elements.foldl next state) := by
  induction elements generalizing state with
  | nil => rfl
  | cons first rest ih =>
    rw [List.foldlM_cons, steps state first List.mem_cons_self, List.foldl_cons]
    exact ih (fun state element mem => steps state element (List.mem_cons_of_mem _ mem)) _

theorem foldlM_tracks {α σ δ ε : Type} {step : σ → α → Except ε σ} {grow : δ → α → δ}
    {P : σ → δ → Prop} {elements : List α}
    (steps : ∀ state described element next, P state described →
      step state element = .ok next → P next (grow described element))
    {state last : σ} {described : δ} (start : P state described)
    (ran : elements.foldlM step state = .ok last) : P last (elements.foldl grow described) := by
  induction elements generalizing state described with
  | nil =>
    cases ran
    exact start
  | cons first rest ih =>
    rw [List.foldlM_cons, bind_eq_ok] at ran
    obtain ⟨next, one, later⟩ := ran
    exact ih (steps state described first next start one) later

theorem foldlM_invariant {α σ ε : Type} {step : σ → α → Except ε σ} {P : σ → Prop}
    {elements : List α}
    (steps : ∀ state element next, P state → step state element = .ok next → P next)
    {state last : σ} (start : P state) (ran : elements.foldlM step state = .ok last) :
    P last :=
  @foldlM_tracks α σ Unit ε step (fun _ _ => ()) (fun state _ => P state) elements
    (fun state _ => steps state) state last () start ran

theorem foldl_append_singleton {α β : Type} (f : α → β) (front : List β) (elements : List α) :
    elements.foldl (fun front element => front ++ [f element]) front = front ++ elements.map f := by
  induction elements generalizing front with
  | nil => simp
  | cons first rest ih => simp [ih]

theorem foldlM_congr {α σ ε : Type} {step other : σ → α → Except ε σ} {elements : List α}
    (same : ∀ state, ∀ element ∈ elements, step state element = other state element) (state : σ) :
    elements.foldlM step state = elements.foldlM other state := by
  induction elements generalizing state with
  | nil => rfl
  | cons first rest ih =>
    have later := ih fun state element mem => same state element (List.mem_cons_of_mem _ mem)
    rw [List.foldlM_cons, List.foldlM_cons, same state first List.mem_cons_self]
    exact congrArg _ (funext later)

theorem foldlM_map {α β σ ε : Type} (step : α → Except ε β) (absorb : σ → β → σ)
    (elements : List α) (state : σ) :
    elements.foldlM (fun state element => (step element).map (absorb state)) state =
      (elements.mapM step).map fun found => found.foldl absorb state := by
  induction elements generalizing state with
  | nil => rfl
  | cons first rest ih =>
    rw [List.foldlM_cons, List.mapM_cons]
    cases step first with
    | error error => rfl
    | ok one =>
      refine (ih (absorb state one)).trans ?_
      cases rest.mapM step <;> rfl

theorem foldlM_eq_error {α σ ε : Type} {step : σ → α → Except ε σ} {next : σ → α → σ}
    {before after : List α} {first : α} {error : ε}
    (steps : ∀ state, ∀ element ∈ before, step state element = .ok (next state element))
    (failed : ∀ state, step state first = .error error) (state : σ) :
    (before ++ first :: after).foldlM step state = .error error := by
  rw [List.foldlM_append, foldlM_eq_ok steps]
  change (first :: after).foldlM step _ = _
  rw [List.foldlM_cons, failed]
  rfl

section First

variable {α β ε : Type} {value : α → Except ε β} {elements : List α} {element : α} {error : ε}

def FailsFirst (value : α → Except ε β) (elements : List α) (element : α) (error : ε) : Prop :=
  ∃ before after, elements = before ++ element :: after ∧
    (∀ earlier ∈ before, ∃ found, value earlier = .ok found) ∧ value element = .error error

theorem all_ok_or_failsFirst (value : α → Except ε β) (elements : List α) :
    (∀ element ∈ elements, ∃ found, value element = .ok found) ∨
      ∃ element error, FailsFirst value elements element error := by
  induction elements with
  | nil => exact .inl (by simp)
  | cons first rest ih =>
    cases here : value first with
    | error error => exact .inr ⟨first, error, [], rest, rfl, by simp, here⟩
    | ok found =>
      have fine : ∃ found, value first = .ok found := ⟨found, here⟩
      rcases ih with all | ⟨element, error, before, after, rfl, passed, failed⟩
      · exact .inl (List.forall_mem_cons.mpr ⟨fine, all⟩)
      · exact .inr ⟨element, error, first :: before, after, rfl,
          List.forall_mem_cons.mpr ⟨fine, passed⟩, failed⟩

theorem failsFirst_singleton (failed : value element = .error error) :
    FailsFirst value [element] element error :=
  ⟨[], [], rfl, by simp, failed⟩

theorem FailsFirst.mem (fails : FailsFirst value elements element error) :
    element ∈ elements ∧ value element = .error error := by
  obtain ⟨before, after, rfl, _, failed⟩ := fails
  exact ⟨by simp, failed⟩

theorem FailsFirst.eraseDups [DecidableEq α] (fails : FailsFirst value elements element error) :
    FailsFirst value elements.eraseDups element error := by
  obtain ⟨before, after, rfl, passed, failed⟩ := fails
  -- What fails is none of those before it, so nothing in front takes its place.
  have fresh : element ∉ before := by
    intro mem
    obtain ⟨found, fine⟩ := passed element mem
    rw [failed] at fine
    cases fine
  rw [List.eraseDups_append, List.cons_removeAll, if_pos (by simpa using fresh),
    List.eraseDups_cons]
  refine ⟨before.eraseDups, _, rfl, ?_, failed⟩
  intro earlier mem
  exact passed earlier (List.mem_eraseDups.mp mem)

theorem FailsFirst.map {γ : Type} (fails : FailsFirst value elements element error)
    (change : β → γ) :
    FailsFirst (fun element => (value element).map change) elements element error := by
  obtain ⟨before, after, rfl, passed, failed⟩ := fails
  refine ⟨before, after, rfl, ?_, congrArg (Except.map change) failed⟩
  intro earlier mem
  obtain ⟨found, fine⟩ := passed earlier mem
  exact ⟨change found, congrArg (Except.map change) fine⟩

theorem forM_congr {step other : α → Except ε Unit}
    (same : ∀ element ∈ elements, step element = other element) :
    elements.forM step = elements.forM other := by
  induction elements with
  | nil => rfl
  | cons first rest ih =>
    have later := ih fun element mem => same element (List.mem_cons_of_mem _ mem)
    rw [List.forM, List.forM, same first List.mem_cons_self, later]

theorem forM_eq_ok {step : α → Except ε Unit}
    (steps : ∀ element ∈ elements, step element = .ok ()) :
    elements.forM step = .ok () := by
  induction elements with
  | nil => rfl
  | cons first rest ih =>
    have later := ih fun element mem => steps element (List.mem_cons_of_mem _ mem)
    rw [List.forM, steps first List.mem_cons_self]
    exact later

theorem FailsFirst.forM {step : α → Except ε Unit}
    (fails : FailsFirst step elements element error) : elements.forM step = .error error := by
  obtain ⟨before, after, rfl, passed, failed⟩ := fails
  induction before with
  | nil =>
    rw [List.nil_append, List.forM, failed]
    rfl
  | cons first rest ih =>
    have parts := List.forall_mem_cons.mp passed
    obtain ⟨_, fine⟩ := parts.1
    rw [List.cons_append, List.forM, fine]
    exact ih parts.2

end First

namespace Table

variable {κ ν ε : Type} [DecidableEq κ] {value : κ → Except ε ν} {keys : List κ}

def gather (keys : List κ) (value : κ → Except ε ν) : Except ε (Table κ ν) :=
  keys.foldlM (fun table key => (value key).map (table.insert key)) .empty

theorem gather_step {key : κ} (fine : ∃ found, value key = .ok found) (table : Table κ ν) :
    (value key).map (table.insert key) =
      .ok (match (value key).toOption with
        | some found => table.insert key found
        | none => table) := by
  obtain ⟨found, here⟩ := fine
  rw [here]
  rfl

theorem gather_eq_ok (fine : ∀ key ∈ keys, ∃ found, value key = .ok found) :
    gather keys value = .ok (collect keys fun key => (value key).toOption) :=
  foldlM_eq_ok (fun table key mem => gather_step (fine key mem) table) empty

theorem gather_eq_error {key : κ} {error : ε} (fails : FailsFirst value keys key error) :
    gather keys value = .error error := by
  obtain ⟨before, after, rfl, passed, failed⟩ := fails
  refine foldlM_eq_error (fun table key mem => gather_step (passed key mem) table) ?_ empty
  intro table
  rw [failed]
  rfl

end Table

variable {α β ε : Type} {step : α → Except ε β} {elements : List α} {collected : List β}

theorem labelled_ok {γ : Type} {label : γ} {found : Except ε β} {entry : γ × β}
    (ran : (do return (label, ← found)) = Except.ok entry) :
    entry.1 = label ∧ found = .ok entry.2 := by
  obtain ⟨value, here, same⟩ := bind_eq_ok.mp ran
  cases same
  exact ⟨rfl, here⟩

theorem mapM_eq_ok {value : α → β}
    (steps : ∀ element ∈ elements, step element = .ok (value element)) :
    elements.mapM step = .ok (elements.map value) := by
  induction elements with
  | nil => rfl
  | cons first rest ih =>
    have later := ih fun element mem => steps element (List.mem_cons_of_mem _ mem)
    rw [List.mapM_cons, steps first List.mem_cons_self, later]
    rfl

theorem mapM_cons_ok {first : α} :
    (first :: elements).mapM step = .ok collected ↔
      ∃ one rest, step first = .ok one ∧ elements.mapM step = .ok rest ∧
        collected = one :: rest := by
  simp only [List.mapM_cons, bind_eq_ok, pure, Except.pure, Except.ok.injEq, exists_and_left,
    @eq_comm _ collected]

theorem mapM_cons_error {first : α} {error : ε} :
    (first :: elements).mapM step = .error error ↔ step first = .error error ∨
      ∃ one, step first = .ok one ∧ elements.mapM step = .error error := by
  rw [List.mapM_cons]
  cases step first with
  | error cause => simp [bind, Except.bind]
  | ok one => cases elements.mapM step <;> simp [bind, Except.bind, pure, Except.pure]

theorem mem_mapM (ran : elements.mapM step = .ok collected) {value : β} :
    value ∈ collected ↔ ∃ element ∈ elements, step element = .ok value := by
  induction elements generalizing collected with
  | nil =>
    cases ran
    simp
  | cons first elements ih =>
    obtain ⟨one, rest, here, later, rfl⟩ := mapM_cons_ok.mp ran
    simp [ih later, here, eq_comm]

theorem mapM_ok_of_mem (ran : elements.mapM step = .ok collected) {element : α}
    (mem : element ∈ elements) : ∃ value, step element = .ok value := by
  induction elements generalizing collected with
  | nil => cases mem
  | cons first elements ih =>
    obtain ⟨one, rest, here, later, rfl⟩ := mapM_cons_ok.mp ran
    rcases List.mem_cons.mp mem with rfl | mem
    · exact ⟨one, here⟩
    · exact ih later mem

theorem pairwise_mapM {r : β → β → Prop} (ran : elements.mapM step = .ok collected)
    (apart : elements.Pairwise fun left right =>
      ∀ first second, step left = .ok first → step right = .ok second → r first second) :
    collected.Pairwise r := by
  induction elements generalizing collected with
  | nil =>
    cases ran
    exact .nil
  | cons first elements ih =>
    obtain ⟨one, rest, here, later, rfl⟩ := mapM_cons_ok.mp ran
    have parts := List.pairwise_cons.mp apart
    apply List.pairwise_cons.mpr
    refine ⟨?_, ih later parts.2⟩
    intro value mem
    obtain ⟨element, listed, found⟩ := (mem_mapM later).mp mem
    exact parts.1 element listed one value here found

theorem map_mapM {γ : Type} {label : β → γ} {key : α → γ}
    (ran : elements.mapM step = .ok collected)
    (keeps : ∀ element value, step element = .ok value → label value = key element) :
    collected.map label = elements.map key := by
  induction elements generalizing collected with
  | nil =>
    cases ran
    rfl
  | cons first elements ih =>
    obtain ⟨one, rest, here, later, rfl⟩ := mapM_cons_ok.mp ran
    rw [List.map_cons, List.map_cons, keeps first one here, ih later]

theorem mapM_eq_error {error : ε} (failed : elements.mapM step = .error error) :
    ∃ element ∈ elements, step element = .error error := by
  induction elements with
  | nil => cases failed
  | cons first elements ih =>
    rcases mapM_cons_error.mp failed with here | ⟨_, _, later⟩
    · exact ⟨first, List.mem_cons_self, here⟩
    · obtain ⟨element, mem, failed⟩ := ih later
      exact ⟨element, List.mem_cons_of_mem _ mem, failed⟩

theorem exists_mapM (steps : ∀ element ∈ elements, ∃ value, step element = .ok value) :
    ∃ collected, elements.mapM step = .ok collected := by
  induction elements with
  | nil => exact ⟨[], rfl⟩
  | cons first elements ih =>
    obtain ⟨one, here⟩ := steps first List.mem_cons_self
    obtain ⟨rest, later⟩ := ih fun element mem => steps element (List.mem_cons_of_mem _ mem)
    exact ⟨one :: rest, mapM_cons_ok.mpr ⟨one, rest, here, later, rfl⟩⟩

end ObjectSpace
