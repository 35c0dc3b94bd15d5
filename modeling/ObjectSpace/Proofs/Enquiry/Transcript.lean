import ObjectSpace.Enquiry.Faults

set_option autoImplicit false

namespace ObjectSpace

abbrev Responder (σ : Type) := (query : Query) → σ → Reply query × σ

structure Exchange (σ : Type) where
  query : Query
  reply : Reply query
  state : σ

namespace Exchange

variable {σ : Type}

def kind (exchange : Exchange σ) : QueryKind := exchange.query.kind

def kinds (exchanges : List (Exchange σ)) : List QueryKind := exchanges.map kind

@[simp] theorem kinds_nil : kinds ([] : List (Exchange σ)) = [] := rfl

@[simp] theorem kinds_append (early late : List (Exchange σ)) :
    kinds (early ++ late) = kinds early ++ kinds late := List.map_append

def Answered (exchange : Exchange σ) : Prop := ∃ answer, exchange.reply = .ok answer

end Exchange

def Store.still : Responder Store := fun query store => (store.answer query, store)

namespace Enquiry

variable {ε α β σ : Type} {respond : Responder σ} {state after : σ}

def transcript (respond : Responder σ) : Enquiry ε α → σ → List (Exchange σ)
  | .done _, _ => []
  | .fail _, _ => []
  | .ask query rest, state =>
    let (reply, state) := respond query state
    ⟨query, reply, state⟩ :: (rest reply).transcript respond state

section Run

variable {store : Store}

theorem run_query [OfStoreError ε] {query : Query} {answer : query.Answer}
    (answered : store.answer query = .ok answer) :
    (Enquiry.query query : Enquiry ε query.Answer).run store = .ok answer := by
  simp only [Enquiry.query, Enquiry.run, answered]

theorem run_query_error [OfStoreError ε] {query : Query} {error : StoreError}
    (failed : store.answer query = .error error) :
    (Enquiry.query query : Enquiry ε query.Answer).run store =
      .error (OfStoreError.ofStoreError error) := by
  simp only [Enquiry.query, Enquiry.run, failed]

theorem run_ofExcept (result : Except ε α) : (ofExcept result).run store = result := by
  cases result <;> rfl

theorem run_bind_ok {enquiry : Enquiry ε α} {value : α} (ran : enquiry.run store = .ok value)
    (next : α → Enquiry ε β) : (enquiry >>= next).run store = (next value).run store := by
  rw [run_bind, ran]
  rfl

theorem run_bind_error {enquiry : Enquiry ε α} {error : ε} (ran : enquiry.run store = .error error)
    (next : α → Enquiry ε β) : (enquiry >>= next).run store = .error error := by
  rw [run_bind, ran]
  rfl

end Run

theorem runWith_bind (enquiry : Enquiry ε α) (next : α → Enquiry ε β) (state : σ) :
    (enquiry >>= next).runWith respond state =
      match enquiry.runWith respond state with
      | (.ok value, after) => (next value).runWith respond after
      | (.error error, after) => (.error error, after) := by
  change (enquiry.bind next).runWith respond state = _
  induction enquiry generalizing state with
  | done => rfl
  | fail => rfl
  | ask query rest ih => exact ih _ _

theorem transcript_bind (enquiry : Enquiry ε α) (next : α → Enquiry ε β) (state : σ) :
    (enquiry >>= next).transcript respond state =
      enquiry.transcript respond state ++
        match enquiry.runWith respond state with
        | (.ok value, after) => (next value).transcript respond after
        | (.error _, _) => [] := by
  change (enquiry.bind next).transcript respond state = _
  induction enquiry generalizing state with
  | done => rfl
  | fail => rfl
  | ask query rest ih => exact congrArg _ (ih _ _)

theorem runWith_bind_ok {enquiry : Enquiry ε α} {next : α → Enquiry ε β} {result : β}
    (ran : (enquiry >>= next).runWith respond state = (.ok result, after)) :
    ∃ value between, enquiry.runWith respond state = (.ok value, between) ∧
      (next value).runWith respond between = (.ok result, after) := by
  rw [runWith_bind] at ran
  cases first : enquiry.runWith respond state with
  | mk outcome between =>
    rw [first] at ran
    cases outcome with
    | error error => cases ran
    | ok value => exact ⟨value, between, rfl, ran⟩

theorem ofExcept_map (change : α → β) (result : Except ε α) :
    ofExcept (result.map change) = ofExcept result >>= fun value => pure (change value) := by
  cases result <;> rfl

theorem runWith_ofExcept (result : Except ε α) (state : σ) :
    (ofExcept result).runWith respond state = (result, state) := by
  cases result <;> rfl

theorem transcript_ofExcept (result : Except ε α) (state : σ) :
    (ofExcept result).transcript respond state = [] := by
  cases result <;> rfl

theorem transcript_query [OfStoreError ε] (query : Query) (state : σ) :
    (Enquiry.query query : Enquiry ε query.Answer).transcript respond state =
      [⟨query, (respond query state).1, (respond query state).2⟩] := by
  cases replied : respond query state with
  | mk reply after => cases reply <;> simp [Enquiry.query, transcript, replied]

section Query

variable [OfStoreError ε] {query : Query} (next : query.Answer → Enquiry ε α)

theorem query_bind_ok {answer : query.Answer} (asked : respond query state = (.ok answer, after)) :
    (Enquiry.query query >>= next).transcript respond state =
        ⟨query, .ok answer, after⟩ :: (next answer).transcript respond after ∧
      (Enquiry.query query >>= next).runWith respond state =
        (next answer).runWith respond after := by
  change (bind (.ask query _) next).transcript respond state = _ ∧
    (bind (.ask query _) next).runWith respond state = _
  simp [bind, transcript, runWith, asked]

theorem query_bind_fault {fault : StoreError}
    (asked : respond query state = (.error fault, after)) :
    (Enquiry.query query >>= next).transcript respond state = [⟨query, .error fault, after⟩] ∧
      (Enquiry.query query >>= next).runWith respond state =
        (.error (OfStoreError.ofStoreError fault), after) := by
  change (bind (.ask query _) next).transcript respond state = _ ∧
    (bind (.ask query _) next).runWith respond state = _
  simp [bind, transcript, runWith, asked]

end Query

theorem runWith_still (enquiry : Enquiry ε α) (store : Store) :
    enquiry.runWith Store.still store = (enquiry.run store, store) := by
  induction enquiry with
  | done => rfl
  | fail => rfl
  | ask query rest ih => exact ih _

theorem transcript_bind_still {store : Store} {enquiry : Enquiry ε α} {value : α}
    (ran : enquiry.run store = .ok value) (next : α → Enquiry ε β) :
    (enquiry >>= next).transcript Store.still store =
      enquiry.transcript Store.still store ++ (next value).transcript Store.still store := by
  rw [transcript_bind, runWith_still, ran]

-- Only the replies count, not how the responder changed.
theorem runWith_eq_run (store : Store) (enquiry : Enquiry ε α) (state : σ)
    (told : ∀ exchange ∈ enquiry.transcript respond state,
      exchange.reply = store.answer exchange.query) :
    (enquiry.runWith respond state).1 = enquiry.run store := by
  induction enquiry generalizing state with
  | done => rfl
  | fail => rfl
  | ask query rest ih =>
    have here : (respond query state).1 = store.answer query := told _ List.mem_cons_self
    have later := ih (respond query state).1 (respond query state).2 fun exchange mem =>
      told exchange (List.mem_cons_of_mem _ mem)
    rw [runWith, run, ← here]
    exact later

section Invariant

variable {I : σ → Prop} (kept : ∀ query state, I state → I (respond query state).2)

include kept

theorem runWith_invariant (enquiry : Enquiry ε α) (start : I state) :
    I (enquiry.runWith respond state).2 := by
  induction enquiry generalizing state with
  | done => exact start
  | fail => exact start
  | ask query rest ih => exact ih _ (kept query state start)

theorem mem_transcript {enquiry : Enquiry ε α} (start : I state) {exchange : Exchange σ}
    (mem : exchange ∈ enquiry.transcript respond state) :
    ∃ before, I before ∧
      respond exchange.query before = (exchange.reply, exchange.state) := by
  induction enquiry generalizing state with
  | done => cases mem
  | fail => cases mem
  | ask query rest ih =>
    rcases List.mem_cons.mp mem with rfl | later
    · exact ⟨state, start, rfl⟩
    · exact ih _ (kept query state start) later

end Invariant

def Asks (enquiry : Enquiry ε α) (calls : List QueryKind → Prop) : Prop :=
  ∀ (σ : Type) (respond : Responder σ) (state : σ),
    calls (Exchange.kinds (enquiry.transcript respond state))

namespace Asks

variable {enquiry : Enquiry ε α} {next : α → Enquiry ε β}
variable {early late calls : List QueryKind → Prop}

theorem done (value : α) (empty : calls []) : (Enquiry.done value : Enquiry ε α).Asks calls :=
  fun _ _ _ => empty

theorem ofExcept (result : Except ε α) (empty : calls []) :
    (Enquiry.ofExcept result).Asks calls := by
  intro σ respond state
  rw [transcript_ofExcept]
  exact empty

theorem query [OfStoreError ε] (query : Query) :
    (Enquiry.query query : Enquiry ε query.Answer).Asks (· = [query.kind]) := by
  intro σ respond state
  rw [transcript_query]
  rfl

theorem bind (first : enquiry.Asks early) (onward : ∀ value, (next value).Asks late)
    (stopped : ∀ before, early before → calls before)
    (joined : ∀ before after, early before → late after → calls (before ++ after)) :
    (enquiry >>= next).Asks calls := by
  intro σ respond state
  have here := first σ respond state
  rw [transcript_bind, Exchange.kinds_append]
  cases enquiry.runWith respond state with
  | mk outcome after =>
    cases outcome with
    | error error => simpa using stopped _ here
    | ok value => exact joined _ _ here (onward value σ respond after)

theorem bind_sublist {before after : List QueryKind} (first : enquiry.Asks (·.Sublist before))
    (onward : ∀ value, (next value).Asks (·.Sublist after)) :
    (enquiry >>= next).Asks (·.Sublist (before ++ after)) := by
  refine first.bind onward ?_ ?_
  · intro calls within
    exact within.trans (List.sublist_append_left before after)
  · intro calls further within beyond
    exact within.append beyond

end Asks

inductive HaltsOnFault [OfStoreError ε] : Enquiry ε α → Prop where
  | done (value : α) : HaltsOnFault (.done value)
  | fail (error : ε) : HaltsOnFault (.fail error)
  | ask (query : Query) (rest : Reply query → Enquiry ε α)
      (halts : ∀ fault, rest (.error fault) = .fail (OfStoreError.ofStoreError fault))
      (onward : ∀ answer, HaltsOnFault (rest (.ok answer))) : HaltsOnFault (.ask query rest)

namespace HaltsOnFault

variable [OfStoreError ε] {enquiry : Enquiry ε α}

theorem query (query : Query) :
    (Enquiry.query query : Enquiry ε query.Answer).HaltsOnFault :=
  .ask query _ (fun _ => rfl) fun answer => .done answer

theorem ofExcept (result : Except ε α) : (Enquiry.ofExcept result).HaltsOnFault := by
  cases result with
  | ok value => exact .done value
  | error error => exact .fail error

theorem bind (halts : enquiry.HaltsOnFault) {next : α → Enquiry ε β}
    (onward : ∀ value, (next value).HaltsOnFault) : (enquiry >>= next).HaltsOnFault := by
  change (enquiry.bind next).HaltsOnFault
  induction halts with
  | done value => exact onward value
  | fail error => exact .fail error
  | ask query rest faults _ ih =>
    apply HaltsOnFault.ask
    · intro fault
      rw [faults]
      rfl
    · exact ih

theorem fault_last (halts : enquiry.HaltsOnFault) (respond : Responder σ) {state : σ}
    {before later : List (Exchange σ)} {exchange : Exchange σ} {fault : StoreError}
    (asked : enquiry.transcript respond state = before ++ exchange :: later)
    (failed : exchange.reply = .error fault) :
    later = [] ∧ (enquiry.runWith respond state).1 = .error (OfStoreError.ofStoreError fault) := by
  induction halts generalizing state before with
  | done => simp [transcript] at asked
  | fail => simp [transcript] at asked
  | ask query rest faults onward ih =>
    cases replied : respond query state with
    | mk reply after =>
      simp only [transcript, runWith, replied] at asked ⊢
      cases before with
      | nil =>
        obtain ⟨rfl, rfl⟩ := List.cons.inj asked
        obtain rfl : reply = .error fault := failed
        rw [faults]
        exact ⟨rfl, rfl⟩
      | cons first before =>
        have tail := (List.cons.inj asked).2
        cases reply with
        | ok answer => exact ih answer tail
        | error cause =>
          rw [faults] at tail
          simp [transcript] at tail

theorem answered (halts : enquiry.HaltsOnFault) {state : σ} {result : α}
    (ran : (enquiry.runWith respond state).1 = .ok result) :
    ∀ exchange ∈ enquiry.transcript respond state, exchange.Answered := by
  intro exchange mem
  have split := List.append_of_mem mem
  rcases split with ⟨before, later, asked⟩
  cases replied : exchange.reply with
  | ok answer => exact ⟨answer, replied⟩
  | error fault =>
    have ended := (halts.fault_last respond asked replied).2
    rw [ended] at ran
    cases ran

end HaltsOnFault

end Enquiry

end ObjectSpace
