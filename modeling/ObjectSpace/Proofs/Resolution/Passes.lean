import ObjectSpace.Proofs.Collecting
import ObjectSpace.Proofs.Tables
import ObjectSpace.Resolution.Resolver

set_option autoImplicit false

namespace ObjectSpace

theorem Resolutions.of_eq {entries : List (Address × Outcome)} {written : Table Address Outcome}
    (holds : ∀ entry ∈ entries, written.get? entry.1 = some entry.2) :
    of (entries.map Prod.fst) written = .mk entries := by
  induction entries with
  | nil => rfl
  | cons entry rest ih =>
    have here := holds entry List.mem_cons_self
    have later := ih fun other mem => holds other (List.mem_cons_of_mem _ mem)
    simp only [of, Resolutions.mk.injEq] at later
    simp only [of, List.map_cons, List.filterMap_cons, here, Option.map_some, later]

def Settling.absorb (snapshot : Snapshot) (settling : Settling) (entry : Address × Progress) :
    Settling :=
  match snapshot.head entry.1 with
  | .error _ => settling
  | .ok _ =>
    match entry.2 with
    | .settled outcome => { settling with outcomes := settling.outcomes.insert entry.1 outcome }
    | .searching head target =>
      { settling with searches := settling.searches ++ [(entry.1, head, target)] }

namespace Resolver

variable {findings : Findings} {incoming : Table Reference (List Reference)}
variable {reached : List (Address × Progress)}

def labelled (findings : Findings) (incoming : Table Reference (List Reference))
    (entry : Address × Nat) : Except ResolveError (Address × Progress) := do
  return (entry.1, ← progress findings incoming entry.1 (entry.2 + 1))

def progressAll (resolver : Resolver) (findings : Findings)
    (incoming : Table Reference (List Reference)) :
    Except ResolveError (List (Address × Progress)) :=
  resolver.objects.zipIdx.mapM (labelled findings incoming)

theorem progressAll_objects {resolver : Resolver}
    (ran : resolver.progressAll findings incoming = .ok reached) :
    reached.map Prod.fst = resolver.objects := by
  have objects : resolver.objects.zipIdx.map Prod.fst = resolver.objects := by simp
  exact (map_mapM ran fun _ _ one => (labelled_ok one).1).trans objects

theorem mem_progressAll {resolver : Resolver}
    (ran : resolver.progressAll findings incoming = .ok reached)
    {entry : Address × Progress} (mem : entry ∈ reached) :
    ∃ index, progress findings incoming entry.1 index = .ok entry.2 := by
  rcases (mem_mapM ran).mp mem with ⟨place, _, one⟩
  rcases labelled_ok one with ⟨named, progressed⟩
  exact ⟨place.2 + 1, named ▸ progressed⟩

def settledOf (entry : Address × Progress) : Option (Address × Outcome) :=
  match entry.2 with
  | .settled outcome => some (entry.1, outcome)
  | .searching _ _ => none

def searchOf (entry : Address × Progress) : Option (Address × ResolvedAddress × Reference) :=
  match entry.2 with
  | .settled _ => none
  | .searching head target => some (entry.1, head, target)

def targets (reached : List (Address × Progress)) : List Reference :=
  reached.filterMap fun entry =>
    match entry.2 with
    | .settled _ => none
    | .searching _ target => some target

theorem targets_eq (reached : List (Address × Progress)) :
    (reached.filterMap searchOf).map (fun entry => entry.2.2) = targets reached := by
  rw [targets, List.map_filterMap]
  congr 1
  funext ⟨object, progress⟩
  cases progress <;> rfl

theorem progress_refused {object : Address} {cause : FailureCause} {index : Nat}
    (refused : findings.snapshot.head object = .error cause) :
    progress findings incoming object index = .ok (.settled (.error { object, cause })) := by
  rw [progress, refused]

theorem settleNext_eq (settling : Settling) (entry : Address × Nat) :
    settleNext findings incoming settling entry =
      (labelled findings incoming entry).map (settling.absorb findings.snapshot) := by
  cases head : findings.snapshot.head entry.1 with
  | error cause =>
    rw [labelled, progress_refused head]
    simp [settleNext, head, Settling.absorb, Except.map, bind, Except.bind, pure, Except.pure]
  | ok address =>
    rw [settleNext, head, labelled]
    cases progress findings incoming entry.1 (entry.2 + 1) with
    | error error => rfl
    | ok reached => cases reached <;> simp [head, Settling.absorb, Except.map, bind, Except.bind,
        pure, Except.pure]

def settling (resolver : Resolver) (snapshot : Snapshot) (reached : List (Address × Progress)) :
    Settling :=
  reached.foldl (Settling.absorb snapshot)
    { outcomes := Table.collect resolver.objects snapshot.refusal? }

theorem foldlM_settleNext (resolver : Resolver) :
    resolver.objects.zipIdx.foldlM (settleNext findings incoming)
        { outcomes := Table.collect resolver.objects findings.snapshot.refusal? } =
      (resolver.progressAll findings incoming).map (resolver.settling findings.snapshot) := by
  have steps : settleNext findings incoming = fun settling entry =>
      (labelled findings incoming entry).map (settling.absorb findings.snapshot) :=
    funext fun settling => funext (settleNext_eq settling)
  rw [steps, foldlM_map]
  rfl

theorem absorb_searches {progressed : Address × Progress} {index : Nat}
    (ran : progress findings incoming progressed.1 index = .ok progressed.2)
    (settling : Settling) :
    (settling.absorb findings.snapshot progressed).searches =
      settling.searches ++ (searchOf progressed).toList := by
  obtain ⟨object, reached⟩ := progressed
  cases head : findings.snapshot.head object with
  | error cause =>
    rw [progress_refused head] at ran
    cases ran
    simp [Settling.absorb, head, searchOf]
  | ok address => cases reached <;> simp [Settling.absorb, head, searchOf]

theorem foldl_absorb_searches
    (ran : ∀ entry ∈ reached, ∃ index, progress findings incoming entry.1 index = .ok entry.2)
    (start : Settling) :
    (reached.foldl (Settling.absorb findings.snapshot) start).searches =
      start.searches ++ reached.filterMap searchOf := by
  induction reached generalizing start with
  | nil => simp
  | cons first rest ih =>
    obtain ⟨index, here⟩ := ran first List.mem_cons_self
    rw [List.foldl_cons, ih fun entry mem => ran entry (List.mem_cons_of_mem _ mem),
      absorb_searches here, List.filterMap_cons, List.append_assoc]
    cases searchOf first <;> rfl

theorem settling_searches {resolver : Resolver}
    (ran : resolver.progressAll findings incoming = .ok reached) :
    (resolver.settling findings.snapshot reached).searches = reached.filterMap searchOf :=
  foldl_absorb_searches (fun _ mem => mem_progressAll ran mem) _

theorem foldl_absorb_outcomes (snapshot : Snapshot) (reached : List (Address × Progress))
    (start : Settling) :
    (reached.foldl (Settling.absorb snapshot) start).outcomes =
      ((reached.filterMap settledOf).filter fun entry => (snapshot.refusal? entry.1).isNone).foldl
        (fun outcomes entry => outcomes.insert entry.1 entry.2) start.outcomes := by
  induction reached generalizing start with
  | nil => rfl
  | cons first rest ih =>
    rw [List.foldl_cons, ih]
    obtain ⟨object, progress⟩ := first
    cases head : snapshot.head object <;> cases progress <;>
      simp [Settling.absorb, Snapshot.refusal?, head, settledOf, List.filterMap_cons]

theorem settled_keys (reached : List (Address × Progress)) :
    ((reached.filterMap settledOf).map Prod.fst).Sublist (reached.map Prod.fst) := by
  induction reached with
  | nil => exact .slnil
  | cons first rest ih =>
    obtain ⟨object, progress⟩ := first
    cases progress with
    | settled outcome => exact ih.cons_cons object
    | searching head target => exact ih.cons object

-- An address that is refused at once keeps what the first pass wrote.
theorem settling_outcomes {resolver : Resolver}
    (ran : resolver.progressAll findings incoming = .ok reached)
    {entry : Address × Outcome} (mem : entry ∈ reached.filterMap settledOf) :
    (resolver.settling findings.snapshot reached).outcomes.get? entry.1 = some entry.2 := by
  have named := progressAll_objects ran
  have nodup : ((reached.filterMap settledOf).map Prod.fst).Nodup :=
    (settled_keys reached).nodup (named ▸ resolver.distinct)
  rw [settling, foldl_absorb_outcomes]
  refine Table.get?_foldl_insert_of_sublist nodup List.filter_sublist _ mem fun absent => ?_
  obtain ⟨⟨object, progress⟩, listed, settled⟩ := List.mem_filterMap.mp mem
  cases progress with
  | searching head target => cases settled
  | settled outcome =>
    cases settled
    obtain ⟨index, progressed⟩ := mem_progressAll ran listed
    have asked : object ∈ resolver.objects := named ▸ List.mem_map_of_mem listed
    cases head : findings.snapshot.head object with
    | ok address =>
      exact (absent (List.mem_filter.mpr ⟨mem, by simp [Snapshot.refusal?, head]⟩)).elim
    | error cause =>
      rw [progress_refused head] at progressed
      cases progressed
      simp [Table.get?_collect, asked, Snapshot.refusal?, head]

def concluded (findings : Findings) (searched : SearchResult) (entry : Address × Progress) :
    Except ResolveError (Address × Outcome) := do
  return (entry.1, ← conclude findings searched entry.1 entry.2)

theorem concludeNext_eq (searched : SearchResult) (outcomes : Table Address Outcome)
    (entry : Address × ResolvedAddress × Reference) :
    concludeNext findings searched outcomes entry =
      (concluded findings searched (entry.1, .searching entry.2.1 entry.2.2)).map
        fun one => outcomes.insert one.1 one.2 := by
  rw [concludeNext, concluded]
  cases conclude findings searched entry.1 (.searching entry.2.1 entry.2.2) <;> rfl

def concludedSearch (findings : Findings) (searched : SearchResult)
    (entry : Address × ResolvedAddress × Reference) : Except ResolveError (Address × Outcome) :=
  concluded findings searched (entry.1, .searching entry.2.1 entry.2.2)

variable {searched : SearchResult} {ended : List (Address × Outcome)}

theorem concluded_ok
    (ran : reached.mapM (concluded findings searched) = .ok ended) :
    ∃ found, (reached.filterMap searchOf).mapM (concludedSearch findings searched) = .ok found ∧
      found.Sublist ended ∧ ∀ entry ∈ ended, entry ∉ found → entry ∈ reached.filterMap settledOf := by
  induction reached generalizing ended with
  | nil =>
    cases ran
    exact ⟨[], rfl, .slnil, by simp⟩
  | cons first rest ih =>
    obtain ⟨one, more, here, later, rfl⟩ := mapM_cons_ok.mp ran
    obtain ⟨found, passed, part, otherwise⟩ := ih later
    obtain ⟨object, progress⟩ := first
    cases progress with
    | settled outcome =>
      cases here
      refine ⟨found, passed, part.cons _, fun entry mem absent => ?_⟩
      rcases List.mem_cons.mp mem with rfl | mem
      · exact List.mem_cons_self
      · exact List.mem_cons_of_mem _ (otherwise entry mem absent)
    | searching head target =>
      refine ⟨one :: found, mapM_cons_ok.mpr ⟨one, found, here, passed, rfl⟩, part.cons_cons one,
        fun entry mem absent => ?_⟩
      rcases List.mem_cons.mp mem with rfl | mem
      · exact (absent List.mem_cons_self).elim
      · exact otherwise entry mem fun listed => absent (List.mem_cons_of_mem _ listed)

theorem concluded_error {error : ResolveError}
    (failed : reached.mapM (concluded findings searched) = .error error) :
    (reached.filterMap searchOf).mapM (concludedSearch findings searched) = .error error := by
  induction reached with
  | nil => cases failed
  | cons first rest ih =>
    obtain ⟨object, progress⟩ := first
    cases progress with
    | settled outcome =>
      rcases mapM_cons_error.mp failed with here | ⟨_, _, later⟩
      · cases here
      · exact ih later
    | searching head target =>
      refine mapM_cons_error.mpr ?_
      rcases mapM_cons_error.mp failed with here | ⟨one, here, later⟩
      · exact .inl here
      · exact .inr ⟨one, here, ih later⟩

theorem foldlM_concludeNext {resolver : Resolver}
    (ran : resolver.progressAll findings incoming = .ok reached) (searched : SearchResult) :
    ((reached.filterMap searchOf).foldlM (concludeNext findings searched)
        (resolver.settling findings.snapshot reached).outcomes).map
          (Resolutions.of resolver.objects) =
      (reached.mapM (concluded findings searched)).map .mk := by
  have steps : concludeNext findings searched = fun outcomes entry =>
      (concludedSearch findings searched entry).map fun one => outcomes.insert one.1 one.2 :=
    funext fun outcomes => funext (concludeNext_eq searched outcomes)
  rw [steps, foldlM_map]
  cases concluding : reached.mapM (concluded findings searched) with
  | error error =>
    rw [concluded_error concluding]
    rfl
  | ok ended =>
    obtain ⟨found, passed, part, otherwise⟩ := concluded_ok concluding
    have named : ended.map Prod.fst = resolver.objects :=
      (map_mapM concluding fun _ _ one => (labelled_ok one).1).trans (progressAll_objects ran)
    have nodup : (ended.map Prod.fst).Nodup := named ▸ resolver.distinct
    have read := Resolutions.of_eq fun entry mem =>
      Table.get?_foldl_insert_of_sublist nodup part _ mem fun absent =>
        settling_outcomes ran (otherwise entry mem absent)
    rw [named] at read
    rw [passed]
    exact congrArg Except.ok read

end Resolver

end ObjectSpace
