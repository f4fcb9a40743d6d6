import M1nd.Core.Tremor

namespace M1nd.Core

open M1nd.Library.Checks
open M1nd.Library.Json (Bytes)

variable {T D J : Type}

section Loop

variable {α : Type} {capacity fuel : Nat} {queue room : List α}

-- The loop of the source, which may be entered `fuel` times. A pop of an empty queue leaves it
-- empty.
def makeRoom (capacity : Nat) : Nat → List α → Option (List α)
  | 0, _ => none
  | fuel + 1, queue =>
      if capacity ≤ queue.length then makeRoom capacity fuel queue.tail else some queue

theorem makeRoom_zero (fuel : Nat) (queue : List α) : makeRoom 0 fuel queue = none := by
  induction fuel generalizing queue with
  | zero => rfl
  | succ fuel ih =>
      have hfull : 0 ≤ queue.length := Nat.zero_le _
      rw [makeRoom, if_pos hfull, ih]

-- Each pop shortens the queue, so that the loop ends below a capacity that is not zero.
theorem makeRoom_eq_evict (hcapacity : capacity ≠ 0) (hfuel : queue.length < fuel) :
    makeRoom capacity fuel queue = some (evict capacity queue) := by
  induction fuel generalizing queue with
  | zero => omega
  | succ fuel ih =>
      cases queue with
      | nil =>
          have hroom : ¬ capacity ≤ ([] : List α).length := by
            simp only [List.length_nil]
            omega
          rw [makeRoom, if_neg hroom, evict]
      | cons oldest queue =>
          simp only [List.length_cons] at hfuel
          rw [makeRoom, evict]
          by_cases hfull : capacity ≤ (oldest :: queue).length
          · rw [if_pos hfull, if_pos hfull, List.tail_cons, ih (by omega)]
          · rw [if_neg hfull, if_neg hfull]

end Loop

namespace TremorRegistry

variable (registry : TremorRegistry T D)

-- The derived default has no capacity.
def default : TremorRegistry T D where
  observations := ∅
  maxObservations := 0

-- A call whose loop may be entered `fuel` times.
def recordWithin (fuel : Nat) (registry : TremorRegistry T D) (record : TremorRecord T D) :
    Option (TremorRegistry T D) := do
  let room ← makeRoom registry.maxObservations fuel (registry.queue record.externalId)
  some { registry with
    observations := registry.observations.insert record.externalId (room ++ [record.observation]) }

def recordAllWithin (fuel : Nat) (records : List (TremorRecord T D)) :
    Option (TremorRegistry T D) :=
  records.foldlM (recordWithin fuel) registry

-- Each node holds the end of its history, as long as the capacity allows, and a node that was not
-- observed holds what it held before.
structure HoldsWindows (records : List (TremorRecord T D)) (next : TremorRegistry T D) : Prop where
  capacity : next.maxObservations = registry.maxObservations
  observed : ∀ record ∈ records, next.observations[record.externalId]? =
    some ((registry.history records record.externalId).rtake registry.maxObservations)
  unobserved : ∀ externalId, (∀ record ∈ records, record.externalId ≠ externalId) →
    next.observations[externalId]? = registry.observations[externalId]?

-- No queue is longer than the capacity.
def Fits : Prop :=
  ∀ externalId, (registry.queue externalId).length ≤ registry.maxObservations

-- The window of the node moved on by the observation.
def slide (record : TremorRecord T D) : TremorRegistry T D :=
  { registry with
    observations := registry.observations.insert record.externalId
      ((registry.queue record.externalId ++ [record.observation]).rtake registry.maxObservations) }

variable {registry} {next : TremorRegistry T D} {record : TremorRecord T D}
  {records : List (TremorRecord T D)} {fuel : Nat}

theorem getElem?_slide (record : TremorRecord T D) (externalId : String) :
    (registry.slide record).observations[externalId]? =
      if record.externalId = externalId then
        some ((registry.queue record.externalId ++ [record.observation]).rtake
          registry.maxObservations)
      else registry.observations[externalId]? := by
  simp only [slide, Std.ExtTreeMap.getElem?_insert, Std.LawfulEqCmp.compare_eq_iff_eq]

theorem queue_slide (record : TremorRecord T D) (externalId : String) :
    (registry.slide record).queue externalId =
      if record.externalId = externalId then
        (registry.queue record.externalId ++ [record.observation]).rtake registry.maxObservations
      else registry.queue externalId := by
  rw [queue, getElem?_slide]
  by_cases hsame : record.externalId = externalId
  · rw [if_pos hsame, if_pos hsame, Option.getD_some]
  · rw [if_neg hsame, if_neg hsame, queue]

-- A call on queues that fit ends.
theorem Fits.recordWithin_eq (hfits : registry.Fits) (hcapacity : registry.maxObservations ≠ 0)
    (hfuel : registry.maxObservations < fuel) (record : TremorRecord T D) :
    registry.recordWithin fuel record = some (registry.slide record) := by
  have hqueue := hfits record.externalId
  obtain ⟨n, hn⟩ := Nat.exists_eq_succ_of_ne_zero hcapacity
  have hwindow : evict registry.maxObservations (registry.queue record.externalId) ++
      [record.observation] = (registry.queue record.externalId ++ [record.observation]).rtake
        registry.maxObservations := by
    have hself := rtake_eq_self hqueue
    rw [hn] at hself ⊢
    rw [← evict_rtake_concat, hself]
  rw [recordWithin, makeRoom_eq_evict hcapacity (by omega), Option.bind_eq_bind, Option.bind_some,
    hwindow, slide]

theorem Fits.slide (hfits : registry.Fits) (record : TremorRecord T D) :
    (registry.slide record).Fits := by
  intro externalId
  rw [queue_slide]
  by_cases hsame : record.externalId = externalId
  · rw [if_pos hsame, length_rtake]
    exact Nat.min_le_left _ _
  · rw [if_neg hsame]
    exact hfits externalId

theorem rtake_append_rtake {α : Type} (before after : List α) (n : Nat) :
    (before.rtake n ++ after).rtake n = (before ++ after).rtake n := by
  simp only [List.rtake, List.length_append, List.length_drop, List.drop_append, List.drop_drop]
  congr 2 <;> omega

-- Both starts make histories that end alike.
theorem rtake_history_slide (record : TremorRecord T D) (records : List (TremorRecord T D))
    (externalId : String) :
    ((registry.slide record).history records externalId).rtake registry.maxObservations =
      (registry.history (record :: records) externalId).rtake registry.maxObservations := by
  unfold history
  rw [queue_slide]
  by_cases hsame : record.externalId = externalId
  · subst hsame
    rw [if_pos rfl, rtake_append_rtake]
    simp
  · rw [if_neg hsame]
    simp [hsame]

theorem HoldsWindows.cons (h : (registry.slide record).HoldsWindows records next) :
    registry.HoldsWindows (record :: records) next where
  capacity := h.capacity
  observed other hother := by
    by_cases hlater : ∃ later ∈ records, later.externalId = other.externalId
    · obtain ⟨later, hlater, hname⟩ := hlater
      have hwindow := h.observed later hlater
      rw [hname] at hwindow
      exact hwindow.trans (congrArg some (rtake_history_slide record records _))
    · push Not at hlater
      have hfirst : other = record := (List.mem_cons.mp hother).resolve_right
        fun hmem => hlater other hmem rfl
      subst hfirst
      have hnone : records.filter (·.externalId = other.externalId) = [] := by
        rw [List.filter_eq_nil_iff]
        intro later hmem
        simpa using hlater later hmem
      rw [h.unobserved other.externalId hlater, getElem?_slide, if_pos rfl, history,
        List.filter_cons_of_pos (by simp), hnone]
      simp
  unobserved externalId hnone := by
    have hother := hnone record List.mem_cons_self
    rw [h.unobserved externalId fun later hmem => hnone later (List.mem_cons_of_mem _ hmem),
      getElem?_slide, if_neg hother]

theorem Fits.exists_recordAll (hfits : registry.Fits) (hcapacity : registry.maxObservations ≠ 0)
    (hfuel : registry.maxObservations < fuel) (records : List (TremorRecord T D)) :
    ∃ next, registry.recordAllWithin fuel records = some next ∧
      registry.HoldsWindows records next := by
  induction records generalizing registry with
  | nil => exact ⟨registry, rfl, rfl, nofun, fun _ _ => rfl⟩
  | cons record records ih =>
      have hcall := hfits.recordWithin_eq hcapacity hfuel record
      obtain ⟨next, hrun, hwindows⟩ := ih (hfits.slide record) hcapacity hfuel
      refine ⟨next, ?_, hwindows.cons⟩
      rw [recordAllWithin, List.foldlM_cons, hcall]
      exact hrun

variable [TremorF64 T] [TremorF32 D] [DecidableEq J]

-- The ways to come by a registry.
inductive Obtained (reader : TremorReader T D J) : TremorRegistry T D → Prop
  | new (maxObservations : Nat) : Obtained reader (.new maxObservations)
  | withDefaults : Obtained reader .withDefaults
  | default : Obtained reader .default
  | decoded {bytes : Bytes} {registry : TremorRegistry T D}
      (h : decodeTremorStateJson reader bytes = .ok registry) : Obtained reader registry
  | loaded {file : Option Bytes} {registry : TremorRegistry T D}
      (h : loadTremorState reader file = .ok registry) : Obtained reader registry

variable {reader : TremorReader T D J}

theorem Obtained.fits (h : registry.Obtained reader) : registry.Fits := by
  cases h with
  | new maxObservations =>
      intro externalId
      simp [queue, TremorRegistry.new]
  | withDefaults =>
      intro externalId
      simp [queue, TremorRegistry.withDefaults, TremorRegistry.new]
  | default =>
      intro externalId
      simp [queue, TremorRegistry.default]
  | @decoded bytes _ h =>
      obtain ⟨format, -, h⟩ := bind_eq_ok.mp h
      obtain ⟨-, h⟩ := bind_unit_eq_ok.mp h
      obtain ⟨hvalid, h⟩ := bind_unit_eq_ok.mp h
      obtain ⟨projected, -, h⟩ := bind_eq_ok.mp h
      obtain ⟨given, -, h⟩ := bind_eq_ok.mp h
      obtain ⟨complete, -, h⟩ := bind_eq_ok.mp h
      obtain ⟨-, h⟩ := bind_unit_eq_ok.mp h
      obtain rfl := Except.ok.inj h
      intro externalId
      unfold queue
      cases hnode : format.nodes[externalId]? with
      | none => exact Nat.zero_le _
      | some observations =>
          exact (validateTremorNodes_eq_ok.mp hvalid externalId observations hnode).fits
  | @loaded file _ h =>
      have hwindowed := (Made.loaded h).windowed
      intro externalId
      rw [hwindowed.capacity, hwindowed.keeps.queue_eq, length_rtake]
      exact Nat.min_le_left _ _

-- The calls end, and leave each node with its window, unless the registry has no capacity and is
-- called at all.
theorem recordAllWithin_iff (h : registry.Obtained reader) (records : List (TremorRecord T D)) :
    (∃ fuel next, registry.recordAllWithin fuel records = some next ∧
      registry.HoldsWindows records next) ↔ registry.maxObservations ≠ 0 ∨ records = [] := by
  constructor
  · rintro ⟨fuel, next, hrun, -⟩
    cases records with
    | nil => exact .inr rfl
    | cons record records =>
        left
        intro hcapacity
        have hcall : registry.recordWithin fuel record = none := by
          rw [recordWithin, hcapacity, makeRoom_zero]
          rfl
        rw [recordAllWithin, List.foldlM_cons, hcall] at hrun
        exact nomatch hrun
  · rintro (hcapacity | rfl)
    · obtain ⟨next, hnext⟩ := h.fits.exists_recordAll hcapacity (Nat.lt_succ_self _) records
      exact ⟨_, next, hnext⟩
    · exact ⟨0, registry, rfl, rfl, nofun, fun _ _ => rfl⟩

end TremorRegistry

theorem recordAllWithin_ticks :
    ∃ fuel next, (TremorRegistry.new 1).recordAllWithin fuel [tick 1, tick 2] = some next ∧
      (TremorRegistry.new 1).HoldsWindows [tick 1, tick 2] next := by
  have hobtained : (TremorRegistry.new 1).Obtained encodedReader := .new 1
  exact (TremorRegistry.recordAllWithin_iff hobtained [tick 1, tick 2]).mpr (.inl Nat.one_ne_zero)

theorem not_recordAllWithin_default :
    TremorRegistry.default.Obtained encodedReader ∧
      ¬ ∃ fuel next, TremorRegistry.default.recordAllWithin fuel [tick 1] = some next ∧
        TremorRegistry.default.HoldsWindows [tick 1] next := by
  refine ⟨.default, ?_⟩
  rintro ⟨fuel, next, hrun, -⟩
  rw [TremorRegistry.recordAllWithin, List.foldlM_cons, TremorRegistry.recordWithin,
    TremorRegistry.default, makeRoom_zero] at hrun
  exact nomatch hrun

end M1nd.Core
