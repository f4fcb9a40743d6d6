import M1nd.Core.Epidemic
import Mathlib.Tactic.Ring

namespace M1nd.Core

open M1nd.Library.Runs

variable {K : Type} [Field K] {n i : Nat} {infected recovered : List Nat}
  {edge : Nat → Nat → Prop} {state next : EpidemicState K} {t : Transmission K}

namespace EpidemicState

-- The arrays of a simulation of some nodes. A node that has got a probability has an ancestor for
-- each earlier generation, and the oldest one of them is a seed.
structure Holds [LinearOrder K] (n : Nat) (infected recovered : List Nat)
    (edge : Nat → Nat → Prop) (state : EpidemicState K) : Prop where
  sized : state.compartment.length = n ∧ state.probability.length = n ∧
    state.generation.length = n ∧ state.parent.length = n ∧ state.newProbability.length = n
  bounded : ∀ i, 0 ≤ state.probability.getD i 0 ∧
    state.probability.getD i 0 ≤ state.newProbability.getD i 0 ∧
      state.newProbability.getD i 0 ≤ 1
  healed : ∀ i < n, state.compartment[i]? = some .Recovered ↔ i ∈ recovered
  seeds : ∀ i, i ∉ recovered → state.generation.getD i none = some 0 →
    state.parent.getD i none = some i ∧ i ∈ infected
  linked : ∀ i g, state.generation.getD i none = some (g + 1) →
    ∃ p, state.parent.getD i none = some p ∧ state.compartment[p]? = some .Infected ∧
      state.generation.getD p none = some g ∧ edge p i
  dated : ∀ i, state.compartment[i]? = some .Infected ∨ 0 < state.newProbability.getD i 0 →
    ∃ g, state.generation.getD i none = some g

-- What is sent goes from an infected node to one that is susceptible.
structure Sends [LinearOrder K] (state : EpidemicState K) (t : Transmission K) : Prop where
  src : state.compartment[t.src]? = some .Infected
  tgt : state.compartment[t.tgt]? = some .Susceptible
  nonneg : 0 ≤ t.pTransmit
  le_one : t.pTransmit ≤ 1

-- A transmission that brings its target an earlier generation goes along an edge.
def Leads (edge : Nat → Nat → Prop) (state : EpidemicState K) (t : Transmission K) : Prop :=
  state.nearer t ≠ none → edge t.src t.tgt

theorem getD_set {α : Type} {items : List α} {i j : Nat} {a d : α} (hi : i < items.length) :
    (items.set i a).getD j d = if j = i then a else items.getD j d := by
  simp only [List.getD_eq_getElem?_getD, List.getElem?_set, hi]
  by_cases h : i = j
  · simp [h]
  · simp [h, Ne.symm h]

theorem getD_replicate {α : Type} {a : α} : (List.replicate n a).getD i a = a := by
  rw [List.getD_eq_getElem?_getD, List.getElem?_replicate]
  split <;> rfl

omit [Field K] in
theorem nearer_eq_some {generation : Nat} (h : state.nearer t = some generation) :
    ∃ srcGen, state.generation.getD t.src none = some srcGen ∧ generation = srcGen + 1 := by
  unfold nearer at h
  split at h
  · exact absurd h nofun
  · rename_i srcGen hsrc _
    exact ⟨srcGen, hsrc, (Option.some.inj h).symm⟩
  · rename_i srcGen tgtGen hsrc _
    split at h
    · exact ⟨srcGen, hsrc, (Option.some.inj h).symm⟩
    · exact absurd h nofun

omit [Field K] in
-- A transmission without an earlier generation meets a target that has one.
theorem nearer_eq_none (h : state.nearer t = none) {srcGen : Nat}
    (hsrc : state.generation.getD t.src none = some srcGen) :
    ∃ g, state.generation.getD t.tgt none = some g := by
  unfold nearer at h
  rw [hsrc] at h
  cases htgt : state.generation.getD t.tgt none with
  | none =>
      rw [htgt] at h
      exact absurd h nofun
  | some g => exact ⟨g, rfl⟩

theorem record_compartment (state : EpidemicState K) (t : Transmission K) :
    (state.record t).compartment = state.compartment := by
  unfold record
  cases state.nearer t <;> rfl

theorem record_probability (state : EpidemicState K) (t : Transmission K) :
    (state.record t).probability = state.probability := by
  unfold record
  cases state.nearer t <;> rfl

theorem record_newProbability (state : EpidemicState K) (t : Transmission K) :
    (state.record t).newProbability = (state.receive t).newProbability := by
  unfold record
  cases state.nearer t <;> rfl

variable [LinearOrder K]

theorem Sends.of_compartment (h : state.Sends t) (heq : next.compartment = state.compartment) :
    next.Sends t where
  src := heq ▸ h.src
  tgt := heq ▸ h.tgt
  nonneg := h.nonneg
  le_one := h.le_one

theorem Sends.ne (h : state.Sends t) {p : Nat} (hp : state.compartment[p]? = some .Infected) :
    p ≠ t.tgt := by
  rintro rfl
  exact absurd (hp.symm.trans h.tgt) (by simp)

section Recorded

variable [IsStrictOrderedRing K]

-- The probability of either of two independent events.
theorem union_mem {p q : K} (hp : 0 ≤ p ∧ p ≤ 1) (hq : 0 ≤ q ∧ q ≤ 1) :
    p ≤ 1 - (1 - p) * (1 - q) ∧ 1 - (1 - p) * (1 - q) ≤ 1 := by
  have hrest : 0 ≤ (1 - p) * q := mul_nonneg (sub_nonneg.mpr hp.2) hq.1
  have hnone : 0 ≤ (1 - p) * (1 - q) := mul_nonneg (sub_nonneg.mpr hp.2) (sub_nonneg.mpr hq.2)
  have hexpand : 1 - (1 - p) * (1 - q) = p + (1 - p) * q := by ring
  constructor
  · rw [hexpand]
    exact le_add_of_nonneg_right hrest
  · exact sub_le_self 1 hnone

theorem Holds.bounded_receive (h : state.Holds n infected recovered edge) (hsends : state.Sends t)
    (i : Nat) : state.newProbability.getD i 0 ≤ (state.receive t).newProbability.getD i 0 ∧
      (state.receive t).newProbability.getD i 0 ≤ 1 := by
  have htgt : t.tgt < state.newProbability.length := by
    rw [h.sized.2.2.2.2, ← h.sized.1]
    exact (List.getElem?_eq_some_iff.mp hsends.tgt).1
  rw [receive]
  dsimp only
  rw [getD_set htgt]
  by_cases hi : i = t.tgt
  · subst hi
    rw [if_pos rfl]
    have hsrc := h.bounded t.src
    have hnew : 0 ≤ t.pTransmit * state.probability.getD t.src 0 ∧
        t.pTransmit * state.probability.getD t.src 0 ≤ 1 :=
      ⟨mul_nonneg hsends.nonneg hsrc.1,
        mul_le_one₀ hsends.le_one hsrc.1 (hsrc.2.1.trans hsrc.2.2)⟩
    have hold := h.bounded t.tgt
    exact union_mem ⟨hold.1.trans hold.2.1, hold.2.2⟩ hnew
  · rw [if_neg hi]
    exact ⟨le_rfl, (h.bounded i).2.2⟩

-- Only the target of a transmission can get another generation.
theorem Holds.record (h : state.Holds n infected recovered edge) (hsends : state.Sends t)
    (hleads : state.Leads edge t) : (state.record t).Holds n infected recovered edge := by
  have hsizes := h.sized
  have htgt : t.tgt < n := by
    rw [← hsizes.1]
    exact (List.getElem?_eq_some_iff.mp hsends.tgt).1
  have hbounded := h.bounded_receive hsends
  have hpositive {i : Nat} (hi : i ≠ t.tgt) :
      (state.record t).newProbability.getD i 0 = state.newProbability.getD i 0 := by
    rw [record_newProbability, receive]
    dsimp only
    rw [getD_set (hsizes.2.2.2.2 ▸ htgt), if_neg hi]
  obtain ⟨srcGen, hsrcGen⟩ := h.dated t.src (.inl hsends.src)
  cases hnearer : state.nearer t with
  | none =>
      have hrecord : state.record t = state.receive t := by
        rw [EpidemicState.record, hnearer]
      rw [hrecord] at hpositive ⊢
      refine ⟨⟨hsizes.1, hsizes.2.1, hsizes.2.2.1, hsizes.2.2.2.1, ?_⟩, fun i => ?_, h.healed,
        h.seeds, h.linked, fun i hi => ?_⟩
      · rw [receive, List.length_set, hsizes.2.2.2.2]
      · exact ⟨(h.bounded i).1, (h.bounded i).2.1.trans (hbounded i).1, (hbounded i).2⟩
      · by_cases hne : i = t.tgt
        · subst hne
          exact nearer_eq_none hnearer hsrcGen
        · rw [hpositive hne] at hi
          exact h.dated i hi
  | some generation =>
      obtain ⟨srcGen', hsrcGen', rfl⟩ := nearer_eq_some hnearer
      have hedge := hleads (by rw [hnearer]; exact nofun)
      have hgeneration (i : Nat) : (state.record t).generation.getD i none =
          if i = t.tgt then some (srcGen' + 1) else state.generation.getD i none := by
        rw [EpidemicState.record, hnearer]
        exact getD_set (hsizes.2.2.1 ▸ htgt)
      have hparent (i : Nat) : (state.record t).parent.getD i none =
          if i = t.tgt then some t.src else state.parent.getD i none := by
        rw [EpidemicState.record, hnearer]
        exact getD_set (hsizes.2.2.2.1 ▸ htgt)
      have hkept (p : Nat) (hp : state.compartment[p]? = some .Infected) :
          (state.record t).generation.getD p none = state.generation.getD p none := by
        rw [hgeneration, if_neg (hsends.ne hp)]
      constructor
      case sized =>
        rw [EpidemicState.record, hnearer]
        simp only [receive, List.length_set]
        exact hsizes
      case bounded =>
        intro i
        rw [record_probability, record_newProbability]
        exact ⟨(h.bounded i).1, (h.bounded i).2.1.trans (hbounded i).1, (hbounded i).2⟩
      case healed =>
        rw [record_compartment]
        exact h.healed
      case seeds =>
        intro i hi hzero
        rw [hgeneration] at hzero
        split at hzero
        · exact absurd hzero (by simp)
        · rename_i hne
          rw [hparent, if_neg hne]
          exact h.seeds i hi hzero
      case linked =>
        intro i g hi
        rw [hgeneration] at hi
        simp only [hparent, record_compartment]
        split at hi
        · rename_i he
          subst he
          obtain rfl : srcGen' = g := Nat.succ.inj (Option.some.inj hi)
          exact ⟨t.src, if_pos rfl, hsends.src, (hkept _ hsends.src).trans hsrcGen', hedge⟩
        · rename_i hne
          obtain ⟨p, hp, hinfected, hrank, hstep⟩ := h.linked i g hi
          exact ⟨p, by rw [if_neg hne, hp], hinfected, (hkept p hinfected).trans hrank, hstep⟩
      case dated =>
        intro i hi
        rw [hgeneration]
        by_cases hne : i = t.tgt
        · exact ⟨srcGen' + 1, if_pos hne⟩
        · rw [if_neg hne]
          rw [hpositive hne, record_compartment] at hi
          exact h.dated i hi

-- The transmissions of an iteration, one after the other.
theorem Holds.foldl_record (h : state.Holds n infected recovered edge)
    {transmissions : List (Transmission K)} (hsends : ∀ t ∈ transmissions, state.Sends t)
    (hmet : MetAlong EpidemicState.record (Leads edge) state transmissions) :
    (transmissions.foldl EpidemicState.record state).Holds n infected recovered edge ∧
      (transmissions.foldl EpidemicState.record state).compartment = state.compartment ∧
      (transmissions.foldl EpidemicState.record state).probability = state.probability := by
  induction transmissions generalizing state with
  | nil => exact ⟨h, rfl, rfl⟩
  | cons t transmissions ih =>
      have hfirst := h.record (hsends t List.mem_cons_self) hmet.1
      obtain ⟨hlast, hcompartment, hprobability⟩ := ih hfirst
        (fun other hother => (hsends other (List.mem_cons_of_mem _ hother)).of_compartment
          (record_compartment state t)) hmet.2
      exact ⟨hlast, hcompartment.trans (record_compartment state t),
        hprobability.trans (record_probability state t)⟩

end Recorded

theorem getElem?_promote (threshold : K) (hsized : state.compartment.length = n ∧
    state.newProbability.length = n) (hi : i < n) :
    (state.promote threshold).compartment[i]? = (state.compartment[i]?).map fun c =>
      if c = .Susceptible ∧ threshold < state.newProbability.getD i 0 then .Infected else c := by
  have hc : i < state.compartment.length := hsized.1 ▸ hi
  have hp : i < state.newProbability.length := hsized.2 ▸ hi
  rw [promote]
  simp only [List.getElem?_zipWith, List.getD_eq_getElem?_getD, List.getElem?_eq_getElem hc,
    List.getElem?_eq_getElem hp, Option.map_some, Option.getD_some]

theorem Holds.promote {threshold : K} (hthreshold : 0 ≤ threshold)
    (h : state.Holds n infected recovered edge) :
    (state.promote threshold).Holds n infected recovered edge := by
  have hsizes := h.sized
  have hlength : (state.promote threshold).compartment.length = n := by
    rw [EpidemicState.promote, List.length_zipWith, hsizes.1, hsizes.2.2.2.2, Nat.min_self]
  have hcompartment {i : Nat} (hi : i < n) :=
    getElem?_promote threshold ⟨hsizes.1, hsizes.2.2.2.2⟩ hi
  have hinfected {p : Nat} (hp : state.compartment[p]? = some .Infected) :
      (state.promote threshold).compartment[p]? = some .Infected := by
    rw [hcompartment (hsizes.1 ▸ (List.getElem?_eq_some_iff.mp hp).1), hp]
    simp
  constructor
  case sized => exact ⟨hlength, hsizes.2.2.2.2, hsizes.2.2.1, hsizes.2.2.2.1, hsizes.2.2.2.2⟩
  case bounded => exact fun i => ⟨(h.bounded i).1.trans (h.bounded i).2.1, le_rfl,
    (h.bounded i).2.2⟩
  case healed =>
    intro i hi
    rw [hcompartment hi, ← h.healed i hi]
    cases hc : state.compartment[i]? with
    | none => simp
    | some c =>
        cases c with
        | Susceptible =>
            rw [Option.map_some]
            split <;> simp
        | Infected => simp
        | Recovered => simp
  case seeds => exact h.seeds
  case linked =>
    intro i g hi
    obtain ⟨p, hp, hpi, hrank, hstep⟩ := h.linked i g hi
    exact ⟨p, hp, hinfected hpi, hrank, hstep⟩
  case dated =>
    intro i hi
    obtain hi | hi := hi
    · have hlt : i < n := hlength ▸ (List.getElem?_eq_some_iff.mp hi).1
      rw [hcompartment hlt, Option.map_eq_some_iff] at hi
      obtain ⟨c, hc, hpromoted⟩ := hi
      split at hpromoted
      · rename_i hmet
        exact h.dated i (.inr (hthreshold.trans_lt hmet.2))
      · subst hpromoted
        exact h.dated i (.inl hc)
    · exact h.dated i (.inr hi)

section Start

-- The arrays before the first iteration.
structure Seeded (n : Nat) (infected recovered : List Nat) (state : EpidemicState K) : Prop where
  sized : state.compartment.length = n ∧ state.probability.length = n ∧
    state.generation.length = n ∧ state.parent.length = n
  compartment : ∀ i < n, state.compartment[i]? = some (
    if i ∈ recovered then .Recovered else if i ∈ infected then .Infected else .Susceptible)
  probability : ∀ i, state.probability.getD i 0 =
    if i < n ∧ i ∈ infected ∧ i ∉ recovered then 1 else 0
  generation : ∀ i, state.generation.getD i none =
    if i < n ∧ (i ∈ infected ∨ i ∈ recovered) then some 0 else none
  parent : ∀ i, state.parent.getD i none =
    if i < n ∧ (i ∈ infected ∨ i ∈ recovered) then some i else none

omit [LinearOrder K] in
theorem seeded_susceptible (n : Nat) : (susceptible n : EpidemicState K).Seeded n [] [] where
  sized := by simp [susceptible]
  compartment i hi := by simp [susceptible, hi]
  probability i := by
    rw [susceptible, getD_replicate]
    simp
  generation i := by
    rw [susceptible, getD_replicate]
    simp
  parent i := by
    rw [susceptible, getD_replicate]
    simp

omit [LinearOrder K] in
theorem Seeded.infect (h : state.Seeded n infected []) (idx : Nat) :
    (state.infect n idx).Seeded n (infected ++ [idx]) [] := by
  have hsizes := h.sized
  by_cases hidx : idx < n
  · rw [EpidemicState.infect, if_pos hidx]
    constructor
    case sized => simpa only [List.length_set] using hsizes
    case compartment =>
      intro i hi
      rw [List.getElem?_set, hsizes.1, if_pos hidx, h.compartment i hi]
      by_cases he : idx = i <;> simp [he, eq_comm]
    case probability =>
      intro i
      rw [getD_set (hsizes.2.1 ▸ hidx), h.probability]
      by_cases he : i = idx <;> simp [he, hidx]
    case generation =>
      intro i
      rw [getD_set (hsizes.2.2.1 ▸ hidx), h.generation]
      by_cases he : i = idx <;> simp [he, hidx]
    case parent =>
      intro i
      rw [getD_set (hsizes.2.2.2 ▸ hidx), h.parent]
      by_cases he : i = idx <;> simp [he, hidx]
  · have hne {i : Nat} (hi : i < n) : i ≠ idx := by
      rintro rfl
      exact hidx hi
    rw [EpidemicState.infect, if_neg hidx]
    refine ⟨hsizes, fun i hi => ?_, fun i => ?_, fun i => ?_, fun i => ?_⟩
    · rw [h.compartment i hi]
      simp [hne hi]
    all_goals
      first | rw [h.probability] | rw [h.generation] | rw [h.parent]
      by_cases hi : i < n <;> simp [hi, hne]

omit [LinearOrder K] in
theorem Seeded.recover (h : state.Seeded n infected recovered) (idx : Nat) :
    (state.recover n idx).Seeded n infected (recovered ++ [idx]) := by
  have hsizes := h.sized
  by_cases hidx : idx < n
  · rw [EpidemicState.recover, if_pos hidx]
    constructor
    case sized => simpa only [List.length_set] using hsizes
    case compartment =>
      intro i hi
      rw [List.getElem?_set, hsizes.1, if_pos hidx, h.compartment i hi]
      by_cases he : idx = i <;> simp [he, eq_comm]
    case probability =>
      intro i
      rw [getD_set (hsizes.2.1 ▸ hidx), h.probability]
      by_cases he : i = idx <;> simp [he]
    case generation =>
      intro i
      rw [getD_set (hsizes.2.2.1 ▸ hidx), h.generation]
      by_cases he : i = idx <;> simp [he, hidx]
    case parent =>
      intro i
      rw [getD_set (hsizes.2.2.2 ▸ hidx), h.parent]
      by_cases he : i = idx <;> simp [he, hidx]
  · have hne {i : Nat} (hi : i < n) : i ≠ idx := by
      rintro rfl
      exact hidx hi
    rw [EpidemicState.recover, if_neg hidx]
    refine ⟨hsizes, fun i hi => ?_, fun i => ?_, fun i => ?_, fun i => ?_⟩
    · rw [h.compartment i hi]
      simp [hne hi]
    all_goals
      first | rw [h.probability] | rw [h.generation] | rw [h.parent]
      by_cases hi : i < n <;> simp [hi, hne]

omit [LinearOrder K] in
theorem seeded_start (n : Nat) (infected recovered : List Nat) :
    (start n infected recovered : EpidemicState K).Seeded n infected recovered := by
  have hinfect : ∀ infected idx (state : EpidemicState K), state.Seeded n infected [] →
      (state.infect n idx).Seeded n (infected ++ [idx]) [] := fun _ idx _ h => h.infect idx
  have hrecover : ∀ recovered idx (state : EpidemicState K), state.Seeded n infected recovered →
      (state.recover n idx).Seeded n infected (recovered ++ [idx]) :=
    fun _ idx _ h => h.recover idx
  have hinfected := foldl_invariant (fun infected (state : EpidemicState K) =>
    state.Seeded n infected []) (seeded_susceptible n) hinfect infected
  exact foldl_invariant (fun recovered (state : EpidemicState K) =>
    state.Seeded n infected recovered) hinfected hrecover recovered

theorem Seeded.holds [IsStrictOrderedRing K] (h : state.Seeded n infected recovered)
    (edge : Nat → Nat → Prop) : state.renew.Holds n infected recovered edge := by
  constructor
  case sized => exact ⟨h.sized.1, h.sized.2.1, h.sized.2.2.1, h.sized.2.2.2, h.sized.2.1⟩
  case bounded =>
    intro i
    rw [renew]
    dsimp only
    rw [h.probability]
    split
    · exact ⟨zero_le_one, le_rfl, le_rfl⟩
    · exact ⟨le_rfl, le_rfl, zero_le_one⟩
  case healed =>
    intro i hi
    rw [renew]
    dsimp only
    rw [h.compartment i hi]
    by_cases hr : i ∈ recovered <;> by_cases hinf : i ∈ infected <;> simp [hr, hinf]
  case seeds =>
    intro i hi hzero
    rw [renew] at hzero ⊢
    dsimp only at hzero ⊢
    rw [h.generation] at hzero
    split at hzero
    · rename_i hseed
      rw [h.parent, if_pos hseed]
      exact ⟨rfl, hseed.2.resolve_right hi⟩
    · exact absurd hzero nofun
  case linked =>
    intro i g hi
    rw [renew] at hi
    dsimp only at hi
    rw [h.generation] at hi
    split at hi
    · exact absurd (Option.some.inj hi) (by omega)
    · exact absurd hi nofun
  case dated =>
    intro i hi
    rw [renew] at hi ⊢
    dsimp only at hi ⊢
    refine ⟨0, ?_⟩
    rw [h.generation, if_pos]
    obtain hi | hi := hi
    · have hlt : i < n := h.sized.1 ▸ (List.getElem?_eq_some_iff.mp hi).1
      rw [h.compartment i hlt] at hi
      by_cases hinf : i ∈ infected
      · exact ⟨hlt, .inl hinf⟩
      · rw [if_neg hinf] at hi
        split at hi <;> exact absurd (Option.some.inj hi) nofun
    · rw [h.probability] at hi
      split at hi
      · rename_i hseed
        exact ⟨hseed.1, .inl hseed.2.1⟩
      · exact absurd hi (lt_irrefl 0)

end Start

end EpidemicState

end M1nd.Core
