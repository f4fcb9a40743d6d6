import M1nd.Core.Epidemic.Spread
import Mathlib.Tactic.NormNum

namespace M1nd.Core

open M1nd.Library.Flooding
open M1nd.Library.Lineage
open M1nd.Library.Loops
open M1nd.Library.Runs
open Relation

variable {K T : Type} [Field K] [LinearOrder K]

section Contacts

variable {graph : Graph K T} {direction : EpidemicDirection} {a b j : Nat}

-- An edge that is followed from one node to another, by the slot that its weight is read from.
def Graph.Contact (graph : Graph K T) (direction : EpidemicDirection) (a b j : Nat) : Prop :=
  direction ≠ .Backward ∧ j ∈ graph.csr.outRange a ∧ graph.csr.targets[j]? = some b ∨
    direction ≠ .Forward ∧ ∃ r ∈ graph.csr.inRange a,
      graph.csr.revSources[r]? = some b ∧ graph.csr.revEdgeIdx[r]? = some j

-- What a simulation reads of a graph is there.
structure Graph.Contagious (graph : Graph K T) : Prop where
  forward : ∀ node, ∀ j ∈ graph.csr.outRange node, ∃ target, graph.csr.targets[j]? = some target
  backward : ∀ node, ∀ r ∈ graph.csr.inRange node, ∃ source forward,
    graph.csr.revSources[r]? = some source ∧ graph.csr.revEdgeIdx[r]? = some forward
  weighed : ∀ a b j, graph.Contact .Both a b j → EdgeIdx.new j < graph.csr.weights.length
  related : ∀ a b j, graph.Contact .Both a b j → ∃ relation s,
    graph.csr.relations[j]? = some relation ∧ graph.strings.tryResolve relation = some s
  neighbors : ∀ node, ∃ nodes, graph.neighborsOf node = some nodes ∧
    ∀ v, v ∈ nodes ↔ graph.Edge node v ∨ graph.Edge v node
  reflected : graph.Reflected
  registered : graph.Registered

omit [Field K] [LinearOrder K] in
theorem Graph.Contact.both (h : graph.Contact direction a b j) : graph.Contact .Both a b j := by
  obtain ⟨-, hforward⟩ | ⟨-, hbackward⟩ := h
  · exact .inl ⟨by simp, hforward⟩
  · exact .inr ⟨by simp, hbackward⟩

omit [LinearOrder K] in
theorem GraphEdit.contagious_run (edits : List (GraphEdit K T))
    (hfinal : (GraphEdit.run edits).finalized = true) : (GraphEdit.run edits).Contagious := by
  let := exactValues K
  have hcoherent := GraphEdit.coherent_run K edits
  have hsourced := GraphEdit.sourced_run K edits
  have hindexed := GraphEdit.indexed_run K edits
  have hparallel := (hcoherent.sound.finalized hfinal).1
  have hout {node j : Nat} (hj : j ∈ (GraphEdit.run edits).csr.outRange node) :
      j < (GraphEdit.run edits).csr.targets.length := hcoherent.tabled.listed.mem_outRange_lt hj
  have hslot {a b j : Nat} (h : (GraphEdit.run edits).Contact .Both a b j) :
      j < (GraphEdit.run edits).csr.targets.length := by
    obtain ⟨-, hj, -⟩ | ⟨-, r, -, -, hj⟩ := h
    · exact hout hj
    · exact hparallel.csr.1 ▸ hindexed.weights j (List.mem_of_getElem? hj)
  constructor
  case forward => exact fun node j hj => ⟨_, List.getElem?_eq_getElem (hout hj)⟩
  case backward =>
    intro node r hr
    have hlt := hsourced node r hr
    exact ⟨_, _, List.getElem?_eq_getElem hlt,
      List.getElem?_eq_getElem (hindexed.length.symm ▸ hlt)⟩
  case weighed =>
    intro a b j h
    rw [hparallel.csr.1]
    exact (Nat.mod_le j _).trans_lt (hslot h)
  case related =>
    intro a b j h
    have hlt : j < (GraphEdit.run edits).csr.relations.length := by
      rw [hparallel.csr.2.2.1]
      exact hslot h
    have hstring := hcoherent.named.relations _ (List.getElem_mem hlt)
    exact ⟨_, _, List.getElem?_eq_getElem hlt, List.getElem?_eq_getElem hstring⟩
  case neighbors => exact GraphEdit.exists_neighborsOf K edits
  case reflected => exact GraphEdit.reflected_run K edits
  case registered => exact hcoherent.registered

end Contacts

namespace EpidemicEngine

variable [IsStrictOrderedRing K] {root : K → K} {graph : Graph K T}
  {direction : EpidemicDirection} {uniformRate : Option K} {state : EpidemicState K}

section Transmissions

omit [Field K] [IsStrictOrderedRing K] in
theorem sirClamp_mem {v lo hi : K} (h : lo ≤ hi) : lo ≤ sirClamp v lo hi ∧ sirClamp v lo hi ≤ hi := by
  rw [sirClamp]
  split
  · exact ⟨le_rfl, h⟩
  · rename_i hlo
    split
    · exact ⟨h, le_rfl⟩
    · rename_i hhi
      exact ⟨not_lt.mp hlo, not_lt.mp hhi⟩

-- A rate is a probability.
def RateMem (uniformRate : Option K) : Prop :=
  ∀ rate, uniformRate = some rate → 0 ≤ rate ∧ rate ≤ 1

theorem max_infection_rate_mem : (0 : K) ≤ MAX_INFECTION_RATE ∧ (MAX_INFECTION_RATE : K) ≤ 1 := by
  rw [MAX_INFECTION_RATE]
  constructor <;> norm_num

theorem rateMem_clampedRate (config : EpidemicConfig K) : RateMem (clampedRate config) := by
  intro rate hrate
  obtain ⟨r, -, rfl⟩ := Option.map_eq_some_iff.mp hrate
  have hbounds : (0 : K) ≤ MIN_INFECTION_RATE ∧ (MIN_INFECTION_RATE : K) ≤ MAX_INFECTION_RATE := by
    rw [MIN_INFECTION_RATE, MAX_INFECTION_RATE]
    constructor <;> norm_num
  have hmem := sirClamp_mem (v := r) hbounds.2
  exact ⟨hbounds.1.trans hmem.1, hmem.2.trans max_infection_rate_mem.2⟩

theorem exists_edgeTransmissionProbability (hrate : RateMem uniformRate) (h : graph.Contagious)
    {a b j : Nat} (hcontact : graph.Contact direction a b j) :
    ∃ p, edgeTransmissionProbability graph j uniformRate = some p ∧ 0 ≤ p ∧ p ≤ 1 := by
  cases uniformRate with
  | some rate => exact ⟨rate, rfl, hrate rate rfl⟩
  | none =>
      have hweight := h.weighed a b j hcontact.both
      obtain ⟨relation, s, hrelation, hs⟩ := h.related a b j hcontact.both
      have hmem := sirClamp_mem
        (v := graph.csr.weights[EdgeIdx.new j] * sirCouplingFactor s) max_infection_rate_mem.1
      refine ⟨_, ?_, hmem.1, hmem.2.trans max_infection_rate_mem.2⟩
      rw [edgeTransmissionProbability, List.getElem?_eq_getElem hweight, hrelation]
      simp only [Option.bind_eq_bind, Option.bind_some, hs]

-- The transmission of a node that has not recovered.
def transmissionOf (root : K → K) (graph : Graph K T) (uniformRate : Option K) (src j : Nat) :
    Option K :=
  sirComputeEdgeTransmission root graph j uniformRate src []

omit [IsStrictOrderedRing K] in
theorem sirComputeEdgeTransmission_eq {src j : Nat} {compartment : List Compartment}
    (hsrc : compartment[src]? ≠ some .Recovered) :
    sirComputeEdgeTransmission root graph j uniformRate src compartment =
      transmissionOf root graph uniformRate src j := by
  have hempty : ([] : List Compartment)[src]? ≠ some .Recovered := by simp
  rw [transmissionOf, sirComputeEdgeTransmission, sirComputeEdgeTransmission]
  simp only [if_neg hsrc, if_neg hempty]

theorem exists_transmissionOf (hroot : ∀ d, 1 < d → 1 ≤ root d) (hrate : RateMem uniformRate)
    (h : graph.Contagious) {a b j : Nat} (hcontact : graph.Contact direction a b j) :
    ∃ p, transmissionOf root graph uniformRate a j = some p ∧ 0 ≤ p ∧ p ≤ 1 := by
  obtain ⟨p, hp, hmem⟩ := exists_edgeTransmissionProbability hrate h hcontact
  have hempty : ([] : List Compartment)[a]? ≠ some .Recovered := by simp
  refine ⟨if 1 < (graph.csr.outRange a).length then p / root (graph.csr.outRange a).length else p,
    by
      rw [transmissionOf, sirComputeEdgeTransmission, hp]
      simp only [Option.bind_eq_bind, Option.bind_some, if_neg hempty], ?_⟩
  by_cases hdegree : 1 < (graph.csr.outRange a).length
  · have hone : 1 ≤ root ((graph.csr.outRange a).length : K) := hroot _ (Nat.one_lt_cast.mpr hdegree)
    rw [if_pos hdegree]
    exact ⟨div_nonneg hmem.1 (zero_le_one.trans hone),
      (div_le_self hmem.1 hone).trans hmem.2⟩
  · rw [if_neg hdegree]
    exact hmem

omit [LinearOrder K] [IsStrictOrderedRing K] [Field K] in
theorem exists_contacts (h : graph.Contagious) (direction : EpidemicDirection) (src : Nat) :
    ∃ found, contacts graph direction src = some found ∧
      ∀ b j, (b, j) ∈ found ↔ graph.Contact direction src b j := by
  have hforward : ∀ edgePos ∈ graph.csr.outRange src, ∃ contact : Nat × Nat, (do
      let tgt ← graph.csr.targets[edgePos]?
      some (tgt, edgePos)) = some contact := by
    intro j hj
    obtain ⟨target, htarget⟩ := h.forward src j hj
    exact ⟨(target, j), by rw [htarget]; rfl⟩
  have hbackward : ∀ revPos ∈ graph.csr.inRange src, ∃ contact : Nat × Nat, (do
      let tgt ← graph.csr.revSources[revPos]?
      let fwdEdgeIdx ← graph.csr.revEdgeIdx[revPos]?
      some (tgt, fwdEdgeIdx)) = some contact := by
    intro r hr
    obtain ⟨source, forward, hsource, hforward⟩ := h.backward src r hr
    exact ⟨(source, forward), by rw [hsource, hforward]; rfl⟩
  obtain ⟨ends, hends, hmem⟩ := exists_mapM hforward
  obtain ⟨starts, hstarts, hmem'⟩ := exists_mapM hbackward
  refine ⟨(if direction = .Backward then [] else ends) ++
    if direction = .Forward then [] else starts, ?_, fun b j => ?_⟩
  · rw [contacts, hends, hstarts]
    cases direction <;> rfl
  · rw [List.mem_append, Graph.Contact]
    refine or_congr ?_ ?_
    · by_cases hdirection : direction = .Backward
      · simp [hdirection]
      · simp [hdirection, hmem, Option.bind_eq_some_iff]
    · by_cases hdirection : direction = .Forward
      · simp [hdirection]
      · simp [hdirection, hmem', Option.bind_eq_some_iff]

theorem exists_transmissionsOf (hroot : ∀ d, 1 < d → 1 ≤ root d) (hrate : RateMem uniformRate)
    (h : graph.Contagious) (direction : EpidemicDirection) (state : EpidemicState K) (src : Nat) :
    ∃ sent, transmissionsOf root graph direction uniformRate state src = some sent ∧
      ∀ t ∈ sent, state.Sends t ∧ ∃ j, graph.Contact direction t.src t.tgt j ∧
        transmissionOf root graph uniformRate t.src j = some t.pTransmit := by
  by_cases hinfected : state.compartment[src]? = some .Infected ∧ 0 < state.probability.getD src 0
  · obtain ⟨found, hfound, hmem⟩ := exists_contacts h direction src
    have hsrc : state.compartment[src]? ≠ some .Recovered := by
      rw [hinfected.1]
      exact nofun
    have hread : ∀ contact ∈ found.filter fun contact =>
        state.compartment[contact.1]? = some .Susceptible, ∃ t : Transmission K, (do
        let pTransmit ←
          sirComputeEdgeTransmission root graph contact.2 uniformRate src state.compartment
        let weight ← graph.csr.weights[EdgeIdx.new contact.2]?
        some { src := src, tgt := contact.1, pTransmit := pTransmit, weight := weight }) =
          some t := by
      intro contact hcontact
      have hcontact := (hmem contact.1 contact.2).mp (List.mem_filter.mp hcontact).1
      obtain ⟨p, hp, -⟩ := exists_transmissionOf hroot hrate h hcontact
      rw [sirComputeEdgeTransmission_eq hsrc, hp,
        List.getElem?_eq_getElem (h.weighed src _ _ hcontact.both)]
      exact ⟨_, rfl⟩
    obtain ⟨sent, hsent, hsends⟩ := exists_mapM hread
    refine ⟨sent, by rw [transmissionsOf, if_pos hinfected, hfound]; exact hsent, fun t ht => ?_⟩
    obtain ⟨contact, hcontact, ht⟩ := (hsends t).mp ht
    obtain ⟨hcontact, htgt⟩ := List.mem_filter.mp hcontact
    have hcontact := (hmem contact.1 contact.2).mp hcontact
    obtain ⟨p, hp, hpmem⟩ := exists_transmissionOf hroot hrate h hcontact
    rw [sirComputeEdgeTransmission_eq hsrc, hp,
      List.getElem?_eq_getElem (h.weighed src _ _ hcontact.both)] at ht
    obtain rfl := Option.some.inj ht
    exact ⟨⟨hinfected.1, of_decide_eq_true htgt, hpmem.1, hpmem.2⟩, contact.2, hcontact, hp⟩
  · exact ⟨[], by rw [transmissionsOf, if_neg hinfected], fun t ht => absurd ht List.not_mem_nil⟩

theorem exists_transmissions (hroot : ∀ d, 1 < d → 1 ≤ root d) (hrate : RateMem uniformRate)
    (h : graph.Contagious) (direction : EpidemicDirection) (state : EpidemicState K) :
    ∃ sent, transmissions root graph direction uniformRate state = some sent ∧
      ∀ t ∈ sent, state.Sends t ∧ ∃ j, graph.Contact direction t.src t.tgt j ∧
        transmissionOf root graph uniformRate t.src j = some t.pTransmit := by
  have hread : ∀ src ∈ List.range graph.numNodes, ∃ sent,
      transmissionsOf root graph direction uniformRate state src = some sent := by
    intro src _
    obtain ⟨sent, hsent, -⟩ := exists_transmissionsOf hroot hrate h direction state src
    exact ⟨sent, hsent⟩
  obtain ⟨parts, hparts, hmem⟩ := exists_mapM hread
  refine ⟨parts.flatten, by rw [transmissions, hparts]; rfl, fun t ht => ?_⟩
  obtain ⟨part, hpart, ht⟩ := List.mem_flatten.mp ht
  obtain ⟨src, -, hsrc⟩ := (hmem part).mp hpart
  obtain ⟨sent, hsent, hsends⟩ := exists_transmissionsOf hroot hrate h direction state src
  obtain rfl := Option.some.inj (hsent.symm.trans hsrc)
  exact hsends t ht

end Transmissions

section Rounds

-- An iteration, up to the checks that end a simulation.
def round (root : K → K) (graph : Graph K T) (config : EpidemicConfig K)
    (state : EpidemicState K) : Option (EpidemicState K) :=
  (spread root graph config.direction (clampedRate config) state).map
    (EpidemicState.promote config.promotionThreshold)

def rounds (root : K → K) (graph : Graph K T) (config : EpidemicConfig K) :
    Nat → EpidemicState K → Option (EpidemicState K)
  | 0, state => some state
  | count + 1, state => (round root graph config state).bind (rounds root graph config count)

-- What lowers a generation in an iteration has a positive probability.
def Infects (root : K → K) (graph : Graph K T) (config : EpidemicConfig K)
    (state : EpidemicState K) : Prop :=
  ∀ sent, transmissions root graph config.direction (clampedRate config) state = some sent →
    MetAlong EpidemicState.record (fun state t => state.nearer t ≠ none → 0 < t.pTransmit)
      state.renew sent

variable {config : EpidemicConfig K}

omit [IsStrictOrderedRing K] in
theorem rounds_succ (count : Nat) (state : EpidemicState K) :
    rounds root graph config (count + 1) state =
      (rounds root graph config count state).bind (round root graph config) := by
  induction count generalizing state with
  | zero =>
      rw [rounds, rounds, Option.bind_some]
      cases round root graph config state with
      | none => rfl
      | some next => rfl
  | succ count ih =>
      rw [rounds, rounds]
      cases round root graph config state with
      | none => rfl
      | some next => exact ih next

-- The edges that are followed, and those of them with a positive transmission.
def Follows (graph : Graph K T) (config : EpidemicConfig K) (a b : Nat) : Prop :=
  ∃ j, graph.Contact config.direction a b j

def Transmits (root : K → K) (graph : Graph K T) (config : EpidemicConfig K) (a b : Nat) : Prop :=
  ∃ j p, graph.Contact config.direction a b j ∧
    transmissionOf root graph (clampedRate config) a j = some p ∧ 0 < p

variable {n : Nat} {infected recovered : List Nat} {edge : Nat → Nat → Prop}
  {next : EpidemicState K}

theorem exists_round (hroot : ∀ d, 1 < d → 1 ≤ root d) (h : graph.Contagious)
    (config : EpidemicConfig K) (state : EpidemicState K) :
    ∃ next, round root graph config state = some next := by
  obtain ⟨sent, hsent, -⟩ :=
    exists_transmissions hroot (rateMem_clampedRate config) h config.direction state
  exact ⟨_, by rw [round, spread, hsent]; rfl⟩

-- An iteration keeps what holds, and no probability falls.
theorem holds_round (hroot : ∀ d, 1 < d → 1 ≤ root d) (h : graph.Contagious)
    (hthreshold : 0 ≤ config.promotionThreshold)
    (hholds : state.renew.Holds n infected recovered edge)
    (hmet : ∀ sent,
      transmissions root graph config.direction (clampedRate config) state = some sent →
        (∀ t ∈ sent, ∃ j, graph.Contact config.direction t.src t.tgt j ∧
          transmissionOf root graph (clampedRate config) t.src j = some t.pTransmit) →
        MetAlong EpidemicState.record (EpidemicState.Leads edge) state.renew sent)
    (hnext : round root graph config state = some next) :
    next.renew.Holds n infected recovered edge ∧
      ∀ i, state.probability.getD i 0 ≤ next.probability.getD i 0 := by
  obtain ⟨sent, hsent, hsends⟩ :=
    exists_transmissions hroot (rateMem_clampedRate config) h config.direction state
  rw [round, spread, hsent] at hnext
  obtain rfl := Option.some.inj hnext
  obtain ⟨hlast, -, hprobability⟩ := hholds.foldl_record
    (fun t ht => (hsends t ht).1.of_compartment rfl) (hmet sent hsent fun t ht => (hsends t ht).2)
  refine ⟨hlast.promote hthreshold, fun i => ?_⟩
  have hrisen := (hlast.bounded i).2.1
  rw [hprobability] at hrisen
  exact hrisen

theorem holds_round_follows (hroot : ∀ d, 1 < d → 1 ≤ root d) (h : graph.Contagious)
    (hthreshold : 0 ≤ config.promotionThreshold)
    (hholds : state.renew.Holds n infected recovered (Follows graph config))
    (hnext : round root graph config state = some next) :
    next.renew.Holds n infected recovered (Follows graph config) ∧
      ∀ i, state.probability.getD i 0 ≤ next.probability.getD i 0 := by
  refine holds_round hroot h hthreshold hholds (fun sent _ hsends => ?_) hnext
  refine metAlong_of_forall fun u t ht _ => ?_
  obtain ⟨j, hj, -⟩ := hsends t ht
  exact ⟨j, hj⟩

theorem holds_round_transmits (hroot : ∀ d, 1 < d → 1 ≤ root d) (h : graph.Contagious)
    (hthreshold : 0 ≤ config.promotionThreshold)
    (hholds : state.renew.Holds n infected recovered (Transmits root graph config))
    (hinfects : Infects root graph config state)
    (hnext : round root graph config state = some next) :
    next.renew.Holds n infected recovered (Transmits root graph config) := by
  refine (holds_round hroot h hthreshold hholds (fun sent hsent hsends => ?_) hnext).1
  refine (hinfects sent hsent).imp fun u t ht hpositive hnearer => ?_
  obtain ⟨j, hj, hp⟩ := hsends t ht
  exact ⟨j, t.pTransmit, hj, hp, hpositive hnearer⟩

end Rounds

section Runs

variable {n : Nat} {infected recovered : List Nat} {last : EpidemicState K} {config : EpidemicConfig K}

theorem holds_rounds (hroot : ∀ d, 1 < d → 1 ≤ root d) (h : graph.Contagious)
    (hthreshold : 0 ≤ config.promotionThreshold)
    (hholds : state.renew.Holds n infected recovered (Follows graph config)) (count : Nat) :
    ∃ last, rounds root graph config count state = some last ∧
      last.renew.Holds n infected recovered (Follows graph config) := by
  induction count with
  | zero => exact ⟨state, rfl, hholds⟩
  | succ count ih =>
      obtain ⟨last, hlast, hlastHolds⟩ := ih
      obtain ⟨next, hnext⟩ := exists_round hroot h config last
      exact ⟨next, by rw [rounds_succ, hlast]; exact hnext,
        (holds_round_follows hroot h hthreshold hlastHolds hnext).1⟩

theorem holds_rounds_transmits (hroot : ∀ d, 1 < d → 1 ≤ root d) (h : graph.Contagious)
    (hthreshold : 0 ≤ config.promotionThreshold)
    (hholds : state.renew.Holds n infected recovered (Transmits root graph config)) {count : Nat}
    (hinfects : ∀ k < count, ∀ before, rounds root graph config k state = some before →
      Infects root graph config before)
    (hlast : rounds root graph config count state = some last) :
    last.renew.Holds n infected recovered (Transmits root graph config) := by
  induction count generalizing last with
  | zero =>
      obtain rfl := Option.some.inj hlast
      exact hholds
  | succ count ih =>
      rw [rounds_succ] at hlast
      obtain ⟨before, hbefore, hnext⟩ := Option.bind_eq_some_iff.mp hlast
      exact holds_round_transmits hroot h hthreshold
        (ih (fun k hk => hinfects k (by omega)) hbefore) (hinfects count (by omega) before hbefore)
        hnext

-- A loop that ends without a burnout has made some of the iterations that were left.
theorem exists_iterate (hroot : ∀ d, 1 < d → 1 ≤ root d) (h : graph.Contagious)
    (config : EpidemicConfig K) (left t : Nat) (progress : EpidemicProgress K) :
    ∃ outcome, iterate root graph config left t progress = some outcome ∧
      ∀ last, outcome = .ok last → ∃ count ≤ left,
        rounds root graph config count progress.state = some last.state := by
  induction left generalizing t progress with
  | zero =>
      refine ⟨.ok progress, rfl, fun last hlast => ⟨0, le_rfl, ?_⟩⟩
      obtain rfl := Except.ok.inj hlast
      rfl
  | succ left ih =>
      obtain ⟨sent, hsent, -⟩ :=
        exists_transmissions hroot (rateMem_clampedRate config) h config.direction progress.state
      have hround : round root graph config progress.state =
          some ((sent.foldl EpidemicState.record progress.state.renew).promote
            config.promotionThreshold) := by
        rw [round, spread, hsent]
        rfl
      rw [iterate, spread, hsent]
      simp only [Option.map_some, Option.bind_eq_bind, Option.bind_some]
      split
      · exact ⟨_, rfl, fun last hlast => absurd hlast (by simp)⟩
      · split
        · refine ⟨_, rfl, fun last hlast => ⟨1, by omega, ?_⟩⟩
          obtain rfl := Except.ok.inj hlast
          rw [rounds, hround]
          rfl
        · obtain ⟨outcome, houtcome, hok⟩ := ih (t + 1) _
          refine ⟨outcome, houtcome, fun last hlast => ?_⟩
          obtain ⟨count, hcount, hrounds⟩ := hok last hlast
          refine ⟨count + 1, by omega, ?_⟩
          rw [rounds, hround]
          exact hrounds

end Runs

section Names

-- A table of the external ids of the nodes.
def Names (graph : Graph K T) (nodeToExt : List String) : Prop :=
  nodeToExt.length = graph.nodes.count ∧ ∀ s i, nodeToExt[i]? = some s ↔ graph.resolveId s = some i

omit [Field K] [LinearOrder K] [IsStrictOrderedRing K] in
theorem Names.resolveId {nodeToExt : List String} (h : Names graph nodeToExt) {i : Nat}
    (hi : i < graph.nodes.count) : graph.resolveId (nodeToExt.getD i "") = some i := by
  have hlt : i < nodeToExt.length := h.1 ▸ hi
  rw [← h.2, List.getD_eq_getElem?_getD, List.getElem?_eq_getElem hlt, Option.getD_some]

omit [Field K] [LinearOrder K] [IsStrictOrderedRing K] in
theorem foldlM_orPanic {σ α : Type} {step : σ → α → Option σ} (items : List α) (s : σ) :
    items.foldlM (fun s item => orPanic (step s item)) s = orPanic (items.foldlM step s) := by
  induction items generalizing s with
  | nil => rfl
  | cons item items ih =>
      rw [List.foldlM_cons, List.foldlM_cons]
      cases step s item with
      | none => rfl
      | some next => exact ih next

omit [Field K] [LinearOrder K] [IsStrictOrderedRing K] in
theorem exists_nodeToExt (h : graph.Registered) :
    ∃ nodeToExt, sirBuildNodeToExt graph = some nodeToExt ∧ Names graph nodeToExt := by
  have hstep : ∀ (ids : List String) (entry : Nat × Nat) (s : String),
      graph.strings.tryResolve entry.1 = some s → entry.2 < ids.length → orPanic (do
        let ext ← graph.strings.tryResolve entry.1
        some (if entry.2 < ids.length then ids.set entry.2 ext else ids)) =
          .ok (ids.set entry.2 s) := by
    intro ids entry s hs hlt
    rw [hs]
    exact congrArg Except.ok (if_pos hlt)
  obtain ⟨ids, hids, hspec⟩ := h.externalIds_eq hstep
  rw [foldlM_orPanic] at hids
  exact ⟨ids, orPanic_eq_ok.mp hids, hspec⟩

end Names

section Predictions

variable {infected recovered : List Nat} {last : EpidemicState K} {config : EpidemicConfig K}
  {nodeToExt : List String} {i g : Nat}

omit [IsStrictOrderedRing K] in
theorem mem_predictionIndices (h : i ∈ predictionIndices graph infected recovered config
    last.probability) : i < graph.nodes.count ∧ i ∉ infected ∧ i ∉ recovered ∧
      0 < last.probability.getD i 0 := by
  obtain ⟨hrange, hkept⟩ := List.mem_filter.mp (List.mem_mergeSort.mp (List.mem_of_mem_take h))
  exact ⟨List.mem_range.mp hrange, of_decide_eq_true hkept⟩

omit [IsStrictOrderedRing K] in
-- Where no more nodes have a probability than are reported, all of them are.
theorem mem_predictionIndices_of_countP (htop : ((List.range graph.nodes.count).countP fun i =>
      i ∉ infected ∧ i ∉ recovered ∧ 0 < last.probability.getD i 0) ≤ config.topK) :
    i ∈ predictionIndices graph infected recovered config last.probability ↔
      i < graph.nodes.count ∧ i ∉ infected ∧ i ∉ recovered ∧ 0 < last.probability.getD i 0 := by
  refine ⟨mem_predictionIndices, fun h => ?_⟩
  rw [List.countP_eq_length_filter] at htop
  rw [predictionIndices, List.take_of_length_le (by rw [List.length_mergeSort]; exact htop),
    List.mem_mergeSort, List.mem_filter]
  exact ⟨List.mem_range.mpr h.1, decide_eq_true h.2⟩

omit [IsStrictOrderedRing K] in
theorem mem_predictionIndices_iff (htop : graph.nodes.count ≤ config.topK) :
    i ∈ predictionIndices graph infected recovered config last.probability ↔
      i < graph.nodes.count ∧ i ∉ infected ∧ i ∉ recovered ∧ 0 < last.probability.getD i 0 := by
  refine mem_predictionIndices_of_countP (List.countP_le_length.trans ?_)
  rwa [List.length_range]

-- What a prediction says of a node, and the way along which it was infected.
structure Chained (graph : Graph K T) (config : EpidemicConfig K) (infected recovered : List Nat)
    (prediction : EpidemicPrediction K) (path : List Nat) : Prop where
  named : prediction.transmissionPath.map graph.resolveId = path.map some
  length : ∃ generation, prediction.generation = some generation ∧ path.length = generation + 1
  nodup : path.Nodup
  head : ∃ seed ∈ infected, seed ∉ recovered ∧ path.head? = some seed
  last : ∃ node, node ∉ infected ∧ node ∉ recovered ∧ path.getLast? = some node ∧
    graph.resolveId prediction.nodeId = some node
  chain : path.IsChain (Follows graph config)

omit [IsStrictOrderedRing K] in
-- The parents of the nodes that have not recovered.
theorem descends_of_holds {n : Nat} {edge : Nat → Nat → Prop}
    (h : last.renew.Holds n infected recovered edge) :
    Descends last.parent (fun i => last.generation.getD i none) edge (· ∈ infected)
      (· ∉ recovered) := by
  constructor
  case zero => exact fun i hi hzero => h.seeds i hi hzero
  case succ =>
    intro i g _ hg
    obtain ⟨p, hp, hinfected, hrank, hedge⟩ := h.linked i g hg
    have hlt : p < n := h.sized.1 ▸ (List.getElem?_eq_some_iff.mp hinfected).1
    refine ⟨p, hp, fun hmem => ?_, hrank, hedge⟩
    rw [← h.healed p hlt, hinfected] at hmem
    exact absurd hmem (by simp)

omit [LinearOrder K] [IsStrictOrderedRing K] in
theorem exists_predictionOf (h : graph.Registered) (nodeToExt : List String)
    (state : EpidemicState K) {i : Nat} (hi : i < graph.nodes.count) :
    ∃ prediction, predictionOf graph nodeToExt state i = some prediction ∧
      prediction.nodeId = nodeToExt.getD i "" ∧
      prediction.infectionProbability = state.probability.getD i 0 ∧
      prediction.generation = state.generation.getD i none ∧
      prediction.transmissionPath = sirReconstructPath i state.parent nodeToExt := by
  obtain ⟨label, hlabel⟩ := h.exists_label hi
  obtain ⟨interned, hinterned, hlabel⟩ := Option.bind_eq_some_iff.mp hlabel
  have htype : i < graph.nodes.nodeType.length := by rwa [h.nodeType]
  rw [predictionOf, hinterned, List.getElem?_eq_getElem htype]
  simp only [Option.bind_eq_bind, Option.bind_some, hlabel]
  exact ⟨_, rfl, rfl, rfl, rfl, rfl⟩

omit [Field K] [LinearOrder K] [IsStrictOrderedRing K] in
theorem map_resolveId {line : List Nat}
    (hids : Names graph nodeToExt)
    (hline : ∀ v ∈ line, v < graph.nodes.count) :
    (line.map fun node => nodeToExt.getD node "").map graph.resolveId = line.map some := by
  rw [List.map_map]
  exact List.map_congr_left fun v hv => hids.resolveId (hline v hv)

omit [IsStrictOrderedRing K] in
-- The nodes that a path is read from, from the last one back to a seed.
theorem exists_line {n : Nat} {edge : Nat → Nat → Prop}
    (hholds : last.renew.Holds n infected recovered edge) (hrecovered : i ∉ recovered)
    (hpositive : 0 < last.probability.getD i 0) :
    ∃ g line, last.generation.getD i none = some g ∧
      Line (fun i => last.generation.getD i none) edge (· ∈ infected) (· ∉ recovered) i g line ∧
      climb last.parent last.parent.length i = line.reverse ∧ ∀ v ∈ line, v < n := by
  obtain ⟨g, hg⟩ := hholds.dated i (.inr hpositive)
  have hranked (v k : Nat) (hv : last.generation.getD v none = some k) : v < n := by
    have hsized : last.generation.length = n := hholds.sized.2.2.1
    rw [← hsized]
    by_contra hge
    rw [List.getD_eq_getElem?_getD, List.getElem?_eq_none (not_lt.mp hge)] at hv
    cases hv
  obtain ⟨line, hline, hclimb⟩ := (descends_of_holds hholds).exists_climb hranked hrecovered hg
  have hparents : last.parent.length = n := hholds.sized.2.2.2.1
  refine ⟨g, line, hg, hline, hparents ▸ hclimb, fun v hv => ?_⟩
  obtain ⟨k, -, hk⟩ := hline.ranked v hv
  exact hranked v k hk

omit [IsStrictOrderedRing K] in
theorem exists_chained (hids : Names graph nodeToExt)
    (hholds : last.renew.Holds graph.nodes.count infected recovered (Follows graph config))
    (hi : i ∈ predictionIndices graph infected recovered config last.probability)
    {prediction : EpidemicPrediction K} (hid : prediction.nodeId = nodeToExt.getD i "")
    (hgeneration : prediction.generation = last.generation.getD i none)
    (hpath : prediction.transmissionPath = sirReconstructPath i last.parent nodeToExt) :
    ∃ path, Chained graph config infected recovered prediction path ∧
      (last.renew.Holds graph.nodes.count infected recovered (Transmits root graph config) →
        path.IsChain (Transmits root graph config)) := by
  obtain ⟨hlt, hseed, hrecovered, hpositive⟩ := mem_predictionIndices hi
  obtain ⟨g, line, hg, hline, hclimb, hresolved⟩ := exists_line hholds hrecovered hpositive
  have hnames : prediction.transmissionPath = line.map fun node => nodeToExt.getD node "" := by
    rw [hpath, sirReconstructPath, hclimb, List.map_reverse, List.reverse_reverse]
  refine ⟨line, ⟨?_, ⟨g, hgeneration.trans hg, hline.length⟩, hline.nodup, ?_,
    ⟨i, hseed, hrecovered, hline.last, ?_⟩, hline.chain⟩, fun htransmits => ?_⟩
  · rw [hnames]
    exact map_resolveId hids hresolved
  · obtain ⟨first, hfirst, hinfected, hclear⟩ := hline.head
    exact ⟨first, hinfected, hclear, hfirst⟩
  · rw [hid]
    exact hids.resolveId hlt
  -- The climb does not depend on what is known of the edges.
  · obtain ⟨_, line', -, hline', hclimb', -⟩ := exists_line htransmits hrecovered hpositive
    rw [List.reverse_injective (hclimb.symm.trans hclimb')]
    exact hline'.chain

end Predictions

section Components

variable {nodeToExt : List String} {reachable : List Bool}

-- The components that are listed are those of the graph inside, by their origins and sizes.
def ListsComponents (graph : Graph K T) (inside : Nat → Prop)
    (components : List UnreachableComponent) : Prop :=
  ∃ groups : List (Nat × List Nat),
    components.map (fun component => (graph.resolveId component.representativeNode,
      component.nodeCount)) = groups.map (fun group => (some group.1, group.2.length)) ∧
    (groups.flatMap Prod.snd).Nodup ∧ (∀ v, v ∈ groups.flatMap Prod.snd ↔ inside v) ∧
    ∀ group ∈ groups, group.1 ∈ group.2 ∧
      ∀ v, v ∈ group.2 ↔ (graph.weak inside).Reachable group.1 v

-- The searches from the nodes below one.
structure Visits (graph : Graph K T) (reachable : List Bool) (k : Nat)
    (found : List Bool × List UnreachableComponent) (groups : List (Nat × List Nat)) : Prop where
  floods : Floods graph.neighborsOf reachable graph.nodes.count found.1 groups
  named : found.2.map (fun component => (graph.resolveId component.representativeNode,
    component.nodeCount)) = groups.map fun group => (some group.1, group.2.length)
  origins : ∀ group ∈ groups, group.1 ∈ group.2
  covered : ∀ origin < k, reachable[origin]? = some false → found.1[origin]? = some true

omit [Field K] [LinearOrder K] [IsStrictOrderedRing K] in
theorem exists_visits (h : graph.Contagious) (hreachable : reachable.length = graph.nodes.count)
    (hids : Names graph nodeToExt) {k : Nat}
    (hk : k ≤ graph.nodes.count) :
    ∃ found groups, (List.range k).foldlM (visitComponent graph reachable nodeToExt)
      (List.replicate graph.numNodes false, []) = some found ∧
        Visits graph reachable k found groups := by
  induction k with
  | zero =>
      exact ⟨_, [], rfl, floods_nil _, rfl, fun _ hgroup => absurd hgroup List.not_mem_nil,
        fun _ hlt => absurd hlt (Nat.not_lt_zero _)⟩
  | succ k ih =>
      obtain ⟨found, groups, hfound, hvisits⟩ := ih (by omega)
      simp only [List.range_succ, List.foldlM_append, hfound, Option.bind_eq_bind,
        Option.bind_some, List.foldlM_cons, List.foldlM_nil, bind_pure]
      have hbarred : k < reachable.length := by omega
      have hmark : k < found.1.length := by
        rw [hvisits.floods.length]
        omega
      by_cases hskip : reachable.getD k false = true ∨ found.1.getD k false = true
      · refine ⟨found, groups, by rw [visitComponent, if_pos hskip], hvisits.floods,
          hvisits.named, hvisits.origins, fun origin horigin hfree => ?_⟩
        obtain horigin | rfl := Nat.lt_succ_iff_lt_or_eq.mp horigin
        · exact hvisits.covered origin horigin hfree
        · rw [List.getD_eq_getElem?_getD, hfree, List.getD_eq_getElem?_getD,
            List.getElem?_eq_getElem hmark] at hskip
          rw [List.getElem?_eq_getElem hmark]
          exact congrArg some (hskip.resolve_left (by simp))
      · have hfree : reachable[k]? = some false ∧ found.1[k]? = some false := by
          rw [not_or, List.getD_eq_getElem?_getD, List.getD_eq_getElem?_getD,
            List.getElem?_eq_getElem hbarred, List.getElem?_eq_getElem hmark] at hskip
          rw [List.getElem?_eq_getElem hbarred, List.getElem?_eq_getElem hmark]
          simpa using hskip
        have hread : ∀ node < graph.nodes.count, ∃ next, graph.neighborsOf node = some next := by
          intro node _
          obtain ⟨nodes, hnodes, -⟩ := h.neighbors node
          exact ⟨nodes, hnodes⟩
        have hsymm : ∀ a b, reachable[a]? = some false →
            Passes graph.neighborsOf reachable a b → Passes graph.neighborsOf reachable b a := by
          rintro a b ha ⟨nodes, hnodes, hb, -⟩
          obtain ⟨nodes', hnodes', hmem⟩ := h.neighbors a
          obtain rfl := Option.some.inj (hnodes.symm.trans hnodes')
          obtain ⟨next, hnext, hback⟩ := h.neighbors b
          exact ⟨next, hnext, (hback a).mpr ((hmem b).mp hb).symm, ha⟩
        obtain ⟨flood, members, hflood, hfloods, hleft, horigin⟩ :=
          hvisits.floods.exists_flood hreachable hread hsymm hfree.2 hfree.1
        have hpos : 0 < flood.left := by
          rw [hleft]
          exact List.length_pos_of_mem horigin
        have hresolved := hids.resolveId hk
        refine ⟨(flood.visited, found.2 ++ [⟨nodeToExt.getD k "", flood.left⟩]),
          groups ++ [(k, members)], ?_, hfloods, ?_, ?_, fun origin hlt hfree => ?_⟩
        · rw [visitComponent, if_neg hskip, Graph.numNodes, hflood]
          simp only [Option.bind_eq_bind, Option.bind_some, if_pos hpos]
        · rw [List.map_append, List.map_append, hvisits.named, List.map_singleton,
            List.map_singleton, hresolved, hleft]
        · intro group hgroup
          obtain hgroup | hgroup := List.mem_append.mp hgroup
          · exact hvisits.origins group hgroup
          · obtain rfl := List.mem_singleton.mp hgroup
            exact horigin
        · rw [hfloods.marked, List.flatMap_append, List.mem_append, List.flatMap_singleton,
            ← hvisits.floods.marked]
          obtain hlt | rfl := Nat.lt_succ_iff_lt_or_eq.mp hlt
          · exact .inl (hvisits.covered origin hlt hfree)
          · exact .inr horigin

-- The nodes that an epidemic has not come to.
def Unreached (state : EpidemicState K) (i : Nat) : Prop :=
  state.compartment[i]? = some .Susceptible ∧ state.probability.getD i 0 = 0

omit [IsStrictOrderedRing K] in
theorem reachableOf_eq_false {n : Nat} (hsized : state.compartment.length = n ∧
    state.probability.length = n) (hpositive : ∀ i, 0 ≤ state.probability.getD i 0) (i : Nat) :
    (reachableOf state)[i]? = some false ↔ Unreached state i := by
  rw [reachableOf, List.getElem?_zipWith, Unreached]
  have hzero := hpositive i
  by_cases hi : i < n
  · rw [List.getD_eq_getElem?_getD, List.getElem?_eq_getElem (hsized.2 ▸ hi),
      Option.getD_some] at hzero ⊢
    rw [List.getElem?_eq_getElem (hsized.1 ▸ hi)]
    simp only [Option.some.injEq, decide_eq_false_iff_not, not_or, not_lt, not_not]
    exact ⟨fun h => ⟨h.2, le_antisymm h.1 hzero⟩, fun h => ⟨h.2.le, h.1⟩⟩
  · rw [List.getElem?_eq_none (by omega), List.getElem?_eq_none (by omega)]
    simp

omit [IsStrictOrderedRing K] in
theorem exists_findUnreachableComponents (h : graph.Contagious) {n : Nat} {last : EpidemicState K}
    {infected recovered : List Nat} {edge : Nat → Nat → Prop} (hn : n = graph.nodes.count)
    (hholds : last.renew.Holds n infected recovered edge) :
    ∃ components, findUnreachableComponents graph (reachableOf last) = some components ∧
      ListsComponents graph (Unreached last) components := by
  subst hn
  obtain ⟨nodeToExt, hnames, hids⟩ := exists_nodeToExt h.registered
  have hfree : ∀ i, (reachableOf last)[i]? = some false ↔ Unreached last i :=
    reachableOf_eq_false ⟨hholds.sized.1, hholds.sized.2.1⟩ fun i => (hholds.bounded i).1
  have hlength : (reachableOf last).length = graph.nodes.count := by
    rw [reachableOf, List.length_zipWith]
    exact (congrArg₂ min hholds.sized.2.1 hholds.sized.1).trans (Nat.min_self _)
  obtain ⟨found, groups, hfound, hvisits⟩ := exists_visits h hlength hids le_rfl
  have hinside : (fun i => (reachableOf last)[i]? = some false) = Unreached last :=
    funext fun i => propext (hfree i)
  have hfound : findUnreachableComponents graph (reachableOf last) = some found.2 := by
    rw [findUnreachableComponents, hnames, Graph.numNodes]
    exact congrArg (Option.bind · fun found => some found.2) hfound
  refine ⟨found.2, hfound, groups, hvisits.named, hvisits.floods.nodup,
    fun v => ⟨fun hv => ?_, fun hv => ?_⟩,
    fun group hgroup => ⟨hvisits.origins group hgroup, fun v => ?_⟩⟩
  · obtain ⟨group, hgroup, hmem⟩ := List.mem_flatMap.mp hv
    obtain ⟨horigin, hmembers⟩ := hvisits.floods.members group hgroup
    rw [← hfree]
    obtain rfl | ⟨u, -, -, -, -, hpass⟩ := ((hmembers v).mp hmem).cases_tail
    · exact horigin
    · exact hpass
  · rw [← hfree] at hv
    have hlt := (List.getElem?_eq_some_iff.mp hv).1
    exact (hvisits.floods.marked v).mp (hvisits.covered v (hlength ▸ hlt) hv)
  · obtain ⟨horigin, hmembers⟩ := hvisits.floods.members group hgroup
    rw [hmembers, Graph.reflTransGen_passes_iff h.neighbors horigin, hinside]

end Components

section Results

variable {infected recovered : List Nat} {config : EpidemicConfig K}

-- What a result says of the last of some iterations. A chain may go through a transmission that
-- has no probability, unless none of those was recorded.
structure Reports (root : K → K) (graph : Graph K T) (infected recovered : List Nat)
    (config : EpidemicConfig K) (count : Nat) (last : EpidemicState K)
    (result : EpidemicResult K) : Prop where
  listed : ∃ nodeToExt, Names graph nodeToExt ∧ ∀ prediction, prediction ∈ result.predictions ↔
    ∃ i ∈ predictionIndices graph infected recovered config last.probability,
      predictionOf graph nodeToExt last i = some prediction
  predictions : ∀ prediction ∈ result.predictions, ∃ path,
    Chained graph config infected recovered prediction path ∧
      ((∀ k < count, ∀ before, rounds root graph config k
        (.start graph.numNodes infected recovered) = some before →
          Infects root graph config before) → path.IsChain (Transmits root graph config))
  components : ListsComponents graph (Unreached last) result.unreachableComponents

theorem holds_start (graph : Graph K T) (infected recovered : List Nat)
    (edge : Nat → Nat → Prop) :
    (EpidemicState.start graph.numNodes infected recovered : EpidemicState K).renew.Holds
      graph.nodes.count infected recovered edge :=
  (EpidemicState.seeded_start graph.nodes.count infected recovered).holds edge

theorem exists_resultOf (hroot : ∀ d, 1 < d → 1 ≤ root d) (h : graph.Contagious)
    (hthreshold : 0 ≤ config.promotionThreshold) {count : Nat} {progress : EpidemicProgress K}
    (hlast : rounds root graph config count (.start graph.numNodes infected recovered) =
      some progress.state) :
    ∃ result, resultOf graph infected recovered config progress = some result ∧
      Reports root graph infected recovered config count progress.state result := by
  obtain ⟨last, hrounds, hholds⟩ := holds_rounds hroot h hthreshold
    (holds_start graph infected recovered (Follows graph config)) count
  obtain rfl := Option.some.inj (hrounds.symm.trans hlast)
  obtain ⟨nodeToExt, hnames, hids⟩ := exists_nodeToExt h.registered
  obtain ⟨components, hcomponents, hlists⟩ := exists_findUnreachableComponents h rfl hholds
  have hread : ∀ i ∈ predictionIndices graph infected recovered config
      progress.state.probability, ∃ prediction,
        predictionOf graph nodeToExt progress.state i = some prediction := by
    intro i hi
    obtain ⟨prediction, hprediction, -⟩ :=
      exists_predictionOf h.registered nodeToExt progress.state (mem_predictionIndices hi).1
    exact ⟨prediction, hprediction⟩
  obtain ⟨predictions, hpredictions, hmem⟩ := exists_mapM hread
  refine ⟨_, by rw [resultOf, hnames, hcomponents]; exact congrArg (Option.bind · _) hpredictions,
    ⟨nodeToExt, hids, hmem⟩, fun prediction hprediction => ?_, hlists⟩
  obtain ⟨i, hi, hprediction⟩ := (hmem prediction).mp hprediction
  obtain ⟨prediction', hprediction', hid, -, hgeneration, hpath⟩ :=
    exists_predictionOf h.registered nodeToExt progress.state (mem_predictionIndices hi).1
  obtain rfl := Option.some.inj (hprediction'.symm.trans hprediction)
  obtain ⟨path, hchained, hpositive⟩ := exists_chained hids hholds hi hid hgeneration hpath
  refine ⟨path, hchained, fun hinfects => hpositive ?_⟩
  exact holds_rounds_transmits hroot h hthreshold
    (holds_start graph infected recovered (Transmits root graph config)) hinfects hlast

omit [IsStrictOrderedRing K] in
-- A simulation that has a result is at the end of its iterations.
theorem simulate_eq_ok (hnodes : graph.numNodes ≠ 0) {result : EpidemicResult K}
    (h : simulate root graph infected recovered config = some (.ok result)) :
    ∃ progress, iterate root graph config (min config.iterations MAX_ITERATIONS) 0
        (startProgress graph infected recovered) = some (.ok progress) ∧
      resultOf graph infected recovered config progress = some result := by
  by_cases hinfected : infected = []
  · rw [simulate, if_pos hinfected] at h
    cases h
  · rw [simulate, if_neg hinfected, if_neg hnodes] at h
    obtain ⟨outcome, houtcome, h⟩ := Option.bind_eq_some_iff.mp h
    cases outcome with
    | error error => cases h
    | ok progress =>
        obtain ⟨other, hother, h⟩ := Option.map_eq_some_iff.mp h
        obtain rfl := Except.ok.inj h
        exact ⟨progress, houtcome, hother⟩

-- In every iteration the probabilities stay in bounds, and none of them falls in the next. What is
-- reported are chains of infections from a seed, and the components that no infection has come to.
structure Simulates (root : K → K) (graph : Graph K T) (infected recovered : List Nat)
    (config : EpidemicConfig K) : Prop where
  rounds : ∀ k, ∃ state, rounds root graph config k (.start graph.numNodes infected recovered) =
    some state ∧ ∀ p ∈ state.probability, 0 ≤ p ∧ p ≤ 1
  rises : ∀ k state next,
    EpidemicEngine.rounds root graph config k (.start graph.numNodes infected recovered) =
      some state →
    round root graph config state = some next →
      ∀ i, state.probability.getD i 0 ≤ next.probability.getD i 0
  outcome : ∃ outcome, simulate root graph infected recovered config = some outcome ∧
    ∀ result, outcome = .ok result → ∃ count ≤ min config.iterations MAX_ITERATIONS, ∃ last,
      EpidemicEngine.rounds root graph config count (.start graph.numNodes infected recovered) =
        some last ∧ Reports root graph infected recovered config count last result

theorem simulate_chains (root : K → K) (hroot : ∀ d, 1 < d → 1 ≤ root d)
    (edits : List (GraphEdit K T)) (hfinal : (GraphEdit.run edits).finalized = true)
    (infected recovered : List Nat) (config : EpidemicConfig K)
    (hthreshold : 0 ≤ config.promotionThreshold) :
    Simulates root (GraphEdit.run edits) infected recovered config := by
  have h := GraphEdit.contagious_run edits hfinal
  generalize GraphEdit.run edits = graph at h
  have hstart := holds_start graph infected recovered (Follows graph config)
  constructor
  case rounds =>
    intro k
    obtain ⟨state, hstate, hholds⟩ := holds_rounds hroot h hthreshold hstart k
    refine ⟨state, hstate, fun p hp => ?_⟩
    obtain ⟨i, hi⟩ := List.mem_iff_getElem?.mp hp
    have hbounded := hholds.bounded i
    rw [EpidemicState.renew, List.getD_eq_getElem?_getD, hi] at hbounded
    exact ⟨hbounded.1, hbounded.2.2⟩
  case rises =>
    intro k state next hstate hnext
    obtain ⟨before, hbefore, hholds⟩ := holds_rounds hroot h hthreshold hstart k
    obtain rfl := Option.some.inj (hstate.symm.trans hbefore)
    exact (holds_round_follows hroot h hthreshold hholds hnext).2
  case outcome =>
    rw [simulate]
    split
    · exact ⟨_, rfl, fun result hresult => absurd hresult (by simp)⟩
    · split
      · rename_i hempty
        refine ⟨_, rfl, fun result hresult => ⟨0, Nat.zero_le _, _, rfl, ?_⟩⟩
        obtain rfl := Except.ok.inj hresult
        obtain ⟨nodeToExt, -, hids⟩ := exists_nodeToExt h.registered
        refine ⟨⟨nodeToExt, hids, fun prediction => ⟨fun hmem => absurd hmem List.not_mem_nil, ?_⟩⟩,
          fun _ hmem => absurd hmem List.not_mem_nil, [], rfl, List.nodup_nil, fun v => ?_,
          fun _ hmem => absurd hmem List.not_mem_nil⟩
        · rintro ⟨i, hi, -⟩
          have hlt := (mem_predictionIndices hi).1
          rw [← Graph.numNodes] at hlt
          omega
        refine ⟨fun hmem => absurd hmem List.not_mem_nil, fun hunreached => ?_⟩
        have hlt := (List.getElem?_eq_some_iff.mp hunreached.1).1
        have hsized : (EpidemicState.start graph.numNodes infected recovered :
            EpidemicState K).compartment.length = graph.numNodes := hstart.sized.1
        omega
      · obtain ⟨outcome, houtcome, hok⟩ := exists_iterate hroot h config
          (min config.iterations MAX_ITERATIONS) 0 (startProgress graph infected recovered)
        rw [houtcome]
        cases outcome with
        | error error => exact ⟨.error error, rfl, fun result hresult => absurd hresult (by simp)⟩
        | ok progress =>
            obtain ⟨count, hcount, hlast⟩ := hok progress rfl
            obtain ⟨result, hresult, hreports⟩ := exists_resultOf hroot h hthreshold hlast
            refine ⟨.ok result, congrArg (Option.map Except.ok) hresult, fun other hother => ?_⟩
            obtain rfl := Except.ok.inj hother
            exact ⟨count, hcount, progress.state, hlast, hreports⟩

end Results

section Lapsed

-- The edge to the target has no weight. The target is infected by the other node, a generation
-- later.
def lapsed : List (GraphEdit Rat Nat) :=
  [.operate (.addNode "s" "s" .File [] 0 0), .operate (.addNode "a" "a" .File [] 0 0),
    .operate (.addNode "t" "t" .File [] 0 0), .operate (.addNode "b" "b" .File [] 0 0),
    .operate (.addNode "c" "c" .File [] 0 0),
    .operate (.addEdge 0 2 "calls" 0 .Forward false 0),
    .operate (.addEdge 0 1 "calls" 1 .Forward false 0),
    .operate (.addEdge 0 3 "calls" 1 .Forward false 0),
    .operate (.addEdge 0 4 "calls" 1 .Forward false 0),
    .operate (.addEdge 1 2 "calls" 1 .Forward false 0)]

theorem lapsed_rebuilt : GraphEdit.run (lapsed ++ [.operate .finalize]) =
    (GraphEdit.run lapsed).rebuildCsr := rfl

theorem placements_lapsed : placements (GraphEdit.run lapsed).csr.pendingEdges =
    (GraphEdit.run lapsed).csr.pendingEdges.zipIdx.flatMap fun indexed =>
      indexed.1.placements indexed.2 :=
  placements_of_sorted (by decide +kernel)

theorem one_le_ratSqrt (d : Rat) (hd : 1 < d) : 1 ≤ Rat.sqrt d := by
  have hden : 0 < Nat.sqrt d.den := Nat.sqrt_pos.mpr d.den_pos
  have hlt : (d.den : Int) < d.num := by
    simpa using (Rat.lt_iff 1 d).mp hd
  have hle : (Nat.sqrt d.den : Int) ≤ Int.sqrt d.num := by
    rw [Int.sqrt]
    exact Int.ofNat_le.mpr (Nat.sqrt_le_sqrt (by omega))
  have hpos : (0 : Rat) < Nat.sqrt d.den := Nat.cast_pos.mpr hden
  rw [Rat.sqrt, Rat.mkRat_eq_div, le_div_iff₀ hpos, one_mul]
  exact_mod_cast hle

-- The path to the target that is reported goes along the edge without a weight.
theorem simulate_lapsed :
    let graph := GraphEdit.run (lapsed ++ [.operate .finalize])
    let config : EpidemicConfig Rat := ⟨none, 2, .Forward, 20, 1, 0⟩
    graph.finalized = true ∧
      ∃ result, simulate Rat.sqrt graph [0] [] config = some (.ok result) ∧
        ∃ prediction ∈ result.predictions, 0 < prediction.infectionProbability ∧
          ∀ path : List Nat, prediction.transmissionPath.map graph.resolveId = path.map some →
            ¬ path.IsChain (Transmits Rat.sqrt graph config) := by
  intro graph config
  have hgraph : graph = (GraphEdit.run lapsed).rebuildCsr := lapsed_rebuilt
  have hsimulated : graph.finalized = true ∧ graph.nodes.count = 5 ∧
      (iterate Rat.sqrt graph config 2 0 (startProgress graph [0] [])).map (Except.map fun progress =>
        (decide (0 < progress.state.probability.getD 2 0), progress.state.parent)) =
          some (.ok (true, [some 0, some 0, some 0, some 0, some 0])) := by
    rw [hgraph, Graph.rebuildCsr, placements_lapsed]
    decide +kernel
  have hsilent : ∀ j ∈ graph.csr.outRange 0, graph.csr.targets[j]? = some 2 →
      transmissionOf Rat.sqrt graph none 0 j = some 0 := by
    rw [hgraph, Graph.rebuildCsr, placements_lapsed]
    decide +kernel
  obtain ⟨hfinal, hcount, hiterate⟩ := hsimulated
  have h : graph.Contagious := GraphEdit.contagious_run (lapsed ++ [.operate .finalize]) hfinal
  obtain ⟨outcome, houtcome, hok⟩ := exists_iterate one_le_ratSqrt h config 2 0
    (startProgress graph [0] [])
  rw [houtcome, Option.map_some, Option.some_inj] at hiterate
  cases outcome with
  | error error => exact absurd hiterate nofun
  | ok progress =>
      obtain ⟨hpositive, hparent⟩ := Prod.mk.inj (Except.ok.inj hiterate)
      obtain ⟨count, -, hlast⟩ := hok progress rfl
      obtain ⟨result, hresult, hreports⟩ :=
        exists_resultOf one_le_ratSqrt h (le_refl (0 : Rat)) hlast
      have hnodes : graph.numNodes ≠ 0 := by
        rw [Graph.numNodes, hcount]
        decide
      refine ⟨hfinal, result, ?_, ?_⟩
      · have hended : iterate Rat.sqrt graph config (min config.iterations MAX_ITERATIONS) 0
            (startProgress graph [0] []) = some (.ok progress) := houtcome
        rw [simulate, if_neg (List.cons_ne_nil _ _), if_neg hnodes, hended]
        exact congrArg (Option.map Except.ok) hresult
      · obtain ⟨nodeToExt, hids, hlisted⟩ := hreports.listed
        have hlt : 2 < graph.nodes.count := by omega
        have htop : graph.nodes.count ≤ config.topK := hcount.trans_le (by decide)
        obtain ⟨prediction, hprediction, -, hprobability, -, hpath⟩ :=
          exists_predictionOf h.registered nodeToExt progress.state hlt
        have hindex : 2 ∈ predictionIndices graph [0] [] config progress.state.probability :=
          (mem_predictionIndices_iff htop).mpr
            ⟨hlt, by decide, by decide, of_decide_eq_true hpositive⟩
        refine ⟨prediction, (hlisted prediction).mpr ⟨2, hindex, hprediction⟩,
          hprobability ▸ of_decide_eq_true hpositive, fun path hresolved hchain => ?_⟩
        have hclimb : climb progress.state.parent progress.state.parent.length 2 = [2, 0] := by
          rw [hparent]
          rfl
        have hline : ∀ v ∈ [2, 0], v < graph.nodes.count := by
          rw [hcount]
          decide
        have hnames := map_resolveId hids hline
        rw [hpath, sirReconstructPath, hclimb, List.map_reverse, hnames] at hresolved
        obtain rfl : path = [0, 2] := List.map_injective_iff.mpr (Option.some_injective _)
          hresolved.symm
        obtain ⟨j, p, ⟨-, hj, htarget⟩ | ⟨hforward, -⟩, hp, hpos⟩ :=
          (List.isChain_cons_cons.mp hchain).1
        · obtain rfl := Option.some.inj ((hsilent j hj htarget).symm.trans hp)
          exact absurd hpos (lt_irrefl 0)
        · exact absurd rfl hforward

theorem finalized_lapsed : (GraphEdit.run (lapsed ++ [.operate .finalize])).finalized = true := by
  decide +kernel

theorem simulate_chains_lapsed :
    Simulates Rat.sqrt (GraphEdit.run (lapsed ++ [.operate .finalize])) [0] []
      ⟨none, 2, .Forward, 20, 1, 0⟩ :=
  simulate_chains Rat.sqrt one_le_ratSqrt (lapsed ++ [.operate .finalize]) finalized_lapsed [0] []
    ⟨none, 2, .Forward, 20, 1, 0⟩ le_rfl

end Lapsed

end EpidemicEngine

end M1nd.Core
