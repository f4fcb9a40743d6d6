import M1nd.Core.Plasticity.Import
import Mathlib.Tactic.Linarith

namespace M1nd.Core

open M1nd.Library.Loops

variable {W F T : Type}

section Moves

variable {R S : Nat → W → W → Prop} {state mid next : Learning W T}

-- A part of a learning cycle changes nothing of the CSR but the weights, and moves each weight
-- in the way the relation says. No write is left over.
structure Learning.Moves (R : Nat → W → W → Prop) (state next : Learning W T) : Prop where
  csr : { next.graph.csr with weights := state.graph.csr.weights } = state.graph.csr
  count : next.graph.nodes.count = state.graph.nodes.count
  length : next.graph.csr.weights.length = state.graph.csr.weights.length
  failures : ∀ count ∈ next.failures, count ∈ state.failures
  slots : ∀ (j : Nat) (before after : W), state.graph.csr.weights[j]? = some before →
    next.graph.csr.weights[j]? = some after → R j before after

theorem Learning.Moves.refl (hrefl : ∀ j w, R j w w) (state : Learning W T) : state.Moves R state where
  csr := rfl
  count := rfl
  length := rfl
  failures _ hcount := hcount
  slots j before after hbefore hafter := by
    rw [hbefore] at hafter
    obtain rfl := Option.some.inj hafter
    exact hrefl j before

theorem Learning.Moves.trans (htrans : ∀ j u v w, R j u v → R j v w → R j u w)
    (h : state.Moves R mid) (h' : mid.Moves R next) : state.Moves R next where
  csr := by
    have hnext := congrArg (fun csr : CsrGraph W =>
      { csr with weights := state.graph.csr.weights }) h'.csr
    exact hnext.trans h.csr
  count := h'.count.trans h.count
  length := h'.length.trans h.length
  failures count hcount := h.failures count (h'.failures count hcount)
  slots j before after hbefore hafter := by
    have hlt : j < mid.graph.csr.weights.length := by
      rw [h.length]
      exact (List.getElem?_eq_some_iff.mp hbefore).1
    have hmid := List.getElem?_eq_getElem hlt
    exact htrans j before _ after (h.slots j before _ hbefore hmid) (h'.slots j _ after hmid hafter)

theorem Learning.Moves.mono (h : state.Moves R next) (hRS : ∀ j u v, R j u v → S j u v) :
    state.Moves S next :=
  ⟨h.csr, h.count, h.length, h.failures, fun j before after hbefore hafter =>
    hRS j before after (h.slots j before after hbefore hafter)⟩

-- Every field of the CSR but the weights is kept.
theorem Learning.Moves.field (h : state.Moves R next) {α : Type} (f : CsrGraph W → α)
    (hf : ∀ csr : CsrGraph W, f { csr with weights := state.graph.csr.weights } = f csr) :
    f next.graph.csr = f state.graph.csr := by
  rw [← hf next.graph.csr, h.csr]

theorem Learning.Moves.of_graph (h : state.Moves R mid) (hgraph : next.graph = mid.graph)
    (hfailures : next.failures = mid.failures) : state.Moves R next where
  csr := hgraph ▸ h.csr
  count := hgraph ▸ h.count
  length := hgraph ▸ h.length
  failures := hfailures ▸ h.failures
  slots := hgraph ▸ h.slots

-- A write is dropped or stores the new weight.
theorem Learning.writeBoth_eq {limit edge slot : Nat} {newWeight : W}
    {mark : EdgePlasticity W → EdgePlasticity W}
    (hnext : state.writeBoth limit edge slot newWeight mark = some next) :
    edge < state.graph.csr.weights.length ∧ next.failures = state.failures.tail ∧
      next.graph.nodes = state.graph.nodes ∧
      next.graph.csr = if state.failures.headD 0 < limit then
        state.graph.csr.storeWeight edge newWeight else state.graph.csr := by
  unfold Learning.writeBoth CsrGraph.atomicWriteWeight at hnext
  by_cases hedge : state.graph.csr.weights.length ≤ edge
  · rw [if_pos hedge] at hnext
    exact absurd hnext nofun
  · refine ⟨Nat.lt_of_not_le hedge, ?_⟩
    rw [if_neg hedge] at hnext
    by_cases hsucceeds : state.failures.headD 0 < limit
    · rw [if_pos hsucceeds] at hnext
      obtain rfl := Option.some.inj hnext
      exact ⟨rfl, rfl, (if_pos hsucceeds).symm⟩
    · rw [if_neg hsucceeds] at hnext
      obtain rfl := Option.some.inj hnext
      exact ⟨rfl, rfl, (if_neg hsucceeds).symm⟩

theorem Learning.moves_writeBoth {limit edge slot : Nat} {newWeight : W}
    {mark : EdgePlasticity W → EdgePlasticity W} (hrefl : ∀ j w, R j w w)
    (hmove : ∀ before, state.graph.csr.weights[edge]? = some before → R edge before newWeight)
    (hnext : state.writeBoth limit edge slot newWeight mark = some next) : state.Moves R next := by
  obtain ⟨hedge, hfailures, hnodes, hcsr⟩ := Learning.writeBoth_eq hnext
  have hkept : ∀ count ∈ next.failures, count ∈ state.failures := by
    rw [hfailures]
    exact fun count hcount => List.mem_of_mem_tail hcount
  by_cases hsucceeds : state.failures.headD 0 < limit
  · rw [if_pos hsucceeds] at hcsr
    refine ⟨by rw [hcsr]; rfl, by rw [hnodes], by rw [hcsr]; exact List.length_set, hkept, ?_⟩
    intro j before after hbefore hafter
    rw [hcsr, CsrGraph.storeWeight] at hafter
    by_cases hj : edge = j
    · subst hj
      rw [List.getElem?_set_self hedge] at hafter
      obtain rfl := Option.some.inj hafter
      exact hmove before hbefore
    · rw [List.getElem?_set_ne hj, hbefore] at hafter
      obtain rfl := Option.some.inj hafter
      exact hrefl j before
  · rw [if_neg hsucceeds] at hcsr
    refine ⟨by rw [hcsr], by rw [hnodes], by rw [hcsr], hkept, ?_⟩
    intro j before after hbefore hafter
    rw [hcsr, hbefore] at hafter
    obtain rfl := Option.some.inj hafter
    exact hrefl j before

-- The moves of a loop are those of its steps, one after the other.
theorem Learning.moves_foldlM {α : Type} {step : Learning W T → α → Option (Learning W T)}
    {items : List α} (hrefl : ∀ j w, R j w w) (htrans : ∀ j u v w, R j u v → R j v w → R j u w)
    (hstep : ∀ item ∈ items, ∀ u v, state.Moves R u → step u item = some v → u.Moves R v)
    (hnext : items.foldlM step state = some next) : state.Moves R next :=
  foldlM_keeps (state.Moves R) (.refl hrefl state)
    (fun u hu item hitem v hv => hu.trans htrans (hstep item hitem u v hu hv)) hnext

end Moves

end M1nd.Core

namespace M1nd.Core

open M1nd.Library.Checks

variable {W F T : Type}

def carryForwardSynapticState (live persisted : List (SynapticState F)) : List (SynapticState F) :=
  if persisted.isEmpty then live
  else if live.isEmpty then persisted
  else
    let liveIdentities := live.map SynapticState.triple
    live ++ persisted.filter fun row => !liveIdentities.contains row.triple

theorem carryForward_eq (live persisted : List (SynapticState F)) :
    carryForwardSynapticState live persisted =
      live ++ persisted.filter fun row => !(live.map SynapticState.triple).contains row.triple := by
  unfold carryForwardSynapticState
  cases persisted with
  | nil => simp
  | cons row persisted =>
      cases live with
      | nil => simp
      | cons first live => rfl

variable [FiniteF32 W F] [DecidableEq W] {graph liveGraph persistedGraph : Graph W T}
  {engine liveEngine persistedEngine : PlasticityEngine W F} {live persisted : List (SynapticState F)}
  {keys : List (Option FullKey)} {liveCount persistedCount : Nat}

-- The rows that are carried forward can be planned. What concerns the live triples comes out as
-- it does for the live rows, and the rest as it does for the persisted rows.
theorem foldlM_carryForward {lively persisting : Importing F}
    (hlively : live.foldlM (planSynapse graph keys) ⟨fun _ => 0, [], []⟩ = .ok lively)
    (hpersisting : persisted.foldlM (planSynapse graph keys) ⟨fun _ => 0, [], []⟩ =
      .ok persisting) :
    ∃ carried, (carryForwardSynapticState live persisted).foldlM (planSynapse graph keys)
        ⟨fun _ => 0, [], []⟩ = .ok carried ∧
      lively.Alike keys (live.map SynapticState.triple).contains carried ∧
      persisting.Alike keys (fun triple => !(live.map SynapticState.triple).contains triple)
        carried := by
  have hstart : Importing.Alike keys
      (fun triple => !(live.map SynapticState.triple).contains triple)
      ⟨fun _ => 0, [], []⟩ lively := by
    refine foldlM_planSynapse_others (fun row hrow => ?_) hlively
    simpa using ⟨row, hrow, rfl⟩
  obtain ⟨carried, hcarried, hpersisted⟩ := foldlM_planSynapse_alike hstart hpersisting
  refine ⟨carried, ?_, ?_, hpersisted⟩
  · rw [carryForward_eq, List.foldlM_append, hlively]
    exact hcarried
  · refine foldlM_planSynapse_others (fun row hrow => ?_) hcarried
    simpa using (List.mem_filter.mp hrow).2

namespace PlasticityEngine

end PlasticityEngine

section Witness

-- Two slots, one in each direction of an edge.
def GraphOp.twoWay : List (GraphOp Rat Nat) :=
  [.addNode "a" "a" .File [] 0 0, .addNode "b" "b" .File [] 0 0,
    .addEdge 0 1 "calls" (1 / 2) .Bidirectional false 0, .finalize]

def SynapticState.calls (source target : String) (currentWeight : Rat) : SynapticState Rat where
  sourceLabel := source
  targetLabel := target
  relation := "calls"
  direction := some 1
  inhibitory := some false
  originalWeight := 1 / 2
  currentWeight := currentWeight
  strengthenCount := 3
  weakenCount := 1
  ltpApplied := false
  ltdApplied := false
  lastUsedQuery := 4

end Witness

end M1nd.Core
