import M1nd.Core.Plasticity.Moves
import Mathlib.Algebra.Order.BigOperators.Group.List
import Mathlib.Algebra.Order.Field.Basic

namespace M1nd.Core

variable {T : Type}

-- The signs that the tunables have.
structure PlasticityConfig.Signed (config : PlasticityConfig Rat Rat) : Prop where
  learningRate : 0 ≤ config.learningRate
  decayRate : 0 ≤ config.decayRate
  ltpBonus : 0 ≤ config.ltpBonus
  ltdPenalty : 0 ≤ config.ltdPenalty
  homeostaticCeiling : 0 ≤ config.homeostaticCeiling
  weightFloor : 0 ≤ config.weightFloor

namespace PlasticityEngine

variable {engine : PlasticityEngine Rat Rat} {state next : Learning Rat T}
  {R : Nat → Rat → Rat → Prop}

section Steps

variable {j : Nat} (hrefl : ∀ j w, R j w w)

include hrefl

theorem moves_hebbianEdge {actVal : List Rat} {srcAct : Rat}
    (hmove : ∀ edge before tgtAct, 0 < tgtAct → R edge before
      (min (before + engine.config.learningRate * srcAct * tgtAct) engine.config.weightCap))
    (hnext : engine.hebbianEdge actVal srcAct state j = some next) : state.Moves R next := by
  unfold hebbianEdge at hnext
  obtain ⟨tgt, -, hnext⟩ := Option.bind_eq_some_iff.mp hnext
  split at hnext
  · exact Option.some.inj hnext ▸ .refl hrefl state
  · dsimp only at hnext
    split at hnext
    · exact Option.some.inj hnext ▸ .refl hrefl state
    · rename_i hactive
      obtain ⟨current, hcurrent, hnext⟩ := Option.bind_eq_some_iff.mp hnext
      obtain ⟨written, hwritten, hnext⟩ := Option.bind_eq_some_iff.mp hnext
      obtain rfl := Option.some.inj hnext
      have hpos : 0 < actVal.getD tgt 0 := lt_of_not_ge fun hle => hactive (decide_eq_true hle)
      refine (Learning.moves_writeBoth hrefl (fun before hbefore => ?_) hwritten).of_graph rfl rfl
      rw [hcurrent] at hbefore
      obtain rfl := Option.some.inj hbefore
      exact hmove _ _ _ hpos

theorem moves_decayEdge
    (hmove : ∀ edge before, R edge before
      (max (before * (1 - engine.config.decayRate)) engine.config.weightFloor))
    (hnext : engine.decayEdge state j = some next) : state.Moves R next := by
  unfold decayEdge at hnext
  obtain ⟨current, hcurrent, hnext⟩ := Option.bind_eq_some_iff.mp hnext
  dsimp only at hnext
  split at hnext
  · obtain ⟨written, hwritten, hnext⟩ := Option.bind_eq_some_iff.mp hnext
    obtain rfl := Option.some.inj hnext
    refine (Learning.moves_writeBoth hrefl (fun before hbefore => ?_) hwritten).of_graph rfl rfl
    rw [hcurrent] at hbefore
    obtain rfl := Option.some.inj hbefore
    exact hmove _ _
  · exact Option.some.inj hnext ▸ .refl hrefl state

theorem moves_ltpEdge
    (hmove : ∀ edge before, R edge before
      (min (before + engine.config.ltpBonus) engine.config.weightCap))
    (hnext : engine.ltpEdge state j = some next) : state.Moves R next := by
  unfold ltpEdge at hnext
  dsimp only at hnext
  split at hnext
  · obtain ⟨current, hcurrent, hnext⟩ := Option.bind_eq_some_iff.mp hnext
    obtain ⟨written, hwritten, hnext⟩ := Option.bind_eq_some_iff.mp hnext
    obtain rfl := Option.some.inj hnext
    refine (Learning.moves_writeBoth hrefl (fun before hbefore => ?_) hwritten).of_graph rfl rfl
    rw [hcurrent] at hbefore
    obtain rfl := Option.some.inj hbefore
    exact hmove _ _
  · exact Option.some.inj hnext ▸ .refl hrefl state

theorem moves_ltdEdge
    (hmove : ∀ edge before, R edge before
      (max (before - engine.config.ltdPenalty) engine.config.weightFloor))
    (hnext : engine.ltdEdge state j = some next) : state.Moves R next := by
  unfold ltdEdge at hnext
  dsimp only at hnext
  split at hnext
  · obtain ⟨current, hcurrent, hnext⟩ := Option.bind_eq_some_iff.mp hnext
    obtain ⟨written, hwritten, hnext⟩ := Option.bind_eq_some_iff.mp hnext
    obtain rfl := Option.some.inj hnext
    refine (Learning.moves_writeBoth hrefl (fun before hbefore => ?_) hwritten).of_graph rfl rfl
    rw [hcurrent] at hbefore
    obtain rfl := Option.some.inj hbefore
    exact hmove _ _
  · exact Option.some.inj hnext ▸ .refl hrefl state

theorem moves_scaleEdge {scale : Rat}
    (hmove : ∀ forward before, state.graph.csr.revEdgeIdx[j]? = some forward →
      R forward before (before * scale))
    (hnext : engine.scaleEdge scale state j = some next) : state.Moves R next := by
  unfold scaleEdge at hnext
  obtain ⟨forward, hforward, hnext⟩ := Option.bind_eq_some_iff.mp hnext
  obtain ⟨current, hcurrent, hnext⟩ := Option.bind_eq_some_iff.mp hnext
  refine Learning.moves_writeBoth hrefl (fun before hbefore => ?_) hnext
  rw [hcurrent] at hbefore
  obtain rfl := Option.some.inj hbefore
  exact hmove forward _ hforward

variable (htrans : ∀ j u v w, R j u v → R j v w → R j u w)

include htrans

theorem moves_hebbianStrengthen {activated : List (Nat × Rat)}
    (hmove : ∀ node ∈ activated, ∀ edge before tgtAct, 0 < tgtAct → R edge before
      (min (before + engine.config.learningRate * node.2 * tgtAct) engine.config.weightCap))
    (hnext : engine.hebbianStrengthen activated state = some next) : state.Moves R next :=
  Learning.moves_foldlM hrefl htrans (fun node hnode _ _ _ hv =>
    Learning.moves_foldlM hrefl htrans (fun _ _ _ _ _ hx =>
      moves_hebbianEdge hrefl (hmove node hnode) hx) hv) hnext

theorem moves_synapticDecay {activatedSet : List Bool}
    (hmove : ∀ edge before, R edge before
      (max (before * (1 - engine.config.decayRate)) engine.config.weightFloor))
    (hnext : engine.synapticDecay activatedSet state = some next) : state.Moves R next := by
  refine Learning.moves_foldlM hrefl htrans (fun node _ u v _ hv => ?_) hnext
  split at hv
  · exact Option.some.inj hv ▸ .refl hrefl u
  · exact Learning.moves_foldlM hrefl htrans
      (fun _ _ _ _ _ hx => moves_decayEdge hrefl hmove hx) hv

theorem moves_applyLtpLtd
    (hltp : ∀ edge before, R edge before
      (min (before + engine.config.ltpBonus) engine.config.weightCap))
    (hltd : ∀ edge before, R edge before
      (max (before - engine.config.ltdPenalty) engine.config.weightFloor))
    (hnext : engine.applyLtpLtd state = some next) : state.Moves R next := by
  refine Learning.moves_foldlM hrefl htrans (fun j _ u v _ hv => ?_) hnext
  obtain ⟨mid, hmid, hv⟩ := Option.bind_eq_some_iff.mp hv
  exact (moves_ltpEdge hrefl hltp hmid).trans htrans (moves_ltdEdge hrefl hltd hv)

theorem moves_normalizeNode {i : Nat}
    (hmove : ∀ total, incomingWeight state.graph.csr (state.graph.csr.inRange i) = some total →
      engine.config.homeostaticCeiling < total → ∀ r ∈ state.graph.csr.inRange i,
        ∀ forward before, state.graph.csr.revEdgeIdx[r]? = some forward →
          R forward before (before * (engine.config.homeostaticCeiling / total)))
    (hnext : engine.normalizeNode state i = some next) : state.Moves R next := by
  unfold normalizeNode at hnext
  obtain ⟨total, htotal, hnext⟩ := Option.bind_eq_some_iff.mp hnext
  dsimp only at hnext
  split at hnext
  · rename_i hover
    obtain ⟨scaled, hscaled, hnext⟩ := Option.bind_eq_some_iff.mp hnext
    obtain rfl := Option.some.inj hnext
    have hmoves : state.Moves R scaled := ?_
    · exact hmoves.of_graph rfl rfl
    refine Learning.moves_foldlM hrefl htrans (fun r hr u v hu hv => ?_) hscaled
    refine moves_scaleEdge hrefl (fun forward before hforward => ?_) hv
    rw [hu.field CsrGraph.revEdgeIdx fun _ => rfl] at hforward
    exact hmove total htotal (of_decide_eq_true hover) r hr forward before hforward
  · exact Option.some.inj hnext ▸ .refl hrefl state

end Steps

section Cycle

variable {graph graph' : Graph Rat T} {activatedNodes : List (Nat × Rat)} {failures : List Nat}
  {strengthened decayed learned normalized : Learning Rat T}

def counted (engine : PlasticityEngine Rat Rat) : PlasticityEngine Rat Rat :=
  { engine with queryCount := (engine.queryCount + 1) % 2 ^ 32 }

-- The four steps of a learning cycle.
structure Cycle (engine : PlasticityEngine Rat Rat) (graph : Graph Rat T)
    (activatedNodes : List (Nat × Rat)) (failures : List Nat)
    (strengthened decayed learned normalized : Learning Rat T) : Prop where
  strengthens : engine.counted.hebbianStrengthen activatedNodes
    ⟨graph, failures, ⟨0, 0, 0, 0, 0⟩⟩ = some strengthened
  decays : engine.counted.synapticDecay (activatedNodes.foldl (fun set node => set.set node.1 true)
    (List.replicate graph.nodes.count false)) strengthened = some decayed
  learns : engine.counted.applyLtpLtd decayed = some learned
  normalizes : engine.counted.homeostaticNormalize learned = some normalized

theorem exists_cycle {result : PlasticityResult} {engine' : PlasticityEngine Rat Rat}
    (hnext : engine.update graph activatedNodes failures = some (result, engine', graph')) :
    ∃ strengthened decayed learned normalized,
      engine.Cycle graph activatedNodes failures strengthened decayed learned normalized ∧
      normalized.graph = graph' ∧ normalized.result = result := by
  unfold update at hnext
  obtain ⟨strengthened, hstrengthened, hnext⟩ := Option.bind_eq_some_iff.mp hnext
  obtain ⟨decayed, hdecayed, hnext⟩ := Option.bind_eq_some_iff.mp hnext
  obtain ⟨learned, hlearned, hnext⟩ := Option.bind_eq_some_iff.mp hnext
  obtain ⟨normalized, hnormalized, hnext⟩ := Option.bind_eq_some_iff.mp hnext
  split at hnext
  · exact absurd hnext nofun
  · obtain ⟨hresult, -, hgraph⟩ := Option.some.inj hnext
    exact ⟨strengthened, decayed, learned, normalized,
      ⟨hstrengthened, hdecayed, hlearned, hnormalized⟩, rfl, rfl⟩

end Cycle

section Inflow

variable {csr csr' : CsrGraph Rat} {range : List Nat} {total : Rat}

theorem foldlM_incomingWeight (start : Rat)
    (h : range.foldlM (fun total j => do
        let forward ← csr.revEdgeIdx[j]?
        let weight ← csr.weights[forward]?
        some (total + FiniteF32.get weight)) start = some total) :
    total = start + ((range.filterMap (csr.revEdgeIdx[·]?)).map (csr.weights.getD · 0)).sum ∧
      ∀ r ∈ range, ∃ forward, csr.revEdgeIdx[r]? = some forward ∧ forward < csr.weights.length := by
  induction range generalizing start with
  | nil =>
      obtain rfl := Option.some.inj h
      exact ⟨(add_zero _).symm, nofun⟩
  | cons r range ih =>
      rw [List.foldlM_cons] at h
      obtain ⟨next, hnext, hrest⟩ := Option.bind_eq_some_iff.mp h
      obtain ⟨forward, hforward, hnext⟩ := Option.bind_eq_some_iff.mp hnext
      obtain ⟨weight, hweight, hnext⟩ := Option.bind_eq_some_iff.mp hnext
      obtain rfl := Option.some.inj hnext
      obtain ⟨htotal, hall⟩ := ih _ hrest
      refine ⟨?_, List.forall_mem_cons.mpr
        ⟨⟨forward, hforward, (List.getElem?_eq_some_iff.mp hweight).1⟩, hall⟩⟩
      rw [htotal, List.filterMap_cons_some hforward, List.map_cons, List.sum_cons,
        List.getD_eq_getElem?_getD, hweight, Option.getD_some, add_assoc]
      rfl

theorem incomingWeight_eq (h : incomingWeight csr range = some total) :
    total = ((range.filterMap (csr.revEdgeIdx[·]?)).map (csr.weights.getD · 0)).sum ∧
      ∀ r ∈ range, ∃ forward, csr.revEdgeIdx[r]? = some forward ∧ forward < csr.weights.length := by
  have hfold := foldlM_incomingWeight 0 h
  rwa [zero_add] at hfold

theorem exists_foldlM_incomingWeight (start : Rat)
    (h : ∀ r ∈ range, ∃ forward, csr.revEdgeIdx[r]? = some forward ∧
      forward < csr.weights.length) :
    ∃ total, range.foldlM (fun total j => do
        let forward ← csr.revEdgeIdx[j]?
        let weight ← csr.weights[forward]?
        some (total + FiniteF32.get weight)) start = some total := by
  induction range generalizing start with
  | nil => exact ⟨start, rfl⟩
  | cons r range ih =>
      obtain ⟨⟨forward, hforward, hlt⟩, hrest⟩ := List.forall_mem_cons.mp h
      obtain ⟨total, htotal⟩ := ih (start + FiniteF32.get csr.weights[forward]) hrest
      refine ⟨total, ?_⟩
      rw [List.foldlM_cons]
      refine Option.bind_eq_some_iff.mpr ⟨_, ?_, htotal⟩
      refine Option.bind_eq_some_iff.mpr ⟨forward, hforward, ?_⟩
      exact Option.bind_eq_some_iff.mpr ⟨_, List.getElem?_eq_getElem hlt, rfl⟩

-- The inflow is at least what it becomes when the weights drop.
theorem exists_incomingWeight_ge (hrev : csr'.revEdgeIdx = csr.revEdgeIdx)
    (hlength : csr'.weights.length = csr.weights.length)
    (hle : ∀ j, csr'.weights.getD j 0 ≤ csr.weights.getD j 0)
    (h : incomingWeight csr' range = some total) :
    ∃ larger, incomingWeight csr range = some larger ∧ total ≤ larger := by
  obtain ⟨rfl, hall⟩ := incomingWeight_eq h
  rw [hrev, hlength] at hall
  obtain ⟨larger, hlarger⟩ := exists_foldlM_incomingWeight 0 hall
  refine ⟨larger, hlarger, ?_⟩
  rw [(incomingWeight_eq hlarger).1, hrev]
  exact List.sum_le_sum fun j _ => hle j

end Inflow

section Range

variable {graph graph' : Graph Rat T} {activatedNodes : List (Nat × Rat)} {failures : List Nat}
  {strengthened decayed learned normalized : Learning Rat T}

-- The weight lies between the floor and the cap.
def InRange (engine : PlasticityEngine Rat Rat) (weight : Rat) : Prop :=
  engine.config.weightFloor ≤ weight ∧ weight ≤ engine.config.weightCap

-- A slot that ends in a node with too much inflow is scaled down.
def Rescales (engine : PlasticityEngine Rat Rat) (learned : Learning Rat T) (j : Nat) : Prop :=
  ∃ node total, (∃ r ∈ learned.graph.csr.inRange node, learned.graph.csr.revEdgeIdx[r]? = some j) ∧
    incomingWeight learned.graph.csr (learned.graph.csr.inRange node) = some total ∧
      engine.config.homeostaticCeiling < total

-- What a weight in the range can become before the normalization.
def Kept (engine : PlasticityEngine Rat Rat) (_ : Nat) (before after : Rat) : Prop :=
  engine.InRange before → engine.InRange after

-- What a weight in the range can become in the decay.
def Faded (engine : PlasticityEngine Rat Rat) (_ : Nat) (before after : Rat) : Prop :=
  engine.InRange before → engine.InRange after ∧ after ≤ before

-- What a weight can become in the normalization.
def Normalized (engine : PlasticityEngine Rat Rat) (learned : Learning Rat T) (j : Nat)
    (before after : Rat) : Prop :=
  (0 ≤ before → 0 ≤ after ∧ after ≤ before) ∧ (after = before ∨ engine.Rescales learned j)

theorem kept_trans (j : Nat) (u v w : Rat) (huv : engine.Kept j u v) (hvw : engine.Kept j v w) :
    engine.Kept j u w :=
  fun hu => hvw (huv hu)

theorem faded_trans (j : Nat) (u v w : Rat) (huv : engine.Faded j u v) (hvw : engine.Faded j v w) :
    engine.Faded j u w := by
  intro hu
  obtain ⟨hv, hle⟩ := huv hu
  obtain ⟨hw, hle'⟩ := hvw hv
  exact ⟨hw, hle'.trans hle⟩

theorem normalized_refl (j : Nat) (w : Rat) : engine.Normalized learned j w w :=
  ⟨fun hw => ⟨hw, le_refl w⟩, .inl rfl⟩

theorem normalized_trans (j : Nat) (u v w : Rat) (huv : engine.Normalized learned j u v)
    (hvw : engine.Normalized learned j v w) : engine.Normalized learned j u w := by
  refine ⟨fun hu => ?_, ?_⟩
  · obtain ⟨hv, hle⟩ := huv.1 hu
    obtain ⟨hw, hle'⟩ := hvw.1 hv
    exact ⟨hw, hle'.trans hle⟩
  · obtain he | hrescales := huv.2
    · exact he ▸ hvw.2
    · exact .inr hrescales

theorem kept_strengthen (hconfig : engine.config.Signed) {score tgtAct : Rat} (hscore : 0 ≤ score)
    (htgt : 0 < tgtAct) (edge : Nat) (before : Rat) :
    engine.Kept edge before
      (min (before + engine.config.learningRate * score * tgtAct) engine.config.weightCap) := by
  rintro ⟨hfloor, hcap⟩
  have hdelta := mul_nonneg (mul_nonneg hconfig.learningRate hscore) (le_of_lt htgt)
  exact ⟨le_min (by linarith) (hfloor.trans hcap), min_le_right _ _⟩

theorem faded_decay (hconfig : engine.config.Signed) (edge : Nat) (before : Rat) :
    engine.Faded edge before
      (max (before * (1 - engine.config.decayRate)) engine.config.weightFloor) := by
  rintro ⟨hfloor, hcap⟩
  have hloss := mul_nonneg (hconfig.weightFloor.trans hfloor) hconfig.decayRate
  have hle : max (before * (1 - engine.config.decayRate)) engine.config.weightFloor ≤ before :=
    max_le (by linarith) hfloor
  exact ⟨⟨le_max_right _ _, hle.trans hcap⟩, hle⟩

theorem kept_ltp (hconfig : engine.config.Signed) (edge : Nat) (before : Rat) :
    engine.Kept edge before
      (min (before + engine.config.ltpBonus) engine.config.weightCap) := by
  rintro ⟨hfloor, hcap⟩
  have hbonus := hconfig.ltpBonus
  exact ⟨le_min (by linarith) (hfloor.trans hcap), min_le_right _ _⟩

theorem kept_ltd (hconfig : engine.config.Signed) (edge : Nat) (before : Rat) :
    engine.Kept edge before
      (max (before - engine.config.ltdPenalty) engine.config.weightFloor) := by
  rintro ⟨hfloor, hcap⟩
  have hpenalty := hconfig.ltdPenalty
  exact ⟨le_max_right _ _, max_le (by linarith) (hfloor.trans hcap)⟩

-- The inflow that a node has in the loop is at most the one it had before.
theorem moves_homeostaticNormalize (hceiling : 0 ≤ engine.config.homeostaticCeiling)
    (hpositive : ∀ weight ∈ learned.graph.csr.weights, 0 ≤ weight)
    (hnext : engine.homeostaticNormalize learned = some normalized) :
    learned.Moves (engine.Normalized learned) normalized := by
  refine Learning.moves_foldlM normalized_refl normalized_trans (fun node _ u v hu hv => ?_) hnext
  have hrev : u.graph.csr.revEdgeIdx = learned.graph.csr.revEdgeIdx :=
    hu.field CsrGraph.revEdgeIdx fun _ => rfl
  have hrange : u.graph.csr.inRange node = learned.graph.csr.inRange node :=
    hu.field (fun csr => csr.inRange node) fun _ => rfl
  refine moves_normalizeNode normalized_refl normalized_trans ?_ hv
  intro total htotal hover r hr forward before hforward
  rw [hrange] at htotal hr
  rw [hrev] at hforward
  have hscale : 0 ≤ engine.config.homeostaticCeiling / total ∧
      engine.config.homeostaticCeiling / total ≤ 1 := by
    have hpos : 0 < total := lt_of_le_of_lt hceiling hover
    exact ⟨div_nonneg hceiling (le_of_lt hpos), (div_le_one hpos).mpr (le_of_lt hover)⟩
  refine ⟨fun hbefore => ⟨mul_nonneg hbefore hscale.1, mul_le_of_le_one_right hbefore hscale.2⟩,
    .inr ⟨node, ?_⟩⟩
  have hle : ∀ j, u.graph.csr.weights.getD j 0 ≤ learned.graph.csr.weights.getD j 0 := by
    intro j
    rw [List.getD_eq_getElem?_getD, List.getD_eq_getElem?_getD]
    by_cases hj : j < learned.graph.csr.weights.length
    · have hj' : j < u.graph.csr.weights.length := hu.length ▸ hj
      have hslot := hu.slots j _ _ (List.getElem?_eq_getElem hj) (List.getElem?_eq_getElem hj')
      rw [List.getElem?_eq_getElem hj, List.getElem?_eq_getElem hj']
      exact (hslot.1 (hpositive _ (List.getElem_mem hj))).2
    · rw [List.getElem?_eq_none (Nat.le_of_not_lt hj),
        List.getElem?_eq_none (hu.length ▸ Nat.le_of_not_lt hj)]
  obtain ⟨larger, hlarger, htotal⟩ := exists_incomingWeight_ge hrev hu.length hle htotal
  exact ⟨larger, ⟨r, hr, hforward⟩, hlarger, lt_of_lt_of_le hover htotal⟩

theorem Cycle.moves_strengthens (hconfig : engine.config.Signed)
    (hscores : ∀ node ∈ activatedNodes, 0 ≤ node.2)
    (h : engine.Cycle graph activatedNodes failures strengthened decayed learned normalized) :
    (⟨graph, failures, ⟨0, 0, 0, 0, 0⟩⟩ : Learning Rat T).Moves engine.Kept strengthened := by
  refine moves_hebbianStrengthen (fun _ _ hw => hw) kept_trans ?_ h.strengthens
  intro node hnode edge before tgtAct htgt
  exact kept_strengthen hconfig (hscores node hnode) htgt edge before

theorem Cycle.moves_decays (hconfig : engine.config.Signed)
    (h : engine.Cycle graph activatedNodes failures strengthened decayed learned normalized) :
    strengthened.Moves engine.Faded decayed := by
  refine moves_synapticDecay (fun _ w hw => ⟨hw, le_refl w⟩) faded_trans ?_ h.decays
  exact faded_decay hconfig

theorem Cycle.moves_learns (hconfig : engine.config.Signed)
    (h : engine.Cycle graph activatedNodes failures strengthened decayed learned normalized) :
    decayed.Moves engine.Kept learned := by
  refine moves_applyLtpLtd (fun _ _ hw => hw) kept_trans ?_ ?_ h.learns
  · exact kept_ltp hconfig
  · exact kept_ltd hconfig

-- Before the normalization all weights are in the range.
theorem Cycle.moves_kept (hconfig : engine.config.Signed)
    (hscores : ∀ node ∈ activatedNodes, 0 ≤ node.2)
    (h : engine.Cycle graph activatedNodes failures strengthened decayed learned normalized) :
    (⟨graph, failures, ⟨0, 0, 0, 0, 0⟩⟩ : Learning Rat T).Moves engine.Kept learned :=
  ((h.moves_strengthens hconfig hscores).trans kept_trans
    ((h.moves_decays hconfig).mono fun _ _ _ hfaded hw => (hfaded hw).1)).trans kept_trans
      (h.moves_learns hconfig)

theorem inRange_of_moves {state next : Learning Rat T} (hmoves : state.Moves engine.Kept next)
    (hrange : ∀ weight ∈ state.graph.csr.weights, engine.InRange weight) :
    ∀ weight ∈ next.graph.csr.weights, engine.InRange weight := by
  intro weight hweight
  obtain ⟨j, hj, rfl⟩ := List.mem_iff_getElem.mp hweight
  have hlt : j < state.graph.csr.weights.length := hmoves.length ▸ hj
  exact hmoves.slots j _ _ (List.getElem?_eq_getElem hlt) (List.getElem?_eq_getElem hj)
    (hrange _ (List.getElem_mem hlt))

-- After an update every weight is at most the cap, and below the floor only where the
-- normalization has scaled down the inflow of the target. The decay raises no weight.
theorem weights_in_range {result : PlasticityResult} {engine' : PlasticityEngine Rat Rat}
    (hconfig : engine.config.Signed) (hscores : ∀ node ∈ activatedNodes, 0 ≤ node.2)
    (hrange : ∀ weight ∈ graph.csr.weights, engine.InRange weight)
    (hnext : engine.update graph activatedNodes failures = some (result, engine', graph')) :
    ∃ strengthened decayed learned normalized,
      engine.Cycle graph activatedNodes failures strengthened decayed learned normalized ∧
      normalized.graph = graph' ∧
      (∀ (j : Nat) (before after : Rat), strengthened.graph.csr.weights[j]? = some before →
        decayed.graph.csr.weights[j]? = some after → after ≤ before) ∧
      ∀ (j : Nat) (weight : Rat), graph'.csr.weights[j]? = some weight →
        0 ≤ weight ∧ weight ≤ engine.config.weightCap ∧
          (engine.config.weightFloor ≤ weight ∨ engine.Rescales learned j) := by
  obtain ⟨strengthened, decayed, learned, normalized, hcycle, hgraph, -⟩ := exists_cycle hnext
  refine ⟨strengthened, decayed, learned, normalized, hcycle, hgraph, ?_, ?_⟩
  · intro j before after hbefore hafter
    have hstrengthened := inRange_of_moves (hcycle.moves_strengthens hconfig hscores) hrange
    exact ((hcycle.moves_decays hconfig).slots j before after hbefore hafter
      (hstrengthened before (List.mem_of_getElem? hbefore))).2
  · intro j weight hweight
    have hlearned := inRange_of_moves (hcycle.moves_kept hconfig hscores) hrange
    have hnormalized : learned.Moves (engine.counted.Normalized learned) normalized :=
      moves_homeostaticNormalize hconfig.homeostaticCeiling
        (fun before hbefore => hconfig.weightFloor.trans (hlearned before hbefore).1)
        hcycle.normalizes
    rw [← hgraph] at hweight
    have hlt : j < learned.graph.csr.weights.length :=
      hnormalized.length ▸ (List.getElem?_eq_some_iff.mp hweight).1
    obtain ⟨hfloor, hcap⟩ := hlearned _ (List.getElem_mem hlt)
    obtain ⟨hpositive, hkept⟩ :=
      hnormalized.slots j _ weight (List.getElem?_eq_getElem hlt) hweight
    obtain ⟨hweight0, hle⟩ := hpositive (hconfig.weightFloor.trans hfloor)
    refine ⟨hweight0, hle.trans hcap, ?_⟩
    obtain rfl | hrescales := hkept
    · exact .inl hfloor
    · exact .inr hrescales

end Range

end PlasticityEngine

section Converging

-- The tunables that an engine has by default.
def PlasticityConfig.default : PlasticityConfig Rat Rat where
  learningRate := 8 / 100
  decayRate := 5 / 1000
  ltpThreshold := 5
  ltdThreshold := 5
  ltpBonus := 15 / 100
  ltdPenalty := 15 / 100
  homeostaticCeiling := 5
  weightFloor := 5 / 100
  weightCap := 3
  memoryCapacity := 1000
  casRetryLimit := 64

theorem PlasticityConfig.signed_default : default.Signed where
  learningRate := by decide +kernel
  decayRate := by decide +kernel
  ltpBonus := by decide +kernel
  ltdPenalty := by decide +kernel
  homeostaticCeiling := by decide +kernel
  weightFloor := by decide +kernel

-- Three edges end in one node, one of them at the floor and the others at the cap.
def GraphOp.converging : List (GraphOp Rat Nat) :=
  [.addNode "a" "a" .File [] 0 0, .addNode "b" "b" .File [] 0 0, .addNode "c" "c" .File [] 0 0,
    .addNode "t" "t" .File [] 0 0, .addEdge 0 3 "calls" 3 .Forward false 0,
    .addEdge 1 3 "calls" 3 .Forward false 0, .addEdge 2 3 "calls" (5 / 100) .Forward false 0]

-- An edge at the floor.
def GraphOp.faint : List (GraphOp Rat Nat) :=
  [.addNode "a" "a" .File [] 0 0, .addNode "b" "b" .File [] 0 0,
    .addEdge 0 1 "calls" (5 / 100) .Forward false 0]

namespace PlasticityEngine

-- All weights are in the range, and an update ends with these weights and rescales.
def Scaled (ops : List (GraphOp Rat Nat)) (activatedNodes : List (Nat × Rat))
    (weights : List Rat) (rescales : Nat) : Prop :=
  (∀ weight ∈ (GraphOp.run ops).finalize.csr.weights, (new .default).InRange weight) ∧
    ((new .default).update (GraphOp.run ops).finalize activatedNodes []).map
      (fun next => (next.2.2.csr.weights, next.1.homeostaticRescales)) = some (weights, rescales)

theorem scaled_converging :
    Scaled GraphOp.converging [(0, 1), (1, 1), (2, 1)] [300 / 121, 300 / 121, 5 / 121] 1 := by
  have hedges : (GraphOp.run GraphOp.converging).finalize =
      (GraphOp.run GraphOp.converging).rebuildCsr := rfl
  have hsorted : placements (GraphOp.run GraphOp.converging).csr.pendingEdges = _ :=
    placements_of_sorted (by decide +kernel)
  unfold Scaled InRange
  rw [hedges, Graph.rebuildCsr, hsorted]
  decide +kernel

theorem scaled_faint : Scaled GraphOp.faint [(0, -1), (1, 1)] [-3 / 100] 0 := by
  have hedges : (GraphOp.run GraphOp.faint).finalize =
      (GraphOp.run GraphOp.faint).rebuildCsr := rfl
  have hsorted : placements (GraphOp.run GraphOp.faint).csr.pendingEdges = _ :=
    placements_of_sorted (by decide +kernel)
  unfold Scaled InRange
  rw [hedges, Graph.rebuildCsr, hsorted]
  decide +kernel

theorem Scaled.exists_update {ops : List (GraphOp Rat Nat)} {activatedNodes : List (Nat × Rat)}
    {weights : List Rat} {rescales : Nat} (h : Scaled ops activatedNodes weights rescales) :
    ∃ result engine' graph', (new .default).update (GraphOp.run ops).finalize activatedNodes [] =
      some (result, engine', graph') ∧ graph'.csr.weights = weights ∧
        result.homeostaticRescales = rescales := by
  obtain ⟨⟨result, engine', graph'⟩, hnext, hscaled⟩ := Option.map_eq_some_iff.mp h.2
  obtain ⟨hweights, hrescales⟩ := Prod.mk.inj hscaled
  exact ⟨result, engine', graph', hnext, hweights, hrescales⟩

theorem converging_in_range :
    ∃ result engine' graph', (new .default).update (GraphOp.run GraphOp.converging).finalize
      [(0, 1), (1, 1), (2, 1)] [] = some (result, engine', graph') ∧
      ∃ strengthened decayed learned normalized,
        (new .default).Cycle (GraphOp.run GraphOp.converging).finalize [(0, 1), (1, 1), (2, 1)] []
          strengthened decayed learned normalized ∧
        normalized.graph = graph' ∧
        (∀ (j : Nat) (before after : Rat), strengthened.graph.csr.weights[j]? = some before →
          decayed.graph.csr.weights[j]? = some after → after ≤ before) ∧
        ∀ (j : Nat) (weight : Rat), graph'.csr.weights[j]? = some weight →
          0 ≤ weight ∧ weight ≤ (new .default).config.weightCap ∧
            ((new .default).config.weightFloor ≤ weight ∨ (new .default).Rescales learned j) := by
  obtain ⟨result, engine', graph', hnext, -⟩ := scaled_converging.exists_update
  exact ⟨result, engine', graph', hnext, weights_in_range PlasticityConfig.signed_default
    (by decide +kernel) scaled_converging.1 hnext⟩

-- The normalization scales a weight at the floor to below it. An active source with a negative
-- score strengthens its edge by a negative amount.
theorem weight_leaves_range :
    (¬ ∀ (ops : List (GraphOp Rat Nat)) (activatedNodes : List (Nat × Rat))
      (result : PlasticityResult) (engine' : PlasticityEngine Rat Rat) (graph' : Graph Rat Nat),
      (∀ node ∈ activatedNodes, 0 ≤ node.2) →
      (∀ weight ∈ (GraphOp.run ops).finalize.csr.weights, (new .default).InRange weight) →
      (new .default).update (GraphOp.run ops).finalize activatedNodes [] =
        some (result, engine', graph') →
      ∀ weight ∈ graph'.csr.weights, (new .default).InRange weight) ∧
    ¬ ∀ (ops : List (GraphOp Rat Nat)) (activatedNodes : List (Nat × Rat))
      (result : PlasticityResult) (engine' : PlasticityEngine Rat Rat) (graph' : Graph Rat Nat),
      (∀ weight ∈ (GraphOp.run ops).finalize.csr.weights, (new .default).InRange weight) →
      (new .default).update (GraphOp.run ops).finalize activatedNodes [] =
        some (result, engine', graph') →
      result.homeostaticRescales = 0 →
      ∀ weight ∈ graph'.csr.weights, (new .default).InRange weight := by
  constructor
  · intro h
    obtain ⟨result, engine', graph', hnext, hweights, -⟩ := scaled_converging.exists_update
    have hrange := h _ _ result engine' graph' (by decide +kernel) scaled_converging.1 hnext
      (5 / 121) (hweights ▸ by decide +kernel)
    exact absurd hrange.1 (by decide +kernel)
  · intro h
    obtain ⟨result, engine', graph', hnext, hweights, hrescales⟩ := scaled_faint.exists_update
    have hrange := h _ _ result engine' graph' scaled_faint.1 hnext hrescales
      (-3 / 100) (hweights ▸ by decide +kernel)
    exact absurd hrange.1 (by decide +kernel)

end PlasticityEngine

end Converging

end M1nd.Core
