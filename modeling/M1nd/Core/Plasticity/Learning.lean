import M1nd.Core.Plasticity
import M1nd.Core.Snapshot.Kept

namespace M1nd.Core

open M1nd.Library.Loops M1nd.Library.Runs

variable {W F T : Type}

section Writes

-- A mark leaves the weights and the lengths of the arrays as they are.
structure EdgePlasticity.IsMark (mark : EdgePlasticity W → EdgePlasticity W) : Prop where
  currentWeight : ∀ plasticity, (mark plasticity).currentWeight = plasticity.currentWeight
  hasLength : ∀ plasticity size, plasticity.HasLength size → (mark plasticity).HasLength size

theorem EdgePlasticity.isMark_id : IsMark (id : EdgePlasticity W → EdgePlasticity W) where
  currentWeight _ := rfl
  hasLength _ _ h := h

theorem EdgePlasticity.isMark_markStrengthened (slot query : Nat) :
    IsMark (markStrengthened slot query : EdgePlasticity W → EdgePlasticity W) where
  currentWeight _ := rfl
  hasLength _ _ h := ⟨h.originalWeight, h.currentWeight,
    (List.length_modify _ _ _).trans h.strengthenCount, h.weakenCount, h.ltpApplied, h.ltdApplied,
    List.length_set.trans h.lastUsedQuery⟩

theorem EdgePlasticity.isMark_markWeakened (slot : Nat) :
    IsMark (markWeakened slot : EdgePlasticity W → EdgePlasticity W) where
  currentWeight _ := rfl
  hasLength _ _ h := ⟨h.originalWeight, h.currentWeight, h.strengthenCount,
    (List.length_modify _ _ _).trans h.weakenCount, h.ltpApplied, h.ltdApplied, h.lastUsedQuery⟩

theorem EdgePlasticity.isMark_markLtp (slot : Nat) :
    IsMark (markLtp slot : EdgePlasticity W → EdgePlasticity W) where
  currentWeight _ := rfl
  hasLength _ _ h := ⟨h.originalWeight, h.currentWeight, h.strengthenCount, h.weakenCount,
    List.length_set.trans h.ltpApplied, h.ltdApplied, h.lastUsedQuery⟩

theorem EdgePlasticity.isMark_markLtd (slot : Nat) :
    IsMark (markLtd slot : EdgePlasticity W → EdgePlasticity W) where
  currentWeight _ := rfl
  hasLength _ _ h := ⟨h.originalWeight, h.currentWeight, h.strengthenCount, h.weakenCount,
    h.ltpApplied, List.length_set.trans h.ltdApplied, h.lastUsedQuery⟩

variable {start : Graph W T} {state next : Learning W T} {limit : Nat}

-- The cycle began with `start`, where a u32 names every slot and every staged edge, and every
-- write succeeds in time.
structure Learning.Steady (limit : Nat) (start : Graph W T) (state : Learning W T) : Prop where
  kept : state.graph.Kept
  rewritten : start.Rewritten state.graph
  bounded : start.csr.targets.length + start.csr.pendingEdges.length ≤ 2 ^ 32
  positive : 0 < limit
  failures : ∀ count ∈ state.failures, count < limit

theorem Learning.Steady.of_graph (h : state.Steady limit start)
    (hgraph : next.graph = state.graph) (hfailures : next.failures = state.failures) :
    next.Steady limit start where
  kept := hgraph ▸ h.kept
  rewritten := hgraph ▸ h.rewritten
  bounded := h.bounded
  positive := h.positive
  failures := by
    rw [hfailures]
    exact h.failures

theorem Learning.Steady.edgeIdx (h : state.Steady limit start) {j : Nat}
    (hj : j < start.csr.targets.length + start.csr.pendingEdges.length) : EdgeIdx.new j = j :=
  Nat.mod_eq_of_lt (Nat.lt_of_lt_of_le hj h.bounded)

-- The write reaches both arrays at the same place.
theorem Learning.Steady.writeBoth (h : state.Steady limit start) {edge slot : Nat} {newWeight : W}
    {mark : EdgePlasticity W → EdgePlasticity W} (hmark : EdgePlasticity.IsMark mark)
    (he : edge = slot) (hnext : state.writeBoth limit edge slot newWeight mark = some next) :
    next.Steady limit start := by
  subst he
  have hsucceeds : state.failures.headD 0 < limit := by
    cases hfailures : state.failures with
    | nil => exact h.positive
    | cons count rest =>
        refine h.failures count ?_
        rw [hfailures]
        exact List.mem_cons_self
  unfold Learning.writeBoth CsrGraph.atomicWriteWeight at hnext
  by_cases hedge : state.graph.csr.weights.length ≤ edge
  · rw [if_pos hedge] at hnext
    exact absurd hnext nofun
  · rw [if_neg hedge, if_pos hsucceeds] at hnext
    obtain rfl := Option.some.inj hnext
    have hwritten : state.graph.Rewritten { state.graph with
        csr := state.graph.csr.storeWeight edge newWeight
        edgePlasticity := mark {
          state.graph.edgePlasticity with
          currentWeight := state.graph.edgePlasticity.currentWeight.set edge newWeight } } := by
      refine ⟨rfl, rfl, List.length_set, fun size hsize => hmark.hasLength _ _ ?_, rfl⟩
      exact ⟨hsize.originalWeight, List.length_set.trans hsize.currentWeight,
        hsize.strengthenCount, hsize.weakenCount, hsize.ltpApplied, hsize.ltdApplied,
        hsize.lastUsedQuery⟩
    constructor
    case kept =>
      exact h.kept.rewritten hwritten
        (h.kept.inStep.set (.inl (Nat.lt_of_not_le hedge)) rfl (hmark.currentWeight _) rfl)
    case rewritten => exact h.rewritten.trans hwritten
    case bounded => exact h.bounded
    case positive => exact h.positive
    case failures => exact fun count hcount => h.failures count (List.mem_of_mem_tail hcount)

end Writes

namespace PlasticityEngine

variable [FiniteF32 W F] [Float32 F] {engine : PlasticityEngine W F} {start : Graph W T}
  {state next : Learning W T} {j : Nat}

theorem steady_hebbianEdge {actVal : List F} {srcAct : W}
    (h : state.Steady engine.config.casRetryLimit start)
    (hnext : engine.hebbianEdge actVal srcAct state j = some next) :
    next.Steady engine.config.casRetryLimit start := by
  unfold hebbianEdge at hnext
  obtain ⟨tgt, htgt, hnext⟩ := Option.bind_eq_some_iff.mp hnext
  have hj := (List.getElem?_eq_some_iff.mp htgt).1
  rw [h.rewritten.targets] at hj
  split at hnext
  · exact Option.some.inj hnext ▸ h
  · dsimp only at hnext
    split at hnext
    · exact Option.some.inj hnext ▸ h
    · obtain ⟨current, -, hnext⟩ := Option.bind_eq_some_iff.mp hnext
      obtain ⟨written, hwritten, hnext⟩ := Option.bind_eq_some_iff.mp hnext
      have hsteady := h.writeBoth (EdgePlasticity.isMark_markStrengthened j engine.queryCount)
        (h.edgeIdx (by omega)) hwritten
      obtain rfl := Option.some.inj hnext
      exact hsteady.of_graph rfl rfl

theorem steady_hebbianStrengthen {activated : List (Nat × W)}
    (h : state.Steady engine.config.casRetryLimit start)
    (hnext : engine.hebbianStrengthen activated state = some next) :
    next.Steady engine.config.casRetryLimit start :=
  foldlM_keeps _ h (fun _ hu _ _ _ hv =>
    foldlM_keeps _ hu (fun _ hw _ _ _ hx => steady_hebbianEdge hw hx) hv) hnext

theorem steady_decayEdge (h : state.Steady engine.config.casRetryLimit start)
    (hj : j < start.csr.targets.length) (hnext : engine.decayEdge state j = some next) :
    next.Steady engine.config.casRetryLimit start := by
  unfold decayEdge at hnext
  obtain ⟨current, -, hnext⟩ := Option.bind_eq_some_iff.mp hnext
  dsimp only at hnext
  split at hnext
  · obtain ⟨written, hwritten, hnext⟩ := Option.bind_eq_some_iff.mp hnext
    have hsteady := h.writeBoth (EdgePlasticity.isMark_markWeakened j)
      (h.edgeIdx (by omega)) hwritten
    obtain rfl := Option.some.inj hnext
    exact hsteady.of_graph rfl rfl
  · exact Option.some.inj hnext ▸ h

theorem steady_synapticDecay {activatedSet : List Bool}
    (h : state.Steady engine.config.casRetryLimit start)
    (hnext : engine.synapticDecay activatedSet state = some next) :
    next.Steady engine.config.casRetryLimit start := by
  refine foldlM_keeps _ h (fun u hu node _ v hv => ?_) hnext
  split at hv
  · exact Option.some.inj hv ▸ hu
  · refine foldlM_keeps _ hu (fun w hw j hj x hx => steady_decayEdge hw ?_ hx) hv
    rw [← hu.rewritten.targets]
    exact hu.kept.listed.mem_outRange_lt hj

theorem steady_ltpEdge (h : state.Steady engine.config.casRetryLimit start)
    (hj : j < start.csr.targets.length + start.csr.pendingEdges.length)
    (hnext : engine.ltpEdge state j = some next) :
    next.Steady engine.config.casRetryLimit start := by
  unfold ltpEdge at hnext
  dsimp only at hnext
  split at hnext
  · obtain ⟨current, -, hnext⟩ := Option.bind_eq_some_iff.mp hnext
    obtain ⟨written, hwritten, hnext⟩ := Option.bind_eq_some_iff.mp hnext
    have hsteady := h.writeBoth (EdgePlasticity.isMark_markLtp j) (h.edgeIdx hj) hwritten
    obtain rfl := Option.some.inj hnext
    exact hsteady.of_graph rfl rfl
  · exact Option.some.inj hnext ▸ h

theorem steady_ltdEdge (h : state.Steady engine.config.casRetryLimit start)
    (hj : j < start.csr.targets.length + start.csr.pendingEdges.length)
    (hnext : engine.ltdEdge state j = some next) :
    next.Steady engine.config.casRetryLimit start := by
  unfold ltdEdge at hnext
  dsimp only at hnext
  split at hnext
  · obtain ⟨current, -, hnext⟩ := Option.bind_eq_some_iff.mp hnext
    obtain ⟨written, hwritten, hnext⟩ := Option.bind_eq_some_iff.mp hnext
    have hsteady := h.writeBoth (EdgePlasticity.isMark_markLtd j) (h.edgeIdx hj) hwritten
    obtain rfl := Option.some.inj hnext
    exact hsteady.of_graph rfl rfl
  · exact Option.some.inj hnext ▸ h

theorem steady_applyLtpLtd (h : state.Steady engine.config.casRetryLimit start)
    (hnext : engine.applyLtpLtd state = some next) :
    next.Steady engine.config.casRetryLimit start := by
  refine foldlM_keeps _ h (fun u hu j hj v hv => ?_) hnext
  rw [List.mem_range, h.kept.listed.synapses.strengthenCount, h.rewritten.targets,
    h.rewritten.pendingEdges] at hj
  obtain ⟨potentiated, hpotentiated, hv⟩ := Option.bind_eq_some_iff.mp hv
  exact steady_ltdEdge (steady_ltpEdge hu hj hpotentiated) hj hv

theorem steady_scaleEdge {scale : F} (h : state.Steady engine.config.casRetryLimit start)
    (hnext : engine.scaleEdge scale state j = some next) :
    next.Steady engine.config.casRetryLimit start := by
  unfold scaleEdge at hnext
  obtain ⟨forward, -, hnext⟩ := Option.bind_eq_some_iff.mp hnext
  obtain ⟨current, -, hnext⟩ := Option.bind_eq_some_iff.mp hnext
  exact h.writeBoth EdgePlasticity.isMark_id rfl hnext

theorem steady_normalizeNode {i : Nat} (h : state.Steady engine.config.casRetryLimit start)
    (hnext : engine.normalizeNode state i = some next) :
    next.Steady engine.config.casRetryLimit start := by
  unfold normalizeNode at hnext
  obtain ⟨total, -, hnext⟩ := Option.bind_eq_some_iff.mp hnext
  dsimp only at hnext
  split at hnext
  · obtain ⟨scaled, hscaled, hnext⟩ := Option.bind_eq_some_iff.mp hnext
    have hsteady : scaled.Steady engine.config.casRetryLimit start :=
      foldlM_keeps _ h (fun _ hu _ _ _ hv => steady_scaleEdge hu hv) hscaled
    obtain rfl := Option.some.inj hnext
    exact hsteady.of_graph rfl rfl
  · exact Option.some.inj hnext ▸ h

theorem steady_homeostaticNormalize (h : state.Steady engine.config.casRetryLimit start)
    (hnext : engine.homeostaticNormalize state = some next) :
    next.Steady engine.config.casRetryLimit start :=
  foldlM_keeps _ h (fun _ hu _ _ _ hv => steady_normalizeNode hu hv) hnext

-- A learning cycle whose writes all succeed keeps both arrays in step.
theorem kept_update {activatedNodes : List (Nat × W)} {failures : List Nat}
    {result : PlasticityResult} {engine' : PlasticityEngine W F} {graph : Graph W T}
    (h : start.Kept) (hbound : start.csr.targets.length + start.csr.pendingEdges.length ≤ 2 ^ 32)
    (hpositive : 0 < engine.config.casRetryLimit)
    (hfailures : ∀ count ∈ failures, count < engine.config.casRetryLimit)
    (hnext : engine.update start activatedNodes failures = some (result, engine', graph)) :
    graph.Kept := by
  unfold update at hnext
  generalize hcycle : ({ engine with queryCount := (engine.queryCount + 1) % 2 ^ 32 } :
    PlasticityEngine W F) = cycle at hnext
  have hlimit : cycle.config.casRetryLimit = engine.config.casRetryLimit := by rw [← hcycle]
  obtain ⟨strengthened, hstrengthened, hnext⟩ := Option.bind_eq_some_iff.mp hnext
  obtain ⟨decayed, hdecayed, hnext⟩ := Option.bind_eq_some_iff.mp hnext
  obtain ⟨potentiated, hpotentiated, hnext⟩ := Option.bind_eq_some_iff.mp hnext
  obtain ⟨normalized, hnormalized, hnext⟩ := Option.bind_eq_some_iff.mp hnext
  have hstart : Learning.Steady cycle.config.casRetryLimit start
      ⟨start, failures, ⟨0, 0, 0, 0, 0⟩⟩ :=
    ⟨h, .refl start, hbound, hlimit ▸ hpositive, hlimit ▸ hfailures⟩
  have hsteady := steady_homeostaticNormalize (steady_applyLtpLtd (steady_synapticDecay
    (steady_hebbianStrengthen hstart hstrengthened) hdecayed) hpotentiated) hnormalized
  split at hnext
  · exact absurd hnext nofun
  · obtain ⟨-, -, rfl⟩ := Option.some.inj hnext
    exact hsteady.kept

end PlasticityEngine

end M1nd.Core

namespace M1nd.Core

open M1nd.Library.Checks
open M1nd.Library.Runs

variable {W F T : Type} [FiniteF32 W F]

section Import

variable {graph next : Graph W T}

theorem RestorePlan.rewritten_apply (plan : RestorePlan F) (graph : Graph W T) :
    graph.Rewritten (plan.apply graph) :=
  ⟨rfl, rfl, List.length_set, fun _ hsize => hsize.store _ _, rfl⟩

theorem RestorePlan.kept_apply (h : graph.Kept) (hpending : graph.csr.pendingEdges = [])
    (plan : RestorePlan F) : (plan.apply graph).Kept :=
  h.rewritten (plan.rewritten_apply graph) (h.inStep.set (.inr hpending) rfl rfl rfl)

theorem RestorePlan.kept_foldl (h : graph.Kept) (hpending : graph.csr.pendingEdges = [])
    (plans : List (RestorePlan F)) : (plans.foldl RestorePlan.apply graph).Kept := by
  induction plans generalizing graph with
  | nil => exact h
  | cons plan plans ih => exact ih (kept_apply h hpending plan) hpending

-- The lengths that are checked leave no staged edges.
theorem PlasticityEngine.kept_importState [DecidableEq W] {engine engine' : PlasticityEngine W F}
    {states : List (SynapticState F)} {count : Nat} (h : graph.Kept)
    (hnext : engine.importState graph states = .ok (count, engine', next)) : next.Kept := by
  unfold importState at hnext
  dsimp only at hnext
  split at hnext
  · exact absurd hnext nofun
  · rename_i hlengths
    obtain ⟨sources, -, hnext⟩ := bind_eq_ok.mp hnext
    obtain ⟨keys, -, hnext⟩ := bind_eq_ok.mp hnext
    obtain ⟨importing, -, hnext⟩ := bind_eq_ok.mp hnext
    obtain ⟨-, -, rfl⟩ := Except.ok.inj hnext
    refine RestorePlan.kept_foldl h ?_ importing.plans
    have hlength := congrArg List.length h.inStep
    rw [List.length_append, List.length_map] at hlength
    exact List.length_eq_zero_iff.mp (by omega)

end Import

variable [DecidableEq W] [DecidableEq F] [Zero W] [Float32 F] [FiniteF64 T]

inductive PlasticityOp (W F T : Type)
  | addNode (externalId label : String) (nodeType : NodeType) (tags : List String)
      (lastModified : T) (changeFrequency : W)
  | addEdge (source target : Nat) (relation : String) (weight : W)
      (direction : EdgeDirection) (inhibitory : Bool) (causalStrength : W)
  | finalize
  | newEngine (config : PlasticityConfig W F)
  | update (activatedNodes : List (Nat × W)) (failures : List Nat)
  | importState (states : List (SynapticState F))
  | load (format : SnapshotFormat) (snapshot : GraphSnapshotV4 F T)

-- A graph, and the engine that learns on it.
structure Learner (W F T : Type) where
  graph : Graph W T
  engine : PlasticityEngine W F

def Learner.new (config : PlasticityConfig W F) : Learner W F T where
  graph := .new
  engine := .new config

-- A call that returns an error changes nothing, and one that panics ends the run.
def PlasticityOp.apply (learner : Learner W F T) : PlasticityOp W F T → Option (Learner W F T)
  | addNode externalId label nodeType tags lastModified changeFrequency =>
      some { learner with
        graph := (learner.graph.addNode externalId label nodeType tags lastModified
          changeFrequency).2 }
  | addEdge source target relation weight direction inhibitory causalStrength =>
      some { learner with
        graph := (learner.graph.addEdge source target relation weight direction inhibitory
          causalStrength).2 }
  | finalize => some { learner with graph := learner.graph.finalize }
  | newEngine config => some { learner with engine := .new config }
  | update activatedNodes failures =>
      (learner.engine.update learner.graph activatedNodes failures).map fun updated =>
        ⟨updated.2.2, updated.2.1⟩
  | importState states =>
      match learner.engine.importState learner.graph states with
      | .ok (_, engine, graph) => some ⟨graph, engine⟩
      | .error .Panicked => none
      | .error _ => some learner
  | load format snapshot =>
      match graphFromSnapshotV4 format snapshot with
      | .ok graph => some { learner with graph := graph }
      | .error .Panicked => none
      | .error _ => some learner

def PlasticityOp.step (learner : Option (Learner W F T)) (op : PlasticityOp W F T) :
    Option (Learner W F T) :=
  learner.bind op.apply

def PlasticityOp.run (config : PlasticityConfig W F) (ops : List (PlasticityOp W F T)) :
    Option (Learner W F T) :=
  ops.foldl PlasticityOp.step (some (Learner.new config))

-- The writes of an update all succeed before they give up, and a u32 names every slot that an
-- update or a re-finalize reads.
def PlasticityOp.Steady (learner : Learner W F T) : PlasticityOp W F T → Prop
  | finalize => learner.graph.finalized = false → learner.graph.csr.numEdges ≤ 2 ^ 32
  | update _ failures =>
      0 < learner.engine.config.casRetryLimit ∧
        (∀ count ∈ failures, count < learner.engine.config.casRetryLimit) ∧
        learner.graph.csr.numEdges + learner.graph.csr.pendingEdges.length ≤ 2 ^ 32
  | _ => True

instance PlasticityOp.decidableSteady (learner : Learner W F T) :
    ∀ op : PlasticityOp W F T, Decidable (op.Steady learner)
  | finalize =>
      inferInstanceAs (Decidable (learner.graph.finalized = false →
        learner.graph.csr.numEdges ≤ 2 ^ 32))
  | update _ failures =>
      inferInstanceAs (Decidable (0 < learner.engine.config.casRetryLimit ∧
        (∀ count ∈ failures, count < learner.engine.config.casRetryLimit) ∧
        learner.graph.csr.numEdges + learner.graph.csr.pendingEdges.length ≤ 2 ^ 32))
  | addNode .. | addEdge .. | newEngine _ | importState _ | load .. => isTrue trivial

theorem PlasticityOp.kept_apply {learner next : Learner W F T} (h : learner.graph.Kept)
    {op : PlasticityOp W F T} (hsteady : op.Steady learner) (hnext : op.apply learner = some next) :
    next.graph.Kept := by
  cases op with
  | addNode externalId label nodeType tags lastModified changeFrequency =>
      obtain rfl := Option.some.inj hnext
      exact h.addNode externalId label nodeType tags lastModified changeFrequency
  | addEdge source target relation weight direction inhibitory causalStrength =>
      obtain rfl := Option.some.inj hnext
      exact h.addEdge source target relation weight direction inhibitory causalStrength
  | finalize =>
      obtain rfl := Option.some.inj hnext
      exact h.finalize hsteady
  | newEngine config =>
      obtain rfl := Option.some.inj hnext
      exact h
  | update activatedNodes failures =>
      obtain ⟨⟨result, engine, graph⟩, hupdate, rfl⟩ := Option.map_eq_some_iff.mp hnext
      obtain ⟨hpositive, hfailures, hbound⟩ := hsteady
      rw [h.listed.numEdges] at hbound
      exact PlasticityEngine.kept_update h hbound hpositive hfailures hupdate
  | importState states =>
      simp only [PlasticityOp.apply] at hnext
      split at hnext
      · rename_i count engine graph himport
        obtain rfl := Option.some.inj hnext
        exact PlasticityEngine.kept_importState h himport
      · exact absurd hnext nofun
      · exact Option.some.inj hnext ▸ h
  | load format snapshot =>
      simp only [PlasticityOp.apply] at hnext
      split at hnext
      · rename_i graph hload
        obtain rfl := Option.some.inj hnext
        exact Graph.Kept.graphFromSnapshotV4 hload
      · exact absurd hnext nofun
      · exact Option.some.inj hnext ▸ h

-- In a run whose updates and finalizes are all steady, the plasticity array holds the weight of
-- every slot.
theorem PlasticityOp.weights_in_step {config : PlasticityConfig W F}
    {ops : List (PlasticityOp W F T)}
    (h : MetAlong PlasticityOp.step
      (fun learner op => ∀ current ∈ learner, PlasticityOp.Steady current op)
      (some (Learner.new config)) ops) :
    ∀ learner ∈ PlasticityOp.run config ops, ∀ j < learner.graph.csr.numEdges,
      ∃ weight, learner.graph.csr.weights[j]? = some weight ∧
        learner.graph.edgePlasticity.currentWeight[j]? = some weight := by
  have hkept : ∀ learner ∈ PlasticityOp.run config ops, learner.graph.Kept := by
    refine h.invariant (fun state => ∀ learner ∈ state, learner.graph.Kept) ?_ ?_
    · intro learner hlearner
      obtain rfl := Option.some.inj hlearner
      exact Graph.kept_new
    · intro state op hstate hsteady next hnext
      obtain ⟨learner, hlearner, hnext⟩ := Option.bind_eq_some_iff.mp hnext
      exact kept_apply (hstate learner hlearner) (hsteady learner hlearner) hnext
  intro learner hlearner j hj
  have hlearned := hkept learner hlearner
  have hlt : j < learner.graph.csr.weights.length := by
    rw [hlearned.listed.weights, ← hlearned.listed.numEdges]
    exact hj
  refine ⟨_, List.getElem?_eq_getElem hlt, ?_⟩
  rw [hlearned.inStep.getElem? hlt, List.getElem?_eq_getElem hlt]

section Exhausted

def PlasticityConfig.retrying (casRetryLimit : Nat) : PlasticityConfig Rat Rat where
  learningRate := 1 / 2
  decayRate := 1 / 4
  ltpThreshold := 5
  ltdThreshold := 5
  ltpBonus := 1 / 4
  ltdPenalty := 1 / 4
  homeostaticCeiling := 5
  weightFloor := 1 / 16
  weightCap := 3
  memoryCapacity := 8
  casRetryLimit := casRetryLimit

-- Both ends of an edge are active in one learning cycle.
def PlasticityOp.strengthening (failures : List Nat) : List (PlasticityOp Rat Rat Nat) :=
  [.addNode "a" "a" .File [] 0 0, .addNode "b" "b" .File [] 0 0,
    .addEdge 0 1 "calls" (1 / 2) .Forward false 0, .finalize,
    .update [(0, 1), (1, 1)] failures]

theorem PlasticityOp.strengthened_in_step :
    (run (.retrying 64) (strengthening [3])).isSome = true ∧
      ∀ learner ∈ run (.retrying 64) (strengthening [3]), ∀ j < learner.graph.csr.numEdges,
        ∃ weight, learner.graph.csr.weights[j]? = some weight ∧
          learner.graph.edgePlasticity.currentWeight[j]? = some weight :=
  ⟨by decide +kernel, weights_in_step (by decide +kernel)⟩

-- With no retries at all every write to the CSR gives up, and the plasticity array is written.
theorem PlasticityOp.dropped_write_diverges :
    ¬ ∀ (config : PlasticityConfig Rat Rat) (ops : List (PlasticityOp Rat Rat Nat)),
      ∀ learner ∈ run config ops, ∀ j < learner.graph.csr.numEdges,
        ∃ weight, learner.graph.csr.weights[j]? = some weight ∧
          learner.graph.edgePlasticity.currentWeight[j]? = some weight := by
  intro h
  have hrun : (run (.retrying 0) (strengthening [])).map (fun learner =>
      (learner.graph.csr.weights, learner.graph.edgePlasticity.currentWeight)) =
        some ([1 / 2], [1]) := by
    decide +kernel
  have hedges : (run (.retrying 0) (strengthening [])).map (fun learner =>
      learner.graph.csr.numEdges) = some 1 := by
    decide +kernel
  obtain ⟨learner, hlearner, harrays⟩ := Option.map_eq_some_iff.mp hrun
  rw [hlearner, Option.map_some, Option.some.injEq] at hedges
  obtain ⟨hweights, hcurrent⟩ := Prod.mk.inj harrays
  obtain ⟨weight, hweight, hlearned⟩ := h (.retrying 0) (strengthening []) learner hlearner 0 (by omega)
  rw [hweights] at hweight
  rw [hcurrent] at hlearned
  obtain rfl := Option.some.inj hweight
  exact absurd (Option.some.inj hlearned) (by decide +kernel)

end Exhausted

end M1nd.Core
