import M1nd.Core.Plasticity.Bounds
import Mathlib.Algebra.BigOperators.Ring.List

namespace M1nd.Core

section Incoming

variable {W T : Type} {csr csr' : CsrGraph W} {graph : Graph W T}

-- The slots that end in a node.
def CsrGraph.slotsInto (csr : CsrGraph W) (node : Nat) : List Nat :=
  (List.range csr.targets.length).filter fun j => csr.targets[j]? = some node

theorem CsrGraph.mem_slotsInto {node j : Nat} :
    j ∈ csr.slotsInto node ↔ csr.targets[j]? = some node := by
  rw [slotsInto, List.mem_filter, List.mem_range, decide_eq_true_iff]
  exact ⟨fun h => h.2, fun h => ⟨(List.getElem?_eq_some_iff.mp h).1, h⟩⟩

theorem CsrGraph.nodup_slotsInto (csr : CsrGraph W) (node : Nat) : (csr.slotsInto node).Nodup :=
  List.nodup_range.filter _

-- The reverse entries of each node name the slots that end there, each of them once.
def CsrGraph.Incoming (csr : CsrGraph W) : Prop :=
  ∀ node, ((csr.inRange node).map (csr.revEdgeIdx[·]?)).Perm ((csr.slotsInto node).map some)

theorem CsrGraph.Incoming.congr (h : csr.Incoming) (htargets : csr'.targets = csr.targets)
    (hoffsets : csr'.revOffsets = csr.revOffsets) (hindices : csr'.revEdgeIdx = csr.revEdgeIdx) :
    csr'.Incoming := by
  intro node
  have hnode := h node
  rwa [inRange, slotsInto, ← htargets, ← hoffsets, ← hindices] at hnode

theorem map_some_filterMap {α β : Type} {f : α → Option β} {items : List α}
    (h : ∀ item ∈ items, f item ≠ none) : (items.filterMap f).map some = items.map f := by
  induction items with
  | nil => rfl
  | cons item items ih =>
      obtain ⟨hitem, hitems⟩ := List.forall_mem_cons.mp h
      obtain ⟨value, hvalue⟩ := Option.ne_none_iff_exists'.mp hitem
      rw [List.filterMap_cons_some hvalue, List.map_cons, List.map_cons, ih hitems, hvalue]

theorem CsrGraph.Incoming.slots_perm (h : csr.Incoming) (node : Nat) :
    ((csr.inRange node).filterMap (csr.revEdgeIdx[·]?)).Perm (csr.slotsInto node) := by
  have hnode := (h node).filterMap id
  rw [List.filterMap_map, List.filterMap_map] at hnode
  simpa using hnode

theorem CsrGraph.Incoming.map_slots (h : csr.Incoming) (node : Nat) :
    (csr.inRange node).map (csr.revEdgeIdx[·]?) =
      ((csr.inRange node).filterMap (csr.revEdgeIdx[·]?)).map some := by
  refine (map_some_filterMap fun r hr hnone => ?_).symm
  have hentry := (h node).mem_iff.mp (List.mem_map_of_mem hr)
  rw [hnone] at hentry
  obtain ⟨j, -, hj⟩ := List.mem_map.mp hentry
  exact absurd hj nofun

-- Every slot lies in one of the parts that the offsets cut.
theorem CutsInto.exists_part {offsets : List Nat} {n slots slot : Nat}
    (h : CutsInto offsets n slots) (hslot : slot < slots) :
    ∃ node < n, offsets.getD node 0 ≤ slot ∧ slot < offsets.getD (node + 1) 0 := by
  have hfirst : offsets.getD 0 0 = 0 := by
    rw [List.getD_eq_getElem?_getD, h.first, Option.getD_some]
  have hlast : offsets.getD n 0 = slots := by
    have hget := h.last
    rw [List.getLast?_eq_getElem?, h.length, Nat.add_sub_cancel] at hget
    rw [List.getD_eq_getElem?_getD, hget, Option.getD_some]
  have hpart : ∀ k, slot < offsets.getD k 0 →
      ∃ node < k, offsets.getD node 0 ≤ slot ∧ slot < offsets.getD (node + 1) 0 := by
    intro k hk
    induction k with
    | zero =>
        rw [hfirst] at hk
        exact absurd hk (Nat.not_lt_zero slot)
    | succ k ih =>
        by_cases hbefore : slot < offsets.getD k 0
        · obtain ⟨node, hnode, hle, hlt⟩ := ih hbefore
          exact ⟨node, Nat.lt_succ_of_lt hnode, hle, hlt⟩
        · exact ⟨k, Nat.lt_succ_self k, Nat.le_of_not_lt hbefore, hk⟩
  exact hpart n (hlast.symm ▸ hslot)

-- A slot that ends in a node is named by an entry, and that entry lies in the part of the node.
theorem Graph.Sound.incoming (h : graph.Sound) (hfinal : graph.finalized = true)
    (hbound : graph.csr.targets.length ≤ 2 ^ 32) : graph.csr.Incoming := by
  obtain ⟨hparallel, htransposed⟩ := h.finalized hfinal
  obtain ⟨hbijection, hpoints⟩ := htransposed hbound
  have hnodup : graph.csr.revEdgeIdx.Nodup := hbijection.nodup_iff.mpr List.nodup_range
  have hrange : ∀ node, node < graph.nodes.count → graph.csr.inRange node =
      List.range' (graph.csr.revOffsets.getD node 0)
        (graph.csr.revOffsets.getD (node + 1) 0 - graph.csr.revOffsets.getD node 0) := by
    intro node hnode
    have hlength : ¬ graph.csr.revOffsets.length ≤ node + 1 := by
      rw [hparallel.revOffsets.length]
      omega
    rw [CsrGraph.inRange, if_neg hlength]
  intro node
  by_cases hnode : node < graph.nodes.count
  · refine (List.perm_ext_iff_of_nodup ?_ ?_).mpr fun entry => ?_
    · refine List.Nodup.map_on ?_ ?_
      · intro r hr r' hr' he
        obtain ⟨j, -, hj, -⟩ := hpoints node hnode r hr
        obtain ⟨hlt, -⟩ := List.getElem?_eq_some_iff.mp hj
        exact (List.getElem?_inj hlt hnodup).mp he
      · rw [hrange node hnode]
        exact List.nodup_range'
    · exact (graph.csr.nodup_slotsInto node).map (Option.some_injective Nat)
    · rw [List.mem_map, List.mem_map]
      constructor
      · rintro ⟨r, hr, rfl⟩
        obtain ⟨j, src, hj, -, htarget, -⟩ := hpoints node hnode r hr
        exact ⟨j, CsrGraph.mem_slotsInto.mpr htarget, hj.symm⟩
      · rintro ⟨j, hj, rfl⟩
        have htarget := CsrGraph.mem_slotsInto.mp hj
        have hentry : j ∈ graph.csr.revEdgeIdx := by
          rw [hbijection.mem_iff, List.mem_range]
          exact (List.getElem?_eq_some_iff.mp htarget).1
        obtain ⟨r, hr⟩ := List.mem_iff_getElem?.mp hentry
        have hlt : r < graph.csr.targets.length := by
          rw [← hparallel.reverse.2]
          exact (List.getElem?_eq_some_iff.mp hr).1
        obtain ⟨owner, howner, hle, hpart⟩ := hparallel.revOffsets.exists_part hlt
        have hmem : r ∈ graph.csr.inRange owner := by
          rw [hrange owner howner, List.mem_range'_1]
          omega
        obtain ⟨j', src, hj', -, htarget', -⟩ := hpoints owner howner r hmem
        rw [hr] at hj'
        obtain rfl := Option.some.inj hj'
        rw [htarget] at htarget'
        obtain rfl := Option.some.inj htarget'
        exact ⟨r, hmem, hr⟩
  · have hlength : graph.csr.revOffsets.length ≤ node + 1 := by
      rw [hparallel.revOffsets.length]
      omega
    have hnone : graph.csr.slotsInto node = [] := by
      rw [List.eq_nil_iff_forall_not_mem]
      intro j hj
      exact hnode (h.targets node (List.mem_of_getElem? (CsrGraph.mem_slotsInto.mp hj)))
    rw [CsrGraph.inRange, if_pos hlength, hnone]
    exact .nil

variable [Zero W]

theorem GraphOp.incoming_run (ops : List (GraphOp W T)) :
    (run ops).csr.targets.length ≤ 2 ^ 32 → (run ops).csr.Incoming := by
  induction ops using List.reverseRecOn with
  | nil => exact fun _ _ => .nil
  | append_singleton ops op ih =>
      rw [run_concat]
      have hsound := (sound_run ops).apply op
      generalize run ops = graph at ih hsound ⊢
      cases op with
      | addNode externalId label nodeType tags lastModified changeFrequency =>
          obtain ⟨strings, he⟩ | ⟨nodes, strings, idToNode, -, he⟩ :=
            graph.addNode_cases externalId label nodeType tags lastModified changeFrequency
          · rw [apply, he]
            exact ih
          · rw [apply, he]
            exact ih
      | addEdge source target relation weight direction inhibitory causalStrength =>
          simp only [apply, Graph.addEdge]
          split
          · exact ih
          · split
            · exact ih
            · exact fun hbound => (ih hbound).congr rfl rfl rfl
      | storeWeight slot weight =>
          simp only [apply]
          split
          · exact fun hbound => (ih hbound).congr rfl rfl rfl
          · exact ih
      | storeSynapse slot synapse =>
          simp only [apply]
          split
          · exact ih
          · exact ih
      | finalize => exact hsound.incoming Graph.finalized_finalize

end Incoming

section Inflow

variable {T : Type} {csr csr' : CsrGraph Rat} {state next : Learning Rat T}
  {engine : PlasticityEngine Rat Rat}

-- The sum of the weights of the slots that end in a node.
def CsrGraph.inflow (csr : CsrGraph Rat) (node : Nat) : Rat :=
  ((csr.slotsInto node).map (csr.weights.getD · 0)).sum

theorem CsrGraph.Incoming.incomingWeight_eq (h : csr.Incoming) {node : Nat} {total : Rat}
    (htotal : PlasticityEngine.incomingWeight csr (csr.inRange node) = some total) :
    total = csr.inflow node := by
  rw [(PlasticityEngine.incomingWeight_eq htotal).1]
  exact ((h.slots_perm node).map _).sum_eq

-- The writes still to come succeed before they give up.
def Learning.Succeeds (state : Learning Rat T) (limit : Nat) : Prop :=
  0 < limit ∧ ∀ count ∈ state.failures, count < limit

theorem Learning.Succeeds.headD {limit : Nat} (h : state.Succeeds limit) :
    state.failures.headD 0 < limit := by
  obtain ⟨hpos, hall⟩ := h
  cases hfailures : state.failures with
  | nil => exact hpos
  | cons count failures => exact hall count (by rw [hfailures]; exact List.mem_cons_self)

-- The weights of these slots are scaled, and nothing else is written.
structure Learning.Scales (state next : Learning Rat T) (scale : Rat) (slots : List Nat) : Prop where
  moves : state.Moves (fun _ _ _ => True) next
  weights : ∀ j, next.graph.csr.weights.getD j 0 =
    if j ∈ slots then state.graph.csr.weights.getD j 0 * scale
    else state.graph.csr.weights.getD j 0

theorem PlasticityEngine.scales_scaleEdge {scale : Rat} {r forward : Nat}
    (hsucceeds : state.Succeeds engine.config.casRetryLimit)
    (hforward : state.graph.csr.revEdgeIdx[r]? = some forward)
    (hnext : engine.scaleEdge scale state r = some next) : state.Scales next scale [forward] := by
  refine ⟨moves_scaleEdge (fun _ _ => trivial) (fun _ _ _ => trivial) hnext, ?_⟩
  unfold scaleEdge at hnext
  obtain ⟨forward', hforward', hnext⟩ := Option.bind_eq_some_iff.mp hnext
  obtain ⟨current, hcurrent, hnext⟩ := Option.bind_eq_some_iff.mp hnext
  rw [hforward] at hforward'
  obtain rfl := Option.some.inj hforward'
  obtain ⟨hedge, -, -, hcsr⟩ := Learning.writeBoth_eq hnext
  rw [if_pos hsucceeds.headD] at hcsr
  intro j
  rw [hcsr, CsrGraph.storeWeight, List.getD_eq_getElem?_getD, List.getD_eq_getElem?_getD]
  by_cases hj : j = forward
  · subst hj
    rw [List.getElem?_set_self hedge, if_pos (List.mem_singleton_self j), hcurrent]
    rfl
  · rw [List.getElem?_set_ne (Ne.symm hj), if_neg (by rwa [List.mem_singleton])]

theorem Learning.Succeeds.moves {limit : Nat} {R : Nat → Rat → Rat → Prop}
    (h : state.Succeeds limit) (hmoves : state.Moves R next) : next.Succeeds limit :=
  ⟨h.1, fun count hcount => h.2 count (hmoves.failures count hcount)⟩

theorem PlasticityEngine.scales_foldlM {scale : Rat} {range slots : List Nat}
    (hsucceeds : state.Succeeds engine.config.casRetryLimit)
    (hslots : range.map (state.graph.csr.revEdgeIdx[·]?) = slots.map some) (hnodup : slots.Nodup)
    (hnext : range.foldlM (engine.scaleEdge scale) state = some next) :
    state.Scales next scale slots := by
  induction range generalizing state slots with
  | nil =>
      obtain rfl := Option.some.inj hnext
      obtain rfl := List.map_eq_nil_iff.mp hslots.symm
      exact ⟨.refl (fun _ _ => trivial) state, fun j => (if_neg List.not_mem_nil).symm⟩
  | cons r range ih =>
      obtain ⟨forward, rest, rfl, hforward, hrest⟩ := List.map_eq_cons_iff.mp hslots.symm
      obtain ⟨hfresh, hnodup⟩ := List.nodup_cons.mp hnodup
      rw [List.foldlM_cons] at hnext
      obtain ⟨mid, hmid, hnext⟩ := Option.bind_eq_some_iff.mp hnext
      have hfirst := scales_scaleEdge hsucceeds hforward.symm hmid
      have hrev : mid.graph.csr.revEdgeIdx = state.graph.csr.revEdgeIdx :=
        hfirst.moves.field CsrGraph.revEdgeIdx fun _ => rfl
      have hothers := ih (hsucceeds.moves hfirst.moves) (by rw [hrev]; exact hrest.symm) hnodup hnext
      refine ⟨hfirst.moves.trans (fun _ _ _ _ _ _ => trivial) hothers.moves, fun j => ?_⟩
      rw [hothers.weights j, hfirst.weights j]
      by_cases hj : j = forward
      · subst hj
        rw [if_neg hfresh, if_pos (List.mem_singleton_self j), if_pos List.mem_cons_self]
      · simp only [List.mem_cons, List.not_mem_nil, hj, false_or, if_false]

-- What the normalization makes of the weight of a slot that ends in a node.
def CsrGraph.leveled (csr : CsrGraph Rat) (ceiling : Rat) (node j : Nat) : Rat :=
  if ceiling < csr.inflow node then csr.weights.getD j 0 * (ceiling / csr.inflow node)
  else csr.weights.getD j 0

-- The first nodes are normalized, and the slots of the others are as before.
structure Learning.Levels (state next : Learning Rat T) (ceiling : Rat) (bound : Nat) : Prop where
  moves : state.Moves (fun _ _ _ => True) next
  weights : ∀ j node, state.graph.csr.targets[j]? = some node → next.graph.csr.weights.getD j 0 =
    if node < bound then state.graph.csr.leveled ceiling node j
    else state.graph.csr.weights.getD j 0

theorem PlasticityEngine.normalizeNode_weights {node : Nat}
    (hsucceeds : state.Succeeds engine.config.casRetryLimit) (hincoming : state.graph.csr.Incoming)
    (hnext : engine.normalizeNode state node = some next) (j : Nat) :
    next.graph.csr.weights.getD j 0 = if j ∈ state.graph.csr.slotsInto node then
      state.graph.csr.leveled engine.config.homeostaticCeiling node j
    else state.graph.csr.weights.getD j 0 := by
  unfold normalizeNode at hnext
  obtain ⟨total, htotal, hnext⟩ := Option.bind_eq_some_iff.mp hnext
  obtain rfl := hincoming.incomingWeight_eq htotal
  dsimp only at hnext
  split at hnext
  · rename_i hover
    obtain ⟨scaled, hscaled, hnext⟩ := Option.bind_eq_some_iff.mp hnext
    obtain rfl := Option.some.inj hnext
    have hperm := hincoming.slots_perm node
    have hscales := scales_foldlM hsucceeds (hincoming.map_slots node)
      (hperm.nodup_iff.mpr (state.graph.csr.nodup_slotsInto node)) hscaled
    have hleveled : state.graph.csr.leveled engine.config.homeostaticCeiling node j =
        state.graph.csr.weights.getD j 0 *
          (engine.config.homeostaticCeiling / state.graph.csr.inflow node) :=
      if_pos (of_decide_eq_true hover)
    have hweights := hscales.weights j
    simp only [hperm.mem_iff] at hweights
    rw [hleveled]
    exact hweights
  · rename_i hunder
    obtain rfl := Option.some.inj hnext
    have hleveled : state.graph.csr.leveled engine.config.homeostaticCeiling node j =
        state.graph.csr.weights.getD j 0 :=
      if_neg fun hover => hunder (decide_eq_true hover)
    rw [hleveled, ite_self]

-- One node after the other is normalized. The slots into a node are still as they were when its
-- turn comes.
theorem PlasticityEngine.levels_foldlM (hsucceeds : state.Succeeds engine.config.casRetryLimit)
    (hincoming : state.graph.csr.Incoming) (bound : Nat)
    (hnext : (List.range bound).foldlM engine.normalizeNode state = some next) :
    state.Levels next engine.config.homeostaticCeiling bound := by
  induction bound generalizing next with
  | zero =>
      obtain rfl := Option.some.inj hnext
      exact ⟨.refl (fun _ _ => trivial) state, fun j node _ => (if_neg (Nat.not_lt_zero node)).symm⟩
  | succ bound ih =>
      rw [List.range_succ, List.foldlM_append] at hnext
      obtain ⟨mid, hmid, hnext⟩ := Option.bind_eq_some_iff.mp hnext
      rw [List.foldlM_cons] at hnext
      obtain ⟨last, hlast, hnext⟩ := Option.bind_eq_some_iff.mp hnext
      obtain rfl := Option.some.inj hnext
      obtain ⟨hmoves, hweights⟩ := ih hmid
      have htargets : mid.graph.csr.targets = state.graph.csr.targets :=
        hmoves.field CsrGraph.targets fun _ => rfl
      have hinto : mid.graph.csr.slotsInto bound = state.graph.csr.slotsInto bound := by
        rw [CsrGraph.slotsInto, CsrGraph.slotsInto, htargets]
      have hsame : ∀ j ∈ state.graph.csr.slotsInto bound,
          mid.graph.csr.weights.getD j 0 = state.graph.csr.weights.getD j 0 := by
        intro j hj
        rw [hweights j bound (CsrGraph.mem_slotsInto.mp hj), if_neg (Nat.lt_irrefl bound)]
      have hinflow : mid.graph.csr.inflow bound = state.graph.csr.inflow bound := by
        rw [CsrGraph.inflow, CsrGraph.inflow, hinto, List.map_congr_left hsame]
      have hincoming' : mid.graph.csr.Incoming :=
        hincoming.congr htargets (hmoves.field CsrGraph.revOffsets fun _ => rfl)
          (hmoves.field CsrGraph.revEdgeIdx fun _ => rfl)
      have hstep : mid.Moves (fun _ _ _ => True) last :=
        moves_normalizeNode (fun _ _ => trivial) (fun _ _ _ _ _ _ => trivial)
          (fun _ _ _ _ _ _ _ _ => trivial) hlast
      refine ⟨hmoves.trans (fun _ _ _ _ _ _ => trivial) hstep, fun j node hnode => ?_⟩
      rw [normalizeNode_weights (hsucceeds.moves hmoves) hincoming' hlast j, hinto,
        CsrGraph.leveled, hinflow]
      by_cases hbound : node = bound
      · subst hbound
        have hj := CsrGraph.mem_slotsInto.mpr hnode
        rw [if_pos hj, if_pos (Nat.lt_succ_self node), hsame j hj, CsrGraph.leveled]
      · have hj : j ∉ state.graph.csr.slotsInto bound := by
          rw [CsrGraph.mem_slotsInto, hnode]
          exact fun he => hbound (Option.some.inj he)
        rw [if_neg hj, hweights j node hnode]
        have hlt : node < bound ↔ node < bound + 1 := by omega
        simp only [hlt]

theorem CsrGraph.inflow_leveled {ceiling : Rat} {node : Nat} (hceiling : 0 ≤ ceiling)
    (htargets : csr'.targets = csr.targets)
    (hweights : ∀ j ∈ csr.slotsInto node, csr'.weights.getD j 0 = csr.leveled ceiling node j) :
    csr'.inflow node ≤ ceiling := by
  have hinto : csr'.slotsInto node = csr.slotsInto node := by
    rw [slotsInto, slotsInto, htargets]
  rw [inflow, hinto, List.map_congr_left hweights]
  by_cases hover : ceiling < csr.inflow node
  · have hpos : csr.inflow node ≠ 0 := ne_of_gt (lt_of_le_of_lt hceiling hover)
    have hscaled : ∀ j ∈ csr.slotsInto node, csr.leveled ceiling node j =
        csr.weights.getD j 0 * (ceiling / csr.inflow node) :=
      fun _ _ => if_pos hover
    rw [List.map_congr_left hscaled, List.sum_map_mul_right]
    exact le_of_eq (mul_div_cancel₀ ceiling hpos)
  · have hkept : ∀ j ∈ csr.slotsInto node, csr.leveled ceiling node j = csr.weights.getD j 0 :=
      fun _ _ => if_neg hover
    rw [List.map_congr_left hkept]
    exact le_of_not_gt hover

namespace PlasticityEngine

variable {graph graph' : Graph Rat T} {activatedNodes : List (Nat × Rat)} {failures : List Nat}
  {strengthened decayed learned normalized : Learning Rat T}

theorem Cycle.moves_learned
    (h : engine.Cycle graph activatedNodes failures strengthened decayed learned normalized) :
    (⟨graph, failures, ⟨0, 0, 0, 0, 0⟩⟩ : Learning Rat T).Moves (fun _ _ _ => True) learned := by
  have htrans : ∀ j u v w, (fun (_ : Nat) (_ _ : Rat) => True) j u v →
      (fun (_ : Nat) (_ _ : Rat) => True) j v w → (fun (_ : Nat) (_ _ : Rat) => True) j u w :=
    fun _ _ _ _ _ _ => trivial
  have hstrengthened := moves_hebbianStrengthen (fun _ _ => trivial) htrans
    (fun _ _ _ _ _ _ => trivial) h.strengthens
  have hdecayed := moves_synapticDecay (fun _ _ => trivial) htrans (fun _ _ => trivial) h.decays
  have hlearned := moves_applyLtpLtd (fun _ _ => trivial) htrans (fun _ _ => trivial)
    (fun _ _ => trivial) h.learns
  exact (hstrengthened.trans htrans hdecayed).trans htrans hlearned

end PlasticityEngine

end Inflow

end M1nd.Core
