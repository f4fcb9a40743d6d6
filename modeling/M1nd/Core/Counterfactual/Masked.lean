import M1nd.Core.Counterfactual.Waves

namespace M1nd.Core

open M1nd.Library
open M1nd.Library.Loops
open M1nd.Library.Spreading

variable {T : Type} {graph : Graph Rat T} {config : PropagationConfig} {removed : List Nat}
  {mask : RemovalMask}

-- A slot belongs to one node.
theorem Graph.Listed.outRange_inj (h : graph.Listed) {a b j : Nat}
    (ha : j ∈ graph.csr.outRange a) (hb : j ∈ graph.csr.outRange b) : a = b := by
  have hlength : graph.csr.offsets.length = graph.csr.offsets.length - 1 + 1 := by
    unfold CsrGraph.outRange at ha
    split at ha
    · exact absurd ha List.not_mem_nil
    · omega
  have hnodup : ((edgeSlots (graph.csr.offsets.length - 1) graph.csr.offsets).map Prod.snd).Nodup := by
    rw [h.indices]
    exact List.nodup_range
  have hpair := List.inj_on_of_nodup_map hnodup ((CsrGraph.mem_outRange hlength).mp ha)
    ((CsrGraph.mem_outRange hlength).mp hb) rfl
  exact congrArg Prod.fst hpair

section Masks

-- A mask after some nodes were removed.
def RemovalMask.removeAll (graph : Graph Rat T) (removed : List Nat) : Option RemovalMask :=
  removed.foldlM (RemovalMask.removeNode graph) (.new graph.numNodes graph.csr.numEdges)

-- The removed nodes are marked, all their slots are, and no others but those that end there.
structure RemovalMask.Hides (graph : Graph Rat T) (mask : RemovalMask) (removed : List Nat) :
    Prop where
  nodes : mask.removedNodes.length = graph.numNodes
  edges : mask.removedEdges.length = graph.csr.numEdges
  marked : ∀ v < graph.numNodes, mask.removedNodes[v]? = some (decide (v ∈ removed))
  outgoing : ∀ v ∈ removed, v < graph.numNodes → ∀ j ∈ graph.csr.outRange v,
    j < graph.csr.numEdges → mask.removedEdges[j]? = some true
  hidden : ∀ j, mask.removedEdges[j]? = some true → ∃ v ∈ removed, v < graph.numNodes ∧
    (j ∈ graph.csr.outRange v ∨ ∃ r ∈ graph.csr.inRange v, graph.csr.revEdgeIdx[r]? = some j)

theorem getElem?_marked (slots : List Nat) (marks : List Bool) (j : Nat) :
    (slots.foldl (fun marks slot => marks.set slot true) marks)[j]? = some true ↔
      marks[j]? = some true ∨ j ∈ slots ∧ j < marks.length := by
  induction slots generalizing marks with
  | nil => simp
  | cons slot slots ih =>
      rw [List.foldl_cons, ih, List.length_set, List.mem_cons, List.getElem?_set]
      by_cases hj : slot = j
      · subst hj
        by_cases hlt : slot < marks.length <;> simp [hlt]
      · simp [hj, Ne.symm hj]

theorem length_marked (slots : List Nat) (marks : List Bool) :
    (slots.foldl (fun marks slot => marks.set slot true) marks).length = marks.length := by
  induction slots generalizing marks with
  | nil => rfl
  | cons slot slots ih => rw [List.foldl_cons, ih, List.length_set]

theorem RemovalMask.hides_new (graph : Graph Rat T) :
    (RemovalMask.new graph.numNodes graph.csr.numEdges).Hides graph [] where
  nodes := List.length_replicate
  edges := List.length_replicate
  marked v hv := by
    rw [RemovalMask.new, List.getElem?_replicate, if_pos hv]
    rfl
  outgoing _ hv := absurd hv List.not_mem_nil
  hidden j hj := by
    rw [RemovalMask.new, List.getElem?_replicate] at hj
    split at hj <;> exact nomatch hj

theorem RemovalMask.Hides.exists_removeNode (hsourced : graph.Sourced) (hindexed : graph.Indexed)
    (h : mask.Hides graph removed) (node : Nat) :
    ∃ next, mask.removeNode graph node = some next ∧ next.Hides graph (removed ++ [node]) := by
  unfold RemovalMask.removeNode
  by_cases hnode : mask.removedNodes.length ≤ node
  · rw [if_pos hnode]
    rw [h.nodes] at hnode
    refine ⟨mask, rfl, h.nodes, h.edges, fun v hv => ?_, fun v hv hlt => ?_, fun j hj => ?_⟩
    · have hother : v ≠ node := by omega
      simp only [h.marked v hv, List.mem_append, List.mem_singleton, hother, or_false]
    · obtain hv | hv := List.mem_append.mp hv
      · exact h.outgoing v hv hlt
      · obtain rfl := List.mem_singleton.mp hv
        omega
    · obtain ⟨v, hv, hrest⟩ := h.hidden j hj
      exact ⟨v, List.mem_append_left _ hv, hrest⟩
  · rw [if_neg hnode]
    rw [h.nodes, Nat.not_le] at hnode
    have hread : ∀ r ∈ graph.csr.inRange node, ∃ forward,
        graph.csr.revEdgeIdx[r]? = some forward := by
      intro r hr
      have hlt := hsourced node r hr
      rw [← hindexed.length] at hlt
      exact ⟨_, List.getElem?_eq_getElem hlt⟩
    obtain ⟨incoming, hincoming, hmem⟩ := exists_mapM hread
    have hloop := foldlM_map_read hincoming
      (fun (edges : List Bool) forward => edges.set forward true)
      ((graph.csr.outRange node).foldl (fun edges j => edges.set j true) mask.removedEdges)
    dsimp only
    rw [hloop, Option.bind_eq_bind, Option.bind_some]
    refine ⟨_, rfl, ?_, ?_, fun v hv => ?_, fun v hv hlt j hj hlast => ?_, fun j hj => ?_⟩
    · exact List.length_set.trans h.nodes
    · exact (length_marked _ _).trans ((length_marked _ _).trans h.edges)
    · rw [List.getElem?_set]
      by_cases hsame : node = v
      · subst hsame
        simp [h.nodes, hnode]
      · simp [hsame, Ne.symm hsame, h.marked v hv]
    · rw [getElem?_marked, getElem?_marked]
      obtain hv | hv := List.mem_append.mp hv
      · exact .inl (.inl (h.outgoing v hv hlt j hj hlast))
      · obtain rfl := List.mem_singleton.mp hv
        exact .inl (.inr ⟨hj, h.edges ▸ hlast⟩)
    · rw [getElem?_marked, getElem?_marked] at hj
      obtain (hold | ⟨hout, -⟩) | ⟨hin, -⟩ := hj
      · obtain ⟨v, hv, hrest⟩ := h.hidden j hold
        exact ⟨v, List.mem_append_left _ hv, hrest⟩
      · exact ⟨node, List.mem_append_right _ List.mem_cons_self, hnode, .inl hout⟩
      · exact ⟨node, List.mem_append_right _ List.mem_cons_self, hnode, .inr ((hmem j).mp hin)⟩

theorem RemovalMask.exists_removeAll (hsourced : graph.Sourced) (hindexed : graph.Indexed)
    (removed : List Nat) :
    ∃ mask, RemovalMask.removeAll graph removed = some mask ∧ mask.Hides graph removed := by
  induction removed using List.reverseRecOn with
  | nil => exact ⟨_, rfl, RemovalMask.hides_new graph⟩
  | append_singleton removed node ih =>
      obtain ⟨mask, hmask, hhides⟩ := ih
      obtain ⟨next, hnext, hhides'⟩ := hhides.exists_removeNode hsourced hindexed node
      refine ⟨next, ?_, hhides'⟩
      rw [RemovalMask.removeAll] at hmask
      rw [RemovalMask.removeAll, List.foldlM_append, hmask]
      simp only [Option.bind_eq_bind, Option.bind_some, List.foldlM_cons, List.foldlM_nil, hnext,
        Option.pure_def]

end Masks

section Expansions

-- The slots of a node with what they hold.
def Graph.slotsOf (graph : Graph Rat T) (node : Nat) : List (Nat × Rat × Bool) :=
  (graph.csr.outRange node).filterMap (readSlot graph)

def Graph.hopsOf (graph : Graph Rat T) (node : Nat) : List (Nat × Rat) :=
  (graph.slotsOf node).map fun slot => (slot.1, slot.2.1)

-- The ways between the nodes that are left.
def Graph.hopsWithout (graph : Graph Rat T) (removed : List Nat) (node : Nat) : List (Nat × Rat) :=
  if node ∈ removed then [] else (graph.hopsOf node).filter fun hop => hop.1 ∉ removed

-- Every slot can be read and ends at a node.
def Graph.Scorable (graph : Graph Rat T) : Prop :=
  ∀ node, ∀ j ∈ graph.csr.outRange node, ∃ slot,
    readSlot graph j = some slot ∧ slot.1 < graph.numNodes

-- Every slot can be read, ends at a node, and does not inhibit.
def Graph.Exciting (graph : Graph Rat T) : Prop :=
  ∀ node, ∀ j ∈ graph.csr.outRange node, ∃ tgt w,
    readSlot graph j = some (tgt, w, false) ∧ tgt < graph.numNodes

theorem performs_expand (hexciting : graph.Exciting) (config : PropagationConfig) :
    Performs (config.medium graph.hopsOf) reopens graph.numNodes
      (WavefrontEngine.expand config graph) := by
  intro state h src hsrc
  have hact : state.activation[src]? = some (state.activation.getD src 0) := by
    rw [List.getD_eq_getElem?_getD, List.getElem?_eq_getElem (h.activation ▸ hsrc),
      Option.getD_some]
  unfold WavefrontEngine.expand Spreading.expand
  rw [hact, Option.bind_eq_bind, Option.bind_some]
  by_cases hquiet : state.activation.getD src 0 < config.threshold
  · rw [if_pos hquiet]
    refine ⟨state, rfl, h, ?_⟩
    simp only [Propagation.wave, PropagationConfig.medium, hquiet, if_true]
  · rw [if_neg hquiet]
    have hpass : ∀ j ∈ graph.csr.outRange src, ∀ before : Propagation,
        before.Sized graph.numNodes → ∃ next,
          (readSlot graph j).map (WavefrontEngine.arrive config (state.activation.getD src 0) before) =
            some next ∧ next.Sized graph.numNodes ∧
          next.wave = ((readSlot graph j).map fun slot => (slot.1, slot.2.1)).elim before.wave fun hop =>
              Spreading.arrive (config.medium graph.hopsOf) reopens before.wave hop.1
                ((config.medium graph.hopsOf).pass (state.activation.getD src 0) hop.2) := by
      intro j hj before hbefore
      obtain ⟨tgt, w, hslot, htgt⟩ := hexciting src j hj
      rw [hslot]
      exact ⟨_, rfl, WavefrontEngine.arrive_wave hbefore htgt⟩
    obtain ⟨next, hnext, hsized, hwave⟩ := exists_arrivals hpass h
    refine ⟨next, hnext, hsized, hwave.trans ?_⟩
    simp only [Propagation.wave, PropagationConfig.medium, hquiet, if_false, Graph.hopsOf,
      Graph.slotsOf, List.map_filterMap]

-- What a slot is for a masked propagation.
theorem RemovalMask.Hides.removedEdge (htransposed : graph.Transposed) (hlisted : graph.Listed)
    (hslots : graph.csr.targets.length ≤ 2 ^ 32) (h : mask.Hides graph removed) {src j : Nat} (hsrc : src < graph.numNodes)
    (hj : j ∈ graph.csr.outRange src) {tgt : Nat} (htgt : graph.csr.targets[j]? = some tgt) :
    ∃ hidden, mask.removedEdges[EdgeIdx.new j]? = some hidden ∧
      (src ∈ removed → hidden = true) ∧ (hidden = true → src ∈ removed ∨ tgt ∈ removed) := by
  have hlt := hlisted.mem_outRange_lt hj
  have hindex : EdgeIdx.new j = j := Nat.mod_eq_of_lt (hlt.trans_le hslots)
  have hlt' : j < mask.removedEdges.length := by
    rw [h.edges, hlisted.numEdges]
    exact hlt
  refine ⟨mask.removedEdges[j], by rw [hindex]; exact List.getElem?_eq_getElem hlt',
    fun hremoved => ?_, fun hhidden => ?_⟩
  · have hmark := h.outgoing src hremoved hsrc j hj (hlisted.numEdges ▸ hlt)
    exact (List.getElem?_eq_some_iff.mp hmark).2
  · obtain ⟨v, hv, hvlt, hout | ⟨r, hr, hforward⟩⟩ :=
      h.hidden j (List.getElem?_eq_some_iff.mpr ⟨hlt', hhidden⟩)
    · exact .inl (hlisted.outRange_inj hj hout ▸ hv)
    · obtain ⟨i, _, hi, -, hend, -⟩ := htransposed.points v hvlt r hr
      obtain rfl := Option.some.inj (hforward.symm.trans hi)
      exact .inr (Option.some.inj (htgt.symm.trans hend) ▸ hv)

-- The hop of a slot between nodes that are left.
def Graph.hopWithout (graph : Graph Rat T) (removed : List Nat) (src j : Nat) :
    Option (Nat × Rat) :=
  if src ∈ removed then none
  else
    match readSlot graph j with
    | none => none
    | some slot => if slot.1 ∈ removed then none else some (slot.1, slot.2.1)

theorem filterMap_hopWithout (graph : Graph Rat T) (removed : List Nat) (src : Nat) :
    (graph.csr.outRange src).filterMap (graph.hopWithout removed src) =
      graph.hopsWithout removed src := by
  unfold Graph.hopsWithout Graph.hopsOf Graph.slotsOf
  by_cases hsrc : src ∈ removed
  · rw [if_pos hsrc, List.filterMap_eq_nil_iff]
    intro j _
    rw [Graph.hopWithout, if_pos hsrc]
  · rw [if_neg hsrc]
    induction graph.csr.outRange src with
    | nil => rfl
    | cons j slots ih =>
        rw [List.filterMap_cons, List.filterMap_cons, Graph.hopWithout, if_neg hsrc]
        cases readSlot graph j with
        | none => exact ih
        | some slot =>
            by_cases htgt : slot.1 ∈ removed
            · simp only [htgt, if_true, List.map_cons, List.filter_cons, not_true_eq_false,
                decide_false, Bool.false_eq_true, if_false]
              exact ih
            · simp only [htgt, if_false, List.map_cons, List.filter_cons, not_false_eq_true,
                decide_true, if_true]
              rw [ih]

theorem performs_expandMasked (htransposed : graph.Transposed) (hlisted : graph.Listed)
    (hexciting : graph.Exciting) (hslots : graph.csr.targets.length ≤ 2 ^ 32)
    (hhides : mask.Hides graph removed) (config : PropagationConfig) :
    Performs (config.medium (graph.hopsWithout removed)) reopensNone graph.numNodes
      (expandMasked config graph mask) := by
  intro state h src hsrc
  have hact : state.activation[src]? = some (state.activation.getD src 0) := by
    rw [List.getD_eq_getElem?_getD, List.getElem?_eq_getElem (h.activation ▸ hsrc),
      Option.getD_some]
  unfold expandMasked Spreading.expand
  rw [hact, Option.bind_eq_bind, Option.bind_some]
  by_cases hquiet : state.activation.getD src 0 < config.threshold
  · rw [if_pos hquiet]
    refine ⟨state, rfl, h, ?_⟩
    simp only [Propagation.wave, PropagationConfig.medium, hquiet, if_true]
  · rw [if_neg hquiet]
    have hpass : ∀ j ∈ graph.csr.outRange src, ∀ before : Propagation,
        before.Sized graph.numNodes → ∃ next,
          passMasked config graph mask (state.activation.getD src 0) before j = some next ∧
          next.Sized graph.numNodes ∧
          next.wave = (graph.hopWithout removed src j).elim before.wave fun hop =>
                Spreading.arrive (config.medium (graph.hopsWithout removed)) reopensNone before.wave
                  hop.1 ((config.medium (graph.hopsWithout removed)).pass
                    (state.activation.getD src 0) hop.2) := by
      intro j hj before hbefore
      obtain ⟨tgt, w, hslot, htgt⟩ := hexciting src j hj
      have hend : graph.csr.targets[j]? = some tgt := by
        obtain ⟨end_, hend, hrest⟩ := Option.bind_eq_some_iff.mp hslot
        obtain ⟨_, -, hrest⟩ := Option.bind_eq_some_iff.mp hrest
        obtain ⟨_, -, hrest⟩ := Option.bind_eq_some_iff.mp hrest
        obtain rfl := (Prod.mk.inj (Option.some.inj hrest)).1
        exact hend
      obtain ⟨hidden, hhidden, hsource, hends⟩ :=
        hhides.removedEdge htransposed hlisted hslots hsrc hj hend
      unfold passMasked Graph.hopWithout
      rw [hhidden, hslot, Option.bind_eq_bind, Option.bind_some]
      cases hidden with
      | true =>
          refine ⟨before, rfl, hbefore, ?_⟩
          obtain hremoved | hremoved := hends rfl
          · simp only [hremoved, if_true, Option.elim_none]
          · simp only [hremoved, if_true, ite_self, Option.elim_none]
      | false =>
          have hkept : src ∉ removed := fun hremoved => Bool.false_ne_true (hsource hremoved)
          rw [if_neg Bool.false_ne_true, hend, Option.bind_eq_bind, Option.bind_some,
            if_neg (Nat.not_le.mpr htgt), hhides.marked tgt htgt, Option.bind_some]
          by_cases hremoved : tgt ∈ removed
          · simp only [hkept, hremoved, decide_true, if_true, if_false]
            exact ⟨before, rfl, hbefore, rfl⟩
          · simp only [hkept, hremoved, decide_false, Bool.false_eq_true, if_false,
              Option.map_some]
            exact ⟨_, rfl, arriveMasked_wave hbefore htgt⟩
    obtain ⟨next, hnext, hsized, hwave⟩ := exists_arrivals hpass h
    refine ⟨next, hnext, hsized, hwave.trans ?_⟩
    rw [filterMap_hopWithout]
    simp only [Propagation.wave, PropagationConfig.medium, hquiet, if_false]

end Expansions

section Reduced

-- The nodes that are left, in their order.
def Graph.keptNodes (graph : Graph Rat T) (removed : List Nat) : List Nat :=
  (List.range graph.numNodes).filter fun v => v ∉ removed

-- The node that the reduced graph has as its i-th.
def Graph.oldName (graph : Graph Rat T) (removed : List Nat) (i : Nat) : Nat :=
  (graph.keptNodes removed).getD i (graph.numNodes + i)

def Graph.keptSeeds (graph : Graph Rat T) (removed : List Nat) (seeds : Seeds) : Seeds :=
  seeds.filterMap fun entry =>
    ((graph.keptNodes removed).idxOf? entry.1).map fun i => (i, entry.2)

-- A graph of the nodes that are left and the slots between them, each node with its slots in
-- their order.
structure Graph.Deletes (graph : Graph Rat T) (removed : List Nat) (reduced : Graph Rat T) :
    Prop where
  count : reduced.numNodes = (graph.keptNodes removed).length
  slots : ∀ i, (reduced.slotsOf i).map (fun slot => (graph.oldName removed slot.1, slot.2)) =
    (graph.slotsOf (graph.oldName removed i)).filter fun slot => slot.1 ∉ removed
  scorable : reduced.Scorable

-- A node that is not there has no slots.
theorem Graph.slotsOf_of_le (hcovered : graph.csr.offsets.length ≤ graph.numNodes + 1) {v : Nat}
    (hv : graph.numNodes ≤ v) : graph.slotsOf v = [] := by
  rw [Graph.slotsOf, CsrGraph.outRange, if_pos (by omega)]
  rfl

theorem Graph.mem_keptNodes {v : Nat} :
    v ∈ graph.keptNodes removed ↔ v < graph.numNodes ∧ v ∉ removed := by
  rw [Graph.keptNodes, List.mem_filter, List.mem_range, decide_eq_true_iff]

theorem Graph.oldName_lt {i : Nat} (hi : i < (graph.keptNodes removed).length) :
    graph.oldName removed i = (graph.keptNodes removed)[i] := by
  rw [Graph.oldName, List.getD_eq_getElem?_getD, List.getElem?_eq_getElem hi, Option.getD_some]

theorem Graph.oldName_of_le {i : Nat} (hi : (graph.keptNodes removed).length ≤ i) :
    graph.oldName removed i = graph.numNodes + i := by
  rw [Graph.oldName, List.getD_eq_getElem?_getD, List.getElem?_eq_none hi, Option.getD_none]

theorem Graph.oldName_injective (graph : Graph Rat T) (removed : List Nat) :
    Function.Injective (graph.oldName removed) := by
  have hnodup : (graph.keptNodes removed).Nodup := List.nodup_range.filter _
  have hkept {i : Nat} (hi : i < (graph.keptNodes removed).length) :
      graph.oldName removed i < graph.numNodes := by
    rw [Graph.oldName_lt hi]
    exact (Graph.mem_keptNodes.mp (List.getElem_mem hi)).1
  intro i k hsame
  by_cases hi : i < (graph.keptNodes removed).length
  · by_cases hk : k < (graph.keptNodes removed).length
    · rw [Graph.oldName_lt hi, Graph.oldName_lt hk] at hsame
      exact (hnodup.getElem_inj_iff).mp hsame
    · have hlt := hkept hi
      rw [hsame, Graph.oldName_of_le (Nat.not_lt.mp hk)] at hlt
      omega
  · by_cases hk : k < (graph.keptNodes removed).length
    · have hlt := hkept hk
      rw [← hsame, Graph.oldName_of_le (Nat.not_lt.mp hi)] at hlt
      omega
    · rw [Graph.oldName_of_le (Nat.not_lt.mp hi), Graph.oldName_of_le (Nat.not_lt.mp hk)] at hsame
      omega

theorem Graph.oldName_idxOf? {v i : Nat} (h : (graph.keptNodes removed).idxOf? v = some i) :
    i < (graph.keptNodes removed).length ∧ graph.oldName removed i = v := by
  obtain ⟨hi, heq, -⟩ := List.findIdx?_eq_some_iff_getElem.mp h
  exact ⟨hi, (Graph.oldName_lt hi).trans (by simpa using heq)⟩

theorem Graph.idxOf?_eq_none {v : Nat} :
    (graph.keptNodes removed).idxOf? v = none ↔ graph.numNodes ≤ v ∨ v ∈ removed := by
  rw [List.idxOf?_eq_none_iff, Graph.mem_keptNodes, not_and_or, Nat.not_lt, not_not]

-- What the hops of the reduced graph are called in the whole one.
theorem Graph.Deletes.renames {reduced : Graph Rat T} (h : graph.Deletes removed reduced)
    (hcovered : graph.csr.offsets.length ≤ graph.numNodes + 1) (config : PropagationConfig) :
    (config.medium (graph.hopsWithout removed)).Renames (graph.oldName removed)
      (config.medium reduced.hopsOf) where
  pass := rfl
  threshold := rfl
  hops i := by
    have hslots := congrArg (List.map fun slot : Nat × Rat × Bool => (slot.1, slot.2.1)) (h.slots i)
    rw [List.map_map] at hslots
    have hhops : (reduced.hopsOf i).map (fun hop => (graph.oldName removed hop.1, hop.2)) =
        (graph.hopsOf (graph.oldName removed i)).filter fun hop => hop.1 ∉ removed := by
      rw [Graph.hopsOf, Graph.hopsOf, List.map_map, List.filter_map]
      exact hslots
    show graph.hopsWithout removed (graph.oldName removed i) = _
    rw [PropagationConfig.medium, hhops, Graph.hopsWithout]
    split
    case isTrue hremoved =>
      -- A node that is not there has no slots, whether it is removed or not.
      have hbeyond : graph.numNodes ≤ graph.oldName removed i := by
        by_contra hlt
        have hi : i < (graph.keptNodes removed).length := by
          by_contra hi
          rw [Graph.oldName_of_le (Nat.not_lt.mp hi)] at hlt
          omega
        rw [Graph.oldName_lt hi] at hremoved
        exact (Graph.mem_keptNodes.mp (List.getElem_mem hi)).2 hremoved
      rw [Graph.hopsOf, Graph.slotsOf_of_le hcovered hbeyond]
      rfl
    case isFalse => rfl

theorem Graph.Deletes.exciting {reduced : Graph Rat T} (h : graph.Deletes removed reduced)
    (hexciting : graph.Exciting) : reduced.Exciting := by
  intro i j hj
  obtain ⟨⟨tgt, w, inhibitory⟩, hslot, htgt⟩ := h.scorable i j hj
  have hmem : (graph.oldName removed tgt, w, inhibitory) ∈
      (reduced.slotsOf i).map fun slot => (graph.oldName removed slot.1, slot.2) :=
    List.mem_map.mpr ⟨_, List.mem_filterMap.mpr ⟨j, hj, hslot⟩, rfl⟩
  rw [h.slots, List.mem_filter] at hmem
  obtain ⟨j', hj', hslot'⟩ := List.mem_filterMap.mp hmem.1
  obtain ⟨tgt', w', hexcites, -⟩ := hexciting _ j' hj'
  obtain rfl := congrArg (fun slot => slot.2.2) (Option.some.inj (hslot'.symm.trans hexcites))
  exact ⟨tgt, w, hslot, htgt⟩

end Reduced

section Scores

theorem Propagation.scores_eq {keep : Nat → Bool} (activation : List Rat) :
    Propagation.scores keep activation =
      (((List.range activation.length).filter keep).filterMap fun v =>
        if 0 < activation.getD v 0 then some (v, activation.getD v 0) else none).mergeSort
          fun a b => b.2 ≤ a.2 := by
  have hzip : activation.zipIdx = (List.range activation.length).map fun v =>
      (activation.getD v 0, v) := by
    refine List.ext_getElem (by simp) fun i hi _ => ?_
    rw [List.length_zipIdx] at hi
    simp [hi]
  rw [Propagation.scores, hzip]
  congr 1
  induction List.range activation.length with
  | nil => rfl
  | cons v rest ih =>
      by_cases hpos : 0 < activation.getD v 0 <;> by_cases hkeep : keep v = true <;>
        simp_all

theorem Propagation.mem_scores {keep : Nat → Bool} {activation : List Rat} {v : Nat} {score : Rat} :
    (v, score) ∈ Propagation.scores keep activation ↔
      v < activation.length ∧ keep v = true ∧ 0 < score ∧ activation.getD v 0 = score := by
  rw [Propagation.scores_eq, List.mem_mergeSort, List.mem_filterMap]
  simp only [List.mem_filter, List.mem_range]
  constructor
  · rintro ⟨u, ⟨hu, hkeep⟩, hentry⟩
    split at hentry
    case isTrue hpos =>
      obtain ⟨rfl, rfl⟩ := Prod.mk.inj (Option.some.inj hentry)
      exact ⟨hu, hkeep, hpos, rfl⟩
    case isFalse => exact nomatch hentry
  · rintro ⟨hv, hkeep, hpos, rfl⟩
    exact ⟨v, ⟨hv, hkeep⟩, if_pos hpos⟩

-- Without an activation there are no scores.
theorem Propagation.scores_eq_nil {keep : Nat → Bool} {activation : List Rat}
    (h : ∀ v, ¬ 0 < activation.getD v 0) : Propagation.scores keep activation = [] := by
  rw [Propagation.scores_eq]
  have hnone : (((List.range activation.length).filter keep).filterMap fun v =>
      if 0 < activation.getD v 0 then some (v, activation.getD v 0) else none) = [] :=
    List.filterMap_eq_nil_iff.mpr fun v _ => if_neg (h v)
  rw [hnone, List.mergeSort_nil]

-- The scores of the nodes that are left, under their other names.
theorem Propagation.scores_map {graph : Graph Rat T} {keep : Nat → Bool}
    {activation activation' : List Rat} (hlength : activation.length = graph.numNodes)
    (hkeep : ∀ v < graph.numNodes, keep v = decide (v ∉ removed))
    (hlength' : activation'.length = (graph.keptNodes removed).length)
    (hact : ∀ i, activation.getD (graph.oldName removed i) 0 = activation'.getD i 0) :
    Propagation.scores keep activation =
      (Propagation.scores (fun _ => true) activation').map fun entry =>
        (graph.oldName removed entry.1, entry.2) := by
  have hkept : (List.range activation.length).filter keep =
      (List.range activation'.length).map (graph.oldName removed) := by
    have hfilter : (List.range activation.length).filter keep = graph.keptNodes removed := by
      rw [Graph.keptNodes, hlength]
      exact List.filter_congr fun v hv => hkeep v (List.mem_range.mp hv)
    rw [hfilter, hlength']
    refine List.ext_getElem (by simp) fun i hi _ => ?_
    rw [List.getElem_map, List.getElem_range, Graph.oldName_lt hi]
  rw [Propagation.scores_eq, Propagation.scores_eq, hkept, List.filterMap_map,
    List.filter_true, List.map_mergeSort (s := fun a b => decide (b.2 ≤ a.2)), List.map_filterMap]
  · congr 1
    refine List.filterMap_congr fun i _ => ?_
    rw [Function.comp_apply, hact]
    split <;> rfl
  · exact fun _ _ _ _ => rfl

end Scores

section Propagations

-- No node that the engine expands again raises an activation.
def WavefrontEngine.Idle (config : PropagationConfig) (graph : Graph Rat T) (seeds : Seeds) : Prop :=
  Spreading.Idle (config.medium graph.hopsOf) reopens (min config.maxDepth 20) []
    (seeds.foldl (Propagation.seed config graph.numNodes) (.start graph.numNodes)).wave

theorem Propagation.wave_start (n : Nat) :
    (Propagation.start n).wave = ⟨fun _ => 0, fun _ => false, []⟩ := by
  unfold Propagation.wave Propagation.start
  congr 1
  · funext v
    rw [List.getD_eq_getElem?_getD, List.getElem?_replicate]
    split <;> rfl
  · funext v
    rw [List.getD_eq_getElem?_getD, List.getElem?_replicate]
    split <;> rfl

theorem Propagation.Sized.seeds {n : Nat} {state : Propagation} (h : state.Sized n)
    (config : PropagationConfig) (seeds : Seeds) :
    (seeds.foldl (Propagation.seed config n) state).Sized n := by
  induction seeds generalizing state with
  | nil => exact h
  | cons entry seeds ih =>
      refine ih ?_
      by_cases hv : entry.1 < n
      · exact (h.seed config hv entry.2).1
      · rw [Propagation.seed, if_neg hv]
        exact h

-- A seed that is left is planted in both graphs, and the others in none.
theorem RemovalMask.Hides.exists_seeds (hhides : mask.Hides graph removed)
    (config : PropagationConfig) (seeds : Seeds) {state state' : Propagation}
    (h : state.Sized graph.numNodes) (h' : state'.Sized (graph.keptNodes removed).length)
    (hrenames : state.wave.Renames (graph.oldName removed) state'.wave)
    (hplanted : Planted state'.wave) :
    ∃ next, seeds.foldlM (seedMasked config graph mask) state = some next ∧
      next.Sized graph.numNodes ∧
      next.wave.Renames (graph.oldName removed) ((graph.keptSeeds removed seeds).foldl
        (Propagation.seed config (graph.keptNodes removed).length) state').wave ∧
      Planted ((graph.keptSeeds removed seeds).foldl
        (Propagation.seed config (graph.keptNodes removed).length) state').wave := by
  induction seeds generalizing state state' with
  | nil => exact ⟨state, rfl, h, hrenames, hplanted⟩
  | cons entry seeds ih =>
      obtain ⟨v, score⟩ := entry
      rw [List.foldlM_cons]
      cases hindex : (graph.keptNodes removed).idxOf? v with
      | none =>
          have hdropped : graph.keptSeeds removed ((v, score) :: seeds) =
              graph.keptSeeds removed seeds := by
            rw [Graph.keptSeeds, List.filterMap_cons, hindex]
            rfl
          have hskip : seedMasked config graph mask state (v, score) = some state := by
            unfold seedMasked
            by_cases hv : graph.numNodes ≤ v
            · rw [if_pos hv]
            · have hremoved := (Graph.idxOf?_eq_none.mp hindex).resolve_left hv
              rw [if_neg hv, hhides.marked v (Nat.not_le.mp hv), decide_eq_true hremoved]
              rfl
          rw [hdropped, hskip]
          exact ih h h' hrenames hplanted
      | some i =>
          obtain ⟨hi, rfl⟩ := Graph.oldName_idxOf? hindex
          have hkept := Graph.mem_keptNodes.mp (Graph.oldName_lt hi ▸ List.getElem_mem hi)
          have hsown : graph.keptSeeds removed ((graph.oldName removed i, score) :: seeds) =
              (i, score) :: graph.keptSeeds removed seeds := by
            rw [Graph.keptSeeds, List.filterMap_cons, hindex]
            rfl
          have hplant : seedMasked config graph mask state (graph.oldName removed i, score) =
              some (state.seed config graph.numNodes (graph.oldName removed i, score)) := by
            unfold seedMasked
            rw [if_neg (Nat.not_le.mpr hkept.1), hhides.marked _ hkept.1,
              decide_eq_false hkept.2]
            rfl
          obtain ⟨hsized, hwave⟩ := h.seed config hkept.1 score
          obtain ⟨hsized', hwave'⟩ := h'.seed config hi score
          rw [hsown, hplant]
          refine ih hsized hsized' ?_ ?_
          · rw [hwave, hwave']
            exact hrenames.plant (Graph.oldName_injective graph removed) i _
          · rw [hwave']
            exact hplanted.plant i _

-- The answer for no nodes and for no seeds is the one that the run gives.
theorem WavefrontEngine.exists_propagate (hexciting : graph.Exciting) (config : PropagationConfig)
    (seeds : Seeds) : ∃ state : Propagation, state.Sized graph.numNodes ∧
      state.wave = levels (config.medium graph.hopsOf) reopens (min config.maxDepth 20)
        (seeds.foldl (Propagation.seed config graph.numNodes) (.start graph.numNodes)).wave ∧
      WavefrontEngine.propagate config graph seeds =
        some (Propagation.scores (fun _ => true) state.activation) := by
  obtain ⟨state, hreach, hsized, hwave⟩ := (performs_expand hexciting config).exists_levels
    ((Propagation.sized_start graph.numNodes).seeds config seeds) (min config.maxDepth 20)
  refine ⟨state, hsized, hwave, ?_⟩
  unfold WavefrontEngine.propagate
  split
  case isTrue hnone =>
    refine congrArg some (Propagation.scores_eq_nil fun v => ?_).symm
    obtain hnone | rfl := hnone
    · have hempty := List.length_eq_zero_iff.mp (hsized.activation.trans hnone)
      rw [hempty]
      exact lt_irrefl 0
    · rw [List.foldl_nil, Propagation.wave_start, levels_of_next_nil rfl] at hwave
      have hact : state.activation.getD v 0 = 0 := congrFun (congrArg Wave.act hwave) v
      rw [hact]
      exact lt_irrefl 0
  case isFalse => rw [WavefrontEngine.reach, hreach, Option.map_some]

-- A masked propagation goes through the reduced graph and queues each node once.
theorem Graph.Deletes.exists_propagateWithMask (hsound : graph.Sound)
    (htransposed : graph.Transposed) (hlisted : graph.Listed) (hexciting : graph.Exciting)
    (hslots : graph.csr.targets.length ≤ 2 ^ 32) (hhides : mask.Hides graph removed)
    {reduced : Graph Rat T} (h : graph.Deletes removed reduced) (config : PropagationConfig)
    (seeds : Seeds) :
    let start := (graph.keptSeeds removed seeds).foldl
      (Propagation.seed config reduced.numNodes) (.start reduced.numNodes)
    ∃ state : Propagation, state.Sized graph.numNodes ∧ Planted start.wave ∧
      state.wave.Renames (graph.oldName removed) (levels (config.medium reduced.hopsOf) reopensNone
        (min config.maxDepth 20) start.wave) ∧
      propagateWithMask config graph mask seeds = some (Propagation.scores
        (fun v => mask.removedNodes.getD v false = false) state.activation) := by
  intro start
  have hstart : (Propagation.start graph.numNodes).wave.Renames (graph.oldName removed)
      (Propagation.start (graph.keptNodes removed).length).wave := by
    rw [Propagation.wave_start, Propagation.wave_start]
    exact ⟨fun _ => rfl, fun _ => rfl, rfl⟩
  have hempty : Planted (Propagation.start (graph.keptNodes removed).length).wave := by
    rw [Propagation.wave_start]
    exact ⟨List.nodup_nil, fun v => ⟨nofun, fun hv => absurd hv List.not_mem_nil⟩⟩
  obtain ⟨before, hseeds, hsized, hrenames, hplanted⟩ := hhides.exists_seeds config seeds
    (Propagation.sized_start _) (Propagation.sized_start _) hstart hempty
  rw [← h.count] at hrenames hplanted
  obtain ⟨state, hlevels, hsized', hwave⟩ :=
    (performs_expandMasked htransposed hlisted hexciting hslots hhides config).exists_levels hsized
      (min config.maxDepth 20)
  have hrenames' := hrenames.levels (Graph.oldName_injective graph removed)
    (h.renames hsound.covered config) reopensNone (min config.maxDepth 20)
  rw [← hwave] at hrenames'
  refine ⟨state, hsized', hplanted, hrenames', ?_⟩
  unfold propagateWithMask
  split
  case isTrue hnone =>
    refine congrArg some (Propagation.scores_eq_nil fun v => ?_).symm
    obtain hnone | rfl := hnone
    · have hempty := List.length_eq_zero_iff.mp (hsized'.activation.trans hnone)
      rw [hempty]
      exact lt_irrefl 0
    · obtain rfl := Option.some.inj hseeds
      rw [Propagation.wave_start, levels_of_next_nil rfl] at hwave
      have hact : state.activation.getD v 0 = 0 := congrFun (congrArg Wave.act hwave) v
      rw [hact]
      exact lt_irrefl 0
  case isFalse =>
    rw [hseeds, Option.bind_eq_bind, Option.bind_some, hlevels]
    rfl

-- The masked propagation is the engine's on the reduced graph, where the engine gains nothing from
-- what it expands again.
theorem Graph.Deletes.propagateWithMask (hsound : graph.Sound) (htransposed : graph.Transposed)
    (hlisted : graph.Listed) (hexciting : graph.Exciting)
    (hslots : graph.csr.targets.length ≤ 2 ^ 32) (hhides : mask.Hides graph removed)
    {reduced : Graph Rat T} (h : graph.Deletes removed reduced) {seeds : Seeds}
    (hidle : WavefrontEngine.Idle config reduced (graph.keptSeeds removed seeds)) :
    ∃ scores, WavefrontEngine.propagate config reduced (graph.keptSeeds removed seeds) =
        some scores ∧
      propagateWithMask config graph mask seeds =
        some (scores.map fun entry => (graph.oldName removed entry.1, entry.2)) := by
  obtain ⟨state', hsized', hwave', hpropagate⟩ := WavefrontEngine.exists_propagate
    (h.exciting hexciting) config (graph.keptSeeds removed seeds)
  obtain ⟨state, hsized, hplanted, hrenames, hmasked⟩ :=
    h.exists_propagateWithMask hsound htransposed hlisted hexciting hslots hhides config seeds
  refine ⟨_, hpropagate, hmasked.trans (congrArg some ?_)⟩
  refine Propagation.scores_map hsized.activation (fun v hv => ?_)
    (hsized'.activation.trans h.count) fun i => ?_
  · rw [List.getD_eq_getElem?_getD, hhides.marked v hv, Option.getD_some]
    by_cases hremoved : v ∈ removed <;> simp [hremoved]
  · have hact := congrFun (hplanted.mirrors.levels hidle) i
    rw [← hwave'] at hact
    exact (hrenames.act i).trans hact

end Propagations

end M1nd.Core
