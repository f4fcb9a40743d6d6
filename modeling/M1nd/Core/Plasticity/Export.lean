import M1nd.Core.Plasticity
import M1nd.Core.Snapshot.Coherent

namespace M1nd.Core

open M1nd.Library.Checks
open M1nd.Library.Loops

variable {W F T : Type} [FiniteF32 W F]

section Export

-- A weight that is not finite falls back to the original one. A slot behind the node table gets
-- a made-up label, and a relation without a string a made-up name.
def exportSlot (graph : Graph W T) (ids : List String) (sources : List Nat) (j : Nat) :
    Except SnapshotError (SynapticState F) := do
  let original ← orPanic graph.edgePlasticity.originalWeight[j]?
  let current ← orPanic graph.edgePlasticity.currentWeight[j]?
  let source ← orPanic sources[j]?
  let target ← orPanic graph.csr.targets[j]?
  let relation ← orPanic graph.csr.relations[j]?
  let direction ← orPanic graph.csr.directions[j]?
  let inhibitory ← orPanic graph.csr.inhibitory[j]?
  let strengthenCount ← orPanic graph.edgePlasticity.strengthenCount[j]?
  let weakenCount ← orPanic graph.edgePlasticity.weakenCount[j]?
  let ltpApplied ← orPanic graph.edgePlasticity.ltpApplied[j]?
  let ltdApplied ← orPanic graph.edgePlasticity.ltdApplied[j]?
  let lastUsedQuery ← orPanic graph.edgePlasticity.lastUsedQuery[j]?
  let isFinite : F → Bool := FiniteF32.isFinite W
  .ok {
    sourceLabel := ids[source]?.getD s!"node_{source}"
    targetLabel := ids[target]?.getD s!"node_{target}"
    relation := (graph.strings.tryResolve relation).getD "edge"
    direction := some direction.code
    inhibitory := some inhibitory
    originalWeight := FiniteF32.get original
    currentWeight :=
      if isFinite (FiniteF32.get current) then FiniteF32.get current else FiniteF32.get original
    strengthenCount := strengthenCount
    weakenCount := weakenCount
    ltpApplied := ltpApplied
    ltdApplied := ltdApplied
    lastUsedQuery := lastUsedQuery }

-- The engine itself is not read.
def exportState (graph : Graph W T) : Except SnapshotError (List (SynapticState F)) :=
  let numCsr := graph.csr.numEdges
  let plasticity := graph.edgePlasticity
  if plasticity.originalWeight.length ≠ numCsr ∨ plasticity.currentWeight.length ≠ numCsr ∨
      plasticity.strengthenCount.length ≠ numCsr ∨ plasticity.weakenCount.length ≠ numCsr ∨
      plasticity.ltpApplied.length ≠ numCsr ∨ plasticity.ltdApplied.length ≠ numCsr ∨
      plasticity.lastUsedQuery.length ≠ numCsr ∨ graph.csr.weights.length ≠ numCsr ∨
      graph.csr.targets.length ≠ numCsr ∨ graph.csr.relations.length ≠ numCsr ∨
      graph.csr.directions.length ≠ numCsr ∨ graph.csr.inhibitory.length ≠ numCsr then
    .error (.CorruptState "cannot export a partial CSR/plasticity ownership set")
  else do
    let ids := importedExtIds graph
    let sources ← importedSources graph
    (List.range numCsr).mapM (exportSlot graph ids sources)

end Export

section Sources

variable {graph : Graph W T}

-- Every slot is assigned in its turn.
def assignImported (sources : List Nat) (slot : Nat × Nat) : Except SnapshotError (List Nat) :=
  if sources.length ≤ slot.2 then .error .Panicked else .ok (sources.set slot.2 slot.1)

theorem foldlM_assignImported (slots : List (Nat × Nat)) (assigned : List Nat)
    (hslots : slots.map Prod.snd = List.range' assigned.length slots.length) :
    slots.foldlM assignImported (assigned ++ List.replicate slots.length 0) =
      .ok (assigned ++ slots.map Prod.fst) := by
  induction slots generalizing assigned with
  | nil => simp; rfl
  | cons slot slots ih =>
      rw [List.map_cons, List.length_cons, List.range'_succ, List.cons.injEq] at hslots
      obtain ⟨hfirst, hrest⟩ := hslots
      have hstep : assignImported (assigned ++ List.replicate (slots.length + 1) 0) slot =
          .ok ((assigned ++ [slot.1]) ++ List.replicate slots.length 0) := by
        have hbound : ¬ (assigned ++ List.replicate (slots.length + 1) 0).length ≤ slot.2 := by
          simp [hfirst]
        rw [assignImported, if_neg hbound]
        simp [hfirst, List.set_append_right, List.replicate_succ]
      rw [List.foldlM_cons, List.length_cons, hstep]
      have hlength : (assigned ++ [slot.1]).length = assigned.length + 1 := by simp
      have hnext := ih (assigned ++ [slot.1]) (by rw [hlength]; exact hrest)
      rw [List.append_assoc assigned [slot.1] (slots.map Prod.fst)] at hnext
      exact hnext

-- The offsets of a graph that was finalized after its last node give each slot its source.
theorem importedSources_eq (h : graph.Listed)
    (hlength : graph.csr.offsets.length = graph.nodes.count + 1) :
    importedSources graph =
      .ok ((edgeSlots (graph.csr.offsets.length - 1) graph.csr.offsets).map Prod.fst) := by
  have hassigned := foldlM_assignImported
    (edgeSlots (graph.csr.offsets.length - 1) graph.csr.offsets) [] (by
      rw [h.indices, h.length_edgeSlots, List.range_eq_range']
      rfl)
  rw [List.nil_append, List.nil_append, h.length_edgeSlots, ← h.numEdges] at hassigned
  rw [← hassigned, edgeSlots, foldlM_flatMap, hlength, Nat.add_sub_cancel]
  unfold importedSources
  refine foldlM_congr (fun i hi sources => ?_) _
  have hlt := List.mem_range.mp hi
  have hlow : graph.csr.offsets[i]? = some (graph.csr.offsets.getD i 0) := by
    rw [List.getD_eq_getElem?_getD, List.getElem?_eq_getElem (by omega), Option.getD_some]
  have hhigh : graph.csr.offsets[i + 1]? = some (graph.csr.offsets.getD (i + 1) 0) := by
    rw [List.getD_eq_getElem?_getD, List.getElem?_eq_getElem (by omega), Option.getD_some]
  simp only [hlow, hhigh, orPanic_some, List.foldlM_map]
  rfl

theorem importedSources_error {e : SnapshotError} (h : importedSources graph = .error e) :
    e = .Panicked := by
  refine foldlM_eq_error (· = .Panicked) (fun sources i _ e he => ?_) h
  cases hlow : graph.csr.offsets[i]? with
  | none =>
      rw [hlow] at he
      exact (Except.error.inj he).symm
  | some low =>
      cases hhigh : graph.csr.offsets[i + 1]? with
      | none =>
          rw [hlow, hhigh] at he
          exact (Except.error.inj he).symm
      | some high =>
          rw [hlow, hhigh] at he
          refine foldlM_eq_error (· = .Panicked) (fun sources j _ e hassign => ?_) he
          by_cases hbound : sources.length ≤ j
          · rw [if_pos hbound] at hassign
            exact (Except.error.inj hassign).symm
          · rw [if_neg hbound] at hassign
            exact absurd hassign nofun

-- Without the offsets of the last nodes the loop indexes behind their end.
theorem importedSources_panics (hpos : 0 < graph.nodes.count)
    (hlength : graph.csr.offsets.length ≤ graph.nodes.count) :
    importedSources graph = .error .Panicked := by
  cases hsources : importedSources graph with
  | error e => rw [importedSources_error hsources]
  | ok sources =>
      obtain ⟨last, hlast⟩ := Nat.exists_eq_succ_of_ne_zero (Nat.ne_of_gt hpos)
      rw [importedSources, hlast, List.range_succ, List.foldlM_append, bind_eq_ok] at hsources
      obtain ⟨before, -, hstep⟩ := hsources
      have hnone : graph.csr.offsets[last + 1]? = none := List.getElem?_eq_none (by omega)
      rw [List.foldlM_cons, hnone, bind_eq_ok] at hstep
      obtain ⟨after, hafter, -⟩ := hstep
      rw [bind_eq_ok] at hafter
      obtain ⟨low, -, hhigh⟩ := hafter
      exact absurd hhigh nofun

end Sources

section Rows

variable [Zero W] {graph : Graph W T} {ids : List String}

-- The row of a slot.
def Graph.synapticState (graph : Graph W T) (slot : Slot W) : SynapticState F where
  sourceLabel := (importedExtIds graph)[slot.source]?.getD s!"node_{slot.source}"
  targetLabel := (importedExtIds graph)[slot.target]?.getD s!"node_{slot.target}"
  relation := (graph.strings.tryResolve slot.relation).getD "edge"
  direction := some slot.direction.code
  inhibitory := some slot.inhibitory
  originalWeight := FiniteF32.get slot.synapse.originalWeight
  currentWeight := FiniteF32.get slot.synapse.currentWeight
  strengthenCount := slot.synapse.strengthenCount
  weakenCount := slot.synapse.weakenCount
  ltpApplied := slot.synapse.ltpApplied
  ltdApplied := slot.synapse.ltdApplied
  lastUsedQuery := slot.synapse.lastUsedQuery

theorem exportSlot_eq (h : graph.Tabled) (hpending : graph.csr.pendingEdges = []) {j : Nat}
    {slot : Slot W} (hslot : graph.slots[j]? = some slot) :
    exportSlot graph (importedExtIds graph)
      ((edgeSlots (graph.csr.offsets.length - 1) graph.csr.offsets).map Prod.fst) j =
        .ok (graph.synapticState slot : SynapticState F) := by
  have hsynapses := h.listed.synapses
  rw [hpending, List.length_nil, Nat.add_zero] at hsynapses
  rw [Graph.slots, List.getElem?_map] at hslot
  obtain ⟨entry, hentry, rfl⟩ := Option.map_eq_some_iff.mp hslot
  obtain ⟨rfl, hj⟩ := h.listed.snd_edgeSlots hentry
  unfold exportSlot
  simp only [List.getElem?_map, hentry, Option.map_some, orPanic_some,
    getElem?_eq_getD rfl hj 0, getElem?_eq_getD h.relations hj 0,
    getElem?_eq_getD h.directions hj .Forward, getElem?_eq_getD h.inhibitory hj false,
    getElem?_eq_getD hsynapses.originalWeight hj 0, getElem?_eq_getD hsynapses.currentWeight hj 0,
    getElem?_eq_getD hsynapses.strengthenCount hj 0, getElem?_eq_getD hsynapses.weakenCount hj 0,
    getElem?_eq_getD hsynapses.ltpApplied hj false, getElem?_eq_getD hsynapses.ltdApplied hj false,
    getElem?_eq_getD hsynapses.lastUsedQuery hj 0, FiniteF32.isFinite_get, if_true, bind, Except.bind]
  rfl

omit [Zero W] in
-- Without staged edges the arrays have one length.
theorem exportState_unguarded (h : graph.Tabled) (hpending : graph.csr.pendingEdges = []) :
    (exportState graph : Except SnapshotError (List (SynapticState F))) =
      importedSources graph >>= fun sources =>
        (List.range graph.csr.numEdges).mapM (exportSlot graph (importedExtIds graph) sources) := by
  have hsynapses := h.listed.synapses
  rw [hpending, List.length_nil, Nat.add_zero, ← h.listed.numEdges] at hsynapses
  unfold exportState
  rw [if_neg]
  rw [hsynapses.originalWeight, hsynapses.currentWeight, hsynapses.strengthenCount,
    hsynapses.weakenCount, hsynapses.ltpApplied, hsynapses.ltdApplied, hsynapses.lastUsedQuery,
    h.listed.weights, h.relations, h.directions, h.inhibitory, h.listed.numEdges]
  simp

-- A graph without staged edges whose offsets reach its last node has a row for each slot.
theorem exportState_eq (h : graph.Tabled) (hpending : graph.csr.pendingEdges = [])
    (hlength : graph.csr.offsets.length = graph.nodes.count + 1) :
    exportState graph = .ok (graph.slots.map (graph.synapticState (F := F))) := by
  have hslots : graph.slots.length = graph.csr.numEdges := by
    rw [Graph.slots, List.length_map, h.listed.length_edgeSlots, h.listed.numEdges]
  have hrow : ∀ (j : Nat) (slot : Slot W), graph.slots[j]? = some slot →
      exportSlot graph (importedExtIds graph)
        ((edgeSlots (graph.csr.offsets.length - 1) graph.csr.offsets).map Prod.fst) j =
          .ok (graph.synapticState slot : SynapticState F) :=
    fun _ _ => exportSlot_eq h hpending
  have hrows := mapM_range hrow
  rw [hslots] at hrows
  rw [exportState_unguarded h hpending, importedSources_eq h.listed hlength]
  exact hrows

end Rows

section Reachable

variable [Zero W] {graph : Graph W T}

theorem Graph.Coherent.finalized (h : graph.Coherent F) (hfinal : graph.finalized = true) :
    graph.csr.pendingEdges = [] ∧ graph.csr.offsets.length = graph.nodes.count + 1 := by
  obtain ⟨hparallel, -⟩ := h.sound.finalized hfinal
  have hlength := h.tabled.listed.synapses.originalWeight
  rw [hparallel.plasticity.1] at hlength
  exact ⟨List.length_eq_zero_iff.mp (by omega), hparallel.offsets.length⟩

theorem GraphOp.coherent_run (F : Type) [FiniteF32 W F] (ops : List (GraphOp W T)) :
    (GraphOp.run ops).Coherent F := by
  induction ops using List.reverseRecOn with
  | nil => exact Graph.coherent_new
  | append_singleton ops op ih =>
      rw [GraphOp.run_concat]
      exact ih.apply op

omit [FiniteF32 W F] [Zero W] in
theorem Graph.addEdge_stages (graph : Graph W T) (source target : Nat) (relation : String)
    (weight : W) (direction : EdgeDirection) (inhibitory : Bool) (causalStrength : W) :
    (graph.addEdge source target relation weight direction inhibitory causalStrength).2 = graph ∨
      (graph.addEdge source target relation weight direction inhibitory
        causalStrength).2.csr.pendingEdges ≠ [] := by
  unfold Graph.addEdge
  by_cases hsource : graph.nodes.count ≤ source
  · exact .inl (by rw [if_pos hsource])
  · by_cases htarget : graph.nodes.count ≤ target
    · exact .inl (by rw [if_neg hsource, if_pos htarget])
    · right
      rw [if_neg hsource, if_neg htarget]
      exact List.concat_ne_nil _ _

omit [FiniteF32 W F] in
-- The last change of an unfinalized graph without staged edges was a new node.
theorem GraphOp.uncovered_run (ops : List (GraphOp W T))
    (hfinal : (GraphOp.run ops).finalized = false)
    (hpending : (GraphOp.run ops).csr.pendingEdges = []) :
    (GraphOp.run ops).csr.offsets.length ≤ (GraphOp.run ops).nodes.count := by
  induction ops using List.reverseRecOn with
  | nil => exact Nat.le_refl 0
  | append_singleton ops op ih =>
      rw [GraphOp.run_concat] at hfinal hpending ⊢
      cases op with
      | addNode externalId label nodeType tags lastModified changeFrequency =>
          obtain ⟨strings, he⟩ | ⟨nodes, strings, idToNode, hcount, he⟩ :=
            (GraphOp.run ops).addNode_cases externalId label nodeType tags lastModified
              changeFrequency
          · rw [GraphOp.apply, he] at hfinal hpending ⊢
            exact ih hfinal hpending
          · rw [GraphOp.apply, he]
            have hcovered := (GraphOp.sound_run ops).covered
            change (GraphOp.run ops).csr.offsets.length ≤ nodes.count
            omega
      | addEdge source target relation weight direction inhibitory causalStrength =>
          obtain he | hstaged := (GraphOp.run ops).addEdge_stages source target relation weight
            direction inhibitory causalStrength
          · rw [GraphOp.apply, he] at hfinal hpending ⊢
            exact ih hfinal hpending
          · exact absurd hpending hstaged
      | storeWeight slot weight =>
          rw [GraphOp.apply] at hfinal hpending ⊢
          by_cases hslot : slot < (GraphOp.run ops).csr.targets.length
          · rw [if_pos hslot] at hfinal hpending ⊢
            exact ih hfinal hpending
          · rw [if_neg hslot] at hfinal hpending ⊢
            exact ih hfinal hpending
      | storeSynapse slot synapse =>
          rw [GraphOp.apply] at hfinal hpending ⊢
          by_cases hslot : slot < (GraphOp.run ops).csr.targets.length
          · rw [if_pos hslot] at hfinal hpending ⊢
            exact ih hfinal hpending
          · rw [if_neg hslot] at hfinal hpending ⊢
            exact ih hfinal hpending
      | finalize =>
          rw [GraphOp.apply, Graph.finalized_finalize] at hfinal
          exact absurd hfinal (by simp)

-- The export of a graph does not panic if and only if the graph is finalized, has a staged edge
-- or has no nodes.
theorem exportState_returns_iff (F : Type) [FiniteF32 W F] (ops : List (GraphOp W T)) :
    (exportState (GraphOp.run ops) : Except SnapshotError (List (SynapticState F))) ≠
        .error .Panicked ↔
      (GraphOp.run ops).finalized = true ∨ (GraphOp.run ops).csr.pendingEdges ≠ [] ∨
        (GraphOp.run ops).numNodes = 0 := by
  have hcoherent := GraphOp.coherent_run F ops
  have huncovered := GraphOp.uncovered_run ops
  generalize GraphOp.run ops = graph at hcoherent huncovered ⊢
  have hlisted := hcoherent.tabled.listed
  by_cases hpending : graph.csr.pendingEdges = []
  · by_cases hfinal : graph.finalized = true
    · have hlength := (hcoherent.finalized hfinal).2
      rw [exportState_eq hcoherent.tabled hpending hlength]
      simp [hfinal]
    · have hle := huncovered (Bool.eq_false_iff.mpr hfinal) hpending
      rw [exportState_unguarded hcoherent.tabled hpending]
      by_cases hnodes : graph.nodes.count = 0
      · have hoffsets : graph.csr.offsets = [] := List.length_eq_zero_iff.mp (by omega)
        have hedges : graph.csr.numEdges = 0 := by
          rw [CsrGraph.numEdges, hoffsets]
          rfl
        have hsources : importedSources graph = .ok [] := by
          rw [importedSources, hnodes, hedges]
          rfl
        rw [hsources, hedges]
        simp [Graph.numNodes, hnodes, bind, Except.bind, pure, Except.pure]
      · rw [importedSources_panics (Nat.pos_of_ne_zero hnodes) hle]
        simp [Graph.numNodes, hnodes, hfinal, hpending, bind, Except.bind]
  · have hlength : graph.edgePlasticity.originalWeight.length ≠ graph.csr.numEdges := by
      have hstaged := List.length_pos_iff.mpr hpending
      rw [hlisted.synapses.originalWeight, hlisted.numEdges]
      omega
    unfold exportState
    rw [if_pos (.inl hlength)]
    simp [hpending]

end Reachable

-- A node that was never followed by a finalize.
theorem exportState_panics :
    ¬ ∀ ops : List (GraphOp Rat Nat),
      (exportState (GraphOp.run ops) : Except SnapshotError (List (SynapticState Rat))) ≠
        .error .Panicked := by
  intro h
  have hcoherent := GraphOp.coherent_run Rat [.addNode "a" "a" .File [] (0 : Nat) (0 : Rat)]
  refine h [.addNode "a" "a" .File [] 0 0] ?_
  rw [exportState_unguarded hcoherent.tabled rfl, importedSources_panics Nat.zero_lt_one (Nat.zero_le _)]
  rfl

end M1nd.Core
