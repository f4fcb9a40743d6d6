import M1nd.Core.Counterfactual.Reachability
import Mathlib.Tactic.NormNum

namespace M1nd.Core

open M1nd.Library
open M1nd.Library.Loops

variable {T : Type} {graph reduced : Graph Rat T} {config : PropagationConfig}
  {removed : List Nat} {pagerank : List Rat}

section Graphs

-- What a finalized graph has that searches read.
structure Graph.Searchable (graph : Graph Rat T) : Prop where
  sound : graph.Sound
  listed : graph.Listed
  sourced : graph.Sourced
  indexed : graph.Indexed
  reflected : graph.Reflected
  scorable : graph.Scorable
  neighbors : ∀ node, ∃ nodes, graph.neighborsOf node = some nodes ∧
    ∀ v, v ∈ nodes ↔ graph.Edge node v ∨ graph.Edge v node

theorem readSlot_eq {j tgt : Nat} {w : Rat} {inhibitory : Bool}
    (htgt : graph.csr.targets[j]? = some tgt) (hw : graph.csr.weights[EdgeIdx.new j]? = some w)
    (hinhibitory : graph.csr.inhibitory[j]? = some inhibitory) :
    readSlot graph j = some (tgt, w, inhibitory) := by
  rw [readSlot, htgt, hw, hinhibitory]
  rfl

-- The slots of a finalized graph.
theorem Graph.Parallel.exists_readSlot (h : graph.Parallel) (hsound : graph.Sound)
    (hlisted : graph.Listed) {node j : Nat} (hj : j ∈ graph.csr.outRange node) :
    ∃ tgt w inhibitory, readSlot graph j = some (tgt, w, inhibitory) ∧ tgt < graph.numNodes ∧
      inhibitory ∈ graph.csr.inhibitory := by
  have hlt := hlisted.mem_outRange_lt hj
  have hweight : EdgeIdx.new j < graph.csr.weights.length := by
    rw [h.csr.1]
    exact (Nat.mod_le j _).trans_lt hlt
  have hmark : j < graph.csr.inhibitory.length := h.csr.2.1 ▸ hlt
  exact ⟨_, _, _, readSlot_eq (List.getElem?_eq_getElem hlt) (List.getElem?_eq_getElem hweight)
    (List.getElem?_eq_getElem hmark), hsound.targets _ (List.getElem_mem hlt),
    List.getElem_mem hmark⟩

theorem GraphEdit.searchable_run (edits : List (GraphEdit Rat T))
    (hfinal : (GraphEdit.run edits).finalized = true) : (GraphEdit.run edits).Searchable := by
  have hcoherent := GraphEdit.coherent_run Rat edits
  refine ⟨hcoherent.sound, hcoherent.tabled.listed, GraphEdit.sourced_run Rat edits,
    GraphEdit.indexed_run Rat edits, GraphEdit.reflected_run Rat edits, fun node j hj => ?_,
    GraphEdit.exists_neighborsOf Rat edits⟩
  obtain ⟨tgt, w, inhibitory, hslot, hlt, -⟩ := (hcoherent.sound.finalized hfinal).1.exists_readSlot
    hcoherent.sound hcoherent.tabled.listed hj
  exact ⟨_, hslot, hlt⟩

theorem GraphEdit.exciting_run (edits : List (GraphEdit Rat T))
    (hfinal : (GraphEdit.run edits).finalized = true)
    (hexcites : ∀ inhibitory ∈ (GraphEdit.run edits).csr.inhibitory, inhibitory = false) :
    (GraphEdit.run edits).Exciting := by
  have hcoherent := GraphEdit.coherent_run Rat edits
  intro node j hj
  obtain ⟨tgt, w, inhibitory, hslot, hlt, hmem⟩ :=
    (hcoherent.sound.finalized hfinal).1.exists_readSlot hcoherent.sound hcoherent.tabled.listed hj
  obtain rfl := hexcites inhibitory hmem
  exact ⟨tgt, w, hslot, hlt⟩

-- Behind the nodes there is nothing to compare.
theorem Graph.deletes_of_lt (hcovered : graph.csr.offsets.length ≤ graph.numNodes + 1)
    (hcovered' : reduced.csr.offsets.length ≤ reduced.numNodes + 1)
    (hcount : reduced.numNodes = (graph.keptNodes removed).length)
    (hslots : ∀ i < reduced.numNodes,
      (reduced.slotsOf i).map (fun slot => (graph.oldName removed slot.1, slot.2)) =
        (graph.slotsOf (graph.oldName removed i)).filter fun slot => slot.1 ∉ removed)
    (hscorable : reduced.Scorable) : graph.Deletes removed reduced where
  count := hcount
  scorable := hscorable
  slots i := by
    by_cases hi : i < reduced.numNodes
    · exact hslots i hi
    · have hold : graph.numNodes ≤ graph.oldName removed i := by
        rw [Graph.oldName_of_le (by omega)]
        omega
      rw [Graph.slotsOf_of_le hcovered' (by omega), Graph.slotsOf_of_le hcovered hold]
      rfl

theorem Graph.oldName_nil {i : Nat} (hi : i < graph.numNodes) : graph.oldName [] i = i := by
  have hkept : graph.keptNodes [] = List.range graph.numNodes :=
    List.filter_eq_self.mpr fun _ _ => decide_eq_true List.not_mem_nil
  rw [Graph.oldName, hkept, List.getD_eq_getElem?_getD, List.getElem?_range hi]
  rfl

-- Without a removal the graph is its own rest.
theorem Graph.Searchable.deletes_nil (h : graph.Searchable) : graph.Deletes [] graph := by
  have hkept : graph.keptNodes [] = List.range graph.numNodes :=
    List.filter_eq_self.mpr fun _ _ => decide_eq_true List.not_mem_nil
  refine Graph.deletes_of_lt h.sound.covered h.sound.covered (by rw [hkept, List.length_range])
    (fun i hi => ?_) h.scorable
  rw [Graph.oldName_nil hi, List.filter_eq_self.mpr fun _ _ => decide_eq_true List.not_mem_nil]
  have hsame : ∀ slot ∈ graph.slotsOf i, (graph.oldName [] slot.1, slot.2) = slot := by
    intro slot hslot
    obtain ⟨j, hj, hread⟩ := List.mem_filterMap.mp hslot
    obtain ⟨other, hother, hlt⟩ := h.scorable i j hj
    obtain rfl := Option.some.inj (hread.symm.trans hother)
    rw [Graph.oldName_nil hlt]
  exact (List.map_congr_left hsame).trans (List.map_id _)

theorem Graph.keptSeeds_nil {v : Nat} (hv : v < graph.numNodes) (score : Rat) :
    graph.keptSeeds [] [(v, score)] = [(v, score)] := by
  cases hindex : (graph.keptNodes []).idxOf? v with
  | none =>
      obtain hge | hmem := Graph.idxOf?_eq_none.mp hindex
      · omega
      · exact absurd hmem List.not_mem_nil
  | some i =>
      obtain ⟨hi, hname⟩ := Graph.oldName_idxOf? hindex
      have hlt : i < graph.numNodes :=
        hi.trans_le ((List.length_filter_le _ _).trans_eq List.length_range)
      rw [Graph.oldName_nil hlt] at hname
      subst hname
      simp only [Graph.keptSeeds, List.filterMap_cons, hindex, Option.map_some, List.filterMap_nil]

end Graphs

section Losses

-- The trials have lost nothing.
structure Losses.Even (losses : Losses) : Prop where
  same : losses.removed = losses.baseline
  none : ∀ i, losses.perNode.getD i 0 = 0

theorem Losses.Even.add {losses : Losses} (h : losses.Even) (scores : Seeds) :
    (losses.add scores scores).Even := by
  refine ⟨?_, fun i => ?_⟩
  · rw [Losses.add, h.same]
  · have hnone := h.none i
    rw [List.getD_eq_getElem?_getD] at hnone ⊢
    rw [Losses.add, List.getElem?_mapIdx]
    cases hloss : losses.perNode[i]? with
    | none => rfl
    | some loss =>
        rw [hloss, Option.getD_some] at hnone
        rw [Option.map_some, Option.getD_some, hnone]
        dsimp only
        rw [sub_self, zero_div, add_zero, ite_self]

theorem adjustSeeds_kept {n v : Nat} (hv : v < n) :
    adjustSeeds graph (List.replicate n false) [(v, 1)] = some [(v, 1)] := by
  have hkeeps : adjustSeed graph (List.replicate n false) (v, 1) = some (v, 1) := by
    rw [adjustSeed, List.getElem?_replicate, if_pos hv]
    rfl
  rw [adjustSeeds, List.mapM_cons, hkeeps, List.mapM_nil]
  rfl

-- A trial in which nothing is removed and the engine gains nothing from what it expands again.
theorem Graph.Searchable.exists_trial (h : graph.Searchable) (htransposed : graph.Transposed)
    (hexciting : graph.Exciting) (hslots : graph.csr.targets.length ≤ 2 ^ 32) (sizes : BloomSizes)
    (hwavefront : HybridEngine.preferHeap graph 1 = false) {v : Nat} (hv : v < graph.numNodes)
    (hidle : WavefrontEngine.Idle config graph [(v, 1)]) {losses : Losses} (heven : losses.Even) :
    ∃ next, trial sizes config graph
      (List.replicate graph.numNodes false, .new graph.numNodes graph.csr.numEdges) losses
        [(v, 1)] = some next ∧ next.Even := by
  rw [← Graph.keptSeeds_nil hv] at hidle
  obtain ⟨scores, hbaseline, hmasked⟩ := h.deletes_nil.propagateWithMask h.sound htransposed
    h.listed hexciting hslots (RemovalMask.hides_new graph) hidle
  rw [Graph.keptSeeds_nil hv] at hbaseline
  have hsame : (scores.map fun entry => (graph.oldName [] entry.1, entry.2)) = scores := by
    have hnames : ∀ entry ∈ scores, (graph.oldName [] entry.1, entry.2) = entry := by
      obtain ⟨state, hsized, -, hscores⟩ :=
        WavefrontEngine.exists_propagate hexciting config [(v, 1)]
      obtain rfl := Option.some.inj (hbaseline.symm.trans hscores)
      intro entry hentry
      rw [Graph.oldName_nil (hsized.activation ▸ (Propagation.mem_scores.mp hentry).1)]
    exact (List.map_congr_left hnames).trans (List.map_id _)
  rw [hsame] at hmasked
  refine ⟨losses.add scores scores, ?_, heven.add scores⟩
  rw [trial, adjustSeeds_kept hv, Option.bind_eq_bind, Option.bind_some, HybridEngine.propagate,
    List.length_singleton, hwavefront, if_neg Bool.false_ne_true, hbaseline, Option.bind_some,
    hmasked]
  rfl

end Losses

section Removals

variable {engine : CounterfactualEngine} {sizes : BloomSizes}

theorem Graph.Searchable.exists_simulateRemoval (h : graph.Searchable)
    (engine : CounterfactualEngine) (sizes : BloomSizes) (config : PropagationConfig)
    (hranks : pagerank.length = graph.numNodes) (removeNodes : List Nat) :
    ∃ result, engine.simulateRemoval sizes config graph pagerank removeNodes = some result ∧
      result.reachabilityBefore = graph.reachWithout [] ∧
      result.reachabilityAfter = graph.reachWithout removeNodes := by
  obtain ⟨trials, htrials, hseeds⟩ := exists_generateDiverseSeeds hranks engine.numTrials
  obtain ⟨removal, hremoval, hremoves⟩ :=
    exists_removalOf h.sourced h.indexed h.listed removeNodes
  have htrial : ∀ losses : Losses, True → ∀ seeds ∈ trials, ∃ next,
      trial sizes config graph removal losses seeds = some next ∧ True := by
    intro losses _ seeds hmem
    obtain ⟨v, hv, rfl⟩ := hseeds seeds hmem
    obtain ⟨entry, hentry⟩ := exists_adjustSeed h.scorable h.sound h.sourced h.reflected
      hremoves.length hv 1
    obtain ⟨baseline, hbaseline⟩ := HybridEngine.exists_scores config h.scorable sizes [(v, 1)]
    obtain ⟨scores, hscores⟩ := exists_scoresMasked config h.scorable h.listed hremoves.mask
      ([entry].filter fun entry => 0 < entry.2)
    refine ⟨losses.add baseline scores, ?_, trivial⟩
    rw [trial, adjustSeeds, List.mapM_cons, hentry, List.mapM_nil, hbaseline]
    simp only [Option.bind_eq_bind, Option.bind_some, Option.pure_def, hscores]
  obtain ⟨losses, hlosses, -⟩ := exists_foldlM (fun _ => True)
    (s := { baseline := 0, removed := 0, perNode := List.replicate graph.numNodes 0 }) trivial
    htrial
  have hbefore : computeReachability graph (List.replicate graph.numNodes false) =
      some (graph.reachWithout []) := by
    refine computeReachability_eq h.neighbors List.length_replicate fun v hv => ?_
    rw [List.getElem?_replicate, if_pos hv]
    rfl
  have hafter := computeReachability_eq h.neighbors hremoves.length hremoves.marked
  rw [CounterfactualEngine.simulateRemoval, htrials, hremoval]
  simp only [Option.bind_eq_bind, Option.bind_some]
  rw [hlosses, hbefore, hafter]
  exact ⟨_, rfl, rfl, rfl⟩

-- Where the engine gains nothing from what it expands again, removing nothing loses nothing.
theorem Graph.Searchable.exists_lossless (h : graph.Searchable) (htransposed : graph.Transposed)
    (hexciting : graph.Exciting) (hslots : graph.csr.targets.length ≤ 2 ^ 32)
    (hranks : pagerank.length = graph.numNodes)
    (hwavefront : HybridEngine.preferHeap graph 1 = false)
    (hidle : ∀ trials, generateDiverseSeeds graph pagerank engine.numTrials = some trials →
      ∀ seeds ∈ trials, WavefrontEngine.Idle config graph seeds) :
    ∃ result, engine.simulateRemoval sizes config graph pagerank [] = some result ∧
      result.totalImpact = 0 ∧ result.pctActivationLost = 0 ∧ result.orphanedNodes = [] ∧
      result.weakenedNodes = [] := by
  obtain ⟨trials, htrials, hseeds⟩ := exists_generateDiverseSeeds hranks engine.numTrials
  have hstart : Losses.Even
      { baseline := 0, removed := 0, perNode := List.replicate graph.numNodes 0 } := by
    refine ⟨rfl, fun i => ?_⟩
    rw [List.getD_eq_getElem?_getD, List.getElem?_replicate]
    split <;> rfl
  have htrial : ∀ losses : Losses, losses.Even → ∀ seeds ∈ trials, ∃ next,
      trial sizes config graph (List.replicate graph.numNodes false,
        .new graph.numNodes graph.csr.numEdges) losses seeds = some next ∧ next.Even := by
    intro losses heven seeds hmem
    obtain ⟨v, hv, rfl⟩ := hseeds seeds hmem
    exact h.exists_trial htransposed hexciting hslots sizes hwavefront hv
      (hidle trials htrials _ hmem) heven
  obtain ⟨losses, hlosses, heven⟩ := exists_foldlM Losses.Even hstart htrial
  have hreach : computeReachability graph (List.replicate graph.numNodes false) =
      some (graph.reachWithout []) := by
    refine computeReachability_eq h.neighbors List.length_replicate fun v hv => ?_
    rw [List.getElem?_replicate, if_pos hv]
    rfl
  have hlost : (if 0 < losses.baseline then
      max 0 (min 1 ((losses.baseline - losses.removed) / losses.baseline)) else 0) = 0 := by
    rw [heven.same, sub_self, zero_div]
    norm_num
  have haverage (i : Nat) : losses.perNode.getD i 0 / (max trials.length 1 : Nat) = 0 := by
    rw [heven.none, zero_div]
  rw [CounterfactualEngine.simulateRemoval, htrials, removalOf, List.foldlM_nil]
  simp only [Option.bind_eq_bind, Option.bind_some, Option.pure_def]
  rw [hlosses, hreach]
  refine ⟨_, rfl, hlost, hlost, ?_, ?_⟩
  · refine List.filter_eq_nil_iff.mpr fun i _ => ?_
    simp only [haverage]
    norm_num
  · rw [List.map_eq_nil_iff]
    refine List.filter_eq_nil_iff.mpr fun i _ => ?_
    simp only [haverage]
    norm_num

-- A masked propagation is the engine's on the reduced graph as long as the engine gains nothing
-- from what it expands again.
theorem CounterfactualEngine.masked_refines (edits : List (GraphEdit Rat T))
    (hfinal : (GraphEdit.run edits).finalized = true)
    (hslots : (GraphEdit.run edits).csr.targets.length ≤ 2 ^ 32)
    (hexcites : ∀ inhibitory ∈ (GraphEdit.run edits).csr.inhibitory, inhibitory = false) :
    let graph := GraphEdit.run edits
    (∀ removed, ∃ mask, RemovalMask.removeAll graph removed = some mask ∧
      ∀ reduced, graph.Deletes removed reduced → ∀ config seeds,
        WavefrontEngine.Idle config reduced (graph.keptSeeds removed seeds) →
          ∃ scores, WavefrontEngine.propagate config reduced (graph.keptSeeds removed seeds) =
              some scores ∧
            propagateWithMask config graph mask seeds =
              some (scores.map fun entry => (graph.oldName removed entry.1, entry.2))) ∧
      ∀ (engine : CounterfactualEngine) sizes config pagerank,
        pagerank.length = graph.numNodes → HybridEngine.preferHeap graph 1 = false →
        (∀ trials, generateDiverseSeeds graph pagerank engine.numTrials = some trials →
          ∀ seeds ∈ trials, WavefrontEngine.Idle config graph seeds) →
        ∃ result, engine.simulateRemoval sizes config graph pagerank [] = some result ∧
          result.totalImpact = 0 ∧ result.pctActivationLost = 0 ∧ result.orphanedNodes = [] ∧
          result.weakenedNodes = [] := by
  intro graph
  have hsearchable := GraphEdit.searchable_run edits hfinal
  have hexciting := GraphEdit.exciting_run edits hfinal hexcites
  have htransposed := (hsearchable.sound.finalized hfinal).2 hslots
  refine ⟨fun removed => ?_, fun engine sizes config pagerank hranks hwavefront hidle =>
    hsearchable.exists_lossless htransposed hexciting hslots hranks hwavefront hidle⟩
  obtain ⟨mask, hmask, hhides⟩ :=
    RemovalMask.exists_removeAll hsearchable.sourced hsearchable.indexed removed
  exact ⟨mask, hmask, fun reduced hdeletes config seeds hidle =>
    hdeletes.propagateWithMask hsearchable.sound htransposed hsearchable.listed hexciting hslots
      hhides hidle⟩

def threeLevels : PropagationConfig where
  decay := 55 / 100
  threshold := 4 / 100
  maxDepth := 3
  saturationCap := 1
  inhibitoryFactor := 1 / 2
  decay_pos := by norm_num
  decay_le_one := by norm_num
  threshold_pos := by norm_num

-- A chain of three nodes and a leaf at its first one, and the chain without the leaf.
def chain : List (GraphEdit Rat Nat) :=
  [.operate (.addNode "a" "a" .File [] 0 0), .operate (.addNode "b" "b" .File [] 0 0),
    .operate (.addNode "c" "c" .File [] 0 0),
    .operate (.addEdge 0 1 "calls" 1 .Forward false 0),
    .operate (.addEdge 1 2 "calls" 1 .Forward false 0)]

def leafed : List (GraphEdit Rat Nat) :=
  [.operate (.addNode "a" "a" .File [] 0 0), .operate (.addNode "b" "b" .File [] 0 0),
    .operate (.addNode "c" "c" .File [] 0 0), .operate (.addNode "d" "d" .File [] 0 0),
    .operate (.addEdge 0 1 "calls" 1 .Forward false 0),
    .operate (.addEdge 0 3 "calls" 1 .Forward false 0),
    .operate (.addEdge 1 2 "calls" 1 .Forward false 0)]

theorem placements_chain : placements (GraphEdit.run chain).csr.pendingEdges =
    (GraphEdit.run chain).csr.pendingEdges.zipIdx.flatMap fun indexed =>
      indexed.1.placements indexed.2 :=
  placements_of_sorted (by decide +kernel)

theorem placements_leafed : placements (GraphEdit.run leafed).csr.pendingEdges =
    (GraphEdit.run leafed).csr.pendingEdges.zipIdx.flatMap fun indexed =>
      indexed.1.placements indexed.2 :=
  placements_of_sorted (by decide +kernel)

theorem finalized_leafed :
    (GraphEdit.run (leafed ++ [.operate .finalize])).finalized = true := by
  decide +kernel

theorem finalized_chain : (GraphEdit.run (chain ++ [.operate .finalize])).finalized = true := by
  decide +kernel

theorem leafed_deletes : (GraphEdit.run (leafed ++ [.operate .finalize])).Deletes [3]
    (GraphEdit.run (chain ++ [.operate .finalize])) := by
  have hleafed := GraphEdit.searchable_run _ finalized_leafed
  have hchain := GraphEdit.searchable_run _ finalized_chain
  refine Graph.deletes_of_lt hleafed.sound.covered hchain.sound.covered (by decide +kernel) ?_
    hchain.scorable
  have hedges : GraphEdit.run (leafed ++ [.operate .finalize]) =
    (GraphEdit.run leafed).rebuildCsr := rfl
  have hedges' : GraphEdit.run (chain ++ [.operate .finalize]) =
    (GraphEdit.run chain).rebuildCsr := rfl
  rw [hedges, hedges', Graph.rebuildCsr, Graph.rebuildCsr, placements_leafed, placements_chain]
  decide +kernel

theorem masked_refines_leafed :
    let graph := GraphEdit.run (leafed ++ [.operate .finalize])
    let reduced := GraphEdit.run (chain ++ [.operate .finalize])
    (∃ mask scores, RemovalMask.removeAll graph [3] = some mask ∧
      WavefrontEngine.propagate threeLevels reduced (graph.keptSeeds [3] [(0, 1), (3, 1)]) =
        some scores ∧
      propagateWithMask threeLevels graph mask [(0, 1), (3, 1)] =
        some (scores.map fun entry => (graph.oldName [3] entry.1, entry.2))) ∧
    ∃ result, (CounterfactualEngine.mk 2).simulateRemoval (fun _ => (64, 1)) threeLevels graph
        [1, 1, 1, 1] [] = some result ∧
      result.totalImpact = 0 ∧ result.pctActivationLost = 0 ∧ result.orphanedNodes = [] ∧
      result.weakenedNodes = [] := by
  intro graph reduced
  have hedges : graph = (GraphEdit.run leafed).rebuildCsr := rfl
  have hedges' : reduced = (GraphEdit.run chain).rebuildCsr := rfl
  have hbounded : graph.csr.targets.length ≤ 2 ^ 32 ∧
      ∀ inhibitory ∈ graph.csr.inhibitory, inhibitory = false := by
    rw [hedges, Graph.rebuildCsr, placements_leafed]
    decide +kernel
  obtain ⟨hrefines, hlossless⟩ := CounterfactualEngine.masked_refines _ finalized_leafed
    hbounded.1 hbounded.2
  refine ⟨?_, ?_⟩
  · obtain ⟨mask, hmask, hreduced⟩ := hrefines [3]
    have hfresh : Spreading.Fresh (threeLevels.medium reduced.hopsOf) reopens
        (min threeLevels.maxDepth 20) [] ((graph.keptSeeds [3] [(0, 1), (3, 1)]).foldl
          (Propagation.seed threeLevels reduced.numNodes) (.start reduced.numNodes)).wave := by
      rw [hedges, hedges', Graph.rebuildCsr, Graph.rebuildCsr, placements_leafed, placements_chain]
      decide +kernel
    obtain ⟨scores, hscores, hmasked⟩ := hreduced reduced leafed_deletes threeLevels
      [(0, 1), (3, 1)] hfresh.idle
    exact ⟨mask, scores, hmask, hscores, hmasked⟩
  · have hwavefront : HybridEngine.preferHeap graph 1 = false := by
      rw [hedges, Graph.rebuildCsr, placements_leafed]
      decide +kernel
    have hfresh : ∀ v < 4, Spreading.Fresh (threeLevels.medium graph.hopsOf) reopens
        (min threeLevels.maxDepth 20) [] (([(v, 1)] : Seeds).foldl
          (Propagation.seed threeLevels graph.numNodes) (.start graph.numNodes)).wave := by
      rw [hedges, Graph.rebuildCsr, placements_leafed]
      decide +kernel
    refine hlossless ⟨2⟩ (fun _ => (64, 1)) threeLevels [1, 1, 1, 1] (by decide +kernel) hwavefront
      fun trials htrials seeds hseeds => ?_
    have hranks : ([1, 1, 1, 1] : List Rat).length = graph.numNodes := by decide +kernel
    obtain ⟨other, hother, hnodes⟩ := exists_generateDiverseSeeds hranks 2
    obtain rfl := Option.some.inj (htrials.symm.trans hother)
    obtain ⟨v, hv, rfl⟩ := hnodes seeds hseeds
    exact (hfresh v hv).idle

-- The second node gets a better signal by the longer way, and the engine hands it on.
def overtaken : List (GraphEdit Rat Nat) :=
  [.operate (.addNode "a" "a" .File [] 0 0), .operate (.addNode "b" "b" .File [] 0 0),
    .operate (.addNode "c" "c" .File [] 0 0), .operate (.addNode "d" "d" .File [] 0 0),
    .operate (.addEdge 0 1 "calls" (1 / 2) .Forward false 0),
    .operate (.addEdge 0 2 "calls" 1 .Forward false 0),
    .operate (.addEdge 1 3 "calls" 1 .Forward false 0),
    .operate (.addEdge 2 1 "calls" 1 .Forward false 0)]

theorem placements_overtaken : placements (GraphEdit.run overtaken).csr.pendingEdges =
    (GraphEdit.run overtaken).csr.pendingEdges.zipIdx.flatMap fun indexed =>
      indexed.1.placements indexed.2 :=
  placements_of_sorted (by decide +kernel)

theorem finalized_overtaken :
    (GraphEdit.run (overtaken ++ [.operate .finalize])).finalized = true := by
  decide +kernel

theorem masked_forgets_overtaken :
    let graph := GraphEdit.run (overtaken ++ [.operate .finalize])
    graph.finalized = true ∧ (∀ inhibitory ∈ graph.csr.inhibitory, inhibitory = false) ∧
      ¬∀ removed mask, RemovalMask.removeAll graph removed = some mask →
        ∀ reduced, graph.Deletes removed reduced → ∀ config seeds,
          ∃ scores, WavefrontEngine.propagate config reduced (graph.keptSeeds removed seeds) =
              some scores ∧
            propagateWithMask config graph mask seeds =
              some (scores.map fun entry => (graph.oldName removed entry.1, entry.2)) := by
  intro graph
  have hedges : graph = (GraphEdit.run overtaken).rebuildCsr := rfl
  have hsearchable := GraphEdit.searchable_run _ finalized_overtaken
  have hnodes : graph.numNodes = 4 := by decide +kernel
  refine ⟨finalized_overtaken, ?_, fun h => ?_⟩
  · rw [hedges, Graph.rebuildCsr, placements_overtaken]
    decide +kernel
  obtain ⟨scores, hscores, hmasked⟩ := h [] _ rfl graph hsearchable.deletes_nil threeLevels [(0, 1)]
  rw [Graph.keptSeeds_nil (by rw [hnodes]; decide)] at hscores
  -- Both runs go through all their levels.
  have hreach : WavefrontEngine.reach threeLevels graph [(0, 1)] =
      some ⟨[1, 121 / 400, 11 / 20, 1331 / 8000], [true, true, true, true], [3]⟩ := by
    rw [hedges, Graph.rebuildCsr, placements_overtaken]
    decide +kernel
  have hlevels : (([(0, 1)] : Seeds).foldlM (seedMasked threeLevels graph
      (.new graph.numNodes graph.csr.numEdges)) (.start graph.numNodes)).bind
        (Propagation.levels (expandMasked threeLevels graph
          (.new graph.numNodes graph.csr.numEdges)) 3) =
      some ⟨[1, 121 / 400, 11 / 20, 121 / 800], [true, true, true, true], []⟩ := by
    rw [hedges, Graph.rebuildCsr, placements_overtaken]
    decide +kernel
  obtain ⟨start, hstart, hlevels⟩ := Option.bind_eq_some_iff.mp hlevels
  rw [WavefrontEngine.propagate, if_neg (by rw [hnodes]; decide), hreach] at hscores
  obtain rfl := Option.some.inj hscores
  rw [propagateWithMask, if_neg (by rw [hnodes]; decide), hstart] at hmasked
  simp only [Option.bind_eq_bind, Option.bind_some] at hmasked
  rw [show min threeLevels.maxDepth 20 = 3 from rfl, hlevels] at hmasked
  have hlast : ((3, 121 / 800) : Nat × Rat) ∈ Propagation.scores
      (fun v => (RemovalMask.new graph.numNodes graph.csr.numEdges).removedNodes.getD v false = false)
      [1, 121 / 400, 11 / 20, 121 / 800] := by
    refine Propagation.mem_scores.mpr ⟨by decide, ?_, by norm_num, rfl⟩
    rw [hnodes]
    rfl
  rw [Option.some.inj hmasked, List.mem_map] at hlast
  obtain ⟨⟨v, score⟩, hentry, hsame⟩ := hlast
  obtain ⟨hv, -, -, hscore⟩ := Propagation.mem_scores.mp hentry
  obtain ⟨hname, rfl⟩ := Prod.mk.inj hsame
  rw [Graph.oldName_nil (by rw [hnodes]; exact hv)] at hname
  subst hname
  exact absurd hscore (by decide +kernel)

-- The count after a removal is the size of the part around the start that is left, which shrinks
-- as long as the start stays in the part it was counted with.
theorem CounterfactualEngine.reachability_shrinks (engine : CounterfactualEngine)
    (sizes : BloomSizes) (config : PropagationConfig) (edits : List (GraphEdit Rat T))
    (hfinal : (GraphEdit.run edits).finalized = true)
    (hranks : pagerank.length = (GraphEdit.run edits).numNodes) {first second : List Nat}
    (hsub : first ⊆ second) :
    let graph := GraphEdit.run edits
    ∃ fewer more, engine.simulateRemoval sizes config graph pagerank first = some fewer ∧
      engine.simulateRemoval sizes config graph pagerank second = some more ∧
      fewer.reachabilityBefore = graph.reachWithout [] ∧
      more.reachabilityBefore = graph.reachWithout [] ∧
      fewer.reachabilityAfter = graph.reachWithout first ∧
      more.reachabilityAfter = graph.reachWithout second ∧
      (first = [] → fewer.reachabilityAfter = fewer.reachabilityBefore) ∧
      (fewer.reachabilityAfter = 0 ↔ ∀ node < graph.numNodes, node ∈ first) ∧
      ((∀ start, graph.startWithout second = some start → ∃ old,
        graph.startWithout first = some old ∧ start ∈ graph.partOf first old) →
          more.reachabilityAfter ≤ fewer.reachabilityAfter) ∧
      ((∀ start, graph.startWithout first = some start → start ∉ second) →
        more.reachabilityAfter ≤ fewer.reachabilityAfter) := by
  intro graph
  have hsearchable := GraphEdit.searchable_run edits hfinal
  obtain ⟨fewer, hfewer, hbefore, hafter⟩ := hsearchable.exists_simulateRemoval engine
    sizes config hranks first
  obtain ⟨more, hmore, hbefore', hafter'⟩ := hsearchable.exists_simulateRemoval engine
    sizes config hranks second
  refine ⟨fewer, more, hfewer, hmore, hbefore, hbefore', hafter, hafter', ?_, ?_, ?_, ?_⟩
  · rintro rfl
    exact hafter.trans hbefore.symm
  · rw [hafter]
    exact Graph.reachWithout_eq_zero
  · intro hpart
    rw [hafter, hafter']
    exact Graph.reachWithout_le hsub hpart
  · intro hstays
    rw [hafter, hafter']
    refine Graph.reachWithout_le hsub fun start hstart => ?_
    cases hold : graph.startWithout first with
    | none =>
        obtain ⟨-, hall⟩ | ⟨old, hsome, -⟩ := graph.startWithout_cases first
        · obtain ⟨hnone, -⟩ | ⟨other, hother, hlt, hkept, -⟩ := graph.startWithout_cases second
          · exact absurd (hnone.symm.trans hstart) nofun
          · exact absurd (hsub (hall other hlt)) hkept
        · exact absurd (hold.symm.trans hsome) nofun
    | some old =>
        have hsame := Graph.startWithout_stays hsub hold (hstays old hold)
        obtain rfl := Option.some.inj (hstart.symm.trans hsame)
        exact ⟨start, rfl, SimpleGraph.Reachable.refl start⟩

-- A star, and a path that is longer than the star is wide.
def scattered : List (GraphEdit Rat Nat) :=
  (["a", "b", "c", "d", "e", "f", "g", "h", "i"].map fun name =>
      .operate (.addNode name name .File [] 0 0)) ++
    [(0, 1), (0, 2), (0, 3), (4, 5), (5, 6), (6, 7), (7, 8)].map fun edge =>
      .operate (.addEdge edge.1 edge.2 "calls" 1 .Forward false 0)

theorem placements_scattered : placements (GraphEdit.run scattered).csr.pendingEdges =
    (GraphEdit.run scattered).csr.pendingEdges.zipIdx.flatMap fun indexed =>
      indexed.1.placements indexed.2 :=
  placements_of_sorted (by decide +kernel)

theorem finalized_scattered :
    (GraphEdit.run (scattered ++ [.operate .finalize])).finalized = true := by
  decide +kernel

theorem reachability_shrinks_scattered :
    let graph := GraphEdit.run (scattered ++ [.operate .finalize])
    ∃ fewer more,
      (CounterfactualEngine.mk 1).simulateRemoval (fun _ => (64, 1)) threeLevels graph
        (List.replicate 9 1) [] = some fewer ∧
      (CounterfactualEngine.mk 1).simulateRemoval (fun _ => (64, 1)) threeLevels graph
        (List.replicate 9 1) [3] = some more ∧
      more.reachabilityAfter ≤ fewer.reachabilityAfter := by
  intro graph
  have hedges : graph = (GraphEdit.run scattered).rebuildCsr := rfl
  have hstart : graph.startWithout [] = some 0 := by
    rw [hedges, Graph.rebuildCsr, placements_scattered]
    decide +kernel
  have hranks : (List.replicate 9 (1 : Rat)).length = graph.numNodes := by decide +kernel
  obtain ⟨fewer, more, hfewer, hmore, -, -, -, -, -, -, -, hstays⟩ :=
    CounterfactualEngine.reachability_shrinks (CounterfactualEngine.mk 1) (fun _ => (64, 1))
      threeLevels _ finalized_scattered hranks (List.nil_subset [3])
  refine ⟨fewer, more, hfewer, hmore, hstays fun start hsome => ?_⟩
  obtain rfl := Option.some.inj (hsome.symm.trans hstart)
  decide

theorem reachability_grows_scattered :
    let graph := GraphEdit.run (scattered ++ [.operate .finalize])
    graph.finalized = true ∧ ∃ fewer more,
      (CounterfactualEngine.mk 1).simulateRemoval (fun _ => (64, 1)) threeLevels graph
        (List.replicate 9 1) [] = some fewer ∧
      (CounterfactualEngine.mk 1).simulateRemoval (fun _ => (64, 1)) threeLevels graph
        (List.replicate 9 1) [0] = some more ∧
      fewer.reachabilityAfter < more.reachabilityAfter ∧
      more.reachabilityBefore < more.reachabilityAfter := by
  intro graph
  have hedges : graph = (GraphEdit.run scattered).rebuildCsr := rfl
  have hsearchable := GraphEdit.searchable_run _ finalized_scattered
  have hranks : (List.replicate 9 (1 : Rat)).length = graph.numNodes := by decide +kernel
  have hcounts : computeReachability graph (List.replicate graph.numNodes false) = some 4 ∧
      computeReachability graph (true :: List.replicate 8 false) = some 5 := by
    rw [hedges, Graph.rebuildCsr, placements_scattered]
    decide +kernel
  have hnodes : graph.numNodes = 9 := by decide +kernel
  have hwhole : graph.reachWithout [] = 4 := by
    refine Option.some.inj ((computeReachability_eq hsearchable.neighbors List.length_replicate
      fun v hv => ?_).symm.trans hcounts.1)
    rw [List.getElem?_replicate, if_pos hv]
    rfl
  have hrest : graph.reachWithout [0] = 5 := by
    have hmarked : ∀ v < graph.numNodes,
        (true :: List.replicate 8 false)[v]? = some (decide (v ∈ [0])) := by
      rw [hnodes]
      decide
    have hlength : (true :: List.replicate 8 false).length = graph.numNodes := hnodes.symm
    have hreach := computeReachability_eq hsearchable.neighbors hlength hmarked
    exact Option.some.inj (hreach.symm.trans hcounts.2)
  obtain ⟨fewer, hfewer, -, hafter⟩ := hsearchable.exists_simulateRemoval (.mk 1)
    (fun _ => (64, 1)) threeLevels hranks []
  obtain ⟨more, hmore, hbefore', hafter'⟩ := hsearchable.exists_simulateRemoval (.mk 1)
    (fun _ => (64, 1)) threeLevels hranks [0]
  refine ⟨finalized_scattered, fewer, more, hfewer, hmore, ?_, ?_⟩
  · rw [hafter, hafter', hwhole, hrest]
    decide
  · rw [hbefore', hafter', hwhole, hrest]
    decide

end Removals

end M1nd.Core
