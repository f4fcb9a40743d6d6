import M1nd.Core.Counterfactual.Masked
import Mathlib.Data.Set.Card

namespace M1nd.Core

open M1nd.Library
open M1nd.Library.Flooding
open M1nd.Library.Loops

variable {T : Type} {graph : Graph Rat T} {config : PropagationConfig} {n : Nat}

section Propagations

-- The buffer has an entry for each node.
structure Propagation.Fits (n : Nat) (state : Propagation) : Prop where
  activation : state.activation.length = n
  frontier : ∀ v ∈ state.frontier, v < n

theorem Propagation.fits_start (n : Nat) : (Propagation.start n).Fits n where
  activation := List.length_replicate
  frontier := nofun

theorem Propagation.Fits.seed {state : Propagation} (h : state.Fits n) (entry : Nat × Rat) :
    (state.seed config n entry).Fits n := by
  unfold Propagation.seed
  split
  case isTrue hv =>
    refine ⟨?_, ?_⟩
    · dsimp only
      split
      · exact List.length_set.trans h.activation
      · exact h.activation
    · dsimp only
      split
      · exact h.frontier
      · exact mem_queue h.frontier hv
  case isFalse => exact h

theorem WavefrontEngine.fits_arrive {state : Propagation} (h : state.Fits n) {srcAct : Rat}
    {slot : Nat × Rat × Bool} (hv : slot.1 < n) :
    (WavefrontEngine.arrive config srcAct state slot).Fits n := by
  unfold WavefrontEngine.arrive
  dsimp only
  split
  · exact h
  · split
    · split
      · refine ⟨List.length_set.trans h.activation, ?_⟩
        dsimp only
        split
        · exact mem_queue h.frontier hv
        · exact h.frontier
      · exact h
    · split
      · exact ⟨List.length_set.trans h.activation, h.frontier⟩
      · exact h

theorem fits_arriveMasked {state : Propagation} (h : state.Fits n) {srcAct : Rat}
    {slot : Nat × Rat × Bool} (hv : slot.1 < n) : (arriveMasked config srcAct state slot).Fits n := by
  unfold arriveMasked
  dsimp only
  split
  · exact h
  · split
    · refine ⟨?_, ?_⟩
      · dsimp only
        split
        · exact List.length_set.trans h.activation
        · exact h.activation
      · dsimp only
        split
        · exact h.frontier
        · exact mem_queue h.frontier hv
    · split
      · exact ⟨List.length_set.trans h.activation, h.frontier⟩
      · exact h

theorem Propagation.Fits.exists_levels {expandNode : Propagation → Nat → Option Propagation}
    (hexpand : ∀ state : Propagation, state.Fits n → ∀ src < n, ∃ next,
      expandNode state src = some next ∧ next.Fits n)
    {state : Propagation} (h : state.Fits n) (left : Nat) :
    ∃ next, Propagation.levels expandNode left state = some next := by
  induction left generalizing state with
  | zero => exact ⟨state, rfl⟩
  | succ left ih =>
      unfold Propagation.levels
      split
      case isTrue => exact ⟨state, rfl⟩
      case isFalse =>
        have hempty : Propagation.Fits n { state with frontier := [] } :=
          ⟨h.activation, fun v hv => absurd hv List.not_mem_nil⟩
        obtain ⟨mid, hmid, hfits⟩ := exists_foldlM (Propagation.Fits n) hempty
          fun u hu src (hsrc : src ∈ state.frontier) => hexpand u hu src (h.frontier src hsrc)
        obtain ⟨next, hnext⟩ := ih hfits
        exact ⟨next, by rw [hmid]; exact hnext⟩

theorem Propagation.Fits.exists_activation {state : Propagation} (h : state.Fits n) {src : Nat}
    (hsrc : src < n) : ∃ act, state.activation[src]? = some act :=
  ⟨_, List.getElem?_eq_getElem (h.activation ▸ hsrc)⟩

theorem WavefrontEngine.exists_scores (hscorable : graph.Scorable) (seeds : Seeds) :
    ∃ scores, WavefrontEngine.propagate config graph seeds = some scores := by
  unfold WavefrontEngine.propagate
  split
  case isTrue => exact ⟨[], rfl⟩
  case isFalse =>
    have hstart : (seeds.foldl (Propagation.seed config graph.numNodes)
        (.start graph.numNodes)).Fits graph.numNodes :=
      seeds.foldlRecOn _ (Propagation.fits_start _) fun state h entry _ => h.seed entry
    have hexpand : ∀ state : Propagation, state.Fits graph.numNodes → ∀ src < graph.numNodes,
        ∃ next, WavefrontEngine.expand config graph state src = some next ∧
          next.Fits graph.numNodes := by
      intro state h src hsrc
      obtain ⟨act, hact⟩ := h.exists_activation hsrc
      unfold WavefrontEngine.expand
      rw [hact, Option.bind_eq_bind, Option.bind_some]
      split
      · exact ⟨state, rfl, h⟩
      · refine exists_foldlM (Propagation.Fits graph.numNodes) h fun u hu j hj => ?_
        obtain ⟨slot, hslot, hlt⟩ := hscorable src j hj
        exact ⟨_, by rw [hslot]; rfl, WavefrontEngine.fits_arrive hu hlt⟩
    obtain ⟨state, hstate⟩ := hstart.exists_levels hexpand (min config.maxDepth 20)
    exact ⟨_, by rw [WavefrontEngine.reach, hstate]; rfl⟩

-- The marks of a mask are there for all nodes and slots.
structure RemovalMask.Fits (graph : Graph Rat T) (mask : RemovalMask) : Prop where
  nodes : mask.removedNodes.length = graph.numNodes
  edges : mask.removedEdges.length = graph.csr.targets.length

theorem exists_scoresMasked (config : PropagationConfig) (hscorable : graph.Scorable) (hlisted : graph.Listed)
    {mask : RemovalMask} (hmask : mask.Fits graph) (seeds : Seeds) :
    ∃ scores, propagateWithMask config graph mask seeds = some scores := by
  unfold propagateWithMask
  split
  case isTrue => exact ⟨[], rfl⟩
  case isFalse =>
    have hmark : ∀ v < graph.numNodes, ∃ mark, mask.removedNodes[v]? = some mark :=
      fun v hv => ⟨_, List.getElem?_eq_getElem (hmask.nodes ▸ hv)⟩
    have hseed : ∀ state : Propagation, state.Fits graph.numNodes → ∀ entry ∈ seeds,
        ∃ next, seedMasked config graph mask state entry = some next ∧
          next.Fits graph.numNodes := by
      intro state h entry _
      unfold seedMasked
      split
      · exact ⟨state, rfl, h⟩
      · obtain ⟨mark, hmark⟩ := hmark entry.1 (by omega)
        rw [hmark]
        cases mark with
        | true => exact ⟨state, rfl, h⟩
        | false => exact ⟨_, rfl, h.seed entry⟩
    obtain ⟨start, hstart, hfits⟩ := exists_foldlM (Propagation.Fits graph.numNodes)
      (Propagation.fits_start _) hseed
    have hexpand : ∀ state : Propagation, state.Fits graph.numNodes → ∀ src < graph.numNodes,
        ∃ next, expandMasked config graph mask state src = some next ∧
          next.Fits graph.numNodes := by
      intro state h src hsrc
      obtain ⟨act, hact⟩ := h.exists_activation hsrc
      unfold expandMasked
      rw [hact, Option.bind_eq_bind, Option.bind_some]
      split
      · exact ⟨state, rfl, h⟩
      · refine exists_foldlM (Propagation.Fits graph.numNodes) h fun u hu j hj => ?_
        obtain ⟨slot, hslot, hlt⟩ := hscorable src j hj
        have htgt : graph.csr.targets[j]? = some slot.1 := by
          obtain ⟨end_, hend, hrest⟩ := Option.bind_eq_some_iff.mp hslot
          obtain ⟨_, -, hrest⟩ := Option.bind_eq_some_iff.mp hrest
          obtain ⟨_, -, hrest⟩ := Option.bind_eq_some_iff.mp hrest
          obtain rfl := Option.some.inj hrest
          exact hend
        have hedge : EdgeIdx.new j < mask.removedEdges.length := by
          rw [hmask.edges]
          exact (Nat.mod_le j _).trans_lt (hlisted.mem_outRange_lt hj)
        obtain ⟨mark, hmark⟩ := hmark slot.1 hlt
        unfold passMasked
        rw [List.getElem?_eq_getElem hedge, Option.bind_eq_bind, Option.bind_some]
        cases mask.removedEdges[EdgeIdx.new j] with
        | true => exact ⟨u, rfl, hu⟩
        | false =>
            rw [if_neg Bool.false_ne_true, htgt, Option.bind_eq_bind, Option.bind_some,
              if_neg (Nat.not_le.mpr hlt), hmark, Option.bind_some]
            cases mark with
            | true => exact ⟨u, rfl, hu⟩
            | false => exact ⟨_, by rw [hslot]; rfl, fits_arriveMasked hu hlt⟩
    obtain ⟨state, hstate⟩ := hfits.exists_levels hexpand (min config.maxDepth 20)
    exact ⟨_, by rw [hstart, Option.bind_eq_bind, Option.bind_some, hstate]; rfl⟩

end Propagations

section Heaps

structure HeapState.Fits (n : Nat) (state : HeapState) : Prop where
  activation : state.activation.length = n
  heap : ∀ entry ∈ state.heap, entry.1 < n

theorem mem_popGreatest {heap : List (Nat × Rat)} {entry : Nat × Rat} {rest : List (Nat × Rat)}
    (h : popGreatest heap = some (entry, rest)) :
    entry ∈ heap ∧ ∀ other ∈ rest, other ∈ heap := by
  induction heap generalizing entry rest with
  | nil => exact nomatch h
  | cons first others ih =>
      unfold popGreatest at h
      cases hpop : popGreatest others with
      | none =>
          rw [hpop] at h
          obtain ⟨rfl, rfl⟩ := Prod.mk.inj (Option.some.inj h)
          exact ⟨List.mem_cons_self, nofun⟩
      | some popped =>
          obtain ⟨top, left⟩ := popped
          obtain ⟨htop, hleft⟩ := ih hpop
          rw [hpop] at h
          dsimp only at h
          split at h
          · obtain ⟨rfl, rfl⟩ := Prod.mk.inj (Option.some.inj h)
            exact ⟨List.mem_cons_self, fun other hother => List.mem_cons_of_mem _ hother⟩
          · obtain ⟨rfl, rfl⟩ := Prod.mk.inj (Option.some.inj h)
            refine ⟨List.mem_cons_of_mem _ htop, fun other hother => ?_⟩
            obtain rfl | hother := List.mem_cons.mp hother
            · exact List.mem_cons_self
            · exact List.mem_cons_of_mem _ (hleft other hother)

theorem HeapState.Fits.push {state : HeapState} (h : state.Fits n) {v : Nat} (hv : v < n)
    (signal : Rat) : ∀ entry ∈ state.heap ++ [(v, signal)], entry.1 < n := by
  intro entry hentry
  obtain hentry | hentry := List.mem_append.mp hentry
  · exact h.heap entry hentry
  · exact List.mem_singleton.mp hentry ▸ hv

theorem HeapEngine.fits_arrive {state : HeapState} (h : state.Fits n) {srcAct : Rat}
    {slot : Nat × Rat × Bool} (hv : slot.1 < n) :
    (HeapEngine.arrive config srcAct state slot).Fits n := by
  unfold HeapEngine.arrive
  dsimp only
  split
  · exact h
  · split
    · split
      · exact ⟨List.length_set.trans h.activation, h.push hv _⟩
      · split
        · exact ⟨List.length_set.trans h.activation, h.push hv _⟩
        · exact ⟨List.length_set.trans h.activation, h.heap⟩
    · split
      · exact ⟨List.length_set.trans h.activation, h.heap⟩
      · exact h

theorem HeapEngine.exists_drain (hscorable : graph.Scorable) {state : HeapState}
    (h : state.Fits graph.numNodes) (left : Nat) :
    ∃ next, HeapEngine.drain config graph left state = some next := by
  induction left generalizing state with
  | zero =>
      unfold HeapEngine.drain
      split
      · exact ⟨state, rfl⟩
      · split <;> exact ⟨state, rfl⟩
  | succ left ih =>
      unfold HeapEngine.drain
      cases hpop : popGreatest state.heap with
      | none => exact ⟨state, rfl⟩
      | some popped =>
          obtain ⟨entry, rest⟩ := popped
          dsimp only
          split
          · exact ⟨state, rfl⟩
          · obtain ⟨hentry, hrest⟩ := mem_popGreatest hpop
            have hfits : ({ state with heap := rest } : HeapState).Fits graph.numNodes :=
              ⟨h.activation, fun other hother => h.heap other (hrest other hother)⟩
            have hact := List.getElem?_eq_getElem (h.activation ▸ h.heap entry hentry :
              entry.1 < state.activation.length)
            obtain ⟨mid, hmid, hfits'⟩ : ∃ mid,
                HeapEngine.expand config graph { state with heap := rest } entry.1 = some mid ∧
                  mid.Fits graph.numNodes := by
              unfold HeapEngine.expand
              rw [hact, Option.bind_eq_bind, Option.bind_some]
              refine exists_foldlM (HeapState.Fits graph.numNodes) hfits fun u hu j hj => ?_
              obtain ⟨slot, hslot, hlt⟩ := hscorable entry.1 j hj
              exact ⟨_, by rw [hslot]; rfl, HeapEngine.fits_arrive hu hlt⟩
            obtain ⟨next, hnext⟩ := ih hfits'
            exact ⟨next, by rw [hmid]; exact hnext⟩

theorem HeapEngine.exists_scores (hscorable : graph.Scorable) (sizes : BloomSizes) (seeds : Seeds) :
    ∃ scores, HeapEngine.propagate sizes config graph seeds = some scores := by
  unfold HeapEngine.propagate
  split
  case isTrue => exact ⟨[], rfl⟩
  case isFalse =>
    have hstart : (seeds.foldl (HeapEngine.seed config graph)
        { activation := List.replicate graph.numNodes 0
          bloom := .withCapacity sizes graph.numNodes
          heap := [] }).Fits graph.numNodes := by
      refine seeds.foldlRecOn _ ⟨List.length_replicate, nofun⟩ fun state h entry _ => ?_
      unfold HeapEngine.seed
      split
      case isTrue hv => exact ⟨List.length_set.trans h.activation, h.push hv _⟩
      case isFalse => exact h
    obtain ⟨state, hstate⟩ := HeapEngine.exists_drain hscorable hstart
      (HeapEngine.maxOps config graph)
    exact ⟨_, by rw [hstate]; rfl⟩

theorem HybridEngine.exists_scores (config : PropagationConfig) (hscorable : graph.Scorable) (sizes : BloomSizes)
    (seeds : Seeds) : ∃ scores, HybridEngine.propagate sizes config graph seeds = some scores := by
  unfold HybridEngine.propagate
  split
  · exact HeapEngine.exists_scores hscorable sizes seeds
  · exact WavefrontEngine.exists_scores hscorable seeds

end Heaps

section Trials

variable {removed : List Bool} {pagerank : List Rat}

-- Each trial starts from one node.
theorem exists_generateDiverseSeeds (hranks : pagerank.length = graph.numNodes)
    (numTrials : Nat) : ∃ trials, generateDiverseSeeds graph pagerank numTrials = some trials ∧
      ∀ seeds ∈ trials, ∃ v < graph.numNodes, seeds = [(v, 1)] := by
  have hread : ∀ i ∈ (List.range graph.numNodes).filter fun i => graph.csr.outRange i ≠ [],
      ∃ entry, (pagerank[i]?.map fun rank => (i, rank)) = some entry := by
    intro i hi
    have hlt := List.mem_range.mp (List.mem_filter.mp hi).1
    rw [List.getElem?_eq_getElem (hranks ▸ hlt)]
    exact ⟨_, rfl⟩
  obtain ⟨ranked, hranked, hmem⟩ := exists_mapM hread
  have hnodes : ∀ entry ∈ ranked.mergeSort fun a b => decide (b.2 ≤ a.2),
      entry.1 < graph.numNodes := by
    intro entry hentry
    obtain ⟨i, hi, hvalue⟩ := (hmem entry).mp (List.mem_mergeSort.mp hentry)
    obtain ⟨rank, -, rfl⟩ := Option.map_eq_some_iff.mp hvalue
    exact List.mem_range.mp (List.mem_filter.mp hi).1
  unfold generateDiverseSeeds seedCandidates
  rw [hranked]
  simp only [Option.bind_eq_bind, Option.bind_some]
  generalize ranked.mergeSort (fun a b => decide (b.2 ≤ a.2)) = candidates at hnodes ⊢
  split
  case isTrue => exact ⟨[], rfl, nofun⟩
  case isFalse hsome =>
    have hpos : 0 < candidates.length := List.length_pos_iff.mpr hsome
    have hread : ∀ t ∈ List.range numTrials, ∃ value,
        (candidates[t * max (max candidates.length 1 / max numTrials 1) 1 %
          candidates.length]?.map fun candidate => [(candidate.1, (1 : Rat))]) = some value := by
      intro t _
      rw [List.getElem?_eq_getElem (Nat.mod_lt _ hpos)]
      exact ⟨_, rfl⟩
    obtain ⟨trials, htrials, hmem⟩ := exists_mapM hread
    refine ⟨trials, htrials, fun seeds hseeds => ?_⟩
    obtain ⟨t, -, hvalue⟩ := (hmem seeds).mp hseeds
    obtain ⟨candidate, hcandidate, rfl⟩ := Option.map_eq_some_iff.mp hvalue
    exact ⟨candidate.1, hnodes candidate (List.mem_of_getElem? hcandidate), rfl⟩

theorem exists_firstKept {read : Nat → Option Nat} {slots : List Nat}
    (hread : ∀ j ∈ slots, ∃ v, read j = some v ∧ v < removed.length) :
    ∃ found, firstKept removed read slots = some found := by
  induction slots with
  | nil => exact ⟨none, rfl⟩
  | cons j slots ih =>
      obtain ⟨v, hv, hlt⟩ := hread j List.mem_cons_self
      unfold firstKept
      rw [hv]
      simp only [Option.bind_eq_bind, Option.bind_some, List.getElem?_eq_getElem hlt]
      cases removed[v] with
      | true => exact ih fun i hi => hread i (List.mem_cons_of_mem _ hi)
      | false => exact ⟨some v, rfl⟩

theorem exists_adjustSeed (hscorable : graph.Scorable) (hsound : graph.Sound)
    (hsourced : graph.Sourced) (hreflected : graph.Reflected)
    (hlength : removed.length = graph.numNodes) {v : Nat} (hv : v < graph.numNodes) (score : Rat) :
    ∃ entry, adjustSeed graph removed (v, score) = some entry := by
  have hends : ∀ j ∈ graph.csr.outRange v, ∃ tgt, graph.csr.targets[j]? = some tgt ∧
      tgt < removed.length := by
    intro j hj
    obtain ⟨slot, hslot, -⟩ := hscorable v j hj
    obtain ⟨tgt, htgt, -⟩ := Option.bind_eq_some_iff.mp hslot
    exact ⟨tgt, htgt, hlength ▸ hsound.targets tgt (List.mem_of_getElem? htgt)⟩
  have hstarts : ∀ r ∈ graph.csr.inRange v, ∃ src, graph.csr.revSources[r]? = some src ∧
      src < removed.length := by
    intro r hr
    have hsrc := List.getElem?_eq_getElem (hsourced v r hr)
    exact ⟨_, hsrc, hlength ▸ (hsound.edge_lt ((hreflected _ v).mp ⟨r, hr, hsrc⟩)).1⟩
  obtain ⟨forward, hforward⟩ := exists_firstKept hends
  obtain ⟨backward, hbackward⟩ := exists_firstKept hstarts
  have hnodes : ∀ i ∈ List.range graph.numNodes, ∃ v, some i = some v ∧ v < removed.length :=
    fun i hi => ⟨i, rfl, hlength ▸ List.mem_range.mp hi⟩
  obtain ⟨any, hany⟩ := exists_firstKept hnodes
  unfold adjustSeed
  rw [List.getElem?_eq_getElem (hlength ▸ hv), Option.bind_eq_bind, Option.bind_some]
  cases removed[v] with
  | false => exact ⟨_, rfl⟩
  | true =>
      rw [if_pos rfl, hforward, Option.bind_eq_bind, Option.bind_some]
      cases forward with
      | some tgt => exact ⟨_, rfl⟩
      | none =>
          dsimp only
          rw [hbackward, Option.bind_some]
          cases backward with
          | some src => exact ⟨_, rfl⟩
          | none =>
              dsimp only
              rw [hany, Option.bind_some]
              cases any <;> exact ⟨_, rfl⟩

-- The marks of a removal, and its mask.
structure Removes (graph : Graph Rat T) (removeNodes : List Nat) (removal : List Bool × RemovalMask) :
    Prop where
  length : removal.1.length = graph.numNodes
  marked : ∀ v < graph.numNodes, removal.1[v]? = some (decide (v ∈ removeNodes))
  mask : removal.2.Fits graph

theorem exists_removalOf (hsourced : graph.Sourced) (hindexed : graph.Indexed)
    (hlisted : graph.Listed) (removeNodes : List Nat) :
    ∃ removal, removalOf graph removeNodes = some removal ∧ Removes graph removeNodes removal := by
  have hmasked : ∃ removal hidden, removalOf graph removeNodes = some removal ∧
      removal.2.Hides graph hidden ∧ removal.1.length = graph.numNodes ∧
      ∀ v < graph.numNodes, removal.1[v]? = some (decide (v ∈ removeNodes)) := by
    induction removeNodes using List.reverseRecOn with
    | nil =>
        refine ⟨_, [], rfl, RemovalMask.hides_new graph, List.length_replicate, fun v hv => ?_⟩
        rw [List.getElem?_replicate, if_pos hv]
        rfl
    | append_singleton removeNodes node ih =>
        obtain ⟨removal, hidden, hremoval, hhides, hlength, hmarked⟩ := ih
        rw [removalOf] at hremoval
        rw [removalOf, List.foldlM_append, hremoval]
        simp only [Option.bind_eq_bind, Option.bind_some, List.foldlM_cons, List.foldlM_nil]
        by_cases hnode : node < graph.numNodes
        · obtain ⟨mask, hmask, hhides'⟩ := hhides.exists_removeNode hsourced hindexed node
          rw [if_pos hnode, hmask]
          refine ⟨_, _, rfl, hhides', List.length_set.trans hlength, fun v hv => ?_⟩
          rw [List.getElem?_set]
          by_cases hsame : node = v
          · subst hsame
            simp [hlength, hnode]
          · simp [hsame, Ne.symm hsame, hmarked v hv]
        · rw [if_neg hnode]
          refine ⟨_, _, rfl, hhides, hlength, fun v hv => ?_⟩
          have hother : v ≠ node := by omega
          simp only [hmarked v hv, List.mem_append, List.mem_singleton, hother, or_false]
  obtain ⟨removal, hidden, hremoval, hhides, hlength, hmarked⟩ := hmasked
  exact ⟨removal, hremoval, hlength, hmarked, hhides.nodes, hhides.edges.trans hlisted.numEdges⟩

end Trials

section Counting

variable {marks : List Bool} {removed : List Nat}

-- The edges between nodes that are left.
def Graph.weakWithout (graph : Graph Rat T) (removed : List Nat) : SimpleGraph Nat :=
  graph.weak fun node => node < graph.numNodes ∧ node ∉ removed

-- The node the count starts from.
def Graph.startWithout (graph : Graph Rat T) (removed : List Nat) : Option Nat :=
  maxByKey (edgeDegree graph) ((List.range graph.numNodes).filter fun node => node ∉ removed)

-- The nodes that are left and joined to a node.
def Graph.partOf (graph : Graph Rat T) (removed : List Nat) (start : Nat) : Set Nat :=
  {node | (graph.weakWithout removed).Reachable start node}

noncomputable def Graph.reachWithout (graph : Graph Rat T) (removed : List Nat) : Nat :=
  match graph.startWithout removed with
  | none => 0
  | some start => (graph.partOf removed start).ncard

-- The last of the greatest ones.
structure Topmost (key : Nat → Nat) (items : List Nat) (top : Nat) : Prop where
  mem : top ∈ items
  greatest : ∀ item ∈ items, key item ≤ key top
  last : items.Pairwise (· < ·) → ∀ item ∈ items, key item = key top → item ≤ top

theorem maxByKey_concat (key : Nat → Nat) (items : List Nat) (item : Nat) :
    maxByKey key (items ++ [item]) = match maxByKey key items with
      | none => some item
      | some top => if key top ≤ key item then some item else some top := by
  rw [maxByKey, List.foldl_append]
  rfl

theorem topmost_maxByKey (key : Nat → Nat) (items : List Nat) :
    (maxByKey key items = none ∧ items = []) ∨
      ∃ top, maxByKey key items = some top ∧ Topmost key items top := by
  induction items using List.reverseRecOn with
  | nil => exact .inl ⟨rfl, rfl⟩
  | append_singleton items item ih =>
      right
      rw [maxByKey_concat]
      have hnew (hgreatest : ∀ other ∈ items, key other ≤ key item) :
          Topmost key (items ++ [item]) item := by
        refine ⟨List.mem_append_right _ List.mem_cons_self, fun other hother => ?_,
          fun hsorted other hother _ => ?_⟩
        · obtain hother | hother := List.mem_append.mp hother
          · exact hgreatest other hother
          · exact List.mem_singleton.mp hother ▸ le_rfl
        · obtain hother | hother := List.mem_append.mp hother
          · exact ((List.pairwise_append.mp hsorted).2.2 other hother item
              List.mem_cons_self).le
          · exact (List.mem_singleton.mp hother).le
      obtain ⟨hnone, rfl⟩ | ⟨top, htop, htopmost⟩ := ih
      · exact ⟨item, by rw [hnone], hnew nofun⟩
      · rw [htop]
        dsimp only
        split
        case isTrue hle =>
          exact ⟨item, rfl, hnew fun other hother => (htopmost.greatest other hother).trans hle⟩
        case isFalse hgt =>
          refine ⟨top, rfl, List.mem_append_left _ htopmost.mem, fun other hother => ?_,
            fun hsorted other hother hsame => ?_⟩
          · obtain hother | hother := List.mem_append.mp hother
            · exact htopmost.greatest other hother
            · obtain rfl := List.mem_singleton.mp hother
              omega
          · obtain hother | hother := List.mem_append.mp hother
            · exact htopmost.last (List.pairwise_append.mp hsorted).1 other hother hsame
            · obtain rfl := List.mem_singleton.mp hother
              omega

theorem Graph.startWithout_cases (graph : Graph Rat T) (removed : List Nat) :
    (graph.startWithout removed = none ∧ ∀ node < graph.numNodes, node ∈ removed) ∨
      ∃ start, graph.startWithout removed = some start ∧ start < graph.numNodes ∧
        start ∉ removed ∧ ∀ node < graph.numNodes, node ∉ removed →
          edgeDegree graph node < edgeDegree graph start ∨
            edgeDegree graph node = edgeDegree graph start ∧ node ≤ start := by
  have hmem (node : Nat) : node ∈ (List.range graph.numNodes).filter (fun v => v ∉ removed) ↔
      node < graph.numNodes ∧ node ∉ removed := by
    rw [List.mem_filter, List.mem_range, decide_eq_true_iff]
  unfold Graph.startWithout
  obtain ⟨hnone, hempty⟩ | ⟨start, hstart, htop⟩ := topmost_maxByKey (edgeDegree graph)
    ((List.range graph.numNodes).filter fun v => v ∉ removed)
  · refine .inl ⟨hnone, fun node hnode => by_contra fun hkept => ?_⟩
    have hin := (hmem node).mpr ⟨hnode, hkept⟩
    rw [hempty] at hin
    exact List.not_mem_nil hin
  · have hkept := (hmem start).mp htop.mem
    refine .inr ⟨start, hstart, hkept.1, hkept.2, fun node hnode hnot => ?_⟩
    have hin := (hmem node).mpr ⟨hnode, hnot⟩
    have hsorted : ((List.range graph.numNodes).filter fun v => v ∉ removed).Pairwise (· < ·) :=
      List.pairwise_lt_range.filter _
    obtain hlt | heq := (htop.greatest node hin).lt_or_eq
    · exact .inl hlt
    · exact .inr ⟨heq, htop.last hsorted node hin heq⟩

theorem computeReachability_eq
    (hread : ∀ node, ∃ nodes, graph.neighborsOf node = some nodes ∧
      ∀ v, v ∈ nodes ↔ graph.Edge node v ∨ graph.Edge v node)
    (hlength : marks.length = graph.numNodes)
    (hmarked : ∀ v < graph.numNodes, marks[v]? = some (decide (v ∈ removed))) :
    computeReachability graph marks = some (graph.reachWithout removed) := by
  have hfree (node : Nat) : marks[node]? = some false ↔ node < graph.numNodes ∧ node ∉ removed := by
    by_cases hnode : node < graph.numNodes
    · rw [hmarked node hnode]
      simp [hnode]
    · rw [List.getElem?_eq_none (by omega)]
      simp [hnode]
  have hstart : reachabilityStart graph marks = graph.startWithout removed := by
    unfold reachabilityStart Graph.startWithout
    congr 1
    refine List.filter_congr fun node hnode => ?_
    simp [hfree, List.mem_range.mp hnode]
  unfold computeReachability Graph.reachWithout
  rw [hstart]
  obtain ⟨hnone, -⟩ | ⟨start, hsome, hlt, hkept, -⟩ := graph.startWithout_cases removed
  · rw [hnone]
    split <;> rfl
  · rw [hsome, if_neg (by omega)]
    have horigin : (List.replicate graph.numNodes false)[start]? = some false := by
      rw [List.getElem?_replicate, if_pos hlt]
    have hunmarked (v : Nat) : (List.replicate graph.numNodes false)[v]? ≠ some true := by
      rw [List.getElem?_replicate]
      split <;> exact nofun
    have hnext (node : Nat) (_ : node < (List.replicate graph.numNodes false).length) :
        ∃ next, graph.neighborsOf node = some next := (hread node).imp fun _ h => h.1
    obtain ⟨last, members, hflood, hnodup, hentered, -, -, -, hmembers⟩ := exists_flood
      (hlength.trans List.length_replicate.symm) hnext
      (fun u v hu _ => absurd hu (hunmarked u)) horigin
    rw [List.length_replicate] at hflood
    have hpart : graph.partOf removed start = {v | v ∈ members} := by
      ext v
      have hweak : graph.weakWithout removed = graph.weak fun node => marks[node]? = some false := by
        unfold Graph.weakWithout
        congr 1
        funext node
        exact (propext (hfree node)).symm
      rw [Set.mem_ofPred_eq, hmembers, and_iff_left (hunmarked v),
        Graph.reflTransGen_passes_iff hread ((hfree start).mpr ⟨hlt, hkept⟩), ← hweak]
      rfl
    dsimp only
    rw [hflood, Option.map_some, hentered, hpart]
    have hfinset : {v | v ∈ members} = (members.toFinset : Set Nat) := by
      ext v
      simp
    rw [hfinset, Set.ncard_coe_finset, List.toFinset_card_of_nodup hnodup]

theorem Graph.partOf_finite (graph : Graph Rat T) (removed : List Nat) (start : Nat) :
    (graph.partOf removed start).Finite := by
  refine ((Set.finite_lt_nat graph.numNodes).union (Set.finite_singleton start)).subset ?_
  intro node hnode
  obtain ⟨walk⟩ := hnode
  cases walk.reverse with
  | nil => exact .inr rfl
  | cons hadj _ => exact .inl (Graph.weak_adj.mp hadj).2.1.1

theorem Graph.reachWithout_le {first second : List Nat} (hsub : first ⊆ second)
    (hpart : ∀ start, graph.startWithout second = some start → ∃ before,
      graph.startWithout first = some before ∧ start ∈ graph.partOf first before) :
    graph.reachWithout second ≤ graph.reachWithout first := by
  cases hstart : graph.startWithout second with
  | none =>
      rw [Graph.reachWithout, hstart]
      exact Nat.zero_le _
  | some start =>
      obtain ⟨before, hbefore, hmem⟩ := hpart start hstart
      rw [Graph.reachWithout, Graph.reachWithout, hstart, hbefore]
      refine Set.ncard_le_ncard (fun node hnode => ?_) (graph.partOf_finite first before)
      have hmono : graph.weakWithout second ≤ graph.weakWithout first := by
        intro a b hadj
        obtain ⟨hne, ha, hb, hedge⟩ := Graph.weak_adj.mp hadj
        exact Graph.weak_adj.mpr ⟨hne, ⟨ha.1, fun h => ha.2 (hsub h)⟩,
          ⟨hb.1, fun h => hb.2 (hsub h)⟩, hedge⟩
      exact hmem.trans (hnode.mono hmono)

-- While the start is left, it stays the start.
theorem Graph.startWithout_stays {first second : List Nat} (hsub : first ⊆ second) {start : Nat}
    (hstart : graph.startWithout first = some start) (hkept : start ∉ second) :
    graph.startWithout second = some start := by
  obtain ⟨hnone, -⟩ | ⟨before, hbefore, hlt, -, htop⟩ := graph.startWithout_cases first
  · exact absurd (hnone.symm.trans hstart) nofun
  · obtain rfl := Option.some.inj (hbefore.symm.trans hstart)
    obtain ⟨-, hall⟩ | ⟨after, hafter, hlt', hkept', htop'⟩ := graph.startWithout_cases second
    · exact absurd (hall before hlt) hkept
    · have hold := htop after hlt' fun h => hkept' (hsub h)
      have hnew := htop' before hlt hkept
      obtain rfl : after = before := by omega
      exact hafter

theorem Graph.reachWithout_eq_zero :
    graph.reachWithout removed = 0 ↔ ∀ node < graph.numNodes, node ∈ removed := by
  unfold Graph.reachWithout
  obtain ⟨hnone, hall⟩ | ⟨start, hstart, hlt, hkept, -⟩ := graph.startWithout_cases removed
  · rw [hnone]
    exact ⟨fun _ => hall, fun _ => rfl⟩
  · rw [hstart]
    dsimp only
    rw [Set.ncard_eq_zero (graph.partOf_finite removed start)]
    constructor
    · intro hempty
      have hmem : start ∈ graph.partOf removed start := SimpleGraph.Reachable.refl start
      rw [hempty] at hmem
      exact absurd hmem (Set.notMem_empty start)
    · exact fun hall => absurd (hall start hlt) hkept

end Counting

end M1nd.Core
