import M1nd.Core.Graph.Names
import M1nd.Core.Layer.Closing
import Mathlib.Data.Finset.Card
import Mathlib.Data.Finset.Range

namespace M1nd.Core

open M1nd.Library.Components
open Relation

variable {adj : Nat → List Nat}

-- The segments when the one on top has looked at one more neighbor.
def Segment.advanceTop : List Segment → List Segment
  | [] => []
  | caller :: callers => ⟨caller.vertex, caller.pos + 1, caller.above⟩ :: callers

namespace Tarjan

variable {t next : Tarjan} {nodes : List Nat} {segments : List Segment}
  {components : List (List Nat)} {neighbors : Nat → Option (List Nat)} {cost : Nat}

theorem Invariant.enter_next (h : t.Invariant nodes adj segments components)
    (callers : List TarjanFrame) {w : Nat} (hlt : w < nodes.length) (hw : t.indices w = none)
    (hcaller : ∀ caller ∈ segments.head?, (adj caller.vertex)[caller.pos]? = some w) :
    (t.enter w callers).Invariant nodes adj (⟨w, 0, []⟩ :: Segment.advanceTop segments)
      components := by
  cases segments with
  | nil => exact h.enter callers hlt hw nofun
  | cons caller rest =>
      have hget := hcaller caller rfl
      have hedge : Adjacent adj caller.vertex w := List.mem_of_getElem? hget
      have hchain := List.pairwise_cons.mp h.chain
      have henter := h.enter callers hlt hw fun segment hsegment => by
        obtain rfl | hsegment := List.mem_cons.mp hsegment
        · exact .single hedge
        · exact (hchain.1 segment hsegment).tail hedge
      have hvisited : ((t.enter w callers).indices w).isSome := by simp [Tarjan.enter]
      have hok := henter.ok caller (List.mem_cons_of_mem _ List.mem_cons_self)
      have hle : (t.enter w callers).lowlinks caller.vertex ≤ (t.enter w callers).num w := by
        have hlt := henter.num_lt.2 w (List.mem_singleton_self w) caller.vertex
          (List.mem_flatMap.mpr ⟨caller, List.mem_cons_self, caller.vertex_mem⟩)
        exact hok.low_le.trans hlt.le
      refine henter.withSegments rfl ?_ ?_
      · intro segment hsegment
        obtain rfl | hsegment := List.mem_cons.mp hsegment
        · exact henter.ok _ List.mem_cons_self
        · obtain rfl | hsegment := List.mem_cons.mp hsegment
          · exact hok.advance hget hvisited fun _ => hle
          · exact henter.ok segment (List.mem_cons_of_mem _ (List.mem_cons_of_mem _ hsegment))
      · obtain ⟨hfirst, hrest⟩ := List.pairwise_cons.mp henter.chain
        refine List.pairwise_cons.mpr ⟨?_, List.pairwise_cons.mpr (List.pairwise_cons.mp hrest)⟩
        intro segment hsegment
        obtain rfl | hsegment := List.mem_cons.mp hsegment
        · exact hfirst caller List.mem_cons_self
        · exact hfirst segment (List.mem_cons_of_mem _ hsegment)

section Cost

def unvisited (t : Tarjan) (n : Nat) : Nat :=
  ((Finset.range n).filter fun v => t.indices v = none).card

theorem unvisited_le (n : Nat) : t.unvisited n ≤ n :=
  (Finset.card_filter_le _ _).trans_eq (Finset.card_range n)

theorem unvisited_enter (callers : List TarjanFrame) {n w : Nat} (hlt : w < n)
    (hw : t.indices w = none) : (t.enter w callers).unvisited n + 1 = t.unvisited n := by
  have hmem : w ∈ (Finset.range n).filter fun v => t.indices v = none :=
    Finset.mem_filter.mpr ⟨Finset.mem_range.mpr hlt, hw⟩
  have herase : ((Finset.range n).filter fun v => (t.enter w callers).indices v = none) =
      ((Finset.range n).filter fun v => t.indices v = none).erase w := by
    ext x
    rw [Finset.mem_erase, Finset.mem_filter, Finset.mem_filter]
    by_cases hx : x = w <;> simp [Tarjan.enter, hx]
  rw [unvisited, herase, Finset.card_erase_add_one hmem, unvisited]

-- Between the steps either a node on top is resumed, or one of its neighbors is about to be
-- entered. The cost bounds the steps to come.
def Ready (t : Tarjan) (nodes : List Nat) (adj : Nat → List Nat) (components : List (List Nat))
    (cost : Nat) : Prop :=
  ∃ segments, t.Invariant nodes adj segments components ∧
    ((t.callStack = segments.map Segment.frame ∧
        cost = 3 * t.unvisited nodes.length + segments.length) ∨
      ∃ w, t.callStack = .Enter w :: (Segment.advanceTop segments).map Segment.frame ∧
        w < nodes.length ∧ t.indices w = none ∧
        (∀ caller ∈ segments.head?, (adj caller.vertex)[caller.pos]? = some w) ∧
        cost + 1 = 3 * t.unvisited nodes.length + segments.length)

end Cost

section Steps

variable (hneighbors : ∀ v < nodes.length, neighbors v = some (adj v))
  (hadjacent : ∀ v w, Adjacent adj v w → w < nodes.length)

theorem Ready.enter {callers : List TarjanFrame} {w : Nat}
    (h : t.Invariant nodes adj segments components)
    (hcallers : callers = (Segment.advanceTop segments).map Segment.frame)
    (hlt : w < nodes.length) (hw : t.indices w = none)
    (hcaller : ∀ caller ∈ segments.head?, (adj caller.vertex)[caller.pos]? = some w)
    (hcost : cost + 2 = 3 * t.unvisited nodes.length + segments.length) :
    (t.enter w callers).Ready nodes adj components cost := by
  have hunvisited := unvisited_enter callers hlt hw
  have hlength : (Segment.advanceTop segments).length = segments.length := by
    cases segments <;> rfl
  refine ⟨_, h.enter_next callers hlt hw hcaller, .inl ⟨?_, ?_⟩⟩
  · rw [hcallers]
    rfl
  · rw [List.length_cons, hlength]
    omega

include hneighbors hadjacent in
theorem Ready.step (h : t.Ready nodes adj components cost) (hcalls : t.callStack ≠ []) :
    ∃ next found rest, t.step nodes neighbors = some next ∧
      next.Ready nodes adj found rest ∧ rest < cost ∧
      ∀ v, (t.indices v).isSome → (next.indices v).isSome := by
  obtain ⟨segments, hinvariant, ⟨hframes, hcost⟩ | ⟨w, hframes, hlt, hw, hcaller, hcost⟩⟩ := h
  · cases segments with
    | nil => exact absurd hframes hcalls
    | cons segment callers =>
        obtain ⟨v, pos, above⟩ := segment
        obtain ⟨found, scanned, stop, hscan, hindices, hscanned, hfound⟩ := hinvariant.scan rfl
        have hunvisited : scanned.unvisited nodes.length = t.unvisited nodes.length := by
          rw [unvisited, hindices, unvisited]
        have hv := hinvariant.bounded v (hinvariant.visited v
          (hinvariant.vertex_mem_stack List.mem_cons_self))
        simp only [List.length_cons] at hcost
        unfold Tarjan.step
        simp only [hframes, List.map_cons, Segment.frame, hneighbors v hv, Option.bind_eq_bind,
          Option.bind_some, hscan]
        obtain ⟨rfl, hstop⟩ | ⟨w, rfl, hget, hw⟩ := hfound
        · obtain ⟨next, others, components, hfinish, hnext, hcall, hlength, hinv⟩ :=
            hscanned.finish hstop
          have hsame : next.unvisited nodes.length = t.unvisited nodes.length := by
            rw [unvisited, hnext, hindices, unvisited]
          refine ⟨next, components, 3 * t.unvisited nodes.length + callers.length, hfinish,
            ⟨others, hinv, .inl ⟨hcall, ?_⟩⟩, by omega, ?_⟩
          · rw [hsame, hlength]
          · intro v hv
            rwa [hnext, hindices]
        · refine ⟨_, components, 3 * t.unvisited nodes.length + callers.length, rfl,
            ⟨_, hscanned.withCallStack _, .inr ⟨w, rfl, ?_, ?_, ?_, ?_⟩⟩, by omega, ?_⟩
          · exact hadjacent v w (List.mem_of_getElem? hget)
          · exact (congrFun hindices w).trans hw
          · rintro caller ⟨rfl⟩
            exact hget
          · change _ = 3 * scanned.unvisited nodes.length + _
            rw [hunvisited, List.length_cons]
            omega
          · intro v hv
            change (scanned.indices v).isSome
            rwa [hindices]
  · refine ⟨t.enter w ((Segment.advanceTop segments).map Segment.frame), components, cost - 1, ?_,
      Ready.enter hinvariant rfl hlt hw hcaller ?_, ?_, ?_⟩
    · unfold Tarjan.step
      simp only [hframes]
    · have := unvisited_enter ((Segment.advanceTop segments).map Segment.frame) hlt hw
      omega
    · have := unvisited_enter ((Segment.advanceTop segments).map Segment.frame) hlt hw
      omega
    · intro v hv
      by_cases he : v = w
      · subst he
        simp [Tarjan.enter]
      · simpa [Tarjan.enter, he] using hv

include hneighbors hadjacent in
-- The fuel covers the cost, so the loop ends with an empty call stack.
theorem Ready.loop {fuel : Nat} (h : t.Ready nodes adj components cost) (hfuel : cost < fuel) :
    ∃ next found, t.loop nodes neighbors fuel = some next ∧ next.Invariant nodes adj [] found ∧
      ∀ v, (t.indices v).isSome → (next.indices v).isSome := by
  induction fuel generalizing t components cost with
  | zero => omega
  | succ fuel ih =>
      unfold Tarjan.loop
      by_cases hcalls : t.callStack = []
      · rw [if_pos hcalls]
        obtain ⟨segments, hinvariant, ⟨hframes, -⟩ | ⟨w, hframes, -⟩⟩ := h
        · have hnil : segments = [] := List.map_eq_nil_iff.mp (hframes.symm.trans hcalls)
          exact ⟨t, components, rfl, hnil ▸ hinvariant, fun _ hv => hv⟩
        · rw [hcalls] at hframes
          exact absurd hframes nofun
      · rw [if_neg hcalls]
        obtain ⟨next, found, rest, hstep, hready, hlt, hvisited⟩ :=
          h.step hneighbors hadjacent hcalls
        obtain ⟨last, components, hloop, hinvariant, hlast⟩ := ih hready (by omega)
        refine ⟨last, components, ?_, hinvariant, fun v hv => hlast v (hvisited v hv)⟩
        rw [hstep]
        exact hloop

include hneighbors hadjacent in
theorem Invariant.start (h : t.Invariant nodes adj [] components) {v : Nat}
    (hv : v < nodes.length) :
    ∃ next found, t.start nodes neighbors v = some next ∧ next.Invariant nodes adj [] found ∧
      (next.indices v).isSome ∧ ∀ w, (t.indices w).isSome → (next.indices w).isSome := by
  unfold Tarjan.start
  by_cases hvisited : (t.indices v).isSome
  · rw [if_pos hvisited]
    exact ⟨t, components, rfl, h, hvisited, fun _ hw => hw⟩
  · rw [if_neg hvisited]
    have hnone : t.indices v = none := Option.not_isSome_iff_eq_none.mp hvisited
    have hle := t.unvisited_le nodes.length
    have hready : ({ t with callStack := [.Enter v] }.enter v []).Ready nodes adj components
        (3 * t.unvisited nodes.length - 2) := by
      have hcost := unvisited_enter [] hv hnone
      apply Ready.enter (h.withCallStack [.Enter v]) rfl hv hnone (by simp)
      change _ = 3 * t.unvisited nodes.length + 0
      omega
    have hfuel : 3 * t.unvisited nodes.length - 2 < 3 * nodes.length := by omega
    obtain ⟨next, found, hloop, hinvariant, hkept⟩ := hready.loop hneighbors hadjacent hfuel
    refine ⟨next, found, ?_, hinvariant, hkept v (by simp [Tarjan.enter]), fun w hw => hkept w ?_⟩
    · rw [Tarjan.loop, if_neg (by simp)]
      exact hloop
    · by_cases he : w = v
      · subst he
        simp [Tarjan.enter]
      · simpa [Tarjan.enter, he] using hw

include hneighbors hadjacent in
theorem invariant_foldlM {k : Nat} (hk : k ≤ nodes.length) :
    ∃ next found, (List.range k).foldlM (fun t v => t.start nodes neighbors v) Tarjan.new =
        some next ∧ next.Invariant nodes adj [] found ∧
      ∀ v < k, (next.indices v).isSome := by
  induction k with
  | zero => exact ⟨new, [], rfl, invariant_new, nofun⟩
  | succ k ih =>
      obtain ⟨t, components, hfold, hinvariant, hvisited⟩ := ih (by omega)
      obtain ⟨next, found, hstart, hnext, hv, hkept⟩ :=
        hinvariant.start hneighbors hadjacent (v := k) (by omega)
      refine ⟨next, found, ?_, hnext, fun v hlt => ?_⟩
      · rw [List.range_succ, List.foldlM_append, hfold]
        simp [hstart]
      · by_cases he : v = k
        · exact he ▸ hv
        · exact hkept v (hvisited v (by omega))

end Steps

end Tarjan

end M1nd.Core

namespace M1nd.Core

open M1nd.Library.Buckets
open M1nd.Library.Components
open M1nd.Library.Loops

variable {W T : Type} {graph : Graph W T} {nodes : List Nat}

section Places

theorem nodeToIdx_concat (node : Nat) :
    nodeToIdx (nodes ++ [node]) = (nodeToIdx nodes).insert node nodes.length := by
  rw [nodeToIdx, nodeToIdx, List.zipIdx_append, List.foldl_append, Nat.zero_add]
  rfl

theorem getElem?_of_nodeToIdx {node idx : Nat} (h : (nodeToIdx nodes)[node]? = some idx) :
    nodes[idx]? = some node := by
  induction nodes using List.reverseRecOn with
  | nil => simp [nodeToIdx] at h
  | append_singleton nodes last ih =>
      rw [nodeToIdx_concat, Std.ExtTreeMap.getElem?_insert] at h
      split at h
      · obtain rfl := Option.some.inj h
        simp_all
      · have hget := ih h
        rw [List.getElem?_append_left (List.getElem?_eq_some_iff.mp hget).1]
        exact hget

theorem exists_nodeToIdx {node : Nat} (h : node ∈ nodes) :
    ∃ idx, (nodeToIdx nodes)[node]? = some idx := by
  induction nodes using List.reverseRecOn with
  | nil => exact absurd h List.not_mem_nil
  | append_singleton nodes last ih =>
      rw [nodeToIdx_concat, Std.ExtTreeMap.getElem?_insert]
      split
      · exact ⟨_, rfl⟩
      · rename_i hne
        have hmem : node ∈ nodes := by
          refine (List.mem_append.mp h).resolve_right fun hlast => hne ?_
          rw [List.mem_singleton.mp hlast]
          exact Nat.compare_eq_eq.mpr rfl
        exact ih hmem

end Places

section Edges

-- Every slot of the graph has a target and a relation with a name.
def Graph.Readable (graph : Graph W T) : Prop :=
  ∀ node, ∀ j ∈ graph.csr.outRange node, ∃ handle relation target,
    graph.csr.relations[j]? = some handle ∧ graph.strings.tryResolve handle = some relation ∧
      graph.csr.targets[j]? = some target

-- An edge of the candidate subgraph.
def Graph.CycleEdge (graph : Graph W T) (nodes : List Nat) (source target : Nat) : Prop :=
  source ∈ nodes ∧ target ∈ nodes ∧ ∃ j ∈ graph.csr.outRange source,
    graph.csr.targets[j]? = some target ∧ ∃ handle relation,
      graph.csr.relations[j]? = some handle ∧ graph.strings.tryResolve handle = some relation ∧
        layerCycleRelationCandidate relation = true

theorem Graph.cycleTarget_eq {j handle target : Nat} {relation : String}
    (hhandle : graph.csr.relations[j]? = some handle)
    (hrelation : graph.strings.tryResolve handle = some relation)
    (htarget : graph.csr.targets[j]? = some target) :
    graph.cycleTarget nodes j = some (if layerCycleRelationCandidate relation = true ∧
      target ∈ nodes then (nodeToIdx nodes)[target]? else none) := by
  unfold Graph.cycleTarget
  cases hcandidate : layerCycleRelationCandidate relation <;>
    simp [hhandle, hrelation, htarget, hcandidate]

-- The neighbors are the last places of the targets of the edges.
theorem Graph.Readable.cycleNeighbors (h : graph.Readable) {v node : Nat}
    (hnode : nodes[v]? = some node) : ∃ neighbors,
      graph.cycleNeighbors nodes v = some neighbors ∧
      ∀ w, w ∈ neighbors ↔ ∃ target, graph.CycleEdge nodes node target ∧
        (nodeToIdx nodes)[target]? = some w := by
  have hread : ∀ j ∈ graph.csr.outRange node, ∃ place, graph.cycleTarget nodes j = some place := by
    intro j hj
    obtain ⟨handle, relation, target, hhandle, hrelation, htarget⟩ := h node j hj
    exact ⟨_, Graph.cycleTarget_eq hhandle hrelation htarget⟩
  obtain ⟨places, hplaces, hmem⟩ := exists_mapM hread
  refine ⟨places.filterMap id, by simp [Graph.cycleNeighbors, hnode, hplaces], fun w => ?_⟩
  rw [List.mem_filterMap]
  simp only [id_eq, exists_eq_right, hmem]
  constructor
  · rintro ⟨j, hj, hplace⟩
    obtain ⟨handle, relation, target, hhandle, hrelation, htarget⟩ := h node j hj
    rw [Graph.cycleTarget_eq hhandle hrelation htarget] at hplace
    split at hplace
    · rename_i hedge
      exact ⟨target, ⟨List.mem_of_getElem? hnode, hedge.2, j, hj, htarget, handle, relation, hhandle,
        hrelation, hedge.1⟩, Option.some.inj hplace⟩
    · exact absurd (Option.some.inj hplace) nofun
  · rintro ⟨target, ⟨-, hinside, j, hj, htarget, handle, relation, hhandle, hrelation, hcandidate⟩,
      hw⟩
    refine ⟨j, hj, ?_⟩
    rw [Graph.cycleTarget_eq hhandle hrelation htarget, if_pos ⟨hcandidate, hinside⟩, hw]

theorem Graph.Readable.presents (h : graph.Readable) :
    Presents (Adjacent fun v => (graph.cycleNeighbors nodes v).getD []) (graph.CycleEdge nodes)
      (fun v => nodes[v]?) fun node => (nodeToIdx nodes)[node]? where
  labels _ _ := getElem?_of_nodeToIdx
  lower v w hnear := by
    cases hnode : nodes[v]? with
    | none => simp [Adjacent, Graph.cycleNeighbors, hnode] at hnear
    | some node =>
        obtain ⟨neighbors, hneighbors, hmem⟩ := h.cycleNeighbors hnode
        rw [Adjacent, hneighbors, Option.getD_some, hmem] at hnear
        obtain ⟨target, hedge, hw⟩ := hnear
        exact ⟨node, target, rfl, hedge, hw⟩
  lift v node target hnode hedge := by
    obtain ⟨neighbors, hneighbors, hmem⟩ := h.cycleNeighbors hnode
    obtain ⟨w, hw⟩ := exists_nodeToIdx hedge.2.1
    refine ⟨w, ?_, hw⟩
    rw [Adjacent, hneighbors, Option.getD_some, hmem]
    exact ⟨target, hedge, hw⟩
  placed _ _ hedge := exists_nodeToIdx hedge.1

end Edges

theorem Graph.Readable.exists_tarjanScc (h : graph.Readable) (nodes : List Nat) :
    ∃ sccs, graph.tarjanScc nodes = some sccs ∧
      ListsComponents (graph.CycleEdge nodes) sccs := by
  have hpresents : Presents _ (graph.CycleEdge nodes) _ _ := h.presents
  have hneighbors : ∀ v < nodes.length, graph.cycleNeighbors nodes v =
      some ((graph.cycleNeighbors nodes v).getD []) := by
    intro v hv
    obtain ⟨neighbors, hneighbors, -⟩ := h.cycleNeighbors (List.getElem?_eq_getElem hv)
    rw [hneighbors, Option.getD_some]
  have hadjacent : ∀ v w, Adjacent (fun v => (graph.cycleNeighbors nodes v).getD []) v w →
      w < nodes.length := by
    intro v w hnear
    obtain ⟨-, target, -, -, hw⟩ := hpresents.lower v w hnear
    exact (List.getElem?_eq_some_iff.mp (getElem?_of_nodeToIdx hw)).1
  obtain ⟨t, components, hfold, hinvariant, hvisited⟩ :=
    Tarjan.invariant_foldlM hneighbors hadjacent (Nat.le_refl _)
  have hcover : ∀ node v : Nat, (nodeToIdx nodes)[node]? = some v →
      ∃ component ∈ components, v ∈ component := by
    intro node v hv
    have hlt := (List.getElem?_eq_some_iff.mp (getElem?_of_nodeToIdx hv)).1
    refine (hinvariant.settled v).mp ⟨hvisited v hlt, ?_⟩
    rw [hinvariant.stack]
    exact List.not_mem_nil
  have hlabel : ∀ v a : Nat, nodes[v]? = some a → nodes.getD v 0 = a := by
    intro v a hv
    rw [List.getD_eq_getElem?_getD, hv, Option.getD_some]
  have hlists := hpresents.listsComponents hlabel hinvariant.component hinvariant.disjoint hcover
  refine ⟨t.result, ?_, ?_⟩
  · unfold Graph.tarjanScc
    by_cases hempty : nodes.length = 0
    · rw [hempty] at hfold
      obtain rfl := Option.some.inj hfold
      rw [if_pos hempty]
      rfl
    · rw [if_neg hempty, hfold]
      rfl
  · rw [hinvariant.result]
    exact hlists

-- The iterative search ends, and finds the strongly connected components of the candidate
-- subgraph that have more than one node, each of them once.
theorem Graph.tarjanScc_exact (graph : Graph W T) (nodes : List Nat) (h : graph.Readable) :
    ∃ sccs, graph.tarjanScc nodes = some sccs ∧
      ListsComponents (graph.CycleEdge nodes) sccs :=
  h.exists_tarjanScc nodes

-- The graphs that are built by adding nodes and edges can be read.
theorem GraphOp.readable_run [Zero W] (ops : List (GraphOp W T)) : (GraphOp.run ops).Readable := by
  have hlisted := GraphOp.listed_run ops
  have hnamed := GraphOp.named_run ops
  intro node j hj
  have hcovers : (GraphOp.run ops).csr.offsets.length - 1 + 1 =
      (GraphOp.run ops).csr.offsets.length := by
    unfold CsrGraph.outRange at hj
    split at hj
    · exact absurd hj List.not_mem_nil
    · omega
  have hslot := (CsrGraph.mem_outRange hcovers.symm).mp hj
  have hmem : j ∈ List.range (GraphOp.run ops).csr.targets.length :=
    hlisted.indices ▸ List.mem_map_of_mem hslot
  have hlt := List.mem_range.mp hmem
  have hlt' : j < (GraphOp.run ops).csr.relations.length := hnamed.length ▸ hlt
  have hname := hnamed.relations _ (List.getElem_mem hlt')
  exact ⟨_, _, _, List.getElem?_eq_getElem hlt', List.getElem?_eq_getElem hname,
    List.getElem?_eq_getElem hlt⟩

theorem Graph.mutual_imports_found :
    let ops : List (GraphOp Nat Nat) := [.addNode "a" "a" .File [] 0 0,
      .addNode "b" "b" .File [] 0 0, .addEdge 0 1 "imports" 1 .Forward false 0,
      .addEdge 1 0 "imports" 1 .Forward false 0, .finalize]
    ∃ sccs, (GraphOp.run ops).tarjanScc [0, 1] = some sccs ∧
      ListsComponents ((GraphOp.run ops).CycleEdge [0, 1]) sccs :=
  Graph.tarjanScc_exact _ [0, 1] (GraphOp.readable_run _)

end M1nd.Core
