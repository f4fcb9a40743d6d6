import M1nd.Core.SpectralGap.Components
import M1nd.Core.Snapshot.Coherent
import Mathlib.Data.Rat.Sqrt

namespace M1nd.Core

open M1nd.Library.Loops
open M1nd.Library.WeakComponents
open Relation

variable {W F D T : Type} {graph : Graph W T}

section Weak

-- The edges between the nodes of a graph.
def Graph.FinEdge (graph : Graph W T) (source target : Fin graph.numNodes) : Prop :=
  graph.Edge source target

-- The graph that is left when the edges lose their directions.
noncomputable def Graph.weakComponents (graph : Graph W T) : Nat :=
  Nat.card (undirected graph.FinEdge).ConnectedComponent

theorem Graph.Closed.reflTransGen_iff (h : graph.Closed) (u v : Fin graph.numNodes) :
    ReflTransGen graph.Edge u v ↔ ReflTransGen graph.FinEdge u v := by
  constructor
  · intro hreach
    have hpath : ∀ x, ReflTransGen graph.Edge u x →
        ∃ hx : x < graph.numNodes, ReflTransGen graph.FinEdge u ⟨x, hx⟩ := by
      intro x hx
      induction hx with
      | refl => exact ⟨u.isLt, .refl⟩
      | tail _ hedge ih =>
          obtain ⟨_, hback⟩ := ih
          exact ⟨h.edge_lt hedge, hback.tail hedge⟩
    exact (hpath v hreach).2
  · intro hreach
    exact hreach.lift (fun w : Fin graph.numNodes => (w : Nat)) fun _ _ hedge => hedge

theorem Graph.Closed.root_iff (h : graph.Closed) (v : Fin graph.numNodes) :
    graph.Root v ↔ IsRoot graph.FinEdge v := by
  constructor
  · intro hroot u hlt hreach
    exact hroot u hlt ((h.reflTransGen_iff u v).mpr hreach)
  · intro hroot u hlt hreach
    exact hroot ⟨u, hlt.trans v.isLt⟩ hlt ((h.reflTransGen_iff ⟨u, hlt.trans v.isLt⟩ v).mp hreach)

-- The lowest node of each weak component reaches all of it along the edges.
def Graph.LowestReach (graph : Graph W T) : Prop :=
  ∀ a b, IsLowest graph.FinEdge a → (undirected graph.FinEdge).Reachable a b →
    ReflTransGen graph.FinEdge a b

theorem Graph.Closed.countComponents_iff (h : graph.Closed) :
    countComponents graph = some graph.weakComponents ↔ graph.LowestReach := by
  have hroots : Nat.card {v : Fin graph.numNodes // graph.Root v} =
      Nat.card {v : Fin graph.numNodes // IsRoot graph.FinEdge v} :=
    Nat.card_congr (Equiv.subtypeEquivRight h.root_iff)
  rw [h.exists_countComponents, hroots, Option.some_inj]
  exact card_roots_eq_iff

end Weak

section Analyze

theorem Graph.Coherent.closed [Zero W] [FiniteF32 W F] (h : graph.Coherent F) : graph.Closed := by
  intro node j hj
  have hlt := h.tabled.listed.mem_outRange_lt hj
  exact ⟨graph.csr.targets[j], h.sound.targets _ (List.getElem_mem hlt),
    List.getElem?_eq_getElem hlt⟩

variable [FiniteF32 W F] [SpectralF64 D F]

-- Every slot of a node has a weight.
def Graph.Weighted (graph : Graph W T) : Prop :=
  ∀ node, ∀ j ∈ graph.csr.outRange node, ∃ weight, graph.csr.weights[EdgeIdx.new j]? = some weight

theorem Graph.Weighted.exists_edgeWeight (h : graph.Weighted) {node j : Nat}
    (hj : j ∈ graph.csr.outRange node) : ∃ weight : D, edgeWeight graph j = some weight := by
  obtain ⟨weight, hweight⟩ := h node j hj
  exact ⟨_, by rw [edgeWeight, hweight, Option.map_some]⟩

theorem Graph.Weighted.exists_degreeOf (h : graph.Weighted) (node : Nat) :
    ∃ degree : D, degreeOf graph node = some degree := by
  have hloop : ∃ degree : D, degreeOf graph node = some degree ∧ True := by
    refine exists_foldlM (fun _ => True) trivial fun sum _ j hj => ?_
    obtain ⟨weight, hweight⟩ := h.exists_edgeWeight (D := D) hj
    exact ⟨sum + weight, by rw [hweight, Option.map_some], trivial⟩
  obtain ⟨degree, hdegree, -⟩ := hloop
  exact ⟨degree, hdegree⟩

theorem exists_getElem? {v : List D} {n i : Nat} (hv : v.length = n) (hi : i < n) :
    ∃ x, v[i]? = some x :=
  have hlt : i < v.length := hv ▸ hi
  ⟨v[i], List.getElem?_eq_getElem hlt⟩

theorem exists_shiftedRow (hclosed : graph.Closed) (hweighted : graph.Weighted)
    {degree v : List D} (hdegree : degree.length = graph.numNodes) (hv : v.length = graph.numNodes)
    (maxEigEst : D) {i : Nat} (hi : i < graph.numNodes) :
    ∃ row, shiftedRow graph degree maxEigEst v i = some row := by
  obtain ⟨di, hdi⟩ := exists_getElem? hdegree hi
  obtain ⟨vi, hvi⟩ := exists_getElem? hv hi
  have hloop : ∃ row, (graph.csr.outRange i).foldlM (fun sum j => do
      let tgt ← graph.csr.targets[j]?
      let weight ← edgeWeight graph j
      let vt ← v[tgt]?
      some (sum + weight * vt)) ((maxEigEst - di) * vi) = some row ∧ True := by
    refine exists_foldlM (fun _ => True) trivial fun sum _ j hj => ?_
    obtain ⟨target, hlt, htarget⟩ := hclosed i j hj
    obtain ⟨weight, hweight⟩ := hweighted.exists_edgeWeight (D := D) hj
    obtain ⟨vt, hvt⟩ := exists_getElem? hv hlt
    refine ⟨sum + weight * vt, ?_, trivial⟩
    simp only [htarget, hweight, hvt, Option.bind_eq_bind, Option.bind_some]
  obtain ⟨row, hrow, -⟩ := hloop
  refine ⟨row, ?_⟩
  rw [shiftedRow, hdi, hvi]
  exact hrow

theorem length_orthogonalize (v : List D) : (orthogonalize v).length = v.length :=
  List.length_map _

theorem exists_powerIterate (hclosed : graph.Closed) (hweighted : graph.Weighted)
    {degree : List D} (hdegree : degree.length = graph.numNodes) (maxEigEst tolerance : D)
    (iterations : Nat) {v : List D} (hv : v.length = graph.numNodes) (eigenvalue : D) :
    ∃ found, powerIterate graph degree maxEigEst tolerance iterations v eigenvalue =
      some found := by
  induction iterations generalizing v eigenvalue with
  | zero => exact ⟨_, rfl⟩
  | succ iterations ih =>
      have hrows : ∀ i ∈ List.range graph.numNodes,
          ∃ row, shiftedRow graph degree maxEigEst v i = some row :=
        fun i hi => exists_shiftedRow hclosed hweighted hdegree hv maxEigEst (List.mem_range.mp hi)
      obtain ⟨w, hw, -⟩ := exists_mapM hrows
      have hlength : (orthogonalize w).length = graph.numNodes := by
        rw [length_orthogonalize, length_mapM hw, List.length_range]
      rw [powerIterate, hw, Option.bind_eq_bind, Option.bind_some]
      dsimp only
      split
      · exact ⟨_, rfl⟩
      · split
        · exact ⟨_, rfl⟩
        · exact ih ((List.length_map _).trans hlength) _

theorem exists_powerTrial (hclosed : graph.Closed) (hweighted : graph.Weighted)
    {degree : List D} (hdegree : degree.length = graph.numNodes)
    (analyzer : SpectralGapAnalyzer D) (maxEigEst : D) (best : D × Bool) (trial : Nat) :
    ∃ next, powerTrial analyzer graph degree maxEigEst best trial = some next := by
  have hlength : (initialVector graph.numNodes trial : List D).length = graph.numNodes := by
    rw [initialVector, length_orthogonalize, List.length_map, List.length_range]
  unfold powerTrial
  dsimp only
  split
  · exact ⟨_, rfl⟩
  · obtain ⟨found, hfound⟩ := exists_powerIterate hclosed hweighted hdegree maxEigEst
      analyzer.tolerance analyzer.maxIterations ((List.length_map _).trans hlength) 0
    exact ⟨_, by rw [hfound, Option.map_some]⟩

-- The analysis of a graph that is not empty reports what the search counts.
theorem SpectralGapAnalyzer.exists_analyze [Float32 F] (hclosed : graph.Closed)
    (hweighted : graph.Weighted) (hnonempty : graph.numNodes ≠ 0)
    (analyzer : SpectralGapAnalyzer D) {numComponents : Nat}
    (hcount : countComponents graph = some numComponents) : ∃ result,
      analyzer.analyze graph = some (.ok result) ∧ result.numComponents = numComponents := by
  unfold SpectralGapAnalyzer.analyze
  rw [if_neg hnonempty, hcount, Option.bind_eq_bind, Option.bind_some]
  by_cases hsingle : graph.numNodes = 1
  · rw [if_pos hsingle]
    exact ⟨_, rfl, rfl⟩
  · rw [if_neg hsingle]
    obtain ⟨degree, hdegree, -⟩ := exists_mapM fun node (_ : node ∈ List.range graph.numNodes) =>
      hweighted.exists_degreeOf (D := D) node
    have hlength : degree.length = graph.numNodes := by
      rw [length_mapM hdegree, List.length_range]
    rw [hdegree, Option.bind_eq_bind, Option.bind_some]
    dsimp only
    split
    · exact ⟨_, rfl, rfl⟩
    · have htrials : ∃ best : D × Bool, (List.range analyzer.numTrials).foldlM
          (powerTrial analyzer graph degree
            (degree.foldl max 0 * SpectralF64.maxEigFactor)) (SpectralF64.maxValue, false) =
            some best ∧ True := by
        refine exists_foldlM (fun _ => True) trivial fun best _ trial _ => ?_
        obtain ⟨next, hnext⟩ := exists_powerTrial hclosed hweighted hlength analyzer
          (degree.foldl max 0 * SpectralF64.maxEigFactor) best trial
        exact ⟨next, hnext, trivial⟩
      obtain ⟨best, hbest, -⟩ := htrials
      rw [hbest, Option.bind_eq_bind, Option.bind_some]
      exact ⟨_, rfl, rfl⟩

theorem Graph.Coherent.weighted [Zero W] (h : graph.Coherent F) : graph.Weighted := by
  intro node j hj
  have hlt := h.tabled.listed.mem_outRange_lt hj
  rw [← h.tabled.listed.weights] at hlt
  exact ⟨_, List.getElem?_eq_getElem ((Nat.mod_le j (2 ^ 32)).trans_lt hlt)⟩

variable [Float32 F] [Zero W]

-- A graph without nodes is refused. The components that are counted of any other graph are its
-- weak components just when the lowest node of each of these reaches all of it.
theorem SpectralGapAnalyzer.numComponents_iff (analyzer : SpectralGapAnalyzer D)
    (edits : List (GraphEdit W T)) :
    let graph := GraphEdit.run edits
    if graph.numNodes = 0 then analyzer.analyze graph = some (.error .EmptyGraph)
    else ∃ result, analyzer.analyze graph = some (.ok result) ∧
      (result.numComponents = graph.weakComponents ↔ graph.LowestReach) := by
  intro graph
  have hcoherent : graph.Coherent F := GraphEdit.coherent_run F edits
  by_cases hempty : graph.numNodes = 0
  · rw [if_pos hempty, SpectralGapAnalyzer.analyze, if_pos hempty]
  · rw [if_neg hempty]
    have hcount := hcoherent.closed.exists_countComponents
    obtain ⟨result, hresult, hnum⟩ :=
      analyzer.exists_analyze hcoherent.closed hcoherent.weighted hempty hcount
    refine ⟨result, hresult, ?_⟩
    rw [← hcoherent.closed.countComponents_iff, hcount, hnum, Option.some_inj]

instance exactSpectral : SpectralF64 Rat Rat where
  ofNat n := n
  ofF32 w := w
  toF32 x := x
  sqrt := Rat.sqrt
  lt x y := decide (x < y)
  le x y := decide (x ≤ y)
  maxValue := 2 ^ 1024 - 2 ^ 971
  maxEigFactor := 21 / 10
  tiny := 1 / 10 ^ 15
  half := 1 / 2
  maxConnectivity := 100
  fragileBelow := 1 / 100
  moderateBelow := 1 / 2

-- The only edge ends at the node that the first search starts at.
def GraphEdit.backward : List (GraphEdit Rat Nat) :=
  [.operate (.addNode "a" "a" .File [] 0 0), .operate (.addNode "b" "b" .File [] 0 0),
    .operate (.addEdge 1 0 "imports" 1 .Forward false 0), .operate .finalize]

theorem GraphEdit.edge_backward {source target : Nat}
    (hedge : (GraphEdit.run GraphEdit.backward).Edge source target) : source = 1 := by
  obtain ⟨j, hj, -⟩ := hedge
  have hoffsets : (GraphEdit.run GraphEdit.backward).csr.offsets = [0, 0, 1] := by decide +kernel
  rw [CsrGraph.outRange, hoffsets] at hj
  cases source with
  | zero => exact absurd hj List.not_mem_nil
  | succ source =>
      cases source with
      | zero => rfl
      | succ source => exact absurd hj (by simp)

theorem SpectralGapAnalyzer.backward_edge_splits :
    let analyzer : SpectralGapAnalyzer Rat := ⟨1000, 1 / 10 ^ 8, 3⟩
    let graph := GraphEdit.run GraphEdit.backward
    graph.finalized = true ∧ ∃ result, analyzer.analyze graph = some (.ok result) ∧
      result.numComponents ≠ graph.weakComponents := by
  intro analyzer graph
  have hcoherent : graph.Coherent Rat := GraphEdit.coherent_run Rat GraphEdit.backward
  have hnodes : graph.numNodes = 2 := by decide +kernel
  have hcount := hcoherent.closed.exists_countComponents
  obtain ⟨result, hresult, hnum⟩ :=
    analyzer.exists_analyze hcoherent.closed hcoherent.weighted (hnodes ▸ by decide) hcount
  refine ⟨by decide +kernel, result, hresult, fun hsame => ?_⟩
  have hreach : graph.LowestReach := by
    rw [← hcoherent.closed.countComponents_iff, hcount, ← hnum, hsame]
  -- The nodes are weakly connected, and the first does not reach the second.
  let a : Fin graph.numNodes := ⟨0, by omega⟩
  let b : Fin graph.numNodes := ⟨1, by omega⟩
  have hedge : graph.FinEdge b a := by
    change ∃ j ∈ graph.csr.outRange 1, graph.csr.targets[j]? = some 0
    decide +kernel
  have hconnected : (undirected graph.FinEdge).Reachable a b :=
    (reachable_of_reflTransGen (.single hedge)).symm
  have hforward := hreach a b (fun c _ => Nat.zero_le c) hconnected
  obtain hsame | ⟨c, hstart, -⟩ := ReflTransGen.cases_head hforward
  · exact absurd (congrArg Fin.val hsame) Nat.zero_ne_one
  · exact absurd (GraphEdit.edge_backward hstart) Nat.zero_ne_one

end Analyze

end M1nd.Core
