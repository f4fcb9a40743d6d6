import M1nd.Core.Community.Moving

namespace M1nd.Core

open M1nd.Library.Loops
open M1nd.Library.Modularity
open M1nd.Library.WeightMap

variable {T : Type} {n : Nat}

namespace Neighborhood

variable {net : Neighborhood} {orders : HashOrder} {community assignments : List Nat}

-- An edge between the nodes, in either direction and of any weight.
def Adjacent (net : Neighborhood) (i j : Nat) : Prop :=
  j ∈ (net.adj.getD i []).map Prod.fst

instance (net : Neighborhood) : DecidableRel net.Adjacent :=
  fun i j => inferInstanceAs (Decidable (j ∈ (net.adj.getD i []).map Prod.fst))

section Bonds

theorem Sums.foldlM_addBond (h : net.Sums n) (hlength : assignments.length = n) {i : Nat}
    (hi : i < n) {row : List (Nat × Rat)} (hrow : ∀ entry ∈ row, entry.1 < n) (q : Rat) :
    row.foldlM (net.addBond assignments i) q = some (q + (row.map fun entry =>
      if communityOf assignments i = communityOf assignments entry.1 then
        entry.2 - Library.Modularity.degree (Finset.range n) net.weight i *
          Library.Modularity.degree (Finset.range n) net.weight entry.1 /
            total (Finset.range n) net.weight else 0).sum) := by
  induction row generalizing q with
  | nil => exact congrArg some (add_zero q).symm
  | cons entry row ih =>
      have hentry := hrow entry List.mem_cons_self
      have hnext : net.addBond assignments i q entry = some (q +
          if communityOf assignments i = communityOf assignments entry.1 then
            entry.2 - Library.Modularity.degree (Finset.range n) net.weight i *
              Library.Modularity.degree (Finset.range n) net.weight entry.1 /
                total (Finset.range n) net.weight else 0) := by
        rw [addBond, getElem?_eq_communityOf (hlength.symm ▸ hi),
          getElem?_eq_communityOf (hlength.symm ▸ hentry), h.degree_getElem? hi,
          h.degree_getElem? hentry, h.twoM_eq]
        simp only [Option.bind_eq_bind, Option.bind_some]
        split
        · rfl
        · rw [add_zero]
      rw [List.foldlM_cons, hnext, Option.bind_eq_bind, Option.bind_some,
        ih fun other hother => hrow other (List.mem_cons_of_mem _ hother), List.map_cons,
        List.sum_cons, add_assoc]

-- What a node adds to the modularity.
theorem Sums.addBonds_eq (h : net.Sums n) (hlength : assignments.length = n) {i : Nat} (hi : i < n)
    (q : Rat) : net.addBonds assignments q i = some (q + ∑ j ∈ Finset.range n,
      if net.Adjacent i j then if communityOf assignments i = communityOf assignments j then
        bond (Finset.range n) net.weight i j else 0 else 0) := by
  have hkeys : ∀ entry ∈ net.adj.getD i [], entry.1 ∈ Finset.range n :=
    fun entry hentry => Finset.mem_range.mpr (h.keys i entry hentry)
  rw [addBonds, h.row hi, Option.bind_eq_bind, Option.bind_some,
    h.foldlM_addBond hlength hi (h.keys i)]
  have hsum := sum_map_keys (h.nodup i) hkeys fun j =>
    if communityOf assignments i = communityOf assignments j then
      bond (Finset.range n) net.weight i j else 0
  refine congrArg (fun sum => some (q + sum)) (Eq.trans (congrArg List.sum ?_) hsum)
  refine List.map_congr_left fun entry hentry => ?_
  rw [bond, weight, link, weightOf_of_mem (h.nodup i) hentry]

theorem Sums.modularityOf_eq (h : net.Sums n) (hlength : assignments.length = n) :
    net.modularityOf assignments = some ((∑ i ∈ Finset.range n, ∑ j ∈ Finset.range n,
      if net.Adjacent i j then if communityOf assignments i = communityOf assignments j then
        bond (Finset.range n) net.weight i j else 0 else 0) /
          total (Finset.range n) net.weight) := by
  have hloop : ∀ m ≤ n, (List.range m).foldlM (net.addBonds assignments) 0 =
      some (∑ i ∈ Finset.range m, ∑ j ∈ Finset.range n,
        if net.Adjacent i j then if communityOf assignments i = communityOf assignments j then
          bond (Finset.range n) net.weight i j else 0 else 0) := by
    intro m hm
    induction m with
    | zero => rfl
    | succ m ih =>
        rw [List.range_succ, List.foldlM_append, ih (by omega), Option.bind_eq_bind,
          Option.bind_some, List.foldlM_cons, h.addBonds_eq hlength hm, Finset.sum_range_succ]
        rfl
  rw [modularityOf, h.length, hloop n le_rfl, Option.map_some, h.twoM_eq]

end Bonds

theorem Sums.degree_nonneg (h : net.Sums n) (i : Nat) :
    0 ≤ Library.Modularity.degree (Finset.range n) net.weight i :=
  Finset.sum_nonneg fun j _ => h.nonneg i j

-- Any two nodes of a community are adjacent, a node and itself too, but for those of degree zero.
def Cliques (net : Neighborhood) (community : List Nat) : Prop :=
  ∀ i ∈ Finset.range net.adj.length, ∀ j ∈ Finset.range net.adj.length,
    communityOf community i = communityOf community j →
      0 < Library.Modularity.degree (Finset.range net.adj.length) net.weight i →
        0 < Library.Modularity.degree (Finset.range net.adj.length) net.weight j → net.Adjacent i j

-- The sum over the adjacent nodes against the modularity.
theorem Sums.modularityOf_iff (h : net.Sums n) (hpos : 0 < net.twoM)
    (hlength : community.length = n) : ∃ q,
      net.modularityOf (renumber community).assignments = some q ∧
      (q = net.modularity (renumber community).assignments ↔ net.Cliques community) := by
  have hnumbers := numbers_renumber community
  have hzero : ∀ i j, ¬ net.Adjacent i j → net.weight i j = 0 :=
    fun i j hnot => weightOf_of_notMem hnot
  refine ⟨_, h.modularityOf_eq (hnumbers.length.trans hlength), ?_⟩
  rw [modularity, Cliques, h.length, sum_adjacent_eq_iff net.Adjacent hzero
    (fun i _ => h.degree_nonneg i) (h.twoM_eq ▸ hpos)]
  refine forall₂_congr fun i hi => forall₂_congr fun j hj => imp_congr_left ?_
  exact hnumbers.communityOf_eq_iff (hlength.symm ▸ Finset.mem_range.mp hi)
    (hlength.symm ▸ Finset.mem_range.mp hj)

-- Without weights there is no modularity.
theorem Sums.modularity_zero (h : net.Sums n) (hzero : net.twoM ≤ 0) :
    net.modularity community = 0 ∧ net.Cliques community := by
  have htotal : total (Finset.range n) net.weight = 0 :=
    le_antisymm (h.twoM_eq ▸ hzero) (Finset.sum_nonneg fun i _ => h.degree_nonneg i)
  constructor
  · rw [modularity, Library.Modularity.modularity, h.length, htotal, div_zero]
  · rw [Cliques, h.length]
    intro i hi j _ _ hdegree
    have hall := (Finset.sum_eq_zero_iff_of_nonneg fun i _ => h.degree_nonneg i).mp htotal
    exact absurd (hall i hi) hdegree.ne'

end Neighborhood

namespace CommunityDetector

-- The partition that the modularity is computed of.
def partition (detector : CommunityDetector) (orders : HashOrder) (net : Neighborhood) :
    Option (List Nat) :=
  if net.twoM ≤ 0 then some (List.range net.adj.length)
  else (net.localMoving orders detector.maxPasses 0 net.start).map Neighborhood.Moved.community

variable {graph : Graph Rat T} {net : Neighborhood}

theorem detect_eq (detector : CommunityDetector) (orders : HashOrder) (hnonempty : graph.numNodes ≠ 0)
    (hnet : neighborhood graph = some net) (h : net.Sums graph.numNodes) :
    ∃ community result, detector.partition orders net = some community ∧
      detector.detect orders graph = some (.ok result) ∧
      result.assignments.length = graph.numNodes ∧
      (∀ id, id ∈ result.assignments ↔ id < result.numCommunities) ∧
      (result.modularity = net.modularity result.assignments ↔ net.Cliques community) := by
  unfold detect partition
  rw [if_neg hnonempty, hnet, Option.bind_eq_bind, Option.bind_some]
  by_cases hzero : net.twoM ≤ 0
  · rw [if_pos hzero, if_pos hzero]
    refine ⟨_, _, rfl, rfl, List.length_range, fun id => List.mem_range, ?_⟩
    exact iff_of_true (h.modularity_zero hzero).1.symm (h.modularity_zero hzero).2
  · have hpos := not_le.mp hzero
    obtain ⟨moved, hmoved, hlength⟩ :=
      h.exists_moved hpos orders detector.maxPasses h.keeps_start 0
    obtain ⟨q, hq, hiff⟩ := h.modularityOf_iff hpos hlength
    have hnumbers := numbers_renumber moved.community
    rw [if_neg hzero, if_neg hzero, hmoved, Option.map_some]
    simp only [Option.bind_eq_bind, Option.bind_some]
    rw [hq]
    exact ⟨_, _, rfl, rfl, hnumbers.length.trans hlength, hnumbers.mem_iff, hiff⟩

variable (detector : CommunityDetector) (orders : HashOrder) (edits : List (GraphEdit Rat T))

-- The modularity that is reported is that of the partition just when the partition is one into
-- cliques with self-loops, isolated nodes apart.
theorem reported_modularity_iff
    (hnonneg : ∀ w ∈ (GraphEdit.run edits).csr.weights, 0 ≤ w) :
    let graph := GraphEdit.run edits
    if graph.numNodes = 0 then detector.detect orders graph = some (.error .EmptyGraph)
    else ∃ net community result, neighborhood graph = some net ∧
      detector.partition orders net = some community ∧
      detector.detect orders graph = some (.ok result) ∧
      (result.modularity = net.modularity result.assignments ↔ net.Cliques community) := by
  intro graph
  have hcoherent : graph.Coherent Rat := GraphEdit.coherent_run Rat edits
  by_cases hempty : graph.numNodes = 0
  · rw [if_pos hempty, detect, if_pos hempty]
  · rw [if_neg hempty]
    obtain ⟨net, hnet, hsums⟩ := exists_neighborhood hcoherent.closed hcoherent.weighted hnonneg
    obtain ⟨community, result, hpartition, hresult, -, -, hiff⟩ :=
      detector.detect_eq orders hempty hnet hsums
    exact ⟨net, community, result, hnet, hpartition, hresult, hiff⟩

end CommunityDetector

section Runs

-- The order of hash maps that keep the order of their entries.
def HashOrder.kept : HashOrder where
  order _ _ comms := comms
  perm _ _ _ := List.Perm.refl _

def GraphEdit.oneCall : List (GraphEdit Rat Nat) :=
  [.operate (.addNode "a" "a" .File [] 0 0), .operate (.addNode "b" "b" .File [] 0 0),
    .operate (.addEdge 0 1 "calls" 1 .Forward false 0), .operate .finalize]

theorem GraphEdit.oneCall_nonneg : ∀ w ∈ (GraphEdit.run GraphEdit.oneCall).csr.weights, 0 ≤ w := by
  decide +kernel

theorem GraphEdit.neighborhood_oneCall : neighborhood (GraphEdit.run GraphEdit.oneCall) =
    some ⟨[[(1, 1)], [(0, 1)]], [1, 1], 2⟩ := by
  decide +kernel

-- The two nodes are put into one community, whose modularity is zero.
theorem CommunityDetector.oneCall_overrated :
    let graph := GraphEdit.run GraphEdit.oneCall
    graph.finalized = true ∧ (∀ w ∈ graph.csr.weights, 0 ≤ w) ∧
      ∃ net result, neighborhood graph = some net ∧
        (CommunityDetector.mk 20).detect HashOrder.kept graph = some (.ok result) ∧
        result.modularity = 1 / 2 ∧ net.modularity result.assignments = 0 := by
  refine ⟨by decide +kernel, GraphEdit.oneCall_nonneg, _, ⟨[0, 0], 1, 1 / 2, 2⟩,
    GraphEdit.neighborhood_oneCall, by decide +kernel, rfl, by decide +kernel⟩

theorem CommunityDetector.reported_modularity_iff_oneCall :
    let graph := GraphEdit.run GraphEdit.oneCall
    (∀ w ∈ graph.csr.weights, 0 ≤ w) ∧
      if graph.numNodes = 0 then
        (CommunityDetector.mk 20).detect HashOrder.kept graph = some (.error .EmptyGraph)
      else ∃ net community result, neighborhood graph = some net ∧
        (CommunityDetector.mk 20).partition HashOrder.kept net = some community ∧
        (CommunityDetector.mk 20).detect HashOrder.kept graph = some (.ok result) ∧
        (result.modularity = net.modularity result.assignments ↔ net.Cliques community) :=
  ⟨GraphEdit.oneCall_nonneg, CommunityDetector.reported_modularity_iff (CommunityDetector.mk 20)
    HashOrder.kept GraphEdit.oneCall GraphEdit.oneCall_nonneg⟩

-- Every move of the local moving ascends, so that it comes to an end by itself, however the hash
-- maps are ordered. What is reported are the numbers of the communities, one for each node.
theorem CommunityDetector.moves_ascend (orders : HashOrder) (edits : List (GraphEdit Rat T))
    (hnonneg : ∀ w ∈ (GraphEdit.run edits).csr.weights, 0 ≤ w) :
    let graph := GraphEdit.run edits
    let n := graph.numNodes
    ∃ net, neighborhood graph = some net ∧
      (0 < net.twoM →
        (∀ state, net.Reached orders state → ∀ pass, ∀ i < n, ∃ next moved,
          net.moveNode orders pass state i = some (next, moved) ∧
            (next.community = state.community ∨
              net.modularity state.community < net.modularity next.community)) ∧
        ∃ moved, moved.converged = true ∧ moved.passes ≤ n ^ n ∧
          ∀ maxPasses ≥ n ^ n, net.localMoving orders maxPasses 0 net.start = some moved) ∧
      ∀ detector : CommunityDetector,
        if n = 0 then detector.detect orders graph = some (.error .EmptyGraph)
        else ∃ result, detector.detect orders graph = some (.ok result) ∧
          result.assignments.length = n ∧
          ∀ id, id ∈ result.assignments ↔ id < result.numCommunities := by
  intro graph n
  have hcoherent : graph.Coherent Rat := GraphEdit.coherent_run Rat edits
  obtain ⟨net, hnet, (hsums : net.Sums n)⟩ :=
    exists_neighborhood hcoherent.closed hcoherent.weighted hnonneg
  refine ⟨net, hnet, fun hpos => ⟨fun state hreached pass i hi => ?_, ?_⟩, fun detector => ?_⟩
  · obtain ⟨next, moved, hmove, -, hascends⟩ :=
      hsums.exists_moveNode hpos (hsums.keeps hpos hreached) orders pass hi
    exact ⟨next, moved, hmove, hascends.imp And.right And.right⟩
  · obtain ⟨moved, hconverged, hpasses, hmoved⟩ :=
      hsums.exists_localMoving hpos orders hsums.keeps_start 0
    have habove : above (communities n) net.modularity net.start.community < n ^ n :=
      (above_lt_card (mem_communities hsums.keeps_start.length hsums.keeps_start.below)).trans_le
        (card_communities_le n)
    exact ⟨moved, hconverged, by omega, fun maxPasses hmax => hmoved maxPasses (by omega)⟩
  · by_cases hempty : n = 0
    · rw [if_pos hempty, CommunityDetector.detect, if_pos hempty]
    · rw [if_neg hempty]
      obtain ⟨_, result, -, hresult, hlength, hmem, -⟩ :=
        detector.detect_eq orders hempty hnet hsums
      exact ⟨result, hresult, hlength, hmem⟩

theorem CommunityDetector.moves_ascend_oneCall :
    let graph := GraphEdit.run GraphEdit.oneCall
    let orders := HashOrder.kept
    let n := graph.numNodes
    (∀ w ∈ graph.csr.weights, 0 ≤ w) ∧ ∃ net, neighborhood graph = some net ∧
      (0 < net.twoM →
        (∀ state, net.Reached orders state → ∀ pass, ∀ i < n, ∃ next moved,
          net.moveNode orders pass state i = some (next, moved) ∧
            (next.community = state.community ∨
              net.modularity state.community < net.modularity next.community)) ∧
        ∃ moved, moved.converged = true ∧ moved.passes ≤ n ^ n ∧
          ∀ maxPasses ≥ n ^ n, net.localMoving orders maxPasses 0 net.start = some moved) ∧
      ∀ detector : CommunityDetector,
        if n = 0 then detector.detect orders graph = some (.error .EmptyGraph)
        else ∃ result, detector.detect orders graph = some (.ok result) ∧
          result.assignments.length = n ∧
          ∀ id, id ∈ result.assignments ↔ id < result.numCommunities :=
  ⟨GraphEdit.oneCall_nonneg, CommunityDetector.moves_ascend HashOrder.kept GraphEdit.oneCall
    GraphEdit.oneCall_nonneg⟩

end Runs

end M1nd.Core
