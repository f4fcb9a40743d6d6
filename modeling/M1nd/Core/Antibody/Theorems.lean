import M1nd.Core.Antibody
import M1nd.Core.Layer.Reads
import M1nd.Core.Neighbors
import M1nd.Library.Sorting
import M1nd.Library.Tests
import Mathlib.Data.Set.List

namespace M1nd.Core

open M1nd.Library.Loops
open M1nd.Library.Tests

variable {W T : Type} {graph : Graph W T} {pattern : AntibodyPattern}
  {binding : List (Option Nat)} {used nodes others : List Nat} {i node : Nat}

-- What a search for a pattern reads of a graph is there.
structure Graph.Matchable (graph : Graph W T) : Prop where
  finalized : graph.finalized = true
  browsable : graph.Browsable
  registered : graph.Registered
  reflected : graph.Reflected

theorem GraphEdit.matchable_run [Zero W] (edits : List (GraphEdit W T))
    (hfinal : (GraphEdit.run edits).finalized = true) : (GraphEdit.run edits).Matchable :=
  let := exactValues W
  ⟨hfinal, GraphEdit.browsable_run W edits, (GraphEdit.coherent_run W edits).registered,
    GraphEdit.reflected_run W edits⟩

-- The ends of the edges of a pattern are among its nodes.
def AntibodyPattern.WellFormed (pattern : AntibodyPattern) : Prop :=
  ∀ edge ∈ pattern.edges ++ pattern.negativeEdges,
    edge.sourceIdx < pattern.nodes.length ∧ edge.targetIdx < pattern.nodes.length

-- An edge between the nodes, under the relation where one is asked for.
def Graph.Linked (graph : Graph W T) (source target : Nat) (relation : Option String) : Prop :=
  ∃ j ∈ graph.csr.outRange source, graph.csr.targets[j]? = some target ∧
    ∀ wanted, relation = some wanted →
      ∃ found, relationName graph j = some found ∧ eqIgnoreAsciiCase found wanted = true

-- What holds between the nodes that the edges are placed on.
def Between (nodes : List Nat) (edges : List PatternEdge) (P : Nat → Nat → Option String → Prop) :
    Prop :=
  ∀ edge ∈ edges, ∀ source target, nodes[edge.sourceIdx]? = some source →
    nodes[edge.targetIdx]? = some target → P source target edge.relation

def PatternNode.MeetsTags (patternNode : PatternNode) (graph : Graph W T) (i : Nat) : Prop :=
  ∀ requiredTag ∈ patternNode.requiredTags, ∃ handle ∈ graph.nodes.tags.getD i [],
    ∃ tag, graph.strings.tryResolve handle = some tag ∧ eqIgnoreAsciiCase tag requiredTag = true

section Meets

variable [Lowercase]

def PatternNode.MeetsType (patternNode : PatternNode) (graph : Graph W T) (i : Nat) : Prop :=
  ∀ nodeType, patternNode.nodeType.bind abStrToNodeType = some nodeType →
    graph.nodes.nodeType[i]? = some nodeType

def PatternNode.MeetsLabel (patternNode : PatternNode) (graph : Graph W T) (i : Nat) : Prop :=
  ∀ substring, patternNode.labelContains = some substring →
    ∃ label, nodeLabel graph i = some label ∧ containsLowercase label substring = true

-- A node is of the type that is asked for, its label holds the text, and it has all the tags.
def PatternNode.Meets (patternNode : PatternNode) (graph : Graph W T) (i : Nat) : Prop :=
  i < graph.nodes.count ∧ patternNode.MeetsType graph i ∧ patternNode.MeetsLabel graph i ∧
    patternNode.MeetsTags graph i

-- A pattern lies on some nodes: each of them meets its constraints, no two are the same, and
-- between them are the edges that are asked for, and none that is not to be.
structure AntibodyPattern.LiesOn (pattern : AntibodyPattern) (graph : Graph W T)
    (nodes : List Nat) : Prop where
  length : nodes.length = pattern.nodes.length
  nodup : nodes.Nodup
  meets : ∀ (i : Nat) (patternNode : PatternNode) (node : Nat),
    pattern.nodes[i]? = some patternNode → nodes[i]? = some node → patternNode.Meets graph node
  edges : Between nodes pattern.edges graph.Linked
  negativeEdges : Between nodes pattern.negativeEdges fun source target relation =>
    ¬ graph.Linked source target relation

end Meets

section Tests

theorem decides_both {first second : Option Bool} {P Q : Prop} (h : Decides first P)
    (hsecond : Decides second Q) : Decides (both first second) (P ∧ Q) := by
  obtain ⟨b, rfl, hP⟩ := h
  obtain ⟨c, rfl, hQ⟩ := hsecond
  refine ⟨b && c, by cases b <;> rfl, by rw [Bool.and_eq_true, hP, hQ]⟩

variable (h : graph.Matchable)

include h

theorem decides_abMatchesType [Lowercase] (hi : i < graph.nodes.count)
    (patternNode : PatternNode) :
    Decides (abMatchesType graph i patternNode) (patternNode.MeetsType graph i) := by
  obtain ⟨nodeType, hnodeType⟩ := h.browsable.nodeTypes i hi
  unfold abMatchesType PatternNode.MeetsType
  cases patternNode.nodeType.bind abStrToNodeType with
  | none => exact ⟨true, rfl, by simp⟩
  | some expectedType =>
      rw [hnodeType]
      exact ⟨_, rfl, by simp⟩

theorem decides_abMatchesLabel [Lowercase] (hi : i < graph.nodes.count)
    (patternNode : PatternNode) : Decides (abMatchesLabel graph i patternNode "substring")
      (patternNode.MeetsLabel graph i) := by
  obtain ⟨label, hlabel⟩ := h.browsable.labels i hi
  unfold abMatchesLabel PatternNode.MeetsLabel
  cases patternNode.labelContains with
  | none => exact ⟨true, rfl, by simp⟩
  | some substring =>
      rw [hlabel]
      exact ⟨_, rfl, by simp⟩

theorem decides_abMatchesTags (hi : i < graph.nodes.count) (patternNode : PatternNode) :
    Decides (abMatchesTags graph i patternNode) (patternNode.MeetsTags graph i) := by
  have hlt : i < graph.nodes.tags.length := by rwa [h.registered.tags]
  have htag : ∀ requiredTag, ∀ handle ∈ graph.nodes.tags[i],
      Decides ((graph.strings.tryResolve handle).map fun tag => eqIgnoreAsciiCase tag requiredTag)
        (∃ tag, graph.strings.tryResolve handle = some tag ∧
          eqIgnoreAsciiCase tag requiredTag = true) := by
    intro requiredTag handle hhandle
    have hspelled := h.registered.tagHandles _ (List.getElem_mem hlt) handle hhandle
    rw [StringInterner.tryResolve, List.getElem?_eq_getElem hspelled]
    exact ⟨_, rfl, by simp⟩
  have htags := decides_allM fun requiredTag (_ : requiredTag ∈ patternNode.requiredTags) =>
    decides_anyM (htag requiredTag)
  unfold abMatchesTags PatternNode.MeetsTags
  rw [List.getElem?_eq_getElem hlt, List.getD_eq_getElem _ _ hlt]
  split
  · rename_i hnone
    exact ⟨true, rfl, by simp [hnone]⟩
  · exact htags

theorem decides_abMatchesNodeConstraints [Lowercase] (i : Nat) (patternNode : PatternNode) :
    Decides (abMatchesNodeConstraints graph i patternNode) (patternNode.Meets graph i) := by
  unfold abMatchesNodeConstraints abMatchesNodeConstraintsMode
  by_cases hi : graph.nodes.count ≤ i
  · exact ⟨false, if_pos hi, by simp [PatternNode.Meets, hi]⟩
  · have hlt := Nat.not_le.mp hi
    rw [if_neg hi]
    refine (decides_both (decides_abMatchesType h hlt patternNode) (decides_both
      (decides_abMatchesLabel h hlt patternNode) (decides_abMatchesTags h hlt patternNode))).congr ?_
    exact (and_iff_right hlt).symm

theorem decides_abEdgeExists (source target : Nat) (relation : Option String) :
    Decides (abEdgeExists graph source target relation) (graph.Linked source target relation) := by
  rw [abEdgeExists, if_pos h.finalized]
  refine decides_anyM fun j hj => ?_
  obtain ⟨handle, found, last, hhandle, hfound, hlast⟩ := h.browsable.readable source j hj
  unfold abSlotMatches
  rw [hlast, Option.bind_eq_bind, Option.bind_some, relationName, hhandle, Option.bind_some, hfound]
  by_cases hsame : last = target
  · rw [if_pos hsame]
    cases relation with
    | none => exact ⟨true, rfl, by simp [hsame]⟩
    | some wanted =>
        exact ⟨eqIgnoreAsciiCase found wanted,
          by simp only [hfound, Option.bind_eq_bind, Option.bind_some], by simp [hsame]⟩
  · exact ⟨false, if_neg hsame, by simp [hsame]⟩

theorem decides_abNotLinked (edge : PatternEdge) (source target : Nat) :
    Decides ((if edge.relation.isSome then abEdgeExists graph source target edge.relation
      else abAnyEdgeExists graph source target).map (!·))
        (¬ graph.Linked source target edge.relation) := by
  have hlinked := decides_abEdgeExists h source target edge.relation
  split
  · exact hlinked.not
  · rename_i hnone
    rw [Option.not_isSome_iff_eq_none.mp hnone] at hlinked ⊢
    exact hlinked.not

end Tests

-- Where the ends of an edge are bound, it is tested.
theorem decides_between {edges : List PatternEdge} {P : Nat → Nat → Option String → Prop}
    {test : PatternEdge → Nat → Nat → Option Bool} (otherwise : Bool)
    (hends : ∀ edge ∈ edges, edge.sourceIdx < nodes.length ∧ edge.targetIdx < nodes.length)
    (htest : ∀ edge source target, Decides (test edge source target)
      (P source target edge.relation)) :
    Decides (edges.allM fun edge => abTestEdge (nodes.map some) edge otherwise (test edge))
      (Between nodes edges P) := by
  refine decides_allM fun edge hedge => ?_
  obtain ⟨hsource, htarget⟩ := hends edge hedge
  have hread : abTestEdge (nodes.map some) edge otherwise (test edge) =
      test edge nodes[edge.sourceIdx] nodes[edge.targetIdx] := by
    simp [abTestEdge, hsource, htarget]
  rw [hread]
  exact (htest _ _ _).congr (by simp [hsource, htarget])

-- What is bound lies on the nodes.
def Agrees (binding : List (Option Nat)) (nodes : List Nat) : Prop :=
  ∀ i node : Nat, binding[i]? = some (some node) → nodes[i]? = some node

-- What a search from a binding is for: the pattern lies on the nodes, and what is bound does.
def Completes [Lowercase] (graph : Graph W T) (pattern : AntibodyPattern)
    (binding bound : List (Option Nat)) : Prop :=
  ∃ nodes : List Nat, bound = nodes.map some ∧ pattern.LiesOn graph nodes ∧ Agrees binding nodes

section Search

theorem Graph.Linked.edge {source target : Nat} {relation : Option String}
    (h : graph.Linked source target relation) : graph.Edge source target := by
  obtain ⟨j, hj, htarget, -⟩ := h
  exact ⟨j, hj, htarget⟩

theorem lists_abNeighborsFrom {neighbors : Nat → Option (List Nat)} {leads : Nat → Nat → Prop}
    (hneighbors : ∀ node, Lists (neighbors node) (leads node)) (here : Nat) {there : Nat}
    (hthere : there < binding.length) (i : Nat) :
    Lists (abNeighborsFrom binding neighbors here there i) fun v =>
      here = i ∧ ∃ node, binding[there]? = some (some node) ∧ leads node v := by
  unfold abNeighborsFrom
  by_cases hhere : here = i
  · rw [if_pos hhere, List.getElem?_eq_getElem hthere, Option.bind_some]
    cases binding[there] with
    | none => exact ⟨[], rfl, by simp⟩
    | some node =>
        obtain ⟨found, hfound, hmem⟩ := hneighbors node
        exact ⟨found, hfound, by simp [hmem, hhere]⟩
  · exact ⟨[], if_neg hhere, by simp [hhere]⟩

theorem lists_abEdgeCandidates (h : graph.Matchable) {edge : PatternEdge}
    (hsource : edge.sourceIdx < binding.length) (htarget : edge.targetIdx < binding.length)
    (i : Nat) : Lists (abEdgeCandidates graph binding i edge) fun v =>
      (edge.targetIdx = i ∧ ∃ node, binding[edge.sourceIdx]? = some (some node) ∧
        graph.Edge node v) ∨
      edge.sourceIdx = i ∧ ∃ node, binding[edge.targetIdx]? = some (some node) ∧
        graph.Edge v node := by
  have houtgoing : ∀ node, Lists (abOutgoingNeighbors graph node) (graph.Edge node) := by
    intro node
    rw [abOutgoingNeighbors, if_pos h.finalized]
    refine exists_mapM fun j hj => ?_
    obtain ⟨-, -, target, -, -, htarget⟩ := h.browsable.readable node j hj
    exact ⟨target, htarget⟩
  have hincoming : ∀ node, Lists (abIncomingNeighbors graph node) fun v => graph.Edge v node := by
    intro node
    rw [abIncomingNeighbors, if_pos h.finalized]
    obtain ⟨found, hfound, hmem⟩ := exists_mapM fun r hr => h.browsable.sources node r hr
    exact ⟨found, hfound, fun v => by rw [hmem, h.reflected v node]⟩
  exact (lists_abNeighborsFrom houtgoing edge.targetIdx hsource i).append
    (lists_abNeighborsFrom hincoming edge.sourceIdx htarget i)

theorem map_bound : (nodes.map some)[i]? = some (some node) ↔ nodes[i]? = some node := by simp

theorem set_bound (hfree : binding[i]? = some none) {j v : Nat} :
    (binding.set i (some node))[j]? = some (some v) ↔
      (j = i ∧ v = node) ∨ binding[j]? = some (some v) := by
  have hlt := (List.getElem?_eq_some_iff.mp hfree).1
  by_cases hj : j = i
  · subst hj
    simp [List.getElem?_set_self hlt, hfree, eq_comm]
  · simp [List.getElem?_set_ne (Ne.symm hj), hj]

theorem agrees_set (hfree : binding[i]? = some none) :
    Agrees (binding.set i (some node)) nodes ↔ Agrees binding nodes ∧ nodes[i]? = some node := by
  simp only [Agrees, set_bound hfree]
  constructor
  · exact fun h => ⟨fun j v hv => h j v (.inr hv), h i node (.inl ⟨rfl, rfl⟩)⟩
  · rintro ⟨hagrees, hi⟩ j v (⟨rfl, rfl⟩ | hv)
    · exact hi
    · exact hagrees j v hv

theorem abPickAnchor_lt (hnodes : pattern.nodes ≠ []) :
    abPickAnchor pattern < pattern.nodes.length := by
  unfold abPickAnchor
  refine List.foldlRecOn (motive := fun best : Nat × Nat => best.1 < pattern.nodes.length) _ _
    (List.length_pos_iff.mpr hnodes) fun best hbest entry hentry => ?_
  dsimp only
  split
  · simpa using List.snd_lt_of_mem_zipIdx hentry
  · exact hbest

theorem mem_matchOrder (hnodes : pattern.nodes ≠ []) :
    i ∈ matchOrder pattern ↔ i < pattern.nodes.length := by
  have hanchor := abPickAnchor_lt hnodes
  simp only [matchOrder, List.mem_cons, List.mem_mergeSort, List.mem_filter, List.mem_range,
    decide_eq_true_eq]
  constructor
  · rintro (rfl | ⟨hi, -⟩)
    · exact hanchor
    · exact hi
  · intro hi
    by_cases hsame : i = abPickAnchor pattern
    · exact .inl hsame
    · exact .inr ⟨hi, hsame⟩

variable [Lowercase] {order : List Nat}

-- The candidates for a slot hold the node that the pattern puts there.
theorem exists_abConnectedCandidates (h : graph.Matchable) (hpattern : pattern.WellFormed)
    (hlength : binding.length = pattern.nodes.length) (hi : i < pattern.nodes.length) :
    ∃ candidates, abConnectedCandidates graph pattern binding i = some candidates ∧
      ∀ nodes, pattern.LiesOn graph nodes → Agrees binding nodes →
        ∀ node, nodes[i]? = some node → node ∈ candidates := by
  obtain ⟨found, hfound, hmem⟩ := lists_flatten fun edge hedge =>
    have hends := hpattern edge (List.mem_append_left _ hedge)
    lists_abEdgeCandidates h (hlength ▸ hends.1) (hlength ▸ hends.2) i
  obtain ⟨neighbors, hneighbors, rfl⟩ := Option.map_eq_some_iff.mp hfound
  refine ⟨_, by rw [abConnectedCandidates, hneighbors]; rfl, fun nodes hlies hagrees node hnode => ?_⟩
  dsimp only
  by_cases hnone : neighbors.flatten.eraseDups = []
  · rw [if_pos hnone, List.mem_range]
    exact (hlies.meets i _ node (List.getElem?_eq_getElem hi) hnode).1
  · rw [if_neg hnone, List.mem_eraseDups, hmem]
    -- Some edge has candidates, so that one of its ends is bound.
    obtain ⟨v, hv⟩ := List.exists_mem_of_ne_nil _ hnone
    obtain ⟨edge, hedge, ⟨htarget, u, hu, -⟩ | ⟨hsource, u, hu, -⟩⟩ :=
      (hmem v).mp (List.mem_eraseDups.mp hv)
    · have hlinked := hlies.edges edge hedge u node (hagrees _ u hu) (htarget ▸ hnode)
      exact ⟨edge, hedge, .inl ⟨htarget, u, hu, hlinked.edge⟩⟩
    · have hlinked := hlies.edges edge hedge node u (hsource ▸ hnode) (hagrees _ u hu)
      exact ⟨edge, hedge, .inr ⟨hsource, u, hu, hlinked.edge⟩⟩

theorem completes_set (hfree : binding[i]? = some none) (bound : List (Option Nat)) :
    Completes graph pattern (binding.set i (some node)) bound ↔
      Completes graph pattern binding bound ∧ bound[i]? = some (some node) := by
  constructor
  · rintro ⟨nodes, rfl, hlies, hagrees⟩
    obtain ⟨hagrees, hnode⟩ := (agrees_set hfree).mp hagrees
    exact ⟨⟨nodes, rfl, hlies, hagrees⟩, map_bound.mpr hnode⟩
  · rintro ⟨⟨nodes, rfl, hlies, hagrees⟩, hnode⟩
    exact ⟨nodes, rfl, hlies, (agrees_set hfree).mpr ⟨hagrees, map_bound.mp hnode⟩⟩

-- What the search holds between its steps.
structure Partly (graph : Graph W T) (pattern : AntibodyPattern) (order : List Nat)
    (binding : List (Option Nat)) (used : List Nat) : Prop where
  length : binding.length = pattern.nodes.length
  covered : ∀ i < pattern.nodes.length, i ∈ order ∨ ∃ node, binding[i]? = some (some node)
  meets : ∀ (i : Nat) (patternNode : PatternNode) (node : Nat),
    pattern.nodes[i]? = some patternNode → binding[i]? = some (some node) →
      patternNode.Meets graph node
  distinct : ∀ i j node : Nat, binding[i]? = some (some node) → binding[j]? = some (some node) →
    i = j
  used : ∀ node, node ∈ used ↔ ∃ i : Nat, binding[i]? = some (some node)

theorem Partly.skip (h : Partly graph pattern (i :: order) binding used)
    (hbound : binding[i]? = some (some node)) : Partly graph pattern order binding used :=
  { h with
    covered := fun j hj => by
      obtain hj | hj := h.covered j hj
      · obtain rfl | hj := List.mem_cons.mp hj
        · exact .inr ⟨node, hbound⟩
        · exact .inl hj
      · exact .inr hj }

theorem Partly.bind {patternNode : PatternNode}
    (h : Partly graph pattern (i :: order) binding used) (hfree : binding[i]? = some none)
    (hnode : node ∉ used) (hpattern : pattern.nodes[i]? = some patternNode)
    (hmeets : patternNode.Meets graph node) :
    Partly graph pattern order (binding.set i (some node)) (node :: used) := by
  constructor
  case length => rw [List.length_set, h.length]
  case covered =>
    simp only [set_bound hfree]
    intro j hj
    obtain hj | ⟨v, hv⟩ := h.covered j hj
    · obtain rfl | hj := List.mem_cons.mp hj
      · exact .inr ⟨node, .inl ⟨rfl, rfl⟩⟩
      · exact .inl hj
    · exact .inr ⟨v, .inr hv⟩
  case meets =>
    simp only [set_bound hfree]
    rintro j other v hother (⟨rfl, rfl⟩ | hv)
    · obtain rfl := Option.some.inj (hpattern.symm.trans hother)
      exact hmeets
    · exact h.meets j other v hother hv
  case distinct =>
    simp only [set_bound hfree]
    rintro j k v (⟨rfl, rfl⟩ | hj) (⟨rfl, hv⟩ | hk)
    · rfl
    · exact absurd ((h.used v).mpr ⟨k, hk⟩) hnode
    · exact absurd ((h.used node).mpr ⟨j, hv ▸ hj⟩) hnode
    · exact h.distinct j k v hj hk
  case used =>
    intro v
    simp only [List.mem_cons, h.used, set_bound hfree, exists_or, exists_eq_left]

-- Where everything is bound, it is so to one node for each slot of the pattern.
theorem Partly.complete (h : Partly graph pattern [] binding used) :
    ∃ nodes : List Nat, binding = nodes.map some ∧ nodes.length = pattern.nodes.length ∧
      nodes.Nodup := by
  have hbound : binding ∈ Set.range (List.map some) := by
    rw [Set.range_list_map]
    intro slot hslot
    obtain ⟨i, hi, rfl⟩ := List.getElem_of_mem hslot
    obtain hnone | ⟨node, hnode⟩ := h.covered i (h.length ▸ hi)
    · exact absurd hnone List.not_mem_nil
    · exact ⟨node, (List.getElem?_eq_some_iff.mp hnode).2.symm⟩
  obtain ⟨nodes, rfl⟩ := hbound
  refine ⟨nodes, rfl, by rw [← h.length, List.length_map], ?_⟩
  refine List.nodup_iff_getElem?_ne_getElem?.mpr fun i j hij hj heq => ?_
  have hnode : nodes[j]? = some nodes[j] := List.getElem?_eq_getElem hj
  refine absurd (h.distinct i j nodes[j] ?_ ?_) hij.ne
  · exact map_bound.mpr (heq.trans hnode)
  · exact map_bound.mpr hnode

-- The check at the end of the search.
theorem finds_check (h : graph.Matchable) (hpattern : pattern.WellFormed)
    (hpartly : Partly graph pattern [] binding used) :
    Finds (abDfsMatch graph pattern [] binding used) (Completes graph pattern binding) := by
  obtain ⟨nodes, rfl, hlength, hnodup⟩ := hpartly.complete
  have hedges : Decides (abVerifyEdges graph pattern.edges (nodes.map some)) _ :=
    decides_between false (fun edge hedge => hlength ▸ hpattern edge (List.mem_append_left _ hedge))
      fun edge source target => decides_abEdgeExists h source target edge.relation
  have hnegative : Decides (abVerifyNegativeEdges graph pattern.negativeEdges (nodes.map some)) _ :=
    decides_between (P := fun source target relation => ¬ graph.Linked source target relation) true
      (fun edge hedge => hlength ▸ hpattern edge (List.mem_append_right _ hedge))
      (decides_abNotLinked h)
  obtain ⟨holds, hholds, hiff⟩ := decides_both hedges hnegative
  refine ⟨_, by rw [abDfsMatch, abDfsMatchMode, hholds]; rfl, fun bound hbound => ?_,
    fun hnone bound hcompletes => ?_⟩
  · obtain ⟨hchecked, hbound⟩ := Option.ite_none_right_eq_some.mp hbound
    obtain ⟨hedges, hnegative⟩ := hiff.mp hchecked
    refine ⟨nodes, (Option.some.inj hbound).symm, ⟨hlength, hnodup, ?_, hedges, hnegative⟩,
      fun i node hnode => map_bound.mp hnode⟩
    exact fun i patternNode node hslot hnode =>
      hpartly.meets i patternNode node hslot (map_bound.mpr hnode)
  · obtain ⟨others, -, hlies, hagrees⟩ := hcompletes
    obtain rfl : nodes = others := by
      refine List.ext_getElem (hlength.trans hlies.length.symm) fun i hi hi' => ?_
      have hnode := hagrees i _ (map_bound.mpr (List.getElem?_eq_getElem hi))
      exact (List.getElem?_eq_some_iff.mp hnode).2.symm
    rw [if_pos (hiff.mpr ⟨hlies.edges, hlies.negativeEdges⟩)] at hnone
    exact Option.some_ne_none _ hnone

theorem finds_abDfsMatch (h : graph.Matchable) (hpattern : pattern.WellFormed)
    (horder : ∀ i ∈ order, i < pattern.nodes.length)
    (hpartly : Partly graph pattern order binding used) :
    Finds (abDfsMatch graph pattern order binding used) (Completes graph pattern binding) := by
  induction order generalizing binding used with
  | nil => exact finds_check h hpattern hpartly
  | cons i order ih =>
      obtain ⟨hi, horder⟩ := List.forall_mem_cons.mp horder
      have hslot : pattern.nodes[i]? = some pattern.nodes[i] := List.getElem?_eq_getElem hi
      obtain ⟨slot, hread⟩ : ∃ slot, binding[i]? = some slot :=
        ⟨_, List.getElem?_eq_getElem (hpartly.length ▸ hi)⟩
      rw [abDfsMatch, abDfsMatchMode, hread, Option.bind_some]
      cases slot with
      | some bound => exact ih horder (hpartly.skip hread)
      | none =>
          obtain ⟨candidates, hcandidates, hmem⟩ :=
            exists_abConnectedCandidates h hpattern hpartly.length hi
          dsimp only
          rw [hcandidates, Option.bind_some]
          refine finds_findSomeM? (R := fun v bound => bound[i]? = some (some v)) ?_ ?_
          · rintro _ ⟨nodes, rfl, hlies, hagrees⟩
            have hlt : i < nodes.length := hlies.length ▸ hi
            have hnode : nodes[i]? = some nodes[i] := List.getElem?_eq_getElem hlt
            exact ⟨nodes[i], hmem nodes hlies hagrees _ hnode, map_bound.mpr hnode⟩
          -- One candidate is tried.
          intro candidate _
          refine Finds.congr ?_ (completes_set hread)
          by_cases hused : candidate ∈ used
          · rw [if_pos hused]
            refine finds_none fun bound hbound => ?_
            obtain ⟨⟨nodes, rfl, hlies, hagrees⟩, hnode⟩ := (completes_set hread bound).mp hbound
            obtain ⟨j, hj⟩ := (hpartly.used candidate).mp hused
            have hplaced := hagrees j candidate hj
            have hij : j = i := (List.getElem?_inj (List.getElem?_eq_some_iff.mp hplaced).1
              hlies.nodup).mp (hplaced.trans (map_bound.mp hnode).symm)
            rw [hij, hread] at hj
            exact Option.some_ne_none _ (Option.some.inj hj).symm
          · obtain ⟨b, hb, hmeets⟩ := decides_abMatchesNodeConstraints h candidate pattern.nodes[i]
            rw [abMatchesNodeConstraints] at hb
            rw [if_neg hused, hslot, Option.bind_some, hb, Option.bind_some]
            cases b with
            | true => exact ih horder (hpartly.bind hread hused hslot (hmeets.mp rfl))
            | false =>
                refine finds_none fun bound hbound => ?_
                obtain ⟨⟨nodes, rfl, hlies, -⟩, hnode⟩ := (completes_set hread bound).mp hbound
                have hmet := hlies.meets i _ candidate hslot (map_bound.mp hnode)
                exact Bool.false_ne_true (hmeets.mpr hmet)

-- The search from a candidate for the anchor finds nodes exactly where there are some.
theorem finds_searchFrom (h : graph.Matchable) (hpattern : pattern.WellFormed)
    (hnodes : pattern.nodes ≠ []) (candidate : Nat) :
    Finds (searchFrom graph pattern candidate) fun bound =>
      Completes graph pattern (List.replicate pattern.nodes.length none) bound ∧
        bound[abPickAnchor pattern]? = some (some candidate) := by
  have hanchor := abPickAnchor_lt hnodes
  have hread : pattern.nodes[abPickAnchor pattern]? = some pattern.nodes[abPickAnchor pattern] :=
    List.getElem?_eq_getElem hanchor
  have hfree : (List.replicate pattern.nodes.length (none : Option Nat))[abPickAnchor pattern]? =
      some none := by simp [hanchor]
  obtain ⟨b, hb, hmeets⟩ :=
    decides_abMatchesNodeConstraints h candidate pattern.nodes[abPickAnchor pattern]
  rw [searchFrom]
  simp only [hread, hb, Option.bind_eq_bind, Option.bind_some]
  cases b with
  | false =>
      refine finds_none fun bound => ?_
      rintro ⟨⟨nodes, rfl, hlies, -⟩, hnode⟩
      exact Bool.false_ne_true (hmeets.mpr (hlies.meets _ _ candidate hread (map_bound.mp hnode)))
  | true =>
      have hnone (i v : Nat) :
          (List.replicate pattern.nodes.length (none : Option Nat))[i]? ≠ some (some v) := by
        simp [List.getElem?_replicate]
      have hstart : Partly graph pattern (abPickAnchor pattern :: matchOrder pattern)
          (List.replicate pattern.nodes.length none) [] := {
        length := List.length_replicate
        covered := fun i hi => .inl (List.mem_cons_of_mem _ ((mem_matchOrder hnodes).mpr hi))
        meets := fun i _ v _ hv => absurd hv (hnone i v)
        distinct := fun i _ v hv _ => absurd hv (hnone i v)
        used := fun v => by simp [hnone] }
      exact (finds_abDfsMatch h hpattern (fun i hi => (mem_matchOrder hnodes).mp hi)
        (hstart.bind hfree List.not_mem_nil hread (hmeets.mp rfl))).congr (completes_set hfree)

end Search

section Reports

-- A match names the nodes, each in the role of its slot.
def AntibodyMatch.Reports (built : AntibodyMatch) (graph : Graph W T) (pattern : AntibodyPattern)
    (nodes : List Nat) : Prop :=
  built.boundNodes.map (fun bound => (bound.role, graph.resolveId bound.nodeId)) =
    (pattern.nodes.zip nodes).map fun slot => (slot.1.role, some slot.2)

theorem exists_abExternalId (h : graph.Registered) (hnode : node < graph.nodes.count)
    (otherwise : String) : ∃ extId, abExternalId graph node otherwise = some extId ∧
      graph.resolveId extId = some node := by
  obtain ⟨handle, hhandle⟩ := h.total node hnode
  have hfound : (graph.idToNode.toList.find? fun entry => entry.2 = node).isSome := by
    rw [List.find?_isSome]
    exact ⟨(handle, node), Std.ExtTreeMap.mem_toList_iff_getElem?_eq_some.mpr hhandle, by simp⟩
  obtain ⟨entry, hentry⟩ := Option.isSome_iff_exists.mp hfound
  have hmem := List.mem_of_find?_eq_some hentry
  obtain ⟨extId, hextId⟩ := h.exists_name hmem
  refine ⟨extId, by rw [abExternalId, hentry]; exact hextId, h.resolveId_iff.mpr ⟨entry.1, hextId, ?_⟩⟩
  have hsame := List.find?_some hentry
  rw [Std.ExtTreeMap.mem_toList_iff_getElem?_eq_some.mp hmem, of_decide_eq_true hsame]

theorem exists_abBuildBoundNode (h : graph.Matchable) (hnode : node < graph.nodes.count)
    (role : String) : ∃ bound, abBuildBoundNode graph node role = some bound ∧
      (bound.role, graph.resolveId bound.nodeId) = (role, some node) := by
  obtain ⟨label, hlabel⟩ := h.browsable.labels node hnode
  obtain ⟨extId, hextId, hresolve⟩ :=
    exists_abExternalId h.registered hnode ("node_" ++ toString node)
  rw [abBuildBoundNode, hlabel, hextId]
  exact ⟨_, rfl, Prod.ext rfl hresolve⟩

theorem isSome_ratioOf {f : Nat → Option Bool} (h : ∀ i < graph.nodes.count, (f i).isSome) :
    (ratioOf graph f).isSome := by
  obtain ⟨kept, hkept, -⟩ := exists_keepM fun i hi =>
    Option.isSome_iff_exists.mp (h i (List.mem_range.mp hi))
  rw [ratioOf, hkept]
  rfl

theorem isSome_abTypeBoost (h : graph.Matchable) (patternNode : PatternNode)
    (hnode : node < graph.nodes.count) : (abTypeBoost graph patternNode node).isSome := by
  obtain ⟨nodeType, hnodeType⟩ := h.browsable.nodeTypes node hnode
  unfold abTypeBoost
  split
  · rw [hnodeType, Option.bind_some, Option.isSome_map]
    refine isSome_ratioOf fun i hi => ?_
    rw [Option.isSome_map, Option.isSome_iff_exists]
    exact h.browsable.nodeTypes i hi
  · rfl

variable [Lowercase]

theorem isSome_abLabelPenalty (h : graph.Matchable) (patternNode : PatternNode) :
    (abLabelPenalty graph patternNode).isSome := by
  unfold abLabelPenalty
  split
  · rw [Option.isSome_map]
    refine isSome_ratioOf fun i hi => ?_
    rw [Option.isSome_map, Option.isSome_iff_exists]
    exact h.browsable.labels i hi
  · rfl

theorem exists_abComputeConfidence (h : graph.Matchable)
    (hnodes : ∀ node ∈ nodes, node < graph.nodes.count) (pattern : AntibodyPattern) :
    ∃ confidence, abComputeConfidence graph (nodes.map some) pattern = some confidence := by
  have hstep : ∀ (confidence : Rat), True → ∀ slot ∈ pattern.nodes.zip (nodes.map some),
      ∃ next, abConfidenceStep graph confidence slot = some next ∧ True := by
    intro confidence _ slot hslot
    obtain ⟨node, hnode, heq⟩ := List.mem_map.mp (List.of_mem_zip hslot).2
    obtain ⟨penalty, hpenalty⟩ := Option.isSome_iff_exists.mp (isSome_abLabelPenalty h slot.1)
    obtain ⟨boost, hboost⟩ :=
      Option.isSome_iff_exists.mp (isSome_abTypeBoost h slot.1 (hnodes node hnode))
    refine ⟨confidence - penalty + boost, ?_, trivial⟩
    rw [abConfidenceStep, ← heq]
    simp only [hpenalty, hboost, Option.bind_eq_bind, Option.bind_some]
  obtain ⟨confidence, hconfidence, -⟩ := exists_foldlM (s := (1 : Rat)) _ trivial hstep
  exact ⟨_, by rw [abComputeConfidence, hconfidence]; rfl⟩

theorem AntibodyPattern.LiesOn.lt (hlies : pattern.LiesOn graph nodes) :
    ∀ node ∈ nodes, node < graph.nodes.count := by
  intro node hnode
  obtain ⟨i, hi, rfl⟩ := List.getElem_of_mem hnode
  have hslot : i < pattern.nodes.length := hlies.length ▸ hi
  exact (hlies.meets i _ _ (List.getElem?_eq_getElem hslot) (List.getElem?_eq_getElem hi)).1

theorem exists_buildMatch (h : graph.Matchable) (antibody : Antibody)
    (hlies : antibody.pattern.LiesOn graph nodes) :
    ∃ built, buildMatch graph antibody (nodes.map some) = some built ∧
      built.Reports graph antibody.pattern nodes := by
  obtain ⟨confidence, hconfidence⟩ := exists_abComputeConfidence h hlies.lt antibody.pattern
  have hslots : (antibody.pattern.nodes.zip (nodes.map some)).filterMap (fun slot =>
      slot.2.map fun node => (slot.1, node)) = antibody.pattern.nodes.zip nodes := by
    rw [List.zip_map_right, List.filterMap_map]
    exact List.filterMap_some
  obtain ⟨boundNodes, hboundNodes, hnames⟩ := exists_mapM_map fun (slot : PatternNode × Nat) hslot =>
    exists_abBuildBoundNode h (hlies.lt slot.2 (List.of_mem_zip hslot).2) slot.1.role
  have hread : abBoundNodes graph antibody.pattern (nodes.map some) = some boundNodes := by
    rw [abBoundNodes, hslots, hboundNodes]
  refine ⟨_, by rw [buildMatch, hconfidence, hread]; rfl, ?_⟩
  exact hnames

end Reports

section Matches

theorem mergeSort_eq : nodes.mergeSort = others.mergeSort ↔ nodes.Perm others :=
  @Library.Sorting.mergeSort_eq_iff _ _ _ id nodes others fun _ _ _ _ h => h

variable [Lowercase] {reports : List (List Nat)}

-- The pattern lies on the nodes of each report, and no two are of the same nodes.
structure AntibodyPattern.Scans (pattern : AntibodyPattern) (graph : Graph W T)
    (reports : List (List Nat)) : Prop where
  lies : ∀ nodes ∈ reports, pattern.LiesOn graph nodes
  distinct : reports.Pairwise fun nodes others => ¬ nodes.Perm others

-- Where the pattern lies on nodes that have the candidate as the anchor, a report has it.
def AntibodyPattern.Covers (pattern : AntibodyPattern) (graph : Graph W T)
    (reports : List (List Nat)) (candidate : Nat) : Prop :=
  ∀ nodes, pattern.LiesOn graph nodes → nodes[abPickAnchor pattern]? = some candidate →
    ∃ others ∈ reports, candidate ∈ others

-- What the reports of a scan over candidates are.
structure AntibodyPattern.Exact (pattern : AntibodyPattern) (graph : Graph W T)
    (candidates : List Nat) (reports : List (List Nat)) : Prop extends
    pattern.Scans graph reports where
  few : reports.length ≤ MAX_MATCHES_PER_ANTIBODY
  covers : reports.length < MAX_MATCHES_PER_ANTIBODY →
    ∀ candidate ∈ candidates, pattern.Covers graph reports candidate

theorem AntibodyPattern.Exact.cons {candidates : List Nat} {candidate : Nat}
    (h : pattern.Exact graph candidates reports)
    (hcovers : reports.length < MAX_MATCHES_PER_ANTIBODY → pattern.Covers graph reports candidate) :
    pattern.Exact graph (candidate :: candidates) reports :=
  { h with covers := fun hlt => List.forall_mem_cons.mpr ⟨hcovers hlt, h.covers hlt⟩ }

theorem exists_matchCandidates {antibody : Antibody} (h : graph.Matchable)
    (hpattern : antibody.pattern.WellFormed) (hnodes : antibody.pattern.nodes ≠ [])
    (candidates : List Nat) {seen : List (List Nat)} {found : List AntibodyMatch}
    (hscans : antibody.pattern.Scans graph reports)
    (hseen : ∀ key, key ∈ seen ↔ ∃ nodes ∈ reports, nodes.mergeSort = key)
    (hfound : found.Forall₂ (·.Reports graph antibody.pattern ·) reports)
    (hfew : reports.length < MAX_MATCHES_PER_ANTIBODY) :
    ∃ more result, matchCandidates graph antibody candidates seen found = some result ∧
      result.Forall₂ (·.Reports graph antibody.pattern ·) more ∧ reports ⊆ more ∧
      antibody.pattern.Exact graph candidates more := by
  induction candidates generalizing seen found reports with
  | nil =>
      exact ⟨reports, found, rfl, hfound, List.Subset.refl _, hscans, hfew.le, by simp⟩
  | cons candidate candidates ih =>
      obtain ⟨bound, hbound, hsome, hnone⟩ := finds_searchFrom h hpattern hnodes candidate
      rw [matchCandidates, hbound, Option.bind_some]
      cases bound with
      | none =>
          obtain ⟨more, result, hresult, hmore, hsub, hexact⟩ := ih hscans hseen hfound hfew
          refine ⟨more, result, hresult, hmore, hsub, hexact.cons fun _ nodes hlies hnode => ?_⟩
          exact absurd ⟨⟨nodes, rfl, hlies, by simp [Agrees, List.getElem?_replicate]⟩,
            map_bound.mpr hnode⟩ (hnone rfl (nodes.map some))
      | some binding =>
          obtain ⟨⟨nodes, rfl, hlies, -⟩, hnode⟩ := hsome binding rfl
          have hmem : candidate ∈ nodes := List.mem_of_getElem? (map_bound.mp hnode)
          have hkey : bindingKey (nodes.map some) = nodes.mergeSort := by
            rw [bindingKey, List.filterMap_map, Function.id_comp, List.filterMap_some]
          dsimp only
          rw [hkey]
          by_cases hold : nodes.mergeSort ∈ seen
          · -- The same nodes have been reported.
            obtain ⟨more, result, hresult, hmore, hsub, hexact⟩ := ih hscans hseen hfound hfew
            obtain ⟨others, hothers, hsame⟩ := (hseen _).mp hold
            rw [if_pos hold]
            refine ⟨more, result, hresult, hmore, hsub, hexact.cons fun _ _ _ _ => ?_⟩
            exact ⟨others, hsub hothers, (mergeSort_eq.mp hsame).mem_iff.mpr hmem⟩
          · obtain ⟨built, hbuilt, hreports⟩ := exists_buildMatch h antibody hlies
            have hnew : antibody.pattern.Scans graph (reports ++ [nodes]) := by
              refine ⟨List.forall_mem_append.mpr ⟨hscans.lies, by simpa using hlies⟩,
                List.pairwise_append.mpr ⟨hscans.distinct, by simp, ?_⟩⟩
              intro others hothers last hlast hperm
              obtain rfl := List.mem_singleton.mp hlast
              exact hold ((hseen _).mpr ⟨others, hothers, mergeSort_eq.mpr hperm⟩)
            have hbuilts := List.rel_append hfound (.cons hreports .nil)
            have hlength : (found ++ [built]).length = (reports ++ [nodes]).length :=
              hbuilts.length_eq
            rw [if_neg hold, hbuilt, Option.bind_some, hlength]
            by_cases hfull : MAX_MATCHES_PER_ANTIBODY ≤ (reports ++ [nodes]).length
            · refine ⟨_, _, if_pos hfull, hbuilts, List.subset_append_left _ _, hnew, ?_,
                fun hlt => absurd hlt (not_lt.mpr hfull)⟩
              rwa [List.length_append, List.length_singleton]
            · have hkeys (key : List Nat) : key ∈ nodes.mergeSort :: seen ↔
                  ∃ others ∈ reports ++ [nodes], others.mergeSort = key := by
                rw [List.mem_cons, hseen, eq_comm, or_comm]
                simp only [List.mem_append, List.mem_singleton, or_and_right, exists_or,
                  exists_eq_left]
              obtain ⟨more, result, hresult, hmore, hsub, hexact⟩ :=
                ih hnew hkeys hbuilts (not_le.mp hfull)
              rw [if_neg hfull]
              refine ⟨more, result, hresult, hmore,
                List.Subset.trans (List.subset_append_left _ _) hsub, hexact.cons fun _ _ _ _ => ?_⟩
              exact ⟨nodes, hsub (by simp), hmem⟩

-- Short of the limit, each node that the anchor of the pattern can be placed on is in a match.
theorem matchAntibody_exact [Zero W] (edits : List (GraphEdit W T))
    (hfinal : (GraphEdit.run edits).finalized = true) (antibody : Antibody)
    (hpattern : antibody.pattern.WellFormed) :
    ∃ reports found, matchAntibody (GraphEdit.run edits) antibody = some found ∧
      found.Forall₂ (·.Reports (GraphEdit.run edits) antibody.pattern ·) reports ∧
      antibody.pattern.Exact (GraphEdit.run edits)
        (List.range (GraphEdit.run edits).nodes.count) reports := by
  have h := GraphEdit.matchable_run edits hfinal
  generalize GraphEdit.run edits = graph at h hfinal
  unfold matchAntibody
  by_cases hidle : graph.finalized = false ∨ graph.nodes.count = 0 ∨ antibody.pattern.nodes = []
  · refine ⟨[], [], if_pos hidle, .nil, ⟨by simp, .nil⟩, Nat.zero_le _,
      fun _ candidate hcandidate nodes hlies hnode => ?_⟩
    obtain hopen | hempty | hempty := hidle
    · exact Bool.noConfusion (hfinal.symm.trans hopen)
    · simp [hempty] at hcandidate
    · have hnil : nodes = [] := List.length_eq_zero_iff.mp (hlies.length.trans (by rw [hempty]; rfl))
      simp [hnil] at hnode
  · rw [if_neg hidle]
    push Not at hidle
    obtain ⟨reports, found, hfound, hreports, -, hexact⟩ :=
      exists_matchCandidates h hpattern hidle.2.2 (List.range graph.nodes.count)
        ⟨by simp, .nil⟩ (by simp : ∀ key, key ∈ ([] : List (List Nat)) ↔ _) .nil (by decide)
    exact ⟨reports, found, hfound, hreports, hexact⟩

end Matches

-- A call that is not returned.
def lonelyCall : AntibodyPattern where
  nodes := [⟨"caller", some "function", [], none⟩, ⟨"callee", some "function", [], some "run"⟩]
  edges := [⟨0, 1, some "calls"⟩]
  negativeEdges := [⟨1, 0, none⟩]

theorem matchAntibody_exact_lonelyCall :
    let := asciiLowercase
    let graph : Graph Nat Nat := GraphEdit.run [.operate (.addNode "a" "main" .Function [] 0 0),
      .operate (.addNode "b" "run" .Function [] 0 0),
      .operate (.addEdge 0 1 "calls" 1 .Forward false 0), .operate .finalize]
    ∃ reports found, matchAntibody graph
        ⟨"id", "call", "", lonelyCall, .Info, 0, 0, none, "", "", [], true, 1⟩ = some found ∧
      found.Forall₂ (·.Reports graph lonelyCall ·) reports ∧
      lonelyCall.Exact graph (List.range graph.nodes.count) reports := by
  intro lower
  refine matchAntibody_exact _ rfl _ fun edge hedge => ?_
  change edge ∈ lonelyCall.edges ++ lonelyCall.negativeEdges at hedge
  revert edge
  decide

end M1nd.Core
