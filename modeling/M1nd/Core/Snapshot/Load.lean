import M1nd.Core.Snapshot.Nodes
import M1nd.Core.Snapshot.Kept

namespace M1nd.Core

open M1nd.Library.Checks
open M1nd.Library.Runs

variable {W F T : Type} [FiniteF32 W F]

-- What reading a node gives after its record was loaded.
def NodeSnapshot.view (W : Type) [FiniteF32 W F] (node : NodeSnapshot F T) : NodeView W T where
  label := some node.label
  nodeType := some (u8ToNodeType node.nodeType)
  tags := some (node.tags.map some)
  lastModified := some node.lastModified
  changeFrequency := some (FiniteF32.new node.changeFrequency)
  provenance := node.provenance.stored

def NodeSnapshot.Finite (W : Type) [FiniteF32 W F] [FiniteF64 T] (node : NodeSnapshot F T) : Prop :=
  FiniteF64.isFinite node.lastModified = true ∧ FiniteF32.isFinite W node.changeFrequency = true

-- The records that were loaded so far are the nodes of the graph.
structure Loading (graph : Graph W T) (done : List (NodeSnapshot F T)) : Prop where
  kept : graph.Kept
  registered : graph.Registered
  unfinalized : graph.finalized = false
  noSlots : graph.csr.numEdges = 0
  count : graph.nodes.count = done.length
  externalIds : ∀ (s : String) (i : Nat),
    graph.resolveId s = some i ↔ done[i]?.map NodeSnapshot.externalId = some s
  views : ∀ (i : Nat) (node : NodeSnapshot F T), done[i]? = some node →
    graph.nodeView i = node.view W

section Nodes

variable [FiniteF64 T] {format : SnapshotFormat} {graph next : Graph W T}
  {done nodes : List (NodeSnapshot F T)} {node : NodeSnapshot F T}

omit [FiniteF64 T] in
theorem loading_new : Loading (Graph.new : Graph W T) ([] : List (NodeSnapshot F T)) where
  kept := Graph.kept_new
  registered := Graph.registered_new
  unfinalized := rfl
  noSlots := rfl
  count := rfl
  externalIds s i := by simp [Graph.resolveId, Graph.new, StringInterner.lookup, StringInterner.new]
  views := nofun

theorem Loading.buildNode (format : SnapshotFormat) (h : Loading graph done) (hfinite : node.Finite W)
    (hfresh : node.externalId ∉ done.map NodeSnapshot.externalId) :
    ∃ next, buildNode format graph node = .ok next ∧ Loading next (done ++ [node]) := by
  have habsent : graph.resolveId node.externalId = none := by
    by_contra hne
    obtain ⟨i, hi⟩ := Option.ne_none_iff_exists'.mp hne
    obtain ⟨other, hother, he⟩ := Option.map_eq_some_iff.mp ((h.externalIds _ i).mp hi)
    exact hfresh (he ▸ List.mem_map_of_mem (List.mem_of_getElem? hother))
  obtain ⟨added, hadded⟩ : ∃ added, graph.addNode node.externalId node.label
      (u8ToNodeType node.nodeType) node.tags node.lastModified
      (FiniteF32.new node.changeFrequency) = added := ⟨_, rfl⟩
  have hregistered := h.registered.addNode node.externalId node.label (u8ToNodeType node.nodeType)
    node.tags node.lastModified (FiniteF32.new node.changeFrequency)
  have hkept := h.kept.addNode node.externalId node.label (u8ToNodeType node.nodeType)
    node.tags node.lastModified (FiniteF32.new node.changeFrequency)
  have hresolve := h.registered.resolveId_addNode node.externalId node.label
    (u8ToNodeType node.nodeType) node.tags node.lastModified
    (FiniteF32.new node.changeFrequency) habsent
  have hview (i : Nat) (hi : i ≤ graph.nodes.count) := h.registered.nodeView_addNode
    node.externalId node.label (u8ToNodeType node.nodeType) node.tags node.lastModified
    (FiniteF32.new node.changeFrequency) habsent hi
  have hedges := graph.numEdges_addNode node.externalId node.label (u8ToNodeType node.nodeType)
    node.tags node.lastModified (FiniteF32.new node.changeFrequency)
  obtain ⟨hid, hcount, hfinal⟩ : added.1 = .ok graph.nodes.count ∧
      added.2.nodes.count = graph.nodes.count + 1 ∧ added.2.finalized = false := by
    obtain ⟨handle, labelHandle, tagHandles, strings, hnew, -⟩ := h.registered.addNode_new
      node.externalId node.label (u8ToNodeType node.nodeType) node.tags node.lastModified
      (FiniteF32.new node.changeFrequency) habsent
    rw [← hadded, hnew]
    exact ⟨rfl, rfl, rfl⟩
  simp only [hadded] at hregistered hkept hresolve hview hedges
  have hlt : graph.nodes.count < added.2.nodes.count := by omega
  have hrewritten := added.2.rewritten_setNodeProvenance graph.nodes.count node.provenance
  refine ⟨added.2.setNodeProvenance graph.nodes.count node.provenance, ?_, ?_⟩
  · rw [buildNode_eq_ok]
    simp only [hadded]
    exact ⟨hfinite.1, hfinite.2, _, hid, rfl⟩
  · constructor
    case kept => exact hkept.setNodeProvenance graph.nodes.count node.provenance
    case registered => exact hregistered.setNodeProvenance graph.nodes.count node.provenance
    case unfinalized => exact hrewritten.finalized.trans hfinal
    case noSlots => exact hrewritten.numEdges.trans (hedges.trans h.noSlots)
    case count =>
      rw [hrewritten.count, hcount, h.count, List.length_append, List.length_singleton]
    case externalIds =>
      intro s i
      rw [hregistered.resolveId_setNodeProvenance hlt, hresolve, List.getElem?_append, ← h.count]
      have hold := h.externalIds s i
      by_cases he : s = node.externalId
      · subst he
        rw [if_pos rfl, Option.some.injEq]
        rw [habsent] at hold
        by_cases hi : i < graph.nodes.count
        · have hne : ¬ graph.nodes.count = i := by omega
          rw [if_pos hi, ← hold]
          simp [hne]
        · rw [if_neg hi]
          by_cases hi' : i = graph.nodes.count
          · simp [hi']
          · obtain ⟨k, hk⟩ : ∃ k, i - graph.nodes.count = k + 1 := ⟨i - graph.nodes.count - 1, by omega⟩
            have hne : ¬ graph.nodes.count = i := by omega
            simp [hk, hne]
      · rw [if_neg he, hold]
        by_cases hi : i < graph.nodes.count
        · rw [if_pos hi]
        · rw [if_neg hi, List.getElem?_eq_none (by rw [← h.count]; omega)]
          by_cases hi' : i = graph.nodes.count
          · simp [hi', Ne.symm he]
          · obtain ⟨k, hk⟩ : ∃ k, i - graph.nodes.count = k + 1 := ⟨i - graph.nodes.count - 1, by omega⟩
            simp [hk]
    case views =>
      intro i other hother
      rw [hregistered.nodeView_setNodeProvenance hlt]
      by_cases hi : i < graph.nodes.count
      · have hne : ¬ graph.nodes.count = i := by omega
        have hne' : ¬ i = graph.nodes.count := by omega
        rw [List.getElem?_append_left (h.count ▸ hi)] at hother
        rw [if_neg hne, hview i (by omega), if_neg hne', h.views i other hother]
      · have hbehind := (List.getElem?_eq_some_iff.mp hother).1
        rw [List.length_append, List.length_singleton, ← h.count] at hbehind
        have he : i = graph.nodes.count := by omega
        subst he
        rw [List.getElem?_append_right (by rw [h.count]), h.count,
          Nat.sub_self, List.getElem?_cons_zero, Option.some.injEq] at hother
        rw [if_pos rfl, hview _ (Nat.le_refl _), if_pos rfl, ← hother]
        rfl

-- A list of finite records with distinct external ids is loaded whole.
theorem Loading.foldlM_buildNode (format : SnapshotFormat) (h : Loading graph done) (hfinite : ∀ node ∈ nodes, node.Finite W)
    (hnodup : ((done ++ nodes).map NodeSnapshot.externalId).Nodup) :
    ∃ next, nodes.foldlM (M1nd.Core.buildNode format) graph = .ok next ∧
      Loading next (done ++ nodes) := by
  induction nodes generalizing graph done with
  | nil => exact ⟨graph, rfl, by rwa [List.append_nil]⟩
  | cons node nodes ih =>
      have hsplit : done ++ node :: nodes = done ++ [node] ++ nodes := by simp
      have hfresh : node.externalId ∉ done.map NodeSnapshot.externalId := by
        intro hmem
        rw [List.map_append, List.map_cons] at hnodup
        exact List.disjoint_of_nodup_append hnodup hmem List.mem_cons_self
      obtain ⟨mid, hmid, hloading⟩ := h.buildNode format
        (hfinite node List.mem_cons_self) hfresh
      obtain ⟨next, hnext, hdone⟩ := ih hloading
        (fun other hother => hfinite other (List.mem_cons_of_mem _ hother)) (hsplit ▸ hnodup)
      refine ⟨next, ?_, hsplit ▸ hdone⟩
      rw [List.foldlM_cons, hmid]
      exact hnext

-- No record that is not finite is loaded.
theorem finite_of_foldlM_buildNode
    (hnext : nodes.foldlM (M1nd.Core.buildNode format) graph = .ok next) :
    ∀ node ∈ nodes, node.Finite W := by
  induction nodes generalizing graph with
  | nil => exact nofun
  | cons node nodes ih =>
      rw [List.foldlM_cons, bind_eq_ok] at hnext
      obtain ⟨mid, hmid, hrest⟩ := hnext
      obtain ⟨htime, hfrequency, -⟩ := buildNode_eq_ok.mp hmid
      exact List.forall_mem_cons.mpr ⟨⟨htime, hfrequency⟩, ih hrest⟩

end Nodes

section Edges

variable {graph next : Graph W T} {nodes : List (NodeSnapshot F T)} {edge : EdgeSnapshotV4 F}
  {edges done : List (EdgeSnapshotV4 F)} {pending : PendingEdge W}

-- A staged edge is the one a record asks for.
structure EdgeSnapshotV4.Stages (edge : EdgeSnapshotV4 F) (graph : Graph W T)
    (pending : PendingEdge W) : Prop where
  source : graph.resolveId edge.sourceId = some pending.source
  target : graph.resolveId edge.targetId = some pending.target
  relation : graph.strings.tryResolve pending.relation = some edge.relation
  direction : pending.direction = if edge.direction = 1 then .Bidirectional else .Forward
  inhibitory : pending.inhibitory = edge.inhibitory
  causalStrength : pending.causalStrength = FiniteF32.new edge.causalStrength

-- The nodes are loaded, and so are the records of the first edges.
structure Staging (graph : Graph W T) (nodes : List (NodeSnapshot F T))
    (done : List (EdgeSnapshotV4 F)) : Prop where
  loading : Loading graph nodes
  staged : List.Forall₂ (fun edge pending => EdgeSnapshotV4.Stages edge graph pending) done
    graph.csr.pendingEdges

theorem Loading.extends {loaded : List (NodeSnapshot F T)} (h : Loading graph loaded)
    (hkept : next.Kept) (hnodes : next.nodes = graph.nodes)
    (hids : next.idToNode = graph.idToNode) (hfaithful : next.strings.Faithful)
    (hextends : graph.strings.Extends next.strings) (hfinal : next.finalized = false)
    (hslots : next.csr.numEdges = 0) : Loading next loaded where
  kept := hkept
  registered := h.registered.extends hnodes hids hfaithful hextends
  unfinalized := hfinal
  noSlots := hslots
  count := by
    rw [hnodes]
    exact h.count
  externalIds s i := by
    rw [h.registered.resolveId_extends hnodes hids hfaithful hextends]
    exact h.externalIds s i
  views i node hnode := by
    rw [h.registered.nodeView_extends hnodes hextends]
    exact h.views i node hnode

theorem EdgeSnapshotV4.Stages.extends (h : edge.Stages graph pending)
    (hregistered : graph.Registered) (hnodes : next.nodes = graph.nodes)
    (hids : next.idToNode = graph.idToNode) (hfaithful : next.strings.Faithful)
    (hextends : graph.strings.Extends next.strings) : edge.Stages next pending where
  source := by
    rw [hregistered.resolveId_extends hnodes hids hfaithful hextends]
    exact h.source
  target := by
    rw [hregistered.resolveId_extends hnodes hids hfaithful hextends]
    exact h.target
  relation := hextends.tryResolve h.relation
  direction := h.direction
  inhibitory := h.inhibitory
  causalStrength := h.causalStrength

-- An edge between two nodes is staged behind the others.
theorem Graph.addEdge_accepted {source target : Nat} (hsource : source < graph.nodes.count)
    (htarget : target < graph.nodes.count) (relation : String) (weight : W)
    (direction : EdgeDirection) (inhibitory : Bool) (causalStrength : W) :
    ∃ idx next, graph.addEdge source target relation weight direction inhibitory causalStrength =
        (.ok idx, next) ∧ next.nodes = graph.nodes ∧ next.idToNode = graph.idToNode ∧
      next.strings = (graph.strings.getOrIntern relation).2 ∧ next.finalized = false ∧
      next.csr.pendingEdges = graph.csr.pendingEdges ++ [⟨source, target, weight, inhibitory,
        (graph.strings.getOrIntern relation).1, direction, causalStrength⟩] := by
  unfold Graph.addEdge
  rw [if_neg (Nat.not_le_of_lt hsource), if_neg (Nat.not_le_of_lt htarget)]
  exact ⟨_, _, rfl, rfl, rfl, rfl, rfl, rfl⟩

theorem Staging.buildEdge (format : SnapshotFormat) (h : Staging graph nodes done)
    (hsource : (graph.resolveId edge.sourceId).isSome = true)
    (htarget : (graph.resolveId edge.targetId).isSome = true) :
    ∃ next, buildEdge format graph edge = .ok next ∧ Staging next nodes (done ++ [edge]) ∧
      ∀ s, next.resolveId s = graph.resolveId s := by
  obtain ⟨source, hsource⟩ := Option.isSome_iff_exists.mp hsource
  obtain ⟨target, htarget⟩ := Option.isSome_iff_exists.mp htarget
  have hregistered := h.loading.registered
  obtain ⟨handle, -, hknown⟩ := hregistered.resolveId_iff.mp hsource
  obtain ⟨handle', -, hknown'⟩ := hregistered.resolveId_iff.mp htarget
  obtain ⟨idx, next, hadded, hnodes, hids, hstrings, hfinal, hpending⟩ := Graph.addEdge_accepted
    (hregistered.known _ _ hknown).1 (hregistered.known _ _ hknown').1 edge.relation
    (FiniteF32.new edge.originalWeight) (if edge.direction = 1 then .Bidirectional else .Forward)
    edge.inhibitory (FiniteF32.new edge.causalStrength)
  have hkept := h.loading.kept.addEdge source target edge.relation
    (FiniteF32.new edge.originalWeight) (if edge.direction = 1 then .Bidirectional else .Forward)
    edge.inhibitory (FiniteF32.new edge.causalStrength)
  have hslots := graph.numEdges_addEdge source target edge.relation
    (FiniteF32.new edge.originalWeight) (if edge.direction = 1 then .Bidirectional else .Forward)
    edge.inhibitory (FiniteF32.new edge.causalStrength)
  rw [hadded] at hkept hslots
  obtain ⟨hfaithful, hextends, hrelation⟩ := hregistered.faithful.getOrIntern edge.relation
  rw [← hstrings] at hfaithful hextends hrelation
  have hresolve := hregistered.resolveId_extends hnodes hids hfaithful hextends
  refine ⟨next, buildEdge_eq_ok.mpr ⟨source, hsource, target, htarget, idx,
    congrArg Prod.fst hadded, congrArg Prod.snd hadded⟩, ⟨?_, ?_⟩, hresolve⟩
  · exact h.loading.extends hkept hnodes hids hfaithful hextends hfinal
      (hslots.trans h.loading.noSlots)
  · rw [hpending]
    refine List.rel_append (h.staged.imp fun _ _ hstages =>
      hstages.extends hregistered hnodes hids hfaithful hextends) (.cons ?_ .nil)
    exact ⟨(hresolve _).trans hsource, (hresolve _).trans htarget, hrelation, rfl, rfl, rfl⟩

-- A list of records whose ends are loaded is staged whole.
theorem Staging.foldlM_buildEdge (format : SnapshotFormat) (h : Staging graph nodes done)
    (hends : ∀ edge ∈ edges, (graph.resolveId edge.sourceId).isSome = true ∧
      (graph.resolveId edge.targetId).isSome = true) :
    ∃ next, edges.foldlM (M1nd.Core.buildEdge format) graph = .ok next ∧
      Staging next nodes (done ++ edges) := by
  induction edges generalizing graph done with
  | nil => exact ⟨graph, rfl, by rwa [List.append_nil]⟩
  | cons edge edges ih =>
      have hsplit : done ++ edge :: edges = done ++ [edge] ++ edges := by simp
      obtain ⟨hsource, htarget⟩ := hends edge List.mem_cons_self
      obtain ⟨mid, hmid, hstaging, hresolve⟩ := h.buildEdge format hsource htarget
      obtain ⟨next, hnext, hdone⟩ := ih hstaging fun other hother => by
        rw [hresolve, hresolve]
        exact hends other (List.mem_cons_of_mem _ hother)
      refine ⟨next, ?_, hsplit ▸ hdone⟩
      rw [List.foldlM_cons, hmid]
      exact hnext

end Edges

end M1nd.Core
