import M1nd.Ingest.Merge.Links
import Mathlib.Data.Finset.Lattice.Lemmas
import Mathlib.Order.WithBot

namespace M1nd.Ingest

open M1nd.Core

variable {W T : Type} {graph merged : Graph W T}

-- A graph that has nodes only.
structure Bare (graph : Graph W T) : Prop where
  registered : graph.Registered
  csr : graph.csr = .empty
  edgePlasticity : graph.edgePlasticity = .new
  finalized : graph.finalized = false

theorem bare_new : Bare (Graph.new : Graph W T) :=
  ⟨Graph.registered_new, rfl, rfl, rfl⟩

theorem Bare.whole (h : Bare graph) : Whole graph where
  sound := by
    refine ⟨?_, ?_, ?_, ?_⟩
    · intro edge hedge
      rw [h.csr] at hedge
      exact absurd hedge List.not_mem_nil
    · intro target htarget
      rw [h.csr] at htarget
      exact absurd htarget List.not_mem_nil
    · rw [h.csr]
      exact Nat.zero_le _
    · intro hfinal
      rw [h.finalized] at hfinal
      exact absurd hfinal Bool.false_ne_true
  listed := by
    refine ⟨?_, ?_, ?_, ?_⟩
    · rw [h.csr]
      rfl
    · rw [h.csr]
      rfl
    · rw [h.csr]
      rfl
    · rw [h.csr, h.edgePlasticity]
      exact ⟨rfl, rfl, rfl, rfl, rfl, rfl, rfl⟩
  named := by
    refine Graph.named_new.of_strings h.csr h.registered.faithful.dense ?_
    exact Nat.zero_le _
  registered := h.registered

theorem Bare.addNode (h : Bare graph) (externalId label : String) (nodeType : NodeType)
    (tags : List String) (lastModified : T) (changeFrequency : W) :
    Bare (graph.addNode externalId label nodeType tags lastModified changeFrequency).2 := by
  have hregistered := h.registered.addNode externalId label nodeType tags lastModified
    changeFrequency
  obtain ⟨strings, he⟩ | ⟨nodes, strings, idToNode, -, he⟩ :=
    graph.addNode_cases externalId label nodeType tags lastModified changeFrequency
  · rw [he] at hregistered ⊢
    exact ⟨hregistered, h.csr, h.edgePlasticity, h.finalized⟩
  · rw [he] at hregistered ⊢
    exact ⟨hregistered, h.csr, h.edgePlasticity, rfl⟩

theorem Bare.setNodeProvenance (h : Bare graph) (node : Nat)
    (provenance : ResolvedNodeProvenance) : Bare (graph.setNodeProvenance node provenance) := by
  have hregistered := h.registered.setNodeProvenance node provenance
  by_cases hnode : graph.nodes.count ≤ node
  · unfold Graph.setNodeProvenance at hregistered ⊢
    rw [if_pos hnode] at hregistered ⊢
    exact h
  · obtain ⟨strings, sourcePath, excerpt, space, he, -⟩ :=
      h.registered.setNodeProvenance_eq (Nat.lt_of_not_le hnode) provenance
    rw [he] at hregistered ⊢
    exact ⟨hregistered, h.csr, h.edgePlasticity, h.finalized⟩

-- What a merge keeps of a node, as the laws about it see it: its tags and when it changed last.
def nodeSummary [Zero T] (graph : Graph W T) (i : Nat) : Finset String × T :=
  ((nodeTags graph i).toFinset, graph.nodes.lastModified.getD i 0)

-- A name that no node has is at the bottom.
def summary [Zero T] (graph : Graph W T) (s : String) : WithBot (Finset String × T) :=
  match graph.resolveId s with
  | some i => (nodeSummary graph i : WithBot (Finset String × T))
  | none => ⊥

section Reading

variable [Zero T] {s : String} {i : Nat}

theorem summary_some (h : graph.resolveId s = some i) :
    summary graph s = (nodeSummary graph i : WithBot (Finset String × T)) := by
  rw [summary, h]

theorem summary_none (h : graph.resolveId s = none) : summary graph s = ⊥ := by
  rw [summary, h]

def viewSummary (view : NodeView W T) : Finset String × T :=
  (((view.tags.getD []).map fun tag => tag.getD "").toFinset, view.lastModified.getD 0)

theorem nodeSummary_eq (graph : Graph W T) (i : Nat) :
    nodeSummary graph i = viewSummary (graph.nodeView i) := by
  unfold nodeSummary viewSummary nodeTags Graph.nodeView
  simp only [List.getD_eq_getElem?_getD, Prod.mk.injEq, and_true]
  cases graph.nodes.tags[i]? with
  | none => rfl
  | some handles =>
      simp only [Option.getD_some, Option.map_some, List.map_map]
      rfl

theorem toFinset_mergeTags (existing incoming : List String) :
    (mergeTags existing incoming).toFinset = existing.toFinset ∪ incoming.toFinset := by
  have hfold (tags seen : List String) :
      (tags.foldl (fun merged tag => if tag ∈ merged then merged else merged ++ [tag])
        seen).toFinset = seen.toFinset ∪ tags.toFinset := by
    induction tags generalizing seen with
    | nil => simp
    | cons tag tags ih =>
        rw [List.foldl_cons, ih]
        by_cases hmem : tag ∈ seen
        · rw [if_pos hmem]
          ext other
          simp only [Finset.mem_union, List.mem_toFinset, List.mem_cons]
          grind
        · rw [if_neg hmem]
          ext other
          simp only [Finset.mem_union, List.mem_toFinset, List.mem_cons, List.mem_append,
            List.not_mem_nil]
          grind
  rw [mergeTags, hfold, List.toFinset_nil, Finset.empty_union, List.toFinset_append]

end Reading

section Steps

-- A node is given other tags and another time.
def writeTags (graph : Graph W T) (strings : StringInterner) (node : Nat) (handles : List Nat)
    (time : T) : Graph W T :=
  { graph with
    strings := strings
    nodes := {
      graph.nodes with
      tags := graph.nodes.tags.set node handles
      lastModified := graph.nodes.lastModified.set node time } }

variable {strings : StringInterner} {handles : List Nat} {node : Nat} {time : T}

theorem Bare.writeTags (h : Bare graph) (hfaithful : strings.Faithful)
    (hextends : graph.strings.Extends strings)
    (hhandles : ∀ handle ∈ handles, handle < strings.strings.length) :
    Bare (writeTags graph strings node handles time) := by
  have hnext : Graph.Registered ({ graph with strings := strings } : Graph W T) :=
    h.registered.extends rfl rfl hfaithful hextends
  refine ⟨?_, h.csr, h.edgePlasticity, h.finalized⟩
  refine ⟨hnext.faithful, hnext.label, hnext.nodeType, ?_, ?_, hnext.changeFrequency,
    hnext.provenance, hnext.labels, ?_, hnext.spelled, hnext.known, hnext.unique, hnext.total⟩
  · exact (List.length_set ..).trans hnext.tags
  · exact (List.length_set ..).trans hnext.lastModified
  · intro tags htags
    obtain hmem | rfl := List.mem_or_eq_of_mem_set htags
    · exact hnext.tagHandles tags hmem
    · exact hhandles

theorem Bare.resolveId_writeTags (h : Bare graph) (hfaithful : strings.Faithful)
    (hextends : graph.strings.Extends strings) (s : String) :
    (Ingest.writeTags graph strings node handles time).resolveId s = graph.resolveId s :=
  @Graph.Registered.resolveId_extends W T graph { graph with strings := strings } h.registered rfl
    rfl hfaithful hextends s

variable [Zero T]

theorem Bare.nodeSummary_writeTags (h : Bare graph) (hextends : graph.strings.Extends strings)
    {names : List String} (hnames : handles.map strings.tryResolve = names.map some)
    (hnode : node < graph.nodes.count) (i : Nat) :
    nodeSummary (Ingest.writeTags graph strings node handles time) i =
      if i = node then (names.toFinset, time) else nodeSummary graph i := by
  by_cases he : i = node
  · subst he
    have htags : i < graph.nodes.tags.length := by rwa [h.registered.tags]
    have htime : i < graph.nodes.lastModified.length := by rwa [h.registered.lastModified]
    have hresolve : handles.map (fun handle => (strings.tryResolve handle).getD "") = names := by
      have hmap := congrArg (List.map fun tag : Option String => tag.getD "") hnames
      rw [List.map_map, List.map_map] at hmap
      exact hmap.trans (List.map_id _)
    rw [if_pos rfl]
    unfold nodeSummary nodeTags resolveName Ingest.writeTags
    simp only [List.getD_eq_getElem?_getD, List.getElem?_set_self htags,
      List.getElem?_set_self htime, Option.getD_some]
    rw [hresolve]
  · have hsame : ({ graph with strings := strings } : Graph W T).nodeView i = graph.nodeView i :=
      h.registered.nodeView_extends rfl hextends
    rw [if_neg he, nodeSummary_eq graph, ← hsame, ← nodeSummary_eq]
    unfold nodeSummary nodeTags resolveName Ingest.writeTags
    simp only [List.getD_eq_getElem?_getD, List.getElem?_set_ne (Ne.symm he)]

theorem Bare.nodeSummary_setNodeProvenance (h : Bare graph) (hnode : node < graph.nodes.count)
    (provenance : ResolvedNodeProvenance) (i : Nat) :
    nodeSummary (graph.setNodeProvenance node provenance) i = nodeSummary graph i := by
  rw [nodeSummary_eq, nodeSummary_eq, h.registered.nodeView_setNodeProvenance hnode]
  by_cases he : node = i
  · rw [if_pos he]
    rfl
  · rw [if_neg he]

end Steps

section Merge

variable [Zero T] [LinearOrder T] {existing idx : Nat}

-- A node that is there already.
theorem Bare.mergeExisting (h : Bare merged) (graph : Graph W T) (idx : Nat)
    (hexisting : existing < merged.nodes.count) :
    Bare (mergeExisting graph idx merged existing) ∧
      (∀ s, (Ingest.mergeExisting graph idx merged existing).resolveId s = merged.resolveId s) ∧
      ∀ i, nodeSummary (Ingest.mergeExisting graph idx merged existing) i =
        if i = existing then nodeSummary merged existing ⊔ nodeSummary graph idx
        else nodeSummary merged i := by
  have hinterned := h.registered.faithful.internAll
    (mergeTags (nodeTags merged existing) (nodeTags graph idx))
  generalize hentry : merged.strings.internAll
    (mergeTags (nodeTags merged existing) (nodeTags graph idx)) = entry at hinterned
  obtain ⟨handles, strings⟩ := entry
  obtain ⟨hfaithful, hextends, hnames⟩ := hinterned
  have hhandles : ∀ handle ∈ handles, handle < strings.strings.length := by
    intro handle hhandle
    have hmem := List.mem_map_of_mem (f := strings.tryResolve) hhandle
    rw [hnames] at hmem
    obtain ⟨name, -, hname⟩ := List.mem_map.mp hmem
    exact StringInterner.lt_of_tryResolve hname.symm
  have hnext : Ingest.mergeExisting graph idx merged existing =
      mergeNodeProvenance (Ingest.writeTags merged strings existing handles
        (max (merged.nodes.lastModified.getD existing 0) (graph.nodes.lastModified.getD idx 0)))
        existing (graph.resolveNodeProvenance idx) := by
    unfold Ingest.mergeExisting
    rw [hentry]
    rfl
  generalize htime : max (merged.nodes.lastModified.getD existing 0)
    (graph.nodes.lastModified.getD idx 0) = time at hnext
  have hwritten : Bare (Ingest.writeTags merged strings existing handles time) :=
    h.writeTags hfaithful hextends hhandles
  have hresolve := @Bare.resolveId_writeTags W T merged strings handles existing time h hfaithful
    hextends
  have hsummary := @Bare.nodeSummary_writeTags W T merged strings handles existing time _ h
    hextends _ hnames hexisting
  generalize hdefined : Ingest.writeTags merged strings existing handles time = written at *
  have hcount : existing < written.nodes.count := by
    rw [← hdefined]
    exact hexisting
  obtain ⟨provenance, hset⟩ : ∃ provenance,
      mergeNodeProvenance written existing (graph.resolveNodeProvenance idx) =
        written.setNodeProvenance existing provenance := by
    unfold mergeNodeProvenance
    rw [if_neg (Nat.not_le_of_lt hcount)]
    exact ⟨_, rfl⟩
  rw [hnext, hset]
  refine ⟨hwritten.setNodeProvenance _ _, fun s => ?_, fun i => ?_⟩
  · rw [hwritten.registered.resolveId_setNodeProvenance hcount, hresolve]
  · rw [hwritten.nodeSummary_setNodeProvenance hcount, hsummary, toFinset_mergeTags, ← htime]
    rfl

variable [Zero W]

-- What a copied node holds.
def copiedView (graph : Graph W T) (idx : Nat) : NodeView W T where
  label := some (resolveName graph (graph.nodes.label.getD idx 0))
  nodeType := some (graph.nodes.nodeType.getD idx .File)
  tags := some ((nodeTags graph idx).map some)
  lastModified := some (graph.nodes.lastModified.getD idx 0)
  changeFrequency := some (graph.nodes.changeFrequency.getD idx 0)
  provenance := (graph.resolveNodeProvenance idx).stored

omit [LinearOrder T] in
-- A node that is not there yet.
theorem Bare.copyNode (h : Bare merged) (graph : Graph W T) (idx : Nat) {externalId : String}
    (hfresh : merged.resolveId externalId = none) :
    ∃ next, Ingest.copyNode graph externalId idx merged = .ok next ∧ Bare next ∧
      (∀ s, next.resolveId s =
        if s = externalId then some merged.nodes.count else merged.resolveId s) ∧
      ∀ i ≤ merged.nodes.count, next.nodeView i =
        if i = merged.nodes.count then copiedView graph idx else merged.nodeView i := by
  have hbare := h.addNode externalId (resolveName graph (graph.nodes.label.getD idx 0))
    (graph.nodes.nodeType.getD idx .File) (nodeTags graph idx)
    (graph.nodes.lastModified.getD idx 0) (graph.nodes.changeFrequency.getD idx 0)
  have hresolve := h.registered.resolveId_addNode externalId
    (resolveName graph (graph.nodes.label.getD idx 0))
    (graph.nodes.nodeType.getD idx .File) (nodeTags graph idx)
    (graph.nodes.lastModified.getD idx 0) (graph.nodes.changeFrequency.getD idx 0) hfresh
  have hview := fun i => @Graph.Registered.nodeView_addNode W T merged h.registered externalId
    (resolveName graph (graph.nodes.label.getD idx 0))
    (graph.nodes.nodeType.getD idx .File) (nodeTags graph idx)
    (graph.nodes.lastModified.getD idx 0) (graph.nodes.changeFrequency.getD idx 0) hfresh i
  obtain ⟨_, _, _, _, hadded, -⟩ := h.registered.addNode_new externalId
    (resolveName graph (graph.nodes.label.getD idx 0))
    (graph.nodes.nodeType.getD idx .File) (nodeTags graph idx)
    (graph.nodes.lastModified.getD idx 0) (graph.nodes.changeFrequency.getD idx 0) hfresh
  unfold Ingest.copyNode
  rw [hadded] at hbare hresolve hview ⊢
  have hcount : merged.nodes.count < merged.nodes.count + 1 := Nat.lt_succ_self _
  refine ⟨_, rfl, hbare.setNodeProvenance _ _, fun s => ?_, fun i hi => ?_⟩
  · rw [hbare.registered.resolveId_setNodeProvenance hcount]
    exact hresolve s
  · rw [hbare.registered.nodeView_setNodeProvenance hcount, hview i hi]
    by_cases he : i = merged.nodes.count
    · rw [if_pos he, if_pos he, if_pos he.symm]
      rfl
    · rw [if_neg he, if_neg he, if_neg (Ne.symm he)]

omit [LinearOrder T] in
theorem viewSummary_copiedView (graph : Graph W T) (idx : Nat) :
    viewSummary (copiedView graph idx) = nodeSummary graph idx := by
  simp only [copiedView, viewSummary, Option.getD_some, List.map_map, nodeSummary, Prod.mk.injEq,
    and_true]
  exact congrArg List.toFinset (List.map_id _)

-- A step joins one node of the graph to those that are there.
theorem Bare.mergeNode (h : Bare merged) (hgraph : graph.Registered) (hvalid : ValidIds graph)
    (hidx : idx < graph.nodes.count) :
    ∃ next, Ingest.mergeNode graph (nodeExternalIds graph) merged idx = .ok next ∧ Bare next ∧
      ∀ s, summary next s =
        if s = nodeName graph idx then summary merged s ⊔ (nodeSummary graph idx : WithBot _)
        else summary merged s := by
  have hid : (nodeExternalIds graph).getD idx "" = nodeName graph idx := rfl
  simp only [Ingest.mergeNode, hid, hvalid.nodeName hgraph hidx, Bool.not_true,
    Bool.false_eq_true, if_false]
  cases hresolve : merged.resolveId (nodeName graph idx) with
  | some existing =>
      have hexisting := resolveId_lt h.registered hresolve
      obtain ⟨hbare, hids, hsummary⟩ := h.mergeExisting graph idx hexisting
      refine ⟨_, rfl, hbare, fun s => ?_⟩
      by_cases hs : s = nodeName graph idx
      · subst hs
        have hfound := (hids _).trans hresolve
        rw [if_pos rfl, summary_some hfound, summary_some hresolve, hsummary, if_pos rfl]
        rfl
      · rw [if_neg hs]
        cases hother : merged.resolveId s with
        | none => rw [summary_none hother, summary_none ((hids s).trans hother)]
        | some i =>
            have hne : i ≠ existing := by
              rintro rfl
              exact hs ((nodeName_of_resolveId h.registered hother).symm.trans
                (nodeName_of_resolveId h.registered hresolve))
            rw [summary_some hother, summary_some ((hids s).trans hother), hsummary, if_neg hne]
  | none =>
      obtain ⟨next, hcopy, hbare, hids, hview⟩ := h.copyNode graph idx hresolve
      refine ⟨next, hcopy, hbare, fun s => ?_⟩
      by_cases hs : s = nodeName graph idx
      · subst hs
        have hfound := (hids (nodeName graph idx)).trans (if_pos rfl)
        rw [if_pos rfl, summary_some hfound, summary_none hresolve, nodeSummary_eq,
          hview _ (Nat.le_refl _), if_pos rfl, viewSummary_copiedView, bot_sup_eq]
      · have hsame := (hids s).trans (if_neg hs)
        rw [if_neg hs]
        cases hother : merged.resolveId s with
        | none => rw [summary_none hother, summary_none (hsame.trans hother)]
        | some i =>
            have hlt := resolveId_lt h.registered hother
            rw [summary_some hother, summary_some (hsame.trans hother), nodeSummary_eq,
              hview i (Nat.le_of_lt hlt), if_neg (Nat.ne_of_lt hlt), nodeSummary_eq]

omit [LinearOrder T] [Zero W] in
-- What the nodes below `n` have.
def summaryBelow (graph : Graph W T) (n : Nat) (s : String) : WithBot (Finset String × T) :=
  match graph.resolveId s with
  | some i => if i < n then (nodeSummary graph i : WithBot (Finset String × T)) else ⊥
  | none => ⊥

theorem Bare.mergeNodes (h : Bare merged) (hgraph : graph.Registered) (hvalid : ValidIds graph) :
    ∃ next, Ingest.mergeNodes merged graph = .ok next ∧ Bare next ∧
      summary next = summary merged ⊔ summary graph := by
  have hrun : ∀ n ≤ graph.nodes.count, ∃ next,
      (List.range n).foldlM (Ingest.mergeNode graph (nodeExternalIds graph)) merged = .ok next ∧
        Bare next ∧ ∀ s, summary next s = summary merged s ⊔ summaryBelow graph n s := by
    intro n hn
    induction n with
    | zero =>
        refine ⟨merged, rfl, h, fun s => ?_⟩
        have hnone : summaryBelow graph 0 s = ⊥ := by
          unfold summaryBelow
          cases graph.resolveId s <;> rfl
        rw [hnone, sup_bot_eq]
    | succ n ih =>
        obtain ⟨mid, hmid, hbare, hsummary⟩ := ih (by omega)
        have hlt : n < graph.nodes.count := hn
        obtain ⟨next, hnext, hbare', hsummary'⟩ := hbare.mergeNode hgraph hvalid hlt
        refine ⟨next, ?_, hbare', fun s => ?_⟩
        · rw [List.range_succ, List.foldlM_append, hmid]
          change Ingest.mergeNode graph (nodeExternalIds graph) mid n >>= pure = _
          rw [hnext]
          rfl
        · rw [hsummary', hsummary]
          by_cases hs : s = nodeName graph n
          · have hresolve := resolveId_nodeName hgraph hlt
            rw [← hs] at hresolve
            have hbelow : summaryBelow graph n s = ⊥ := by
              simp only [summaryBelow, hresolve, Nat.lt_irrefl, if_false]
            have hat : summaryBelow graph (n + 1) s =
                (nodeSummary graph n : WithBot (Finset String × T)) := by
              simp only [summaryBelow, hresolve, Nat.lt_succ_self, if_true]
            rw [if_pos hs, hbelow, hat, sup_bot_eq]
          · have hsame : summaryBelow graph (n + 1) s = summaryBelow graph n s := by
              unfold summaryBelow
              cases hresolve : graph.resolveId s with
              | none => rfl
              | some i =>
                  have hne : i ≠ n := by
                    rintro rfl
                    exact hs (nodeName_of_resolveId hgraph hresolve).symm
                  have hiff : i < n + 1 ↔ i < n := by omega
                  simp only [hiff]
            rw [if_neg hs, hsame]
  obtain ⟨next, hnext, hbare, hsummary⟩ := hrun graph.nodes.count (Nat.le_refl _)
  refine ⟨next, hnext, hbare, funext fun s => ?_⟩
  have hall : summaryBelow graph graph.nodes.count s = summary graph s := by
    unfold summaryBelow summary
    cases hresolve : graph.resolveId s with
    | none => rfl
    | some i => simp only [resolveId_lt hgraph hresolve, if_true]
  rw [hsummary, hall]
  rfl

end Merge

end M1nd.Ingest
