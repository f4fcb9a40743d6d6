import M1nd.Ingest.Merge.Merged

namespace M1nd.Ingest

open M1nd.Core
open M1nd.Library.Pairing

variable {W T : Type} [Zero W]

-- The weight and the causal strength of an edge.
def strengths (record : EdgeRecord W) : W × W :=
  (record.weight, record.causalStrength)

-- The edges of a key, in the order of their canonical slots.
def edgesOf (graph : Graph W T) (key : EdgeKey) : List (W × W) :=
  (ofKey key (edgeRecords graph)).map strengths

section Contents

variable {graph graph' : Graph W T}

omit [Zero W] in
theorem ofKey_eq_map (key : EdgeKey) (edges : List (EdgeRecord W)) :
    ((ofKey key edges).map strengths).map (fun pair => ⟨key, pair.1, pair.2⟩) =
      ofKey key edges := by
  rw [List.map_map]
  refine (List.map_congr_left fun record hrecord => ?_).trans (List.map_id _)
  have hkey := key_of_mem_ofKey hrecord
  subst hkey
  rfl

theorem expand_edgeRecords_perm (graph : Graph W T) :
    ((edgeRecords graph).flatMap fun record => (recordLink record).expand).Perm
      ((canonicalLinks graph).flatMap Link.expand) := by
  rw [edgeRecords, List.flatMap_map]
  exact List.Perm.flatMap_left _ fun link _ => expand_recordLink_perm link

variable [DecidableEq W]

theorem edgeRecords_perm (h : ∀ key, edgesOf graph key = edgesOf graph' key) :
    (edgeRecords graph).Perm (edgeRecords graph') := by
  refine perm_of_ofKey fun key => ?_
  have he := h key
  unfold edgesOf at he
  rw [← ofKey_eq_map key (edgeRecords graph), he, ofKey_eq_map]

-- The links of a twinned graph are given by its edges.
theorem links_perm_of_edgesOf (htwinned : Twinned graph) (htwinned' : Twinned graph')
    (h : ∀ key, edgesOf graph key = edgesOf graph' key) : (links graph).Perm (links graph') := by
  have hexpand := (edgeRecords_perm h).flatMap_right fun record => (recordLink record).expand
  exact ((twinned_iff.mp htwinned).symm.trans ((expand_edgeRecords_perm graph).symm.trans hexpand)).trans
    ((expand_edgeRecords_perm graph').trans (twinned_iff.mp htwinned'))

end Contents

section Merged

variable [Zero T] [LinearOrder W] [LinearOrder T] {base overlay merged : Graph W T}
  {hash : HashOrder W}

omit [Zero T] [LinearOrder T] in
theorem edgesOf_mergedEdges (hbase : collectEdges base = edgeRecords base)
    (hoverlay : collectEdges overlay = edgeRecords overlay) (key : EdgeKey) :
    (ofKey key (mergedEdges hash base overlay)).map strengths =
      pairUp (· ⊔ ·) (edgesOf base key) (edgesOf overlay key) := by
  rw [ofKey_mergedEdges, hbase, hoverlay]
  exact map_pairUp (fun _ _ => rfl) _ _

theorem Merges.edgesOf_eq (h : Merges hash base overlay merged)
    (hbase : collectEdges base = edgeRecords base)
    (hoverlay : collectEdges overlay = edgeRecords overlay) (hloop : Loopless base)
    (hloop' : Loopless overlay) (key : EdgeKey) :
    edgesOf merged key = pairUp (· ⊔ ·) (edgesOf base key) (edgesOf overlay key) := by
  rw [edgesOf, h.records hloop hloop', edgesOf_mergedEdges hbase hoverlay]

theorem Merges.twinned (h : Merges hash base overlay merged) (hloop : Loopless base)
    (hloop' : Loopless overlay) : Twinned merged := by
  have hrecords := perm_of_ofKey (h.records hloop hloop')
  refine twinned_iff.mpr ((expand_edgeRecords_perm merged).symm.trans ?_)
  exact (hrecords.flatMap_right _).trans h.links.symm

-- The slots that an edge of a key takes.
def slotWidth (key : EdgeKey) : Nat :=
  if key.direction = 1 then 2 else 1

omit [Zero W] [LinearOrder W] in
theorem length_expand_recordLink (record : EdgeRecord W) :
    (recordLink record).expand.length = slotWidth record.key := by
  unfold Link.expand recordLink slotWidth
  by_cases hdirection : record.key.direction = 1
  · simp [hdirection]
  · simp [hdirection]

omit [Zero W] [LinearOrder W] in
theorem length_flatMap_expand (records : List (EdgeRecord W)) :
    (records.flatMap fun record => (recordLink record).expand).length =
      (records.map fun record => slotWidth record.key).sum := by
  rw [List.length_flatMap]
  exact congrArg List.sum (List.map_congr_left fun record _ => length_expand_recordLink record)

-- The slots that the edges of a graph need.
def edgeWidth (graph : Graph W T) : Nat :=
  ((edgeRecords graph).map fun record => slotWidth record.key).sum

omit [Zero T] [LinearOrder W] [LinearOrder T] in
theorem Twinned.length_eq {graph : Graph W T} (h : Twinned graph) (hwhole : Whole graph) :
    graph.csr.targets.length = edgeWidth graph := by
  rw [edgeWidth, ← length_links hwhole, ← length_flatMap_expand]
  exact ((expand_edgeRecords_perm graph).trans (twinned_iff.mp h)).length_eq.symm

-- A merge has at most the slots that the edges of both graphs need.
theorem Merges.length_le (h : Merges hash base overlay merged)
    (hread : collectEdges base = edgeRecords base)
    (hread' : collectEdges overlay = edgeRecords overlay) :
    merged.csr.targets.length ≤ edgeWidth base + edgeWidth overlay := by
  have hlength := h.links.length_eq
  rw [length_links h.settled.whole, length_flatMap_expand] at hlength
  rw [hlength]
  refine sum_le_of_ofKey slotWidth fun key => ?_
  rw [ofKey_mergedEdges, length_pairUp, hread, hread']
  omega

end Merged

section Laws

variable [Zero T] [LinearOrder W] [LinearOrder T]

-- A merge under some order of the hash map.
def MergesTo (base overlay merged : Graph W T) : Prop :=
  ∃ hash : HashOrder W, mergeGraphs hash base overlay = .ok merged

-- Equality up to the numbering of the nodes: on the ids with their tag sets and timestamps,
-- and on the slots.
def Alike (graph graph' : Graph W T) : Prop :=
  summary graph = summary graph' ∧ (links graph).Perm (links graph')

-- A merge is the union by external id.
structure Unites (base overlay merged : Graph W T) : Prop where
  nodup : (nodeExternalIds merged).Nodup
  ids : ∀ s, s ∈ nodeExternalIds merged ↔ s ∈ nodeExternalIds base ∨ s ∈ nodeExternalIds overlay
  count : ∀ key, (edgesOf merged key).length =
    max (edgesOf base key).length (edgesOf overlay key).length
  larger : ∀ (key : EdgeKey) (n : Nat), (edgesOf merged key)[n]? =
    Option.merge (fun x y : W × W => (max x.1 y.1, max x.2 y.2)) (edgesOf base key)[n]?
      (edgesOf overlay key)[n]?

-- Merging with itself or with the empty graph gives the slots back.
structure GivesBack (graph : Graph W T) : Prop where
  self : ∀ merged, MergesTo graph graph merged → (links merged).Perm (links graph)
  left : ∀ merged, MergesTo Graph.new graph merged → (links merged).Perm (links graph)
  right : ∀ merged, MergesTo graph Graph.new merged → (links merged).Perm (links graph)

structure MergeLaws (base overlay other : Graph W T) : Prop where
  total : ∀ hash : HashOrder W, ∃ merged, mergeGraphs hash base overlay = .ok merged
  unites : ∀ merged, MergesTo base overlay merged → Unites base overlay merged
  givesBack : ∀ graph ∈ [base, overlay, other], GivesBack graph
  comm : ∀ merged merged', MergesTo base overlay merged → MergesTo overlay base merged' →
    Alike merged merged'
  assoc : ∀ left merged right merged', MergesTo base overlay left → MergesTo left other merged →
    MergesTo overlay other right → MergesTo base right merged' → Alike merged merged'

-- The graphs that the operations build and a merge takes.
structure MergeInput (graph : Graph W T) : Prop where
  built : ∃ edits, graph = GraphEdit.run edits
  finalized : graph.finalized = true
  valid : ValidIds graph

omit [Zero W] [Zero T] [LinearOrder W] [LinearOrder T] in
theorem settled_new : Settled (Graph.new : Graph W T) where
  whole := bare_new.whole
  valid s i hi := by
    simp [Graph.resolveId, Graph.new, StringInterner.lookup, StringInterner.new] at hi
  finalized := .inr rfl

omit [Zero T] [LinearOrder W] [LinearOrder T] in
theorem twinned_new : Twinned (Graph.new : Graph W T) := by
  have hlinks := @links_of_empty W T _ Graph.new bare_new.whole rfl
  rw [twinned_iff, hlinks.1, hlinks.2]
  exact .nil

omit [Zero T] [LinearOrder W] [LinearOrder T] in
theorem MergeInput.settled {graph : Graph W T} (h : MergeInput graph) : Settled graph := by
  obtain ⟨edits, rfl⟩ := h.built
  exact ⟨whole_run edits, h.valid, .inl h.finalized⟩

variable {base overlay merged merged' : Graph W T}

theorem merges_of_mergesTo (hbase : Settled base) (hoverlay : Settled overlay)
    (hbound : base.csr.targets.length ≤ 2 ^ 32) (hbound' : overlay.csr.targets.length ≤ 2 ^ 32)
    (h : MergesTo base overlay merged) : ∃ hash, Merges hash base overlay merged := by
  obtain ⟨hash, hmerged⟩ := h
  obtain ⟨found, hfound, hmerges⟩ := mergeGraphs_spec hash hbase hoverlay hbound hbound'
  rw [hmerged] at hfound
  obtain rfl := Except.ok.inj hfound
  exact ⟨hash, hmerges⟩

-- A merge with the empty graph gives the canonical edges, each with its twin.
theorem GivesBack.twinned (h : GivesBack base) (hbase : Settled base)
    (hbound : base.csr.targets.length ≤ 2 ^ 32) : Twinned base := by
  let hash : HashOrder W := ⟨id, fun _ => .refl _⟩
  obtain ⟨merged, hmerged, hmerges⟩ :=
    mergeGraphs_spec hash hbase settled_new hbound (Nat.zero_le _)
  have hback := h.right merged ⟨hash, hmerged⟩
  have hrecords : (mergedEdges hash base Graph.new).Perm (edgeRecords base) := by
    refine perm_of_ofKey fun key => ?_
    rw [ofKey_mergedEdges, hbase.collectEdges_eq hbound]
    exact pairUp_nil _
  refine twinned_iff.mpr ((expand_edgeRecords_perm base).symm.trans ?_)
  exact ((hrecords.flatMap_right _).symm.trans hmerges.links.symm).trans hback

-- The merge of twinned graphs is the join of what they hold.
structure Joined (base overlay merged : Graph W T) : Prop where
  settled : Settled merged
  twinned : Twinned merged
  length : merged.csr.targets.length ≤ base.csr.targets.length + overlay.csr.targets.length
  summary : summary merged = summary base ⊔ summary overlay
  edges : ∀ key, edgesOf merged key = pairUp (· ⊔ ·) (edgesOf base key) (edgesOf overlay key)

theorem joined_of_mergesTo (hbase : Settled base) (hoverlay : Settled overlay)
    (htwinned : Twinned base) (htwinned' : Twinned overlay)
    (hbound : base.csr.targets.length ≤ 2 ^ 32) (hbound' : overlay.csr.targets.length ≤ 2 ^ 32)
    (h : MergesTo base overlay merged) : Joined base overlay merged := by
  obtain ⟨hash, hmerges⟩ := merges_of_mergesTo hbase hoverlay hbound hbound' h
  have hread := hbase.collectEdges_eq hbound
  have hread' := hoverlay.collectEdges_eq hbound'
  have hloop := hbase.loopless htwinned
  have hloop' := hoverlay.loopless htwinned'
  have hlength := hmerges.length_le hread hread'
  rw [← htwinned.length_eq hbase.whole, ← htwinned'.length_eq hoverlay.whole] at hlength
  exact ⟨hmerges.settled, hmerges.twinned hloop hloop', hlength, hmerges.summary,
    hmerges.edgesOf_eq hread hread' hloop hloop'⟩

omit [Zero W] [Zero T] [LinearOrder W] [LinearOrder T] in
theorem nodup_nodeExternalIds (h : merged.Registered) : (nodeExternalIds merged).Nodup := by
  obtain ⟨hlength, hspec⟩ := nodeExternalIds_spec h
  refine List.nodup_iff_getElem?_ne_getElem?.mpr fun i j hij hj he => ?_
  rw [hlength] at hj
  have hname := (nodeExternalIds_spec h).2 _ j |>.mpr (resolveId_nodeName h hj)
  have hi := (hspec _ i).mp (he.trans hname)
  have hj := (hspec _ j).mp hname
  have hsame := Option.some.inj (hi.symm.trans hj)
  omega

omit [Zero W] [LinearOrder W] [LinearOrder T] in
theorem mem_nodeExternalIds_iff (h : merged.Registered) {s : String} :
    s ∈ nodeExternalIds merged ↔ Ingest.summary merged s ≠ ⊥ := by
  rw [summary_ne_bot_iff, List.mem_iff_getElem?]
  exact exists_congr fun i => (nodeExternalIds_spec h).2 s i

theorem Joined.unites (h : Joined base overlay merged) (hbase : Settled base)
    (hoverlay : Settled overlay) : Unites base overlay merged where
  nodup := nodup_nodeExternalIds h.settled.whole.registered
  ids s := by
    rw [mem_nodeExternalIds_iff h.settled.whole.registered,
      mem_nodeExternalIds_iff hbase.whole.registered,
      mem_nodeExternalIds_iff hoverlay.whole.registered, h.summary, Pi.sup_apply, Ne,
      sup_eq_bot_iff, not_and_or]
  count key := by rw [h.edges, length_pairUp]
  larger key n := by
    rw [h.edges, getElem?_pairUp]
    rfl

theorem Joined.alike {base' overlay' : Graph W T} (h : Joined base overlay merged)
    (h' : Joined base' overlay' merged') (hsummary : Ingest.summary merged = Ingest.summary merged')
    (hedges : ∀ key, place (edgesOf merged key) = place (edgesOf merged' key)) :
    Alike merged merged' :=
  ⟨hsummary, links_perm_of_edgesOf h.twinned h'.twinned fun key => place_inj (hedges key)⟩

theorem Joined.place_edges (h : Joined base overlay merged) (key : EdgeKey) :
    place (edgesOf merged key) = place (edgesOf base key) ⊔ place (edgesOf overlay key) := by
  rw [h.edges, place_pairUp]

theorem givesBack_of_twinned (hbase : Settled base) (htwinned : Twinned base)
    (hbound : base.csr.targets.length ≤ 2 ^ 32) : GivesBack base where
  self merged hmerged := by
    have hjoined := joined_of_mergesTo hbase hbase htwinned htwinned hbound hbound hmerged
    refine links_perm_of_edgesOf hjoined.twinned htwinned fun key => place_inj ?_
    rw [hjoined.place_edges, sup_idem]
  left merged hmerged := by
    have hjoined := joined_of_mergesTo settled_new hbase twinned_new htwinned (Nat.zero_le _) hbound
      hmerged
    exact links_perm_of_edgesOf hjoined.twinned htwinned hjoined.edges
  right merged hmerged := by
    have hjoined := joined_of_mergesTo hbase settled_new htwinned twinned_new hbound (Nat.zero_le _)
      hmerged
    refine links_perm_of_edgesOf hjoined.twinned htwinned fun key => ?_
    exact (hjoined.edges key).trans (pairUp_nil _)

theorem alike_comm (hbase : Settled base) (hoverlay : Settled overlay) (htwinned : Twinned base)
    (htwinned' : Twinned overlay) (hbound : base.csr.targets.length ≤ 2 ^ 32)
    (hbound' : overlay.csr.targets.length ≤ 2 ^ 32) (h : MergesTo base overlay merged)
    (h' : MergesTo overlay base merged') : Alike merged merged' := by
  have hjoined := joined_of_mergesTo hbase hoverlay htwinned htwinned' hbound hbound' h
  have hjoined' := joined_of_mergesTo hoverlay hbase htwinned' htwinned hbound' hbound h'
  refine hjoined.alike hjoined' ?_ fun key => ?_
  · rw [hjoined.summary, hjoined'.summary, sup_comm]
  · rw [hjoined.place_edges, hjoined'.place_edges, sup_comm]

theorem alike_assoc {other left right : Graph W T} (hbase : Settled base) (hoverlay : Settled overlay)
    (hother : Settled other) (htwinned : Twinned base) (htwinned' : Twinned overlay)
    (htwinned'' : Twinned other)
    (hbound : base.csr.targets.length + overlay.csr.targets.length + other.csr.targets.length ≤
      2 ^ 32)
    (hleft : MergesTo base overlay left) (h : MergesTo left other merged)
    (hright : MergesTo overlay other right) (h' : MergesTo base right merged') :
    Alike merged merged' := by
  have hjoinedLeft := joined_of_mergesTo hbase hoverlay htwinned htwinned' (by omega) (by omega) hleft
  have hjoinedRight := joined_of_mergesTo hoverlay hother htwinned' htwinned'' (by omega) (by omega)
    hright
  have hlength := hjoinedLeft.length
  have hlength' := hjoinedRight.length
  have hjoined := joined_of_mergesTo hjoinedLeft.settled hother hjoinedLeft.twinned htwinned''
    (by omega) (by omega) h
  have hjoined' := joined_of_mergesTo hbase hjoinedRight.settled htwinned hjoinedRight.twinned
    (by omega) (by omega) h'
  refine hjoined.alike hjoined' ?_ fun key => ?_
  · rw [hjoined.summary, hjoined'.summary, hjoinedLeft.summary, hjoinedRight.summary, sup_assoc]
  · rw [hjoined.place_edges, hjoined'.place_edges, hjoinedLeft.place_edges,
      hjoinedRight.place_edges, sup_assoc]

-- The laws hold of graphs exactly when no bidirectional edge of theirs joins a node to itself
-- and the two slots of each agree.
theorem mergeGraphs_laws_iff {other : Graph W T} (hbase : MergeInput base)
    (hoverlay : MergeInput overlay) (hother : MergeInput other)
    (hbound : base.csr.targets.length + overlay.csr.targets.length + other.csr.targets.length ≤
      2 ^ 32) :
    MergeLaws base overlay other ↔ Twinned base ∧ Twinned overlay ∧ Twinned other := by
  have hsettled := hbase.settled
  have hsettled' := hoverlay.settled
  have hsettled'' := hother.settled
  constructor
  · intro h
    exact ⟨(h.givesBack base (by simp)).twinned hsettled (by omega),
      (h.givesBack overlay (by simp)).twinned hsettled' (by omega),
      (h.givesBack other (by simp)).twinned hsettled'' (by omega)⟩
  · rintro ⟨htwinned, htwinned', htwinned''⟩
    constructor
    case total =>
      intro hash
      obtain ⟨merged, hmerged, -⟩ :=
        mergeGraphs_spec hash hsettled hsettled' (by omega) (by omega)
      exact ⟨merged, hmerged⟩
    case unites =>
      intro merged hmerged
      exact (joined_of_mergesTo hsettled hsettled' htwinned htwinned' (by omega) (by omega)
        hmerged).unites hsettled hsettled'
    case givesBack =>
      intro graph hgraph
      simp only [List.mem_cons, List.not_mem_nil, or_false] at hgraph
      obtain rfl | rfl | rfl := hgraph
      · exact givesBack_of_twinned hsettled htwinned (by omega)
      · exact givesBack_of_twinned hsettled' htwinned' (by omega)
      · exact givesBack_of_twinned hsettled'' htwinned'' (by omega)
    case comm =>
      intro merged merged' h h'
      exact alike_comm hsettled hsettled' htwinned htwinned' (by omega) (by omega) h h'
    case assoc =>
      intro left merged right merged' hleft h hright h'
      exact alike_assoc hsettled hsettled' hsettled'' htwinned htwinned' htwinned'' hbound hleft h
        hright h'

end Laws

-- Two nodes that belong together, and a node that belongs to itself.
def pairEdits : List (GraphEdit Nat Nat) :=
  [.operate (.addNode "a" "a" .File ["x"] 1 0), .operate (.addNode "b" "b" .File [] 2 0),
    .operate (.addEdge 1 0 "relates" 3 .Bidirectional false 0), .operate .finalize]

def loopEdits : List (GraphEdit Nat Nat) :=
  [.operate (.addNode "a" "a" .File [] 0 0),
    .operate (.addEdge 0 0 "relates" 3 .Bidirectional false 0), .operate .finalize]

theorem mergeInput_of_ids {edits : List (GraphEdit Nat Nat)} {ids : List String}
    (hfinal : (GraphEdit.run edits).finalized = true)
    (hids : nodeExternalIds (GraphEdit.run edits) = ids)
    (hvalid : ∀ s ∈ ids, isValidExternalId s = true) : MergeInput (GraphEdit.run edits) where
  built := ⟨edits, rfl⟩
  finalized := hfinal
  valid s i hi := by
    have hs := ((nodeExternalIds_spec (whole_run edits).registered).2 s i).mpr hi
    rw [hids] at hs
    exact hvalid s (List.mem_of_getElem? hs)

theorem mergeInput_pair : MergeInput (GraphEdit.run pairEdits) :=
  @mergeInput_of_ids pairEdits ["a", "b"] rfl (by decide +kernel) (by decide +kernel)

theorem mergeInput_loop : MergeInput (GraphEdit.run loopEdits) :=
  @mergeInput_of_ids loopEdits ["a"] rfl (by decide +kernel) (by decide +kernel)

theorem mergeGraphs_laws_pair :
    MergeLaws (GraphEdit.run pairEdits) (GraphEdit.run pairEdits) (GraphEdit.run pairEdits) := by
  have htwinned : Twinned (GraphEdit.run pairEdits) := by
    unfold Twinned
    decide +kernel
  exact (mergeGraphs_laws_iff mergeInput_pair mergeInput_pair mergeInput_pair
    (by decide +kernel)).mpr ⟨htwinned, htwinned, htwinned⟩

-- A merge doubles the edge of the node that belongs to itself.
theorem mergeGraphs_breeds_loop :
    ¬ ∀ base overlay other : Graph Nat Nat, MergeInput base → MergeInput overlay →
      MergeInput other → MergeLaws base overlay other := by
  intro h
  have hlaws := h _ _ _ mergeInput_loop mergeInput_loop mergeInput_loop
  have htwinned := (hlaws.givesBack _ List.mem_cons_self).twinned mergeInput_loop.settled
    (by decide +kernel)
  revert htwinned
  unfold Twinned
  decide +kernel

end M1nd.Ingest
