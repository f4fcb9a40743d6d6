import M1nd.Ingest.Merge.Records
import Mathlib.Algebra.BigOperators.Group.Multiset.Basic
import Mathlib.Data.Multiset.Count

namespace M1nd.Ingest

open M1nd.Core
open M1nd.Library.Pairing

variable {W T : Type}

section Canonical

theorem Link.mirrored_mirrored (link : Link W) : link.mirrored.mirrored = link := rfl

-- The link of a record is the one that was read, or its mirror image.
theorem recordLink_record (link : Link W) :
    recordLink link.record = link ∨
      link.direction = .Bidirectional ∧ recordLink link.record = link.mirrored := by
  obtain ⟨source, target, relation, direction, inhibitory, weight, causalStrength⟩ := link
  cases direction with
  | Forward =>
      left
      simp [recordLink, Link.record, Link.key, canonicalEdgeKey]
  | Bidirectional =>
      by_cases hswap : target < source
      · right
        simp [recordLink, Link.record, Link.key, canonicalEdgeKey, Link.mirrored, hswap]
      · left
        simp [recordLink, Link.record, Link.key, canonicalEdgeKey, hswap]

theorem expand_recordLink_perm (link : Link W) :
    (recordLink link.record).expand.Perm link.expand := by
  obtain he | ⟨hboth, he⟩ := recordLink_record link
  · rw [he]
  · have hmirrored : link.mirrored.direction = .Bidirectional := hboth
    rw [he, Link.expand, Link.expand, if_pos hboth, if_pos hmirrored, Link.mirrored_mirrored]
    exact List.Perm.swap ..

theorem key_recordLink (link : Link W) : (recordLink link.record).key = link.key := by
  obtain he | ⟨hboth, he⟩ := recordLink_record link
  · rw [he]
  · rw [he, Link.key_mirrored link hboth]

theorem ends_recordLink (link : Link W) :
    ∀ s ∈ [link.key.source, link.key.target], s = link.source ∨ s = link.target := by
  have hsource : link.key.source = (recordLink link.record).source := rfl
  have htarget : link.key.target = (recordLink link.record).target := rfl
  intro s hs
  rw [hsource, htarget] at hs
  obtain he | ⟨-, he⟩ := recordLink_record link
  · rw [he] at hs
    simpa using hs
  · rw [he] at hs
    simpa [Link.mirrored, or_comm] using hs

end Canonical

section Keys

variable [DecidableEq W] {xs ys zs : List (EdgeRecord W)}

-- Lists that agree key by key have the same records.
theorem perm_of_ofKey (h : ∀ key, ofKey key xs = ofKey key ys) : xs.Perm ys := by
  refine List.perm_iff_count.mpr fun record => ?_
  have hcount (edges : List (EdgeRecord W)) :
      (ofKey record.key edges).count record = edges.count record :=
    List.count_filter (decide_eq_true rfl)
  rw [← hcount xs, ← hcount ys, h]

omit [DecidableEq W] in
-- The sum over one list is at most that over two others, if it is so key by key.
theorem sum_le_of_ofKey (width : EdgeKey → Nat)
    (h : ∀ key, (ofKey key xs).length ≤ (ofKey key ys).length + (ofKey key zs).length) :
    (xs.map fun record => width record.key).sum ≤
      (ys.map fun record => width record.key).sum + (zs.map fun record => width record.key).sum := by
  have hcount (key : EdgeKey) (edges : List (EdgeRecord W)) :
      Multiset.count key (↑(edges.map EdgeRecord.key) : Multiset EdgeKey) =
        (ofKey key edges).length := by
    rw [Multiset.coe_count, List.count_eq_countP, List.countP_map, List.countP_eq_length_filter]
    rfl
  have hle : (↑(xs.map EdgeRecord.key) : Multiset EdgeKey) ≤
      ↑(ys.map EdgeRecord.key) + ↑(zs.map EdgeRecord.key) := by
    refine Multiset.le_iff_count.mpr fun key => ?_
    rw [Multiset.count_add, hcount, hcount, hcount]
    exact h key
  obtain ⟨rest, hrest⟩ := Multiset.le_iff_exists_add.mp hle
  have hsum := congrArg (fun keys : Multiset EdgeKey => (keys.map width).sum) hrest
  simp only [Multiset.map_add, Multiset.sum_add, Multiset.map_coe, Multiset.sum_coe,
    List.map_map] at hsum
  change (ys.map fun record => width record.key).sum + (zs.map fun record => width record.key).sum =
    (xs.map fun record => width record.key).sum + _ at hsum
  omega

end Keys

section Twinned

variable [Zero W] {graph : Graph W T}

-- Of each bidirectional edge the slot that is skipped is the mirror image of the one that is
-- read.
def Twinned (graph : Graph W T) : Prop :=
  ((((graph.slots.filter Slot.isCanonical).filter Slot.isBidirectional).map Slot.mirrored).map
    (linkOf graph)).Perm
      ((graph.slots.filter fun slot => ¬ slot.isCanonical).map (linkOf graph))

omit [Zero W] in
theorem map_linkOf_expand_slots (slots : List (Slot W)) :
    (slots.flatMap Slot.expand).map (linkOf graph) =
      (slots.map (linkOf graph)).flatMap Link.expand := by
  rw [List.map_flatMap, List.flatMap_map]
  exact List.flatMap_congr fun slot _ => linkOf_expand slot

-- It says that expanding the edges that are read gives all links back.
theorem twinned_iff :
    Twinned graph ↔ ((canonicalLinks graph).flatMap Link.expand).Perm (links graph) := by
  have hexpand := (flatMap_expand_perm (graph.slots.filter Slot.isCanonical)).map (linkOf graph)
  have hsplit := (List.filter_append_perm Slot.isCanonical graph.slots).map (linkOf graph)
  rw [map_linkOf_expand_slots, List.map_append] at hexpand
  rw [List.map_append] at hsplit
  simp only [Bool.not_eq_true, Bool.decide_eq_false, Twinned] at hsplit ⊢
  constructor
  · intro h
    exact hexpand.trans (((List.perm_append_left_iff _).mpr h).trans hsplit)
  · intro h
    exact (List.perm_append_left_iff _).mp ((hexpand.symm.trans h).trans hsplit.symm)

-- A bidirectional edge from a node to itself would need a twin that is skipped.
theorem Twinned.loopless (h : Twinned graph) (hwhole : Whole graph) (hfinal : graph.finalized = true)
    {link : Link W} (hlink : link ∈ canonicalLinks graph) (hboth : link.direction = .Bidirectional) :
    link.source ≠ link.target := by
  obtain ⟨slot, hslot, rfl⟩ := List.mem_map.mp hlink
  intro hends
  have hmirrored : linkOf graph slot.mirrored ∈
      (((graph.slots.filter Slot.isCanonical).filter Slot.isBidirectional).map Slot.mirrored).map
        (linkOf graph) :=
    List.mem_map_of_mem (List.mem_map_of_mem (List.mem_filter.mpr ⟨hslot, decide_eq_true hboth⟩))
  obtain ⟨twin, htwin, he⟩ := List.mem_map.mp (h.mem_iff.mp hmirrored)
  obtain ⟨hmem, hskipped⟩ := List.mem_filter.mp htwin
  obtain ⟨hsource, htarget⟩ := hwhole.slot_lt hfinal hmem
  have hname : nodeName graph twin.source = nodeName graph twin.target :=
    (congrArg Link.source he).trans (hends.symm.trans (congrArg Link.target he).symm)
  have hsame := nodeName_inj hwhole.registered hsource htarget hname
  simp only [Slot.isCanonical, hsame, Nat.lt_irrefl, and_false, not_false_eq_true, decide_true,
    not_true_eq_false, decide_false, Bool.false_eq_true] at hskipped

end Twinned

end M1nd.Ingest

namespace M1nd.Ingest

open M1nd.Core
open M1nd.Library.Pairing

variable {W T : Type} [Zero W]

-- A graph that a merge reads: a finalized one, or one without nodes, which is never finalized.
structure Settled (graph : Graph W T) : Prop where
  whole : Whole graph
  valid : ValidIds graph
  finalized : graph.finalized = true ∨ graph.nodes.count = 0

-- The edges of a graph as records, one for each canonical slot.
def edgeRecords (graph : Graph W T) : List (EdgeRecord W) :=
  (canonicalLinks graph).map Link.record

section Settled

variable {graph : Graph W T}

theorem links_of_empty (h : Whole graph) (hcount : graph.nodes.count = 0) :
    links graph = [] ∧ canonicalLinks graph = [] := by
  have hslots : graph.slots = [] := by
    have hrows : graph.csr.offsets.length - 1 = 0 := by
      have hcovered := h.sound.covered
      omega
    rw [Graph.slots, hrows]
    rfl
  rw [links, canonicalLinks, hslots]
  exact ⟨rfl, rfl⟩

theorem Settled.collectEdges_eq (h : Settled graph) (hbound : graph.csr.targets.length ≤ 2 ^ 32) :
    collectEdges graph = edgeRecords graph := by
  obtain hfinal | hcount := h.finalized
  · exact Ingest.collectEdges_eq h.whole hfinal hbound h.valid
  · rw [edgeRecords, (links_of_empty h.whole hcount).2, collectEdges, Graph.numNodes, hcount]
    rfl

-- The ends of an edge are nodes.
theorem Settled.ends (h : Settled graph) {link : Link W} (hlink : link ∈ canonicalLinks graph)
    {s : String} (hs : s = link.source ∨ s = link.target) : ∃ i, graph.resolveId s = some i := by
  obtain hfinal | hcount := h.finalized
  · obtain ⟨slot, hslot, rfl⟩ := List.mem_map.mp hlink
    obtain ⟨hsource, htarget⟩ := h.whole.slot_lt hfinal (List.mem_filter.mp hslot).1
    obtain rfl | rfl := hs
    · exact ⟨_, resolveId_nodeName h.whole.registered hsource⟩
    · exact ⟨_, resolveId_nodeName h.whole.registered htarget⟩
  · rw [(links_of_empty h.whole hcount).2] at hlink
    exact absurd hlink List.not_mem_nil

-- A graph in whose edges no bidirectional one joins a node to itself.
def Loopless (graph : Graph W T) : Prop :=
  ∀ link ∈ canonicalLinks graph, link.direction = .Bidirectional → link.source ≠ link.target

theorem Settled.loopless (h : Settled graph) (htwinned : Twinned graph) : Loopless graph := by
  obtain hfinal | hcount := h.finalized
  · exact fun link hlink hboth => htwinned.loopless h.whole hfinal hlink hboth
  · unfold Loopless
    rw [(links_of_empty h.whole hcount).2]
    exact nofun

theorem length_links (h : Whole graph) : (links graph).length = graph.csr.targets.length := by
  rw [links, List.length_map, Graph.slots, List.length_map]
  exact h.listed.length_edgeSlots

omit [Zero W] in
theorem summary_ne_bot_iff [Zero T] {s : String} :
    summary graph s ≠ ⊥ ↔ ∃ i, graph.resolveId s = some i := by
  cases hresolve : graph.resolveId s with
  | none => simp [summary_none hresolve]
  | some i => simp [summary_some hresolve]

theorem Fresh.whole_finalize (h : Fresh graph) : Whole graph.finalize := by
  have hstaged := h.whole.sound.staged
  have hnamed := h.whole.named.finalize h.whole.sound h.whole.listed
  have hlisted := h.whole.listed.finalize h.whole.sound
  rw [h.finalize_eq] at hnamed hlisted ⊢
  exact ⟨.of_rebuilt hstaged hstaged.rebuilt, hlisted, hnamed,
    h.whole.registered.extends rfl rfl h.whole.registered.faithful (.refl _)⟩

end Settled

section Ends

variable [Max W] {base overlay merged : Graph W T} {hash : HashOrder W} {record : EdgeRecord W}

-- The keys of the merged edges are keys of edges that were read.
theorem exists_link_of_mergedEdges (hbase : collectEdges base = edgeRecords base)
    (hoverlay : collectEdges overlay = edgeRecords overlay)
    (h : record ∈ mergedEdges hash base overlay) :
    ∃ link ∈ canonicalLinks base ++ canonicalLinks overlay, link.key = record.key := by
  obtain ⟨read, hread, hkey⟩ := key_of_mem_mergedEdges h
  rw [hbase, hoverlay, edgeRecords, edgeRecords, ← List.map_append] at hread
  obtain ⟨link, hlink, rfl⟩ := List.mem_map.mp hread
  exact ⟨link, hlink, hkey⟩

omit [Zero W] [Max W] in
theorem record_recordLink {link : Link W} (h : link.key = record.key) :
    (recordLink record).record = record := by
  have hkey : (recordLink record).key = (recordLink link.record).key := by
    unfold Link.key recordLink
    rw [← h]
    rfl
  rw [key_recordLink, h] at hkey
  unfold Link.record
  rw [hkey]
  rfl

omit [Zero W] [Max W] in
-- The link of a record joins the nodes that a link of its key joins.
theorem recordLink_loopless {link : Link W} (h : link.key = record.key)
    (hloop : link.direction = .Bidirectional → link.source ≠ link.target)
    (hboth : (recordLink record).direction = .Bidirectional) :
    (recordLink record).source ≠ (recordLink record).target := by
  have hsource : (recordLink record).source = (recordLink link.record).source :=
    congrArg EdgeKey.source h.symm
  have htarget : (recordLink record).target = (recordLink link.record).target :=
    congrArg EdgeKey.target h.symm
  have hdirection : (recordLink record).direction = (recordLink link.record).direction := by
    unfold recordLink
    rw [← h]
    rfl
  rw [hdirection] at hboth
  rw [hsource, htarget]
  obtain he | ⟨hlink, he⟩ := recordLink_record link
  · rw [he] at hboth ⊢
    exact hloop hboth
  · rw [he]
    exact (hloop hlink).symm

-- The staged edges are those of the records.
structure Stages (merged : Graph W T) (records : List (EdgeRecord W)) : Prop where
  fresh : Fresh merged
  staged : stagedLinks merged = records.map recordLink
  canonical : ∀ record ∈ records, (recordLink record).record = record

omit [Max W]

variable {records : List (EdgeRecord W)}

omit [Zero W] in
theorem Stages.exists_record (h : Stages merged records) {edge : PendingEdge W}
    (hedge : edge ∈ merged.csr.pendingEdges) :
    ∃ record ∈ records, stagedLink merged edge = recordLink record := by
  have hmem : stagedLink merged edge ∈ stagedLinks merged := List.mem_map_of_mem hedge
  rw [h.staged] at hmem
  obtain ⟨record, hrecord, he⟩ := List.mem_map.mp hmem
  exact ⟨record, hrecord, he.symm⟩

omit [Zero W] in
theorem Stages.aligned (h : Stages merged records) : Aligned merged := by
  intro edge hedge edge' hedge' hkeys
  obtain ⟨record, hrecord, he⟩ := h.exists_record hedge
  obtain ⟨record', hrecord', he'⟩ := h.exists_record hedge'
  have hkey : record.key = record'.key := by
    rw [← h.canonical record hrecord, ← h.canonical record' hrecord', ← he, ← he']
    exact hkeys
  have hname : (stagedLink merged edge).source = (stagedLink merged edge').source := by
    rw [he, he']
    exact congrArg EdgeKey.source hkey
  have hstaged := h.fresh.whole.sound.staged
  exact nodeName_inj h.fresh.whole.registered (hstaged edge hedge).1 (hstaged edge' hedge').1 hname

omit [Zero W] in
theorem Stages.loopFree (h : Stages merged records)
    (hloop : ∀ record ∈ records, (recordLink record).direction = .Bidirectional →
      (recordLink record).source ≠ (recordLink record).target) : LoopFree merged := by
  intro edge hedge hboth hsame
  obtain ⟨record, hrecord, he⟩ := h.exists_record hedge
  refine hloop record hrecord (he ▸ hboth) ?_
  rw [← he]
  exact congrArg (nodeName merged) hsame

theorem Stages.links_finalize (h : Stages merged records) :
    (links merged.finalize).Perm (records.flatMap fun record => (recordLink record).expand) := by
  have hperm := h.fresh.links_perm
  rw [h.staged, List.flatMap_map] at hperm
  exact hperm

theorem Stages.edgeRecords_finalize (h : Stages merged records)
    (hloop : ∀ record ∈ records, (recordLink record).direction = .Bidirectional →
      (recordLink record).source ≠ (recordLink record).target) (key : EdgeKey) :
    ofKey key (edgeRecords merged.finalize) = ofKey key records := by
  have hkept := h.fresh.records_finalize (h.loopFree hloop) h.aligned key
  have hrecords : (stagedLinks merged).map Link.record = records := by
    rw [h.staged, List.map_map]
    refine (List.map_congr_left fun record hrecord => ?_).trans (List.map_id _)
    exact h.canonical record hrecord
  rw [hrecords] at hkept
  exact hkept

end Ends

-- What a merge gives: the join of the nodes, and the edges of the paired records.
structure Merges (hash : HashOrder W) [Zero T] [LinearOrder W] [LinearOrder T]
    (base overlay merged : Graph W T) : Prop where
  settled : Settled merged
  summary : summary merged = summary base ⊔ summary overlay
  links : (links merged).Perm
    ((mergedEdges hash base overlay).flatMap fun record => (recordLink record).expand)
  records : Loopless base → Loopless overlay → ∀ key,
    ofKey key (edgeRecords merged) = ofKey key (mergedEdges hash base overlay)

section Merging

variable [Zero T] [LinearOrder W] [LinearOrder T] {base overlay : Graph W T} {hash : HashOrder W}

omit [Zero W] [LinearOrder W] [LinearOrder T] in
theorem summary_new : summary (Graph.new : Graph W T) = ⊥ := by
  funext s
  refine summary_none ?_
  simp [Graph.resolveId, Graph.new, StringInterner.lookup, StringInterner.new]

theorem mergeGraphs_spec (hash : HashOrder W) (hbase : Settled base) (hoverlay : Settled overlay)
    (hbound : base.csr.targets.length ≤ 2 ^ 32) (hbound' : overlay.csr.targets.length ≤ 2 ^ 32) :
    ∃ merged, mergeGraphs hash base overlay = .ok merged ∧ Merges hash base overlay merged := by
  have hread := hbase.collectEdges_eq hbound
  have hread' := hoverlay.collectEdges_eq hbound'
  obtain ⟨first, hfirst, hbare, hsummary⟩ :=
    (bare_new (W := W) (T := T)).mergeNodes hbase.whole.registered hbase.valid
  obtain ⟨nodes, hnodes, hbare', hsummary'⟩ :=
    hbare.mergeNodes hoverlay.whole.registered hoverlay.valid
  rw [summary_new, bot_sup_eq] at hsummary
  rw [hsummary] at hsummary'
  have hresolves {s : String} : (∃ i, nodes.resolveId s = some i) ↔
      (∃ i, base.resolveId s = some i) ∨ ∃ i, overlay.resolveId s = some i := by
    rw [← summary_ne_bot_iff, ← summary_ne_bot_iff, ← summary_ne_bot_iff, hsummary', Pi.sup_apply,
      Ne, sup_eq_bot_iff, not_and_or]
  have hlinks {record : EdgeRecord W} (hrecord : record ∈ mergedEdges hash base overlay) :=
    exists_link_of_mergedEdges hread hread' hrecord
  have hends : ∀ record ∈ mergedEdges hash base overlay,
      ∀ s ∈ [record.key.source, record.key.target], ∃ i, nodes.resolveId s = some i := by
    intro record hrecord s hs
    obtain ⟨link, hlink, hkey⟩ := hlinks hrecord
    rw [← hkey] at hs
    have hs := ends_recordLink link s hs
    rw [hresolves]
    obtain hlink | hlink := List.mem_append.mp hlink
    · exact .inl (hbase.ends hlink hs)
    · exact .inr (hoverlay.ends hlink hs)
  have hfresh : Fresh nodes := by
    refine ⟨hbare'.whole, hbare'.finalized, ?_⟩
    rw [hbare'.csr]
    rfl
  obtain ⟨merged, hmerged, hfresh', hsame, hids, hsummary'', hstaged⟩ :=
    hfresh.addRecords (mergedEdges hash base overlay) hends
  have hnone : stagedLinks nodes = [] := by
    rw [stagedLinks, hbare'.csr]
    rfl
  rw [hnone, List.nil_append] at hstaged
  have hstages : Stages merged (mergedEdges hash base overlay) := by
    refine ⟨hfresh', hstaged, fun record hrecord => ?_⟩
    obtain ⟨link, -, hkey⟩ := hlinks hrecord
    exact record_recordLink hkey
  have hvalid : ValidIds merged := by
    intro s i hi
    obtain ⟨i, hi⟩ | ⟨i, hi⟩ := hresolves.mp ⟨i, (hids s).symm.trans hi⟩
    · exact hbase.valid s i hi
    · exact hoverlay.valid s i hi
  have hmerge : mergeGraphs hash base overlay =
      .ok (if 0 < merged.numNodes then merged.finalize else merged) := by
    unfold mergeGraphs
    rw [hfirst]
    change (Ingest.mergeNodes first overlay >>= _) = _
    rw [hnodes]
    change (List.foldlM Ingest.addRecord nodes (mergedEdges hash base overlay) >>= _) = _
    rw [hmerged]
    rfl
  refine ⟨_, hmerge, ?_⟩
  have hsummaries : summary merged = summary base ⊔ summary overlay := hsummary''.trans hsummary'
  by_cases hnodes : 0 < merged.numNodes
  · rw [if_pos hnodes]
    have heq := hfresh'.finalize_eq
    refine ⟨⟨hfresh'.whole_finalize, ?_, .inl ?_⟩, ?_, hstages.links_finalize, ?_⟩
    · rw [heq]
      exact hvalid
    · rw [heq]
      rfl
    · rw [heq]
      exact hsummaries
    · intro hloop hloop' key
      refine hstages.edgeRecords_finalize (fun record hrecord => ?_) key
      obtain ⟨link, hlink, hkey⟩ := hlinks hrecord
      obtain hlink | hlink := List.mem_append.mp hlink
      · exact recordLink_loopless hkey (hloop link hlink)
      · exact recordLink_loopless hkey (hloop' link hlink)
  · rw [if_neg hnodes]
    have hcount : merged.nodes.count = 0 := by
      change ¬ 0 < merged.nodes.count at hnodes
      omega
    have hedges : mergedEdges hash base overlay = [] := by
      refine List.eq_nil_iff_forall_not_mem.mpr fun record hrecord => ?_
      obtain ⟨i, hi⟩ := hends record hrecord _ List.mem_cons_self
      have hlt := resolveId_lt hfresh'.whole.registered ((hids _).trans hi)
      omega
    have hlinks := links_of_empty hfresh'.whole hcount
    refine ⟨⟨hfresh'.whole, hvalid, .inr hcount⟩, hsummaries, ?_, fun _ _ key => ?_⟩
    · rw [hlinks.1, hedges]
      exact .nil
    · rw [edgeRecords, hlinks.2, hedges]
      rfl

end Merging

end M1nd.Ingest
