import M1nd.Ingest.Merge.Prune
import Mathlib.Algebra.Order.BigOperators.Group.List

namespace M1nd.Ingest

open M1nd.Core
open M1nd.Library.Collections (lookup_eq_some_iff)
open M1nd.Library.Pairing

variable {W T : Type}

section Claims

variable [Zero W] {graph : Graph W T} {key : EdgeKey} {s : String}

theorem mem_foldl_pushNew {α : Type} [DecidableEq α] {items seen : List α} {item : α} :
    item ∈ items.foldl pushNew seen ↔ item ∈ seen ∨ item ∈ items := by
  induction items generalizing seen with
  | nil => simp
  | cons first items ih =>
      rw [List.foldl_cons, ih, pushNew, List.mem_cons]
      by_cases hfirst : first ∈ seen
      · rw [if_pos hfirst]
        grind
      · rw [if_neg hfirst, List.mem_append, List.mem_singleton]
        grind

-- A source claims the edges that a merge reads of it, whatever nodes it claims.
theorem mem_claimed_edges :
    key ∈ (collectSourceClaims graph).edges ↔ ∃ record ∈ collectEdges graph, record.key = key := by
  have hedges : (collectSourceClaims graph).edges =
      ((collectEdges graph).map EdgeRecord.key).foldl pushNew [] := rfl
  rw [hedges, mem_foldl_pushNew, List.mem_map]
  simp

-- A source claims nodes of its own only.
theorem resolves_of_claimed (h : graph.Registered)
    (hs : s ∈ (collectSourceClaims graph).nodeIds) : ∃ i, graph.resolveId s = some i := by
  obtain ⟨hlength, hspec⟩ := nodeExternalIds_spec h
  have hfold (indices : List Nat) (claims : SourceClaims)
      (hindices : ∀ i ∈ indices, i < (nodeExternalIds graph).length)
      (hclaims : ∀ s ∈ claims.nodeIds, s ∈ nodeExternalIds graph) :
      ∀ s ∈ (indices.foldl (claimNode graph (nodeExternalIds graph)) claims).nodeIds,
        s ∈ nodeExternalIds graph := by
    induction indices generalizing claims with
    | nil => exact hclaims
    | cons i indices ih =>
        obtain ⟨hi, hindices⟩ := List.forall_mem_cons.mp hindices
        refine ih _ hindices fun s hs => ?_
        simp only [claimNode] at hs
        split at hs
        · exact hclaims s hs
        · split at hs
          · have hmem : s ∈ pushNew claims.nodeIds ((nodeExternalIds graph).getD i "") := hs
            unfold pushNew at hmem
            split at hmem
            · exact hclaims s hmem
            · obtain hmem | hmem := List.mem_append.mp hmem
              · exact hclaims s hmem
              · rw [List.mem_singleton.mp hmem, List.getD_eq_getElem _ _ hi]
                exact List.getElem_mem hi
          · exact hclaims s hs
  have hmem := hfold (List.range (nodeExternalIds graph).length) ⟨none, [], []⟩
    (fun i hi => List.mem_range.mp hi) nofun s hs
  obtain ⟨i, hi⟩ := List.mem_iff_getElem?.mp hmem
  exact ⟨i, (hspec s i).mp hi⟩

end Claims

-- A source claims an item, and no other one does.
def OnlyClaims {α : Type} (claimed : SourceClaims → List α)
    (claimsBySource : List (String × SourceClaims)) (source : String) (item : α) : Prop :=
  (∃ entry ∈ claimsBySource, entry.1 = source ∧ item ∈ claimed entry.2) ∧
    ∀ entry ∈ claimsBySource, entry.1 ≠ source → item ∉ claimed entry.2

instance {α : Type} [DecidableEq α] (claimed : SourceClaims → List α)
    (claimsBySource : List (String × SourceClaims)) (source : String) (item : α) :
    Decidable (OnlyClaims claimed claimsBySource source item) :=
  inferInstanceAs (Decidable (_ ∧ _))

theorem mem_claimedAlone {α : Type} [DecidableEq α] {claimed : SourceClaims → List α}
    {claimsBySource : List (String × SourceClaims)} {source : String} {targetClaims : SourceClaims}
    (hnames : (claimsBySource.map Prod.fst).Nodup)
    (hclaims : claimsBySource.lookup source = some targetClaims) {item : α} :
    item ∈ claimedAlone claimed claimsBySource source targetClaims ↔
      OnlyClaims claimed claimsBySource source item := by
  have hentry := (lookup_eq_some_iff hnames).mp hclaims
  have htarget : item ∈ claimed targetClaims ↔
      ∃ entry ∈ claimsBySource, entry.1 = source ∧ item ∈ claimed entry.2 := by
    constructor
    · exact fun hitem => ⟨_, hentry, rfl, hitem⟩
    · rintro ⟨entry, hmem, rfl, hitem⟩
      have hfound := (lookup_eq_some_iff hnames).mpr hmem
      rw [hclaims] at hfound
      rwa [Option.some.inj hfound]
  rw [OnlyClaims, ← htarget, claimedAlone, List.mem_filter]
  simp only [Bool.not_eq_true', List.any_eq_false, Bool.and_eq_true, decide_eq_true_eq, not_and]

section Runs

variable [Zero W] [Zero T] [LinearOrder W] [LinearOrder T]

-- The sources are merged one after the other, each under an order of its own hash map.
inductive MergedInOrder : List (Graph W T) → Graph W T → Prop
  | nil : MergedInOrder [] Graph.new
  | step {graphs : List (Graph W T)} {base graph next : Graph W T} :
      MergedInOrder graphs base → MergesTo base graph next → MergedInOrder (graphs ++ [graph]) next

variable {graph base : Graph W T} {graphs : List (Graph W T)}

omit [Zero T] [LinearOrder W] [LinearOrder T] in
theorem exists_link_iff (graph : Graph W T) (key : EdgeKey) :
    (∃ link ∈ canonicalLinks graph, link.key = key) ↔
      0 < (ofKey key (edgeRecords graph)).length := by
  rw [List.length_pos_iff_exists_mem]
  constructor
  · rintro ⟨link, hlink, rfl⟩
    exact ⟨link.record, List.mem_filter.mpr ⟨List.mem_map_of_mem hlink, decide_eq_true rfl⟩⟩
  · rintro ⟨record, hrecord⟩
    obtain ⟨link, hlink, rfl⟩ := List.mem_map.mp (List.mem_filter.mp hrecord).1
    exact ⟨link, hlink, key_of_mem_ofKey hrecord⟩

omit [Zero T] [LinearOrder W] [LinearOrder T] in
theorem edgeWidth_le (h : Whole graph) : edgeWidth graph ≤ 2 * graph.csr.targets.length := by
  have hcount : (edgeRecords graph).length ≤ graph.csr.targets.length := by
    rw [← length_links h, edgeRecords, canonicalLinks, links, List.length_map, List.length_map,
      List.length_map]
    exact List.length_filter_le ..
  have hsum := List.sum_le_card_nsmul
    ((edgeRecords graph).map fun record => slotWidth record.key) 2 (by
      intro width hwidth
      obtain ⟨record, -, rfl⟩ := List.mem_map.mp hwidth
      unfold slotWidth
      split <;> omega)
  rw [List.length_map] at hsum
  change edgeWidth graph ≤ (edgeRecords graph).length * 2 at hsum
  omega

-- What the merge of the sources holds.
structure Based (graphs : List (Graph W T)) (base : Graph W T) : Prop where
  settled : Settled base
  twinned : Twinned base
  length : base.csr.targets.length ≤ 2 * (graphs.map fun graph => graph.csr.targets.length).sum
  ids : ∀ s, (∃ i, base.resolveId s = some i) ↔ ∃ graph ∈ graphs, ∃ i, graph.resolveId s = some i
  keys : ∀ key, (∃ link ∈ canonicalLinks base, link.key = key) ↔
    ∃ graph ∈ graphs, ∃ link ∈ canonicalLinks graph, link.key = key

theorem MergedInOrder.based (h : MergedInOrder graphs base)
    (hinput : ∀ graph ∈ graphs, MergeInput graph ∧ Loopless graph)
    (hbound : 2 * (graphs.map fun graph => graph.csr.targets.length).sum ≤ 2 ^ 32) :
    Based graphs base := by
  induction h with
  | nil =>
      have hlinks := @links_of_empty W T _ Graph.new bare_new.whole rfl
      refine ⟨settled_new, twinned_new, Nat.zero_le _, fun s => ?_, fun key => ?_⟩
      · rw [← summary_ne_bot_iff, summary_new]
        simp
      · rw [hlinks.2]
        simp
  | @step graphs base graph next hmerged hnext ih =>
      rw [List.map_append, List.sum_append, List.map_cons, List.map_nil, List.sum_singleton] at hbound
      obtain ⟨hsettled, htwinned, hlength, hids, hkeys⟩ :=
        ih (fun graph hgraph => hinput graph (List.mem_append_left _ hgraph)) (by omega)
      obtain ⟨hgraph, hloop⟩ := hinput graph (by simp)
      have hsettled' := hgraph.settled
      have hread := hsettled.collectEdges_eq (by omega)
      have hread' := hsettled'.collectEdges_eq (by omega)
      obtain ⟨hash, hmerges⟩ := merges_of_mergesTo hsettled hsettled' (by omega) (by omega) hnext
      have hloop' := hsettled.loopless htwinned
      have hwidth := hmerges.length_le hread hread'
      have hwidth' := edgeWidth_le hsettled'.whole
      rw [← htwinned.length_eq hsettled.whole] at hwidth
      refine ⟨hmerges.settled, hmerges.twinned hloop' hloop, ?_, fun s => ?_, fun key => ?_⟩
      · rw [List.map_append, List.sum_append, List.map_cons, List.map_nil, List.sum_singleton]
        omega
      · rw [← summary_ne_bot_iff, hmerges.summary, Pi.sup_apply, Ne, sup_eq_bot_iff, not_and_or,
          ← Ne, ← Ne, summary_ne_bot_iff, summary_ne_bot_iff, hids]
        simp [or_and_right, exists_or]
      · have hnextKey := exists_link_iff next key
        rw [hmerges.records hloop' hloop, ofKey_mergedEdges, length_pairUp, hread, hread',
          lt_max_iff, ← exists_link_iff, ← exists_link_iff, hkeys] at hnextKey
        rw [hnextKey]
        simp [or_and_right, exists_or]

def claimsOf (sources : List (String × Graph W T)) : List (String × SourceClaims) :=
  sources.map fun source => (source.1, collectSourceClaims source.2)

-- Exactly what the source claims alone is gone. Both slots of an edge count.
structure Prunes (claimsBySource : List (String × SourceClaims)) (source : String)
    (base pruned : Graph W T) : Prop where
  nodes : ∀ id, nodeAt pruned id =
    if OnlyClaims SourceClaims.nodeIds claimsBySource source id then none
    else (nodeAt base id).map storedView
  links : (links pruned).Perm ((links base).filter fun link =>
    decide (¬ OnlyClaims SourceClaims.nodeIds claimsBySource source link.source) &&
      decide (¬ OnlyClaims SourceClaims.nodeIds claimsBySource source link.target) &&
        decide (¬ OnlyClaims SourceClaims.edges claimsBySource source link.key))

structure SourceInput (sources : List (String × Graph W T)) (base : Graph W T) : Prop where
  names : (sources.map Prod.fst).Nodup
  inputs : ∀ source ∈ sources, MergeInput source.2
  merged : MergedInOrder (sources.map Prod.snd) base

omit [Zero W] [Zero T] [LinearOrder W] [LinearOrder T] in
theorem key_ends (link : Link W) :
    ∀ s ∈ [link.source, link.target], s = link.key.source ∨ s = link.key.target := by
  have hsource : link.key.source = (recordLink link.record).source := rfl
  have htarget : link.key.target = (recordLink link.record).target := rfl
  intro s hs
  rw [hsource, htarget]
  obtain he | ⟨-, he⟩ := recordLink_record link
  · rw [he]
    simpa using hs
  · rw [he]
    simpa [Link.mirrored, or_comm] using hs

omit [Zero W] [Zero T] [LinearOrder W] [LinearOrder T] in
theorem resolves_iff_nodeAt {s : String} :
    (∃ i, graph.resolveId s = some i) ↔ nodeAt graph s ≠ none := by
  rw [nodeAt, ne_eq, Option.map_eq_none_iff, ← ne_eq, Option.ne_none_iff_exists']

variable {pruned : Graph W T} {claimsBySource : List (String × SourceClaims)} {source : String}

omit [Zero T] [LinearOrder W] [LinearOrder T] in
theorem Prunes.resolves_iff (h : Prunes claimsBySource source base pruned) {s : String} :
    (∃ i, pruned.resolveId s = some i) ↔ (∃ i, base.resolveId s = some i) ∧
      ¬ OnlyClaims SourceClaims.nodeIds claimsBySource source s := by
  rw [resolves_iff_nodeAt, resolves_iff_nodeAt, h.nodes]
  by_cases honly : OnlyClaims SourceClaims.nodeIds claimsBySource source s
  · simp [honly]
  · simp [honly]

omit [Zero T] [LinearOrder W] [LinearOrder T] in
-- What is gone once cannot go again.
theorem Prunes.again {again : Graph W T} (h : Prunes claimsBySource source base pruned)
    (h' : Prunes claimsBySource source pruned again) :
    nodeAt again = nodeAt pruned ∧ (Ingest.links again).Perm (Ingest.links pruned) := by
  constructor
  · funext s
    rw [h'.nodes, h.nodes]
    by_cases honly : OnlyClaims SourceClaims.nodeIds claimsBySource source s
    · rw [if_pos honly, if_pos honly]
    · rw [if_neg honly, if_neg honly, nodeAt]
      cases base.resolveId s with
      | none => rfl
      | some i => exact congrArg some (storedView_nodeView base i)
  · refine h'.links.trans (List.Perm.of_eq (List.filter_eq_self.mpr fun link hlink => ?_))
    exact (List.mem_filter.mp (h.links.mem_iff.mp hlink)).2

omit [Zero T] [LinearOrder W] [LinearOrder T] in
-- An edge between nodes that are left is left, if the source does not claim it alone.
theorem Prunes.exists_link (h : Prunes claimsBySource source base pruned) {link : Link W}
    (hlink : link ∈ Ingest.links base)
    (hkey : ¬ OnlyClaims SourceClaims.edges claimsBySource source link.key)
    (hends : ∀ s, s = link.key.source ∨ s = link.key.target → ∃ i, pruned.resolveId s = some i) :
    link ∈ Ingest.links pruned := by
  have hsource := h.resolves_iff.mp (hends _ (key_ends link _ List.mem_cons_self))
  have htarget := h.resolves_iff.mp (hends _ (key_ends link link.target (by simp)))
  refine h.links.mem_iff.mpr (List.mem_filter.mpr ⟨hlink, ?_⟩)
  simp only [hsource.2, htarget.2, hkey, not_false_eq_true, decide_true, Bool.and_self]

omit [LinearOrder W] [LinearOrder T] [Zero T] in
theorem canonicalLinks_subset (graph : Graph W T) : canonicalLinks graph ⊆ links graph :=
  List.map_subset _ (List.filter_subset_self _)

omit [Zero T] [LinearOrder W] [LinearOrder T] in
theorem prunes_of_prunedTo {targetClaims : SourceClaims}
    (hnames : (claimsBySource.map Prod.fst).Nodup)
    (hclaims : claimsBySource.lookup source = some targetClaims)
    (h : PrunedTo base pruned
      (claimedAlone SourceClaims.nodeIds claimsBySource source targetClaims)
      (claimedAlone SourceClaims.edges claimsBySource source targetClaims)) :
    Prunes claimsBySource source base pruned where
  nodes id := by simpa only [mem_claimedAlone hnames hclaims] using h.nodes id
  links := by simpa only [mem_claimedAlone hnames hclaims] using h.links

theorem pruneSourceClaims_exact {sources : List (String × Graph W T)} {base : Graph W T}
    (hinput : SourceInput sources base) (hloop : ∀ source ∈ sources, Loopless source.2)
    (hbound : 2 * (sources.map fun source => source.2.csr.targets.length).sum ≤ 2 ^ 32)
    {target : String} (htarget : target ∈ sources.map Prod.fst) (hash : HashOrder W) :
    ∃ pruned, pruneSourceClaims hash base target (claimsOf sources) = .ok pruned ∧
      Prunes (claimsOf sources) target base pruned ∧
      (∀ other ∈ sources, other.1 ≠ target →
        (∀ id ∈ (collectSourceClaims other.2).nodeIds, ∃ i, pruned.resolveId id = some i) ∧
        ∀ key ∈ (collectSourceClaims other.2).edges,
          (∃ i, pruned.resolveId key.source = some i) →
            (∃ i, pruned.resolveId key.target = some i) → ∃ link ∈ links pruned, link.key = key) ∧
      ∀ hash', ∃ again, pruneSourceClaims hash' pruned target (claimsOf sources) = .ok again ∧
        nodeAt again = nodeAt pruned ∧ (links again).Perm (links pruned) := by
  have hbased : Based (sources.map Prod.snd) base := by
    refine hinput.merged.based (fun graph hgraph => ?_) ?_
    · obtain ⟨source, hsource, rfl⟩ := List.mem_map.mp hgraph
      exact ⟨hinput.inputs source hsource, hloop source hsource⟩
    · rw [List.map_map]
      exact hbound
  have hlength := hbased.length
  rw [List.map_map] at hlength
  change _ ≤ 2 * (sources.map fun source => source.2.csr.targets.length).sum at hlength
  have hnames : ((claimsOf sources).map Prod.fst).Nodup := by
    rw [claimsOf, List.map_map]
    exact hinput.names
  obtain ⟨source, hsource, rfl⟩ := List.mem_map.mp htarget
  have hclaims : (claimsOf sources).lookup source.1 = some (collectSourceClaims source.2) :=
    (lookup_eq_some_iff hnames).mpr (List.mem_map_of_mem hsource)
  obtain ⟨pruned, hpruned, hto⟩ :=
    pruneSourceClaims_spec hash hbased.settled hbased.twinned (by omega) hclaims
  have hprunes := prunes_of_prunedTo hnames hclaims hto
  refine ⟨pruned, hpruned, hprunes, fun other hother hne => ⟨fun id hid => ?_, ?_⟩, fun hash' => ?_⟩
  · have hregistered := (hinput.inputs other hother).settled.whole.registered
    refine hprunes.resolves_iff.mpr ⟨?_, fun honly => ?_⟩
    · exact (hbased.ids id).mpr ⟨other.2, List.mem_map_of_mem hother, resolves_of_claimed hregistered hid⟩
    · exact honly.2 _ (List.mem_map_of_mem hother) hne hid
  · intro key hkey hstart hend
    have hsettled := (hinput.inputs other hother).settled
    have hsize : other.2.csr.targets.length ≤
        (sources.map fun source => source.2.csr.targets.length).sum :=
      List.single_le_sum (fun _ _ => Nat.zero_le _) _
        (List.mem_map_of_mem (f := fun source : String × Graph W T => source.2.csr.targets.length) hother)
    obtain ⟨record, hrecord, rfl⟩ := mem_claimed_edges.mp hkey
    rw [hsettled.collectEdges_eq (by omega)] at hrecord
    obtain ⟨read, hread, rfl⟩ := List.mem_map.mp hrecord
    obtain ⟨link, hlink, he⟩ :=
      (hbased.keys read.key).mpr ⟨other.2, List.mem_map_of_mem hother, read, hread, rfl⟩
    refine ⟨link, hprunes.exists_link (canonicalLinks_subset base hlink) (fun honly => ?_) ?_, he⟩
    · rw [he] at honly
      exact honly.2 _ (List.mem_map_of_mem hother) hne hkey
    · rw [he]
      rintro s (rfl | rfl)
      · exact hstart
      · exact hend
  · have hfewer : pruned.csr.targets.length ≤ base.csr.targets.length := by
      rw [← length_links hto.settled.whole, ← length_links hbased.settled.whole,
        hprunes.links.length_eq]
      exact List.length_filter_le ..
    obtain ⟨again, hagain, hto'⟩ :=
      pruneSourceClaims_spec hash' hto.settled hto.twinned (by omega) hclaims
    exact ⟨again, hagain, hprunes.again (prunes_of_prunedTo hnames hclaims hto')⟩

end Runs

section Cited

-- A document of its own, and another one that cites it.
def citedEdits : List (GraphEdit Nat Nat) :=
  [.operate (.addNode "x" "x" .File [] 0 0),
    .setNodeProvenance 0 { ResolvedNodeProvenance.default with canonical := true },
    .operate .finalize]

def citingEdits : List (GraphEdit Nat Nat) :=
  [.operate (.addNode "x" "x" .File [] 0 0), .operate (.addNode "y" "y" .File [] 0 0),
    .setNodeProvenance 1 { ResolvedNodeProvenance.default with canonical := true },
    .operate (.addEdge 1 0 "cites" 1 .Forward false 0), .operate .finalize]

def citedSources : List (String × Graph Nat Nat) :=
  [("x.md", GraphEdit.run citedEdits), ("y.md", GraphEdit.run citingEdits)]

def listOrder : HashOrder Nat :=
  ⟨id, fun _ => .refl _⟩

theorem citedSources_inputs : ∀ source ∈ citedSources, MergeInput source.2 ∧ Loopless source.2 := by
  intro source hsource
  simp only [citedSources, List.mem_cons, List.not_mem_nil, or_false] at hsource
  obtain rfl | rfl := hsource
  · refine ⟨@mergeInput_of_ids citedEdits ["x"] rfl (by decide +kernel) (by decide +kernel), ?_⟩
    unfold Loopless
    decide +kernel
  · refine ⟨@mergeInput_of_ids citingEdits ["x", "y"] rfl (by decide +kernel) (by decide +kernel), ?_⟩
    unfold Loopless
    decide +kernel

theorem exists_citedSources_merged : ∃ base, SourceInput citedSources base := by
  have hcited := (citedSources_inputs _ List.mem_cons_self).1.settled
  have hciting := (citedSources_inputs _ (List.mem_cons_of_mem _ List.mem_cons_self)).1.settled
  obtain ⟨first, hfirst, hmerges⟩ :=
    mergeGraphs_spec listOrder settled_new hcited (Nat.zero_le _) (by decide +kernel)
  have hmerged : MergedInOrder [GraphEdit.run citedEdits] first :=
    .step .nil ⟨listOrder, hfirst⟩
  have hbased := hmerged.based (fun graph hgraph => by
    rw [List.mem_singleton.mp hgraph]
    exact citedSources_inputs _ List.mem_cons_self) (by decide +kernel)
  have hlength := hbased.length
  have hsmall : 2 * ([GraphEdit.run citedEdits].map fun graph => graph.csr.targets.length).sum ≤
      2 ^ 32 := by decide +kernel
  obtain ⟨base, hbase, -⟩ :=
    mergeGraphs_spec listOrder hmerges.settled hciting (hlength.trans hsmall) (by decide +kernel)
  refine ⟨base, by decide +kernel, fun source hsource => (citedSources_inputs source hsource).1, ?_⟩
  exact .step hmerged ⟨listOrder, hbase⟩

theorem pruneSourceClaims_exact_cited : ∃ base pruned, SourceInput citedSources base ∧
    pruneSourceClaims listOrder base "x.md" (claimsOf citedSources) = .ok pruned ∧
    Prunes (claimsOf citedSources) "x.md" base pruned := by
  obtain ⟨base, hbase⟩ := exists_citedSources_merged
  obtain ⟨pruned, hpruned, hprunes, -⟩ := pruneSourceClaims_exact hbase
    (fun source hsource => (citedSources_inputs source hsource).2) (by decide +kernel)
    (List.mem_cons_self : "x.md" ∈ citedSources.map Prod.fst) listOrder
  exact ⟨base, pruned, hbase, hpruned, hprunes⟩

-- The citing document keeps its claim, but the node at the other end goes with its only
-- claimant, and the edge goes with the node.
theorem pruneSourceClaims_drops_citation :
    ¬ ∀ (sources : List (String × Graph Nat Nat)) (base : Graph Nat Nat) (target : String)
      (hash : HashOrder Nat), SourceInput sources base → target ∈ sources.map Prod.fst →
      ∃ pruned, pruneSourceClaims hash base target (claimsOf sources) = .ok pruned ∧
        ∀ other ∈ sources, other.1 ≠ target → ∀ key ∈ (collectSourceClaims other.2).edges,
          ∃ link ∈ links pruned, link.key = key := by
  intro h
  obtain ⟨base, hbase⟩ := exists_citedSources_merged
  have hclaims : (claimsOf citedSources).lookup "x.md" =
      some (collectSourceClaims (GraphEdit.run citedEdits)) := rfl
  have hnames : ((claimsOf citedSources).map Prod.fst).Nodup := by decide +kernel
  have hbased : Based (citedSources.map Prod.snd) base := by
    refine hbase.merged.based (fun graph hgraph => ?_) (by decide +kernel)
    obtain ⟨source, hsource, rfl⟩ := List.mem_map.mp hgraph
    exact citedSources_inputs source hsource
  have hsmall : 2 * ((citedSources.map Prod.snd).map fun graph => graph.csr.targets.length).sum ≤
      2 ^ 32 := by decide +kernel
  obtain ⟨pruned, hpruned, hto⟩ := pruneSourceClaims_spec listOrder hbased.settled hbased.twinned
    (hbased.length.trans hsmall) hclaims
  obtain ⟨found, hfound, hall⟩ := h citedSources base "x.md" listOrder hbase List.mem_cons_self
  rw [hpruned] at hfound
  obtain rfl := Except.ok.inj hfound
  have hprunes := prunes_of_prunedTo hnames hclaims hto
  obtain ⟨link, hlink, hkey⟩ := hall ("y.md", GraphEdit.run citingEdits)
    (List.mem_cons_of_mem _ List.mem_cons_self) (by decide)
    ⟨"y", "x", "cites", 0, false⟩ (by decide +kernel)
  have honly : OnlyClaims SourceClaims.nodeIds (claimsOf citedSources) "x.md" "x" := by
    decide +kernel
  have hkept := (List.mem_filter.mp (hprunes.links.mem_iff.mp hlink)).2
  simp only [Bool.and_eq_true, decide_eq_true_eq] at hkept
  obtain he | he := ends_recordLink link "x" (by rw [hkey]; decide)
  · exact hkept.1.1 (he ▸ honly)
  · exact hkept.1.2 (he ▸ honly)

end Cited

end M1nd.Ingest
