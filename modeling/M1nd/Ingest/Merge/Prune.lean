import M1nd.Ingest.Merge.Theorems

namespace M1nd.Ingest

open M1nd.Core
open M1nd.Library.Pairing

variable {W T : Type}

section Nodes

variable {graph merged : Graph W T} {idx : Nat} {s : String}

-- What reading the node of a name gives.
def nodeAt (graph : Graph W T) (s : String) : Option (NodeView W T) :=
  (graph.resolveId s).map graph.nodeView

-- A node whose provenance was read and stored.
def storedView (view : NodeView W T) : NodeView W T :=
  { view with provenance := view.provenance.stored }

theorem resolveNodeProvenance_lineEnd (graph : Graph W T) (i : Nat) :
    (graph.resolveNodeProvenance i).lineEnd ≠ some 0 := by
  unfold Graph.resolveNodeProvenance
  by_cases hi : graph.nodes.count ≤ i
  · rw [if_pos hi]
    exact nofun
  · rw [if_neg hi]
    by_cases hend : 0 < (graph.nodes.provenance.getD i .default).lineEnd
    · simp only [hend, if_true, ne_eq, Option.some.injEq]
      omega
    · simp only [hend, if_false]
      exact nofun

-- A second copy stores what the first one stored.
theorem stored_stored {provenance : ResolvedNodeProvenance} (h : provenance.lineEnd ≠ some 0) :
    provenance.stored.stored = provenance.stored := by
  obtain ⟨sourcePath, lineStart, lineEnd, excerpt, space, canonical⟩ := provenance
  simp only [ResolvedNodeProvenance.stored, Option.filter_filter, Bool.and_self,
    ResolvedNodeProvenance.mk.injEq, true_and, and_true]
  cases lineEnd with
  | none =>
      cases lineStart with
      | none => rfl
      | some first => by_cases hfirst : 0 < first <;> simp [Option.filter, hfirst]
  | some last =>
      have hlast : 0 < last := Nat.pos_of_ne_zero fun he => h (congrArg some he)
      simp [Option.filter, hlast]

theorem storedView_nodeView (graph : Graph W T) (i : Nat) :
    storedView (storedView (graph.nodeView i)) = storedView (graph.nodeView i) := by
  have hprovenance := stored_stored (resolveNodeProvenance_lineEnd graph i)
  exact congrArg (fun provenance => { graph.nodeView i with provenance := provenance }) hprovenance

end Nodes

section Copies

variable [Zero W] [Zero T] {graph merged : Graph W T} {idx : Nat} {s : String}

theorem copiedView_eq (h : graph.Registered) (hidx : idx < graph.nodes.count) :
    copiedView graph idx = storedView (graph.nodeView idx) := by
  have hlabel : idx < graph.nodes.label.length := by rwa [h.label]
  have htype : idx < graph.nodes.nodeType.length := by rwa [h.nodeType]
  have htags : idx < graph.nodes.tags.length := by rwa [h.tags]
  have htime : idx < graph.nodes.lastModified.length := by rwa [h.lastModified]
  have hfrequency : idx < graph.nodes.changeFrequency.length := by rwa [h.changeFrequency]
  have hresolved {handle : Nat} (hhandle : handle < graph.strings.strings.length) :
      some (resolveName graph handle) = graph.strings.tryResolve handle := by
    have hs : graph.strings.tryResolve handle = some graph.strings.strings[handle] :=
      List.getElem?_eq_getElem hhandle
    rw [resolveName, hs]
    rfl
  have hnames : (nodeTags graph idx).map some =
      graph.nodes.tags[idx].map graph.strings.tryResolve := by
    rw [nodeTags, List.getD_eq_getElem _ _ htags, List.map_map]
    refine List.map_congr_left fun handle hhandle => ?_
    exact hresolved (h.tagHandles _ (List.getElem_mem htags) handle hhandle)
  unfold copiedView storedView Graph.nodeView
  simp only [List.getElem?_eq_getElem, hlabel, htype, htags, htime, hfrequency, Option.bind_some,
    Option.map_some, hnames, List.getD_eq_getElem,
    hresolved (h.labels _ (List.getElem_mem hlabel))]

-- The nodes at some indices are copied to the empty graph.
theorem copyNodes_spec (hgraph : graph.Registered) {indices : List Nat} (hnodup : indices.Nodup)
    (hlt : ∀ i ∈ indices, i < graph.nodes.count) :
    ∃ next, indices.foldlM (fun pruned i => copyNode graph (nodeName graph i) i pruned) Graph.new =
        .ok next ∧ Bare next ∧
      ∀ s, nodeAt next s = if s ∈ indices.map (nodeName graph) then (nodeAt graph s).map storedView
        else none := by
  induction indices using List.reverseRecOn with
  | nil =>
      refine ⟨Graph.new, rfl, bare_new, fun s => ?_⟩
      simp [nodeAt, Graph.resolveId, Graph.new, StringInterner.lookup, StringInterner.new]
  | append_singleton indices i ih =>
      obtain ⟨hnodup, -, hdisjoint⟩ := List.nodup_append.mp hnodup
      have hi := hlt i (by simp)
      obtain ⟨mid, hmid, hbare, hviews⟩ := ih hnodup fun j hj => hlt j (List.mem_append_left _ hj)
      have hnotMem : nodeName graph i ∉ indices.map (nodeName graph) := by
        intro hmem
        obtain ⟨j, hj, he⟩ := List.mem_map.mp hmem
        have hsame := nodeName_inj hgraph (hlt j (List.mem_append_left _ hj)) hi he
        exact hdisjoint j hj i List.mem_cons_self hsame
      have hfresh : mid.resolveId (nodeName graph i) = none := by
        have hview := hviews (nodeName graph i)
        rw [if_neg hnotMem] at hview
        exact Option.map_eq_none_iff.mp hview
      obtain ⟨next, hnext, hbare', hids, hview⟩ := hbare.copyNode graph i hfresh
      refine ⟨next, ?_, hbare', fun s => ?_⟩
      · rw [List.foldlM_append, hmid]
        change copyNode graph (nodeName graph i) i mid >>= pure = _
        rw [hnext]
        rfl
      · rw [nodeAt, hids]
        by_cases hs : s = nodeName graph i
        · subst hs
          rw [if_pos rfl, if_pos (by simp), Option.map_some, hview _ (Nat.le_refl _), if_pos rfl,
            nodeAt, resolveId_nodeName hgraph hi, copiedView_eq hgraph hi]
          rfl
        · have hsame : (mid.resolveId s).map next.nodeView = nodeAt mid s := by
            unfold nodeAt
            refine Option.map_congr fun j hj => ?_
            have hlt := resolveId_lt hbare.registered hj
            rw [hview j (Nat.le_of_lt hlt), if_neg (Nat.ne_of_lt hlt)]
          rw [if_neg hs, hsame, hviews]
          simp only [List.map_append, List.mem_append, List.map_cons, List.map_nil,
            List.mem_singleton, hs, or_false]

end Copies

section Slots

variable [Zero W] {graph : Graph W T}

omit [Zero W] in
-- Of the two slots of a bidirectional edge one is canonical, and gives both back.
theorem Slot.expand_canonical {slot : Slot W} (h : slot.direction = .Bidirectional →
    slot.source ≠ slot.target) :
    ((slot.expand.filter Slot.isCanonical).flatMap Slot.expand).Perm slot.expand := by
  obtain ⟨source, target, relation, direction, inhibitory, causalStrength, weight, synapse⟩ := slot
  cases direction with
  | Forward => simp [Slot.expand, Slot.isBidirectional, Slot.isCanonical]
  | Bidirectional =>
      obtain hlt | hlt := Nat.lt_or_gt_of_ne (h rfl)
      · simp [Slot.expand, Slot.isBidirectional, Slot.isCanonical, Slot.mirrored, hlt,
          Nat.lt_asymm hlt]
      · simp only [Slot.expand, Slot.isBidirectional, Slot.isCanonical, Slot.mirrored, hlt,
          Nat.lt_asymm hlt, decide_true, if_true, List.filter_cons, not_true_eq_false, and_self,
          decide_false, Bool.false_eq_true, if_false, and_false, not_false_eq_true, List.filter_nil,
          List.flatMap_cons, List.flatMap_nil, List.append_nil]
        exact List.Perm.swap ..

-- The first finalize gives twinned slots.
theorem Fresh.twinned (h : Fresh graph) (hloop : LoopFree graph) : Twinned graph.finalize := by
  have hstaged := h.whole.sound.staged
  have hslots : graph.finalize.slots.Perm (graph.stagedSlots 0) := by
    rw [h.finalize_eq]
    exact hstaged.rebuilt.slots_perm hstaged
  have hexpand : (((graph.finalize.slots.filter Slot.isCanonical).flatMap Slot.expand)).Perm
      graph.finalize.slots := by
    refine ((hslots.filter _).flatMap_right _).trans (List.Perm.trans ?_ hslots.symm)
    rw [Graph.stagedSlots, List.filter_flatMap, List.flatMap_assoc]
    refine List.Perm.flatMap_left _ fun indexed hindexed => ?_
    exact Slot.expand_canonical (hloop indexed.1 (List.fst_mem_of_mem_zipIdx hindexed))
  have hlinks := hexpand.map (linkOf graph.finalize)
  rw [map_linkOf_expand_slots] at hlinks
  exact twinned_iff.mpr hlinks

end Slots

section Edges

variable [Zero W] {base pruned : Graph W T} {retained : List String}
  {removed : List EdgeKey}

def isKept (retained : List String) (removed : List EdgeKey) (link : Link W) : Bool :=
  decide (link.source ∈ retained) && decide (link.target ∈ retained) &&
    decide (link.key ∉ removed)

-- A canonical slot between retained nodes is staged, unless its key is removed.
theorem Fresh.pruneEdge (h : Fresh pruned)
    (hretained : ∀ s ∈ retained, ∃ i, pruned.resolveId s = some i) {src j : Nat}
    (hindex : EdgeIdx.new j = j) :
    ∃ next, Ingest.pruneEdge base (nodeExternalIds base) retained removed pruned (src, j) =
        .ok next ∧ Fresh next ∧ (∀ s, next.resolveId s = pruned.resolveId s) ∧
      (∀ i, next.nodeView i = pruned.nodeView i) ∧
      stagedLinks next = stagedLinks pruned ++
        ([base.slotAt src j].filter fun slot =>
          slot.isCanonical && isKept retained removed (linkOf base slot)).map (linkOf base) := by
  have hmirror : isMirrorSlot base src j = !(base.slotAt src j).isCanonical := by
    simp only [isMirrorSlot, Slot.isCanonical, decide_not, Bool.not_not]
    rfl
  generalize hlink : linkOf base (base.slotAt src j) = link
  have hsourceExt : (nodeExternalIds base).getD src "" = link.source := congrArg Link.source hlink
  have htargetExt : (nodeExternalIds base).getD (base.csr.targets.getD j 0) "" = link.target :=
    congrArg Link.target hlink
  have hrelation : resolveName base (base.csr.relations.getD j 0) = link.relation :=
    congrArg Link.relation hlink
  have hdirection : base.csr.directions.getD j .Forward = link.direction :=
    congrArg Link.direction hlink
  have hinhibitory : base.csr.inhibitory.getD j false = link.inhibitory :=
    congrArg Link.inhibitory hlink
  have hcausal : base.csr.causalStrengths.getD j 0 = link.causalStrength :=
    congrArg Link.causalStrength hlink
  have hweight : base.csr.readWeight (EdgeIdx.new j) = link.weight := by
    rw [CsrGraph.readWeight, hindex]
    exact congrArg Link.weight hlink
  have hkeyOf : canonicalEdgeKey link.source link.target link.relation link.direction
      link.inhibitory = link.key := rfl
  simp only [Ingest.pruneEdge, hmirror, hsourceExt, htargetExt, hrelation, hdirection, hinhibitory,
    hcausal, hweight, hkeyOf]
  rw [List.filter_cons, List.filter_nil, hlink]
  by_cases hkept : ((base.slotAt src j).isCanonical && isKept retained removed link) = true
  · rw [if_pos hkept]
    simp only [isKept, Bool.and_eq_true, decide_eq_true_eq] at hkept
    obtain ⟨hcanonical, ⟨hsource, htarget⟩, hkey⟩ := hkept
    obtain ⟨source, hs⟩ := hretained _ hsource
    obtain ⟨target, ht⟩ := hretained _ htarget
    obtain ⟨idx, next, hadded, hfresh, -, hids, hviews, hstaged⟩ := h.addEdge link hs ht
    refine ⟨next, ?_, hfresh, hids, hviews, ?_⟩
    · simp only [hsource, htarget, hcanonical, hkey, hs, ht, hadded, not_true_eq_false, if_false,
        Bool.not_true, Bool.false_eq_true]
    · rw [hstaged, List.map_cons, List.map_nil, hlink]
  · rw [if_neg hkept]
    refine ⟨pruned, ?_, h, fun _ => rfl, fun _ => rfl, (List.append_nil _).symm⟩
    simp only [isKept, Bool.and_eq_true, decide_eq_true_eq, not_and, Decidable.not_not] at hkept
    by_cases hsource : link.source ∈ retained
    · by_cases htarget : link.target ∈ retained
      · cases hcanonical : (base.slotAt src j).isCanonical with
        | false => simp [hsource, htarget]
        | true => simp [hsource, htarget, hkept hcanonical ⟨hsource, htarget⟩]
      · simp [hsource, htarget]
    · simp [hsource]

theorem Fresh.pruneEdges (h : Fresh pruned) (slots : List (Nat × Nat))
    (hretained : ∀ s ∈ retained, ∃ i, pruned.resolveId s = some i)
    (hindices : ∀ slot ∈ slots, EdgeIdx.new slot.2 = slot.2) :
    ∃ next, slots.foldlM (Ingest.pruneEdge base (nodeExternalIds base) retained removed) pruned =
        .ok next ∧ Fresh next ∧ (∀ s, next.resolveId s = pruned.resolveId s) ∧
      (∀ i, next.nodeView i = pruned.nodeView i) ∧
      stagedLinks next = stagedLinks pruned ++
        ((slots.map fun slot => base.slotAt slot.1 slot.2).filter fun slot =>
          slot.isCanonical && isKept retained removed (linkOf base slot)).map (linkOf base) := by
  induction slots generalizing pruned with
  | nil => exact ⟨pruned, rfl, h, fun _ => rfl, fun _ => rfl, (List.append_nil _).symm⟩
  | cons slot slots ih =>
      obtain ⟨hindex, hindices⟩ := List.forall_mem_cons.mp hindices
      obtain ⟨mid, hmid, hfresh, hids, hviews, hstaged⟩ :=
        @Fresh.pruneEdge W T _ base pruned retained removed h hretained slot.1 slot.2 hindex
      have hretained : ∀ s ∈ retained, ∃ i, mid.resolveId s = some i := by
        intro s hs
        rw [hids]
        exact hretained s hs
      obtain ⟨next, hnext, hfresh', hids', hviews', hstaged'⟩ := ih hfresh hretained hindices
      refine ⟨next, ?_, hfresh', fun s => (hids' s).trans (hids s),
        fun i => (hviews' i).trans (hviews i), ?_⟩
      · rw [List.foldlM_cons, hmid]
        exact hnext
      · rw [hstaged', hstaged, List.append_assoc, ← List.map_append, ← List.filter_append]
        rfl

end Edges

section Settling

variable [Zero W] {graph : Graph W T}

-- The last step of a merge and of a prune.
def settle (graph : Graph W T) : Graph W T :=
  if 0 < graph.numNodes then graph.finalize else graph

structure Settles (graph next : Graph W T) : Prop where
  settled : Settled next
  ids : ∀ s, next.resolveId s = graph.resolveId s
  views : ∀ i, next.nodeView i = graph.nodeView i
  links : (links next).Perm ((stagedLinks graph).flatMap Link.expand)
  twinned : LoopFree graph → Twinned next

theorem Fresh.settles (h : Fresh graph) (hvalid : ValidIds graph) : Settles graph (settle graph) := by
  unfold settle
  by_cases hnodes : 0 < graph.numNodes
  · rw [if_pos hnodes]
    have heq := h.finalize_eq
    refine ⟨⟨h.whole_finalize, ?_, .inl ?_⟩, fun s => ?_, fun i => ?_, h.links_perm, h.twinned⟩
    · rw [heq]
      exact hvalid
    · rw [heq]
      rfl
    · rw [heq]
      rfl
    · rw [heq]
      rfl
  · have hcount : graph.nodes.count = 0 := by
      change ¬ 0 < graph.nodes.count at hnodes
      omega
    have hpending : graph.csr.pendingEdges = [] := by
      refine List.eq_nil_iff_forall_not_mem.mpr fun edge hedge => ?_
      have hlt := (h.whole.sound.staged edge hedge).1
      omega
    have hlinks := links_of_empty h.whole hcount
    rw [if_neg hnodes]
    refine ⟨⟨h.whole, hvalid, .inr hcount⟩, fun _ => rfl, fun _ => rfl, ?_, fun _ => ?_⟩
    · rw [hlinks.1, stagedLinks, hpending]
      exact .nil
    · rw [twinned_iff, hlinks.1, hlinks.2]
      exact .nil

omit [Zero W] in
theorem nodeAt_congr {next : Graph W T} (hids : ∀ s, next.resolveId s = graph.resolveId s)
    (hviews : ∀ i, next.nodeView i = graph.nodeView i) : nodeAt next = nodeAt graph := by
  funext s
  rw [nodeAt, nodeAt, hids]
  exact Option.map_congr fun i _ => hviews i

end Settling

section Kept

variable [Zero W] {base pruned : Graph W T}

omit [Zero W] in
theorem isKept_mirrored {retained : List String} {removed : List EdgeKey} {link : Link W}
    (h : link.direction = .Bidirectional) :
    isKept retained removed link.mirrored = isKept retained removed link := by
  unfold isKept
  rw [Link.key_mirrored link h]
  exact congrArg (· && _) (Bool.and_comm _ _)

omit [Zero W] in
-- Both slots of an edge are kept, or none is.
theorem expand_filter_isKept (retained : List String) (removed : List EdgeKey)
    (edges : List (Link W)) :
    (edges.filter (isKept retained removed)).flatMap Link.expand =
      (edges.flatMap Link.expand).filter (isKept retained removed) := by
  rw [List.filter_flatMap]
  induction edges with
  | nil => rfl
  | cons link edges ih =>
      have hexpand : link.expand.filter (isKept retained removed) =
          if isKept retained removed link then link.expand else [] := by
        unfold Link.expand
        by_cases hboth : link.direction = .Bidirectional
        · rw [if_pos hboth]
          simp only [List.filter_cons, isKept_mirrored hboth, List.filter_nil]
          cases isKept retained removed link <;> rfl
        · rw [if_neg hboth]
          rw [List.filter_cons, List.filter_nil]
      rw [List.flatMap_cons, hexpand, ← ih, List.filter_cons]
      cases isKept retained removed link <;> rfl

theorem slots_eq_map (hbase : Settled base) :
    ((List.range base.numNodes).flatMap fun src =>
      (base.csr.outRange src).map fun j => (src, j)).map (fun slot => base.slotAt slot.1 slot.2) =
        base.slots := by
  obtain hfinal | hcount := hbase.finalized
  · rw [slots_eq_flatMap (hbase.whole.sound.finalized hfinal).1.offsets.length, List.map_flatMap]
    refine List.flatMap_congr fun src _ => ?_
    rw [List.map_map]
    rfl
  · have hlinks := (links_of_empty hbase.whole hcount).1
    rw [links, List.map_eq_nil_iff] at hlinks
    rw [hlinks, Graph.numNodes, hcount]
    rfl

theorem Settled.resolves (hbase : Settled base) {link : Link W} (hlink : link ∈ links base) :
    (∃ i, base.resolveId link.source = some i) ∧ ∃ i, base.resolveId link.target = some i := by
  obtain hfinal | hcount := hbase.finalized
  · obtain ⟨slot, hslot, rfl⟩ := List.mem_map.mp hlink
    obtain ⟨hsource, htarget⟩ := hbase.whole.slot_lt hfinal hslot
    exact ⟨⟨_, resolveId_nodeName hbase.whole.registered hsource⟩,
      _, resolveId_nodeName hbase.whole.registered htarget⟩
  · rw [(links_of_empty hbase.whole hcount).1] at hlink
    exact absurd hlink List.not_mem_nil

-- The edges that are left, once the nodes are there.
theorem pruneEdges_spec (hbase : Settled base) (htwinned : Twinned base)
    (hbound : base.csr.targets.length ≤ 2 ^ 32) {copied : Graph W T} (hcopied : Bare copied)
    (hvalid : ValidIds copied) {retained : List String} (removed : List EdgeKey)
    (hretained : ∀ s ∈ retained, ∃ i, copied.resolveId s = some i) :
    ∃ next, ((List.range base.numNodes).flatMap fun src =>
        (base.csr.outRange src).map fun j => (src, j)).foldlM
          (Ingest.pruneEdge base (nodeExternalIds base) retained removed) copied = .ok next ∧
      Settled (settle next) ∧ Twinned (settle next) ∧ nodeAt (settle next) = nodeAt copied ∧
      (links (settle next)).Perm ((links base).filter (isKept retained removed)) := by
  have hfresh : Fresh copied := by
    refine ⟨hcopied.whole, hcopied.finalized, ?_⟩
    rw [hcopied.csr]
    rfl
  have hindices : ∀ slot ∈ (List.range base.numNodes).flatMap fun src =>
      (base.csr.outRange src).map fun j => (src, j), EdgeIdx.new slot.2 = slot.2 := by
    intro slot hslot
    obtain ⟨src, -, hmem⟩ := List.mem_flatMap.mp hslot
    obtain ⟨j, hj, rfl⟩ := List.mem_map.mp hmem
    have hlt := hbase.whole.listed.mem_outRange_lt hj
    exact Nat.mod_eq_of_lt (by omega)
  obtain ⟨next, hnext, hfresh', hids, hviews, hstaged⟩ :=
    @Fresh.pruneEdges W T _ base copied retained removed hfresh _ hretained hindices
  have hnone : stagedLinks copied = [] := by
    rw [stagedLinks, hcopied.csr]
    rfl
  have hkept : stagedLinks next = (canonicalLinks base).filter (isKept retained removed) := by
    rw [hstaged, hnone, List.nil_append, slots_eq_map hbase, canonicalLinks, List.filter_map,
      List.filter_filter]
    exact congrArg (List.map _) (List.filter_congr fun slot _ => Bool.and_comm _ _)
  have hloop : LoopFree next := by
    intro edge hedge hboth hsame
    have hmem : stagedLink next edge ∈ stagedLinks next := List.mem_map_of_mem hedge
    rw [hkept] at hmem
    exact hbase.loopless htwinned _ (List.mem_filter.mp hmem).1 hboth
      (congrArg (nodeName next) hsame)
  have hvalid' : ValidIds next := fun s i hi => hvalid s i ((hids s).symm.trans hi)
  have hsettles := hfresh'.settles hvalid'
  refine ⟨next, hnext, hsettles.settled, hsettles.twinned hloop, ?_, ?_⟩
  · exact (nodeAt_congr hsettles.ids hsettles.views).trans (nodeAt_congr hids hviews)
  · have hlinks := hsettles.links
    rw [hkept, expand_filter_isKept] at hlinks
    exact hlinks.trans ((twinned_iff.mp htwinned).filter _)

end Kept

section Prune

variable [Zero W] [Zero T] [Max W] [Max T] {base pruned : Graph W T} {s : String}
  {claimsBySource : List (String × SourceClaims)} {targetClaims : SourceClaims}

-- What is left of the nodes and of the links.
structure PrunedTo (base pruned : Graph W T) (removedNodes : List String)
    (removedEdges : List EdgeKey) : Prop where
  settled : Settled pruned
  twinned : Twinned pruned
  nodes : ∀ s, nodeAt pruned s =
    if s ∈ removedNodes then none else (nodeAt base s).map storedView
  links : (links pruned).Perm ((links base).filter fun link =>
    decide (link.source ∉ removedNodes) && decide (link.target ∉ removedNodes) &&
      decide (link.key ∉ removedEdges))

theorem pruneSourceClaims_spec (hash : HashOrder W) (hbase : Settled base)
    (htwinned : Twinned base) (hbound : base.csr.targets.length ≤ 2 ^ 32)
    (hclaims : claimsBySource.lookup s = some targetClaims) :
    ∃ pruned, pruneSourceClaims hash base s claimsBySource = .ok pruned ∧
      PrunedTo base pruned (claimedAlone SourceClaims.nodeIds claimsBySource s targetClaims)
        (claimedAlone SourceClaims.edges claimsBySource s targetClaims) := by
  have hregistered := hbase.whole.registered
  obtain ⟨hlength, hspec⟩ := nodeExternalIds_spec hregistered
  unfold pruneSourceClaims
  simp only [hclaims]
  generalize claimedAlone SourceClaims.nodeIds claimsBySource s targetClaims = removedNodes
  generalize claimedAlone SourceClaims.edges claimsBySource s targetClaims = removedEdges
  generalize hretain : (fun externalId =>
    isValidExternalId externalId && decide (externalId ∉ removedNodes)) = isRetained
  have hisRetained {s : String} {i : Nat} (hi : base.resolveId s = some i) :
      isRetained s = true ↔ s ∉ removedNodes := by
    rw [← hretain]
    simp [hbase.valid s i hi]
  have hname {i : Nat} : (nodeExternalIds base).getD i "" = nodeName base i := rfl
  have hlt : ∀ i ∈ (List.range (nodeExternalIds base).length).filter fun idx =>
      isRetained ((nodeExternalIds base).getD idx ""), i < base.nodes.count := by
    intro i hi
    rw [← hlength]
    exact List.mem_range.mp (List.mem_filter.mp hi).1
  obtain ⟨copied, hcopied, hbare, hviews⟩ :=
    copyNodes_spec hregistered (List.nodup_range.filter _) hlt
  have hmem (s : String) : s ∈ ((List.range (nodeExternalIds base).length).filter fun idx =>
      isRetained ((nodeExternalIds base).getD idx "")).map (nodeName base) ↔
        (∃ i, base.resolveId s = some i) ∧ s ∉ removedNodes := by
    constructor
    · intro h
      obtain ⟨i, hi, rfl⟩ := List.mem_map.mp h
      have hresolve := resolveId_nodeName hregistered (hlt i hi)
      exact ⟨⟨i, hresolve⟩, (hisRetained hresolve).mp (List.mem_filter.mp hi).2⟩
    · rintro ⟨⟨i, hi⟩, hs⟩
      refine List.mem_map.mpr ⟨i, List.mem_filter.mpr ⟨?_, ?_⟩, nodeName_of_resolveId hregistered hi⟩
      · rw [List.mem_range, hlength]
        exact resolveId_lt hregistered hi
      · rw [hname, nodeName_of_resolveId hregistered hi]
        exact (hisRetained hi).mpr hs
  have hnodes (s : String) : nodeAt copied s =
      if s ∈ removedNodes then none else (nodeAt base s).map storedView := by
    rw [hviews]
    by_cases hs : s ∈ removedNodes
    · rw [if_pos hs, if_neg fun h => ((hmem s).mp h).2 hs]
    · cases hi : base.resolveId s with
      | none =>
          have hnot : ¬ ∃ i, base.resolveId s = some i := by simp [hi]
          rw [if_neg hs, if_neg fun h => hnot ((hmem s).mp h).1, nodeAt, hi]
          rfl
      | some i => rw [if_neg hs, if_pos ((hmem s).mpr ⟨⟨i, hi⟩, hs⟩)]
  have hvalid : ValidIds copied := by
    intro s i hi
    have hview := hviews s
    rw [nodeAt, hi] at hview
    by_cases hs : s ∈ ((List.range (nodeExternalIds base).length).filter fun idx =>
      isRetained ((nodeExternalIds base).getD idx "")).map (nodeName base)
    · obtain ⟨j, hj⟩ := ((hmem s).mp hs).1
      exact hbase.valid s j hj
    · rw [if_neg hs] at hview
      exact absurd hview nofun
  have hids (s : String) : s ∈ (nodeExternalIds base).filter isRetained ↔
      (∃ i, base.resolveId s = some i) ∧ s ∉ removedNodes := by
    rw [List.mem_filter, List.mem_iff_getElem?]
    constructor
    · rintro ⟨⟨i, hi⟩, hs⟩
      have hresolve := (hspec s i).mp hi
      exact ⟨⟨i, hresolve⟩, (hisRetained hresolve).mp hs⟩
    · rintro ⟨⟨i, hi⟩, hs⟩
      exact ⟨⟨i, (hspec s i).mpr hi⟩, (hisRetained hi).mpr hs⟩
  have hretained : ∀ s ∈ (nodeExternalIds base).filter isRetained,
      ∃ i, copied.resolveId s = some i := by
    intro s hs
    have hview := hviews s
    obtain ⟨⟨i, hi⟩, hs⟩ := (hids s).mp hs
    rw [if_pos ((hmem s).mpr ⟨⟨i, hi⟩, hs⟩), nodeAt, nodeAt, hi] at hview
    obtain ⟨j, hj, -⟩ := Option.map_eq_some_iff.mp hview
    exact ⟨j, hj⟩
  obtain ⟨next, hnext, hsettled, htwinned', hsame, hlinks⟩ :=
    pruneEdges_spec hbase htwinned hbound hbare hvalid removedEdges hretained
  refine ⟨settle next, ?_, hsettled, htwinned', fun s => ?_, ?_⟩
  · subst hretain
    have hcopied : ((List.range (nodeExternalIds base).length).filter fun idx =>
        isValidExternalId ((nodeExternalIds base).getD idx "") &&
          decide ((nodeExternalIds base).getD idx "" ∉ removedNodes)).foldlM
            (fun pruned idx => copyNode base ((nodeExternalIds base).getD idx "") idx pruned)
            Graph.new = .ok copied := hcopied
    simp only [hcopied, bind, Except.bind]
    rw [hnext]
    rfl
  · rw [hsame]
    exact hnodes s
  · refine hlinks.trans (List.Perm.of_eq (List.filter_congr fun link hlink => ?_))
    obtain ⟨hsource, htarget⟩ := hbase.resolves hlink
    simp only [isKept, hids, hsource, htarget, true_and]

end Prune

end M1nd.Ingest
