import M1nd.Core.Snapshot.Rebuild

namespace M1nd.Core

open M1nd.Library.Buckets

variable {W F T : Type} {graph next : Graph W T}

-- The slots lie where they lay, between the same nodes and of the same kind.
structure Graph.SameSlots (graph next : Graph W T) : Prop where
  offsets : next.csr.offsets = graph.csr.offsets
  targets : next.csr.targets = graph.csr.targets
  relations : next.csr.relations = graph.csr.relations
  directions : next.csr.directions = graph.csr.directions
  inhibitory : next.csr.inhibitory = graph.csr.inhibitory
  causalStrengths : next.csr.causalStrengths = graph.csr.causalStrengths

theorem Graph.SameSlots.of_csr (h : next.csr = graph.csr) : graph.SameSlots next := by
  constructor <;> rw [h]

theorem Graph.Tabled.sameSlots (h : graph.Tabled) (hslots : graph.SameSlots next)
    (hlisted : next.Listed) (hsound : next.Sound) : next.Tabled where
  listed := hlisted
  covered := hsound.covered
  relations := by
    rw [hslots.relations, hslots.targets]
    exact h.relations
  directions := by
    rw [hslots.directions, hslots.targets]
    exact h.directions
  inhibitory := by
    rw [hslots.inhibitory, hslots.targets]
    exact h.inhibitory
  causalStrengths := by
    rw [hslots.causalStrengths, hslots.targets]
    exact h.causalStrengths

theorem Graph.sameSlots_addNode (graph : Graph W T) (externalId label : String)
    (nodeType : NodeType) (tags : List String) (lastModified : T) (changeFrequency : W) :
    graph.SameSlots
      (graph.addNode externalId label nodeType tags lastModified changeFrequency).2 := by
  obtain ⟨strings, he⟩ | ⟨nodes, strings, idToNode, -, he⟩ :=
    graph.addNode_cases externalId label nodeType tags lastModified changeFrequency
  · exact .of_csr (by rw [he])
  · exact .of_csr (by rw [he])

theorem Graph.sameSlots_addEdge (graph : Graph W T) (source target : Nat) (relation : String)
    (weight : W) (direction : EdgeDirection) (inhibitory : Bool) (causalStrength : W) :
    graph.SameSlots (graph.addEdge source target relation weight direction inhibitory
      causalStrength).2 := by
  unfold Graph.addEdge
  by_cases hsource : graph.nodes.count ≤ source
  · rw [if_pos hsource]
    exact .of_csr rfl
  · by_cases htarget : graph.nodes.count ≤ target
    · rw [if_neg hsource, if_pos htarget]
      exact .of_csr rfl
    · rw [if_neg hsource, if_neg htarget]
      exact ⟨rfl, rfl, rfl, rfl, rfl, rfl⟩

variable [FiniteF32 W F] [Zero W]

theorem Graph.SameSlots.keys (h : graph.SameSlots next) :
    (next.keys : List (EdgeSlotKey F)) = graph.keys := by
  unfold Graph.keys Graph.slots
  rw [h.offsets, List.map_map, List.map_map]
  apply List.map_congr_left
  intro slot _
  simp only [Function.comp_apply, Slot.key, Graph.slotAt, h.targets, h.relations, h.directions,
    h.inhibitory, h.causalStrengths]

-- A rebuilt CSR has the slots of whole edges.
theorem Graph.Rebuilt.balanced {staged : Graph W T} (h : staged.Staged)
    (hnext : staged.Rebuilt next) :
    Balanced (↑(next.keys : List (EdgeSlotKey F)) : Multiset (EdgeSlotKey F)) := by
  refine ⟨staged.csr.pendingEdges.map PendingEdge.key, Multiset.coe_eq_coe.mpr ?_⟩
  rw [List.flatMap_map]
  exact hnext.keys_perm h

-- What holds in every graph that is built by the operations.
structure Graph.Coherent (F : Type) [FiniteF32 W F] (graph : Graph W T) : Prop where
  sound : graph.Sound
  tabled : graph.Tabled
  named : graph.Named
  registered : graph.Registered
  balanced : Balanced (↑(graph.keys : List (EdgeSlotKey F)) : Multiset (EdgeSlotKey F))

theorem Graph.coherent_new : (Graph.new : Graph W T).Coherent F where
  sound := Graph.sound_new
  tabled := ⟨Graph.listed_new, Nat.zero_le _, rfl, rfl, rfl, rfl⟩
  named := Graph.named_new
  registered := Graph.registered_new
  balanced := ⟨[], rfl⟩

theorem getElem?_eq_getD {α : Type} {list : List α} {i size : Nat} (h : list.length = size)
    (hi : i < size) (d : α) : list[i]? = some (list.getD i d) := by
  rw [List.getD_eq_getElem?_getD, List.getElem?_eq_getElem (h.symm ▸ hi), Option.getD_some]

-- A slot lies between two of the nodes and has a relation.
theorem Graph.Coherent.slot_lt (h : graph.Coherent F) {slot : Slot W} (hslot : slot ∈ graph.slots) :
    slot.source < graph.nodes.count ∧ slot.target < graph.nodes.count ∧
      ∃ relation, graph.strings.tryResolve slot.relation = some relation := by
  obtain ⟨⟨src, j⟩, hentry, rfl⟩ := List.mem_map.mp hslot
  obtain ⟨i, hi⟩ := List.mem_iff_getElem?.mp hentry
  obtain ⟨rfl, hj⟩ := h.tabled.listed.snd_edgeSlots hi
  obtain ⟨hsrc, -⟩ := mem_edgeSlots.mp hentry
  have hcovered := h.tabled.covered
  have htarget := getElem?_eq_getD rfl hj 0
  have hrelation := getElem?_eq_getD h.named.length hj 0
  refine ⟨?_, h.sound.targets _ (List.mem_of_getElem? htarget), ?_⟩
  · change src < graph.nodes.count
    omega
  · exact ⟨_, List.getElem?_eq_getElem (h.named.relations _ (List.mem_of_getElem? hrelation))⟩

theorem Graph.Coherent.sameSlots (h : graph.Coherent F) (hslots : graph.SameSlots next)
    (hsound : next.Sound) (hlisted : next.Listed) (hnamed : next.Named)
    (hregistered : next.Registered) : next.Coherent F where
  sound := hsound
  tabled := h.tabled.sameSlots hslots hlisted hsound
  named := hnamed
  registered := hregistered
  balanced := by
    rw [hslots.keys]
    exact h.balanced

theorem Graph.Coherent.rebuilt {staged : Graph W T} (hstaged : staged.Staged)
    (hnext : staged.Rebuilt next) (hnamed : next.Named) (hregistered : next.Registered) :
    next.Coherent F where
  sound := .of_rebuilt hstaged hnext
  tabled := hnext.tabled hstaged
  named := hnamed
  registered := hregistered
  balanced := hnext.balanced hstaged

theorem Graph.Coherent.finalize (h : graph.Coherent F) : graph.finalize.Coherent F := by
  have hnamed := h.named.finalize h.sound h.tabled.listed
  unfold Graph.finalize at hnamed ⊢
  by_cases hfinal : graph.finalized = true
  · rw [if_pos hfinal]
    exact h
  · rw [if_neg hfinal] at hnamed ⊢
    have hregistered {next : Graph W T} (hnodes : next.nodes = graph.nodes)
        (hids : next.idToNode = graph.idToNode) (hstrings : next.strings = graph.strings) :
        next.Registered :=
      h.registered.extends hnodes hids (hstrings ▸ h.registered.faithful) (hstrings ▸ .refl _)
    by_cases hedges : 0 < graph.csr.numEdges
    · rw [if_pos hedges] at hnamed ⊢
      exact .rebuilt h.sound.rehydrated h.sound.rehydrated.rebuilt hnamed (hregistered rfl rfl rfl)
    · rw [if_neg hedges] at hnamed ⊢
      exact .rebuilt h.sound.staged h.sound.staged.rebuilt hnamed (hregistered rfl rfl rfl)

theorem Graph.Coherent.apply (h : graph.Coherent F) (op : GraphOp W T) :
    (op.apply graph).Coherent F := by
  have hsound := h.sound.apply op
  have hlisted := h.tabled.listed.apply h.sound op
  have hnamed := h.named.apply h.sound h.tabled.listed op
  cases op with
  | addNode externalId label nodeType tags lastModified changeFrequency =>
      exact h.sameSlots (graph.sameSlots_addNode _ _ _ _ _ _) hsound hlisted hnamed
        (h.registered.addNode _ _ _ _ _ _)
  | addEdge source target relation weight direction inhibitory causalStrength =>
      exact h.sameSlots (graph.sameSlots_addEdge _ _ _ _ _ _ _) hsound hlisted hnamed
        (h.registered.addEdge _ _ _ _ _ _ _)
  | storeWeight slot weight =>
      refine h.sameSlots ?_ hsound hlisted hnamed ?_
      · simp only [GraphOp.apply]
        split
        · exact ⟨rfl, rfl, rfl, rfl, rfl, rfl⟩
        · exact .of_csr rfl
      · simp only [GraphOp.apply]
        split
        · exact h.registered.extends rfl rfl h.registered.faithful (.refl _)
        · exact h.registered
  | storeSynapse slot synapse =>
      refine h.sameSlots ?_ hsound hlisted hnamed ?_
      · simp only [GraphOp.apply]
        split
        · exact .of_csr rfl
        · exact .of_csr rfl
      · simp only [GraphOp.apply]
        split
        · exact h.registered.extends rfl rfl h.registered.faithful (.refl _)
        · exact h.registered
  | finalize => exact h.finalize

omit [FiniteF32 W F] [Zero W] in
theorem StringInterner.Faithful.dense {interner : StringInterner} (h : interner.Faithful) :
    interner.Dense :=
  fun s idx hs => (List.getElem?_eq_some_iff.mp ((h s idx).mp hs)).1

theorem Graph.Coherent.setNodeProvenance (h : graph.Coherent F) (node : Nat)
    (provenance : ResolvedNodeProvenance) :
    (graph.setNodeProvenance node provenance).Coherent F := by
  have hrewritten := graph.rewritten_setNodeProvenance node provenance
  have hregistered := h.registered.setNodeProvenance node provenance
  have hcsr : (graph.setNodeProvenance node provenance).csr = graph.csr := by
    unfold Graph.setNodeProvenance
    split <;> rfl
  have hle : graph.strings.strings.length ≤
      (graph.setNodeProvenance node provenance).strings.strings.length := by
    by_cases hnode : node < graph.nodes.count
    · obtain ⟨strings, _, _, _, hset, -, hextends, -⟩ :=
        h.registered.setNodeProvenance_eq hnode provenance
      rw [hset]
      exact hextends.length_le
    · unfold Graph.setNodeProvenance
      rw [if_pos (Nat.le_of_not_lt hnode)]
  exact h.sameSlots (.of_csr hcsr) (h.sound.rewritten hrewritten)
    (h.tabled.listed.rewritten hrewritten)
    (h.named.of_strings hcsr hregistered.faithful.dense hle) hregistered

-- The operations on a graph, and what a loader says about a node's origin.
inductive GraphEdit (W T : Type)
  | operate (op : GraphOp W T)
  | setNodeProvenance (node : Nat) (provenance : ResolvedNodeProvenance)

def GraphEdit.apply (graph : Graph W T) : GraphEdit W T → Graph W T
  | operate op => op.apply graph
  | setNodeProvenance node provenance => graph.setNodeProvenance node provenance

def GraphEdit.run (edits : List (GraphEdit W T)) : Graph W T :=
  edits.foldl GraphEdit.apply Graph.new

-- A graph can hold exact values as they are.
abbrev exactValues (K : Type) : FiniteF32 K K where
  new w := w
  get w := w
  isFinite _ := true
  isFinite_get _ := rfl
  new_get _ := rfl
  get_new _ _ := rfl

theorem GraphEdit.coherent_run (F : Type) [FiniteF32 W F] (edits : List (GraphEdit W T)) :
    (GraphEdit.run edits).Coherent F := by
  induction edits using List.reverseRecOn with
  | nil => exact Graph.coherent_new
  | append_singleton edits edit ih =>
      rw [GraphEdit.run, List.foldl_append]
      cases edit with
      | operate op => exact ih.apply op
      | setNodeProvenance node provenance => exact ih.setNodeProvenance node provenance

omit [Zero W] in
theorem Graph.sameReverse_setNodeProvenance (graph : Graph W T) (node : Nat)
    (provenance : ResolvedNodeProvenance) :
    graph.SameReverse (graph.setNodeProvenance node provenance) := by
  unfold Graph.setNodeProvenance
  split <;> exact .of_csr rfl

theorem GraphEdit.sourced_run (F : Type) [FiniteF32 W F] (edits : List (GraphEdit W T)) :
    (GraphEdit.run edits).Sourced := by
  induction edits using List.reverseRecOn with
  | nil => exact Graph.sourced_new
  | append_singleton edits edit ih =>
      rw [GraphEdit.run, List.foldl_append]
      cases edit with
      | operate op => exact ih.apply (GraphEdit.coherent_run F edits).sound op
      | setNodeProvenance node provenance =>
          exact ih.sameReverse (Graph.sameReverse_setNodeProvenance _ node provenance)

theorem GraphEdit.indexed_run (F : Type) [FiniteF32 W F] (edits : List (GraphEdit W T)) :
    (GraphEdit.run edits).Indexed := by
  induction edits using List.reverseRecOn with
  | nil => exact Graph.indexed_new
  | append_singleton edits edit ih =>
      rw [GraphEdit.run, List.foldl_append]
      cases edit with
      | operate op => exact ih.apply (GraphEdit.coherent_run F edits).sound op
      | setNodeProvenance node provenance =>
          exact ih.sameReverse (Graph.sameReverse_setNodeProvenance _ node provenance)

end M1nd.Core

namespace M1nd.Core

open M1nd.Library.Buckets
open M1nd.Library.Checks

variable {W F T : Type} [FiniteF32 W F]

-- A directed slot with the name of its relation.
structure EdgeView (W : Type) where
  source : Nat
  target : Nat
  relation : Option String
  direction : EdgeDirection
  inhibitory : Bool
  causalStrength : W
  originalWeight : W
  currentWeight : W
deriving DecidableEq

def Graph.edgeView (graph : Graph W T) (slot : Slot W) : EdgeView W where
  source := slot.source
  target := slot.target
  relation := graph.strings.tryResolve slot.relation
  direction := slot.direction
  inhibitory := slot.inhibitory
  causalStrength := slot.causalStrength
  originalWeight := slot.synapse.originalWeight
  currentWeight := slot.weight

-- The slots of a graph as a multiset.
def Graph.edgeViews [Zero W] (graph : Graph W T) : Multiset (EdgeView W) :=
  ↑(graph.slots.map graph.edgeView)

-- The same slots, each with the weight that is read through a u32.
def Graph.readViews [Zero W] (graph : Graph W T) : Multiset (EdgeView W) :=
  ↑((edgeSlots (graph.csr.offsets.length - 1) graph.csr.offsets).map fun slot =>
    graph.edgeView { graph.slotAt slot.1 slot.2 with
      weight := graph.csr.readWeight (EdgeIdx.new slot.2) })

-- The other graph has the same nodes and the same slots.
structure Graph.Recovers [Zero W] (graph next : Graph W T) : Prop where
  count : next.numNodes = graph.numNodes
  externalIds : ∀ s, next.resolveId s = graph.resolveId s
  nodes : ∀ i < graph.numNodes, next.nodeView i = graph.nodeView i
  edges : next.edgeViews = graph.edgeViews

section Views

variable {graph : Graph W T} {ids : List String} {edge : EdgeSnapshotV4 F}

def EdgeView.ofHeld (W : Type) [FiniteF32 W F] (strings : StringInterner)
    (held : EdgeSlotKey F × F × F) : EdgeView W where
  source := held.1.source
  target := held.1.target
  relation := strings.tryResolve held.1.relation
  direction := if held.1.direction = 1 then .Bidirectional else .Forward
  inhibitory := held.1.inhibitory
  causalStrength := FiniteF32.new held.1.causalStrength
  originalWeight := FiniteF32.new held.2.1
  currentWeight := FiniteF32.new held.2.2

theorem EdgeDirection.decode_code (direction : EdgeDirection) :
    (if direction.code = 1 then EdgeDirection.Bidirectional else .Forward) = direction := by
  cases direction <;> simp [EdgeDirection.code]

theorem EdgeView.ofHeld_held (graph : Graph W T) (slot : Slot W) :
    EdgeView.ofHeld W graph.strings (Slot.held slot) = graph.edgeView slot := by
  unfold EdgeView.ofHeld Slot.held Slot.key Graph.edgeView
  simp only [FiniteF32.new_get, EdgeDirection.decode_code]

variable [Zero W]

-- What an encoder reads of the slot at a place.
def Graph.readAt (F : Type) [FiniteF32 W F] (graph : Graph W T) (j : Nat) : Option (EdgeView W) :=
  (graph.keys[j]? : Option (EdgeSlotKey F)).map fun key =>
    EdgeView.ofHeld W graph.strings (key, slotWeights graph j)

theorem Graph.Tabled.readAt_eq (h : graph.Tabled) (j : Nat) :
    graph.readAt F j =
      ((edgeSlots (graph.csr.offsets.length - 1) graph.csr.offsets).map fun slot =>
        graph.edgeView { graph.slotAt slot.1 slot.2 with
          weight := graph.csr.readWeight (EdgeIdx.new slot.2) })[j]? := by
  rw [Graph.readAt, Graph.keys, Graph.slots, List.getElem?_map, List.getElem?_map, List.getElem?_map]
  cases hslot : (edgeSlots (graph.csr.offsets.length - 1) graph.csr.offsets)[j]? with
  | none => rfl
  | some entry =>
      have hindex := (h.listed.snd_edgeSlots hslot).1
      subst hindex
      simp only [Option.map_some, EdgeView.ofHeld, Slot.key, slotWeights,
        Graph.edgeView, Graph.slotAt, EdgePlasticity.row, FiniteF32.new_get,
        EdgeDirection.decode_code]

-- Reading the slots one after the other gives all of them.
theorem Graph.Tabled.readViews_eq (h : graph.Tabled) :
    graph.readViews = ↑((List.range graph.csr.numEdges).filterMap (graph.readAt F)) := by
  have hlength : ((edgeSlots (graph.csr.offsets.length - 1) graph.csr.offsets).map fun slot =>
      graph.edgeView { graph.slotAt slot.1 slot.2 with
        weight := graph.csr.readWeight (EdgeIdx.new slot.2) }).length = graph.csr.numEdges := by
    rw [List.length_map, h.listed.length_edgeSlots, h.listed.numEdges]
  have hall := filterMap_range_getElem? ((edgeSlots (graph.csr.offsets.length - 1)
    graph.csr.offsets).map fun slot => graph.edgeView { graph.slotAt slot.1 slot.2 with
      weight := graph.csr.readWeight (EdgeIdx.new slot.2) })
  rw [hlength] at hall
  rw [Graph.readViews, ← hall]
  congr 1
  apply List.filterMap_congr
  intro j _
  exact (h.readAt_eq j).symm

variable {loaded : Graph W T} {pair : Nat × Option Nat}

-- The slots that a written record demands of the loaded graph are those it was written for.
theorem Written.map_demands (format : SnapshotFormat) (h : Written graph ids pair edge)
    (hids : ∀ (s : String) (i : Nat), ids[i]? = some s → loaded.resolveId s = some i)
    (hregistered : loaded.Registered) (hnamed : edge.Named loaded) :
    (edge.demands format loaded).map (fun demand =>
        some (EdgeView.ofHeld W loaded.strings demand.held)) =
      (pair.1 :: pair.2.toList).map (graph.readAt F) := by
  obtain ⟨key, hkey, hsource, htarget, hrelation, hdirection, hinhibitory, hcausal, hboth,
    hreverse⟩ := h.exists_key
  obtain ⟨handle, hhandle⟩ := Option.isSome_iff_exists.mp hnamed.relation
  have hresolve := hregistered.faithful.lookup.mp hhandle
  have hloaded : edge.key loaded = { key with relation := handle } := by
    unfold EdgeSnapshotV4.key
    rw [hids _ _ hsource, hids _ _ htarget, hhandle, hdirection, hinhibitory, hcausal]
    rfl
  have hview (swapped : EdgeSlotKey F) (hswapped : swapped.relation = key.relation) (held : F × F) :
      EdgeView.ofHeld W loaded.strings ({ swapped with relation := handle }, held) =
        EdgeView.ofHeld W graph.strings (swapped, held) := by
    simp only [EdgeView.ofHeld, hresolve, hswapped, hrelation]
  have hfirst : EdgeView.ofHeld W loaded.strings
      (edge.key loaded, edge.originalWeight, edge.currentWeight) =
        EdgeView.ofHeld W graph.strings (key, slotWeights graph pair.1) := by
    rw [hloaded, h.weights]
    exact hview key rfl _
  have hread : graph.readAt F pair.1 =
      some (EdgeView.ofHeld W graph.strings (key, slotWeights graph pair.1)) := by
    rw [Graph.readAt, hkey, Option.map_some]
  unfold EdgeSnapshotV4.demands
  cases hpair : pair.2 with
  | none =>
      have hforward : ¬ edge.direction = 1 := by
        intro he
        have hsome := hboth.mp (hdirection ▸ he)
        rw [hpair] at hsome
        exact absurd hsome nofun
      simp only [hforward, if_false, List.map_cons, List.map_nil, Option.toList_none, hread,
        Demand.held, hfirst]
  | some r =>
      have hboth' : edge.direction = 1 := by
        rw [hdirection, hboth, hpair]
        rfl
      have horiginal := h.reverseOriginal
      have hcurrent := h.reverseCurrent
      rw [hpair, Option.map_some] at horiginal hcurrent
      have hsecond : EdgeView.ofHeld W loaded.strings ((edge.key loaded).reversed,
          (slotWeights graph r).1, (slotWeights graph r).2) =
            EdgeView.ofHeld W graph.strings (key.reversed, slotWeights graph r) := by
        rw [hloaded]
        exact hview key.reversed rfl _
      have hread' : graph.readAt F r =
          some (EdgeView.ofHeld W graph.strings (key.reversed, slotWeights graph r)) := by
        rw [Graph.readAt, hreverse r (by rw [hpair]; rfl), Option.map_some]
      simp only [hboth', if_true, horiginal, hcurrent, List.map_cons, List.map_nil,
        Option.toList_some, hread, hread', Demand.held, hfirst, hsecond]

theorem forall₂_map_demands (format : SnapshotFormat) {pairs : List (Nat × Option Nat)}
    {edges : List (EdgeSnapshotV4 F)} (h : List.Forall₂ (Written graph ids) pairs edges)
    (hids : ∀ (s : String) (i : Nat), ids[i]? = some s → loaded.resolveId s = some i)
    (hregistered : loaded.Registered) (hnamed : ∀ edge ∈ edges, edge.Named loaded) :
    (edges.flatMap (EdgeSnapshotV4.demands format loaded)).map (fun demand =>
        some (EdgeView.ofHeld W loaded.strings demand.held)) =
      (slotsIn pairs).map (graph.readAt F) := by
  induction h with
  | nil => rfl
  | @cons pair edge pairs edges hwritten _ ih =>
      obtain ⟨hedge, hrest⟩ := List.forall_mem_cons.mp hnamed
      have hslots : slotsIn (pair :: pairs) = (pair.1 :: pair.2.toList) ++ slotsIn pairs := rfl
      rw [List.flatMap_cons, List.map_append, hwritten.map_demands format hids hregistered hedge,
        ih hrest, hslots, List.map_append]

-- The loaded slots are the slots that were read.
theorem Loaded.edgeViews_eq [DecidableEq F] {format : SnapshotFormat}
    {nodes : List (NodeSnapshot F T)} {edges : List (EdgeSnapshotV4 F)}
    {pairs : List (Nat × Option Nat)} (h : Loaded format loaded nodes edges) (htabled : graph.Tabled)
    (hwritten : List.Forall₂ (Written graph ids) pairs edges)
    (hpairs : (slotsIn pairs).Perm (List.range graph.csr.numEdges))
    (hids : ∀ (s : String) (i : Nat), ids[i]? = some s → loaded.resolveId s = some i) :
    loaded.edgeViews = graph.readViews := by
  have hdemands := forall₂_map_demands format hwritten hids h.registered h.named
  have hviews : loaded.slots.map loaded.edgeView =
      (loaded.slots.map Slot.held).map (EdgeView.ofHeld (F := F) W loaded.strings) := by
    rw [List.map_map]
    exact List.map_congr_left fun slot _ => (EdgeView.ofHeld_held loaded slot).symm
  rw [Graph.edgeViews, htabled.readViews_eq (F := F), hviews]
  refine Multiset.coe_eq_coe.mpr ((h.held.map _).trans ?_)
  have hread := congrArg (List.filterMap id) hdemands
  rw [List.filterMap_map, List.filterMap_map] at hread
  have hleft : (edges.flatMap (EdgeSnapshotV4.demands format loaded)).filterMap (id ∘ fun demand =>
      some (EdgeView.ofHeld W loaded.strings demand.held)) =
        ((edges.flatMap (EdgeSnapshotV4.demands format loaded)).map Demand.held).map
          (EdgeView.ofHeld W loaded.strings) := by
    rw [List.map_map, ← List.filterMap_eq_map]
    rfl
  rw [← hleft, hread]
  exact hpairs.filterMap _

end Views

end M1nd.Core
