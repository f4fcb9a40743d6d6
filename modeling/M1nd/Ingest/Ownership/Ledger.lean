import M1nd.Ingest.Ownership.Content

namespace M1nd.Ingest

open M1nd.Core
open M1nd.Library.Runs

variable {W T : Type} [Zero W]

-- A graph, and the edges that were added to it.
structure ContentLedger (W T : Type) where
  graph : Graph W T
  edges : Multiset (EdgeContent W)

section Operations

variable [DecidableEq W]

-- A write to the slot of a forward edge may give it another original weight.
def recordEdit (graph : Graph W T) (edges : Multiset (EdgeContent W)) :
    GraphEdit W T → Multiset (EdgeContent W)
  | .operate (.addEdge source target relation weight direction inhibitory causalStrength) =>
      if source < graph.nodes.count ∧ target < graph.nodes.count then
        edges + {{
          ends := .of (nodeName graph source) (nodeName graph target) direction
          relation := relation
          inhibitory := inhibitory
          originalWeight := weight
          causalStrength := causalStrength }}
      else edges
  | .operate (.storeSynapse slot synapse) =>
      match graph.slots[slot]? with
      | some old =>
          if old.isBidirectional then edges
          else edges.erase (edgeContent graph old) +
            {{ edgeContent graph old with originalWeight := synapse.originalWeight }}
      | none => edges
  | _ => edges

namespace ContentLedger

def new : ContentLedger W T where
  graph := .new
  edges := 0

def apply (ledger : ContentLedger W T) (edit : GraphEdit W T) : ContentLedger W T where
  graph := edit.apply ledger.graph
  edges := recordEdit ledger.graph ledger.edges edit

def run (edits : List (GraphEdit W T)) : ContentLedger W T :=
  edits.foldl apply new

-- A re-finalize finds no bidirectional slot from a node to itself, and a write to one of the two
-- slots of a bidirectional edge keeps the original weight, as learning does.
def Steady (ledger : ContentLedger W T) : GraphEdit W T → Prop
  | .operate .finalize => ledger.graph.finalized = false → Loopfree ledger.graph.slots
  | .operate (.storeSynapse slot synapse) => ∀ old, ledger.graph.slots[slot]? = some old →
      old.isBidirectional = true → synapse.originalWeight = old.synapse.originalWeight
  | _ => True

end ContentLedger

end Operations

section Steps

variable {graph next : Graph W T} {ledger : ContentLedger W T}

-- The slots of the CSR and those that the staged edges ask for.
def heldSlots (graph : Graph W T) : List (Slot W) :=
  graph.slots ++ graph.stagedSlots graph.csr.numEdges

def Slot.unweighted (slot : Slot W) : Slot W :=
  { slot with weight := 0 }

-- The learned weight of a slot is not read.
theorem contents_congr {slots slots' : List (Slot W)}
    (h : slots.map Slot.unweighted = slots'.map Slot.unweighted) :
    contents graph slots = contents graph slots' := by
  have hcontents (slots : List (Slot W)) :
      contents graph slots = contents graph (slots.map Slot.unweighted) := by
    rw [contents, contents, List.filter_map, List.map_map]
    rfl
  rw [hcontents slots, hcontents slots', h]

theorem heldSlots_of_csr (hcsr : next.csr = graph.csr)
    (hplasticity : next.edgePlasticity = graph.edgePlasticity) :
    heldSlots next = heldSlots graph := by
  simp only [heldSlots, Graph.slots, Graph.slotAt, Graph.stagedSlots, hcsr, hplasticity]

theorem Whole.within_heldSlots (h : Whole graph) {slot : Slot W} (hslot : slot ∈ heldSlots graph) :
    Within graph slot := by
  obtain hslot | hslot := List.mem_append.mp hslot
  · exact h.within_slots hslot
  · exact h.within_stagedSlots hslot

theorem map_modify_eq {α β : Type} {items : List α} {i : Nat} {f : α → α} {g : α → β}
    (h : ∀ a, g (f a) = g a) : (items.modify i f).map g = items.map g := by
  apply List.ext_getElem?
  intro j
  rw [List.getElem?_map, List.getElem?_map, List.getElem?_modify]
  cases items[j]? with
  | none => rfl
  | some a =>
      by_cases hj : i = j
      · simp [hj, h]
      · simp [hj]

theorem exists_modify_eq {α : Type} {items : List α} {i : Nat} {a : α} (h : items[i]? = some a)
    (f : α → α) : ∃ before after, items = before ++ a :: after ∧
      items.modify i f = before ++ f a :: after := by
  induction items generalizing i with
  | nil => simp at h
  | cons b items ih =>
      cases i with
      | zero =>
          obtain rfl := Option.some.inj h
          exact ⟨[], items, rfl, rfl⟩
      | succ i =>
          obtain ⟨before, after, hitems, hmodify⟩ := ih h
          exact ⟨b :: before, after, by rw [hitems, List.cons_append],
            by rw [List.modify_succ_cons, hmodify, List.cons_append]⟩

-- The edges of the ledger are those that are read of the slots.
structure ContentLedger.Booked (ledger : ContentLedger W T) : Prop where
  whole : Whole ledger.graph
  settled : ledger.graph.finalized = true → ledger.graph.csr.pendingEdges = []
  edges : contents ledger.graph (heldSlots ledger.graph) = ledger.edges.bind EdgeContent.read

namespace ContentLedger

theorem booked_new : (new : ContentLedger W T).Booked where
  whole := whole_run []
  settled _ := rfl
  edges := rfl

-- A step that keeps the slots but for their weights.
theorem Booked.carry (h : ledger.Booked) (hnext : Whole next) (hcarries : Carries ledger.graph next)
    (hpending : next.csr.pendingEdges = ledger.graph.csr.pendingEdges)
    (hfinal : next.finalized = true → ledger.graph.finalized = true)
    (hslots : (heldSlots next).map Slot.unweighted =
      (heldSlots ledger.graph).map Slot.unweighted) : Booked ⟨next, ledger.edges⟩ where
  whole := hnext
  settled hsettled := hpending.trans (h.settled (hfinal hsettled))
  edges := by
    have hcontents : contents next (heldSlots ledger.graph) =
        contents ledger.graph (heldSlots ledger.graph) :=
      hcarries.contents_eq h.whole.registered hnext.registered fun _ => h.whole.within_heldSlots
    rw [← h.edges, ← hcontents]
    exact contents_congr hslots

end ContentLedger

-- A finalize changes neither the nodes nor their names.
theorem edgeContent_finalize (graph : Graph W T) (slot : Slot W) :
    edgeContent graph.finalize slot = edgeContent graph slot := by
  have hsame : graph.finalize.nodes = graph.nodes ∧ graph.finalize.idToNode = graph.idToNode ∧
      graph.finalize.strings = graph.strings := by
    unfold Graph.finalize
    by_cases hfinal : graph.finalized = true
    · rw [if_pos hfinal]
      exact ⟨rfl, rfl, rfl⟩
    · rw [if_neg hfinal]
      by_cases hedges : 0 < graph.csr.numEdges
      · rw [if_pos hedges]
        exact ⟨rfl, rfl, rfl⟩
      · rw [if_neg hedges]
        exact ⟨rfl, rfl, rfl⟩
  obtain ⟨hnodes, hids, hstrings⟩ := hsame
  simp only [edgeContent, nodeName, nodeExternalIds, resolveName, Graph.numNodes, hnodes, hids,
    hstrings]

-- A finalize of a graph with edges places the slots that it harvests and stages again.
theorem slots_finalize_perm (h : Whole graph) (hfinal : graph.finalized = false)
    (hedges : 0 < graph.csr.numEdges) :
    graph.finalize.slots.Perm (graph.rehydrateCsrIntoPending.stagedSlots 0) := by
  rw [Graph.finalize, hfinal, if_neg Bool.false_ne_true, if_pos hedges]
  exact h.sound.rehydrated.rebuilt.slots_perm h.sound.rehydrated

-- A finalize keeps the contents unless it finds a bidirectional slot from a node to itself.
theorem contents_finalize (h : Whole graph) (hfinal : graph.finalized = false)
    (hloop : Loopfree graph.slots) :
    contents graph graph.finalize.slots = contents graph (heldSlots graph) := by
  by_cases hedges : 0 < graph.csr.numEdges
  · have hunweighted : (graph.rehydrateCsrIntoPending.stagedSlots 0).map Slot.unweighted =
        ((graph.slots.filter Slot.isCanonical).flatMap Slot.expand ++
          graph.stagedSlots graph.csr.numEdges).map Slot.unweighted := by
      rw [Graph.stagedSlots_rehydrate_harvested, ← Graph.map_harvestedSlots, List.flatMap_map,
        List.map_append, List.map_append, List.map_flatMap, List.map_flatMap]
      congr 1
      apply List.flatMap_congr
      intro slot _
      have hexpand (slot : Slot W) :
          slot.expand.map Slot.unweighted = (Slot.unweighted slot).expand := by
        unfold Slot.expand
        rw [apply_ite (List.map Slot.unweighted)]
        rfl
      rw [hexpand, hexpand]
      rfl
    rw [contents_perm (slots_finalize_perm h hfinal hedges), contents_congr hunweighted,
      contents_append, contents_flatMap_expand graph hloop, heldSlots, contents_append]
  · rw [Graph.finalize, hfinal, if_neg Bool.false_ne_true, if_neg hedges]
    have hzero : graph.csr.numEdges = 0 := by omega
    rw [contents_perm (h.sound.staged.rebuilt.slots_perm h.sound.staged), heldSlots,
      h.listed.slots_eq_nil hedges, hzero, List.nil_append]

theorem pendingEdges_finalize (hsettled : graph.finalized = true → graph.csr.pendingEdges = []) :
    graph.finalize.csr.pendingEdges = [] := by
  unfold Graph.finalize
  by_cases hfinal : graph.finalized = true
  · rw [if_pos hfinal]
    exact hsettled hfinal
  · rw [if_neg hfinal]
    by_cases hedges : 0 < graph.csr.numEdges
    · rw [if_pos hedges]
      rfl
    · rw [if_neg hedges]
      rfl

namespace ContentLedger

-- A step that stages one more edge.
theorem Booked.stage (h : ledger.Booked) (hnext : Whole next) (hcarries : Carries ledger.graph next)
    (hfinal : next.finalized = false) {slot : Slot W} {edge : EdgeContent W}
    (hheld : heldSlots next = heldSlots ledger.graph ++ slot.expand) (hwithin : Within next slot)
    (hedge : edgeContent next slot = edge) : Booked ⟨next, ledger.edges + {edge}⟩ where
  whole := hnext
  settled hsettled := by
    rw [hfinal] at hsettled
    exact absurd hsettled Bool.false_ne_true
  edges := by
    have hcontents : contents next (heldSlots ledger.graph) =
        contents ledger.graph (heldSlots ledger.graph) :=
      hcarries.contents_eq h.whole.registered hnext.registered fun _ => h.whole.within_heldSlots
    change contents next (heldSlots next) = (ledger.edges + {edge}).bind _
    rw [hheld, contents_append, hcontents, h.edges, contents_expand hnext.registered hwithin, hedge,
      Multiset.add_bind, Multiset.singleton_bind]

variable [DecidableEq W]

theorem Booked.addEdge (h : ledger.Booked) (source target : Nat) (relation : String) (weight : W)
    (direction : EdgeDirection) (inhibitory : Bool) (causalStrength : W)
    (hnext : Whole (ledger.graph.addEdge source target relation weight direction inhibitory
      causalStrength).2) :
    (ledger.apply (.operate (.addEdge source target relation weight direction inhibitory
      causalStrength))).Booked := by
  by_cases hends : source < ledger.graph.nodes.count ∧ target < ledger.graph.nodes.count
  · have hsource : ¬ ledger.graph.nodes.count ≤ source := by omega
    have htarget : ¬ ledger.graph.nodes.count ≤ target := by omega
    obtain ⟨hfaithful, hextends, hrelation⟩ := h.whole.registered.faithful.getOrIntern relation
    have hconcat := h.whole.listed.stagedSlots_concat
      (ledger.graph.strings.getOrIntern relation).2 ⟨source, target, weight, inhibitory,
        (ledger.graph.strings.getOrIntern relation).1, direction, causalStrength⟩ weight _
      h.whole.listed.numEdges
    have hslots := h.whole.listed.slots_concat (ledger.graph.strings.getOrIntern relation).2
      ⟨source, target, weight, inhibitory, (ledger.graph.strings.getOrIntern relation).1,
        direction, causalStrength⟩ weight
    simp only [ContentLedger.apply, GraphEdit.apply, GraphOp.apply, recordEdit, if_pos hends]
    unfold Graph.addEdge at hnext ⊢
    rw [if_neg hsource, if_neg htarget] at hnext ⊢
    have hcarries : Carries ledger.graph { ledger.graph with
        strings := (ledger.graph.strings.getOrIntern relation).2
        edgePlasticity := ledger.graph.edgePlasticity.push (.fresh weight)
        csr := { ledger.graph.csr with
          pendingEdges := ledger.graph.csr.pendingEdges ++ [⟨source, target, weight, inhibitory,
            (ledger.graph.strings.getOrIntern relation).1, direction, causalStrength⟩] }
        finalized := false } :=
      carries_of_strings h.whole.registered rfl rfl hfaithful hextends
    refine h.stage hnext hcarries rfl
      ((congrArg₂ (· ++ ·) hslots hconcat).trans (List.append_assoc _ _ _).symm)
      ⟨hends.1, hends.2, StringInterner.lt_of_tryResolve hrelation⟩ ?_
    have hname := hcarries.nodeName_eq h.whole.registered hnext.registered hends.1
    have hname' := hcarries.nodeName_eq h.whole.registered hnext.registered hends.2
    have hresolve : ((ledger.graph.strings.getOrIntern relation).2.tryResolve
        (ledger.graph.strings.getOrIntern relation).1).getD "" = relation := by
      rw [hrelation]
      rfl
    unfold edgeContent PendingEdge.slot
    rw [EdgeContent.mk.injEq]
    exact ⟨congrArg₂ (Ends.of · · direction) hname hname', hresolve, rfl, rfl, rfl⟩
  · have hrefused : (ledger.graph.addEdge source target relation weight direction inhibitory
        causalStrength).2 = ledger.graph := by
      unfold Graph.addEdge
      by_cases hsource : ledger.graph.nodes.count ≤ source
      · rw [if_pos hsource]
      · rw [if_neg hsource, if_pos (by omega)]
    simp only [ContentLedger.apply, GraphEdit.apply, GraphOp.apply, recordEdit, if_neg hends, hrefused]
    exact h

theorem Booked.storeWeight (h : ledger.Booked) (slot : Nat) (weight : W)
    (hnext : Whole (GraphOp.apply ledger.graph (.storeWeight slot weight))) :
    (ledger.apply (.operate (.storeWeight slot weight))).Booked := by
  by_cases hslot : slot < ledger.graph.csr.targets.length
  · simp only [ContentLedger.apply, GraphEdit.apply, GraphOp.apply, recordEdit, if_pos hslot] at hnext ⊢
    refine h.carry hnext (.of_eq rfl rfl) rfl id ?_
    have hslots := h.whole.listed.slots_storeWeight weight hslot
    rw [heldSlots, heldSlots, hslots, List.map_append, List.map_append]
    congr 1
    exact map_modify_eq fun _ => rfl
  · simp only [ContentLedger.apply, GraphEdit.apply, GraphOp.apply, recordEdit, if_neg hslot]
    exact h

-- A write to the plasticity of a slot changes what is read of that slot.
theorem Booked.storeSynapse (h : ledger.Booked) (slot : Nat) (synapse : SynapseRecord W)
    (hsteady : ledger.Steady (.operate (.storeSynapse slot synapse)))
    (hnext : Whole (GraphOp.apply ledger.graph (.storeSynapse slot synapse))) :
    (ledger.apply (.operate (.storeSynapse slot synapse))).Booked := by
  by_cases hslot : slot < ledger.graph.csr.targets.length
  · obtain ⟨old, hold⟩ := (Graph.slots_getElem? h.whole.listed).mpr hslot
    have hslots := h.whole.listed.slots_storeSynapse synapse hslot
    have hstaged : ({ ledger.graph with
        edgePlasticity := ledger.graph.edgePlasticity.store slot synapse } :
          Graph W T).stagedSlots ledger.graph.csr.numEdges =
        ledger.graph.stagedSlots ledger.graph.csr.numEdges := by
      apply List.flatMap_congr
      intro indexed _
      have hnum := h.whole.listed.numEdges
      have hne : slot ≠ ledger.graph.csr.numEdges + indexed.2 := by omega
      rw [EdgePlasticity.row_store_of_ne hne]
    obtain ⟨before, after, hsplit, hmodify⟩ := exists_modify_eq hold
      fun (old : Slot W) => { old with synapse := synapse }
    have hread := h.edges
    rw [heldSlots, hsplit, List.append_assoc, List.cons_append, contents_middle] at hread
    simp only [ContentLedger.apply, GraphEdit.apply, GraphOp.apply, recordEdit, if_pos hslot, hold]
      at hnext ⊢
    refine ⟨hnext, h.settled, ?_⟩
    -- The names of a slot do not depend on its plasticity.
    change contents ledger.graph (heldSlots _) = Multiset.bind _ _
    rw [heldSlots, hslots, hmodify, hstaged, List.append_assoc, List.cons_append, contents_middle]
    cases hboth : old.isBidirectional with
    | true =>
        have hsame : contents ledger.graph [{ old with synapse := synapse }] =
            contents ledger.graph [old] := by
          have hweight := hsteady old hold hboth
          have hedge : edgeContent ledger.graph { old with synapse := synapse } =
              edgeContent ledger.graph old := by
            rw [edgeContent, hweight]
            rfl
          have hcanonical : ({ old with synapse := synapse } : Slot W).isCanonical =
              old.isCanonical := rfl
          unfold contents
          rw [List.filter_cons, List.filter_cons, hcanonical]
          cases old.isCanonical with
          | true => exact congrArg (fun edge => ({edge} : Multiset (EdgeContent W))) hedge
          | false => rfl
        rw [if_pos rfl, hsame, hread]
    | false =>
        obtain ⟨hcontents, hedge⟩ := contents_forward ledger.graph hboth
        obtain ⟨hcontents', hedge'⟩ := contents_forward ledger.graph
          (show ({ old with synapse := synapse } : Slot W).isBidirectional = false from hboth)
        rw [hcontents] at hread
        have hmem : edgeContent ledger.graph old ∈ ledger.edges := by
          have hcount := congrArg (Multiset.count (edgeContent ledger.graph old)) hread
          rw [count_bind_read, Multiset.count_add, Multiset.count_singleton_self] at hcount
          rw [← Multiset.count_pos]
          by_contra hzero
          have hzero : ledger.edges.count (edgeContent ledger.graph old) = 0 := by omega
          rw [hzero, Nat.mul_zero] at hcount
          omega
        have hrest := hread
        rw [← Multiset.cons_erase hmem, Multiset.cons_bind, hedge] at hrest
        rw [if_neg Bool.false_ne_true, hcontents', Multiset.add_bind, Multiset.singleton_bind,
          add_left_cancel hrest, Multiset.add_comm]
        exact congrArg _ hedge'.symm
  · have hnone : ledger.graph.slots[slot]? = none := by
      by_contra hne
      exact hslot ((Graph.slots_getElem? h.whole.listed).mp (Option.ne_none_iff_exists'.mp hne))
    simp only [ContentLedger.apply, GraphEdit.apply, GraphOp.apply, recordEdit, if_neg hslot, hnone]
    exact h

theorem Booked.finalize (h : ledger.Booked) (hsteady : ledger.Steady (.operate .finalize))
    (hnext : Whole ledger.graph.finalize) : (ledger.apply (.operate .finalize)).Booked := by
  have hpending := pendingEdges_finalize h.settled
  refine ⟨hnext, fun _ => hpending, ?_⟩
  change contents ledger.graph.finalize (heldSlots ledger.graph.finalize) =
    ledger.edges.bind EdgeContent.read
  have hheld : heldSlots ledger.graph.finalize = ledger.graph.finalize.slots := by
    rw [heldSlots, Graph.stagedSlots, hpending]
    exact List.append_nil _
  rw [hheld, ← h.edges]
  cases hfinal : ledger.graph.finalized with
  | true =>
      have hsame : ledger.graph.finalize = ledger.graph := by rw [Graph.finalize, if_pos hfinal]
      rw [hsame] at hheld ⊢
      rw [hheld]
  | false =>
      rw [← contents_finalize h.whole hfinal (hsteady hfinal)]
      exact congrArg _ (List.map_congr_left fun slot _ => edgeContent_finalize ledger.graph slot)

theorem Booked.apply (h : ledger.Booked) {edit : GraphEdit W T} (hsteady : ledger.Steady edit)
    (hnext : Whole (edit.apply ledger.graph)) : (ledger.apply edit).Booked := by
  cases edit with
  | setNodeProvenance node provenance =>
      have hfields : (ledger.graph.setNodeProvenance node provenance).csr = ledger.graph.csr ∧
          (ledger.graph.setNodeProvenance node provenance).edgePlasticity =
            ledger.graph.edgePlasticity ∧
          (ledger.graph.setNodeProvenance node provenance).finalized = ledger.graph.finalized := by
        unfold Graph.setNodeProvenance
        split <;> exact ⟨rfl, rfl, rfl⟩
      obtain ⟨hcsr, hplasticity, hfinal⟩ := hfields
      exact h.carry hnext (carries_setNodeProvenance h.whole.registered node provenance)
        (congrArg _ hcsr) (fun hnow => hfinal ▸ hnow)
        (congrArg _ (heldSlots_of_csr hcsr hplasticity))
  | operate op =>
      cases op with
      | addNode externalId label nodeType tags lastModified changeFrequency =>
          have hcarries := carries_addNode h.whole.registered externalId label nodeType tags
            lastModified changeFrequency
          change Booked ⟨(ledger.graph.addNode externalId label nodeType tags lastModified
            changeFrequency).2, ledger.edges⟩
          change Whole (ledger.graph.addNode externalId label nodeType tags lastModified
            changeFrequency).2 at hnext
          obtain ⟨strings, he⟩ | ⟨nodes, strings, idToNode, -, he⟩ := ledger.graph.addNode_cases
            externalId label nodeType tags lastModified changeFrequency
          · rw [he] at hnext hcarries ⊢
            exact h.carry hnext hcarries rfl id rfl
          · rw [he] at hnext hcarries ⊢
            refine h.carry hnext hcarries rfl (fun hnow => ?_) rfl
            exact absurd hnow Bool.false_ne_true
      | addEdge source target relation weight direction inhibitory causalStrength =>
          exact h.addEdge source target relation weight direction inhibitory causalStrength hnext
      | storeWeight slot weight => exact h.storeWeight slot weight hnext
      | storeSynapse slot synapse => exact h.storeSynapse slot synapse hsteady hnext
      | finalize => exact h.finalize hsteady hnext

theorem graph_run (edits : List (GraphEdit W T)) : (run edits).graph = GraphEdit.run edits := by
  induction edits using List.reverseRecOn with
  | nil => rfl
  | append_singleton edits edit ih =>
      rw [run, List.foldl_append, GraphEdit.run, List.foldl_append]
      exact congrArg (GraphEdit.apply · edit) ih

-- In a run of steady steps the edges of the ledger are those that are read of the slots.
theorem booked_run {edits : List (GraphEdit W T)} (h : MetAlong apply Steady new edits) :
    (run edits).Booked := by
  induction edits using List.reverseRecOn with
  | nil => exact booked_new
  | append_singleton edits edit ih =>
      obtain ⟨hedits, hsteady⟩ := MetAlong.concat_iff.mp h
      have hnext : Whole (edit.apply (run edits).graph) := by
        have hwhole := whole_run (edits ++ [edit])
        rw [GraphEdit.run, List.foldl_append] at hwhole
        rw [graph_run]
        exact hwhole
      rw [run, List.foldl_append]
      exact (ih hedits).apply hsteady hnext

-- After a finalize nothing is staged, so that the slots alone are read.
theorem contents_run {edits : List (GraphEdit W T)} (h : MetAlong apply Steady new edits)
    (hfinal : (GraphEdit.run edits).finalized = true) :
    contents (GraphEdit.run edits) (GraphEdit.run edits).slots =
      (run edits).edges.bind EdgeContent.read := by
  have hbooked := booked_run h
  have hread := hbooked.edges
  rw [graph_run, heldSlots, Graph.stagedSlots] at hread
  have hsettled := hbooked.settled
  rw [graph_run] at hsettled
  rw [hsettled hfinal] at hread
  simpa using hread

end ContentLedger

end Steps

end M1nd.Ingest
