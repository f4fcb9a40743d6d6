import M1nd.Core.Graph.Refinalize

namespace M1nd.Core

open M1nd.Library.Runs

variable {W T : Type}

-- A graph, and the slots that the edges added so far and the writes to them ask for.
structure Ledger (W T : Type) where
  graph : Graph W T
  demanded : Multiset (Slot W)

section Operations

variable [Zero W] [DecidableEq W]

-- The slot at a place of the CSR changes, whichever edge it belongs to.
def Graph.replaceSlot (graph : Graph W T) (demanded : Multiset (Slot W)) (slot : Nat)
    (f : Slot W → Slot W) : Multiset (Slot W) :=
  match graph.slots[slot]? with
  | some old => demanded.erase old + {f old}
  | none => demanded

def GraphOp.demand (graph : Graph W T) (demanded : Multiset (Slot W)) :
    GraphOp W T → Multiset (Slot W)
  | addEdge source target relation weight direction inhibitory causalStrength =>
      if source < graph.nodes.count ∧ target < graph.nodes.count then
        let edge : PendingEdge W := ⟨source, target, weight, inhibitory,
          (graph.strings.getOrIntern relation).1, direction, causalStrength⟩
        demanded + (edge.slot (.fresh weight)).expand
      else demanded
  | storeWeight slot weight =>
      graph.replaceSlot demanded slot fun old => { old with weight := weight }
  | storeSynapse slot synapse =>
      graph.replaceSlot demanded slot fun old => { old with synapse := synapse }
  | addNode .. | finalize => demanded

def Ledger.new : Ledger W T where
  graph := .new
  demanded := 0

def Ledger.apply (ledger : Ledger W T) (op : GraphOp W T) : Ledger W T where
  graph := op.apply ledger.graph
  demanded := op.demand ledger.graph ledger.demanded

def Ledger.run (ops : List (GraphOp W T)) : Ledger W T :=
  ops.foldl Ledger.apply Ledger.new

-- A re-finalize finds the two slots of each bidirectional edge alike, no such edge from a node
-- to itself, and no more slots than a u32 can name.
def Ledger.Calm (ledger : Ledger W T) (op : GraphOp W T) : Prop :=
  op = .finalize → ledger.graph.finalized = false →
    ledger.graph.csr.numEdges ≤ 2 ^ 32 ∧ ledger.graph.Mirrored

end Operations

section Balance

theorem List.coe_modify {α : Type} [DecidableEq α] {list : List α} {i : Nat} {old : α}
    (hold : list[i]? = some old) (f : α → α) :
    (list.modify i f : Multiset α) = (list : Multiset α).erase old + {f old} := by
  obtain ⟨hi, hget⟩ := List.getElem?_eq_some_iff.mp hold
  have hmodify : list.modify i f = list.set i (f old) := by
    rw [List.modify_eq_set_getElem?, hold]
    rfl
  have hset : (list.set i (f old) : Multiset α) = f old ::ₘ (list.eraseIdx i : Multiset α) :=
    Multiset.coe_eq_coe.mpr (List.set_perm_cons_eraseIdx hi _)
  have hlist : (list : Multiset α) = old ::ₘ (list.eraseIdx i : Multiset α) := by
    have hperm := List.getElem_cons_eraseIdx_perm hi
    rw [hget] at hperm
    exact (Multiset.coe_eq_coe.mpr hperm).symm
  rw [hmodify, hset, hlist, Multiset.erase_cons_head, Multiset.add_comm, Multiset.singleton_add]

variable [Zero W] {ledger : Ledger W T} {graph : Graph W T}

-- What is demanded are the slots of the CSR and those of the staged edges.
structure Ledger.Balanced (ledger : Ledger W T) : Prop where
  sound : ledger.graph.Sound
  listed : ledger.graph.Listed
  settled : ledger.graph.finalized = true → ledger.graph.csr.pendingEdges = []
  demanded : ledger.demanded =
    ↑(ledger.graph.slots ++ ledger.graph.stagedSlots ledger.graph.csr.numEdges)

theorem Ledger.balanced_new : (Ledger.new : Ledger W T).Balanced where
  sound := Graph.sound_new
  listed := Graph.listed_new
  settled _ := rfl
  demanded := rfl

-- The slots and the staged slots are read off the CSR and the plasticity arrays.
theorem Ledger.Balanced.of_csr (h : ledger.Balanced) {next : Graph W T} (hsound : next.Sound)
    (hcsr : next.csr = ledger.graph.csr)
    (hplasticity : next.edgePlasticity = ledger.graph.edgePlasticity)
    (hfinal : next.finalized = true → ledger.graph.finalized = true) :
    Ledger.Balanced ⟨next, ledger.demanded⟩ where
  sound := hsound
  listed := h.listed.of_csr hcsr hplasticity
  settled hnext := by
    rw [hcsr]
    exact h.settled (hfinal hnext)
  demanded := by
    rw [h.demanded]
    simp only [Graph.slots, Graph.slotAt, Graph.stagedSlots, hcsr, hplasticity]

theorem Graph.slots_getElem? (h : graph.Listed) {slot : Nat} :
    (∃ old, graph.slots[slot]? = some old) ↔ slot < graph.csr.targets.length := by
  rw [Graph.slots, ← h.length_edgeSlots, List.getElem?_map]
  constructor
  · rintro ⟨old, hold⟩
    by_contra hlt
    rw [List.getElem?_eq_none (by omega)] at hold
    exact absurd hold (by simp)
  · intro hlt
    exact ⟨_, by rw [List.getElem?_eq_getElem hlt, Option.map_some]⟩

variable [DecidableEq W]

theorem Ledger.Balanced.addEdge (h : ledger.Balanced) (source target : Nat) (relation : String)
    (weight : W) (direction : EdgeDirection) (inhibitory : Bool) (causalStrength : W) :
    (ledger.apply (.addEdge source target relation weight direction inhibitory
      causalStrength)).Balanced := by
  by_cases hends : source < ledger.graph.nodes.count ∧ target < ledger.graph.nodes.count
  · have hsource : ¬ ledger.graph.nodes.count ≤ source := by omega
    have htarget : ¬ ledger.graph.nodes.count ≤ target := by omega
    have hsound := h.sound.addEdge source target relation weight direction inhibitory causalStrength
    have hlisted := h.listed.addEdge source target relation weight direction inhibitory
      causalStrength
    simp only [Ledger.apply, GraphOp.apply, GraphOp.demand, if_pos hends]
    unfold Graph.addEdge at hsound hlisted ⊢
    rw [if_neg hsource, if_neg htarget] at hsound hlisted ⊢
    refine ⟨hsound, hlisted, (by simp), ?_⟩
    have hconcat := h.listed.stagedSlots_concat (ledger.graph.strings.getOrIntern relation).2
      ⟨source, target, weight, inhibitory, (ledger.graph.strings.getOrIntern relation).1,
        direction, causalStrength⟩ weight _ h.listed.numEdges
    have hslots := h.listed.slots_concat (ledger.graph.strings.getOrIntern relation).2
      ⟨source, target, weight, inhibitory, (ledger.graph.strings.getOrIntern relation).1,
        direction, causalStrength⟩ weight
    have hdemanded := h.demanded
    simp only [hdemanded, Multiset.coe_add, List.append_assoc, ← hconcat, ← hslots]
    rfl
  · have hrefused : (ledger.graph.addEdge source target relation weight direction inhibitory
        causalStrength).2 = ledger.graph := by
      unfold Graph.addEdge
      by_cases hsource : ledger.graph.nodes.count ≤ source
      · rw [if_pos hsource]
      · rw [if_neg hsource, if_pos (by omega)]
    simp only [Ledger.apply, GraphOp.apply, GraphOp.demand, if_neg hends, hrefused]
    exact h

-- A write to one slot replaces it in the CSR and among what is demanded.
theorem Ledger.Balanced.store (h : ledger.Balanced) {slot : Nat} {f : Slot W → Slot W}
    {next : Graph W T} (hslot : slot < ledger.graph.csr.targets.length) (hsound : next.Sound)
    (hlisted : next.Listed) (hpending : next.csr.pendingEdges = ledger.graph.csr.pendingEdges)
    (hfinal : next.finalized = ledger.graph.finalized)
    (hslots : next.slots = ledger.graph.slots.modify slot f)
    (hstaged : next.stagedSlots next.csr.numEdges =
      ledger.graph.stagedSlots ledger.graph.csr.numEdges) :
    Ledger.Balanced ⟨next, ledger.graph.replaceSlot ledger.demanded slot f⟩ where
  sound := hsound
  listed := hlisted
  settled hnext := by
    rw [hpending]
    exact h.settled (hfinal ▸ hnext)
  demanded := by
    obtain ⟨old, hold⟩ := (Graph.slots_getElem? h.listed).mpr hslot
    have hmem : old ∈ (ledger.graph.slots : Multiset (Slot W)) :=
      Multiset.mem_coe.mpr (List.mem_of_getElem? hold)
    simp only [Graph.replaceSlot, hold, h.demanded, hslots, hstaged]
    rw [← Multiset.coe_add, ← Multiset.coe_add, List.coe_modify hold,
      Multiset.erase_add_left_pos _ hmem, Multiset.add_assoc, Multiset.add_assoc]
    congr 1
    exact Multiset.add_comm _ _

theorem Ledger.Balanced.storeWeight (h : ledger.Balanced) (slot : Nat) (weight : W) :
    (ledger.apply (.storeWeight slot weight)).Balanced := by
  by_cases hslot : slot < ledger.graph.csr.targets.length
  · simp only [Ledger.apply, GraphOp.apply, GraphOp.demand, if_pos hslot]
    exact h.store hslot (h.sound.storeWeight slot weight) (h.listed.storeWeight slot weight) rfl rfl
      (h.listed.slots_storeWeight weight hslot) rfl
  · have hnone : ledger.graph.slots[slot]? = none := by
      by_contra hne
      exact hslot ((Graph.slots_getElem? h.listed).mp (Option.ne_none_iff_exists'.mp hne))
    simp only [Ledger.apply, GraphOp.apply, GraphOp.demand, if_neg hslot, Graph.replaceSlot, hnone]
    exact h

theorem Ledger.Balanced.storeSynapse (h : ledger.Balanced) (slot : Nat)
    (synapse : SynapseRecord W) : (ledger.apply (.storeSynapse slot synapse)).Balanced := by
  by_cases hslot : slot < ledger.graph.csr.targets.length
  · simp only [Ledger.apply, GraphOp.apply, GraphOp.demand, if_pos hslot]
    refine h.store hslot (h.sound.storeSynapse slot synapse) (h.listed.storeSynapse slot synapse)
      rfl rfl (h.listed.slots_storeSynapse synapse hslot) ?_
    -- The plasticity of the staged edges lies behind every slot.
    apply List.flatMap_congr
    intro indexed _
    have hnum := h.listed.numEdges
    have hne : slot ≠ ledger.graph.csr.numEdges + indexed.2 := by omega
    rw [EdgePlasticity.row_store_of_ne hne]
  · have hnone : ledger.graph.slots[slot]? = none := by
      by_contra hne
      exact hslot ((Graph.slots_getElem? h.listed).mp (Option.ne_none_iff_exists'.mp hne))
    simp only [Ledger.apply, GraphOp.apply, GraphOp.demand, if_neg hslot, Graph.replaceSlot, hnone]
    exact h

omit [DecidableEq W] in
theorem Ledger.Balanced.pending_finalize (h : ledger.Balanced) :
    ledger.graph.finalize.csr.pendingEdges = [] := by
  unfold Graph.finalize
  by_cases hfinal : ledger.graph.finalized = true
  · rw [if_pos hfinal]
    exact h.settled hfinal
  · rw [if_neg hfinal]
    by_cases hedges : 0 < ledger.graph.csr.numEdges
    · rw [if_pos hedges]
      rfl
    · rw [if_neg hedges]
      rfl

theorem Ledger.Balanced.finalize (h : ledger.Balanced) (hcalm : ledger.Calm .finalize) :
    (ledger.apply .finalize).Balanced := by
  have hpending := h.pending_finalize
  refine ⟨h.sound.finalize, h.listed.finalize h.sound, fun _ => hpending, ?_⟩
  have hstaged (first : Nat) : ledger.graph.finalize.stagedSlots first = [] := by
    rw [Graph.stagedSlots, hpending]
    rfl
  change ledger.demanded = ↑(ledger.graph.finalize.slots ++ ledger.graph.finalize.stagedSlots _)
  rw [h.demanded, hstaged, List.append_nil]
  cases hfinal : ledger.graph.finalized with
  | true =>
      have hsame : ledger.graph.finalize = ledger.graph := by rw [Graph.finalize, if_pos hfinal]
      rw [hsame, Graph.stagedSlots, h.settled hfinal]
      simp
  | false =>
      obtain ⟨hbound, hmirrored⟩ := hcalm rfl hfinal
      have hperm := (Graph.finalize_slots_perm_iff h.sound h.listed hfinal hbound).mpr hmirrored
      exact Multiset.coe_eq_coe.mpr hperm.symm

theorem Ledger.Balanced.apply (h : ledger.Balanced) {op : GraphOp W T} (hcalm : ledger.Calm op) :
    (ledger.apply op).Balanced := by
  cases op with
  | addNode externalId label nodeType tags lastModified changeFrequency =>
      have hsound := h.sound.addNode externalId label nodeType tags lastModified changeFrequency
      change Ledger.Balanced ⟨(ledger.graph.addNode externalId label nodeType tags lastModified
        changeFrequency).2, ledger.demanded⟩
      obtain ⟨strings, he⟩ | ⟨nodes, strings, idToNode, -, he⟩ := ledger.graph.addNode_cases
        externalId label nodeType tags lastModified changeFrequency
      · exact h.of_csr hsound (by rw [he]) (by rw [he]) (by rw [he]; exact id)
      · exact h.of_csr hsound (by rw [he]) (by rw [he]) (by rw [he]; exact nofun)
  | addEdge source target relation weight direction inhibitory causalStrength =>
      exact h.addEdge source target relation weight direction inhibitory causalStrength
  | storeWeight slot weight => exact h.storeWeight slot weight
  | storeSynapse slot synapse => exact h.storeSynapse slot synapse
  | finalize => exact h.finalize hcalm

theorem Ledger.balanced_run {ops : List (GraphOp W T)}
    (h : MetAlong Ledger.apply Ledger.Calm Ledger.new ops) : (Ledger.run ops).Balanced :=
  h.invariant Ledger.Balanced Ledger.balanced_new fun _ _ hbalanced hcalm => hbalanced.apply hcalm

-- In a run whose re-finalizes are calm every finalize leaves the slots that are demanded, no
-- more and no fewer.
theorem Ledger.slots_conserved {ops : List (GraphOp W T)}
    (h : MetAlong Ledger.apply Ledger.Calm Ledger.new (ops ++ [.finalize])) :
    ((Ledger.run (ops ++ [.finalize])).graph.slots : Multiset (Slot W)) =
      (Ledger.run (ops ++ [.finalize])).demanded := by
  have hbalanced := Ledger.balanced_run h
  have hpending : (Ledger.run (ops ++ [.finalize])).graph.csr.pendingEdges = [] := by
    apply hbalanced.settled
    rw [Ledger.run, List.foldl_append]
    exact Graph.finalized_finalize
  rw [hbalanced.demanded, Graph.stagedSlots, hpending]
  simp

theorem Ledger.bidirectional_slots_conserved :
    let ops : List (GraphOp Nat Nat) := [.addNode "a" "a" .File [] 0 0,
      .addNode "b" "b" .File [] 0 0, .addEdge 0 1 "calls" 1 .Bidirectional false 0, .finalize,
      .addNode "c" "c" .File [] 0 0]
    ((Ledger.run (ops ++ [.finalize])).graph.slots : Multiset (Slot Nat)) =
      (Ledger.run (ops ++ [.finalize])).demanded := by
  refine Ledger.slots_conserved ?_
  refine ⟨nofun, nofun, nofun, fun _ _ => ⟨?_, ?_⟩, nofun, fun _ _ => ⟨?_, ?_⟩, trivial⟩
  · decide +kernel
  · unfold Graph.Mirrored
    decide +kernel
  · decide +kernel
  · unfold Graph.Mirrored
    decide +kernel

-- A node calls itself, and another node is added after the finalize. The next finalize stages
-- both slots of the self-loop.
def GraphOp.selfLoop : List (GraphOp Nat Nat) :=
  [.addNode "a" "a" .File [] 0 0, .addEdge 0 0 "calls" 1 .Bidirectional false 0, .finalize,
    .addNode "b" "b" .File [] 0 0]

theorem Ledger.self_loop_duplicated :
    ¬ ∀ ops : List (GraphOp Nat Nat),
      ((Ledger.run (ops ++ [.finalize])).graph.slots : Multiset (Slot Nat)) =
        (Ledger.run (ops ++ [.finalize])).demanded := by
  intro h
  have hbalanced : (Ledger.run GraphOp.selfLoop).Balanced := by
    apply Ledger.balanced_run
    refine ⟨nofun, nofun, fun _ _ => ⟨?_, ?_⟩, nofun, trivial⟩
    · decide +kernel
    · unfold Graph.Mirrored
      decide +kernel
  have hrun : Ledger.run (GraphOp.selfLoop ++ [.finalize]) = (Ledger.run GraphOp.selfLoop).apply .finalize := by
    rw [Ledger.run, List.foldl_append]
    rfl
  have hslots := h GraphOp.selfLoop
  rw [hrun] at hslots
  have hperm := Multiset.coe_eq_coe.mp (hslots.trans hbalanced.demanded)
  have hmirrored := (Graph.finalize_slots_perm_iff hbalanced.sound hbalanced.listed rfl
    (by decide +kernel)).mp hperm
  revert hmirrored
  unfold Graph.Mirrored
  decide +kernel

end Balance

end M1nd.Core
