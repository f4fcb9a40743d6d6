import M1nd.Ingest.Merge.Links
import Mathlib.Data.Multiset.Bind
import Mathlib.Data.Sym.Sym2.Order

namespace M1nd.Ingest

open M1nd.Core
open M1nd.Library.Buckets

variable {W T : Type}

-- The ends of an edge. Those of a bidirectional edge have no order.
inductive Ends
  | forward (source target : String)
  | bidirectional (ends : Sym2 String)

def Ends.first : Ends → String
  | .forward source _ => source
  | .bidirectional ends => ends.inf

def Ends.last : Ends → String
  | .forward _ target => target
  | .bidirectional ends => ends.sup

def Ends.code : Ends → UInt8
  | .forward _ _ => 0
  | .bidirectional _ => 1

theorem Ends.eq_of {ends ends' : Ends} (hfirst : ends.first = ends'.first)
    (hlast : ends.last = ends'.last) (hcode : ends.code = ends'.code) : ends = ends' := by
  cases ends with
  | forward source target =>
      cases ends' with
      | forward source' target' => exact congrArg₂ Ends.forward hfirst hlast
      | bidirectional ends' => exact absurd hcode (by simp [code])
  | bidirectional ends =>
      cases ends' with
      | forward source' target' => exact absurd hcode (by simp [code])
      | bidirectional ends' =>
          exact congrArg Ends.bidirectional (Sym2.inf_eq_inf_and_sup_eq_sup.mp ⟨hfirst, hlast⟩)

instance Ends.decidableEq : DecidableEq Ends := fun ends ends' =>
  decidable_of_iff
    (ends.first = ends'.first ∧ ends.last = ends'.last ∧ ends.code = ends'.code)
    ⟨fun h => Ends.eq_of h.1 h.2.1 h.2.2, fun h => h ▸ ⟨rfl, rfl, rfl⟩⟩

def Ends.of (source target : String) : EdgeDirection → Ends
  | .Forward => .forward source target
  | .Bidirectional => .bidirectional s(source, target)

-- A bidirectional edge from a node to itself.
def Ends.isLoop : Ends → Bool
  | .forward _ _ => false
  | .bidirectional ends => decide ends.IsDiag

-- What an edge is, without regard to the numbering of the nodes and to what it has learned.
@[ext]
structure EdgeContent (W : Type) where
  ends : Ends
  relation : String
  inhibitory : Bool
  originalWeight : W
  causalStrength : W

instance EdgeContent.decidableEq [DecidableEq W] : DecidableEq (EdgeContent W) := fun _ _ =>
  decidable_of_iff _ EdgeContent.ext_iff.symm

def edgeContent (graph : Graph W T) (slot : Slot W) : EdgeContent W where
  ends := .of (nodeName graph slot.source) (nodeName graph slot.target) slot.direction
  relation := resolveName graph slot.relation
  inhibitory := slot.inhibitory
  originalWeight := slot.synapse.originalWeight
  causalStrength := slot.causalStrength

-- Of the two slots of an edge the one along the numbering is read.
def contents (graph : Graph W T) (slots : List (Slot W)) : Multiset (EdgeContent W) :=
  ↑((slots.filter Slot.isCanonical).map (edgeContent graph))

-- Of a bidirectional edge from a node to itself both slots are.
def EdgeContent.read (edge : EdgeContent W) : Multiset (EdgeContent W) :=
  if edge.ends.isLoop then {edge, edge} else {edge}

section Reading

variable {edge : EdgeContent W}

theorem EdgeContent.count_read [DecidableEq W] (edge other : EdgeContent W) :
    edge.read.count other =
      (if other.ends.isLoop then 2 else 1) * Multiset.count other {edge} := by
  unfold read
  by_cases he : other = edge
  · subst he
    by_cases hloop : other.ends.isLoop = true
    · rw [if_pos hloop, if_pos hloop, Multiset.insert_eq_cons]
      simp
    · rw [if_neg hloop, if_neg hloop, Nat.one_mul]
  · have hzero : Multiset.count other {edge} = 0 := by
      rw [Multiset.count_singleton, if_neg he]
    rw [hzero, Nat.mul_zero]
    by_cases hloop : edge.ends.isLoop = true
    · rw [if_pos hloop, Multiset.insert_eq_cons, Multiset.count_cons_of_ne he, hzero]
    · rw [if_neg hloop, hzero]

theorem count_bind_read [DecidableEq W] (edges : Multiset (EdgeContent W)) (other : EdgeContent W) :
    (edges.bind EdgeContent.read).count other =
      (if other.ends.isLoop then 2 else 1) * edges.count other := by
  induction edges using Multiset.induction with
  | empty => simp
  | cons edge edges ih =>
      rw [Multiset.cons_bind, Multiset.count_add, ih, EdgeContent.count_read,
        ← Multiset.singleton_add, Multiset.count_add, Nat.mul_add]

-- What is read of the edges determines them.
theorem bind_read_injective :
    Function.Injective fun edges : Multiset (EdgeContent W) => edges.bind EdgeContent.read := by
  classical
  intro edges edges' h
  ext other
  have hcount := congrArg (Multiset.count other) h
  simp only [count_bind_read] at hcount
  by_cases hloop : other.ends.isLoop = true
  · rw [if_pos hloop] at hcount
    omega
  · rw [if_neg hloop] at hcount
    omega

end Reading

section Slots

variable {graph next : Graph W T} {slot : Slot W} {slots slots' : List (Slot W)}

-- The slot names nodes and a string of the graph.
structure Within (graph : Graph W T) (slot : Slot W) : Prop where
  source : slot.source < graph.nodes.count
  target : slot.target < graph.nodes.count
  relation : slot.relation < graph.strings.strings.length

theorem Within.mirrored (h : Within graph slot) : Within graph slot.mirrored :=
  ⟨h.target, h.source, h.relation⟩

theorem Within.mem_expand (h : Within graph slot) {other : Slot W} (hother : other ∈ slot.expand) :
    Within graph other := by
  unfold Slot.expand at hother
  split at hother
  · obtain rfl | rfl := List.mem_pair.mp hother
    · exact h
    · exact h.mirrored
  · obtain rfl := List.mem_singleton.mp hother
    exact h

theorem Whole.within_slots [Zero W] (h : Whole graph) (hslot : slot ∈ graph.slots) :
    Within graph slot := by
  obtain ⟨⟨src, j⟩, hentry, rfl⟩ := List.mem_map.mp hslot
  obtain ⟨i, hi⟩ := List.mem_iff_getElem?.mp hentry
  obtain ⟨rfl, hj⟩ := h.listed.snd_edgeSlots hi
  obtain ⟨hsrc, -⟩ := mem_edgeSlots.mp hentry
  have hcovered := h.sound.covered
  have hrelation : j < graph.csr.relations.length := by rwa [h.named.length]
  constructor
  · change src < graph.nodes.count
    omega
  · change graph.csr.targets.getD j 0 < graph.nodes.count
    rw [List.getD_eq_getElem _ _ hj]
    exact h.sound.targets _ (List.getElem_mem hj)
  · change graph.csr.relations.getD j 0 < graph.strings.strings.length
    rw [List.getD_eq_getElem _ _ hrelation]
    exact h.named.relations _ (List.getElem_mem hrelation)

theorem Whole.within_stagedSlots [Zero W] (h : Whole graph) {first : Nat}
    (hslot : slot ∈ graph.stagedSlots first) : Within graph slot := by
  obtain ⟨indexed, hindexed, hslot⟩ := List.mem_flatMap.mp hslot
  have hedge := List.fst_mem_of_mem_zipIdx hindexed
  obtain ⟨hsource, htarget⟩ := h.sound.staged _ hedge
  exact Within.mem_expand ⟨hsource, htarget, h.named.pending _ hedge⟩ hslot

-- The ids and the strings of a graph are found in the next one.
structure Carries (graph next : Graph W T) : Prop where
  ids : ∀ s i, graph.resolveId s = some i → next.resolveId s = some i
  strings : graph.strings.Extends next.strings

theorem Carries.of_eq (hids : next.idToNode = graph.idToNode) (hstrings : next.strings = graph.strings) :
    Carries graph next where
  ids s i hs := by
    rw [Graph.resolveId, hids, hstrings]
    exact hs
  strings := hstrings ▸ .refl _

theorem Carries.nodeName_eq (h : Carries graph next) (hgraph : graph.Registered)
    (hnext : next.Registered) {i : Nat} (hi : i < graph.nodes.count) :
    nodeName next i = nodeName graph i :=
  nodeName_of_resolveId hnext (h.ids _ i (resolveId_nodeName hgraph hi))

theorem Carries.edgeContent_eq (h : Carries graph next) (hgraph : graph.Registered)
    (hnext : next.Registered) (hslot : Within graph slot) :
    edgeContent next slot = edgeContent graph slot := by
  have hrelation : resolveName next slot.relation = resolveName graph slot.relation := by
    rw [resolveName, resolveName, h.strings.tryResolve_eq hslot.relation]
  simp only [edgeContent, h.nodeName_eq hgraph hnext hslot.source,
    h.nodeName_eq hgraph hnext hslot.target, hrelation]

theorem carries_addNode (h : graph.Registered) (externalId label : String) (nodeType : NodeType)
    (tags : List String) (lastModified : T) (changeFrequency : W) :
    Carries graph (graph.addNode externalId label nodeType tags lastModified changeFrequency).2 := by
  cases hresolve : graph.resolveId externalId with
  | some i =>
      rw [Graph.addNode_known externalId label nodeType tags lastModified changeFrequency hresolve]
      exact .of_eq rfl rfl
  | none =>
      obtain ⟨handle, labelHandle, tagHandles, strings, hadded, -, hextends, -⟩ :=
        h.addNode_new externalId label nodeType tags lastModified changeFrequency hresolve
      refine ⟨fun s i hs => ?_, ?_⟩
      · have hne : s ≠ externalId := by
          rintro rfl
          simp [hresolve] at hs
        rw [h.resolveId_addNode externalId label nodeType tags lastModified changeFrequency
          hresolve, if_neg hne]
        exact hs
      · rw [hadded]
        exact hextends

theorem carries_of_strings (h : graph.Registered) (hnodes : next.nodes = graph.nodes)
    (hids : next.idToNode = graph.idToNode) (hfaithful : next.strings.Faithful)
    (hextends : graph.strings.Extends next.strings) : Carries graph next where
  ids s i hs := by rw [h.resolveId_extends hnodes hids hfaithful hextends, hs]
  strings := hextends

theorem carries_setNodeProvenance (h : graph.Registered) (node : Nat)
    (provenance : ResolvedNodeProvenance) :
    Carries graph (graph.setNodeProvenance node provenance) := by
  by_cases hnode : node < graph.nodes.count
  · refine ⟨fun s i hs => ?_, ?_⟩
    · rw [h.resolveId_setNodeProvenance hnode provenance, hs]
    · obtain ⟨strings, _, _, _, hset, -, hextends, -⟩ := h.setNodeProvenance_eq hnode provenance
      rw [hset]
      exact hextends
  · rw [Graph.setNodeProvenance, if_pos (Nat.le_of_not_lt hnode)]
    exact .of_eq rfl rfl

theorem contents_append (graph : Graph W T) (slots slots' : List (Slot W)) :
    contents graph (slots ++ slots') = contents graph slots + contents graph slots' := by
  rw [contents, List.filter_append, List.map_append, ← Multiset.coe_add]
  rfl

theorem contents_perm (h : slots.Perm slots') : contents graph slots = contents graph slots' :=
  Multiset.coe_eq_coe.mpr ((h.filter _).map _)

theorem Carries.contents_eq (h : Carries graph next) (hgraph : graph.Registered)
    (hnext : next.Registered) (hslots : ∀ slot ∈ slots, Within graph slot) :
    contents next slots = contents graph slots := by
  refine congrArg _ (List.map_congr_left fun slot hslot => ?_)
  exact h.edgeContent_eq hgraph hnext (hslots slot (List.mem_filter.mp hslot).1)

theorem edgeContent_mirrored (graph : Graph W T) (h : slot.direction = .Bidirectional) :
    edgeContent graph slot.mirrored = edgeContent graph slot := by
  have hends : Ends.of (nodeName graph slot.target) (nodeName graph slot.source) slot.direction =
      Ends.of (nodeName graph slot.source) (nodeName graph slot.target) slot.direction := by
    rw [h]
    exact congrArg Ends.bidirectional Sym2.eq_swap
  unfold edgeContent Slot.mirrored
  rw [hends]

-- The slots of one edge.
theorem contents_expand (h : graph.Registered) (hslot : Within graph slot) :
    contents graph slot.expand = (edgeContent graph slot).read := by
  cases hdirection : slot.direction with
  | Forward =>
      have hcanonical : slot.isCanonical = true := by simp [Slot.isCanonical, hdirection]
      have hsingle : slot.expand = [slot] := by
        simp [Slot.expand, Slot.isBidirectional, hdirection]
      have hloop : (edgeContent graph slot).ends.isLoop = false := by
        simp only [edgeContent, hdirection]
        rfl
      rw [EdgeContent.read, hloop, if_neg Bool.false_ne_true, hsingle, contents,
        List.filter_cons_of_pos hcanonical]
      rfl
  | Bidirectional =>
      have hpair : slot.expand = [slot, slot.mirrored] := by
        simp [Slot.expand, Slot.isBidirectional, hdirection]
      have hloop : (edgeContent graph slot).ends.isLoop =
          decide (nodeName graph slot.source = nodeName graph slot.target) := by
        simp only [edgeContent, hdirection, Ends.of, Ends.isLoop, Sym2.mk_isDiag_iff]
      have hcanonical : slot.isCanonical = decide (slot.source ≤ slot.target) := by
        simp [Slot.isCanonical, hdirection]
      have hcanonical' : slot.mirrored.isCanonical = decide (slot.target ≤ slot.source) := by
        simp [Slot.isCanonical, Slot.mirrored, hdirection]
      rw [EdgeContent.read, hloop, hpair, contents, List.filter_cons, List.filter_cons,
        List.filter_nil, hcanonical, hcanonical']
      rcases Nat.lt_trichotomy slot.source slot.target with hlt | heq | hlt
      · have hne : nodeName graph slot.source ≠ nodeName graph slot.target := fun he => by
          have := nodeName_inj h hslot.source hslot.target he
          omega
        simp [hne, Nat.le_of_lt hlt, Nat.not_le_of_lt hlt]
      · simp only [heq, le_refl, decide_true, if_true, List.map_cons, List.map_nil,
          edgeContent_mirrored graph hdirection]
        rfl
      · have hne : nodeName graph slot.source ≠ nodeName graph slot.target := fun he => by
          have := nodeName_inj h hslot.source hslot.target he
          omega
        simp [hne, Nat.le_of_lt hlt, Nat.not_le_of_lt hlt, edgeContent_mirrored graph hdirection]

theorem contents_middle (graph : Graph W T) (before after : List (Slot W)) (slot : Slot W) :
    contents graph (before ++ slot :: after) =
      contents graph [slot] + contents graph (before ++ after) := by
  rw [contents_perm List.perm_middle, ← contents_append, List.singleton_append]

-- What is read of a forward slot is the edge itself.
theorem contents_forward (graph : Graph W T) (h : slot.isBidirectional = false) :
    contents graph [slot] = {edgeContent graph slot} ∧
      (edgeContent graph slot).read = {edgeContent graph slot} := by
  have hdirection : slot.direction = .Forward := by
    cases hdirection : slot.direction with
    | Forward => rfl
    | Bidirectional => simp [Slot.isBidirectional, hdirection] at h
  have hcanonical : slot.isCanonical = true := by simp [Slot.isCanonical, hdirection]
  have hloop : (edgeContent graph slot).ends.isLoop = false := by
    simp only [edgeContent, hdirection]
    rfl
  refine ⟨?_, by rw [EdgeContent.read, hloop, if_neg Bool.false_ne_true]⟩
  rw [contents, List.filter_cons_of_pos hcanonical]
  rfl

-- No bidirectional slot starts and ends in one node.
def Loopfree (slots : List (Slot W)) : Prop :=
  ∀ slot ∈ slots, slot.direction = .Bidirectional → slot.source ≠ slot.target

-- Without such a slot, staging the slots again leaves the contents as they are.
theorem contents_flatMap_expand (graph : Graph W T) (h : Loopfree slots) :
    contents graph ((slots.filter Slot.isCanonical).flatMap Slot.expand) = contents graph slots := by
  unfold contents
  congr 2
  induction slots with
  | nil => rfl
  | cons slot slots ih =>
      have ih := ih fun other hother => h other (List.mem_cons_of_mem _ hother)
      by_cases hcanonical : slot.isCanonical = true
      · have hfirst : slot.expand.filter Slot.isCanonical = [slot] := by
          unfold Slot.expand
          split
          case isTrue hboth =>
            have hdirection : slot.direction = .Bidirectional := of_decide_eq_true hboth
            have hne := h slot List.mem_cons_self hdirection
            have hmirrored : ¬ slot.mirrored.isCanonical = true := by
              simp only [Slot.isCanonical, Slot.mirrored, hdirection, decide_eq_true_eq, true_and]
                at hcanonical ⊢
              omega
            rw [List.filter_cons_of_pos hcanonical, List.filter_cons_of_neg hmirrored,
              List.filter_nil]
          case isFalse =>
            rw [List.filter_cons_of_pos hcanonical, List.filter_nil]
        rw [List.filter_cons_of_pos hcanonical, List.flatMap_cons, List.filter_append, hfirst, ih]
        rfl
      · rw [List.filter_cons_of_neg hcanonical, ih]

end Slots

end M1nd.Ingest
