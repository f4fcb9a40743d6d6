import M1nd.Ingest.Ownership
import M1nd.Ingest.Ownership.Ledger
import M1nd.Library.Collections
import Std.Data.String.ToNat

namespace M1nd.Ingest

open M1nd.Control (Sha256)
open M1nd.Library.Json

section Values

theorem ofOption_injective {α : Type} {encode : α → Value} (h : Function.Injective encode)
    (hnull : ∀ a, encode a ≠ .null) : Function.Injective (Value.ofOption encode) := by
  intro a b hab
  cases a with
  | none =>
      cases b with
      | none => rfl
      | some b => exact absurd hab.symm (hnull b)
  | some a =>
      cases b with
      | none => exact absurd hab (hnull a)
      | some b => exact congrArg some (h hab)

theorem string_injective : Function.Injective Value.string :=
  fun _ _ h => Value.string.inj h

theorem ofOption_string_inj {text text' : Option String} :
    Value.ofOption .string text = Value.ofOption .string text' ↔ text = text' :=
  (ofOption_injective string_injective fun _ => by simp).eq_iff

theorem ofOption_ofNat_inj {line line' : Option Nat} :
    Value.ofOption .ofNat line = Value.ofOption .ofNat line' ↔ line = line' :=
  (ofOption_injective Value.ofNat_injective fun _ => by simp [Value.ofNat]).eq_iff

theorem GraphContentNodeV1.toValue_injective : Function.Injective GraphContentNodeV1.toValue := by
  intro node node' h
  cases node
  cases node'
  simp only [toValue, Value.object.injEq, List.cons.injEq, Prod.mk.injEq, true_and, and_true,
    Value.string.injEq, Value.array.injEq, Value.bool.injEq, Value.ofNat_injective.eq_iff,
    ofOption_string_inj, ofOption_ofNat_inj, string_injective.list_map.eq_iff] at h
  simp only [GraphContentNodeV1.mk.injEq]
  exact h

theorem GraphContentEdgeV1.toValue_injective : Function.Injective GraphContentEdgeV1.toValue := by
  intro edge edge' h
  obtain ⟨⟨source, target, relation, direction, inhibitory⟩, weightBits, causalStrengthBits⟩ := edge
  obtain ⟨⟨source', target', relation', direction', inhibitory'⟩, weightBits', causalStrengthBits'⟩ :=
    edge'
  simp only [toValue, Value.object.injEq, List.cons.injEq, Prod.mk.injEq, true_and, and_true,
    Value.string.injEq, Value.bool.injEq, Value.ofNat_injective.eq_iff, UInt8.toNat_inj] at h
  obtain ⟨rfl, rfl, rfl, rfl, rfl, rfl, rfl⟩ := h
  rfl

theorem GraphContentEdgeV1.rank_injective : Function.Injective GraphContentEdgeV1.rank := by
  intro edge edge' h
  obtain ⟨⟨source, target, relation, direction, inhibitory⟩, weightBits, causalStrengthBits⟩ := edge
  obtain ⟨⟨source', target', relation', direction', inhibitory'⟩, weightBits', causalStrengthBits'⟩ :=
    edge'
  simp only [rank, EmbeddingLike.apply_eq_iff_eq, Prod.mk.injEq, UInt8.toNat_inj] at h
  obtain ⟨rfl, rfl, rfl, rfl, rfl, rfl, rfl⟩ := h
  rfl

theorem GraphContentV1.toValue_injective : Function.Injective GraphContentV1.toValue := by
  intro content content' h
  cases content
  cases content'
  simp only [toValue, Value.object.injEq, List.cons.injEq, Prod.mk.injEq, true_and, and_true,
    Value.string.injEq, Value.array.injEq, GraphContentNodeV1.toValue_injective.list_map.eq_iff,
    GraphContentEdgeV1.toValue_injective.list_map.eq_iff] at h
  simp only [GraphContentV1.mk.injEq]
  exact h

theorem sha256Bytes_inj [Sha256] {bytes bytes' : Bytes}
    (hfree : Control.CollisionFree {bytes, bytes'}) (h : sha256Bytes bytes = sha256Bytes bytes') :
    bytes = bytes' :=
  hfree (by simp) (by simp) (Vector.toList_inj.mp (Control.hexLower_injective h))

end Values

end M1nd.Ingest

namespace M1nd.Ingest

open M1nd.Core
open M1nd.Library.Buckets
open M1nd.Library.Collections
open Std (ExtTreeSet)

variable {W T : Type} {graph next : Graph W T}

section Shape

theorem offsetsShapeValid_of_cuts {offsets : List Nat} {n slots : Nat}
    (h : CutsInto offsets n slots) : offsetsShapeValid offsets n slots = true := by
  have hpairs : ∀ pair ∈ offsets.zip offsets.tail, pair.1 ≤ pair.2 ∧ pair.2 ≤ slots := by
    intro pair hpair
    refine ⟨?_, h.le_slots (List.mem_of_mem_tail (List.of_mem_zip hpair).2)⟩
    obtain ⟨i, hi, rfl⟩ := List.getElem_of_mem hpair
    rw [List.length_zip, List.length_tail] at hi
    rw [List.getElem_zip, List.getElem_tail]
    exact List.pairwise_iff_getElem.mp h.sorted i (i + 1) (by omega) (by omega) (by omega)
  simp only [offsetsShapeValid, h.length, List.head?_eq_getElem?, h.first, h.last, beq_self_eq_true,
    Bool.true_and, List.all_eq_true, Bool.and_eq_true, decide_eq_true_eq]
  exact hpairs

-- The sources of the reverse arrays are nodes.
def Rooted (graph : Graph W T) : Prop :=
  ∀ source ∈ graph.csr.revSources, source < graph.nodes.count

theorem rooted_new : Rooted (Graph.new : Graph W T) :=
  fun _ hsource => absurd hsource List.not_mem_nil

theorem Rooted.mono (h : Rooted graph) (hsources : next.csr.revSources = graph.csr.revSources)
    (hcount : graph.nodes.count ≤ next.nodes.count) : Rooted next := by
  intro source hsource
  rw [hsources] at hsource
  exact (h source hsource).trans_le hcount

variable [Zero W]

theorem rooted_of_rebuilt (h : graph.Staged) (hnext : graph.Rebuilt next) : Rooted next := by
  intro source hsource
  rw [hnext.revSources] at hsource
  obtain ⟨slot, hslot, rfl⟩ := List.mem_map.mp hsource
  rw [hnext.nodes]
  exact (h.placed_lt (List.fst_mem_of_mem_zipIdx (h.reversed_perm.mem_iff.mp hslot))).1

theorem Rooted.apply (hsound : graph.Sound) (h : Rooted graph) (op : GraphOp W T) :
    Rooted (op.apply graph) := by
  cases op with
  | addNode externalId label nodeType tags lastModified changeFrequency =>
      obtain ⟨strings, he⟩ | ⟨nodes, strings, idToNode, hcount, he⟩ :=
        graph.addNode_cases externalId label nodeType tags lastModified changeFrequency
      · rw [GraphOp.apply, he]
        exact h
      · rw [GraphOp.apply, he]
        refine Rooted.mono h rfl ?_
        change graph.nodes.count ≤ nodes.count
        omega
  | addEdge source target relation weight direction inhibitory causalStrength =>
      have hop : GraphOp.addEdge source target relation weight direction inhibitory causalStrength ≠
          (.finalize : GraphOp W T) := by simp
      refine h.mono (graph.sameReverse_apply hop).revSources (Nat.le_of_eq ?_)
      rw [GraphOp.apply, Graph.addEdge]
      dsimp only
      split
      · rfl
      · split <;> rfl
  | storeWeight slot weight =>
      rw [GraphOp.apply]
      split <;> exact h
  | storeSynapse slot synapse =>
      rw [GraphOp.apply]
      split <;> exact h
  | finalize =>
      rw [GraphOp.apply, Graph.finalize]
      split
      · exact h
      · split
        · exact rooted_of_rebuilt hsound.rehydrated hsound.rehydrated.rebuilt
        · exact rooted_of_rebuilt hsound.staged hsound.staged.rebuilt

theorem rooted_run (edits : List (GraphEdit W T)) : Rooted (GraphEdit.run edits) := by
  induction edits using List.reverseRecOn with
  | nil => exact rooted_new
  | append_singleton edits edit ih =>
      rw [GraphEdit.run, List.foldl_append]
      cases edit with
      | operate op => exact ih.apply (whole_run edits).sound op
      | setNodeProvenance node provenance =>
          refine ih.mono ?_ (Nat.le_of_eq (Graph.rewritten_setNodeProvenance _ node provenance).count.symm)
          exact (Graph.sameReverse_setNodeProvenance _ node provenance).revSources

-- Every finalized graph passes the test of the shape.
theorem csrShapeValid_run {edits : List (GraphEdit W T)}
    (hfinal : (GraphEdit.run edits).finalized = true) : csrShapeValid (GraphEdit.run edits) = true := by
  have hsound := (whole_run edits).sound
  obtain ⟨hparallel, -⟩ := hsound.finalized hfinal
  have hrooted := rooted_run edits
  let _ := exactValues W
  have hindexed := GraphEdit.indexed_run W edits
  obtain ⟨hweights, hinhibitory, hrelations, hdirections, hcausal⟩ := hparallel.csr
  obtain ⟨hsources, hedges⟩ := hparallel.reverse
  obtain ⟨ho, hc, hs, hw, hp, hd, hl⟩ := hparallel.plasticity
  have hoffsets := offsetsShapeValid_of_cuts hparallel.offsets
  have hrevOffsets := offsetsShapeValid_of_cuts hparallel.revOffsets
  have htargets : ∀ target ∈ (GraphEdit.run edits).csr.targets,
      target < (GraphEdit.run edits).numNodes := hsound.targets
  have hroots : ∀ source ∈ (GraphEdit.run edits).csr.revSources,
      source < (GraphEdit.run edits).numNodes := hrooted
  have hindices : ∀ edge ∈ (GraphEdit.run edits).csr.revEdgeIdx,
      edge < (GraphEdit.run edits).csr.targets.length := by
    intro edge hedge
    rw [← hweights]
    exact hindexed.weights edge hedge
  unfold csrShapeValid
  simp only [Graph.numNodes] at htargets hroots ⊢
  simp only [hsources, hoffsets, hrevOffsets, hweights, hinhibitory, hrelations, hdirections, hcausal,
    hedges, ho, hc, hs, hw, hp, hd, hl, beq_self_eq_true, Bool.and_true, Bool.true_and,
    Bool.and_eq_true, List.all_eq_true, decide_eq_true_eq]
  exact ⟨⟨fun target htarget => decide_eq_true (htargets target htarget),
    fun source hsource => decide_eq_true (hroots source hsource)⟩, hindices⟩

end Shape

section Identities

variable {i : Nat} {s : String}

-- The identities of a slot are the valid names that the entries of the pass give it.
theorem mem_auditIdentity (graph : Graph W T) (entries : List (Nat × Nat)) (pass : IdentityPass)
    (hi : i < graph.nodes.count) {identities : ExtTreeSet String}
    (hpass : pass.identitiesBySlot[i]? = some identities) :
    ∃ found, (entries.foldl (auditIdentity graph) pass).identitiesBySlot[i]? = some found ∧
      ∀ s, s ∈ found ↔ s ∈ identities ∨ ∃ entry ∈ entries, entry.2 = i ∧
        resolveName graph entry.1 = s ∧ isValidExternalId s = true := by
  induction entries generalizing pass identities with
  | nil => exact ⟨identities, hpass, by simp⟩
  | cons entry entries ih =>
      obtain ⟨first, hfirst, hmem⟩ : ∃ first,
          (auditIdentity graph pass entry).identitiesBySlot[i]? = some first ∧
          ∀ s, s ∈ first ↔ s ∈ identities ∨ (entry.2 = i ∧ resolveName graph entry.1 = s ∧
            isValidExternalId s = true) := by
        unfold auditIdentity
        by_cases hrange : graph.numNodes ≤ entry.2
        · refine ⟨identities, by simpa only [if_pos hrange] using hpass, fun s => ?_⟩
          have hne : entry.2 ≠ i := by
            rw [Graph.numNodes] at hrange
            omega
          simp [hne]
        · cases hvalid : isValidExternalId (resolveName graph entry.1) with
          | false =>
              refine ⟨identities, ?_, fun s => ?_⟩
              · simpa [hrange, hvalid] using hpass
              · have hnot : ¬ (entry.2 = i ∧ resolveName graph entry.1 = s ∧
                    isValidExternalId s = true) := by
                  rintro ⟨-, rfl, hs⟩
                  rw [hvalid] at hs
                  exact absurd hs Bool.false_ne_true
                simp [hnot]
          | true =>
              by_cases hslot : entry.2 = i
              · refine ⟨identities.insert (resolveName graph entry.1), ?_, fun s => ?_⟩
                · subst hslot
                  simp [hrange, hvalid, hpass]
                · rw [mem_insert_iff]
                  grind
              · refine ⟨identities, ?_, fun s => by simp [hslot]⟩
                simp [hrange, hvalid, hslot, hpass]
      obtain ⟨found, hfound, hspec⟩ := ih (auditIdentity graph pass entry) hfirst
      refine ⟨found, hfound, fun s => ?_⟩
      rw [hspec, hmem, List.exists_mem_cons_iff, or_assoc]

theorem length_auditIdentity (graph : Graph W T) (entries : List (Nat × Nat)) (pass : IdentityPass) :
    (entries.foldl (auditIdentity graph) pass).identitiesBySlot.length =
      pass.identitiesBySlot.length := by
  induction entries generalizing pass with
  | nil => rfl
  | cons entry entries ih =>
      rw [List.foldl_cons, ih]
      unfold auditIdentity
      dsimp only
      split
      · rfl
      · split
        · rfl
        · exact List.length_modify ..

theorem soleIdentity_eq {identities : ExtTreeSet String} (h : ∀ a, a ∈ identities ↔ a = s) :
    soleIdentity identities = s := by
  have hperm : identities.toList.Perm [s] := by
    rw [List.perm_ext_iff_of_nodup (nodup_toList identities) (List.nodup_singleton s)]
    intro a
    rw [ExtTreeSet.mem_toList, h, List.mem_singleton]
  rw [soleIdentity, List.perm_singleton.mp hperm]

-- With one valid id for each node the audit finds the ids of the nodes.
theorem nodeIds_graphSlotAudit (h : graph.Registered) (hvalid : ValidIds graph) :
    (graphSlotAudit graph).nodeIds = nodeExternalIds graph := by
  obtain ⟨hlength, hspec⟩ := nodeExternalIds_spec h
  have hsize : (auditIdentities graph).identitiesBySlot.length = graph.nodes.count :=
    (length_auditIdentity graph _ _).trans (List.length_replicate ..)
  apply List.ext_getElem?
  intro i
  change ((auditIdentities graph).identitiesBySlot.map soleIdentity)[i]? = _
  rw [List.getElem?_map]
  by_cases hi : i < graph.nodes.count
  · have hname := resolveId_nodeName h hi
    obtain ⟨found, hfound, hmem⟩ := mem_auditIdentity graph graph.idToNode.toList
      ⟨List.replicate graph.numNodes ∅, [], []⟩ hi (List.getElem?_replicate_of_lt hi)
    have hsole : soleIdentity found = nodeName graph i := by
      refine soleIdentity_eq fun a => ?_
      rw [hmem]
      constructor
      · rintro (hempty | ⟨entry, hentry, rfl, rfl, -⟩)
        · exact absurd hempty ExtTreeSet.not_mem_empty
        · obtain ⟨s, hs⟩ := h.exists_name hentry
          have hresolve := h.resolveId_iff.mpr
            ⟨entry.1, hs, Std.ExtTreeMap.mem_toList_iff_getElem?_eq_some.mp hentry⟩
          rw [nodeName_of_resolveId h hresolve, resolveName, hs]
          rfl
      · rintro rfl
        obtain ⟨handle, hs, hnode⟩ := h.resolveId_iff.mp hname
        refine .inr ⟨(handle, i), Std.ExtTreeMap.mem_toList_iff_getElem?_eq_some.mpr hnode, rfl, ?_,
          hvalid.nodeName h hi⟩
        rw [resolveName, hs]
        rfl
    rw [(hspec _ i).mpr hname]
    change Option.map soleIdentity (auditIdentities graph).identitiesBySlot[i]? = _
    rw [auditIdentities, hfound, Option.map_some, hsole]
  · rw [List.getElem?_eq_none (by omega), List.getElem?_eq_none (by omega), Option.map_none]

end Identities

section Edges

theorem canonicalEdgeKey_ends (source target relation : String) (direction : EdgeDirection)
    (inhibitory : Bool) : canonicalEdgeKey source target relation direction inhibitory =
      { source := (Ends.of source target direction).first
        target := (Ends.of source target direction).last
        relation := relation
        direction := (Ends.of source target direction).code
        inhibitory := inhibitory } := by
  unfold canonicalEdgeKey
  cases direction with
  | Forward =>
      rw [if_neg (by simp)]
      rfl
  | Bidirectional =>
      by_cases hswap : target < source
      · rw [if_pos ⟨rfl, hswap⟩]
        simp [Ends.of, Ends.first, Ends.last, Ends.code, inf_eq_right.mpr hswap.le,
          sup_eq_left.mpr hswap.le]
      · have hle : source ≤ target := not_lt.mp hswap
        rw [if_neg fun h => hswap h.2]
        simp [Ends.of, Ends.first, Ends.last, Ends.code, hle]

variable [ToBits W]

-- An edge as the projection writes it.
def EdgeContent.written (edge : EdgeContent W) : GraphContentEdgeV1 where
  source := edge.ends.first
  target := edge.ends.last
  relation := edge.relation
  direction := edge.ends.code
  inhibitory := edge.inhibitory
  weightBits := toBits edge.originalWeight
  causalStrengthBits := toBits edge.causalStrength

theorem EdgeContent.written_injective :
    Function.Injective (written : EdgeContent W → GraphContentEdgeV1) := by
  intro edge edge' h
  cases edge
  cases edge'
  simp only [written, GraphContentEdgeV1.mk.injEq, EdgeKey.mk.injEq, ToBits.injective.eq_iff] at h
  obtain ⟨⟨hfirst, hlast, rfl, hcode, rfl⟩, rfl, rfl⟩ := h
  rw [Ends.eq_of hfirst hlast hcode]

variable [Zero W]

-- The projection writes what is read of the slots, in an order of its own.
theorem graphContentEdges_eq (h : Whole graph) (hfinal : graph.finalized = true)
    (hvalid : ValidIds graph) : graphContentEdges graph (nodeExternalIds graph) =
      ((graph.slots.filter Slot.isCanonical).map fun slot =>
        (edgeContent graph slot).written).mergeSort fun left right => left.rank ≤ right.rank := by
  have hoffsets := (h.sound.finalized hfinal).1.offsets.length
  have hfull {i : Nat} (hi : i < graph.nodes.count) :
      ((nodeExternalIds graph).getD i "").isEmpty = false := by
    have hname := hvalid.nodeName h.registered hi
    rw [nodeName] at hname
    cases hempty : ((nodeExternalIds graph).getD i "").isEmpty with
    | false => rfl
    | true =>
        rw [String.isEmpty_iff.mp hempty] at hname
        exact absurd hname (by decide)
  have hlength := (nodeExternalIds_spec h.registered).1
  rw [graphContentEdges, slots_eq_flatMap hoffsets, List.filter_flatMap, List.map_flatMap]
  congr 1
  refine List.flatMap_congr fun src hsrc => ?_
  rw [hfull (List.mem_range.mp hsrc), if_neg Bool.false_ne_true, List.filter_map, List.map_map,
    ← List.filterMap_eq_map, List.filterMap_filter]
  refine List.filterMap_congr fun j hj => ?_
  have hlt := h.listed.mem_outRange_lt hj
  have htarget : graph.csr.targets.getD j 0 < graph.nodes.count := by
    rw [List.getD_eq_getElem _ _ hlt]
    exact h.sound.targets _ (List.getElem_mem hlt)
  have hmirror : isMirrorSlot graph src j = !(graph.slotAt src j).isCanonical := by
    simp only [isMirrorSlot, Slot.isCanonical, decide_not, Bool.not_not]
    rfl
  have hrange : ¬ (nodeExternalIds graph).length ≤ graph.csr.targets.getD j 0 := by omega
  have hcanonical : (Slot.isCanonical ∘ graph.slotAt src) j = (graph.slotAt src j).isCanonical := rfl
  rw [graphContentEdge, hmirror, hcanonical]
  simp only [hrange, decide_false, hfull htarget, Bool.or_false, Bool.false_eq_true, if_false]
  cases hslot : (graph.slotAt src j).isCanonical with
  | false => rfl
  | true =>
      rw [Bool.not_true, if_neg Bool.false_ne_true, if_pos rfl, canonicalEdgeKey_ends]
      rfl

theorem graphContentEdges_eq_iff {graph' : Graph W T} (h : Whole graph) (h' : Whole graph')
    (hfinal : graph.finalized = true) (hfinal' : graph'.finalized = true) (hvalid : ValidIds graph)
    (hvalid' : ValidIds graph') :
    graphContentEdges graph (nodeExternalIds graph) =
        graphContentEdges graph' (nodeExternalIds graph') ↔
      contents graph graph.slots = contents graph' graph'.slots := by
  rw [graphContentEdges_eq h hfinal hvalid, graphContentEdges_eq h' hfinal' hvalid',
    Library.Sorting.mergeSort_eq_iff fun _ _ _ _ he => GraphContentEdgeV1.rank_injective he,
    contents, contents, Multiset.coe_eq_coe]
  have hwritten (graph : Graph W T) (slots : List (Slot W)) :
      (slots.map fun slot => (edgeContent graph slot).written) =
        (slots.map (edgeContent graph)).map EdgeContent.written := by
    rw [List.map_map]
    rfl
  rw [hwritten, hwritten]
  exact List.map_perm_map_iff EdgeContent.written_injective

end Edges

section Nodes

-- The types that are not custom.
def plainTypes : List NodeType :=
  [.File, .Directory, .Function, .Class, .Struct, .Enum, .Type, .Module, .Reference, .Concept,
    .Material, .Process, .Product, .Supplier, .Regulatory, .System, .Cost]

theorem debugNodeType_injective : Function.Injective debugNodeType := by
  have hplain : ∀ a ∈ plainTypes, ∀ b ∈ plainTypes, debugNodeType a = debugNodeType b → a = b := by
    decide +kernel
  have hlast : ∀ a ∈ plainTypes, (debugNodeType a).toList.getLast? ≠ some ')' := by decide +kernel
  have hcustom (v : UInt8) : (debugNodeType (.Custom v)).toList.getLast? = some ')' := by
    simp only [debugNodeType, String.toList_append]
    exact List.getLast?_concat
  have hcases (a : NodeType) : a ∈ plainTypes ∨ ∃ v, a = .Custom v := by
    cases a <;> simp [plainTypes]
  intro a b h
  obtain ha | ⟨v, rfl⟩ := hcases a
  · obtain hb | ⟨w, rfl⟩ := hcases b
    · exact hplain a ha b hb h
    · exact absurd (h ▸ hcustom w) (hlast a ha)
  · obtain hb | ⟨w, rfl⟩ := hcases b
    · exact absurd (h ▸ hcustom v) (hlast b hb)
    · simp only [debugNodeType, String.append_left_inj, String.append_right_inj,
        Nat.repr_inj] at h
      rw [UInt8.toNat_inj.mp h]

-- What a node is under its external id, its tags as a set.
structure NodeContent (W T : Type) where
  label : String
  nodeType : NodeType
  tags : Finset String
  lastModified : T
  changeFrequency : W
  provenance : ResolvedNodeProvenance
deriving DecidableEq

variable [Zero W] [Zero T]

def nodeContent (graph : Graph W T) (i : Nat) : NodeContent W T where
  label := resolveName graph (graph.nodes.label.getD i 0)
  nodeType := graph.nodes.nodeType.getD i .File
  tags := (nodeTags graph i).toFinset
  lastModified := graph.nodes.lastModified.getD i 0
  changeFrequency := graph.nodes.changeFrequency.getD i 0
  provenance := graph.resolveNodeProvenance i

def nodeContents (graph : Graph W T) (s : String) : Option (NodeContent W T) :=
  (graph.resolveId s).map (nodeContent graph)

variable [ToBits W] [ToBits T]

theorem graphContentNode_eq_iff {graph' : Graph W T} {i i' : Nat} {s s' : String} :
    graphContentNode graph i s = graphContentNode graph' i' s' ↔
      s = s' ∧ nodeContent graph i = nodeContent graph' i' := by
  unfold graphContentNode nodeContent
  simp only [GraphContentNodeV1.mk.injEq, NodeContent.mk.injEq, debugNodeType_injective.eq_iff,
    Library.Sorting.sortDedup_eq_iff, ToBits.injective.eq_iff]
  constructor
  · rintro ⟨rfl, hlabel, htype, htags, hmodified, hfrequency, hpath, hstart, hend, hexcerpt, hspace,
      hcanonical⟩
    refine ⟨rfl, hlabel, htype, htags, hmodified, hfrequency, ?_⟩
    cases hread : graph.resolveNodeProvenance i
    cases hread' : graph'.resolveNodeProvenance i'
    rw [hread, hread'] at hpath hstart hend hexcerpt hspace hcanonical
    simp_all
  · rintro ⟨rfl, hlabel, htype, htags, hmodified, hfrequency, hprovenance⟩
    rw [hprovenance]
    exact ⟨rfl, hlabel, htype, htags, hmodified, hfrequency, rfl, rfl, rfl, rfl, rfl, rfl⟩

-- The nodes of a graph as the projection writes them, in the order of the numbering.
def writtenNodes (graph : Graph W T) : List GraphContentNodeV1 :=
  (List.range graph.nodes.count).map fun i => graphContentNode graph i (nodeName graph i)

theorem mem_writtenNodes (h : graph.Registered) {node : GraphContentNodeV1} :
    node ∈ writtenNodes graph ↔
      ∃ i s, graph.resolveId s = some i ∧ graphContentNode graph i s = node := by
  rw [writtenNodes, List.mem_map]
  constructor
  · rintro ⟨i, hi, rfl⟩
    exact ⟨i, _, resolveId_nodeName h (List.mem_range.mp hi), rfl⟩
  · rintro ⟨i, s, hs, rfl⟩
    exact ⟨i, List.mem_range.mpr (resolveId_lt h hs), by rw [nodeName_of_resolveId h hs]⟩

theorem nodup_writtenNodes (h : graph.Registered) : (writtenNodes graph).Nodup := by
  refine List.Nodup.map_on (fun i hi i' hi' he => ?_) List.nodup_range
  exact nodeName_inj h (List.mem_range.mp hi) (List.mem_range.mp hi') (graphContentNode_eq_iff.mp he).1

-- The ids tell the nodes apart.
theorem writtenNodes_externalId_inj (h : graph.Registered) {node node' : GraphContentNodeV1}
    (hnode : node ∈ writtenNodes graph) (hnode' : node' ∈ writtenNodes graph)
    (he : node.externalId = node'.externalId) : node = node' := by
  obtain ⟨i, s, hs, rfl⟩ := (mem_writtenNodes h).mp hnode
  obtain ⟨i', s', hs', rfl⟩ := (mem_writtenNodes h).mp hnode'
  obtain rfl : s = s' := he
  rw [Option.some.inj (hs.symm.trans hs')]

-- The projection writes the nodes in the order of their ids.
theorem graphContentNodes_eq (h : graph.Registered) (hvalid : ValidIds graph) :
    graphContentNodes graph (nodeExternalIds graph) =
      (writtenNodes graph).mergeSort fun left right => left.externalId ≤ right.externalId := by
  obtain ⟨hlength, -⟩ := nodeExternalIds_spec h
  have hfull : (nodeExternalIds graph).zipIdx.filter (fun entry => !entry.1.isEmpty) =
      (nodeExternalIds graph).zipIdx := by
    rw [List.filter_eq_self]
    intro entry hentry
    have hlt := List.snd_lt_of_mem_zipIdx hentry
    have hget := List.mk_mem_zipIdx_iff_getElem?.mp hentry
    have hname := hvalid.nodeName h (i := entry.2) (by omega)
    rw [nodeName, List.getD_eq_getElem?_getD, hget] at hname
    cases hempty : entry.1.isEmpty with
    | false => rfl
    | true =>
        rw [Option.getD_some, String.isEmpty_iff.mp hempty] at hname
        exact absurd hname (by decide)
  rw [graphContentNodes, hfull]
  congr 1
  apply List.ext_getElem?
  intro i
  rw [writtenNodes, List.getElem?_map, List.getElem?_map, List.getElem?_zipIdx]
  by_cases hi : i < graph.nodes.count
  · rw [List.getElem?_range hi, List.getElem?_eq_getElem (by omega : i < _)]
    simp [nodeName, List.getD_eq_getElem?_getD, List.getElem?_eq_getElem (hlength ▸ hi)]
  · rw [List.getElem?_eq_none (by omega), List.getElem?_eq_none (by simpa using hi)]
    rfl

variable {graph' : Graph W T}

-- A node that both graphs write has the same content in both.
theorem nodeContents_of_written (h : graph.Registered) (h' : graph'.Registered) {i : Nat} {s : String}
    (hs : graph.resolveId s = some i) (hsame : ∀ node ∈ writtenNodes graph, node ∈ writtenNodes graph') :
    nodeContents graph' s = some (nodeContent graph i) := by
  obtain ⟨i', s', hs', he⟩ :=
    (mem_writtenNodes h').mp (hsame _ ((mem_writtenNodes h).mpr ⟨i, s, hs, rfl⟩))
  obtain ⟨rfl, hcontent⟩ := graphContentNode_eq_iff.mp he
  rw [nodeContents, hs', Option.map_some, hcontent]

theorem written_of_nodeContents (h : graph.Registered) (h' : graph'.Registered)
    (hsame : nodeContents graph = nodeContents graph') {node : GraphContentNodeV1}
    (hnode : node ∈ writtenNodes graph) : node ∈ writtenNodes graph' := by
  obtain ⟨i, s, hs, rfl⟩ := (mem_writtenNodes h).mp hnode
  have hcontent := congrFun hsame s
  rw [nodeContents, nodeContents, hs, Option.map_some] at hcontent
  obtain ⟨i', hs', he⟩ := Option.map_eq_some_iff.mp hcontent.symm
  exact (mem_writtenNodes h').mpr ⟨i', s, hs', graphContentNode_eq_iff.mpr ⟨rfl, he⟩⟩

theorem writtenNodes_perm_iff (h : graph.Registered) (h' : graph'.Registered) :
    (writtenNodes graph).Perm (writtenNodes graph') ↔ nodeContents graph = nodeContents graph' := by
  rw [List.perm_ext_iff_of_nodup (nodup_writtenNodes h) (nodup_writtenNodes h')]
  constructor
  · intro hsame
    funext s
    cases hs : graph.resolveId s with
    | some i =>
        rw [nodeContents_of_written h h' hs fun node => (hsame node).mp, nodeContents, hs,
          Option.map_some]
    | none =>
        cases hs' : graph'.resolveId s with
        | some i' =>
            have hcontent := nodeContents_of_written h' h hs' fun node => (hsame node).mpr
            rw [nodeContents, hs] at hcontent
            simp at hcontent
        | none =>
            rw [nodeContents, nodeContents, hs, hs']
            rfl
  · intro hsame node
    exact ⟨written_of_nodeContents h h' hsame, written_of_nodeContents h' h hsame.symm⟩

theorem graphContentNodes_eq_iff (h : graph.Registered) (h' : graph'.Registered)
    (hvalid : ValidIds graph) (hvalid' : ValidIds graph') :
    graphContentNodes graph (nodeExternalIds graph) =
        graphContentNodes graph' (nodeExternalIds graph') ↔
      nodeContents graph = nodeContents graph' := by
  rw [graphContentNodes_eq h hvalid, graphContentNodes_eq h' hvalid',
    Library.Sorting.mergeSort_eq_iff fun _ hnode _ hnode' =>
      writtenNodes_externalId_inj h hnode hnode']
  exact writtenNodes_perm_iff h h'

end Nodes

end M1nd.Ingest
