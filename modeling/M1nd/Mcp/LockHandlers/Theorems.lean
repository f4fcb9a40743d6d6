import M1nd.Library.Collections
import M1nd.Library.Loops
import M1nd.Mcp.LockHandlers

namespace M1nd.Mcp

open M1nd.Control
open M1nd.Core
open M1nd.Library.Checks
open M1nd.Library.Collections
open M1nd.Library.Loops (foldlM_invariant)
open M1nd.Library.Json (Bytes Value write_injective)

section Groups

variable {F : Type} {arc : Arc} {weight : F} {groups : List (Arc × List F)}
  {arcs : List (Arc × F)}

theorem edgeKey_inj {other : Arc} {i j : Nat} :
    edgeKey arc i = edgeKey other j ↔ arc = other ∧ i = j := by
  refine ⟨fun h => ?_, fun ⟨harc, hi⟩ => harc ▸ hi ▸ rfl⟩
  have hvalues := write_injective h
  simp only [Value.array.injEq, List.cons.injEq, Value.string.injEq, Value.bool.injEq,
    Library.Json.Value.ofNat_inj, and_true] at hvalues
  obtain ⟨hsource, htarget, hrelation, hdirection, hinhibitory, hi⟩ := hvalues
  have hdir : arc.direction = other.direction := by
    cases hd : arc.direction <;> cases hd' : other.direction <;> simp_all [directionCode]
  cases arc
  cases other
  simp_all

-- The weights of the arcs like this one, in the order in which they were seen.
def weightsOf (arcs : List (Arc × F)) (arc : Arc) : List F :=
  (arcs.filter fun entry => entry.1 = arc).map Prod.snd

theorem mem_weightsOf : weight ∈ weightsOf arcs arc ↔ (arc, weight) ∈ arcs := by
  unfold weightsOf
  rw [List.mem_map]
  constructor
  · rintro ⟨⟨other, _⟩, hmem, rfl⟩
    obtain ⟨hin, he⟩ := List.mem_filter.mp hmem
    obtain rfl : other = arc := of_decide_eq_true he
    exact hin
  · intro hmem
    exact ⟨(arc, weight), List.mem_filter.mpr ⟨hmem, decide_eq_true rfl⟩, rfl⟩

theorem weightsOf_concat (arcs : List (Arc × F)) (arc other : Arc) (weight : F) :
    weightsOf (arcs ++ [(arc, weight)]) other =
      if arc = other then weightsOf arcs other ++ [weight] else weightsOf arcs other := by
  unfold weightsOf
  rw [List.filter_append, List.map_append]
  split
  · next h => simp [h]
  · next h => simp [h]

-- Each arc that was seen has one group, which holds its weights.
structure Grouped (arcs : List (Arc × F)) (groups : List (Arc × List F)) : Prop where
  keys : (groups.map Prod.fst).Nodup
  covers : ∀ arc, arc ∈ groups.map Prod.fst ↔ arc ∈ arcs.map Prod.fst
  exact : ∀ group ∈ groups, group.2 = weightsOf arcs group.1

theorem map_fst_pushWeight (arc : Arc) (weight : F) (groups : List (Arc × List F)) :
    (pushWeight arc weight groups).map Prod.fst =
      if arc ∈ groups.map Prod.fst then groups.map Prod.fst else groups.map Prod.fst ++ [arc] := by
  induction groups with
  | nil => rfl
  | cons group groups ih =>
      obtain ⟨other, weights⟩ := group
      rw [pushWeight]
      by_cases h : other = arc
      · simp [h]
      · rw [if_neg h, List.map_cons, ih, List.map_cons]
        by_cases hmem : arc ∈ groups.map Prod.fst
        · rw [if_pos hmem, if_pos (List.mem_cons_of_mem _ hmem)]
        · have hnew : arc ∉ other :: groups.map Prod.fst :=
            fun hin => (List.mem_cons.mp hin).elim (fun he => h he.symm) hmem
          rw [if_neg hmem, if_neg hnew, List.cons_append]

theorem mem_pushWeight (hkeys : (groups.map Prod.fst).Nodup) {group : Arc × List F}
    (hgroup : group ∈ pushWeight arc weight groups) :
    (group.1 ≠ arc ∧ group ∈ groups) ∨ (arc ∉ groups.map Prod.fst ∧ group = (arc, [weight])) ∨
      ∃ old, (arc, old) ∈ groups ∧ group = (arc, old ++ [weight]) := by
  induction groups with
  | nil => exact .inr (.inl ⟨List.not_mem_nil, List.mem_singleton.mp hgroup⟩)
  | cons first groups ih =>
      obtain ⟨other, weights⟩ := first
      rw [List.map_cons, List.nodup_cons] at hkeys
      rw [pushWeight] at hgroup
      by_cases h : other = arc
      · subst h
        rw [if_pos rfl, List.mem_cons] at hgroup
        rcases hgroup with rfl | hgroup
        · exact .inr (.inr ⟨weights, List.mem_cons_self, rfl⟩)
        · refine .inl ⟨fun he => hkeys.1 ?_, List.mem_cons_of_mem _ hgroup⟩
          exact List.mem_map.mpr ⟨group, hgroup, he⟩
      · rw [if_neg h, List.mem_cons] at hgroup
        rcases hgroup with rfl | hgroup
        · exact .inl ⟨h, List.mem_cons_self⟩
        · rcases ih hkeys.2 hgroup with ⟨hne, hmem⟩ | ⟨hnew, he⟩ | ⟨old, hmem, he⟩
          · exact .inl ⟨hne, List.mem_cons_of_mem _ hmem⟩
          · refine .inr (.inl ⟨fun hmem => ?_, he⟩)
            rcases List.mem_cons.mp hmem with heq | hmem
            · exact h heq.symm
            · exact hnew hmem
          · exact .inr (.inr ⟨old, List.mem_cons_of_mem _ hmem, he⟩)

theorem grouped_nil : Grouped ([] : List (Arc × F)) [] where
  keys := List.nodup_nil
  covers _ := Iff.rfl
  exact := nofun

theorem Grouped.push (h : Grouped arcs groups) (arc : Arc) (weight : F) :
    Grouped (arcs ++ [(arc, weight)]) (pushWeight arc weight groups) := by
  refine ⟨?_, fun other => ?_, fun group hgroup => ?_⟩
  · rw [map_fst_pushWeight]
    split
    · exact h.keys
    · next hnew => exact h.keys.append (List.nodup_singleton arc) (by simpa using hnew)
  · rw [map_fst_pushWeight, List.map_append, List.mem_append, ← h.covers other]
    split
    · next hold =>
        refine ⟨Or.inl, fun hor => hor.elim id fun he => ?_⟩
        exact List.mem_singleton.mp he ▸ hold
    · exact List.mem_append
  · rw [weightsOf_concat]
    rcases mem_pushWeight h.keys hgroup with ⟨hne, hmem⟩ | ⟨hnew, rfl⟩ | ⟨old, hmem, rfl⟩
    · rw [if_neg fun he => hne he.symm, h.exact group hmem]
    · rw [if_pos rfl]
      have hnone : weightsOf arcs arc = [] := by
        rw [h.covers] at hnew
        refine List.eq_nil_iff_forall_not_mem.mpr fun other hother => hnew ?_
        exact List.mem_map.mpr ⟨_, mem_weightsOf.mp hother, rfl⟩
      rw [hnone, List.nil_append]
    · rw [if_pos rfl, ← h.exact _ hmem]

variable {W T : Type} [LockF32 W F]

variable (W) in
def sortedWeights (arcs : List (Arc × F)) (arc : Arc) : List F :=
  (weightsOf arcs arc).mergeSort (LockF32.totalLe W)

-- The entries of a capture are the arcs that were seen, each numbered among its parallels in the
-- order of their weights.
variable (W) in
def Describes (arcs : List (Arc × F)) (edges : LockEdges F) : Prop :=
  ∀ key entry, edges[key]? = some entry ↔ ∃ arc occurrence weight,
    (sortedWeights W arcs arc)[occurrence]? = some weight ∧ key = edgeKey arc occurrence ∧
      entry = ⟨arc.source, arc.target, arc.relation, weight⟩

theorem mem_groupEntries {group : Arc × List F} {entry : Bytes × EdgeSnapshotEntry F} :
    entry ∈ groupEntries W group ↔ ∃ occurrence weight,
      (group.2.mergeSort (LockF32.totalLe W))[occurrence]? = some weight ∧
        entry = (edgeKey group.1 occurrence,
          ⟨group.1.source, group.1.target, group.1.relation, weight⟩) := by
  unfold groupEntries
  rw [List.mem_map]
  constructor
  · rintro ⟨⟨weight, occurrence⟩, hmem, rfl⟩
    exact ⟨occurrence, weight, List.mk_mem_zipIdx_iff_getElem?.mp hmem, rfl⟩
  · rintro ⟨occurrence, weight, hget, rfl⟩
    exact ⟨(weight, occurrence), List.mk_mem_zipIdx_iff_getElem?.mpr hget, rfl⟩

theorem map_fst_groupEntries (group : Arc × List F) :
    (groupEntries W group).map Prod.fst = (List.range group.2.length).map (edgeKey group.1) := by
  rw [groupEntries, List.range_eq_range', ← List.length_mergeSort group.2,
    ← List.zipIdx_map_snd, List.map_map, List.map_map]
  rfl

theorem Grouped.nodup_entries (h : Grouped arcs groups) :
    ((groups.flatMap (groupEntries W)).map Prod.fst).Nodup := by
  rw [List.map_flatMap, List.nodup_flatMap]
  simp only [map_fst_groupEntries]
  refine ⟨fun group _ => ?_, (List.pairwise_map.mp h.keys).imp fun hne => ?_⟩
  · exact List.nodup_range.map fun i j he => (edgeKey_inj.mp he).2
  · intro key hkey hkey'
    obtain ⟨i, _, rfl⟩ := List.mem_map.mp hkey
    obtain ⟨j, _, he⟩ := List.mem_map.mp hkey'
    exact hne (edgeKey_inj.mp he).1.symm

theorem Grouped.describes (h : Grouped arcs groups) :
    Describes W arcs (.ofList (groups.flatMap (groupEntries W))) := by
  intro key entry
  rw [ofList_eq_some h.nodup_entries, List.mem_flatMap]
  constructor
  · rintro ⟨group, hgroup, hentry⟩
    obtain ⟨occurrence, weight, hget, he⟩ := mem_groupEntries.mp hentry
    obtain ⟨rfl, rfl⟩ := Prod.mk.inj he
    rw [h.exact group hgroup] at hget
    exact ⟨group.1, occurrence, weight, hget, rfl, rfl⟩
  · rintro ⟨arc, occurrence, weight, hget, rfl, rfl⟩
    have hweight : weight ∈ weightsOf arcs arc := List.mem_mergeSort.mp (List.mem_of_getElem? hget)
    have hseen : arc ∈ arcs.map Prod.fst := List.mem_map.mpr ⟨_, mem_weightsOf.mp hweight, rfl⟩
    obtain ⟨group, hgroup, rfl⟩ := List.mem_map.mp ((h.covers arc).mpr hseen)
    refine ⟨group, hgroup, mem_groupEntries.mpr ⟨occurrence, weight, ?_, rfl⟩⟩
    rw [h.exact group hgroup]
    exact hget

end Groups

section Captures

variable {W T F : Type} [LockF32 W F] [Zero W]

-- What a scope selects. A capture that fails selects nothing.
def selectedNodes (graph : Graph W T) (limits : PerspectiveLimits) (scope : LockScopeConfig) :
    BTreeSet Nat :=
  match selectNodes graph limits scope with
  | .ok selected => selected
  | .error _ => ∅

def scopeNodes (graph : Graph W T) (limits : PerspectiveLimits) (scope : LockScopeConfig) :
    BTreeSet String :=
  capturedNodes graph (selectedNodes graph limits scope)

-- The arcs of a finalized graph that have an end in the scope.
def scopeArcs (graph : Graph W T) (limits : PerspectiveLimits) (scope : LockScopeConfig) :
    List (Arc × F) :=
  (if graph.finalized then edgeSlots graph.numNodes graph.csr.offsets else []).filterMap
    (incidentArc graph (selectedNodes graph limits scope) (externalIds graph))

theorem Grouped.observe {graph : Graph W T} {cap : Nat} {selected : BTreeSet Nat}
    {ids : List (Option String)} {slots : List (Nat × Nat)} {arcs : List (Arc × F)}
    {observed final : List (Arc × List F) × Nat} (h : Grouped arcs observed.1)
    (hrun : slots.foldlM (observeSlot graph cap selected ids) observed = .ok final) :
    Grouped (arcs ++ slots.filterMap (incidentArc graph selected ids)) final.1 := by
  induction slots generalizing arcs observed with
  | nil =>
      obtain rfl := Except.ok.inj hrun
      rw [List.filterMap_nil, List.append_nil]
      exact h
  | cons slot slots ih =>
      rw [List.foldlM_cons, bind_eq_ok] at hrun
      obtain ⟨next, hnext, hrun⟩ := hrun
      unfold observeSlot at hnext
      cases harc : incidentArc graph selected ids slot with
      | none =>
          rw [harc] at hnext
          obtain rfl := Except.ok.inj hnext
          rw [List.filterMap_cons_none harc]
          exact ih h hrun
      | some entry =>
          obtain ⟨arc, weight⟩ := entry
          rw [harc] at hnext
          simp only at hnext
          split at hnext
          · cases hnext
          · obtain rfl := Except.ok.inj hnext
            rw [List.filterMap_cons_some harc, ← List.singleton_append, ← List.append_assoc]
            exact ih (h.push arc weight) hrun

theorem captureBaseline_spec {graph : Graph W T} {limits : PerspectiveLimits}
    {scope : LockScopeConfig} {nodes : BTreeSet String} {edges : LockEdges F}
    (h : captureBaseline graph limits scope = .ok (nodes, edges)) :
    nodes = scopeNodes graph limits scope ∧
      Describes W (scopeArcs graph limits scope) edges := by
  unfold captureBaseline at h
  rw [bind_eq_ok] at h
  obtain ⟨selected, hselected, h⟩ := h
  have hscope : selectedNodes graph limits scope = selected := by
    rw [selectedNodes, hselected]
  rw [bind_eq_ok] at h
  obtain ⟨⟨groups, count⟩, hrun, h⟩ := h
  obtain ⟨rfl, rfl⟩ := Prod.mk.inj (Except.ok.inj h)
  refine ⟨by rw [scopeNodes, hscope], ?_⟩
  have hgrouped := grouped_nil.observe hrun
  rw [List.nil_append] at hgrouped
  rw [scopeArcs, hscope]
  exact hgrouped.describes

end Captures

section Differences

variable {W F : Type} {key : Bytes}

theorem mem_edgeKeys {nodes : BTreeSet String} {edges : LockEdges F} {boundary : Bool} :
    key ∈ edgeKeys nodes edges boundary ↔
      ∃ entry, edges[key]? = some entry ∧ isBoundary nodes entry = boundary := by
  rw [edgeKeys, Std.ExtTreeSet.mem_ofList, List.contains_iff_mem, List.mem_map]
  simp only [List.mem_filter, Std.ExtTreeMap.mem_toList_iff_getElem?_eq_some, beq_iff_eq,
    Prod.exists]
  constructor
  · rintro ⟨other, entry, ⟨hget, hclass⟩, rfl⟩
    exact ⟨entry, hget, hclass⟩
  · rintro ⟨entry, hget, hclass⟩
    exact ⟨key, entry, ⟨hget, hclass⟩, rfl⟩

section Sorted

variable {α : Type} [Ord α] [Std.TransOrd α] [Std.LawfulEqOrd α] {left right : BTreeSet α} {a : α}

theorem mem_sortedDifference : a ∈ sortedDifference left right ↔ a ∈ left ∧ a ∉ right := by
  rw [sortedDifference, Std.ExtTreeSet.mem_toList, Std.ExtTreeSet.mem_filter]
  simp [← Std.ExtTreeSet.contains_iff_mem]

theorem isEmpty_sortedDifference :
    (sortedDifference left right).isEmpty = true ↔ ∀ a ∈ left, a ∈ right := by
  rw [List.isEmpty_iff, List.eq_nil_iff_forall_not_mem]
  simp only [mem_sortedDifference, not_and, not_not]

theorem sortedDifferences_isEmpty :
    (sortedDifference left right).isEmpty = true ∧ (sortedDifference right left).isEmpty = true ↔
      ∀ a, a ∈ left ↔ a ∈ right := by
  rw [isEmpty_sortedDifference, isEmpty_sortedDifference]
  exact ⟨fun ⟨h, h'⟩ a => ⟨h a, h' a⟩, fun h => ⟨fun a => (h a).mp, fun a => (h a).mpr⟩⟩

-- Both lists of differences turn one set into the other.
theorem mem_iff_sortedDifference :
    a ∈ right ↔ (a ∈ left ∧ a ∉ sortedDifference left right) ∨ a ∈ sortedDifference right left := by
  rw [mem_sortedDifference, mem_sortedDifference]
  tauto

end Sorted

variable [LockF32 W F]

variable (W) in
def Exceeds (old new : F) : Prop :=
  Core.Float32.lt (LockF32.tolerance W) (Core.Float32.abs (new - old)) = true

theorem weightChanges_eq_nil {baseline current : LockEdges F} :
    (current.toList.filterMap (weightChange W baseline)).isEmpty = true ↔
      ∀ (key : Bytes) (old new : EdgeSnapshotEntry F), baseline[key]? = some old →
        current[key]? = some new → ¬ Exceeds W old.weight new.weight := by
  rw [List.isEmpty_iff, List.filterMap_eq_nil_iff]
  constructor
  · intro h key old new hold hnew hexceeds
    have hnone := h (key, new) (Std.ExtTreeMap.mem_toList_iff_getElem?_eq_some.mpr hnew)
    rw [weightChange, hold] at hnone
    simp only [if_pos (show Core.Float32.lt (LockF32.tolerance W)
      (Core.Float32.abs (new.weight - old.weight)) = true from hexceeds)] at hnone
    cases hnone
  · rintro h ⟨key, new⟩ hmem
    have hnew := Std.ExtTreeMap.mem_toList_iff_getElem?_eq_some.mp hmem
    unfold weightChange
    cases hold : baseline[key]? with
    | none => rfl
    | some old => exact if_neg (h key old new hold hnew)

theorem noChanges_iff {lockId : String} {lock : LockState F} {nodes : BTreeSet String}
    {edges : LockEdges F} :
    (computeDiff W lockId lock nodes edges).noChanges = true ↔
      (∀ id, id ∈ nodes ↔ id ∈ lock.baseline.nodes) ∧
        (∀ boundary key, key ∈ edgeKeys nodes edges boundary ↔
          key ∈ edgeKeys lock.baseline.nodes lock.baseline.edges boundary) ∧
        ∀ (key : Bytes) (old new : EdgeSnapshotEntry F), lock.baseline.edges[key]? = some old →
          edges[key]? = some new → ¬ Exceeds W old.weight new.weight := by
  simp only [computeDiff, Bool.and_eq_true, weightChanges_eq_nil]
  constructor
  · rintro ⟨⟨⟨⟨⟨⟨hnew, hremoved⟩, hnewEdges⟩, hremovedEdges⟩, hadded⟩, hlost⟩, hweights⟩
    refine ⟨sortedDifferences_isEmpty.mp ⟨hnew, hremoved⟩, fun boundary => ?_, hweights⟩
    cases boundary with
    | false => exact sortedDifferences_isEmpty.mp ⟨hnewEdges, hremovedEdges⟩
    | true => exact sortedDifferences_isEmpty.mp ⟨hadded, hlost⟩
  · rintro ⟨hnodes, hkeys, hweights⟩
    obtain ⟨hnew, hremoved⟩ := sortedDifferences_isEmpty.mpr hnodes
    obtain ⟨hnewEdges, hremovedEdges⟩ := sortedDifferences_isEmpty.mpr (hkeys false)
    obtain ⟨hadded, hlost⟩ := sortedDifferences_isEmpty.mpr (hkeys true)
    exact ⟨⟨⟨⟨⟨⟨hnew, hremoved⟩, hnewEdges⟩, hremovedEdges⟩, hadded⟩, hlost⟩, hweights⟩

-- Two captures agree up to the tolerance.
structure SameCapture (W : Type) {F : Type} [LockF32 W F] (oldNodes newNodes : BTreeSet String)
    (oldArcs newArcs : List (Arc × F)) : Prop where
  nodes : oldNodes = newNodes
  arcs : (oldArcs.map Prod.fst).Perm (newArcs.map Prod.fst)
  weights : ∀ arc, List.Forall₂ (fun old new => ¬ Exceeds W old new)
    (sortedWeights W oldArcs arc) (sortedWeights W newArcs arc)

theorem length_sortedWeights (arcs : List (Arc × F)) (arc : Arc) :
    (sortedWeights W arcs arc).length = (arcs.map Prod.fst).count arc := by
  rw [sortedWeights, List.length_mergeSort, weightsOf, List.length_map, List.count, List.countP_map,
    List.countP_eq_length_filter]
  congr 1

theorem Describes.mem_edgeKeys {arcs : List (Arc × F)} {edges : LockEdges F}
    (h : Describes W arcs edges) {nodes : BTreeSet String} {boundary : Bool} :
    key ∈ edgeKeys nodes edges boundary ↔ ∃ arc occurrence,
      occurrence < (sortedWeights W arcs arc).length ∧ key = edgeKey arc occurrence ∧
        (!(nodes.contains arc.source && nodes.contains arc.target)) = boundary := by
  rw [M1nd.Mcp.mem_edgeKeys]
  constructor
  · rintro ⟨entry, hget, hclass⟩
    obtain ⟨arc, occurrence, weight, hweight, hkey, rfl⟩ := (h key entry).mp hget
    exact ⟨arc, occurrence, (List.getElem?_eq_some_iff.mp hweight).1, hkey, hclass⟩
  · rintro ⟨arc, occurrence, hlt, hkey, hclass⟩
    exact ⟨_, (h key _).mpr ⟨arc, occurrence, _, List.getElem?_eq_getElem hlt, hkey, rfl⟩, hclass⟩

theorem sameKeys_iff {oldArcs newArcs : List (Arc × F)} {oldEdges newEdges : LockEdges F}
    (hold : Describes W oldArcs oldEdges) (hnew : Describes W newArcs newEdges)
    (nodes : BTreeSet String) :
    (∀ boundary key, key ∈ edgeKeys nodes newEdges boundary ↔
      key ∈ edgeKeys nodes oldEdges boundary) ↔
        (oldArcs.map Prod.fst).Perm (newArcs.map Prod.fst) := by
  simp only [hold.mem_edgeKeys, hnew.mem_edgeKeys, List.perm_iff_count,
    ← length_sortedWeights (W := W)]
  constructor
  · intro h arc
    refine eq_of_forall_lt_iff fun occurrence => ?_
    have hkey := h (!(nodes.contains arc.source && nodes.contains arc.target))
      (edgeKey arc occurrence)
    constructor
    · intro hlt
      obtain ⟨other, i, hi, he, _⟩ := hkey.mpr ⟨arc, occurrence, hlt, rfl, rfl⟩
      obtain ⟨rfl, rfl⟩ := edgeKey_inj.mp he
      exact hi
    · intro hlt
      obtain ⟨other, i, hi, he, _⟩ := hkey.mp ⟨arc, occurrence, hlt, rfl, rfl⟩
      obtain ⟨rfl, rfl⟩ := edgeKey_inj.mp he
      exact hi
  · intro h boundary key
    simp only [h]

theorem sameWeights_iff {oldArcs newArcs : List (Arc × F)} {oldEdges newEdges : LockEdges F}
    (hold : Describes W oldArcs oldEdges) (hnew : Describes W newArcs newEdges)
    (hperm : (oldArcs.map Prod.fst).Perm (newArcs.map Prod.fst)) :
    (∀ (key : Bytes) (old new : EdgeSnapshotEntry F), oldEdges[key]? = some old →
      newEdges[key]? = some new → ¬ Exceeds W old.weight new.weight) ↔
        ∀ arc, List.Forall₂ (fun old new => ¬ Exceeds W old new) (sortedWeights W oldArcs arc)
          (sortedWeights W newArcs arc) := by
  simp only [List.forall₂_iff_get]
  constructor
  · intro h arc
    refine ⟨?_, fun i hi hi' => ?_⟩
    · rw [length_sortedWeights, length_sortedWeights, List.perm_iff_count.mp hperm arc]
    · exact h (edgeKey arc i) ⟨arc.source, arc.target, arc.relation, _⟩
        ⟨arc.source, arc.target, arc.relation, _⟩
        ((hold _ _).mpr ⟨arc, i, _, List.getElem?_eq_getElem hi, rfl, rfl⟩)
        ((hnew _ _).mpr ⟨arc, i, _, List.getElem?_eq_getElem hi', rfl, rfl⟩)
  · intro h key old new hkey hkey'
    obtain ⟨arc, i, weight, hget, rfl, rfl⟩ := (hold key old).mp hkey
    obtain ⟨other, j, weight', hget', he, rfl⟩ := (hnew _ new).mp hkey'
    obtain ⟨rfl, rfl⟩ := edgeKey_inj.mp he
    obtain ⟨hi, rfl⟩ := List.getElem?_eq_some_iff.mp hget
    obtain ⟨hi', rfl⟩ := List.getElem?_eq_some_iff.mp hget'
    exact (h arc).2 i hi hi'

theorem noChanges_iff_same {lockId : String} {lock : LockState F} {nodes : BTreeSet String}
    {edges : LockEdges F} {oldArcs newArcs : List (Arc × F)}
    (hold : Describes W oldArcs lock.baseline.edges) (hnew : Describes W newArcs edges) :
    (computeDiff W lockId lock nodes edges).noChanges = true ↔
      SameCapture W lock.baseline.nodes nodes oldArcs newArcs := by
  rw [noChanges_iff]
  constructor
  · rintro ⟨hnodes, hkeys, hweights⟩
    obtain rfl : nodes = lock.baseline.nodes := Std.ExtTreeSet.ext_mem hnodes
    have hperm := (sameKeys_iff hold hnew lock.baseline.nodes).mp hkeys
    exact ⟨rfl, hperm, (sameWeights_iff hold hnew hperm).mp hweights⟩
  · rintro ⟨rfl, hperm, hweights⟩
    exact ⟨fun _ => Iff.rfl, (sameKeys_iff hold hnew lock.baseline.nodes).mpr hperm,
      (sameWeights_iff hold hnew hperm).mpr hweights⟩

-- Every key has its class, and the classes together hold all keys.
theorem mem_iff_differences {lockId : String} {lock : LockState F} {nodes : BTreeSet String}
    {edges : LockEdges F} (key : Bytes) :
    key ∈ edges ↔
      (key ∈ lock.baseline.edges ∧
        key ∉ (computeDiff W lockId lock nodes edges).removedEdges ++
          (computeDiff W lockId lock nodes edges).boundaryEdgesRemoved) ∨
        key ∈ (computeDiff W lockId lock nodes edges).newEdges ++
          (computeDiff W lockId lock nodes edges).boundaryEdgesAdded := by
  have hclasses (nodes : BTreeSet String) (edges : LockEdges F) :
      key ∈ edges ↔ key ∈ edgeKeys nodes edges false ∨ key ∈ edgeKeys nodes edges true := by
    rw [mem_edgeKeys, mem_edgeKeys, Std.ExtTreeMap.mem_iff_isSome_getElem?,
      Option.isSome_iff_exists]
    constructor
    · rintro ⟨entry, hget⟩
      cases hclass : isBoundary nodes entry with
      | false => exact .inl ⟨entry, hget, hclass⟩
      | true => exact .inr ⟨entry, hget, hclass⟩
    · rintro (⟨entry, hget, _⟩ | ⟨entry, hget, _⟩)
      · exact ⟨entry, hget⟩
      · exact ⟨entry, hget⟩
  have hone : ¬ (key ∈ edgeKeys lock.baseline.nodes lock.baseline.edges false ∧
      key ∈ edgeKeys lock.baseline.nodes lock.baseline.edges true) := by
    rw [mem_edgeKeys, mem_edgeKeys]
    rintro ⟨⟨entry, hget, hclass⟩, other, hget', hclass'⟩
    obtain rfl : entry = other := Option.some.inj (hget.symm.trans hget')
    exact absurd (hclass.symm.trans hclass') (by decide)
  rw [hclasses nodes edges, hclasses lock.baseline.nodes lock.baseline.edges]
  simp only [computeDiff, List.mem_append, mem_sortedDifference]
  tauto

end Differences

section Handlers

variable {W T F : Type} [LockF32 W F] [Zero W]

theorem finite_scopeArcs {graph : Graph W T} {limits : PerspectiveLimits} {scope : LockScopeConfig}
    {entry : Arc × F} (hentry : entry ∈ scopeArcs graph limits scope) :
    FiniteF32.isFinite W entry.2 = true := by
  obtain ⟨slot, _, hslot⟩ := List.mem_filterMap.mp hentry
  unfold incidentArc at hslot
  simp only at hslot
  split at hslot
  · cases hslot
  · split at hslot
    · obtain rfl := Option.some.inj hslot
      exact FiniteF32.isFinite_get _
    · cases hslot

theorem sameCapture_refl (graph : Graph W T) (limits : PerspectiveLimits)
    (scope : LockScopeConfig) :
    SameCapture W (scopeNodes graph limits scope) (scopeNodes graph limits scope)
      (scopeArcs graph limits scope) (scopeArcs graph limits scope) where
  nodes := rfl
  arcs := List.Perm.refl _
  weights arc := by
    refine List.forall₂_same.mpr fun weight hweight => ?_
    have hmem := mem_weightsOf.mp (List.mem_mergeSort.mp hweight)
    rw [Exceeds, LockF32.sub_self_le weight (finite_scopeArcs hmem)]
    exact Bool.false_ne_true

-- The lists of a difference, together over both classes of edges, turn the baseline into the
-- capture.
structure Turns (diff : LockDiffResult F) (oldNodes newNodes : BTreeSet String)
    (oldEdges newEdges : LockEdges F) : Prop where
  nodes : ∀ id, id ∈ newNodes ↔ (id ∈ oldNodes ∧ id ∉ diff.removedNodes) ∨ id ∈ diff.newNodes
  edges : ∀ key, key ∈ newEdges ↔
    (key ∈ oldEdges ∧ key ∉ diff.removedEdges ++ diff.boundaryEdgesRemoved) ∨
      key ∈ diff.newEdges ++ diff.boundaryEdgesAdded

omit [LockF32 W F] [Zero W] in
theorem truncateDiff_noChanges (limits : PerspectiveLimits) (diff : LockDiffResult F) :
    (truncateDiff limits diff).noChanges = diff.noChanges := rfl

theorem handleLockDiff_spec {state state' : SessionState W T F} {agentId lockId : String}
    {nowMs : Nat} {output : LockDiffOutput F}
    (h : handleLockDiff state agentId lockId nowMs = .ok (output, state')) :
    ∃ lock nodes edges, requireLock state agentId lockId = .ok lock ∧
      captureBaseline state.graph state.perspectiveLimits lock.scope = .ok (nodes, edges) ∧
      output.diff =
        truncateDiff state.perspectiveLimits (computeDiff W lockId lock nodes edges) := by
  unfold handleLockDiff at h
  rw [bind_eq_ok] at h
  obtain ⟨lock, hlock, h⟩ := h
  rw [bind_eq_ok] at h
  obtain ⟨⟨nodes, edges⟩, hcapture, h⟩ := h
  obtain ⟨rfl, _⟩ := Prod.mk.inj (Except.ok.inj h)
  exact ⟨lock, nodes, edges, hlock, hcapture, rfl⟩

theorem handleLockDiff_of_capture {state : SessionState W T F} {agentId lockId : String}
    (nowMs : Nat) {lock : LockState F} {nodes : BTreeSet String} {edges : LockEdges F}
    (hlock : requireLock state agentId lockId = .ok lock)
    (hcapture : captureBaseline state.graph state.perspectiveLimits lock.scope =
      .ok (nodes, edges)) :
    ∃ output state', handleLockDiff state agentId lockId nowMs = .ok (output, state') := by
  simp only [handleLockDiff, hlock, bind, Except.bind, hcapture]
  exact ⟨_, _, rfl⟩

theorem handleLockRebase_spec {state rebased : SessionState W T F} {agentId lockId : String}
    {nowMs : Nat} {output : LockRebaseOutput}
    (h : handleLockRebase state agentId lockId nowMs = .ok (output, rebased)) :
    ∃ lock, requireLock rebased agentId lockId = .ok lock ∧
      captureBaseline rebased.graph rebased.perspectiveLimits lock.scope =
        .ok (lock.baseline.nodes, lock.baseline.edges) := by
  unfold handleLockRebase at h
  rw [bind_eq_ok] at h
  obtain ⟨lock, hlock, h⟩ := h
  rw [bind_eq_ok] at h
  obtain ⟨⟨nodes, edges⟩, hcapture, h⟩ := h
  have hagent : lock.agentId = agentId := by
    unfold requireLock at hlock
    split at hlock
    · cases hlock
    · split at hlock
      · cases hlock
      · next hagent =>
          obtain rfl := Except.ok.inj hlock
          exact not_not.mp hagent
  dsimp only at h
  split at h
  · cases h
  · split at h
    · cases h
    · obtain ⟨_, rfl⟩ := Prod.mk.inj (Except.ok.inj h)
      refine ⟨{
        lock with
        baseline := ⟨nodes, edges, state.graphGeneration, nowMs, "v2_directed_external"⟩
        baselineStale := false
        lastDiffMs := nowMs }, ?_, hcapture⟩
      rw [requireLock, Std.ExtTreeMap.getElem?_insert_self]
      exact if_neg (not_not.mpr hagent)

-- The capture that a difference reports on, against a baseline that was captured from any graph
-- under any limits.
theorem lockDiff_exact :
    (∀ (base : Graph W T) (baseLimits : PerspectiveLimits) (state state' : SessionState W T F)
      (agentId lockId : String) (nowMs : Nat) (lock : LockState F) (output : LockDiffOutput F),
      requireLock state agentId lockId = .ok lock →
      captureBaseline base baseLimits lock.scope =
        .ok (lock.baseline.nodes, lock.baseline.edges) →
      handleLockDiff state agentId lockId nowMs = .ok (output, state') →
      (output.diff.noChanges = true ↔
        SameCapture W (scopeNodes base baseLimits lock.scope)
          (scopeNodes state.graph state.perspectiveLimits lock.scope)
          (scopeArcs base baseLimits lock.scope)
          (scopeArcs state.graph state.perspectiveLimits lock.scope)) ∧
      ∃ nodes edges whole, captureBaseline state.graph state.perspectiveLimits lock.scope =
          .ok (nodes, edges) ∧
        output.diff = truncateDiff state.perspectiveLimits whole ∧
        Turns whole lock.baseline.nodes nodes lock.baseline.edges edges) ∧
    ∀ (state rebased : SessionState W T F) (agentId lockId : String) (nowMs laterMs : Nat)
      (output : LockRebaseOutput),
      handleLockRebase state agentId lockId nowMs = .ok (output, rebased) →
      ∃ diffOutput state',
        handleLockDiff rebased agentId lockId laterMs = .ok (diffOutput, state') ∧
          diffOutput.diff.noChanges = true := by
  refine ⟨?_, ?_⟩
  · intro base baseLimits state state' agentId lockId nowMs lock output hlock hbase hdiff
    obtain ⟨found, nodes, edges, hfound, hcapture, houtput⟩ := handleLockDiff_spec hdiff
    obtain rfl : found = lock := Except.ok.inj (hfound.symm.trans hlock)
    obtain ⟨hbaseNodes, hbaseEdges⟩ := captureBaseline_spec hbase
    obtain ⟨hnodes, hedges⟩ := captureBaseline_spec hcapture
    refine ⟨?_, nodes, edges, _, hcapture, houtput, fun id => mem_iff_sortedDifference,
      mem_iff_differences⟩
    rw [houtput, truncateDiff_noChanges, ← hbaseNodes, ← hnodes]
    exact noChanges_iff_same hbaseEdges hedges
  · intro state rebased agentId lockId nowMs laterMs output hrebase
    obtain ⟨lock, hlock, hcapture⟩ := handleLockRebase_spec hrebase
    obtain ⟨diffOutput, state', hdiff⟩ := handleLockDiff_of_capture laterMs hlock hcapture
    refine ⟨diffOutput, state', hdiff, ?_⟩
    obtain ⟨found, nodes, edges, hfound, hcapture', houtput⟩ := handleLockDiff_spec hdiff
    obtain rfl : found = lock := Except.ok.inj (hfound.symm.trans hlock)
    obtain ⟨hbaseNodes, hbaseEdges⟩ := captureBaseline_spec hcapture
    obtain ⟨hnodes, hedges⟩ := captureBaseline_spec hcapture'
    rw [houtput, truncateDiff_noChanges]
    refine (noChanges_iff_same hbaseEdges hedges).mpr ?_
    rw [hbaseNodes, hnodes]
    exact sameCapture_refl rebased.graph rebased.perspectiveLimits found.scope

instance exactLock : LockF32 Rat Rat where
  toFiniteF32 := exactF32
  toFloat32 := exactArithmetic
  totalLe x y := decide (x ≤ y)
  tolerance := 1 / 1000
  sub_self_le f _ := by
    rw [sub_self]
    decide +kernel

-- Two functions with one call.
def calledGraph : Graph Rat Nat where
  nodes := { (NodeStorage.new : NodeStorage Rat Nat) with count := 2, label := [0, 1] }
  csr := {
    (CsrGraph.empty : CsrGraph Rat) with
    offsets := [0, 1, 1]
    targets := [1]
    weights := [1 / 2]
    inhibitory := [false]
    relations := [2]
    directions := [.Forward]
    causalStrengths := [0]
    revOffsets := [0, 0, 1]
    revSources := [0]
    revEdgeIdx := [0] }
  edgePlasticity := .new
  strings := (StringInterner.new.internAll ["a", "b", "calls"]).2
  idToNode := ((∅ : Std.ExtTreeMap Nat Nat).insert 0 0).insert 1 1
  finalized := true

def calledLimits : PerspectiveLimits := ⟨2000, 10000, 50, 100⟩

def calledScope : LockScopeConfig := ⟨.Subgraph, ["a"], some 1, none⟩

def calledLock (baseline : BTreeSet String × LockEdges Rat) : LockState Rat where
  lockId := "lock"
  agentId := "agent"
  scope := calledScope
  baseline := ⟨baseline.1, baseline.2, 0, 0, "v2_directed_external"⟩
  watcher := none
  baselineStale := true
  createdAtMs := 0
  lastDiffMs := 0

def calledState (baseline : BTreeSet String × LockEdges Rat) : SessionState Rat Nat Rat where
  graph := calledGraph
  graphGeneration := 1
  locks := (∅ : BTreeMap (LockState Rat)).insert "lock" (calledLock baseline)
  perspectiveLimits := calledLimits
  pendingWatcherEvents := ["lock"]

theorem exists_ok {ε α : Type} {run : Except ε α} (h : run.isOk = true) : ∃ a, run = .ok a := by
  cases run with
  | ok a => exact ⟨a, rfl⟩
  | error e => cases h

theorem calledState_diff :
    (∃ baseline output state', handleLockDiff (calledState baseline) "agent" "lock" 1 =
        .ok (output, state') ∧
      (output.diff.noChanges = true ↔
        SameCapture Rat (scopeNodes calledGraph calledLimits calledScope)
          (scopeNodes calledGraph calledLimits calledScope)
          (scopeArcs calledGraph calledLimits calledScope)
          (scopeArcs calledGraph calledLimits calledScope))) ∧
    ∃ rebased output diffOutput state',
      handleLockRebase (calledState (∅, ∅)) "agent" "lock" 1 = .ok (output, rebased) ∧
        handleLockDiff rebased "agent" "lock" 2 = .ok (diffOutput, state') ∧
          diffOutput.diff.noChanges = true := by
  constructor
  · obtain ⟨baseline, hbaseline⟩ : ∃ baseline,
        captureBaseline calledGraph calledLimits calledScope = .ok baseline :=
      exists_ok (by decide +kernel)
    have hlock : requireLock (calledState baseline) "agent" "lock" = .ok (calledLock baseline) := by
      rw [requireLock, calledState, Std.ExtTreeMap.getElem?_insert_self]
      rfl
    obtain ⟨output, state', hdiff⟩ := handleLockDiff_of_capture 1 hlock hbaseline
    exact ⟨baseline, output, state', hdiff, (lockDiff_exact.1 calledGraph calledLimits _ _ _ _ _ _ _
      hlock hbaseline hdiff).1⟩
  · obtain ⟨⟨output, rebased⟩, hrebase⟩ : ∃ result,
        handleLockRebase (calledState (∅, ∅)) "agent" "lock" 1 = .ok result :=
      exists_ok (by decide +kernel)
    obtain ⟨diffOutput, state', hdiff, hsame⟩ := lockDiff_exact.2 _ _ _ _ 1 2 _ hrebase
    exact ⟨rebased, output, diffOutput, state', hrebase, hdiff, hsame⟩

end Handlers

end M1nd.Mcp
