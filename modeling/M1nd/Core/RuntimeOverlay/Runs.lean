import M1nd.Core.RuntimeOverlay
import M1nd.Core.Snapshot.Coherent

namespace M1nd.Core

open M1nd.Library.Loops
open M1nd.Library.Overflow

variable {W F D T : Type} {graph : Graph W T} {inputs : OverlayInputs}

-- The exact sums over some spans.
def invocationTotal (spans : List OtelSpan) : Nat :=
  (spans.map fun span => span.count.toNat).sum

def durationTotal (spans : List OtelSpan) : Nat :=
  (spans.map fun span => span.durationUs.toNat * span.count.toNat).sum

theorem invocationTotal_append (spans more : List OtelSpan) :
    invocationTotal (spans ++ more) = invocationTotal spans + invocationTotal more := by
  rw [invocationTotal, List.map_append, List.sum_append]
  rfl

theorem durationTotal_append (spans more : List OtelSpan) :
    durationTotal (spans ++ more) = durationTotal spans + durationTotal more := by
  rw [durationTotal, List.map_append, List.sum_append]
  rfl

-- The exact sums fit in the accumulators.
def Fits (spans : List OtelSpan) : Prop :=
  invocationTotal spans < 2 ^ 64 ∧ durationTotal spans < 2 ^ 64

theorem Fits.of_append {spans more : List OtelSpan} (h : Fits (spans ++ more)) : Fits spans := by
  obtain ⟨hinvocations, hduration⟩ := h
  rw [invocationTotal_append] at hinvocations
  rw [durationTotal_append] at hduration
  exact ⟨by omega, by omega⟩

structure NodeRuntimeData.Records (data : NodeRuntimeData F) (spans : List OtelSpan) : Prop where
  invocations : data.invocations.toNat = invocationTotal spans
  duration : data.totalDurationUs.toNat = durationTotal spans
  errors : data.errors.toNat ≤ data.invocations.toNat

theorem NodeRuntimeData.records_default [Zero F] : (default : NodeRuntimeData F).Records [] where
  invocations := rfl
  duration := rfl
  errors := Nat.le_refl _

variable [OverlayF32 F D]

-- The accumulators of a node do not overflow where the sums fit.
theorem NodeRuntimeData.Records.exists_record {data : NodeRuntimeData F} {spans : List OtelSpan}
    (h : data.Records spans) (mode : OverflowMode) (config : OverlayConfig F) {span : OtelSpan}
    (hfits : Fits (spans ++ [span])) :
    ∃ next, data.record mode config span = some next ∧ next.Records (spans ++ [span]) := by
  have hinvocations := invocationTotal_append spans [span]
  have hduration := durationTotal_append spans [span]
  have hone : invocationTotal [span] = span.count.toNat := List.sum_singleton
  have hone' : durationTotal [span] = span.durationUs.toNat * span.count.toNat := List.sum_singleton
  obtain ⟨hbound, hbound'⟩ := hfits
  have hadd : data.invocations.toNat + span.count.toNat < 2 ^ 64 := by
    rw [h.invocations]
    omega
  have hmul : span.durationUs.toNat * span.count.toNat < 2 ^ 64 := by omega
  obtain ⟨invocations, hinv, hinv'⟩ := mode.exists_add hadd
  obtain ⟨product, hproduct, hproduct'⟩ := mode.exists_mul hmul
  have hadd' : data.totalDurationUs.toNat + product.toNat < 2 ^ 64 := by
    rw [h.duration, hproduct']
    omega
  obtain ⟨total, htotal, htotal'⟩ := mode.exists_add hadd'
  have herrors : data.errors.toNat + span.count.toNat < 2 ^ 64 :=
    (Nat.add_le_add_right h.errors _).trans_lt hadd
  obtain ⟨added, hadded, hadded'⟩ := mode.exists_add herrors
  obtain ⟨errors, hstep, hle⟩ : ∃ errors,
      recordErrors mode span data.errors = some errors ∧
        errors.toNat ≤ data.errors.toNat + span.count.toNat := by
    unfold recordErrors
    cases span.isError with
    | true => exact ⟨added, hadded, hadded'.le⟩
    | false => exact ⟨data.errors, rfl, Nat.le_add_right _ _⟩
  refine ⟨_, Option.bind_eq_some_iff.mpr ⟨invocations, hinv, Option.bind_eq_some_iff.mpr
    ⟨product, hproduct, Option.bind_eq_some_iff.mpr ⟨total, htotal, Option.bind_eq_some_iff.mpr
      ⟨errors, hstep, rfl⟩⟩⟩⟩, ?_⟩
  constructor
  case invocations => rw [hinv', h.invocations, hinvocations, hone]
  case duration => rw [htotal', h.duration, hproduct', hduration, hone']
  case errors =>
    have hbefore := h.errors
    change errors.toNat ≤ invocations.toNat
    omega

namespace RuntimeOverlay

-- The data of every node holds the sums over its spans.
def Keeps (nodeData : Std.ExtTreeMap Nat (NodeRuntimeData F)) (spansOf : Nat → List OtelSpan) :
    Prop :=
  ∀ idx, (dataOf nodeData idx).Records (spansOf idx)

variable {nodeData : Std.ExtTreeMap Nat (NodeRuntimeData F)} {spansOf : Nat → List OtelSpan}
  {config : OverlayConfig F} {span : OtelSpan}

theorem dataOf_insert (nodeData : Std.ExtTreeMap Nat (NodeRuntimeData F)) (idx other : Nat)
    (data : NodeRuntimeData F) :
    dataOf (nodeData.insert idx data) other = if other = idx then data else dataOf nodeData other := by
  unfold dataOf
  rw [Std.ExtTreeMap.getElem?_insert]
  by_cases hother : other = idx
  · rw [if_pos (by simp [hother]), if_pos hother, Option.getD_some]
  · rw [if_neg (by simpa [Nat.compare_eq_eq] using Ne.symm hother), if_neg hother]

-- A span is recorded once for each node it is mapped to.
theorem Keeps.exists_touch (h : Keeps nodeData spansOf) (mode : OverflowMode)
    (config : OverlayConfig F) {idxs : List Nat} (hnodup : idxs.Nodup)
    (hfits : ∀ idx ∈ idxs, Fits (spansOf idx ++ [span])) :
    ∃ next, idxs.foldlM (touch mode config span) nodeData = some next ∧
      Keeps next fun idx => if idx ∈ idxs then spansOf idx ++ [span] else spansOf idx := by
  induction idxs generalizing nodeData spansOf with
  | nil => exact ⟨nodeData, rfl, h⟩
  | cons idx idxs ih =>
      obtain ⟨hnew, hrest⟩ := List.nodup_cons.mp hnodup
      obtain ⟨data, hdata, hrecords⟩ :=
        (h idx).exists_record mode config (hfits idx List.mem_cons_self)
      have hkeeps : Keeps (nodeData.insert idx data) fun other =>
          if other = idx then spansOf other ++ [span] else spansOf other := by
        intro other
        dsimp only
        rw [dataOf_insert]
        by_cases hother : other = idx
        · rw [if_pos hother, if_pos hother, hother]
          exact hrecords
        · rw [if_neg hother, if_neg hother]
          exact h other
      obtain ⟨next, hnext, hkept⟩ := ih hkeeps hrest fun other hmem => by
        have hother : other ≠ idx := fun heq => hnew (heq ▸ hmem)
        simpa only [if_neg hother] using hfits other (List.mem_cons_of_mem _ hmem)
      refine ⟨next, ?_, fun other => ?_⟩
      · rw [List.foldlM_cons, touch, hdata]
        exact hnext
      · have hrecords := hkept other
        by_cases hother : other = idx
        · subst hother
          simpa only [if_neg hnew, if_pos List.mem_cons_self, if_true] using hrecords
        · dsimp only at hrecords
          rw [if_neg hother] at hrecords
          simpa only [List.mem_cons, hother, false_or] using hrecords

-- The spans of a batch that are recorded for a node.
def mappedSpans (config : OverlayConfig F) (matched : OtelSpan → List Nat)
    (spans : List OtelSpan) (idx : Nat) : List OtelSpan :=
  spans.filter fun span => ¬ span.durationUs < config.minDurationUs ∧ idx ∈ matched span

theorem mappedSpans_singleton (config : OverlayConfig F) (matched : OtelSpan → List Nat)
    (span : OtelSpan) (idx : Nat) : mappedSpans config matched [span] idx =
      if ¬ span.durationUs < config.minDurationUs ∧ idx ∈ matched span then [span] else [] := by
  rw [mappedSpans, List.filter_cons, List.filter_nil]
  simp only [decide_eq_true_eq]

theorem Keeps.exists_ingestSpan {matched : OtelSpan → List Nat} {ingest : Ingest F}
    (h : Keeps ingest.nodeData spansOf) (mode : OverflowMode) (hnodup : (matched span).Nodup)
    (hfits : ∀ idx, Fits (spansOf idx ++ mappedSpans config matched [span] idx)) :
    ∃ next, ingestSpan mode config matched ingest span = some next ∧
      Keeps next.nodeData fun idx => spansOf idx ++ mappedSpans config matched [span] idx := by
  simp only [mappedSpans_singleton] at hfits ⊢
  unfold ingestSpan
  by_cases hshort : span.durationUs < config.minDurationUs
  · rw [if_pos hshort]
    refine ⟨ingest, rfl, fun idx => ?_⟩
    dsimp only
    rw [if_neg (fun hboth => hboth.1 hshort), List.append_nil]
    exact h idx
  · rw [if_neg hshort]
    by_cases hnone : matched span = []
    · rw [hnone]
      refine ⟨_, rfl, fun idx => ?_⟩
      dsimp only
      rw [if_neg (fun hboth => List.not_mem_nil hboth.2), List.append_nil]
      exact h idx
    · rw [if_neg (by simpa using hnone)]
      obtain ⟨nodeData, htouched, hkept⟩ := h.exists_touch mode config hnodup
        fun idx hidx => by simpa only [hshort, not_false_eq_true, hidx, and_self, if_true] using hfits idx
      refine ⟨_, by rw [htouched]; rfl, fun idx => ?_⟩
      have hrecords := hkept idx
      dsimp only at hrecords ⊢
      by_cases hidx : idx ∈ matched span
      · rw [if_pos hidx] at hrecords
        rw [if_pos ⟨hshort, hidx⟩]
        exact hrecords
      · rw [if_neg hidx] at hrecords
        rw [if_neg (fun hboth => hidx hboth.2), List.append_nil]
        exact hrecords

theorem Keeps.exists_spans {matched : OtelSpan → List Nat} {ingest : Ingest F}
    (h : Keeps ingest.nodeData spansOf) (mode : OverflowMode)
    (hnodup : ∀ span, (matched span).Nodup)
    {spans : List OtelSpan}
    (hfits : ∀ idx, Fits (spansOf idx ++ mappedSpans config matched spans idx)) :
    ∃ next, spans.foldlM (ingestSpan mode config matched) ingest = some next ∧
      Keeps next.nodeData fun idx => spansOf idx ++ mappedSpans config matched spans idx := by
  induction spans generalizing ingest spansOf with
  | nil =>
      refine ⟨ingest, rfl, fun idx => ?_⟩
      dsimp only
      rw [mappedSpans, List.filter_nil, List.append_nil]
      exact h idx
  | cons span spans ih =>
      have hcons : ∀ idx, spansOf idx ++ mappedSpans config matched (span :: spans) idx =
          (spansOf idx ++ mappedSpans config matched [span] idx) ++
            mappedSpans config matched spans idx := by
        intro idx
        rw [List.append_assoc, mappedSpans, mappedSpans, mappedSpans, ← List.filter_append]
        rfl
      simp only [hcons] at hfits ⊢
      obtain ⟨next, hnext, hkeeps⟩ := h.exists_ingestSpan mode (hnodup span)
        fun idx => (hfits idx).of_append
      obtain ⟨last, hlast, hkept⟩ := ih hkeeps hfits
      exact ⟨last, by rw [List.foldlM_cons, hnext]; exact hlast, hkept⟩

end RuntimeOverlay

section Mapping

omit [OverlayF32 F D]

theorem nodup_labelToIdx (labels : List String) (label : String) : (labelToIdx labels label).Nodup :=
  List.nodup_range.filter _

-- A node has one label, so that no two labels name it.
theorem nodup_matchedIndices (inputs : OverlayInputs) (strategy : MappingStrategy)
    (labels : List String) (extIds : Std.ExtTreeMap String Nat) (span : OtelSpan) :
    (matchedIndices inputs strategy labels extIds span).Nodup := by
  cases strategy with
  | LabelMatch =>
      rw [matchedIndices, labelMatches]
      split
      · exact nodup_labelToIdx labels _
      · split
        · refine List.nodup_flatMap.mpr ⟨fun label _ => nodup_labelToIdx labels label, ?_⟩
          have hlabels : (inputs.labelOrder labels.dedup).Nodup :=
            (inputs.labelOrder_perm _).nodup_iff.mpr (List.nodup_dedup _)
          refine (hlabels.filter _).imp fun hne => ?_
          intro idx hidx hidx'
          have hlabel := of_decide_eq_true (List.mem_filter.mp hidx).2
          have hlabel' := of_decide_eq_true (List.mem_filter.mp hidx').2
          exact hne (Option.some.inj (hlabel.symm.trans hlabel'))
        · exact List.nodup_nil
  | CodeAttribute =>
      rw [matchedIndices]
      split
      · exact nodup_labelToIdx labels _
      · exact List.nodup_nil
  | ExactId =>
      rw [matchedIndices]
      cases extIds[span.name]? with
      | none => exact List.nodup_nil
      | some idx => exact List.nodup_singleton idx

theorem Graph.Registered.exists_overlayLabels (h : graph.Registered) (inputs : OverlayInputs) :
    ∃ labels, overlayLabels inputs graph = some labels := by
  have hread : ∀ i ∈ List.range graph.numNodes,
      ∃ label, (nodeToLabel graph i).map inputs.toLowercase = some label := by
    intro i hi
    obtain ⟨label, hlabel⟩ := h.exists_label (List.mem_range.mp hi)
    exact ⟨_, by rw [nodeToLabel, hlabel, Option.map_some]⟩
  obtain ⟨labels, hlabels, -⟩ := exists_mapM hread
  exact ⟨labels, hlabels⟩

theorem Graph.Registered.exists_extToIdx (h : graph.Registered) :
    ∃ extIds, extToIdx graph = some extIds := by
  obtain ⟨extIds, hextIds, -⟩ : ∃ extIds, extToIdx graph = some extIds ∧ True := by
    refine exists_foldlM (fun _ => True) trivial fun map _ entry hentry => ?_
    obtain ⟨extId, hextId⟩ := h.exists_name hentry
    rw [insertExtId, hextId]
    split <;> exact ⟨_, rfl, trivial⟩
  exact ⟨extIds, hextIds⟩

end Mapping

end M1nd.Core

namespace M1nd.Core

open M1nd.Library.Loops
open M1nd.Library.Overflow

variable {W F D T : Type} [OverlayF32 F D] {graph : Graph W T}

namespace RuntimeOverlay

section Batches

variable {overlay : RuntimeOverlay F} {spansOf : Nat → List OtelSpan}

theorem exists_hotNodes (h : graph.Registered) (inputs : OverlayInputs)
    (nodeData : Std.ExtTreeMap Nat (NodeRuntimeData F)) :
    ∃ heats, hotNodes inputs graph nodeData = some heats := by
  have htext : ∀ text : Nat → Option String, (∀ idx < graph.nodes.count, ∃ s, text idx = some s) →
      ∀ idx, ∃ s, textOf graph text idx = some s := by
    intro text hinside idx
    unfold textOf
    split
    · exact hinside idx ‹_›
    · exact ⟨_, rfl⟩
  have hlabel := htext (nodeToLabel graph) fun _ hidx => h.exists_label hidx
  have hext := htext (nodeToExt graph) fun idx _ => by
    unfold nodeToExt
    cases hfind : graph.idToNode.toList.find? fun entry => entry.2 = idx with
    | none => exact ⟨_, rfl⟩
    | some entry => exact h.exists_name (List.mem_of_find?_eq_some hfind)
  have hread : ∀ entry ∈ ((inputs.nodeOrder nodeData.keys).map fun idx =>
      (idx, dataOf nodeData idx)).filter fun entry => Float32.lt OverlayF32.minHeat entry.2.heat,
      ∃ heat, nodeHeat graph entry = some heat := by
    intro entry _
    obtain ⟨nodeId, hnodeId⟩ := hext entry.1
    obtain ⟨label, hlabel⟩ := hlabel entry.1
    exact ⟨_, by rw [nodeHeat, hnodeId, hlabel]; rfl⟩
  obtain ⟨heats, hheats, -⟩ := exists_mapM hread
  exact ⟨_, by rw [hotNodes, hheats]; rfl⟩

theorem Keeps.decay (h : Keeps overlay.nodeData spansOf) : Keeps overlay.decay spansOf := by
  unfold RuntimeOverlay.decay
  split
  · intro idx
    have hrecords := h idx
    unfold dataOf at hrecords ⊢
    rw [Std.ExtTreeMap.getElem?_map]
    cases hdata : overlay.nodeData[idx]? with
    | none =>
        rw [hdata] at hrecords
        exact hrecords
    | some data =>
        rw [hdata] at hrecords
        exact ⟨hrecords.invocations, hrecords.duration, hrecords.errors⟩
  · exact h

-- The spans of a batch for each node of its graph.
def batchSpans (inputs : OverlayInputs) (config : OverlayConfig F) (graph : Graph W T)
    (batch : OtelBatch) : Nat → List OtelSpan :=
  mappedSpans config (matchedIndices inputs config.mappingStrategy
    ((overlayLabels inputs graph).getD []) ((extToIdx graph).getD ∅)) batch.spans

theorem Keeps.exists_ingest (h : Keeps overlay.nodeData spansOf) (mode : OverflowMode)
    (hgraph : graph.Registered) (inputs : OverlayInputs) {batch : OtelBatch}
    (hnodes : graph.numNodes ≠ 0)
    (hfits : ∀ idx, Fits (spansOf idx ++ batchSpans inputs overlay.config graph batch idx))
    (hcount : overlay.batchesIngested.toNat + 1 < 2 ^ 32) : ∃ result next,
      overlay.ingest mode inputs graph batch = some (.ok (result, next)) ∧
      next.config = overlay.config ∧
      next.batchesIngested.toNat = overlay.batchesIngested.toNat + 1 ∧
      Keeps next.nodeData fun idx =>
        spansOf idx ++ batchSpans inputs overlay.config graph batch idx := by
  obtain ⟨extIds, hextIds⟩ := hgraph.exists_extToIdx
  obtain ⟨labels, hlabels⟩ := hgraph.exists_overlayLabels inputs
  have hspans : batchSpans inputs overlay.config graph batch = mappedSpans overlay.config
      (matchedIndices inputs overlay.config.mappingStrategy labels extIds) batch.spans := by
    rw [batchSpans, hextIds, hlabels, Option.getD_some, Option.getD_some]
  rw [hspans] at hfits ⊢
  have hdecayed : Keeps (Ingest.mk overlay.decay 0 0).nodeData spansOf := h.decay
  obtain ⟨ingested, hingested, hkeeps⟩ :=
    hdecayed.exists_spans mode (nodup_matchedIndices inputs _ labels extIds) hfits
  have hadd : overlay.batchesIngested.toNat + (1 : BitVec 32).toNat < 2 ^ 32 := hcount
  obtain ⟨batches, hbatches, hbatches'⟩ := mode.exists_add hadd
  obtain ⟨heats, hheats⟩ := exists_hotNodes hgraph inputs ingested.nodeData
  have hrun : ∃ result, overlay.ingest mode inputs graph batch =
      some (.ok (result, ⟨ingested.nodeData, overlay.config, batches⟩)) := by
    rw [ingest, if_neg hnodes]
    exact ⟨_, Option.bind_eq_some_iff.mpr ⟨extIds, hextIds, Option.bind_eq_some_iff.mpr ⟨labels,
      hlabels, Option.bind_eq_some_iff.mpr ⟨ingested, hingested, Option.bind_eq_some_iff.mpr
        ⟨batches, hbatches, Option.bind_eq_some_iff.mpr ⟨heats, hheats, rfl⟩⟩⟩⟩⟩⟩
  obtain ⟨result, hresult⟩ := hrun
  exact ⟨result, _, hresult, rfl, hbatches', hkeeps⟩

-- Each batch comes with the graph at its time. A batch that meets no node is refused.
def ingestBatch (mode : OverflowMode) (inputs : OverlayInputs) (overlay : RuntimeOverlay F)
    (entry : Graph W T × OtelBatch) : Option (RuntimeOverlay F) := do
  let outcome ← overlay.ingest mode inputs entry.1 entry.2
  match outcome with
  | .ok (_, next) => some next
  | .error _ => some overlay

def ingestAll (mode : OverflowMode) (inputs : OverlayInputs) (config : OverlayConfig F)
    (batches : List (Graph W T × OtelBatch)) : Option (RuntimeOverlay F) :=
  batches.foldlM (ingestBatch mode inputs) (new config)

-- The batches that are not refused, and all their spans for a node.
def ingested (batches : List (Graph W T × OtelBatch)) : List (Graph W T × OtelBatch) :=
  batches.filter fun entry => entry.1.numNodes ≠ 0

def allSpans (inputs : OverlayInputs) (config : OverlayConfig F)
    (batches : List (Graph W T × OtelBatch)) (idx : Nat) : List OtelSpan :=
  (ingested batches).flatMap fun entry => batchSpans inputs config entry.1 entry.2 idx

-- What every node has recorded are the exact sums over the spans that are mapped to it, and the
-- number of the batches is exact, too.
structure Exact (inputs : OverlayInputs) (config : OverlayConfig F)
    (batches : List (Graph W T × OtelBatch)) (overlay : RuntimeOverlay F) : Prop where
  invocations : ∀ idx, (dataOf overlay.nodeData idx).invocations.toNat =
    invocationTotal (allSpans inputs config batches idx)
  duration : ∀ idx, (dataOf overlay.nodeData idx).totalDurationUs.toNat =
    durationTotal (allSpans inputs config batches idx)
  batches : overlay.batchesIngested.toNat = (ingested batches).length

theorem ingested_concat (batches : List (Graph W T × OtelBatch)) (entry : Graph W T × OtelBatch) :
    ingested (batches ++ [entry]) =
      if entry.1.numNodes ≠ 0 then ingested batches ++ [entry] else ingested batches := by
  rw [ingested, List.filter_append, List.filter_cons, List.filter_nil]
  by_cases hnodes : entry.1.numNodes = 0
  · rw [if_neg (by simpa using hnodes), if_neg (by simpa using hnodes), List.append_nil]
    rfl
  · rw [if_pos (by simpa using hnodes), if_pos hnodes]
    rfl

-- Accumulators in which the exact sums fit hold them after every batch.
theorem exists_ingestAll (mode : OverflowMode) (inputs : OverlayInputs) (config : OverlayConfig F)
    {batches : List (Graph W T × OtelBatch)} (hgraphs : ∀ entry ∈ batches, entry.1.Registered)
    (hfits : ∀ idx, Fits (allSpans inputs config batches idx))
    (hcount : (ingested batches).length < 2 ^ 32) : ∃ overlay,
      ingestAll mode inputs config batches = some overlay ∧ overlay.config = config ∧
      overlay.batchesIngested.toNat = (ingested batches).length ∧
      Keeps overlay.nodeData (allSpans inputs config batches) := by
  induction batches using List.reverseRecOn with
  | nil =>
      refine ⟨new config, rfl, rfl, rfl, fun idx => ?_⟩
      have hnone : dataOf (new config).nodeData idx = .default := by
        rw [new, dataOf, Std.ExtTreeMap.getElem?_empty, Option.getD_none]
      rw [hnone]
      exact NodeRuntimeData.records_default
  | append_singleton batches entry ih =>
      have hbefore : ∀ other ∈ batches, other.1.Registered :=
        fun other hother => hgraphs other (List.mem_append_left _ hother)
      have hentry := hgraphs entry (List.mem_append_right _ List.mem_cons_self)
      unfold ingestAll allSpans at *
      rw [List.foldlM_append]
      simp only [ingested_concat] at hfits hcount ⊢
      by_cases hnodes : entry.1.numNodes = 0
      · rw [if_neg (not_not.mpr hnodes)] at hcount ⊢
        simp only [if_neg (not_not.mpr hnodes)] at hfits
        obtain ⟨overlay, hoverlay, hrest⟩ := ih hbefore hfits hcount
        refine ⟨overlay, ?_, hrest⟩
        rw [hoverlay, Option.bind_eq_bind, Option.bind_some, List.foldlM_cons, ingestBatch, ingest,
          if_pos hnodes]
        rfl
      · rw [if_pos hnodes, List.length_append, List.length_singleton] at hcount ⊢
        simp only [if_pos hnodes, List.flatMap_append, List.flatMap_singleton] at hfits ⊢
        obtain ⟨overlay, hoverlay, rfl, hbatches, hkeeps⟩ :=
          ih hbefore (fun idx => (hfits idx).of_append) (by omega)
        obtain ⟨result, next, hresult, hconfig, hbatches', hkept⟩ :=
          hkeeps.exists_ingest mode hentry inputs hnodes hfits (by omega)
        refine ⟨next, ?_, hconfig, by omega, hkept⟩
        rw [hoverlay, Option.bind_eq_bind, Option.bind_some, List.foldlM_cons, ingestBatch, hresult]
        rfl

end Batches

section Reachable

variable [Zero W]

-- Each batch with the graph that was built until then.
def history (batches : List (List (GraphEdit W T) × OtelBatch)) : List (Graph W T × OtelBatch) :=
  batches.map fun entry => (GraphEdit.run entry.1, entry.2)

theorem registered_history (F : Type) [FiniteF32 W F]
    {batches : List (List (GraphEdit W T) × OtelBatch)} {entry : Graph W T × OtelBatch}
    (hentry : entry ∈ history batches) : entry.1.Registered := by
  obtain ⟨⟨edits, batch⟩, -, rfl⟩ := List.mem_map.mp hentry
  exact (GraphEdit.coherent_run F edits).registered

omit [Zero W] in
theorem Exact.fits {inputs : OverlayInputs} {config : OverlayConfig F}
    {batches : List (Graph W T × OtelBatch)} {overlay : RuntimeOverlay F}
    (h : overlay.Exact inputs config batches) :
    (∀ idx, Fits (allSpans inputs config batches idx)) ∧ (ingested batches).length < 2 ^ 32 :=
  ⟨fun idx => ⟨h.invocations idx ▸ BitVec.isLt _, h.duration idx ▸ BitVec.isLt _⟩,
    h.batches ▸ BitVec.isLt _⟩

-- Whether overflows panic or wrap around, the accumulators are exact after every sequence of
-- batches just when the exact sums fit in them.
theorem ingestAll_exact_iff [FiniteF32 W F] (mode : OverflowMode) (inputs : OverlayInputs)
    (config : OverlayConfig F) (batches : List (List (GraphEdit W T) × OtelBatch)) :
    (∃ overlay, ingestAll mode inputs config (history batches) = some overlay ∧
        overlay.Exact inputs config (history batches)) ↔
      (∀ idx, Fits (allSpans inputs config (history batches) idx)) ∧
        (ingested (history batches)).length < 2 ^ 32 := by
  constructor
  · rintro ⟨overlay, -, hexact⟩
    exact hexact.fits
  · rintro ⟨hfits, hcount⟩
    obtain ⟨overlay, hoverlay, -, hbatches, hkeeps⟩ := exists_ingestAll mode inputs config
      (fun _ hentry => registered_history F hentry) hfits hcount
    exact ⟨overlay, hoverlay, fun idx => (hkeeps idx).invocations, fun idx => (hkeeps idx).duration,
      hbatches⟩

end Reachable

end RuntimeOverlay

-- The heat plays no part in the accumulators.
instance exactOverlay : OverlayF32 Rat Rat where
  ofCount n := n.toNat
  ln1p x := x / (1 + x)
  seconds n := n.toNat / 1000000
  minHeat := 1 / 100
  average total count := total.toNat / count.toNat
  noAverage := 0

def OverlayInputs.ascii : OverlayInputs where
  toLowercase := String.toLower
  labelOrder labels := labels
  labelOrder_perm labels := .refl labels
  nodeOrder nodes := nodes
  nodeOrder_perm nodes := .refl nodes

-- One more call of a function that has been called as often as the accumulator can tell.
theorem RuntimeOverlay.overflows_one_more :
    let config : OverlayConfig Rat := ⟨.LabelMatch, 9 / 10, 10, 0⟩
    let edits : List (GraphEdit Rat Nat) := [.operate (.addNode "a" "a" .Function [] 0 0)]
    let batches := history [(edits, ⟨[⟨"a", 1, BitVec.allOnes 64, false, ∅⟩, ⟨"a", 1, 1, false, ∅⟩]⟩)]
    (¬ ∃ overlay, ingestAll .Panics .ascii config batches = some overlay ∧
        overlay.Exact .ascii config batches) ∧
      ¬ ∃ overlay, ingestAll .Wraps .ascii config batches = some overlay ∧
        overlay.Exact .ascii config batches := by
  intro config edits batches
  have hover : ¬ invocationTotal (allSpans .ascii config batches 0) < 2 ^ 64 := by decide +kernel
  refine ⟨?_, ?_⟩
  all_goals
    rintro ⟨overlay, -, hexact⟩
    exact hover (hexact.fits.1 0).1

end M1nd.Core
