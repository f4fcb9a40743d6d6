import M1nd.Ingest.Merge.Nodes
import M1nd.Library.Collections

namespace M1nd.Ingest

open M1nd.Core
open M1nd.Library.Collections (lookup_eq_some_iff)
open M1nd.Library.Pairing

variable {W T : Type}

-- Every group has a key of its own, which its records have.
structure Grouped (records : EdgeRecords W) : Prop where
  nodup : (records.map Prod.fst).Nodup
  keyed : ∀ entry ∈ records, ∀ record ∈ entry.2, record.key = entry.1

section Groups

variable {records : EdgeRecords W} {key other : EdgeKey} {slots : List (EdgeRecord W)}

theorem recordsOf_cons (first : EdgeKey) (found : List (EdgeRecord W)) :
    recordsOf ((first, found) :: records) key = if key = first then found else recordsOf records key := by
  unfold recordsOf
  rw [List.lookup_cons]
  by_cases he : key = first
  · rw [if_pos he, beq_iff_eq.mpr he]
    rfl
  · rw [if_neg he, beq_eq_false_iff_ne.mpr he]

theorem recordsOf_setRecords :
    recordsOf (setRecords key slots records) other =
      if other = key then slots else recordsOf records other := by
  induction records with
  | nil => exact recordsOf_cons key slots
  | cons entry records ih =>
      obtain ⟨first, found⟩ := entry
      unfold setRecords
      by_cases hfirst : first = key
      · subst hfirst
        rw [if_pos rfl, recordsOf_cons, recordsOf_cons]
        by_cases he : other = first
        · rw [if_pos he, if_pos he]
        · rw [if_neg he, if_neg he, if_neg he]
      · rw [if_neg hfirst, recordsOf_cons, recordsOf_cons, ih]
        by_cases he : other = first
        · subst he
          rw [if_pos rfl, if_pos rfl, if_neg hfirst]
        · rw [if_neg he, if_neg he]

theorem recordsOf_of_notMem (h : key ∉ records.map Prod.fst) : recordsOf records key = [] := by
  induction records with
  | nil => rfl
  | cons entry records ih =>
      rw [List.map_cons, List.mem_cons, not_or] at h
      obtain ⟨hne, hrest⟩ := h
      rw [recordsOf_cons, if_neg hne, ih hrest]

theorem mem_fst_setRecords (h : other ∈ (setRecords key slots records).map Prod.fst) :
    other = key ∨ other ∈ records.map Prod.fst := by
  induction records with
  | nil => exact .inl (List.mem_singleton.mp h)
  | cons entry records ih =>
      obtain ⟨first, found⟩ := entry
      unfold setRecords at h
      by_cases hfirst : first = key
      · rw [if_pos hfirst] at h
        exact .inr h
      · rw [if_neg hfirst, List.map_cons, List.mem_cons] at h
        obtain h | h := h
        · exact .inr (h ▸ List.mem_cons_self)
        · exact (ih h).imp_right fun hmem => List.mem_cons_of_mem _ hmem

theorem Grouped.setRecords (h : Grouped records) (hslots : ∀ record ∈ slots, record.key = key) :
    Grouped (setRecords key slots records) := by
  induction records with
  | nil =>
      refine ⟨List.nodup_singleton _, fun entry hentry => ?_⟩
      rw [List.mem_singleton.mp hentry]
      exact hslots
  | cons entry records ih =>
      obtain ⟨first, found⟩ := entry
      obtain ⟨hfresh, hnodup⟩ := List.nodup_cons.mp h.nodup
      obtain ⟨hfound, hkeyed⟩ := List.forall_mem_cons.mp h.keyed
      unfold Ingest.setRecords
      by_cases hfirst : first = key
      · subst hfirst
        rw [if_pos rfl]
        exact ⟨h.nodup, List.forall_mem_cons.mpr ⟨hslots, hkeyed⟩⟩
      · have hrest := ih ⟨hnodup, hkeyed⟩
        rw [if_neg hfirst]
        refine ⟨List.nodup_cons.mpr ⟨fun hmem => ?_, hrest.nodup⟩,
          List.forall_mem_cons.mpr ⟨hfound, hrest.keyed⟩⟩
        obtain he | hmem := mem_fst_setRecords hmem
        · exact hfirst he
        · exact hfresh hmem

-- The records of a key, in whatever order the groups come.
theorem Grouped.filter_flatMap (h : Grouped records) (key : EdgeKey) :
    (records.flatMap Prod.snd).filter (fun record => record.key = key) =
      recordsOf records key := by
  induction records with
  | nil => rfl
  | cons entry records ih =>
      obtain ⟨first, found⟩ := entry
      obtain ⟨hfresh, hnodup⟩ := List.nodup_cons.mp h.nodup
      obtain ⟨hfound, hkeyed⟩ := List.forall_mem_cons.mp h.keyed
      have ih := ih ⟨hnodup, hkeyed⟩
      rw [List.flatMap_cons, List.filter_append]
      by_cases he : key = first
      · subst he
        have hrest : (records.flatMap Prod.snd).filter (fun record => record.key = key) = [] := by
          refine List.filter_eq_nil_iff.mpr fun record hrecord => ?_
          obtain ⟨entry, hentry, hmem⟩ := List.mem_flatMap.mp hrecord
          have hkey := hkeyed entry hentry record hmem
          simp only [decide_eq_true_eq, hkey]
          rintro rfl
          exact hfresh (List.mem_map.mpr ⟨entry, hentry, rfl⟩)
        have hall : found.filter (fun record => record.key = key) = found :=
          List.filter_eq_self.mpr fun record hrecord => decide_eq_true (hfound record hrecord)
        rw [hrest, List.append_nil, hall, recordsOf_cons, if_pos rfl]
      · have hnone : found.filter (fun record => record.key = key) = [] := by
          refine List.filter_eq_nil_iff.mpr fun record hrecord => ?_
          simp only [decide_eq_true_eq, hfound record hrecord]
          exact fun hkey => he hkey.symm
        rw [hnone, List.nil_append, ih, recordsOf_cons, if_neg he]

theorem Grouped.perm {records' : EdgeRecords W} (h : Grouped records)
    (hperm : records'.Perm records) : Grouped records' where
  nodup := (hperm.map Prod.fst).nodup_iff.mpr h.nodup
  keyed entry hentry := h.keyed entry (hperm.mem_iff.mp hentry)

theorem Grouped.recordsOf_of_mem (h : Grouped records) (hmem : (key, slots) ∈ records) :
    recordsOf records key = slots := by
  rw [recordsOf, (lookup_eq_some_iff h.nodup).mpr hmem]
  rfl

theorem Grouped.recordsOf_perm {records' : EdgeRecords W} (h : Grouped records)
    (hperm : records'.Perm records) (key : EdgeKey) :
    recordsOf records' key = recordsOf records key := by
  by_cases hmem : key ∈ records.map Prod.fst
  · obtain ⟨⟨_, slots⟩, hentry, rfl⟩ := List.mem_map.mp hmem
    rw [h.recordsOf_of_mem hentry, (h.perm hperm).recordsOf_of_mem (hperm.mem_iff.mpr hentry)]
  · have hmem' : key ∉ records'.map Prod.fst := fun hkey =>
      hmem ((hperm.map Prod.fst).mem_iff.mp hkey)
    rw [recordsOf_of_notMem hmem, recordsOf_of_notMem hmem']

end Groups

section Overlay

-- Two occurrences of one edge.
def joinRecords [Max W] (existing record : EdgeRecord W) : EdgeRecord W :=
  { existing with
    weight := max existing.weight record.weight
    causalStrength := max existing.causalStrength record.causalStrength }

def ofKey (key : EdgeKey) (edges : List (EdgeRecord W)) : List (EdgeRecord W) :=
  edges.filter fun record => record.key = key

theorem key_of_mem_ofKey {key : EdgeKey} {edges : List (EdgeRecord W)} {record : EdgeRecord W}
    (h : record ∈ ofKey key edges) : record.key = key :=
  of_decide_eq_true (List.mem_filter.mp h).2

theorem ofKey_concat (key : EdgeKey) (edges : List (EdgeRecord W)) (record : EdgeRecord W) :
    ofKey key (edges ++ [record]) =
      if key = record.key then ofKey key edges ++ [record] else ofKey key edges := by
  unfold ofKey
  rw [List.filter_append, List.filter_cons, List.filter_nil]
  by_cases he : key = record.key
  · simp [he]
  · simp [he, Ne.symm he]

-- The groups of the base hold its records, in their order.
theorem recordsOf_foldl_pushRecord (edges : List (EdgeRecord W)) :
    Grouped (edges.foldl pushRecord []) ∧
      ∀ key, recordsOf (edges.foldl pushRecord []) key = ofKey key edges := by
  induction edges using List.reverseRecOn with
  | nil => exact ⟨⟨List.nodup_nil, nofun⟩, fun _ => rfl⟩
  | append_singleton edges record ih =>
      obtain ⟨hgrouped, hrecords⟩ := ih
      rw [List.foldl_append, List.foldl_cons, List.foldl_nil, pushRecord, hrecords]
      refine ⟨hgrouped.setRecords fun other hother => ?_, fun key => ?_⟩
      · obtain hmem | hmem := List.mem_append.mp hother
        · exact key_of_mem_ofKey hmem
        · rw [List.mem_singleton.mp hmem]
      · rw [recordsOf_setRecords, ofKey_concat]
        by_cases he : key = record.key
        · rw [if_pos he, if_pos he, he]
        · rw [if_neg he, if_neg he, hrecords]

variable [Max W]

-- Each key's occurrences are paired one after the other.
theorem recordsOf_foldl_overlayRecord {records : EdgeRecords W} {edges : List (EdgeRecord W)}
    (hgrouped : Grouped records) (hrecords : ∀ key, recordsOf records key = ofKey key edges)
    (overlay : List (EdgeRecord W)) :
    Grouped (overlay.foldl overlayRecord (records, fun _ => 0)).1 ∧
      (∀ key, recordsOf (overlay.foldl overlayRecord (records, fun _ => 0)).1 key =
        pairUp joinRecords (ofKey key edges) (ofKey key overlay)) ∧
      ∀ key, (overlay.foldl overlayRecord (records, fun _ => 0)).2 key =
        (ofKey key overlay).length := by
  induction overlay using List.reverseRecOn with
  | nil =>
      refine ⟨hgrouped, fun key => ?_, fun _ => rfl⟩
      exact (hrecords key).trans (pairUp_nil _).symm
  | append_singleton overlay record ih =>
      obtain ⟨hgrouped, hrecords, hseen⟩ := ih
      rw [List.foldl_append, List.foldl_cons, List.foldl_nil]
      generalize overlay.foldl overlayRecord (records, fun _ => 0) = state at *
      have hpaired : ∀ other ∈ pairUp joinRecords (ofKey record.key edges)
          (ofKey record.key (overlay ++ [record])), other.key = record.key :=
        mem_pairUp (f := joinRecords) (p := fun other => other.key = record.key)
          (fun x y hx _ => hx) (fun _ => key_of_mem_ofKey) fun _ => key_of_mem_ofKey
      have hpair := pairUp_concat (f := joinRecords) (ofKey record.key edges)
        (ofKey record.key overlay) record
      rw [ofKey_concat, if_pos rfl, hpair] at hpaired
      have hstep : overlayRecord state record = (setRecords record.key
          (pairUp joinRecords (ofKey record.key edges) (ofKey record.key overlay ++ [record]))
          state.1, fun key => if key = record.key then state.2 record.key + 1 else state.2 key) := by
        rw [hpair]
        simp only [overlayRecord, hrecords, hseen]
        cases (pairUp joinRecords (ofKey record.key edges)
          (ofKey record.key overlay))[(ofKey record.key overlay).length]? <;> rfl
      rw [hstep]
      refine ⟨?_, fun key => ?_, fun key => ?_⟩
      · rw [hpair]
        exact hgrouped.setRecords hpaired
      · rw [recordsOf_setRecords, ofKey_concat]
        by_cases he : key = record.key
        · rw [if_pos he, if_pos he, he]
        · rw [if_neg he, if_neg he, hrecords]
      · rw [ofKey_concat]
        by_cases he : key = record.key
        · subst he
          rw [if_pos rfl, List.length_append, ← hseen]
          exact if_pos rfl
        · rw [if_neg he, ← hseen]
          exact if_neg he

end Overlay

section Groups

variable [Zero W] [Max W] {base overlay : Graph W T}

theorem grouped_mergeRecords : Grouped (mergeRecords base overlay) := by
  obtain ⟨hgrouped, hrecords⟩ := recordsOf_foldl_pushRecord (collectEdges base)
  exact (recordsOf_foldl_overlayRecord hgrouped hrecords (collectEdges overlay)).1

theorem recordsOf_mergeRecords (key : EdgeKey) :
    recordsOf (mergeRecords base overlay) key =
      pairUp joinRecords (ofKey key (collectEdges base)) (ofKey key (collectEdges overlay)) := by
  obtain ⟨hgrouped, hrecords⟩ := recordsOf_foldl_pushRecord (collectEdges base)
  exact (recordsOf_foldl_overlayRecord hgrouped hrecords (collectEdges overlay)).2.1 key

-- The edges that are added, in the order in which the hash map lists its groups.
def mergedEdges (hash : HashOrder W) (base overlay : Graph W T) : List (EdgeRecord W) :=
  (hash.order (mergeRecords base overlay)).flatMap Prod.snd

theorem ofKey_mergedEdges (hash : HashOrder W) (key : EdgeKey) :
    ofKey key (mergedEdges hash base overlay) =
      pairUp joinRecords (ofKey key (collectEdges base)) (ofKey key (collectEdges overlay)) := by
  have hperm := hash.perm (mergeRecords base overlay)
  rw [ofKey, mergedEdges, (grouped_mergeRecords.perm hperm).filter_flatMap,
    grouped_mergeRecords.recordsOf_perm hperm, recordsOf_mergeRecords]

-- A merged edge has the key of one that is read.
theorem key_of_mem_mergedEdges {hash : HashOrder W} {record : EdgeRecord W}
    (h : record ∈ mergedEdges hash base overlay) :
    ∃ read ∈ collectEdges base ++ collectEdges overlay, read.key = record.key := by
  have hmem : record ∈ ofKey record.key (mergedEdges hash base overlay) :=
    List.mem_filter.mpr ⟨h, decide_eq_true rfl⟩
  have hlength := List.length_pos_of_mem hmem
  rw [ofKey_mergedEdges, length_pairUp] at hlength
  have hnonempty : 0 < (ofKey record.key (collectEdges base)).length ∨
      0 < (ofKey record.key (collectEdges overlay)).length := by omega
  obtain hbase | hoverlay := hnonempty
  · obtain ⟨read, hread⟩ := List.exists_mem_of_length_pos hbase
    exact ⟨read, List.mem_append_left _ (List.mem_filter.mp hread).1, key_of_mem_ofKey hread⟩
  · obtain ⟨read, hread⟩ := List.exists_mem_of_length_pos hoverlay
    exact ⟨read, List.mem_append_right _ (List.mem_filter.mp hread).1, key_of_mem_ofKey hread⟩

end Groups

-- What an edge looks like that is added for a record.
def recordLink (record : EdgeRecord W) : Link W where
  source := record.key.source
  target := record.key.target
  relation := record.key.relation
  direction := if record.key.direction = 1 then .Bidirectional else .Forward
  inhibitory := record.key.inhibitory
  weight := record.weight
  causalStrength := record.causalStrength

section Staging

variable {merged next : Graph W T}

theorem nodeExternalIds_congr (h : merged.Registered) (hnext : next.Registered)
    (hids : ∀ s, next.resolveId s = merged.resolveId s) :
    nodeExternalIds next = nodeExternalIds merged := by
  refine List.ext_getElem? fun i => Option.ext fun s => ?_
  rw [(nodeExternalIds_spec hnext).2, (nodeExternalIds_spec h).2, hids]

theorem stagedLink_extends (h : Whole merged) (hnext : next.Registered)
    (hids : ∀ s, next.resolveId s = merged.resolveId s)
    (hextends : merged.strings.Extends next.strings) {edge : PendingEdge W}
    (hedge : edge ∈ merged.csr.pendingEdges) : stagedLink next edge = stagedLink merged edge := by
  have hnames := nodeExternalIds_congr h.registered hnext hids
  have hrelation := hextends.tryResolve_eq (h.named.pending edge hedge)
  simp only [stagedLink, nodeName, resolveName, hnames, hrelation]

-- An edge is staged behind the others. No node changes.
theorem Fresh.addEdge (h : Fresh merged) (link : Link W) {source target : Nat}
    (hsource : merged.resolveId link.source = some source)
    (htarget : merged.resolveId link.target = some target) :
    ∃ idx next, merged.addEdge source target link.relation link.weight link.direction
        link.inhibitory link.causalStrength = (.ok idx, next) ∧ Fresh next ∧
      next.nodes = merged.nodes ∧ (∀ s, next.resolveId s = merged.resolveId s) ∧
      (∀ i, next.nodeView i = merged.nodeView i) ∧
      stagedLinks next = stagedLinks merged ++ [link] := by
  have hlt := resolveId_lt h.whole.registered hsource
  have hlt' := resolveId_lt h.whole.registered htarget
  obtain ⟨idx, next, hadded, hnodes, hknown, hstrings, hfinal, hpending⟩ :=
    Graph.addEdge_accepted hlt hlt' link.relation link.weight link.direction link.inhibitory
      link.causalStrength
  have hsound := h.whole.sound.addEdge source target link.relation link.weight link.direction
    link.inhibitory link.causalStrength
  have hlisted := h.whole.listed.addEdge source target link.relation link.weight link.direction
    link.inhibitory link.causalStrength
  have hnamed := h.whole.named.addEdge source target link.relation link.weight link.direction
    link.inhibitory link.causalStrength
  have hregistered := h.whole.registered.addEdge source target link.relation link.weight
    link.direction link.inhibitory link.causalStrength
  have hnum := merged.numEdges_addEdge source target link.relation link.weight link.direction
    link.inhibitory link.causalStrength
  rw [hadded] at hsound hlisted hnamed hregistered hnum
  obtain ⟨hfaithful, hextends, hrelation⟩ := h.whole.registered.faithful.getOrIntern link.relation
  rw [← hstrings] at hfaithful hextends hrelation
  have hids := h.whole.registered.resolveId_extends hnodes hknown hfaithful hextends
  refine ⟨idx, next, hadded, ⟨⟨hsound, hlisted, hnamed, hregistered⟩, hfinal,
    hnum.trans h.numEdges⟩, hnodes, hids, fun i => ?_, ?_⟩
  · exact h.whole.registered.nodeView_extends hnodes hextends
  · rw [stagedLinks, hpending, List.map_append, List.map_cons, List.map_nil]
    congr 1
    · exact List.map_congr_left fun edge hedge =>
        stagedLink_extends h.whole hregistered hids hextends hedge
    · have hname := nodeName_of_resolveId hregistered ((hids _).trans hsource)
      have hname' := nodeName_of_resolveId hregistered ((hids _).trans htarget)
      simp only [stagedLink, hname, hname', resolveName, hrelation, Option.getD_some]

theorem summary_congr [Zero T] (hids : ∀ s, next.resolveId s = merged.resolveId s)
    (hviews : ∀ i, next.nodeView i = merged.nodeView i) : summary next = summary merged := by
  funext s
  cases hresolve : merged.resolveId s with
  | none => rw [summary_none hresolve, summary_none ((hids s).trans hresolve)]
  | some i =>
      rw [summary_some hresolve, summary_some ((hids s).trans hresolve), nodeSummary_eq,
        nodeSummary_eq, hviews]

theorem Fresh.addRecord [Zero T] (h : Fresh merged) (record : EdgeRecord W) {source target : Nat}
    (hsource : merged.resolveId record.key.source = some source)
    (htarget : merged.resolveId record.key.target = some target) :
    ∃ next, Ingest.addRecord merged record = .ok next ∧ Fresh next ∧
      next.nodes = merged.nodes ∧ (∀ s, next.resolveId s = merged.resolveId s) ∧
      summary next = summary merged ∧
      stagedLinks next = stagedLinks merged ++ [recordLink record] := by
  obtain ⟨idx, next, hadded, hfresh, hnodes, hids, hviews, hstaged⟩ :=
    h.addEdge (recordLink record) hsource htarget
  refine ⟨next, ?_, hfresh, hnodes, hids, summary_congr hids hviews, hstaged⟩
  simp only [recordLink] at hadded
  simp only [Ingest.addRecord, hsource, htarget, hadded]

theorem Fresh.addRecords [Zero T] (h : Fresh merged) (records : List (EdgeRecord W))
    (hends : ∀ record ∈ records, ∀ s ∈ [record.key.source, record.key.target],
      ∃ i, merged.resolveId s = some i) :
    ∃ next, records.foldlM Ingest.addRecord merged = .ok next ∧ Fresh next ∧
      next.nodes = merged.nodes ∧ (∀ s, next.resolveId s = merged.resolveId s) ∧
      summary next = summary merged ∧
      stagedLinks next = stagedLinks merged ++ records.map recordLink := by
  induction records generalizing merged with
  | nil => exact ⟨merged, rfl, h, rfl, fun _ => rfl, rfl, (List.append_nil _).symm⟩
  | cons record records ih =>
      obtain ⟨hhead, htail⟩ := List.forall_mem_cons.mp hends
      obtain ⟨source, hsource⟩ := hhead _ List.mem_cons_self
      obtain ⟨target, htarget⟩ := hhead _ (List.mem_cons_of_mem _ List.mem_cons_self)
      obtain ⟨mid, hmid, hfresh, hnodes, hids, hsummary, hstaged⟩ :=
        h.addRecord record hsource htarget
      have htail : ∀ record ∈ records, ∀ s ∈ [record.key.source, record.key.target],
          ∃ i, mid.resolveId s = some i := by
        intro record hrecord s hs
        obtain ⟨i, hi⟩ := htail record hrecord s hs
        exact ⟨i, (hids s).trans hi⟩
      obtain ⟨next, hnext, hfresh', hnodes', hids', hsummary', hstaged'⟩ := ih hfresh htail
      refine ⟨next, ?_, hfresh', hnodes'.trans hnodes, fun s => (hids' s).trans (hids s),
        hsummary'.trans hsummary, ?_⟩
      · rw [List.foldlM_cons, hmid]
        exact hnext
      · rw [hstaged', hstaged, List.map_cons, List.append_assoc, List.singleton_append]

end Staging

end M1nd.Ingest
