import M1nd.Core.Snapshot.Decode
import M1nd.Core.Snapshot.Registry

namespace M1nd.Core

open M1nd.Library.Checks

variable {W F T : Type}

-- What reading a node gives, with each handle resolved.
structure NodeView (W T : Type) where
  label : Option String
  nodeType : Option NodeType
  tags : Option (List (Option String))
  lastModified : Option T
  changeFrequency : Option W
  provenance : ResolvedNodeProvenance

def Graph.nodeView (graph : Graph W T) (i : Nat) : NodeView W T where
  label := graph.nodes.label[i]?.bind graph.strings.tryResolve
  nodeType := graph.nodes.nodeType[i]?
  tags := graph.nodes.tags[i]?.map fun handles => handles.map graph.strings.tryResolve
  lastModified := graph.nodes.lastModified[i]?
  changeFrequency := graph.nodes.changeFrequency[i]?
  provenance := graph.resolveNodeProvenance i

-- What is left of a provenance once it is stored: no empty text, no line 0, and the first line
-- as the last one where there is no other.
def ResolvedNodeProvenance.stored (provenance : ResolvedNodeProvenance) :
    ResolvedNodeProvenance where
  sourcePath := provenance.sourcePath.filter fun s => !s.isEmpty
  lineStart := provenance.lineStart.filter fun line => 0 < line
  lineEnd := (provenance.lineEnd.or provenance.lineStart).filter fun line => 0 < line
  excerpt := provenance.excerpt.filter fun s => !s.isEmpty
  «namespace» := provenance.namespace.filter fun s => !s.isEmpty
  canonical := provenance.canonical

section Provenance

theorem filter_pos_eq (line : Option Nat) :
    (if 0 < line.getD 0 then some (line.getD 0) else none) = line.filter fun line => 0 < line := by
  cases line with
  | none => rfl
  | some line => by_cases hline : 0 < line <;> simp [Option.filter, hline]

variable {graph next : Graph W T} {i node : Nat}

theorem NodeProvenance.Spelled.bind_filter {strings : StringInterner} {provenance : NodeProvenance}
    (h : provenance.Spelled strings) {handle : Option Nat}
    (hhandle : provenance.sourcePath = handle ∨ provenance.excerpt = handle ∨
      provenance.namespace = handle) :
    (handle.bind strings.tryResolve).filter (fun s => !s.isEmpty) =
      handle.bind strings.tryResolve := by
  cases handle with
  | none => rfl
  | some handle =>
      obtain ⟨s, hs, hne⟩ := h handle hhandle
      have hfull : s.isEmpty = false := by simpa using hne
      simp [hs, hfull]

theorem NodeProvenance.Spelled.bind_extends {strings more : StringInterner}
    {provenance : NodeProvenance} (h : provenance.Spelled strings) (hextends : strings.Extends more)
    {handle : Option Nat} (hhandle : provenance.sourcePath = handle ∨
      provenance.excerpt = handle ∨ provenance.namespace = handle) :
    handle.bind more.tryResolve = handle.bind strings.tryResolve := by
  cases handle with
  | none => rfl
  | some handle =>
      obtain ⟨s, hs, -⟩ := h handle hhandle
      exact (hextends.tryResolve hs).trans hs.symm

-- Storing what was read loses the last line where only the first one is there.
theorem Graph.Registered.stored_resolve (h : graph.Registered) :
    (graph.resolveNodeProvenance i).stored = graph.resolveNodeProvenance i ↔
      ∀ provenance, graph.nodes.provenance[i]? = some provenance →
        0 < provenance.lineStart → 0 < provenance.lineEnd := by
  unfold resolveNodeProvenance
  by_cases hi : graph.nodes.count ≤ i
  · rw [if_pos hi, List.getElem?_eq_none (by rw [h.provenance]; exact hi)]
    exact ⟨nofun, fun _ => rfl⟩
  · have hlt : i < graph.nodes.provenance.length := by
      rw [h.provenance]
      omega
    rw [if_neg hi, List.getD_eq_getElem?_getD, List.getElem?_eq_getElem hlt, Option.getD_some]
    have hspelled := h.spelled _ (List.getElem_mem hlt)
    generalize graph.nodes.provenance[i] = provenance at hspelled
    simp only [ResolvedNodeProvenance.stored, hspelled.bind_filter (.inl rfl),
      hspelled.bind_filter (.inr (.inl rfl)), hspelled.bind_filter (.inr (.inr rfl)),
      ResolvedNodeProvenance.mk.injEq, true_and, and_true, Option.some.injEq]
    by_cases hend : 0 < provenance.lineEnd
    · by_cases hstart : 0 < provenance.lineStart <;> simp [Option.filter, hstart, hend]
    · by_cases hstart : 0 < provenance.lineStart
      · simp only [hstart, hend, if_true, if_false, Option.filter]
        simp [hstart]
        omega
      · simp [Option.filter, hstart, hend]

theorem Graph.Registered.resolve_extends (h : graph.Registered)
    (hnodes : next.nodes = graph.nodes) (hextends : graph.strings.Extends next.strings) :
    next.resolveNodeProvenance i = graph.resolveNodeProvenance i := by
  unfold resolveNodeProvenance
  rw [hnodes]
  by_cases hi : graph.nodes.count ≤ i
  · rw [if_pos hi, if_pos hi]
  · have hlt : i < graph.nodes.provenance.length := by
      rw [h.provenance]
      omega
    rw [if_neg hi, if_neg hi, List.getD_eq_getElem?_getD, List.getElem?_eq_getElem hlt,
      Option.getD_some]
    have hspelled := h.spelled _ (List.getElem_mem hlt)
    generalize graph.nodes.provenance[i] = provenance at hspelled
    simp only [hspelled.bind_extends hextends (.inl rfl),
      hspelled.bind_extends hextends (.inr (.inl rfl)),
      hspelled.bind_extends hextends (.inr (.inr rfl))]

-- More strings do not change what reading a node gives.
theorem Graph.Registered.nodeView_extends (h : graph.Registered)
    (hnodes : next.nodes = graph.nodes) (hextends : graph.strings.Extends next.strings) :
    next.nodeView i = graph.nodeView i := by
  have hlabel : graph.nodes.label[i]?.bind next.strings.tryResolve =
      graph.nodes.label[i]?.bind graph.strings.tryResolve := by
    cases hget : graph.nodes.label[i]? with
    | none => rfl
    | some handle => exact hextends.tryResolve_eq (h.labels handle (List.mem_of_getElem? hget))
  have htags : (graph.nodes.tags[i]?.map fun handles => handles.map next.strings.tryResolve) =
      graph.nodes.tags[i]?.map fun handles => handles.map graph.strings.tryResolve := by
    cases hget : graph.nodes.tags[i]? with
    | none => rfl
    | some handles =>
        simp only [Option.map_some, Option.some.injEq]
        apply List.map_congr_left
        intro handle hhandle
        exact hextends.tryResolve_eq (h.tagHandles handles (List.mem_of_getElem? hget) handle hhandle)
  unfold nodeView
  simp only [hnodes, hlabel, htags, h.resolve_extends hnodes hextends]

theorem Graph.Registered.resolve_setNodeProvenance (h : graph.Registered)
    (hnode : node < graph.nodes.count) (provenance : ResolvedNodeProvenance) :
    (graph.setNodeProvenance node provenance).resolveNodeProvenance i =
      if node = i then provenance.stored else graph.resolveNodeProvenance i := by
  obtain ⟨strings, sourcePath, excerpt, space, hset, hfaithful, hextends, hpath, hexcerpt,
    hspace⟩ := h.setNodeProvenance_eq hnode provenance
  by_cases he : node = i
  · subst he
    have hlt : node < graph.nodes.provenance.length := by
      rw [h.provenance]
      exact hnode
    rw [hset, if_pos rfl, resolveNodeProvenance, if_neg (Nat.not_le_of_lt hnode)]
    simp only [List.getD_eq_getElem?_getD, List.getElem?_set_self hlt, Option.getD_some,
      hpath.bind_eq, hexcerpt.bind_eq, hspace.bind_eq, filter_pos_eq]
    rfl
  · have hsame : ({ graph with strings := strings } : Graph W T).resolveNodeProvenance i =
        graph.resolveNodeProvenance i := h.resolve_extends rfl hextends
    rw [if_neg he, ← hsame, hset]
    simp only [resolveNodeProvenance, List.getD_eq_getElem?_getD, List.getElem?_set_ne he]

theorem Graph.Registered.nodeView_setNodeProvenance (h : graph.Registered)
    (hnode : node < graph.nodes.count) (provenance : ResolvedNodeProvenance) :
    (graph.setNodeProvenance node provenance).nodeView i =
      if node = i then { graph.nodeView i with provenance := provenance.stored }
      else graph.nodeView i := by
  have hresolve := h.resolve_setNodeProvenance (i := i) hnode provenance
  obtain ⟨strings, sourcePath, excerpt, space, hset, hfaithful, hextends, -⟩ :=
    h.setNodeProvenance_eq hnode provenance
  have hsame : ({ graph with strings := strings } : Graph W T).nodeView i = graph.nodeView i :=
    h.nodeView_extends rfl hextends
  have hview : (graph.setNodeProvenance node provenance).nodeView i =
      { graph.nodeView i with
        provenance := (graph.setNodeProvenance node provenance).resolveNodeProvenance i } := by
    rw [← hsame, hset]
    rfl
  rw [hview, hresolve]
  by_cases he : node = i
  · rw [if_pos he, if_pos he]
  · rw [if_neg he, if_neg he]
    rfl

theorem Graph.Registered.resolveId_setNodeProvenance (h : graph.Registered)
    (hnode : node < graph.nodes.count) (provenance : ResolvedNodeProvenance) (s : String) :
    (graph.setNodeProvenance node provenance).resolveId s = graph.resolveId s := by
  obtain ⟨strings, sourcePath, excerpt, space, hset, hfaithful, hextends, -⟩ :=
    h.setNodeProvenance_eq hnode provenance
  rw [hset]
  exact @Registered.resolveId_extends W T graph { graph with strings := strings } h rfl rfl
    hfaithful hextends s

end Provenance

section Added

variable {graph : Graph W T}

-- Adding a node leaves the other nodes as they are and gives the new one what was asked for.
theorem Graph.Registered.nodeView_addNode (h : graph.Registered) (externalId label : String)
    (nodeType : NodeType) (tags : List String) (lastModified : T) (changeFrequency : W)
    (hfresh : graph.resolveId externalId = none) {i : Nat} (hi : i ≤ graph.nodes.count) :
    (graph.addNode externalId label nodeType tags lastModified changeFrequency).2.nodeView i =
      if i = graph.nodes.count then
        ⟨some label, some nodeType, some (tags.map some), some lastModified, some changeFrequency,
          .default⟩
      else graph.nodeView i := by
  obtain ⟨handle, labelHandle, tagHandles, strings, hadded, hfaithful, hextends, -, -, hlabelled,
    htagged⟩ := h.addNode_new externalId label nodeType tags lastModified changeFrequency hfresh
  rw [hadded]
  by_cases he : i = graph.nodes.count
  · rw [if_pos he]
    have hlt : ¬ graph.nodes.count + 1 ≤ i := by omega
    unfold nodeView resolveNodeProvenance
    simp only [List.getElem?_append, he, h.label, h.nodeType, h.tags, h.lastModified,
      h.changeFrequency, h.provenance, Nat.lt_irrefl, if_false, Nat.sub_self,
      List.getElem?_cons_zero, Option.bind_some, hlabelled, Option.map_some, htagged,
      if_neg (he ▸ hlt), List.getD_eq_getElem?_getD, Option.getD_some]
    rfl
  · have hlt : i < graph.nodes.count := by omega
    have hsame : ({ graph with strings := strings } : Graph W T).nodeView i = graph.nodeView i :=
      h.nodeView_extends rfl hextends
    rw [if_neg he, ← hsame]
    have hcount : ¬ graph.nodes.count ≤ i := by omega
    have hcount' : ¬ graph.nodes.count + 1 ≤ i := by omega
    unfold nodeView resolveNodeProvenance
    simp only [List.getElem?_append, h.label, h.nodeType, h.tags, h.lastModified,
      h.changeFrequency, h.provenance, hlt, if_true, if_neg hcount, if_neg hcount',
      List.getD_eq_getElem?_getD]

theorem Graph.Registered.resolveId_addNode (h : graph.Registered) (externalId label : String)
    (nodeType : NodeType) (tags : List String) (lastModified : T) (changeFrequency : W)
    (hfresh : graph.resolveId externalId = none) (s : String) :
    (graph.addNode externalId label nodeType tags lastModified changeFrequency).2.resolveId s =
      if s = externalId then some graph.nodes.count else graph.resolveId s := by
  have hregistered := h.addNode externalId label nodeType tags lastModified changeFrequency
  obtain ⟨handle, labelHandle, tagHandles, strings, hadded, hfaithful, hextends, hexternal,
    habsent, -⟩ := h.addNode_new externalId label nodeType tags lastModified changeFrequency hfresh
  rw [hadded] at hregistered ⊢
  have hsame : ({ graph with strings := strings } : Graph W T).resolveId s = graph.resolveId s :=
    @Registered.resolveId_extends W T graph { graph with strings := strings } h rfl rfl hfaithful
      hextends s
  rw [← hsame]
  unfold resolveId
  by_cases he : s = externalId
  · subst he
    rw [if_pos rfl]
    simp only [hfaithful.lookup.mpr hexternal, Option.bind_eq_bind, Option.bind_some,
      Std.ExtTreeMap.getElem?_insert_self]
  · rw [if_neg he]
    cases hlookup : strings.lookup s with
    | none => rfl
    | some other =>
        have hne : compare handle other ≠ .eq := by
          intro hcompare
          obtain rfl := Std.LawfulEqCmp.eq_of_compare hcompare
          rw [hfaithful.lookup.mp hlookup] at hexternal
          exact he (Option.some.inj hexternal)
        simp only [Option.bind_eq_bind, Option.bind_some, Std.ExtTreeMap.getElem?_insert, if_neg hne]

end Added

section Encoded

variable {graph : Graph W T}

-- The entries give each node its id, one after the other.
theorem foldlM_externalIds {ε : Type} {step : List String → Nat × Nat → Except ε (List String)}
    {strings : StringInterner}
    (hstep : ∀ ids entry s, strings.tryResolve entry.1 = some s → entry.2 < ids.length →
      step ids entry = .ok (ids.set entry.2 s))
    (entries : List (Nat × Nat)) (ids : List String)
    (hnamed : ∀ entry ∈ entries, ∃ s, strings.tryResolve entry.1 = some s)
    (hlt : ∀ entry ∈ entries, entry.2 < ids.length) (hnodup : (entries.map Prod.snd).Nodup) :
    ∃ filled, entries.foldlM step ids = .ok filled ∧ filled.length = ids.length ∧
      (∀ entry ∈ entries, filled[entry.2]? = strings.tryResolve entry.1) ∧
      ∀ i, i ∉ entries.map Prod.snd → filled[i]? = ids[i]? := by
  induction entries generalizing ids with
  | nil => exact ⟨ids, rfl, rfl, nofun, fun _ _ => rfl⟩
  | cons entry entries ih =>
      obtain ⟨s, hs⟩ := hnamed entry List.mem_cons_self
      have hfirst := hlt entry List.mem_cons_self
      rw [List.map_cons, List.nodup_cons] at hnodup
      obtain ⟨filled, hfold, hlength, hfilled, hkept⟩ := ih (ids.set entry.2 s)
        (fun other hother => hnamed other (List.mem_cons_of_mem _ hother))
        (fun other hother => by
          rw [List.length_set]
          exact hlt other (List.mem_cons_of_mem _ hother)) hnodup.2
      refine ⟨filled, ?_, hlength.trans List.length_set, fun other hother => ?_, fun i hi => ?_⟩
      · rw [List.foldlM_cons, hstep ids entry s hs hfirst]
        exact hfold
      · obtain rfl | hother := List.mem_cons.mp hother
        · rw [hkept _ hnodup.1, List.getElem?_set_self hfirst, hs]
        · exact hfilled other hother
      · rw [List.map_cons, List.mem_cons, not_or] at hi
        rw [hkept i hi.2, List.getElem?_set_ne (Ne.symm hi.1)]

-- The external ids of the nodes, in the order of the nodes.
theorem Graph.Registered.externalIds_eq (h : graph.Registered) {ε : Type}
    {step : List String → Nat × Nat → Except ε (List String)}
    (hstep : ∀ ids entry s, graph.strings.tryResolve entry.1 = some s → entry.2 < ids.length →
      step ids entry = .ok (ids.set entry.2 s)) :
    ∃ ids, graph.idToNode.toList.foldlM step (List.replicate graph.nodes.count "") = .ok ids ∧
      ids.length = graph.nodes.count ∧ ∀ s i, ids[i]? = some s ↔ graph.resolveId s = some i := by
  have hentry (entry : Nat × Nat) (hentry : entry ∈ graph.idToNode.toList) :
      graph.idToNode[entry.1]? = some entry.2 :=
    Std.ExtTreeMap.mem_toList_iff_getElem?_eq_some.mp hentry
  have hnodup : (graph.idToNode.toList.map Prod.snd).Nodup := by
    rw [List.Nodup, List.pairwise_map]
    refine (Std.ExtTreeMap.distinct_keys_toList).imp_of_mem ?_
    intro a b ha hb hne he
    have hsame := h.unique a.1 b.1 b.2 (he ▸ hentry a ha) (hentry b hb)
    rw [hsame] at hne
    exact hne Std.ReflCmp.compare_self
  obtain ⟨ids, hids, hlength, hfilled, -⟩ := foldlM_externalIds hstep
    graph.idToNode.toList (List.replicate graph.nodes.count "")
    (fun entry hmem => ⟨_, List.getElem?_eq_getElem (h.known _ _ (hentry entry hmem)).2⟩)
    (fun entry hmem => by
      rw [List.length_replicate]
      exact (h.known _ _ (hentry entry hmem)).1) hnodup
  rw [List.length_replicate] at hlength
  have hat (key i : Nat) (hi : graph.idToNode[key]? = some i) :
      ids[i]? = graph.strings.tryResolve key :=
    hfilled (key, i) (Std.ExtTreeMap.mem_toList_iff_getElem?_eq_some.mpr hi)
  refine ⟨ids, hids, hlength, fun s i => ?_⟩
  rw [h.resolveId_iff]
  constructor
  · intro hs
    have hi : i < graph.nodes.count := hlength ▸ (List.getElem?_eq_some_iff.mp hs).1
    obtain ⟨key, hkey⟩ := h.total i hi
    exact ⟨key, (hat key i hkey).symm.trans hs, hkey⟩
  · rintro ⟨key, hs, hkey⟩
    exact (hat key i hkey).trans hs

theorem Graph.Registered.nodeToExtId_eq (h : graph.Registered) :
    ∃ ids, nodeToExtId graph = .ok ids ∧ ids.length = graph.nodes.count ∧
      ∀ s i, ids[i]? = some s ↔ graph.resolveId s = some i := by
  refine h.externalIds_eq fun ids entry s hs hlt => ?_
  rw [hs, orPanic_some]
  exact if_pos hlt

variable [FiniteF32 W F]

theorem mapM_tryResolve {strings : StringInterner} {handles : List Nat} {tags : List String}
    (h : handles.mapM (fun tag => orPanic (strings.tryResolve tag)) = .ok tags) :
    handles.map strings.tryResolve = tags.map some := by
  have hforall := mapM_eq_ok.mp h
  clear h
  induction hforall with
  | nil => rfl
  | cons hhead _ ih => rw [List.map_cons, List.map_cons, ih, orPanic_eq_ok.mp hhead]

-- A record of a snapshot says what reading its node gives.
structure NodeSnapshot.Records (node : NodeSnapshot F T) (view : NodeView W T) : Prop where
  label : view.label = some node.label
  nodeType : view.nodeType.map nodeTypeToU8 = some node.nodeType
  tags : view.tags = some (node.tags.map some)
  lastModified : view.lastModified = some node.lastModified
  changeFrequency : view.changeFrequency.map FiniteF32.get = some node.changeFrequency
  provenance : view.provenance = node.provenance

theorem Graph.Registered.nodeSnapshot_eq (h : graph.Registered) {ids : List String}
    (hids : ids.length = graph.nodes.count) {i : Nat} (hi : i < graph.nodes.count) :
    ∃ node : NodeSnapshot F T, nodeSnapshot graph ids i = .ok node ∧
      ids[i]? = some node.externalId ∧ node.Records (graph.nodeView i) := by
  have hexternal : i < ids.length := hids.symm ▸ hi
  have hlabel : i < graph.nodes.label.length := h.label.symm ▸ hi
  have hnodeType : i < graph.nodes.nodeType.length := h.nodeType.symm ▸ hi
  have htags : i < graph.nodes.tags.length := h.tags.symm ▸ hi
  have hlastModified : i < graph.nodes.lastModified.length := h.lastModified.symm ▸ hi
  have hchangeFrequency : i < graph.nodes.changeFrequency.length := h.changeFrequency.symm ▸ hi
  obtain ⟨label, hlabelled⟩ : ∃ label, graph.strings.tryResolve graph.nodes.label[i] = some label :=
    ⟨_, List.getElem?_eq_getElem (h.labels _ (List.getElem_mem hlabel))⟩
  have htag : ∀ handle ∈ graph.nodes.tags[i], ∃ s, orPanic (graph.strings.tryResolve handle) = .ok s :=
    fun handle hhandle => ⟨_, orPanic_eq_ok.mpr (List.getElem?_eq_getElem
      (h.tagHandles _ (List.getElem_mem htags) handle hhandle))⟩
  obtain ⟨tags, hmapped⟩ := exists_mapM_eq_ok htag
  have htagged := mapM_tryResolve hmapped
  refine ⟨{
      externalId := ids[i]
      label := label
      nodeType := nodeTypeToU8 graph.nodes.nodeType[i]
      tags := tags
      lastModified := graph.nodes.lastModified[i]
      changeFrequency := FiniteF32.get graph.nodes.changeFrequency[i]
      provenance := graph.resolveNodeProvenance i }, ?_, List.getElem?_eq_getElem hexternal, ?_⟩
  · unfold nodeSnapshot
    simp only [List.getElem?_eq_getElem hexternal, List.getElem?_eq_getElem hlabel,
      List.getElem?_eq_getElem hnodeType, List.getElem?_eq_getElem htags,
      List.getElem?_eq_getElem hlastModified, List.getElem?_eq_getElem hchangeFrequency, hlabelled,
      orPanic_some, bind, Except.bind, hmapped]
  · constructor
    · simp only [nodeView, List.getElem?_eq_getElem hlabel, Option.bind_some, hlabelled]
    · simp only [nodeView, List.getElem?_eq_getElem hnodeType, Option.map_some]
    · simp only [nodeView, List.getElem?_eq_getElem htags, Option.map_some, htagged]
    · exact List.getElem?_eq_getElem hlastModified
    · simp only [nodeView, List.getElem?_eq_getElem hchangeFrequency, Option.map_some]
    · rfl

-- The records of all nodes, in the order of the nodes.
theorem Graph.Registered.nodes_eq (h : graph.Registered) {ids : List String}
    (hids : ids.length = graph.nodes.count) :
    ∃ nodes : List (NodeSnapshot F T),
      (List.range graph.nodes.count).mapM (nodeSnapshot graph ids) = .ok nodes ∧
      nodes.length = graph.nodes.count ∧ ∀ (i : Nat) (node : NodeSnapshot F T),
        nodes[i]? = some node → ids[i]? = some node.externalId ∧ node.Records (graph.nodeView i) := by
  have hall : ∀ i ∈ List.range graph.nodes.count, ∃ node : NodeSnapshot F T,
      nodeSnapshot graph ids i = .ok node := by
    intro i hi
    obtain ⟨node, hnode, -⟩ := h.nodeSnapshot_eq (F := F) hids (List.mem_range.mp hi)
    exact ⟨node, hnode⟩
  obtain ⟨nodes, hnodes⟩ := exists_mapM_eq_ok hall
  have hforall := mapM_eq_ok.mp hnodes
  have hlength : nodes.length = graph.nodes.count := by
    rw [← hforall.length_eq, List.length_range]
  refine ⟨nodes, hnodes, hlength, fun i node hnode => ?_⟩
  have hi : i < nodes.length := (List.getElem?_eq_some_iff.mp hnode).1
  have hwritten := hforall.get (i := i) (by rw [List.length_range]; omega) hi
  obtain ⟨node', hnode', hexternal, hrecords⟩ := h.nodeSnapshot_eq (F := F) hids
    (show i < graph.nodes.count by omega)
  rw [List.getElem?_eq_getElem hi, Option.some.injEq] at hnode
  simp only [List.get_eq_getElem, List.getElem_range, hnode, hnode'] at hwritten
  obtain rfl := Except.ok.inj hwritten
  exact ⟨hexternal, hrecords⟩

end Encoded

end M1nd.Core
