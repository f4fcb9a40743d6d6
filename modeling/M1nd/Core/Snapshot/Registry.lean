import M1nd.Core.Snapshot
import M1nd.Core.Graph.Names

namespace M1nd.Core

variable {W T : Type}

namespace StringInterner

variable {interner next : StringInterner}

theorem Extends.length_le (h : interner.Extends next) :
    interner.strings.length ≤ next.strings.length := by
  by_contra hlt
  obtain ⟨s, hs⟩ : ∃ s, interner.strings[next.strings.length]? = some s :=
    ⟨_, List.getElem?_eq_getElem (by omega)⟩
  have hbehind := (List.getElem?_eq_some_iff.mp (h s _ hs)).1
  omega

-- A handle that has a string keeps it.
theorem Extends.tryResolve_eq (h : interner.Extends next) {idx : Nat}
    (hidx : idx < interner.strings.length) : next.tryResolve idx = interner.tryResolve idx := by
  have hs := List.getElem?_eq_getElem hidx
  exact (h _ idx hs).trans hs.symm

theorem lt_of_tryResolve {idx : Nat} {s : String} (h : interner.tryResolve idx = some s) :
    idx < interner.strings.length :=
  (List.getElem?_eq_some_iff.mp h).1

-- A handle for a text that need not be there.
def Spells (interner : StringInterner) : Option Nat → Option String → Prop
  | none, text => text = none
  | some handle, text => ∃ s, text = some s ∧ interner.tryResolve handle = some s

theorem Spells.extends {handle : Option Nat} {text : Option String} (h : interner.Spells handle text)
    (hextends : interner.Extends next) : next.Spells handle text := by
  cases handle with
  | none => exact h
  | some handle =>
      obtain ⟨s, htext, hs⟩ := h
      exact ⟨s, htext, hextends.tryResolve hs⟩

theorem Spells.bind_eq {handle : Option Nat} {text : Option String}
    (h : interner.Spells handle text) : handle.bind interner.tryResolve = text := by
  cases handle with
  | none => exact h.symm
  | some handle =>
      obtain ⟨s, htext, hs⟩ := h
      exact hs.trans htext.symm

theorem Spells.resolves {handle : Nat} {value : Option String}
    (h : interner.Spells (some handle) (value.filter fun s => !s.isEmpty)) :
    ∃ s, interner.tryResolve handle = some s ∧ s ≠ "" := by
  obtain ⟨s, htext, hs⟩ := h
  refine ⟨s, hs, ?_⟩
  rintro rfl
  simp at htext

theorem Faithful.internNonEmpty (h : interner.Faithful) (value : Option String) :
    (interner.internNonEmpty value).2.Faithful ∧
      interner.Extends (interner.internNonEmpty value).2 ∧
      (interner.internNonEmpty value).2.Spells (interner.internNonEmpty value).1
        (value.filter fun s => !s.isEmpty) := by
  unfold StringInterner.internNonEmpty
  cases value.filter fun s => !s.isEmpty with
  | none => exact ⟨h, .refl _, rfl⟩
  | some s =>
      obtain ⟨hfaithful, hextends, hresolve⟩ := h.getOrIntern s
      exact ⟨hfaithful, hextends, s, rfl, hresolve⟩

end StringInterner

-- Every handle of a node's provenance names a string that is not empty.
def NodeProvenance.Spelled (strings : StringInterner) (provenance : NodeProvenance) : Prop :=
  ∀ handle, provenance.sourcePath = some handle ∨ provenance.excerpt = some handle ∨
    provenance.namespace = some handle → ∃ s, strings.tryResolve handle = some s ∧ s ≠ ""

theorem NodeProvenance.Spelled.extends {strings next : StringInterner}
    {provenance : NodeProvenance} (h : provenance.Spelled strings) (hextends : strings.Extends next) :
    provenance.Spelled next := by
  intro handle hhandle
  obtain ⟨s, hs, hne⟩ := h handle hhandle
  exact ⟨s, hextends.tryResolve hs, hne⟩

theorem NodeProvenance.spelled_default (strings : StringInterner) :
    NodeProvenance.default.Spelled strings := by
  intro handle hhandle
  obtain h | h | h := hhandle <;> exact absurd h nofun

-- The arrays of the node table have an entry for each node, each handle names a string, and
-- each node has one external id.
structure Graph.Registered (graph : Graph W T) : Prop where
  faithful : graph.strings.Faithful
  label : graph.nodes.label.length = graph.nodes.count
  nodeType : graph.nodes.nodeType.length = graph.nodes.count
  tags : graph.nodes.tags.length = graph.nodes.count
  lastModified : graph.nodes.lastModified.length = graph.nodes.count
  changeFrequency : graph.nodes.changeFrequency.length = graph.nodes.count
  provenance : graph.nodes.provenance.length = graph.nodes.count
  labels : ∀ handle ∈ graph.nodes.label, handle < graph.strings.strings.length
  tagHandles : ∀ handles ∈ graph.nodes.tags, ∀ handle ∈ handles,
    handle < graph.strings.strings.length
  spelled : ∀ provenance ∈ graph.nodes.provenance, provenance.Spelled graph.strings
  known : ∀ handle i : Nat, graph.idToNode[handle]? = some i →
    i < graph.nodes.count ∧ handle < graph.strings.strings.length
  unique : ∀ handle handle' i : Nat, graph.idToNode[handle]? = some i →
    graph.idToNode[handle']? = some i → handle = handle'
  total : ∀ i < graph.nodes.count, ∃ handle : Nat, graph.idToNode[handle]? = some i

namespace Graph

variable {graph next : Graph W T}

-- The label of a node and the names that nodes are known by have strings.
theorem Registered.exists_label (h : graph.Registered) {node : Nat}
    (hnode : node < graph.nodes.count) :
    ∃ label, graph.nodes.label[node]?.bind graph.strings.tryResolve = some label := by
  have hlt : node < graph.nodes.label.length := by rwa [h.label]
  have hname := h.labels _ (List.getElem_mem hlt)
  refine ⟨graph.strings.strings[graph.nodes.label[node]], ?_⟩
  rw [List.getElem?_eq_getElem hlt, Option.bind_some]
  exact List.getElem?_eq_getElem hname

theorem Registered.exists_name (h : graph.Registered) {entry : Nat × Nat}
    (hentry : entry ∈ graph.idToNode.toList) :
    ∃ extId, graph.strings.tryResolve entry.1 = some extId := by
  have hknown := (h.known entry.1 entry.2
    (Std.ExtTreeMap.mem_toList_iff_getElem?_eq_some.mp hentry)).2
  exact ⟨_, List.getElem?_eq_getElem hknown⟩

theorem registered_new : (Graph.new : Graph W T).Registered where
  faithful := StringInterner.faithful_new
  label := rfl
  nodeType := rfl
  tags := rfl
  lastModified := rfl
  changeFrequency := rfl
  provenance := rfl
  labels := nofun
  tagHandles := nofun
  spelled := nofun
  known := by simp [Graph.new]
  unique := by simp [Graph.new]
  total := nofun

-- More strings do no harm.
theorem Registered.extends (h : graph.Registered) (hnodes : next.nodes = graph.nodes)
    (hids : next.idToNode = graph.idToNode) (hfaithful : next.strings.Faithful)
    (hextends : graph.strings.Extends next.strings) : next.Registered := by
  have hle := hextends.length_le
  constructor
  case faithful => exact hfaithful
  case label => exact hnodes ▸ h.label
  case nodeType => exact hnodes ▸ h.nodeType
  case tags => exact hnodes ▸ h.tags
  case lastModified => exact hnodes ▸ h.lastModified
  case changeFrequency => exact hnodes ▸ h.changeFrequency
  case provenance => exact hnodes ▸ h.provenance
  case labels =>
    intro handle hhandle
    rw [hnodes] at hhandle
    exact Nat.lt_of_lt_of_le (h.labels handle hhandle) hle
  case tagHandles =>
    intro handles hhandles handle hhandle
    rw [hnodes] at hhandles
    exact Nat.lt_of_lt_of_le (h.tagHandles handles hhandles handle hhandle) hle
  case spelled =>
    intro provenance hprovenance
    rw [hnodes] at hprovenance
    exact (h.spelled provenance hprovenance).extends hextends
  case known =>
    intro handle i hknown
    rw [hids] at hknown
    obtain ⟨hi, hhandle⟩ := h.known handle i hknown
    exact ⟨hnodes ▸ hi, Nat.lt_of_lt_of_le hhandle hle⟩
  case unique => exact hids ▸ h.unique
  case total =>
    rw [hnodes, hids]
    exact h.total

theorem Registered.resolveId_iff (h : graph.Registered) {s : String} {i : Nat} :
    graph.resolveId s = some i ↔
      ∃ handle, graph.strings.tryResolve handle = some s ∧ graph.idToNode[handle]? = some i := by
  simp only [resolveId, Option.bind_eq_bind, Option.bind_eq_some_iff, h.faithful.lookup]

theorem Registered.resolveId_extends (h : graph.Registered) (hnodes : next.nodes = graph.nodes)
    (hids : next.idToNode = graph.idToNode) (hfaithful : next.strings.Faithful)
    (hextends : graph.strings.Extends next.strings) (s : String) :
    next.resolveId s = graph.resolveId s := by
  have hnext := h.extends hnodes hids hfaithful hextends
  refine Option.ext fun i => ?_
  rw [hnext.resolveId_iff, h.resolveId_iff, hids]
  constructor
  · rintro ⟨handle, hs, hi⟩
    rw [hextends.tryResolve_eq (h.known handle i hi).2] at hs
    exact ⟨handle, hs, hi⟩
  · rintro ⟨handle, hs, hi⟩
    exact ⟨handle, hextends.tryResolve hs, hi⟩

-- A node that is added gets the next index and is found under its external id.
theorem Registered.addNode_new (h : graph.Registered) (externalId label : String)
    (nodeType : NodeType) (tags : List String) (lastModified : T) (changeFrequency : W)
    (hfresh : graph.resolveId externalId = none) :
    ∃ handle labelHandle tagHandles strings,
      graph.addNode externalId label nodeType tags lastModified changeFrequency =
        (.ok graph.nodes.count, {
          graph with
          nodes := {
            count := graph.nodes.count + 1
            label := graph.nodes.label ++ [labelHandle]
            nodeType := graph.nodes.nodeType ++ [nodeType]
            tags := graph.nodes.tags ++ [tagHandles]
            lastModified := graph.nodes.lastModified ++ [lastModified]
            changeFrequency := graph.nodes.changeFrequency ++ [changeFrequency]
            provenance := graph.nodes.provenance ++ [.default] }
          strings := strings
          idToNode := graph.idToNode.insert handle graph.nodes.count
          finalized := false }) ∧
      strings.Faithful ∧ graph.strings.Extends strings ∧
      strings.tryResolve handle = some externalId ∧ graph.idToNode[handle]? = none ∧
      strings.tryResolve labelHandle = some label ∧
      tagHandles.map strings.tryResolve = tags.map some := by
  obtain ⟨hext, hextends, hexternal⟩ := h.faithful.getOrIntern externalId
  obtain ⟨hlabel, hextends', hlabelled⟩ := hext.getOrIntern label
  obtain ⟨htags, hextends'', htagged⟩ := hlabel.internAll tags
  have habsent : graph.idToNode[(graph.strings.getOrIntern externalId).1]? = none := by
    by_contra hne
    obtain ⟨i, hi⟩ := Option.ne_none_iff_exists'.mp hne
    have hlt := (h.known _ i hi).2
    rw [hextends.tryResolve_eq hlt] at hexternal
    rw [h.resolveId_iff.mpr ⟨_, hexternal, hi⟩] at hfresh
    exact absurd hfresh nofun
  refine ⟨(graph.strings.getOrIntern externalId).1, _, _, _, ?_, htags,
    hextends.trans (hextends'.trans hextends''), (hextends'.trans hextends'').tryResolve hexternal,
    habsent, hextends''.tryResolve hlabelled, htagged⟩
  unfold Graph.addNode
  simp only [habsent]

theorem addNode_known (externalId label : String) (nodeType : NodeType) (tags : List String)
    (lastModified : T) (changeFrequency : W) {i : Nat} (hknown : graph.resolveId externalId = some i) :
    (graph.addNode externalId label nodeType tags lastModified changeFrequency) =
      (.error (.DuplicateNode i), graph) := by
  obtain ⟨handle, hhandle, hi⟩ := Option.bind_eq_some_iff.mp hknown
  have hinterned : graph.strings.getOrIntern externalId = (handle, graph.strings) := by
    have hindex : graph.strings.index[externalId]? = some handle := hhandle
    rw [StringInterner.getOrIntern, hindex]
  unfold Graph.addNode
  simp only [hinterned, hi]

theorem Registered.addNode (h : graph.Registered) (externalId label : String)
    (nodeType : NodeType) (tags : List String) (lastModified : T) (changeFrequency : W) :
    (graph.addNode externalId label nodeType tags lastModified changeFrequency).2.Registered := by
  cases hresolve : graph.resolveId externalId with
  | some i =>
      rw [addNode_known externalId label nodeType tags lastModified changeFrequency hresolve]
      exact h
  | none =>
      obtain ⟨handle, labelHandle, tagHandles, strings, hadded, hfaithful, hextends, hexternal,
        habsent, hlabelled, htagged⟩ :=
        h.addNode_new externalId label nodeType tags lastModified changeFrequency hresolve
      rw [hadded]
      have hle := hextends.length_le
      have htag : ∀ tag ∈ tagHandles, tag < strings.strings.length := by
        intro tag htag
        obtain ⟨i, hi, hget⟩ := List.getElem_of_mem htag
        have hmap := congrArg (fun (list : List (Option String)) => list[i]?) htagged
        have hlength : tagHandles.length = tags.length := by
          simpa using congrArg List.length htagged
        simp only [List.getElem?_map, List.getElem?_eq_getElem hi,
          List.getElem?_eq_getElem (hlength ▸ hi), Option.map_some, Option.some.injEq] at hmap
        rw [hget] at hmap
        exact StringInterner.lt_of_tryResolve hmap
      have hids (key : Nat) : (graph.idToNode.insert handle graph.nodes.count)[key]? =
          if handle = key then some graph.nodes.count else graph.idToNode[key]? := by
        rw [Std.ExtTreeMap.getElem?_insert]
        by_cases he : handle = key
        · rw [if_pos (by rw [he]; exact Std.ReflCmp.compare_self), if_pos he]
        · rw [if_neg (fun hc => he (Std.LawfulEqCmp.eq_of_compare hc)), if_neg he]
      constructor
      case faithful => exact hfaithful
      case label => simp [h.label]
      case nodeType => simp [h.nodeType]
      case tags => simp [h.tags]
      case lastModified => simp [h.lastModified]
      case changeFrequency => simp [h.changeFrequency]
      case provenance => simp [h.provenance]
      case labels =>
        intro other hother
        obtain hother | hother := List.mem_append.mp hother
        · exact Nat.lt_of_lt_of_le (h.labels other hother) hle
        · rw [List.mem_singleton.mp hother]
          exact StringInterner.lt_of_tryResolve hlabelled
      case tagHandles =>
        intro handles hhandles
        obtain hhandles | hhandles := List.mem_append.mp hhandles
        · intro other hother
          exact Nat.lt_of_lt_of_le (h.tagHandles handles hhandles other hother) hle
        · rw [List.mem_singleton.mp hhandles]
          exact htag
      case spelled =>
        intro provenance hprovenance
        obtain hprovenance | hprovenance := List.mem_append.mp hprovenance
        · exact (h.spelled provenance hprovenance).extends hextends
        · rw [List.mem_singleton.mp hprovenance]
          exact NodeProvenance.spelled_default strings
      case known =>
        intro key i hi
        rw [hids] at hi
        split at hi
        · rename_i he
          obtain rfl := Option.some.inj hi
          exact ⟨Nat.lt_succ_self _, he ▸ StringInterner.lt_of_tryResolve hexternal⟩
        · obtain ⟨hi, hkey⟩ := h.known key i hi
          exact ⟨Nat.lt_succ_of_lt hi, Nat.lt_of_lt_of_le hkey hle⟩
      case unique =>
        intro key key' i hi hi'
        rw [hids] at hi hi'
        split at hi <;> split at hi'
        · rename_i he he'
          exact he.symm.trans he'
        · obtain rfl := Option.some.inj hi
          exact absurd (h.known key' _ hi').1 (Nat.lt_irrefl _)
        · obtain rfl := Option.some.inj hi'
          exact absurd (h.known key _ hi).1 (Nat.lt_irrefl _)
        · exact h.unique key key' i hi hi'
      case total =>
        intro i hi
        by_cases he : i = graph.nodes.count
        · exact ⟨handle, by rw [hids, if_pos rfl, he]⟩
        · obtain ⟨key, hkey⟩ := h.total i (by simp only at hi; omega)
          refine ⟨key, ?_⟩
          have hne : handle ≠ key := by
            rintro rfl
            rw [habsent] at hkey
            exact absurd hkey nofun
          rw [hids, if_neg hne]
          exact hkey

theorem Registered.addEdge (h : graph.Registered) (source target : Nat) (relation : String)
    (weight : W) (direction : EdgeDirection) (inhibitory : Bool) (causalStrength : W) :
    (graph.addEdge source target relation weight direction inhibitory
      causalStrength).2.Registered := by
  unfold Graph.addEdge
  by_cases hsource : graph.nodes.count ≤ source
  · rw [if_pos hsource]
    exact h
  · by_cases htarget : graph.nodes.count ≤ target
    · rw [if_neg hsource, if_pos htarget]
      exact h
    · rw [if_neg hsource, if_neg htarget]
      obtain ⟨hfaithful, hextends, -⟩ := h.faithful.getOrIntern relation
      exact h.extends rfl rfl hfaithful hextends

-- The three texts of a provenance are interned one after the other.
theorem Registered.setNodeProvenance_eq (h : graph.Registered) {node : Nat}
    (hnode : node < graph.nodes.count) (provenance : ResolvedNodeProvenance) :
    ∃ strings sourcePath excerpt space,
      graph.setNodeProvenance node provenance = {
        graph with
        strings := strings
        nodes := {
          graph.nodes with
          provenance := graph.nodes.provenance.set node {
            sourcePath := sourcePath
            lineStart := provenance.lineStart.getD 0
            lineEnd := (provenance.lineEnd.or provenance.lineStart).getD 0
            excerpt := excerpt
            «namespace» := space
            canonical := provenance.canonical } } } ∧
      strings.Faithful ∧ graph.strings.Extends strings ∧
      strings.Spells sourcePath (provenance.sourcePath.filter fun s => !s.isEmpty) ∧
      strings.Spells excerpt (provenance.excerpt.filter fun s => !s.isEmpty) ∧
      strings.Spells space (provenance.namespace.filter fun s => !s.isEmpty) := by
  obtain ⟨hpath, hextends, hspells⟩ := h.faithful.internNonEmpty provenance.sourcePath
  obtain ⟨hexcerpt, hextends', hspells'⟩ := hpath.internNonEmpty provenance.excerpt
  obtain ⟨hspace, hextends'', hspells''⟩ := hexcerpt.internNonEmpty provenance.namespace
  refine ⟨_, _, _, _, ?_, hspace, hextends.trans (hextends'.trans hextends''),
    hspells.extends (hextends'.trans hextends''), hspells'.extends hextends'', hspells''⟩
  unfold Graph.setNodeProvenance
  rw [if_neg (Nat.not_le_of_lt hnode)]

theorem Registered.setNodeProvenance (h : graph.Registered) (node : Nat)
    (provenance : ResolvedNodeProvenance) :
    (graph.setNodeProvenance node provenance).Registered := by
  by_cases hnode : graph.nodes.count ≤ node
  · unfold Graph.setNodeProvenance
    rw [if_pos hnode]
    exact h
  · obtain ⟨strings, sourcePath, excerpt, space, hset, hfaithful, hextends, hpath, hexcerpt,
      hspace⟩ := h.setNodeProvenance_eq (Nat.lt_of_not_le hnode) provenance
    rw [hset]
    have hmore : ({ graph with strings := strings } : Graph W T).Registered :=
      h.extends rfl rfl hfaithful hextends
    refine ⟨hmore.faithful, hmore.label, hmore.nodeType, hmore.tags, hmore.lastModified,
      hmore.changeFrequency, List.length_set.trans hmore.provenance, hmore.labels,
      hmore.tagHandles, ?_, hmore.known, hmore.unique, hmore.total⟩
    intro other hother
    obtain hother | rfl := List.mem_or_eq_of_mem_set hother
    · exact hmore.spelled other hother
    · rintro handle (rfl | rfl | rfl)
      · exact hpath.resolves
      · exact hexcerpt.resolves
      · exact hspace.resolves

end Graph

end M1nd.Core
