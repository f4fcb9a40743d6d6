import M1nd.Core.Graph.Refinalize

namespace M1nd.Core

namespace StringInterner

-- The map and the list of the strings say the same.
def Faithful (interner : StringInterner) : Prop :=
  ∀ (s : String) (idx : Nat), interner.index[s]? = some idx ↔ interner.strings[idx]? = some s

-- The strings that have a handle keep it.
def Extends (interner next : StringInterner) : Prop :=
  ∀ (s : String) (idx : Nat), interner.strings[idx]? = some s → next.strings[idx]? = some s

variable {interner next last : StringInterner}

theorem Extends.refl (interner : StringInterner) : interner.Extends interner :=
  fun _ _ h => h

theorem Extends.trans (h : interner.Extends next) (h' : next.Extends last) :
    interner.Extends last :=
  fun s idx hs => h' s idx (h s idx hs)

theorem Extends.tryResolve (h : interner.Extends next) {s : String} {idx : Nat}
    (hs : interner.tryResolve idx = some s) : next.tryResolve idx = some s :=
  h s idx hs

theorem faithful_new : StringInterner.new.Faithful := by
  intro s idx
  simp [new]

theorem Faithful.lookup (h : interner.Faithful) {s : String} {idx : Nat} :
    interner.lookup s = some idx ↔ interner.tryResolve idx = some s :=
  h s idx

theorem Faithful.getOrIntern (h : interner.Faithful) (s : String) :
    (interner.getOrIntern s).2.Faithful ∧ interner.Extends (interner.getOrIntern s).2 ∧
      (interner.getOrIntern s).2.tryResolve (interner.getOrIntern s).1 = some s := by
  unfold StringInterner.getOrIntern
  cases hknown : interner.index[s]? with
  | some idx => exact ⟨h, .refl _, (h s idx).mp hknown⟩
  | none =>
      have habsent (idx : Nat) : interner.strings[idx]? ≠ some s := by
        intro hs
        rw [(h s idx).mpr hs] at hknown
        exact absurd hknown nofun
      refine ⟨fun other idx => ?_, fun other idx hother => ?_, ?_⟩
      · rw [Std.ExtTreeMap.getElem?_insert, List.getElem?_append]
        by_cases hsame : s = other
        · subst hsame
          rw [if_pos Std.ReflCmp.compare_self]
          by_cases hlt : idx < interner.strings.length
          · rw [if_pos hlt]
            have hne := habsent idx
            have hidx : interner.strings.length ≠ idx := by omega
            simp [hne, hidx]
          · rw [if_neg hlt]
            by_cases he : idx = interner.strings.length
            · simp [he]
            · have hidx : interner.strings.length ≠ idx := by omega
              have hbehind : idx - interner.strings.length ≠ 0 := by omega
              obtain ⟨k, hk⟩ := Nat.exists_eq_succ_of_ne_zero hbehind
              simp [hidx, hk]
        · have hcompare : compare s other ≠ .eq := fun he =>
            hsame (Std.LawfulEqCmp.eq_of_compare he)
          rw [if_neg hcompare, h other idx]
          by_cases hlt : idx < interner.strings.length
          · rw [if_pos hlt]
          · rw [if_neg hlt, List.getElem?_eq_none (by omega)]
            by_cases he : idx = interner.strings.length
            · simp [he, hsame]
            · have hbehind : idx - interner.strings.length ≠ 0 := by omega
              obtain ⟨k, hk⟩ := Nat.exists_eq_succ_of_ne_zero hbehind
              simp [hk]
      · exact List.getElem?_append_left (List.getElem?_eq_some_iff.mp hother).1 ▸ hother
      · simp [tryResolve]

theorem Faithful.internAll (h : interner.Faithful) (names : List String) :
    (interner.internAll names).2.Faithful ∧ interner.Extends (interner.internAll names).2 ∧
      (interner.internAll names).1.map (interner.internAll names).2.tryResolve =
        names.map some := by
  induction names generalizing interner with
  | nil => exact ⟨h, .refl _, rfl⟩
  | cons name names ih =>
      obtain ⟨hfaithful, hextends, hname⟩ := h.getOrIntern name
      obtain ⟨hrest, hextends', hnames⟩ := ih hfaithful
      refine ⟨hrest, hextends.trans hextends', ?_⟩
      simp only [StringInterner.internAll, List.map_cons, hnames]
      rw [hextends'.tryResolve hname]

end StringInterner

end M1nd.Core

namespace M1nd.Core

open M1nd.Library.Buckets

variable {W T : Type}

-- Every handle given out names a string.
def StringInterner.Dense (interner : StringInterner) : Prop :=
  ∀ (s : String) (idx : Nat), interner.index[s]? = some idx → idx < interner.strings.length

namespace StringInterner

variable {interner : StringInterner}

theorem dense_new : StringInterner.new.Dense := by
  intro s idx h
  simp [new] at h

theorem Dense.getOrIntern (h : interner.Dense) (s : String) :
    (interner.getOrIntern s).2.Dense ∧
      (interner.getOrIntern s).1 < (interner.getOrIntern s).2.strings.length ∧
      interner.strings.length ≤ (interner.getOrIntern s).2.strings.length := by
  unfold StringInterner.getOrIntern
  cases hknown : interner.index[s]? with
  | some idx => exact ⟨h, h s idx hknown, Nat.le_refl _⟩
  | none =>
      refine ⟨fun other idx hother => ?_, ?_, ?_⟩
      · simp only [List.length_append, List.length_singleton]
        simp only [Std.ExtTreeMap.getElem?_insert] at hother
        split at hother
        · obtain rfl := Option.some.inj hother
          omega
        · have := h other idx hother
          omega
      · simp
      · simp

theorem Dense.internAll (h : interner.Dense) (names : List String) :
    (interner.internAll names).2.Dense ∧
      interner.strings.length ≤ (interner.internAll names).2.strings.length := by
  induction names generalizing interner with
  | nil => exact ⟨h, Nat.le_refl _⟩
  | cons name names ih =>
      obtain ⟨hdense, -, hle⟩ := h.getOrIntern name
      obtain ⟨hrest, hle'⟩ := ih hdense
      exact ⟨hrest, hle.trans hle'⟩

end StringInterner

namespace Graph

variable {graph next : Graph W T}

-- Every slot and every staged edge has a relation with a name.
structure Named (graph : Graph W T) : Prop where
  dense : graph.strings.Dense
  pending : ∀ edge ∈ graph.csr.pendingEdges, edge.relation < graph.strings.strings.length
  relations : ∀ relation ∈ graph.csr.relations, relation < graph.strings.strings.length
  length : graph.csr.relations.length = graph.csr.targets.length

theorem named_new : (Graph.new : Graph W T).Named where
  dense := StringInterner.dense_new
  pending := nofun
  relations := nofun
  length := rfl

theorem Named.of_strings (h : graph.Named) (hcsr : next.csr = graph.csr)
    (hdense : next.strings.Dense)
    (hle : graph.strings.strings.length ≤ next.strings.strings.length) : next.Named where
  dense := hdense
  pending edge hedge := by
    rw [hcsr] at hedge
    exact (h.pending edge hedge).trans_le hle
  relations relation hrelation := by
    rw [hcsr] at hrelation
    exact (h.relations relation hrelation).trans_le hle
  length := by
    rw [hcsr]
    exact h.length

theorem Named.addNode (h : graph.Named) (externalId label : String) (nodeType : NodeType)
    (tags : List String) (lastModified : T) (changeFrequency : W) :
    (graph.addNode externalId label nodeType tags lastModified changeFrequency).2.Named := by
  obtain ⟨hext, -, hle⟩ := h.dense.getOrIntern externalId
  unfold Graph.addNode
  cases hknown : graph.idToNode[(graph.strings.getOrIntern externalId).1]? with
  | some existing =>
      simp only [hknown]
      exact h.of_strings rfl hext hle
  | none =>
      obtain ⟨hlabel, -, hle'⟩ := hext.getOrIntern label
      obtain ⟨htags, hle''⟩ := hlabel.internAll tags
      simp only [hknown]
      exact h.of_strings rfl htags (hle.trans (hle'.trans hle''))

theorem Named.addEdge (h : graph.Named) (source target : Nat) (relation : String) (weight : W)
    (direction : EdgeDirection) (inhibitory : Bool) (causalStrength : W) :
    (graph.addEdge source target relation weight direction inhibitory causalStrength).2.Named := by
  unfold Graph.addEdge
  by_cases hsource : graph.nodes.count ≤ source
  · rw [if_pos hsource]
    exact h
  · by_cases htarget : graph.nodes.count ≤ target
    · rw [if_neg hsource, if_pos htarget]
      exact h
    · rw [if_neg hsource, if_neg htarget]
      obtain ⟨hdense, hlt, hle⟩ := h.dense.getOrIntern relation
      refine ⟨hdense, fun edge hedge => ?_, fun relation hrelation => ?_, h.length⟩
      · obtain hedge | hedge := List.mem_append.mp hedge
        · exact (h.pending edge hedge).trans_le hle
        · rw [List.mem_singleton.mp hedge]
          exact hlt
      · exact (h.relations relation hrelation).trans_le hle

variable [Zero W]

theorem Rebuilt.named (h : graph.Staged) (hnamed : graph.Named) (hnext : graph.Rebuilt next)
    (hstrings : next.strings = graph.strings) : next.Named where
  dense := by
    rw [hstrings]
    exact hnamed.dense
  pending edge hedge := by
    rw [hnext.pendingEdges] at hedge
    exact absurd hedge List.not_mem_nil
  relations relation hrelation := by
    rw [hnext.relations] at hrelation
    obtain ⟨placement, hplacement, rfl⟩ := List.mem_map.mp hrelation
    have hmem := (mem_placements.mp (h.placed_perm.mem_iff.mp hplacement)).1
    rw [hstrings]
    exact hnamed.pending _ (List.mem_of_getElem? hmem)
  length := by
    rw [hnext.relations, hnext.targets, List.length_map, List.length_map]

theorem Named.rehydrate (h : graph.Named) (hlisted : graph.Listed) :
    graph.rehydrateCsrIntoPending.Named where
  dense := h.dense
  pending edge hedge := by
    obtain hedge | hedge := List.mem_append.mp hedge
    · obtain ⟨slot, hslot, rfl⟩ := List.mem_map.mp hedge
      have hlt : slot.2 < graph.csr.relations.length := by
        rw [h.length, ← List.mem_range, ← hlisted.indices]
        exact List.mem_map_of_mem (List.mem_filter.mp hslot).1
      apply h.relations
      simp only [harvestedEdge, List.getD_eq_getElem?_getD, List.getElem?_eq_getElem hlt,
        Option.getD_some]
      exact List.getElem_mem hlt
    · exact h.pending edge hedge
  relations := h.relations
  length := h.length

theorem Named.finalize (hsound : graph.Sound) (hlisted : graph.Listed) (h : graph.Named) :
    graph.finalize.Named := by
  unfold Graph.finalize
  by_cases hfinal : graph.finalized = true
  · rw [if_pos hfinal]
    exact h
  · rw [if_neg hfinal]
    by_cases hedges : 0 < graph.csr.numEdges
    · rw [if_pos hedges]
      exact hsound.rehydrated.rebuilt.named hsound.rehydrated (h.rehydrate hlisted) rfl
    · rw [if_neg hedges]
      exact hsound.staged.rebuilt.named hsound.staged h rfl

theorem Named.apply (hsound : graph.Sound) (hlisted : graph.Listed) (h : graph.Named)
    (op : GraphOp W T) : (GraphOp.apply graph op).Named := by
  cases op with
  | addNode externalId label nodeType tags lastModified changeFrequency =>
      exact h.addNode externalId label nodeType tags lastModified changeFrequency
  | addEdge source target relation weight direction inhibitory causalStrength =>
      exact h.addEdge source target relation weight direction inhibitory causalStrength
  | storeWeight slot weight =>
      by_cases hslot : slot < graph.csr.targets.length
      · simp only [GraphOp.apply, if_pos hslot]
        exact ⟨h.dense, h.pending, h.relations, h.length⟩
      · simp only [GraphOp.apply, if_neg hslot]
        exact h
  | storeSynapse slot synapse =>
      by_cases hslot : slot < graph.csr.targets.length
      · simp only [GraphOp.apply, if_pos hslot]
        exact h.of_strings rfl h.dense (Nat.le_refl _)
      · simp only [GraphOp.apply, if_neg hslot]
        exact h
  | finalize => exact h.finalize hsound hlisted

end Graph

theorem GraphOp.named_run [Zero W] (ops : List (GraphOp W T)) : (GraphOp.run ops).Named := by
  induction ops using List.reverseRecOn with
  | nil => exact Graph.named_new
  | append_singleton ops op ih =>
      rw [GraphOp.run_concat]
      exact ih.apply (GraphOp.sound_run ops) (GraphOp.listed_run ops) op

end M1nd.Core
