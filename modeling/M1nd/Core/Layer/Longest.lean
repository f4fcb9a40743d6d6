import M1nd.Core.Layer.Merging

namespace M1nd.Core

variable {edges : List (Nat × Nat)} {adj : Nat → List Nat} {nodes : List Nat}

section Chains

-- Where each node has a predecessor, there are paths of every length.
theorem exists_chain {edge : Nat → Nat → Prop} {inside : Nat → Prop} {node : Nat}
    (hnode : inside node) (hback : ∀ node, inside node → ∃ before, inside before ∧ edge before node)
    (n : Nat) :
    ∃ path : List Nat, path.length = n ∧ path.IsChain edge ∧ ∀ node ∈ path, inside node := by
  have hpath : ∀ n, ∃ first rest, (first :: rest : List Nat).length = n + 1 ∧
      (first :: rest : List Nat).IsChain edge ∧ ∀ node ∈ first :: rest, inside node := by
    intro n
    induction n with
    | zero => exact ⟨node, [], rfl, .singleton _, List.forall_mem_singleton.mpr hnode⟩
    | succ n ih =>
        obtain ⟨first, rest, hlength, hchain, hinside⟩ := ih
        obtain ⟨before, hbefore, hedge⟩ := hback first (hinside first List.mem_cons_self)
        refine ⟨before, first :: rest, by rw [List.length_cons, hlength], ?_, ?_⟩
        · exact List.isChain_cons_cons.mpr ⟨hedge, hchain⟩
        · exact List.forall_mem_cons.mpr ⟨hbefore, hinside⟩
  cases n with
  | zero => exact ⟨[], rfl, .nil, fun _ hmem => absurd hmem List.not_mem_nil⟩
  | succ n =>
      obtain ⟨first, rest, hlength, hchain, hinside⟩ := hpath n
      exact ⟨first :: rest, hlength, hchain, hinside⟩

end Chains

namespace Depths

variable {state last : Depths} {currentDepth node fuel : Nat} {nexts queue : List Nat}

-- What the loop over the neighbors of a node leaves behind.
structure Relaxed (currentDepth : Nat) (nexts : List Nat) (state next : Depths) : Prop where
  inDegree : ∀ node, next.inDegree node =
    if node ∈ nexts then state.inDegree node - 1 else state.inDegree node
  get : ∀ node, next.get node =
    if node ∈ nexts then max (state.get node) (currentDepth + 1) else state.get node
  queue : next.queue = state.queue ++ nexts.filter fun node => state.inDegree node - 1 = 0

theorem relaxed_foldl (currentDepth : Nat) (state : Depths) (hnodup : nexts.Nodup) :
    Relaxed currentDepth nexts state (nexts.foldl (relax currentDepth) state) := by
  induction nexts generalizing state with
  | nil => exact ⟨fun _ => by simp, fun _ => by simp, by simp⟩
  | cons first nexts ih =>
      obtain ⟨hfirst, hnodup⟩ := List.nodup_cons.mp hnodup
      obtain ⟨hdegree, hget, hqueue⟩ := ih (relax currentDepth state first) hnodup
      have hkept : ∀ node ∈ nexts, (relax currentDepth state first).inDegree node =
          state.inDegree node := by
        intro node hnode
        have hne : node ≠ first := by
          rintro rfl
          exact hfirst hnode
        exact Function.update_of_ne hne _ _
      constructor
      · intro node
        rw [List.foldl_cons, hdegree]
        by_cases he : node = first
        · subst he
          rw [if_neg hfirst, if_pos List.mem_cons_self]
          exact Function.update_self _ _ _
        · have hsame : (relax currentDepth state first).inDegree node = state.inDegree node :=
            Function.update_of_ne he _ _
          simp only [hsame, List.mem_cons, he, false_or]
      · intro node
        rw [List.foldl_cons, hget]
        by_cases he : node = first
        · subst he
          rw [if_neg hfirst, if_pos List.mem_cons_self]
          simp only [get, relax, Function.update_self, Option.getD_some]
        · have hsame : (relax currentDepth state first).get node = state.get node := by
            simp only [get, relax, Function.update_of_ne he]
          simp only [hsame, List.mem_cons, he, false_or]
      · have hrest : (nexts.filter fun node =>
            (relax currentDepth state first).inDegree node - 1 = 0) =
              nexts.filter fun node => state.inDegree node - 1 = 0 := by
          apply List.filter_congr
          intro node hnode
          rw [hkept node hnode]
        rw [List.foldl_cons, hqueue, hrest, List.filter_cons]
        unfold relax
        dsimp only
        split
        · rename_i hzero
          rw [if_pos (by simpa using hzero), List.append_assoc, List.singleton_append]
        · rename_i hzero
          rw [if_neg (by simpa using hzero)]

-- The nodes without unvisited predecessors have been queued. A visited node lies above its
-- successors, and just under one of its predecessors.
structure Ordered (edges : List (Nat × Nat)) (nodes : List Nat) (state : Depths) : Prop where
  degree : ∀ node, state.inDegree node =
    edges.countP fun edge => edge.2 = node ∧ edge.1 ∉ state.visited
  queued : ∀ node ∈ nodes, state.inDegree node = 0 → node ∈ state.queue ∨ node ∈ state.visited
  ready : ∀ node, node ∈ state.queue ∨ node ∈ state.visited → state.inDegree node = 0
  deeper : ∀ edge ∈ edges, edge.1 ∈ state.visited → state.get edge.1 < state.get edge.2
  supported : ∀ node, 0 < state.get node → ∃ before ∈ state.visited, (before, node) ∈ edges ∧
    state.get node = state.get before + 1

theorem countP_ne_zero_of_mem {source target : Nat} {visited : List Nat}
    (hedge : (source, target) ∈ edges) (hnew : source ∉ visited) :
    (edges.countP fun edge => edge.2 = target ∧ edge.1 ∉ visited) ≠ 0 := by
  rw [Ne, List.countP_eq_zero, not_forall]
  exact ⟨(source, target), by simp [hedge, hnew]⟩

-- A predecessor that is visited takes one edge away.
theorem countP_source (hedges : edges.Nodup) {visited : List Nat} (hnew : node ∉ visited)
    (target : Nat) :
    (edges.countP fun edge => edge.2 = target ∧ edge.1 ∉ node :: visited) =
      (edges.countP fun edge => edge.2 = target ∧ edge.1 ∉ visited) -
        if (node, target) ∈ edges then 1 else 0 := by
  have hsplit : (edges.countP fun edge => edge.2 = target ∧ edge.1 ∉ visited) =
      (edges.countP fun edge => edge.2 = target ∧ edge.1 ∉ node :: visited) +
        edges.count (node, target) := by
    clear hedges
    induction edges with
    | nil => rfl
    | cons edge edges ih =>
        obtain ⟨source, other⟩ := edge
        rw [List.countP_cons, List.countP_cons, List.count_cons, ih]
        by_cases hsource : source = node
        · subst hsource
          by_cases hother : other = target
          · simp [hother, hnew]
            omega
          · simp [hother]
        · by_cases hother : other = target
          · simp [hother, hsource]
            omega
          · simp [hother]
  rw [hsplit, List.Nodup.count hedges, Nat.add_sub_cancel]

theorem Ordered.skip (h : Ordered edges nodes state) (hqueue : state.queue = node :: queue)
    (hvisited : node ∈ state.visited) : Ordered edges nodes { state with queue := queue } where
  degree := h.degree
  queued other hother hzero := by
    obtain hmem | hmem := h.queued other hother hzero
    · rw [hqueue, List.mem_cons] at hmem
      obtain rfl | hmem := hmem
      · exact .inr hvisited
      · exact .inl hmem
    · exact .inr hmem
  ready other hother := by
    refine h.ready other (hother.imp_left fun hmem => ?_)
    rw [hqueue]
    exact List.mem_cons_of_mem _ hmem
  deeper := h.deeper
  supported := h.supported

theorem Ordered.visit (h : Ordered edges nodes state) (hedges : edges.Nodup)
    (hadj : ∀ node next, next ∈ adj node ↔ (node, next) ∈ edges) (hnodup : (adj node).Nodup)
    (hqueue : state.queue = node :: queue) (hnew : node ∉ state.visited) :
    Ordered edges nodes (({ state with queue := queue } : Depths).visit adj node) := by
  have hzero := h.ready node (.inl (hqueue ▸ List.mem_cons_self))
  have hown : (node, node) ∉ edges := fun hedge =>
    countP_ne_zero_of_mem hedge hnew ((h.degree node).symm.trans hzero)
  obtain ⟨hdegree, hget, hqueue'⟩ := relaxed_foldl (state.get node)
    ({ state with queue := queue, visited := node :: state.visited } : Depths) hnodup
  have hvisited := visited_relax (state.get node)
    ({ state with queue := queue, visited := node :: state.visited } : Depths) (adj node)
  change Ordered edges nodes ((adj node).foldl (relax (state.get node))
    ({ state with queue := queue, visited := node :: state.visited } : Depths))
  generalize (adj node).foldl (relax (state.get node)) _ = next at hdegree hget hqueue' hvisited
  dsimp only at hdegree hqueue' hvisited
  have hget' : ∀ other, next.get other = if (node, other) ∈ edges then
      max (state.get other) (state.get node + 1) else state.get other := by
    intro other
    rw [hget other]
    simp only [hadj]
    rfl
  -- A visited or queued node has no unvisited predecessor, so that its depth stays.
  have hstays : ∀ other, other ∈ state.queue ∨ other ∈ state.visited →
      next.get other = state.get other := by
    intro other hother
    rw [hget', if_neg fun hedge =>
      countP_ne_zero_of_mem hedge hnew ((h.degree other).symm.trans (h.ready other hother))]
  have hnode : next.get node = state.get node :=
    hstays node (.inl (hqueue ▸ List.mem_cons_self))
  have hcount : ∀ other, next.inDegree other =
      edges.countP fun edge => edge.2 = other ∧ edge.1 ∉ next.visited := by
    intro other
    rw [hdegree, hvisited, countP_source hedges hnew, ← h.degree]
    simp only [hadj]
    split <;> rfl
  constructor
  case degree => exact hcount
  case queued =>
    intro other hother hnone
    by_cases hedge : (node, other) ∈ edges
    · left
      rw [hqueue', List.mem_append]
      right
      rw [hdegree, if_pos ((hadj _ _).mpr hedge)] at hnone
      exact List.mem_filter.mpr ⟨(hadj _ _).mpr hedge, by simpa using hnone⟩
    · rw [hdegree, if_neg fun hmem => hedge ((hadj _ _).mp hmem)] at hnone
      obtain hmem | hmem := h.queued other hother hnone
      · rw [hqueue, List.mem_cons] at hmem
        obtain rfl | hmem := hmem
        · exact .inr (hvisited ▸ List.mem_cons_self)
        · exact .inl (hqueue' ▸ List.mem_append_left _ hmem)
      · exact .inr (hvisited ▸ List.mem_cons_of_mem _ hmem)
  case ready =>
    intro other hother
    rw [hvisited, hqueue', List.mem_append, List.mem_filter, List.mem_cons] at hother
    rw [hdegree]
    obtain (hmem | ⟨hmem, hlast⟩) | rfl | hmem := hother
    · have hnone := h.ready other (.inl (hqueue ▸ List.mem_cons_of_mem _ hmem))
      split <;> omega
    · rw [if_pos hmem]
      simpa using hlast
    · split <;> omega
    · have hnone := h.ready other (.inr hmem)
      split <;> omega
  case deeper =>
    intro edge hedge hsource
    rw [hvisited, List.mem_cons] at hsource
    obtain hsame | hsource := hsource
    · rw [hsame, hnode, hget', if_pos (hsame ▸ hedge)]
      omega
    · have hlt := h.deeper edge hedge hsource
      rw [hstays edge.1 (.inr hsource), hget']
      split
      · omega
      · exact hlt
  case supported =>
    intro other hpos
    rw [hvisited]
    have hold : next.get other = state.get other → ∃ before ∈ node :: state.visited,
        (before, other) ∈ edges ∧ next.get other = next.get before + 1 := by
      intro hsame
      rw [hsame] at hpos ⊢
      obtain ⟨before, hbefore, hedge, heq⟩ := h.supported other hpos
      exact ⟨before, List.mem_cons_of_mem _ hbefore, hedge, by rw [heq, hstays before (.inr hbefore)]⟩
    by_cases hedge : (node, other) ∈ edges
    · by_cases hle : state.get node + 1 ≤ state.get other
      · exact hold (by rw [hget', if_pos hedge, Nat.max_eq_left hle])
      · refine ⟨node, List.mem_cons_self, hedge, ?_⟩
        rw [hnode, hget', if_pos hedge, Nat.max_eq_right (by omega)]
    · exact hold (by rw [hget', if_neg hedge])

theorem Ordered.assign (hedges : edges.Nodup)
    (hadj : ∀ node next, next ∈ adj node ↔ (node, next) ∈ edges)
    (hnodup : ∀ node, (adj node).Nodup) (h : Ordered edges nodes state)
    (hrun : state.assign adj fuel = some last) : Ordered edges nodes last ∧ last.queue = [] := by
  induction fuel generalizing state with
  | zero =>
      unfold Depths.assign at hrun
      split at hrun
      case h_1 hempty =>
        obtain rfl := Option.some.inj hrun
        exact ⟨h, hempty⟩
      case h_2 => cases hrun
  | succ fuel ih =>
      unfold Depths.assign at hrun
      split at hrun
      case h_1 hempty =>
        obtain rfl := Option.some.inj hrun
        exact ⟨h, hempty⟩
      case h_2 node queue hqueue =>
        dsimp only at hrun
        split at hrun
        case isTrue hvisited => exact ih (h.skip hqueue hvisited) hrun
        case isFalse hnew => exact ih (h.visit hedges hadj (hnodup node) hqueue hnew) hrun

-- Where paths are bounded, no node is left over.
theorem Ordered.visits (h : Ordered edges nodes last) (hempty : last.queue = [])
    (hinside : ∀ edge ∈ edges, edge.1 ∈ nodes) {bound : Nat}
    (hbound : ∀ path : List Nat, (path.IsChain fun a b => (a, b) ∈ edges) →
      (∀ node ∈ path, node ∈ nodes) → path.length ≤ bound) : ∀ node ∈ nodes, node ∈ last.visited := by
  intro node hnode
  by_contra hnew
  have hback : ∀ node, node ∈ nodes ∧ node ∉ last.visited →
      ∃ before, (before ∈ nodes ∧ before ∉ last.visited) ∧ (before, node) ∈ edges := by
    rintro node ⟨hnode, hnew⟩
    have hdegree : last.inDegree node ≠ 0 := by
      intro hzero
      obtain hmem | hmem := h.queued node hnode hzero
      · rw [hempty] at hmem
        exact List.not_mem_nil hmem
      · exact hnew hmem
    rw [h.degree, Ne, List.countP_eq_zero, not_forall] at hdegree
    obtain ⟨edge, hedge⟩ := hdegree
    rw [Classical.not_imp, not_not, decide_eq_true_eq] at hedge
    obtain ⟨hmem, rfl, hsource⟩ := hedge
    exact ⟨edge.1, ⟨hinside edge hmem, hsource⟩, hmem⟩
  obtain ⟨path, hlength, hchain, hpath⟩ := exists_chain ⟨hnode, hnew⟩ hback (bound + 1)
  have hle := hbound path hchain fun node hnode => (hpath node hnode).1
  omega

theorem ordered_start (hinside : ∀ edge ∈ edges, edge.1 ∈ nodes) {bound : Nat}
    (hbound : ∀ path : List Nat, (path.IsChain fun a b => (a, b) ∈ edges) →
      (∀ node ∈ path, node ∈ nodes) → path.length ≤ bound) :
    Ordered edges nodes (start edges nodes) := by
  have hdegree : ∀ node, M1nd.Core.inDegree edges node =
      edges.countP fun edge => edge.2 = node ∧ edge.1 ∉ ([] : List Nat) := by
    intro node
    rw [M1nd.Core.inDegree, List.count, List.countP_map]
    exact List.countP_congr fun edge _ => by simp
  have hroots : ∀ node, node ∈ dagRoots edges nodes ↔
      node ∈ nodes ∧ M1nd.Core.inDegree edges node = 0 := by
    intro node
    unfold dagRoots
    dsimp only
    split
    · rename_i hnone
      have hall : ∀ node ∈ nodes, M1nd.Core.inDegree edges node ≠ 0 := by
        simpa [List.isEmpty_iff] using hnone
      have hnodes : ¬ node ∈ nodes := by
        intro hnode
        have hback : ∀ node, node ∈ nodes → ∃ before, before ∈ nodes ∧ (before, node) ∈ edges := by
          intro node hnode
          have hpos := hall node hnode
          rw [M1nd.Core.inDegree, Ne, List.count_eq_zero, not_not, List.mem_map] at hpos
          obtain ⟨edge, hedge, rfl⟩ := hpos
          exact ⟨edge.1, hinside edge hedge, hedge⟩
        obtain ⟨path, hlength, hchain, hpath⟩ := exists_chain hnode hback (bound + 1)
        have hle := hbound path hchain hpath
        omega
      rw [List.mem_filter]
      simp only [hnodes, false_and]
    · rw [List.mem_filter, decide_eq_true_eq]
  have hget : ∀ node, (start edges nodes).get node = 0 := by
    intro node
    unfold get start
    dsimp only
    split <;> rfl
  refine ⟨hdegree, ?_, ?_, fun _ _ hmem => absurd hmem List.not_mem_nil, ?_⟩
  · exact fun node hnode hzero => .inl ((hroots node).mpr ⟨hnode, hzero⟩)
  · intro node hmem
    obtain hmem | hmem := hmem
    · exact ((hroots node).mp hmem).2
    · exact absurd hmem List.not_mem_nil
  · intro node hpos
    rw [hget] at hpos
    omega

end Depths

section Layers

variable {candidates : List Nat} {hashOrder : List Nat → List Nat} {depth : Nat → Nat} {bound : Nat}

theorem effective_nil (node : Nat) : effective [] node = node := by
  simp [effective, sccMap]

-- Depths that a longest path to each node has.
structure Deepens (edges : List (Nat × Nat)) (depth : Nat → Nat) : Prop where
  deeper : ∀ edge ∈ edges, depth edge.1 < depth edge.2
  supported : ∀ node, 0 < depth node → ∃ before, (before, node) ∈ edges ∧
    depth node = depth before + 1

theorem layerDepths_deepens (hperm : ∀ nodes, (hashOrder nodes).Perm nodes) (hedges : edges.Nodup)
    (hinside : ∀ edge ∈ edges, edge.1 ∈ candidates)
    (hbound : ∀ path : List Nat, (path.IsChain fun a b => (a, b) ∈ edges) →
      (∀ node ∈ path, node ∈ candidates) → path.length ≤ bound)
    (hdepth : layerDepths hashOrder edges candidates [] = some depth) : Deepens edges depth := by
  obtain ⟨last, hrun, hdepth⟩ := Option.bind_eq_some_iff.mp hdepth
  obtain rfl := Option.some.inj hdepth
  have hnodes : ∀ node, node ∈ (candidates.map (effective [])).eraseDups ↔ node ∈ candidates := by
    intro node
    simp [effective_nil]
  generalize (candidates.map (effective [])).eraseDups = nodes at hrun hnodes
  simp only [← hnodes] at hinside hbound
  obtain ⟨hordered, hempty⟩ := (Depths.ordered_start hinside hbound).assign hedges
    (fun _ _ => mem_dagAdj hperm) (nodup_dagAdj hperm) hrun
  have hvisits := hordered.visits hempty hinside hbound
  constructor
  · intro edge hedge
    simp only [effective_nil]
    exact hordered.deeper edge hedge (hvisits _ (hinside edge hedge))
  · intro node hpos
    simp only [effective_nil] at hpos ⊢
    obtain ⟨before, -, hedge, heq⟩ := hordered.supported node hpos
    exact ⟨before, hedge, heq⟩

-- A depth is met by a path, so that there are as many nodes on it.
theorem Deepens.lt_bound (h : Deepens edges depth) (hinside : ∀ edge ∈ edges, edge.1 ∈ candidates)
    (hbound : ∀ path : List Nat, (path.IsChain fun a b => (a, b) ∈ edges) →
      (∀ node ∈ path, node ∈ candidates) → path.length ≤ bound) :
    ∀ node ∈ candidates, depth node < bound := by
  have hpath : ∀ d node, node ∈ candidates → depth node = d → ∃ path : List Nat,
      (path.IsChain fun a b => (a, b) ∈ edges) ∧ (∀ node ∈ path, node ∈ candidates) ∧
        path.length = d ∧ ∀ last ∈ path.getLast?, (last, node) ∈ edges := by
    intro d
    induction d with
    | zero =>
        intro node _ _
        exact ⟨[], .nil, fun _ hmem => absurd hmem List.not_mem_nil, rfl, by simp⟩
    | succ d ih =>
        intro node _ hd
        obtain ⟨before, hedge, heq⟩ := h.supported node (by omega)
        have hbefore := hinside _ hedge
        obtain ⟨path, hchain, hpath, hlength, hlast⟩ := ih before hbefore (by omega)
        refine ⟨path ++ [before], ?_, ?_, by simp [hlength], by simpa using hedge⟩
        · rw [List.isChain_append]
          refine ⟨hchain, .singleton _, fun last hmem other hother => ?_⟩
          rw [List.head?_cons, Option.mem_some_iff] at hother
          exact hother ▸ hlast last hmem
        · intro other hother
          obtain hother | hother := List.mem_append.mp hother
          · exact hpath other hother
          · exact List.mem_singleton.mp hother ▸ hbefore
  intro node hnode
  obtain ⟨path, hchain, hpath, hlength, hlast⟩ := hpath _ node hnode rfl
  have hle := hbound (path ++ [node]) ?_ ?_
  · rw [List.length_append, List.length_singleton] at hle
    omega
  · rw [List.isChain_append]
    refine ⟨hchain, .singleton _, fun last hmem other hother => ?_⟩
    rw [List.head?_cons, Option.mem_some_iff] at hother
    exact hother ▸ hlast last hmem
  · intro other hother
    obtain hother | hother := List.mem_append.mp hother
    · exact hpath other hother
    · exact List.mem_singleton.mp hother ▸ hnode

-- No depth is left out below another one.
theorem Deepens.exists_depth (h : Deepens edges depth)
    (hinside : ∀ edge ∈ edges, edge.1 ∈ candidates) {d : Nat} {node : Nat}
    (hnode : node ∈ candidates) (hle : d ≤ depth node) : ∃ other ∈ candidates, depth other = d := by
  obtain ⟨k, hk⟩ := Nat.exists_eq_add_of_le hle
  induction k generalizing node with
  | zero => exact ⟨node, hnode, hk⟩
  | succ k ih =>
      obtain ⟨before, hedge, heq⟩ := h.supported node (by omega)
      exact ih (show before ∈ candidates from hinside _ hedge) (by omega) (by omega)

variable {F : Type} [LayerF32 F]

omit [LayerF32 F] in
theorem pruneLayers_eq (minNodes fuel i : Nat) {groups : List (List Nat)}
    (hgroups : ∀ group ∈ groups, minNodes ≤ group.length) :
    pruneLayers minNodes fuel i groups = groups := by
  induction fuel generalizing i with
  | zero => rfl
  | succ fuel ih =>
      unfold pruneLayers
      split
      case isTrue => rfl
      case isFalse hi =>
        rw [Nat.not_le] at hi
        have hlarge := hgroups _ (List.getElem_mem hi)
        rw [List.getD_eq_getElem?_getD, List.getElem?_eq_getElem hi, Option.getD_some,
          if_neg fun hsmall => absurd hsmall.1 (Nat.not_lt.mpr hlarge)]
        exact ih (i + 1)

theorem limitLayers_eq (pagerank : Nat → F) {maxLayers : Nat} (fuel : Nat) {groups : List (List Nat)}
    (hfew : groups.length ≤ maxLayers) : limitLayers pagerank maxLayers fuel groups = groups := by
  cases fuel with
  | zero => rfl
  | succ fuel =>
      unfold limitLayers
      exact if_neg fun hmany => absurd hmany.1 (Nat.not_lt.mpr hfew)

-- Where there is room for the depths, they are the groups.
theorem Deepens.layerGroups_eq (h : Deepens edges depth)
    (hinside : ∀ edge ∈ edges, edge.1 ∈ candidates) (hne : candidates ≠ [])
    {detector : LayerDetector} (hsmall : detector.minNodesPerLayer ≤ 1)
    (hbound : ∀ path : List Nat, (path.IsChain fun a b => (a, b) ∈ edges) →
      (∀ node ∈ path, node ∈ candidates) → path.length ≤ detector.maxLayers.toNat)
    (pagerank : Nat → F) :
    layerGroups detector pagerank candidates depth = depthGroups candidates depth := by
  obtain ⟨deepest, hmax⟩ := Option.isSome_iff_exists.mp
    (List.isSome_max?_of_mem (List.mem_map_of_mem (List.getLast_mem hne) (f := depth)))
  obtain ⟨node, hnode, heq⟩ := List.mem_map.mp (List.max?_mem hmax)
  have hlt := h.lt_bound hinside hbound node hnode
  have hfew : (depthGroups candidates depth).length ≤ detector.maxLayers.toNat := by
    rw [depthGroups, List.length_map, List.length_range, hmax, Option.getD_some]
    omega
  have hlarge : ∀ group ∈ depthGroups candidates depth,
      detector.minNodesPerLayer ≤ group.length := by
    intro group hgroup
    rw [depthGroups, hmax, Option.getD_some, List.mem_map] at hgroup
    obtain ⟨d, hd, rfl⟩ := hgroup
    rw [List.mem_range] at hd
    obtain ⟨other, hother, hdepth⟩ := h.exists_depth hinside hnode (show d ≤ depth node by omega)
    have hmem : other ∈ candidates.filter fun node => depth node = d :=
      List.mem_filter.mpr ⟨hother, decide_eq_true hdepth⟩
    exact hsmall.trans (List.length_pos_of_mem hmem)
  unfold layerGroups
  dsimp only
  rw [limitLayers_eq pagerank _ hfew, pruneLayers_eq _ _ _ hlarge]

end Layers

end M1nd.Core
