import M1nd.Core.Plasticity.Export
import M1nd.Core.Temporal.State

namespace M1nd.Core

variable {W F T : Type} [Zero W] [FiniteF32 W F] [Float32 F] [CoChangeF32 W F]
  {graph : Graph W T} {matrix next : CoChangeMatrix W} {source target budget count : Nat}

namespace CoChangeMatrix

section Steps

theorem Tracked.recorded (h : matrix.Tracked graph) (hnext : matrix.Recorded source target next) :
    next.Tracked graph := by
  have hcounted := h.counted.recorded hnext
  cases hnext with
  | refused => exact h
  | strengthened => exact ⟨hcounted, List.length_set.trans h.rows, h.nodeCounts, fun _ _ _ _ _ => rfl⟩
  | replaced => exact ⟨hcounted, List.length_set.trans h.rows, h.nodeCounts, fun _ _ _ _ _ => rfl⟩
  | pushed => exact ⟨hcounted, List.length_set.trans h.rows, h.nodeCounts, fun _ _ _ _ _ => rfl⟩

omit [Zero W] [FiniteF32 W F] [Float32 F] [CoChangeF32 W F] in
theorem Tracked.noteNodeAppearance (h : matrix.Tracked graph) (node : Nat) :
    (matrix.noteNodeAppearance node).Tracked graph :=
  ⟨⟨h.counted.rows, h.counted.totalEntries⟩, h.rows,
    (List.length_modify _ _ _).trans h.nodeCounts, h.learned⟩

theorem Tracked.apply (h : matrix.Tracked graph) (event : CoChangeEvent) :
    (event.apply graph matrix).Tracked graph := by
  cases event with
  | noteNodeAppearance node => exact h.noteNodeAppearance node
  | recordCoChange source target => exact h.recorded (matrix.recorded source target)
  | populateFromCommitGroups commitGroups =>
      exact populate_keeps (fun matrix => matrix.Tracked graph) commitGroups
        (fun _ node h => h.noteNodeAppearance node)
        (fun matrix _ _ source _ target _ h => h.recorded (matrix.recorded source target)) h

omit [Zero W] in
theorem tracked_seeded (hcount : count ≤ graph.nodes.count) :
    (seeded graph budget count).Tracked graph where
  counted := counted_seeded graph budget count
  rows := length_seedRows hcount
  nodeCounts := List.length_replicate
  learned row hrow entry hentry hpos := by
    obtain hseed | hempty := List.mem_append.mp hrow
    · obtain ⟨start, -, rfl⟩ := List.mem_map.mp hseed
      rw [(mem_seedRow hentry).2] at hpos
      exact absurd hpos (Nat.lt_irrefl 0)
    · obtain rfl := List.eq_of_mem_replicate hempty
      exact absurd hentry List.not_mem_nil

end Steps

section Entries

omit [Zero W] [CoChangeF32 W F] in
theorem Portable.setRow (h : matrix.Portable graph) {changed : List (CoChangeEntry W)}
    (hchanged : ∀ entry ∈ changed, entry.target < graph.nodes.count ∧ InUnit entry.strength) :
    ∀ row ∈ matrix.rows.set source changed, ∀ entry ∈ row,
      entry.target < graph.nodes.count ∧ InUnit entry.strength := by
  intro row hrow
  obtain hmem | rfl := List.mem_or_eq_of_mem_set hrow
  · exact h row hmem
  · exact hchanged

omit [CoChangeF32 W F] in
-- A record adds no target but its own, and nothing where there is no room.
theorem Portable.recorded (h : matrix.Portable graph) (hzero : InUnit (0 : W))
    (hinside : source < matrix.rows.length → matrix.totalEntries < matrix.budget →
      target < graph.nodes.count)
    (hnext : matrix.Recorded source target next) : next.Portable graph := by
  have hsource {row : List (CoChangeEntry W)} (hrow : matrix.rows[source]? = some row) :
      source < matrix.rows.length :=
    (List.getElem?_eq_some_iff.mp hrow).1
  cases hnext with
  | refused => exact h
  | strengthened hrow hold i =>
      refine h.setRow fun entry hentry => ?_
      obtain ⟨j, hj⟩ := List.mem_iff_getElem?.mp hentry
      rw [List.getElem?_modify] at hj
      obtain ⟨old, hget, rfl⟩ := Option.map_eq_some_iff.mp hj
      have hported := h _ (List.mem_of_getElem? hrow) old (List.mem_of_getElem? hget)
      split <;> exact hported
  | replaced hrow hnew hbudget i hi =>
      refine h.setRow fun entry hentry => ?_
      obtain hmem | rfl := List.mem_or_eq_of_mem_set hentry
      · exact h _ (List.mem_of_getElem? hrow) entry hmem
      · exact ⟨hinside (hsource hrow) hbudget, hzero⟩
  | pushed hrow hnew hbudget hroom =>
      refine h.setRow fun entry hentry => ?_
      obtain hmem | hlast := List.mem_append.mp hentry
      · exact h _ (List.mem_of_getElem? hrow) entry hmem
      · obtain rfl := List.mem_singleton.mp hlast
        exact ⟨hinside (hsource hrow) hbudget, hzero⟩

omit [CoChangeF32 W F] in
-- Where there is room, the target of a record becomes that of an entry.
theorem Portable.inside (h : matrix.Portable graph) (hnext : matrix.Recorded source target next)
    (hportable : next.Portable graph) (hsource : source < matrix.rows.length)
    (hroom : matrix.totalEntries < matrix.budget) : target < graph.nodes.count := by
  cases hnext with
  | refused hfull => omega
  | strengthened hrow hold =>
      obtain ⟨entry, hentry, rfl⟩ := List.mem_map.mp hold
      exact (h _ (List.mem_of_getElem? hrow) entry hentry).1
  | replaced hrow hnew hbudget i hi =>
      exact (hportable _ (List.mem_set hsource _) _ (List.mem_set hi _)).1
  | pushed hrow hnew hbudget hroom =>
      have hlast := hportable _ (List.mem_set hsource _) ⟨target, 0, 1⟩
        (List.mem_append_right _ (List.mem_singleton_self _))
      exact hlast.1

omit [Zero W] in
-- The seeds of the origins that are reached.
theorem portable_seeded_iff (hcount : count ≤ graph.nodes.count)
    (hbelow : ∀ start < count, seedTotal graph start < budget)
    (hstop : count = graph.nodes.count ∨ budget ≤ seedTotal graph count) :
    (seeded graph budget count).Portable graph ↔
      ∀ start < graph.nodes.count, seedTotal graph start < budget →
        ∀ entry ∈ seedRow graph start, InUnit entry.strength := by
  constructor
  · intro h start hstart hlt entry hentry
    have hreached : start < count := by
      by_contra hafter
      obtain rfl | hused := hstop
      · exact hafter hstart
      · have hmore := monotone_seedTotal graph (Nat.not_lt.mp hafter)
        omega
    have hrow : seedRow graph start ∈ (seeded graph budget count).rows :=
      List.mem_append_left _ (List.mem_map_of_mem (List.mem_range.mpr hreached))
    exact (h _ hrow entry hentry).2
  · intro h row hrow entry hentry
    obtain hseed | hempty := List.mem_append.mp hrow
    · obtain ⟨start, hstart, rfl⟩ := List.mem_map.mp hseed
      have hreached := List.mem_range.mp hstart
      exact ⟨(mem_seedRow hentry).1,
        h start (Nat.lt_of_lt_of_le hreached hcount) (hbelow start hreached) entry hentry⟩
    · obtain rfl := List.eq_of_mem_replicate hempty
      exact absurd hentry List.not_mem_nil

end Entries

section Runs

-- The matrix of a graph after a history of changes.
def after (graph : Graph W T) (budget : Nat) (events : List CoChangeEvent) :
    Option (CoChangeMatrix W) :=
  (bootstrap graph budget).map fun matrix => events.foldl (CoChangeEvent.apply graph) matrix

end Runs

end CoChangeMatrix

-- A recorded change that there is room for is one of a node of the graph.
def CoChangeEvent.Inside (graph : Graph W T) (matrix : CoChangeMatrix W) : CoChangeEvent → Prop
  | recordCoChange source target =>
      source < graph.nodes.count → matrix.totalEntries < matrix.budget →
        target < graph.nodes.count
  | _ => True

namespace CoChangeMatrix

-- What a round trip asks of a graph, a budget and a history.
structure Persistable (graph : Graph W T) (budget : Nat) (events : List CoChangeEvent) :
    Prop where
  named : graph.resolveId "" = none
  positive : 0 < budget
  fits : SeedsFit graph budget
  seeds : ∀ start < graph.nodes.count, seedTotal graph start < budget →
    ∀ entry ∈ seedRow graph start, InUnit entry.strength
  inside : ∀ k event, events[k]? = some event → ∀ matrix,
    after graph budget (events.take k) = some matrix → event.Inside graph matrix

omit [Zero W] [FiniteF32 W F] [Float32 F] [CoChangeF32 W F] in
theorem mem_commitNodes_lt (hgraph : graph.Registered) {group : List String} {node : Nat}
    (hnode : node ∈ commitNodes graph group) : node < graph.nodes.count := by
  have hsorted := (List.destutter_sublist _ _).subset hnode
  obtain ⟨path, -, hpath⟩ := List.mem_filterMap.mp ((List.mem_insertionSort _).mp hsorted)
  obtain ⟨handle, -, hknown⟩ := hgraph.resolveId_iff.mp hpath
  exact (hgraph.known handle node hknown).1

theorem Portable.apply (hgraph : graph.Registered) (htracked : matrix.Tracked graph)
    (h : matrix.Portable graph) (hzero : InUnit (0 : W)) {event : CoChangeEvent}
    (hinside : event.Inside graph matrix) : (event.apply graph matrix).Portable graph := by
  cases event with
  | noteNodeAppearance node => exact h
  | recordCoChange source target =>
      exact h.recorded hzero (fun hsource => hinside (htracked.rows ▸ hsource))
        (matrix.recorded source target)
  | populateFromCommitGroups commitGroups =>
      refine populate_keeps (fun matrix => matrix.Portable graph) commitGroups (fun _ _ h => h)
        (fun matrix group _ source _ target htarget h => ?_) h
      exact h.recorded hzero (fun _ _ => mem_commitNodes_lt hgraph htarget)
        (matrix.recorded source target)

-- The state that a run keeps, as long as the recorded changes are inside the graph.
structure Held (matrix : CoChangeMatrix W) (graph : Graph W T) : Prop where
  tracked : matrix.Tracked graph
  portable : matrix.Portable graph
  positive : 0 < matrix.budget
  totalEntries : matrix.totalEntries ≤ matrix.budget

theorem budget_apply (graph : Graph W T) (matrix : CoChangeMatrix W) (event : CoChangeEvent) :
    (event.apply graph matrix).budget = matrix.budget := by
  cases event with
  | noteNodeAppearance node => rfl
  | recordCoChange source target => exact (matrix.recorded source target).budget
  | populateFromCommitGroups commitGroups =>
      exact populate_keeps (fun next => next.budget = matrix.budget) commitGroups (fun _ _ h => h)
        (fun next _ _ source _ target _ h => (next.recorded source target).budget.trans h) rfl

theorem Held.apply (hgraph : graph.Registered) (h : matrix.Held graph) (hzero : InUnit (0 : W))
    {event : CoChangeEvent} (hinside : event.Inside graph matrix) :
    (event.apply graph matrix).Held graph where
  tracked := h.tracked.apply event
  portable := h.portable.apply hgraph h.tracked hzero hinside
  positive := by
    rw [budget_apply]
    exact h.positive
  totalEntries := totalEntries_le_apply h.totalEntries event

omit [Zero W] [CoChangeF32 W F] in
theorem Held.persists (hgraph : graph.Registered) (hnamed : graph.resolveId "" = none)
    (h : matrix.Held graph) [ToString F] (digest : CoChangeMatrixDigestView F → String) :
    matrix.Persists digest graph :=
  (persists_iff hgraph h.tracked).mpr ⟨hnamed, h.positive, h.totalEntries, h.portable⟩

theorem tracked_after {graphOps : List (GraphOp W T)} {events : List CoChangeEvent}
    (hmatrix : after (GraphOp.run graphOps) budget events = some matrix) :
    matrix.Tracked (GraphOp.run graphOps) := by
  obtain ⟨first, hfirst, rfl⟩ := Option.map_eq_some_iff.mp hmatrix
  obtain ⟨count, hcount, -, -, heq⟩ := bootstrap_eq (GraphOp.listed_run graphOps) budget
  obtain rfl := Option.some.inj (heq.symm.trans hfirst)
  exact List.foldlRecOn (motive := fun matrix : CoChangeMatrix W =>
    matrix.Tracked (GraphOp.run graphOps)) events _ (tracked_seeded hcount)
    fun _ h event _ => h.apply event

theorem budget_after {graphOps : List (GraphOp W T)} {events : List CoChangeEvent}
    (hmatrix : after (GraphOp.run graphOps) budget events = some matrix) :
    matrix.budget = budget := by
  obtain ⟨first, hfirst, rfl⟩ := Option.map_eq_some_iff.mp hmatrix
  obtain ⟨count, -, -, -, heq⟩ := bootstrap_eq (GraphOp.listed_run graphOps) budget
  obtain rfl := Option.some.inj (heq.symm.trans hfirst)
  exact List.foldlRecOn (motive := fun matrix : CoChangeMatrix W => matrix.budget = budget) events
    _ rfl fun matrix h event _ => (budget_apply _ matrix event).trans h

theorem after_concat {events : List CoChangeEvent} (hmatrix : after graph budget events = some matrix)
    (event : CoChangeEvent) :
    after graph budget (events ++ [event]) = some (event.apply graph matrix) := by
  obtain ⟨first, hfirst, rfl⟩ := Option.map_eq_some_iff.mp hmatrix
  rw [after, hfirst, Option.map_some, List.foldl_append]
  rfl

theorem exists_held {graphOps : List (GraphOp W T)} (hzero : InUnit (0 : W))
    {events : List CoChangeEvent} (h : Persistable (GraphOp.run graphOps) budget events) (k : Nat) :
    ∃ matrix, after (GraphOp.run graphOps) budget (events.take k) = some matrix ∧
      matrix.Held (GraphOp.run graphOps) := by
  have hgraph := (GraphOp.coherent_run F graphOps).registered
  induction k with
  | zero =>
      obtain ⟨count, hcount, hbelow, hstop, heq⟩ :=
        bootstrap_eq (GraphOp.listed_run graphOps) budget
      refine ⟨_, by rw [after, heq]; rfl, tracked_seeded hcount, ?_, h.positive, ?_⟩
      · exact (portable_seeded_iff hcount hbelow hstop).mpr h.seeds
      · exact (seeded_le_iff hcount hbelow hstop).mpr h.fits
  | succ k ih =>
      obtain ⟨matrix, hmatrix, hheld⟩ := ih
      rw [List.take_add_one]
      cases hevent : events[k]? with
      | none => exact ⟨matrix, by rwa [Option.toList_none, List.append_nil], hheld⟩
      | some event =>
          have hinside := h.inside k event hevent matrix hmatrix
          exact ⟨_, after_concat hmatrix event, hheld.apply hgraph hzero hinside⟩

-- Every state of a history comes back from its export, if and only if the external ids are not
-- empty, the budget is not zero, the seeds fit into it and have strengths between zero and one,
-- and the recorded changes are inside the graph.
theorem persists_after_iff [ToString F] (hzero : InUnit (0 : W))
    (digest : CoChangeMatrixDigestView F → String) (graphOps : List (GraphOp W T)) (budget : Nat)
    (events : List CoChangeEvent) :
    (∀ k, ∃ matrix, after (GraphOp.run graphOps) budget (events.take k) = some matrix ∧
      matrix.Persists digest (GraphOp.run graphOps)) ↔
      Persistable (GraphOp.run graphOps) budget events := by
  have hgraph := (GraphOp.coherent_run F graphOps).registered
  constructor
  · intro h
    have hportable (k : Nat) (matrix : CoChangeMatrix W)
        (hmatrix : after (GraphOp.run graphOps) budget (events.take k) = some matrix) :
        matrix.Portable (GraphOp.run graphOps) := by
      obtain ⟨same, hsame, hpersists⟩ := h k
      obtain rfl := Option.some.inj (hsame.symm.trans hmatrix)
      exact ((persists_iff hgraph (tracked_after hmatrix)).mp hpersists).2.2.2
    obtain ⟨first, hfirst, hpersists⟩ := h 0
    obtain ⟨hnamed, hpos, hle, hseeds⟩ :=
      (persists_iff hgraph (tracked_after hfirst)).mp hpersists
    obtain ⟨count, hcount, hbelow, hstop, heq⟩ :=
      bootstrap_eq (GraphOp.listed_run graphOps) budget
    rw [after, heq, Option.map_some] at hfirst
    obtain rfl := Option.some.inj hfirst
    refine ⟨hnamed, hpos, (seeded_le_iff hcount hbelow hstop).mp hle,
      (portable_seeded_iff hcount hbelow hstop).mp hseeds, ?_⟩
    intro k event hevent matrix hmatrix
    cases event with
    | noteNodeAppearance node => trivial
    | populateFromCommitGroups commitGroups => trivial
    | recordCoChange source target =>
        intro hsource hroom
        have hnext := after_concat hmatrix (.recordCoChange source target)
        rw [← Option.toList_some, ← hevent, ← List.take_add_one] at hnext
        rw [← (tracked_after hmatrix).rows] at hsource
        exact (hportable k matrix hmatrix).inside (matrix.recorded source target)
          (hportable (k + 1) _ hnext) hsource hroom
  · intro h k
    obtain ⟨matrix, hmatrix, hheld⟩ := exists_held hzero h k
    exact ⟨matrix, hmatrix, hheld.persists hgraph h.named digest⟩

end CoChangeMatrix

section Refused

-- Two nodes and an edge between them.
def GraphOp.couple : List (GraphOp Rat Nat) :=
  [.addNode "a" "a" .File [] 0 0, .addNode "b" "b" .File [] 0 0,
    .addEdge 0 1 "calls" (1 / 2) .Forward false 0, .finalize]

theorem CoChangeMatrix.persists_after_couple :
    ∃ matrix, after (GraphOp.run GraphOp.couple) 5
        [.recordCoChange 0 1, .recordCoChange 1 0] = some matrix ∧
      matrix.Persists (fun _ => "digest") (GraphOp.run GraphOp.couple) := by
  refine (persists_after_iff (by decide +kernel) (fun _ => "digest") GraphOp.couple 5
    [.recordCoChange 0 1, .recordCoChange 1 0]).mpr ⟨?_, by decide, ?_, ?_, ?_⟩ 2
  · decide +kernel
  · unfold SeedsFit
    decide +kernel
  · decide +kernel
  · intro k event hevent matrix _
    have hmem := List.mem_of_getElem? hevent
    simp only [List.mem_cons, List.not_mem_nil, or_false] at hmem
    obtain rfl | rfl := hmem
    · exact fun _ _ => (by decide +kernel : 1 < (GraphOp.run GraphOp.couple).nodes.count)
    · exact fun _ _ => (by decide +kernel : 0 < (GraphOp.run GraphOp.couple).nodes.count)

-- The bootstrap exceeds its budget, and the import of its state refuses it.
theorem CoChangeMatrix.overshoot_refused :
    ¬ ∀ (graphOps : List (GraphOp Rat Nat)) (budget : Nat) (events : List CoChangeEvent)
      (matrix : CoChangeMatrix Rat), after (GraphOp.run graphOps) budget events = some matrix →
      matrix.Persists (fun _ => "digest") (GraphOp.run graphOps) := by
  intro h
  obtain ⟨matrix, hmatrix, htotal⟩ := Option.map_eq_some_iff.mp GraphOp.fork_seeds
  have hafter : after (GraphOp.run (GraphOp.fork ++ [.finalize])) 1 [] = some matrix := by
    rw [after, hmatrix]
    rfl
  have hgraph := (GraphOp.coherent_run Rat (GraphOp.fork ++ [.finalize])).registered
  have hpersists := h _ 1 [] matrix hafter
  obtain ⟨-, -, hle, -⟩ := (persists_iff hgraph (tracked_after hafter)).mp hpersists
  rw [htotal, budget_after hafter] at hle
  exact absurd hle (by decide)

end Refused

end M1nd.Core
