import M1nd.Core.Snapshot.Nodes
import M1nd.Core.Temporal.Runs

namespace M1nd.Core

open M1nd.Library.Checks

def CO_CHANGE_STATE_SCHEMA : String := "m1nd-co-change-state-v1"

def CO_CHANGE_STATE_VERSION : Nat := 1

structure CoChangeEntryStateV1 (F : Type) where
  targetExternalId : String
  strength : F
  coCount : Nat

-- What the digest of a state covers.
structure CoChangeMatrixDigestView (F : Type) where
  schema : String
  version : Nat
  nodeExternalIds : List String
  rows : List (List (CoChangeEntryStateV1 F))
  nodeCounts : List Nat
  totalEntries : Nat
  budget : Nat
  isLearned : Bool

structure CoChangeMatrixStateV1 (F : Type) extends CoChangeMatrixDigestView F where
  stateDigest : String

variable {W F T : Type} [FiniteF32 W F] [Float32 F] [ToString F]

def bindExternalId (graph : Graph W T) (externalIds : List String) (entry : Nat × Nat) :
    Except TemporalError (List String) :=
  if externalIds.length ≤ entry.2 then
    .error (.CorruptState s!"graph external-id index {entry.2} is outside node storage")
  else
    match graph.strings.tryResolve entry.1 with
    | some externalId => .ok (externalIds.set entry.2 externalId)
    | none => .error .Panicked

def graphExternalIds (graph : Graph W T) : Except TemporalError (List String) := do
  let externalIds ← graph.idToNode.toList.foldlM (bindExternalId graph)
    (List.replicate graph.numNodes "")
  match externalIds.findIdx? String.isEmpty with
  | some index => .error (.CorruptState s!"graph node {index} has no external-id binding")
  | none => .ok externalIds

namespace CoChangeMatrix

section Export

def exportEntry (nodeExternalIds : List String) (entry : CoChangeEntry W) :
    Except TemporalError (CoChangeEntryStateV1 F) :=
  match nodeExternalIds[entry.target]?.filter fun value => !value.isEmpty with
  | none =>
      .error (.CorruptState s!"co-change target NodeId({entry.target}) is outside the graph")
  | some targetExternalId =>
      .ok {
        targetExternalId := targetExternalId
        strength := FiniteF32.get entry.strength
        coCount := entry.coCount }

-- The digest is the SHA-256 of the view as JSON.
def exportState (digest : CoChangeMatrixDigestView F → String) (graph : Graph W T)
    (matrix : CoChangeMatrix W) : Except TemporalError (CoChangeMatrixStateV1 F) := do
  let nodeExternalIds ← graphExternalIds graph
  rejectIf (matrix.rows.length ≠ nodeExternalIds.length ∨
      matrix.nodeCounts.length ≠ nodeExternalIds.length)
    (.CorruptState (s!"co-change matrix/graph size mismatch: rows={matrix.rows.length}, " ++
      s!"counts={matrix.nodeCounts.length}, graph_nodes={nodeExternalIds.length}"))
  let rows ← matrix.rows.mapM fun row => row.mapM (exportEntry nodeExternalIds)
  let view : CoChangeMatrixDigestView F := {
    schema := CO_CHANGE_STATE_SCHEMA
    version := CO_CHANGE_STATE_VERSION
    nodeExternalIds := nodeExternalIds
    rows := rows
    nodeCounts := matrix.nodeCounts
    totalEntries := matrix.totalEntries
    budget := matrix.budget
    isLearned := matrix.isLearned }
  .ok { view with stateDigest := digest view }

end Export

section Restore

-- The targets of the row so far are those that are seen.
def restoreEntry (graph : Graph W T) (sourceIdx : Nat) (state : List (CoChangeEntry W) × Bool)
    (entry : CoChangeEntryStateV1 F) : Except TemporalError (List (CoChangeEntry W) × Bool) := do
  rejectIf (FiniteF32.isFinite W entry.strength = false ∨
      ¬ (Float32.le 0 entry.strength = true ∧ Float32.le entry.strength 1 = true))
    (.CorruptState s!"co-change row {sourceIdx} has invalid strength {entry.strength}")
  match graph.resolveId entry.targetExternalId with
  | none =>
      .error (.SchemaDrift
        s!"co-change target '{entry.targetExternalId}' is absent from the loaded graph")
  | some target => do
      rejectIf (target ∈ state.1.map CoChangeEntry.target)
        (.CorruptState s!"co-change row {sourceIdx} repeats target '{entry.targetExternalId}'")
      .ok (state.1 ++ [⟨target, FiniteF32.new entry.strength, entry.coCount⟩],
        state.2 || decide (0 < entry.coCount))

-- The rows so far, the number of their entries, and whether one of them is learned.
structure Restoring (W : Type) where
  rows : List (List (CoChangeEntry W))
  computedTotal : Nat
  anyLearned : Bool

-- A row has at most 100 entries, so that the total does not saturate.
def restoreRow (graph : Graph W T) (state : Restoring W)
    (persisted : List (CoChangeEntryStateV1 F) × Nat) : Except TemporalError (Restoring W) := do
  rejectIf (CO_CHANGE_MAX_ROW < persisted.1.length)
    (.CorruptState (s!"co-change row {persisted.2} exceeds max entries: " ++
      s!"{persisted.1.length} > {CO_CHANGE_MAX_ROW}"))
  let (row, anyLearned) ←
    persisted.1.foldlM (restoreEntry graph persisted.2) ([], state.anyLearned)
  .ok {
    rows := state.rows ++ [row]
    computedTotal := state.computedTotal + row.length
    anyLearned := anyLearned }

def fromState (digest : CoChangeMatrixDigestView F → String) (graph : Graph W T)
    (state : CoChangeMatrixStateV1 F) : Except TemporalError (CoChangeMatrix W) := do
  rejectIf (state.schema ≠ CO_CHANGE_STATE_SCHEMA ∨ state.version ≠ CO_CHANGE_STATE_VERSION)
    (.CorruptState (s!"unsupported co-change state schema/version: schema={state.schema}, " ++
      s!"version={state.version}"))
  let actualDigest := digest state.toCoChangeMatrixDigestView
  rejectIf (state.stateDigest ≠ actualDigest)
    (.CorruptState (s!"co-change state digest mismatch: declared={state.stateDigest}, " ++
      s!"actual={actualDigest}"))
  let expectedExternalIds ← graphExternalIds graph
  rejectIf (state.nodeExternalIds ≠ expectedExternalIds)
    (.SchemaDrift "co-change state graph binding differs from the loaded graph")
  let nodeCount := expectedExternalIds.length
  rejectIf (state.rows.length ≠ nodeCount ∨ state.nodeCounts.length ≠ nodeCount)
    (.CorruptState (s!"co-change state dimensions are invalid: rows={state.rows.length}, " ++
      s!"counts={state.nodeCounts.length}, nodes={nodeCount}"))
  rejectIf (state.budget = 0 ∨ state.budget < state.totalEntries)
    (.CorruptState (s!"co-change state budget invalid: entries={state.totalEntries}, " ++
      s!"budget={state.budget}"))
  let restored ← state.rows.zipIdx.foldlM (restoreRow graph) ⟨[], 0, false⟩
  rejectIf (restored.computedTotal ≠ state.totalEntries)
    (.CorruptState (s!"co-change entry count mismatch: declared={state.totalEntries}, " ++
      s!"actual={restored.computedTotal}"))
  rejectIf (restored.anyLearned = true ∧ state.isLearned = false)
    (.CorruptState "co-change state contains learned observations but is_learned=false")
  .ok {
    rows := restored.rows
    nodeCounts := state.nodeCounts
    totalEntries := state.totalEntries
    budget := state.budget
    isLearned := state.isLearned }

end Restore

end CoChangeMatrix

end M1nd.Core

namespace M1nd.Core

open M1nd.Library.Checks
open M1nd.Library.Loops

variable {W F T : Type} {graph : Graph W T} {ids : List String}

section Binding

-- The ids name the nodes in their order, and none of them is empty.
structure Graph.Binds (graph : Graph W T) (ids : List String) : Prop where
  length : ids.length = graph.nodes.count
  resolveId : ∀ s i, ids[i]? = some s ↔ graph.resolveId s = some i
  named : ∀ s ∈ ids, s ≠ ""

theorem Graph.Binds.resolveId_empty (h : graph.Binds ids) : graph.resolveId "" = none := by
  by_contra hne
  obtain ⟨i, hi⟩ := Option.ne_none_iff_exists'.mp hne
  exact h.named "" (List.mem_of_getElem? ((h.resolveId "" i).mpr hi)) rfl

theorem Graph.Registered.graphExternalIds_eq_ok (h : graph.Registered) :
    graphExternalIds graph = .ok ids ↔ graph.Binds ids := by
  have hstep (ids : List String) (entry : Nat × Nat) (s : String)
      (hs : graph.strings.tryResolve entry.1 = some s) (hlt : entry.2 < ids.length) :
      bindExternalId graph ids entry = .ok (ids.set entry.2 s) := by
    rw [bindExternalId, if_neg (Nat.not_le.mpr hlt), hs]
  obtain ⟨filled, hfilled, hlength, hresolve⟩ := h.externalIds_eq hstep
  rw [graphExternalIds, Graph.numNodes, hfilled]
  dsimp only [bind, Except.bind]
  cases hempty : filled.findIdx? String.isEmpty with
  | none =>
      have hnamed : ∀ s ∈ filled, s ≠ "" := by
        rintro s hs rfl
        exact absurd (List.findIdx?_eq_none_iff.mp hempty "" hs) (by decide)
      constructor
      · intro heq
        obtain rfl := Except.ok.inj heq
        exact ⟨hlength, hresolve, hnamed⟩
      · intro hbinds
        refine congrArg Except.ok (List.ext_getElem? fun i => Option.ext fun s => ?_)
        rw [hresolve, hbinds.resolveId]
  | some index =>
      refine iff_of_false nofun fun hbinds => ?_
      have hany := List.findIdx?_isSome.symm.trans (congrArg Option.isSome hempty)
      obtain ⟨s, hs, hisEmpty⟩ := List.any_eq_true.mp hany
      rw [String.isEmpty_iff] at hisEmpty
      subst hisEmpty
      obtain ⟨i, hi⟩ := List.mem_iff_getElem?.mp hs
      rw [hresolve, hbinds.resolveId_empty] at hi
      exact nomatch hi

theorem Graph.Registered.exists_binds (h : graph.Registered)
    (hnamed : graph.resolveId "" = none) : ∃ ids, graph.Binds ids := by
  obtain ⟨ids, -, hlength, hresolve⟩ := h.nodeToExtId_eq
  refine ⟨ids, hlength, hresolve, ?_⟩
  rintro s hs rfl
  obtain ⟨i, hi⟩ := List.mem_iff_getElem?.mp hs
  rw [hresolve, hnamed] at hi
  exact nomatch hi

theorem Graph.Binds.exists_id (h : graph.Binds ids) {i : Nat} (hi : i < graph.nodes.count) :
    ∃ s, ids[i]? = some s ∧ graph.resolveId s = some i ∧ s ≠ "" := by
  have hget := List.getElem?_eq_getElem (h.length ▸ hi)
  exact ⟨_, hget, (h.resolveId _ i).mp hget, h.named _ (List.mem_of_getElem? hget)⟩

end Binding

namespace CoChangeMatrix

variable [FiniteF32 W F] [Float32 F]

-- A strength that an import accepts.
def InUnit (strength : W) : Prop :=
  Float32.le 0 (FiniteF32.get strength) = true ∧ Float32.le (FiniteF32.get strength) 1 = true

instance (strength : W) : Decidable (InUnit strength) :=
  inferInstanceAs (Decidable (_ ∧ _))

def persistEntry (ids : List String) (entry : CoChangeEntry W) : CoChangeEntryStateV1 F where
  targetExternalId := ids.getD entry.target ""
  strength := FiniteF32.get entry.strength
  coCount := entry.coCount

variable {entry : CoChangeEntry W} {row done : List (CoChangeEntry W)}
  {rows : List (List (CoChangeEntry W))} {learned : Bool}

omit [Float32 F] in
theorem exportEntry_eq_ok (h : graph.Binds ids) {state : CoChangeEntryStateV1 F} :
    exportEntry ids entry = .ok state ↔
      entry.target < graph.nodes.count ∧ state = persistEntry ids entry := by
  unfold exportEntry persistEntry
  rw [List.getD_eq_getElem?_getD]
  by_cases hlt : entry.target < graph.nodes.count
  · obtain ⟨s, hs, -, hne⟩ := h.exists_id hlt
    rw [hs, Option.filter_some, if_pos (by simpa using hne), Option.getD_some]
    simp only [Except.ok.injEq, hlt, true_and]
    exact eq_comm
  · rw [List.getElem?_eq_none (by rw [h.length]; omega)]
    simp [hlt]

variable [ToString F]

-- A target comes back under its id.
theorem restoreEntry_persistEntry (h : graph.Binds ids) (hlt : entry.target < graph.nodes.count)
    (hunit : InUnit entry.strength) (hnew : entry.target ∉ done.map CoChangeEntry.target)
    (sourceIdx : Nat) :
    restoreEntry graph sourceIdx (done, learned) (persistEntry ids entry) =
      .ok (done ++ [entry], learned || decide (0 < entry.coCount)) := by
  obtain ⟨s, hs, hresolve, -⟩ := h.exists_id hlt
  have hid : (persistEntry ids entry : CoChangeEntryStateV1 F).targetExternalId = s := by
    rw [persistEntry, List.getD_eq_getElem?_getD, hs, Option.getD_some]
  rw [restoreEntry, bind_unit_eq_ok, hid, hresolve]
  refine ⟨rejectIf_eq_ok.mpr ?_, ?_⟩
  · rw [persistEntry, FiniteF32.isFinite_get, not_or, not_not]
    exact ⟨nofun, hunit⟩
  · dsimp only
    rw [bind_unit_eq_ok, persistEntry, FiniteF32.new_get]
    exact ⟨rejectIf_eq_ok.mpr hnew, rfl⟩

theorem foldlM_restoreEntry (h : graph.Binds ids)
    (hrow : ∀ entry ∈ row, entry.target < graph.nodes.count ∧ InUnit entry.strength)
    (hdistinct : ((done ++ row).map CoChangeEntry.target).Nodup) (sourceIdx : Nat) :
    (row.map (persistEntry ids)).foldlM (restoreEntry graph sourceIdx) (done, learned) =
      .ok (done ++ row, learned || row.any fun entry => decide (0 < entry.coCount)) := by
  induction row generalizing done learned with
  | nil => simp [pure, Except.pure]
  | cons entry row ih =>
      obtain ⟨⟨hlt, hunit⟩, hrest⟩ := List.forall_mem_cons.mp hrow
      have hnew : entry.target ∉ done.map CoChangeEntry.target := by
        rw [List.map_append, List.map_cons] at hdistinct
        intro hmem
        exact (List.nodup_append.mp hdistinct).2.2 _ hmem _ List.mem_cons_self rfl
      rw [List.map_cons, List.foldlM_cons, restoreEntry_persistEntry h hlt hunit hnew]
      rw [List.append_cons] at hdistinct
      refine (ih hrest hdistinct).trans ?_
      rw [List.append_assoc, List.singleton_append, List.any_cons, Bool.or_assoc]

theorem restoreRow_eq (h : graph.Binds ids) (hisRow : IsRow row)
    (hrow : ∀ entry ∈ row, entry.target < graph.nodes.count ∧ InUnit entry.strength)
    (state : Restoring W) (sourceIdx : Nat) :
    restoreRow graph state (row.map (persistEntry ids), sourceIdx) = .ok {
      rows := state.rows ++ [row]
      computedTotal := state.computedTotal + row.length
      anyLearned := state.anyLearned || row.any fun entry => decide (0 < entry.coCount) } := by
  rw [restoreRow, bind_unit_eq_ok, rejectIf_eq_ok, List.length_map, Nat.not_lt]
  have hdistinct : (([] ++ row).map CoChangeEntry.target).Nodup := hisRow.distinct
  refine ⟨hisRow.short, ?_⟩
  dsimp only
  rw [foldlM_restoreEntry h hrow hdistinct]
  rfl

theorem foldlM_restoreRow (h : graph.Binds ids) (hisRow : ∀ row ∈ rows, IsRow row)
    (hrows : ∀ row ∈ rows, ∀ entry ∈ row, entry.target < graph.nodes.count ∧
      InUnit entry.strength) (first : Nat) (state : Restoring W) :
    ((rows.map (List.map (persistEntry ids))).zipIdx first).foldlM (restoreRow graph) state = .ok {
      rows := state.rows ++ rows
      computedTotal := state.computedTotal + (rows.map List.length).sum
      anyLearned := state.anyLearned ||
        rows.any fun row => row.any fun entry => decide (0 < entry.coCount) } := by
  induction rows generalizing first state with
  | nil => simp [pure, Except.pure]
  | cons row rows ih =>
      obtain ⟨hfirst, hrest⟩ := List.forall_mem_cons.mp hrows
      obtain ⟨hisFirst, hisRest⟩ := List.forall_mem_cons.mp hisRow
      rw [List.map_cons, List.zipIdx_cons, List.foldlM_cons, restoreRow_eq h hisFirst hfirst]
      refine (ih hisRest hrest _ _).trans ?_
      rw [List.append_assoc, List.singleton_append, List.map_cons, List.sum_cons, Nat.add_assoc,
        List.any_cons, Bool.or_assoc]

-- What an import accepts has strengths between zero and one.
theorem inUnit_of_restoreEntry {state next : List (CoChangeEntry W) × Bool} {sourceIdx : Nat}
    (hnext : restoreEntry graph sourceIdx state (persistEntry ids entry) = .ok next) :
    InUnit entry.strength := by
  rw [restoreEntry, bind_unit_eq_ok, rejectIf_eq_ok, not_or, not_not] at hnext
  exact hnext.1.2

theorem inUnit_of_restoreRow {state next : Restoring W} {sourceIdx : Nat}
    (hnext : restoreRow graph state (row.map (persistEntry ids), sourceIdx) = .ok next)
    (hentry : entry ∈ row) : InUnit entry.strength := by
  rw [restoreRow, bind_unit_eq_ok, bind_eq_ok] at hnext
  obtain ⟨-, restored, hrestored, -⟩ := hnext
  obtain ⟨before, after, hafter⟩ := foldlM_accepts hrestored (List.mem_map_of_mem hentry)
  exact inUnit_of_restoreEntry hafter

section Persists

variable {matrix : CoChangeMatrix W} {digest : CoChangeMatrixDigestView F → String}

-- The exported state of the matrix gives it back.
def Persists (matrix : CoChangeMatrix W) (digest : CoChangeMatrixDigestView F → String)
    (graph : Graph W T) : Prop :=
  ∃ state, exportState digest graph matrix = .ok state ∧ fromState digest graph state = .ok matrix

-- The dimensions are those of the graph, and a matrix that has counted changes knows of it.
structure Tracked (matrix : CoChangeMatrix W) (graph : Graph W T) : Prop where
  counted : matrix.Counted
  rows : matrix.rows.length = graph.nodes.count
  nodeCounts : matrix.nodeCounts.length = graph.nodes.count
  learned : ∀ row ∈ matrix.rows, ∀ entry ∈ row, 0 < entry.coCount → matrix.isLearned = true

-- The entries that can be exported and imported.
def Portable (matrix : CoChangeMatrix W) (graph : Graph W T) : Prop :=
  ∀ row ∈ matrix.rows, ∀ entry ∈ row, entry.target < graph.nodes.count ∧ InUnit entry.strength

def persisted (digest : CoChangeMatrixDigestView F → String) (ids : List String)
    (matrix : CoChangeMatrix W) : CoChangeMatrixStateV1 F :=
  let view : CoChangeMatrixDigestView F := {
    schema := CO_CHANGE_STATE_SCHEMA
    version := CO_CHANGE_STATE_VERSION
    nodeExternalIds := ids
    rows := matrix.rows.map (List.map (persistEntry ids))
    nodeCounts := matrix.nodeCounts
    totalEntries := matrix.totalEntries
    budget := matrix.budget
    isLearned := matrix.isLearned }
  { view with stateDigest := digest view }

omit [Float32 F] [ToString F] in
theorem mapM_exportEntry (h : graph.Binds ids) {exported : List (List (CoChangeEntryStateV1 F))} :
    rows.mapM (fun row => row.mapM (exportEntry ids)) = .ok exported ↔
      (∀ row ∈ rows, ∀ entry ∈ row, entry.target < graph.nodes.count) ∧
        exported = rows.map (List.map (persistEntry ids)) := by
  have hrow (row : List (CoChangeEntry W)) (states : List (CoChangeEntryStateV1 F)) :
      row.mapM (exportEntry ids) = .ok states ↔
        (∀ entry ∈ row, entry.target < graph.nodes.count) ∧
          states = row.map (persistEntry ids) :=
    mapM_eq_ok_map fun entry state => exportEntry_eq_ok h
  exact mapM_eq_ok_map hrow

omit [Float32 F] [ToString F] in
theorem exportState_eq_ok (hgraph : graph.Registered) (htracked : matrix.Tracked graph)
    {state : CoChangeMatrixStateV1 F} :
    exportState digest graph matrix = .ok state ↔
      ∃ ids, graph.Binds ids ∧
        (∀ row ∈ matrix.rows, ∀ entry ∈ row, entry.target < graph.nodes.count) ∧
        state = persisted digest ids matrix := by
  unfold exportState
  simp only [bind_eq_ok, hgraph.graphExternalIds_eq_ok, rejectIf_eq_ok]
  constructor
  · rintro ⟨ids, hbinds, -, -, rows, hrows, hstate⟩
    obtain ⟨hlt, rfl⟩ := (mapM_exportEntry hbinds).mp hrows
    exact ⟨ids, hbinds, hlt, (Except.ok.inj hstate).symm⟩
  · rintro ⟨ids, hbinds, hlt, rfl⟩
    refine ⟨ids, hbinds, (), ?_, _, (mapM_exportEntry hbinds).mpr ⟨hlt, rfl⟩, rfl⟩
    rw [hbinds.length, htracked.rows, htracked.nodeCounts]
    simp

-- The import of the exported state asks for a budget that is not zero and not exceeded, and for
-- strengths between zero and one.
theorem fromState_persisted (hgraph : graph.Registered) (hbinds : graph.Binds ids)
    (htracked : matrix.Tracked graph)
    (hlt : ∀ row ∈ matrix.rows, ∀ entry ∈ row, entry.target < graph.nodes.count) :
    fromState digest graph (persisted digest ids matrix) = .ok matrix ↔
      0 < matrix.budget ∧ matrix.totalEntries ≤ matrix.budget ∧
        ∀ row ∈ matrix.rows, ∀ entry ∈ row, InUnit entry.strength := by
  unfold fromState
  simp only [bind_eq_ok, hgraph.graphExternalIds_eq_ok, rejectIf_eq_ok]
  constructor
  · rintro ⟨-, -, -, -, ids', hbinds', -, -, -, -, -, hbudget, restored, hrestored, -⟩
    rw [not_or] at hbudget
    refine ⟨Nat.pos_of_ne_zero hbudget.1, Nat.not_lt.mp hbudget.2, fun row hrow entry hentry => ?_⟩
    obtain ⟨i, hi⟩ := List.mem_iff_getElem?.mp hrow
    have hindexed : (row.map (persistEntry ids), i) ∈
        (persisted digest ids matrix).rows.zipIdx := by
      rw [List.mk_mem_zipIdx_iff_getElem?, persisted, List.getElem?_map, hi, Option.map_some]
    obtain ⟨before, after, hafter⟩ := foldlM_accepts hrestored hindexed
    exact inUnit_of_restoreRow hafter hentry
  · rintro ⟨hpos, hle, hunit⟩
    have hrestored := foldlM_restoreRow hbinds htracked.counted.rows
      (fun row hrow entry hentry => ⟨hlt row hrow entry hentry, hunit row hrow entry hentry⟩) 0
      ⟨[], 0, false⟩
    refine ⟨(), ?schema, (), not_not.mpr rfl, ids, hbinds, (), not_not.mpr rfl, (), ?dimensions,
      (), ?budget, _, hrestored, (), ?total, (), ?learned, rfl⟩
    case schema => simp [persisted]
    case dimensions =>
      rw [hbinds.length]
      simp [persisted, htracked.rows, htracked.nodeCounts]
    case budget =>
      rw [not_or, Nat.not_lt]
      exact ⟨Nat.ne_of_gt hpos, hle⟩
    case total =>
      rw [not_not, Nat.zero_add]
      exact htracked.counted.totalEntries.symm
    case learned =>
      rintro ⟨hany, hunlearned⟩
      rw [Bool.false_or, List.any_eq_true] at hany
      obtain ⟨row, hrow, hany⟩ := hany
      obtain ⟨entry, hentry, hcount⟩ := List.any_eq_true.mp hany
      have hlearned := htracked.learned row hrow entry hentry (of_decide_eq_true hcount)
      exact Bool.noConfusion (hlearned.symm.trans hunlearned)

theorem persists_iff (hgraph : graph.Registered) (htracked : matrix.Tracked graph) :
    matrix.Persists digest graph ↔
      graph.resolveId "" = none ∧ 0 < matrix.budget ∧ matrix.totalEntries ≤ matrix.budget ∧
        matrix.Portable graph := by
  unfold Persists
  simp only [exportState_eq_ok hgraph htracked]
  constructor
  · rintro ⟨_, ⟨ids, hbinds, hlt, rfl⟩, hrestored⟩
    obtain ⟨hpos, hle, hunit⟩ := (fromState_persisted hgraph hbinds htracked hlt).mp hrestored
    exact ⟨hbinds.resolveId_empty, hpos, hle,
      fun row hrow entry hentry => ⟨hlt row hrow entry hentry, hunit row hrow entry hentry⟩⟩
  · rintro ⟨hnamed, hpos, hle, hportable⟩
    obtain ⟨ids, hbinds⟩ := hgraph.exists_binds hnamed
    have hlt : ∀ row ∈ matrix.rows, ∀ entry ∈ row, entry.target < graph.nodes.count :=
      fun row hrow entry hentry => (hportable row hrow entry hentry).1
    refine ⟨_, ⟨ids, hbinds, hlt, rfl⟩, (fromState_persisted hgraph hbinds htracked hlt).mpr ?_⟩
    exact ⟨hpos, hle, fun row hrow entry hentry => (hportable row hrow entry hentry).2⟩

end Persists

end CoChangeMatrix

end M1nd.Core
