import M1nd.Core.Graph.Refinalize
import M1nd.Core.Temporal
import M1nd.Library.Counters

namespace M1nd.Core

open M1nd.Library.Loops

variable {W F T : Type} [FiniteF32 W F] [Float32 F] [CoChangeF32 W F]
  {graph : Graph W T} {search next last : OriginSearch W F} {depth fuel j start : Nat}
  {strength : F}

-- A slot that ends at a visited node is passed over. Any other marks its end and queues it, and
-- an end that is reached strongly enough gets an entry.
theorem visitEdge_cases (hnext : visitEdge graph depth strength search j = some next) :
    next = search ∨ ∃ tgt newStrength, tgt < graph.nodes.count ∧
      search.visited.getD tgt false = false ∧ next.visited = search.visited.set tgt true ∧
      next.queue = search.queue ++ [(tgt, depth + 1, newStrength)] ∧
      (next.entries = search.entries ∨ search.entries.length < CO_CHANGE_MAX_ROW ∧
        next.entries = search.entries ++ [⟨tgt, FiniteF32.new newStrength, 0⟩]) := by
  obtain ⟨tgt, -, hnext⟩ := Option.bind_eq_some_iff.mp hnext
  split at hnext
  case isTrue => exact Or.inl (Option.some.inj hnext).symm
  case isFalse hnew =>
    rw [Bool.or_eq_true, decide_eq_true_iff, not_or, Nat.not_le, Bool.not_eq_true] at hnew
    obtain ⟨weight, -, hnext⟩ := Option.bind_eq_some_iff.mp hnext
    obtain rfl := Option.some.inj hnext
    refine Or.inr ⟨tgt, _, hnew.1, hnew.2, rfl, rfl, ?_⟩
    dsimp only
    split
    case isTrue hstrong =>
      rw [Bool.and_eq_true, decide_eq_true_iff] at hstrong
      exact Or.inr ⟨hstrong.2, rfl⟩
    case isFalse => exact Or.inl rfl

theorem exists_visitEdge (h : graph.Listed) (hj : j < graph.csr.targets.length) :
    ∃ next, visitEdge graph depth strength search j = some next := by
  have hweight : EdgeIdx.new j < graph.csr.weights.length := by
    have hle : EdgeIdx.new j ≤ j := Nat.mod_le _ _
    rw [h.weights]
    omega
  simp only [visitEdge, List.getElem?_eq_getElem hj, List.getElem?_eq_getElem hweight,
    Option.bind_eq_bind, Option.bind_some]
  split <;> exact ⟨_, rfl⟩

namespace OriginSearch

-- The entries are for different nodes, all of them marked as visited, and count no change.
structure Fresh (graph : Graph W T) (search : OriginSearch W F) : Prop where
  visited : search.visited.length = graph.nodes.count
  marked : ∀ entry ∈ search.entries, search.visited[entry.target]? = some true
  distinct : (search.entries.map CoChangeEntry.target).Nodup
  short : search.entries.length ≤ CO_CHANGE_MAX_ROW
  seeds : ∀ entry ∈ search.entries, entry.coCount = 0

theorem Fresh.visitEdge (h : search.Fresh graph)
    (hnext : visitEdge graph depth strength search j = some next) : next.Fresh graph := by
  obtain rfl | ⟨tgt, newStrength, htgt, hnew, hvisited, -, hentries⟩ := visitEdge_cases hnext
  · exact h
  have hmarked : ∀ entry ∈ search.entries, next.visited[entry.target]? = some true := by
    intro entry hentry
    have hold := h.marked entry hentry
    rw [hvisited, List.getElem?_set]
    split
    · rw [if_pos (h.visited ▸ htgt)]
    · exact hold
  have hlength : next.visited.length = graph.nodes.count := by
    rw [hvisited, List.length_set, h.visited]
  obtain he | ⟨hshort, he⟩ := hentries
  · exact ⟨hlength, he ▸ hmarked, he ▸ h.distinct, he ▸ h.short, he ▸ h.seeds⟩
  · refine ⟨hlength, ?_, ?_, ?_, ?_⟩
    · rw [he, List.forall_mem_append, List.forall_mem_singleton]
      refine ⟨hmarked, ?_⟩
      rw [hvisited, List.getElem?_set_self (h.visited ▸ htgt)]
    · rw [he, List.map_append, List.map_singleton, ← List.concat_eq_append]
      refine List.Nodup.concat (fun hmem => ?_) h.distinct
      -- A node that has an entry is marked.
      obtain ⟨entry, hentry, rfl⟩ := List.mem_map.mp hmem
      rw [List.getD_eq_getElem?_getD, h.marked entry hentry] at hnew
      exact Bool.noConfusion hnew
    · rw [he, List.length_append, List.length_singleton]
      exact hshort
    · rw [he, List.forall_mem_append, List.forall_mem_singleton]
      exact ⟨h.seeds, rfl⟩

theorem Fresh.visitEdges (h : search.Fresh graph) {slots : List Nat}
    (hnext : slots.foldlM (M1nd.Core.visitEdge graph depth strength) search = some next) :
    next.Fresh graph :=
  foldlM_keeps _ h (fun _ hu _ _ _ hv => hu.visitEdge hv) hnext

omit [FiniteF32 W F] [Float32 F] [CoChangeF32 W F] in
theorem Fresh.queue (h : search.Fresh graph) (queue : List (Nat × Nat × F)) :
    ({ search with queue := queue } : OriginSearch W F).Fresh graph :=
  ⟨h.visited, h.marked, h.distinct, h.short, h.seeds⟩

theorem Fresh.searchOrigin (h : search.Fresh graph)
    (hlast : searchOrigin graph fuel search = some last) : last.Fresh graph := by
  induction fuel generalizing search with
  | zero =>
      unfold M1nd.Core.searchOrigin at hlast
      split at hlast
      · exact Option.some.inj hlast ▸ h
      · exact nomatch hlast
  | succ fuel ih =>
      unfold M1nd.Core.searchOrigin at hlast
      split at hlast
      · exact Option.some.inj hlast ▸ h
      · dsimp only at hlast
        split at hlast
        · exact ih (h.queue _) hlast
        · obtain ⟨next, hnext, hlast⟩ := Option.bind_eq_some_iff.mp hlast
          exact ih ((h.queue _).visitEdges hnext) hlast

-- The nodes that are still to be taken from the queue, at most.
def owed (search : OriginSearch W F) : Nat :=
  search.visited.count false + search.queue.length

-- A node that goes to the queue is one node less to be queued.
theorem owed_visitEdge (hvisited : search.visited.length = graph.nodes.count)
    (hnext : visitEdge graph depth strength search j = some next) : next.owed = search.owed := by
  obtain rfl | ⟨tgt, newStrength, htgt, hnew, hset, hqueue, -⟩ := visitEdge_cases hnext
  · rfl
  rw [← hvisited] at htgt
  rw [List.getD_eq_getElem?_getD, List.getElem?_eq_getElem htgt, Option.getD_some] at hnew
  have hpos : 0 < search.visited.count false :=
    List.count_pos_iff.mpr (hnew ▸ List.getElem_mem htgt)
  have hcount : (search.visited.set tgt true).count false = search.visited.count false - 1 := by
    rw [List.count_set htgt, hnew]
    rfl
  rw [owed, owed, hset, hqueue, hcount, List.length_append, List.length_singleton]
  omega

theorem exists_visitEdges (hlisted : graph.Listed) (h : search.Fresh graph) (node depth : Nat)
    (strength : F) :
    ∃ next, (graph.csr.outRange node).foldlM (M1nd.Core.visitEdge graph depth strength) search =
      some next ∧ next.Fresh graph ∧ next.owed = search.owed := by
  apply exists_foldlM (fun next : OriginSearch W F => next.Fresh graph ∧ next.owed = search.owed)
  · exact ⟨h, rfl⟩
  · intro u hu j hj
    obtain ⟨v, hv⟩ := exists_visitEdge hlisted (hlisted.mem_outRange_lt hj)
    exact ⟨v, hv, hu.1.visitEdge hv, (owed_visitEdge hu.1.visited hv).trans hu.2⟩

theorem exists_searchOrigin (hlisted : graph.Listed) (h : search.Fresh graph)
    (hfuel : search.owed ≤ fuel) : ∃ last, searchOrigin graph fuel search = some last := by
  induction fuel generalizing search with
  | zero =>
      have hempty : search.queue = [] := by
        rw [← List.length_eq_zero_iff]
        unfold owed at hfuel
        omega
      rw [searchOrigin, hempty]
      exact ⟨search, rfl⟩
  | succ fuel ih =>
      unfold searchOrigin
      split
      case h_1 => exact ⟨search, rfl⟩
      case h_2 node depth strength queue hqueue =>
        have hpopped : ({ search with queue := queue } : OriginSearch W F).owed ≤ fuel := by
          unfold owed at hfuel ⊢
          rw [hqueue, List.length_cons] at hfuel
          dsimp only
          omega
        dsimp only
        split
        · exact ih (h.queue _) hpopped
        · obtain ⟨next, hnext, hfresh, howed⟩ :=
            exists_visitEdges hlisted (h.queue queue) node depth strength
          obtain ⟨last, hlast⟩ := ih hfresh (howed.trans_le hpopped)
          exact ⟨last, by rw [hnext]; exact hlast⟩

end OriginSearch

end M1nd.Core

namespace M1nd.Core

open M1nd.Library.Counters

variable {W F T : Type} [FiniteF32 W F] [Float32 F] [CoChangeF32 W F] {graph : Graph W T}
  {start budget : Nat} {row : List (CoChangeEntry W)}

-- The targets of a row are different nodes, and not more than a row can have.
structure IsRow (row : List (CoChangeEntry W)) : Prop where
  distinct : (row.map CoChangeEntry.target).Nodup
  short : row.length ≤ CO_CHANGE_MAX_ROW

omit [FiniteF32 W F] [Float32 F] [CoChangeF32 W F] in
theorem isRow_nil : IsRow ([] : List (CoChangeEntry W)) :=
  ⟨List.nodup_nil, Nat.zero_le _⟩

section Rows

def OriginSearch.initial (graph : Graph W T) (start : Nat) : OriginSearch W F where
  visited := (List.replicate graph.nodes.count false).set start true
  queue := [(start, 0, (1 : F))]
  entries := []

omit [FiniteF32 W F] [CoChangeF32 W F] in
theorem OriginSearch.fresh_initial (graph : Graph W T) (start : Nat) :
    (OriginSearch.initial graph start : OriginSearch W F).Fresh graph where
  visited := by rw [initial, List.length_set, List.length_replicate]
  marked _ hentry := absurd hentry List.not_mem_nil
  distinct := List.nodup_nil
  short := Nat.zero_le _
  seeds _ hentry := absurd hentry List.not_mem_nil

omit [FiniteF32 W F] [CoChangeF32 W F] in
theorem OriginSearch.owed_initial (hstart : start < graph.nodes.count) :
    (OriginSearch.initial graph start : OriginSearch W F).owed = graph.nodes.count := by
  have hlength : start < (List.replicate graph.nodes.count false).length := by
    rwa [List.length_replicate]
  rw [owed, initial, List.count_set hlength, List.getElem_replicate,
    List.count_replicate_self]
  simp only [beq_self_eq_true, if_true, List.length_singleton]
  change graph.nodes.count - 1 + 0 + 1 = graph.nodes.count
  omega

-- A row of seeds lists what its search has found.
theorem originRow_cases (hrow : originRow graph start = some row) :
    IsRow row ∧ ∀ entry ∈ row, entry.target < graph.nodes.count ∧ entry.coCount = 0 := by
  obtain ⟨search, hsearch, hrow⟩ := Option.bind_eq_some_iff.mp hrow
  have hfresh := (OriginSearch.fresh_initial graph start).searchOrigin hsearch
  obtain rfl := Option.some.inj hrow
  have hperm := List.perm_insertionSort
    (fun a b : CoChangeEntry W => CoChangeF32.totalLe b.strength a.strength = true) search.entries
  refine ⟨⟨?_, ?_⟩, fun entry hentry => ?_⟩
  · rw [List.map_take]
    exact ((hperm.map _).nodup_iff.mpr hfresh.distinct).sublist (List.take_sublist _ _)
  · exact List.length_take_le _ _
  · have hfound := hperm.mem_iff.mp (List.mem_of_mem_take hentry)
    obtain ⟨hlt, -⟩ := List.getElem?_eq_some_iff.mp (hfresh.marked entry hfound)
    exact ⟨hfresh.visited ▸ hlt, hfresh.seeds entry hfound⟩

theorem exists_originRow (hlisted : graph.Listed) (hstart : start < graph.nodes.count) :
    ∃ row, originRow graph start = some row := by
  obtain ⟨last, hlast⟩ := OriginSearch.exists_searchOrigin hlisted
    (OriginSearch.fresh_initial graph start)
    (OriginSearch.owed_initial hstart).le
  refine ⟨_, Option.bind_eq_some_iff.mpr ⟨last, hlast, rfl⟩⟩

end Rows

-- The row of an origin, and the size of the rows of the first origins.
def seedRow (graph : Graph W T) (start : Nat) : List (CoChangeEntry W) :=
  (originRow graph start).getD []

def seedTotal (graph : Graph W T) (count : Nat) : Nat :=
  ((List.range count).map fun start => (seedRow graph start).length).sum

-- No origin that is reached has a row for which there is not enough of the budget left.
def SeedsFit (graph : Graph W T) (budget : Nat) : Prop :=
  ∀ start < graph.nodes.count, seedTotal graph start < budget →
    seedTotal graph (start + 1) ≤ budget

theorem isRow_seedRow : IsRow (seedRow graph start) := by
  unfold seedRow
  cases hrow : originRow graph start with
  | none => exact isRow_nil
  | some row => exact (originRow_cases hrow).1

theorem mem_seedRow {entry : CoChangeEntry W} (hentry : entry ∈ seedRow graph start) :
    entry.target < graph.nodes.count ∧ entry.coCount = 0 := by
  unfold seedRow at hentry
  cases hrow : originRow graph start with
  | none =>
      rw [hrow] at hentry
      exact absurd hentry List.not_mem_nil
  | some row =>
      rw [hrow] at hentry
      exact (originRow_cases hrow).2 entry hentry

theorem seedTotal_succ (graph : Graph W T) (start : Nat) :
    seedTotal graph (start + 1) = seedTotal graph start + (seedRow graph start).length := by
  rw [seedTotal, List.range_succ, List.map_append, List.sum_append, List.map_singleton,
    List.sum_singleton]
  rfl

theorem monotone_seedTotal (graph : Graph W T) : Monotone (seedTotal graph) :=
  monotone_nat_of_le_succ fun start => by
    rw [seedTotal_succ]
    exact Nat.le_add_right _ _

-- The rows of the first origins, and no entries for the nodes behind them.
def seedRows (graph : Graph W T) (count : Nat) : List (List (CoChangeEntry W)) :=
  (List.range count).map (seedRow graph) ++ List.replicate (graph.nodes.count - count) []

theorem length_seedRows {count : Nat} (hcount : count ≤ graph.nodes.count) :
    (seedRows graph count).length = graph.nodes.count := by
  rw [seedRows, List.length_append, List.length_map, List.length_range, List.length_replicate]
  omega

theorem sum_seedRows (graph : Graph W T) (count : Nat) :
    ((seedRows graph count).map List.length).sum = seedTotal graph count := by
  rw [seedRows, List.map_append, List.sum_append, List.map_map, List.map_replicate,
    List.length_nil, List.sum_replicate_nat, Nat.mul_zero]
  rfl

theorem seedRows_succ (hstart : start < graph.nodes.count) :
    (seedRows graph start).set start (seedRow graph start) = seedRows graph (start + 1) := by
  have hlength : ((List.range start).map (seedRow graph)).length = start := by
    rw [List.length_map, List.length_range]
  obtain ⟨rest, hrest⟩ : ∃ rest, graph.nodes.count - start = rest + 1 :=
    ⟨graph.nodes.count - start - 1, by omega⟩
  have hnext : graph.nodes.count - (start + 1) = rest := by omega
  rw [seedRows, seedRows, hrest, hnext, List.set_append_right _ _ hlength.le, hlength,
    Nat.sub_self, List.replicate_succ, List.set_cons_zero, List.range_succ, List.map_append,
    List.append_assoc]
  rfl

namespace CoChangeMatrix

-- The matrix of the seeds of the first origins.
def seeded (graph : Graph W T) (budget count : Nat) : CoChangeMatrix W where
  rows := seedRows graph count
  nodeCounts := List.replicate graph.nodes.count 0
  totalEntries := seedTotal graph count
  budget := budget
  isLearned := false

-- Each origin gets its row until the budget is used up.
theorem foldlM_bootstrapOrigin (hlisted : graph.Listed) (budget : Nat) {bound : Nat}
    (hbound : bound ≤ graph.nodes.count) :
    ∃ count ≤ bound, (∀ start < count, seedTotal graph start < budget) ∧
      (count = bound ∨ budget ≤ seedTotal graph count) ∧
      (List.range bound).foldlM (bootstrapOrigin graph budget)
        (List.replicate graph.nodes.count [], 0) =
          some (seedRows graph count, seedTotal graph count) := by
  induction bound with
  | zero => exact ⟨0, Nat.le_refl 0, nofun, Or.inl rfl, rfl⟩
  | succ bound ih =>
      obtain ⟨count, hcount, hbelow, hstop, hrun⟩ := ih (Nat.le_of_succ_le hbound)
      simp only [List.range_succ, List.foldlM_append, hrun, List.foldlM_cons, List.foldlM_nil,
        Option.bind_eq_bind, Option.bind_some, bootstrapOrigin]
      by_cases hused : budget ≤ seedTotal graph count
      · exact ⟨count, Nat.le_succ_of_le hcount, hbelow, Or.inr hused, by rw [if_pos hused]; rfl⟩
      · obtain rfl : count = bound := hstop.resolve_right hused
        obtain ⟨row, hrow⟩ := exists_originRow hlisted hbound
        have hseed : seedRow graph count = row := by rw [seedRow, hrow, Option.getD_some]
        refine ⟨count + 1, Nat.le_refl _, fun start hstart => ?_, Or.inl rfl, ?_⟩
        · obtain hlt | rfl := Nat.lt_succ_iff_lt_or_eq.mp hstart
          · exact hbelow start hlt
          · exact Nat.not_le.mp hused
        · rw [if_neg hused, hrow, ← seedRows_succ hbound, seedTotal_succ, hseed]
          rfl

theorem bootstrap_eq (hlisted : graph.Listed) (budget : Nat) :
    ∃ count ≤ graph.nodes.count, (∀ start < count, seedTotal graph start < budget) ∧
      (count = graph.nodes.count ∨ budget ≤ seedTotal graph count) ∧
      bootstrap graph budget = some (seeded graph budget count) := by
  obtain ⟨count, hcount, hbelow, hstop, hrun⟩ :=
    foldlM_bootstrapOrigin hlisted budget (Nat.le_refl graph.nodes.count)
  refine ⟨count, hcount, hbelow, hstop, ?_⟩
  rw [bootstrap, hrun]
  rfl

theorem seeded_le_iff {count : Nat} (hcount : count ≤ graph.nodes.count)
    (hbelow : ∀ start < count, seedTotal graph start < budget)
    (hstop : count = graph.nodes.count ∨ budget ≤ seedTotal graph count) :
    (seeded graph budget count).totalEntries ≤ budget ↔ SeedsFit graph budget :=
  stopped_le_iff (monotone_seedTotal graph) (Nat.zero_le _) hcount hbelow hstop

end CoChangeMatrix

end M1nd.Core
