import M1nd.Library.Counters
import Mathlib.Data.List.Induction
import Mathlib.Logic.Function.Basic

namespace M1nd.Core

structure QueryRecord (T : Type) where
  queryText : String
  seeds : List Nat
  activatedNodes : List Nat
  timestamp : T

-- Two seeds of a query, the smaller one first.
def bigram (seed other : Nat) : Nat × Nat :=
  if seed < other then (seed, other) else (other, seed)

-- The pairs that the nested loops over the seeds go through.
def bigrams : List Nat → List (Nat × Nat)
  | [] => []
  | seed :: rest => rest.map (bigram seed) ++ bigrams rest

def QueryRecord.pairs {T : Type} (record : QueryRecord T) : List (Nat × Nat) :=
  bigrams record.seeds

structure QueryMemory (T : Type) where
  records : List (Option (QueryRecord T))
  capacity : Nat
  writeHead : Nat
  nodeFrequency : List Nat
  seedBigrams : Nat × Nat → Option Nat

namespace QueryMemory

variable {T : Type}

def new (capacity numNodes : Nat) : QueryMemory T where
  records := List.replicate capacity none
  capacity := capacity
  writeHead := 0
  nodeFrequency := List.replicate numNodes 0
  seedBigrams _ := none

-- Nodes behind the end of the frequencies are not counted, and pairs without an entry are not
-- decremented.
def forget (memory : QueryMemory T) (old : QueryRecord T) : QueryMemory T :=
  { memory with
    nodeFrequency := old.activatedNodes.foldl
      (fun table node => table.modify node fun count => count - 1) memory.nodeFrequency
    seedBigrams := old.pairs.foldl
      (fun table key => Function.update table key ((table key).map fun count => count - 1))
      memory.seedBigrams }

-- The counters are u32 and wrap around.
def count (memory : QueryMemory T) (record : QueryRecord T) : QueryMemory T :=
  { memory with
    nodeFrequency := record.activatedNodes.foldl
      (fun table node => table.modify node fun count => (count + 1) % 2 ^ 32) memory.nodeFrequency
    seedBigrams := record.pairs.foldl
      (fun table key =>
        Function.update table key (some (((table key).getD 0 + 1) % 2 ^ 32)))
      memory.seedBigrams }

-- In a memory of no capacity there is no slot to write, and the call panics.
def record (memory : QueryMemory T) (record : QueryRecord T) : Option (QueryMemory T) := do
  let old ← memory.records[memory.writeHead]?
  let memory := match old with
    | some old => memory.forget old
    | none => memory
  let memory := memory.count record
  some { memory with
    records := memory.records.set memory.writeHead (some record)
    writeHead := (memory.writeHead + 1) % memory.capacity }

def run (capacity numNodes : Nat) (records : List (QueryRecord T)) : Option (QueryMemory T) :=
  records.foldlM record (new capacity numNodes)

end QueryMemory

end M1nd.Core

namespace M1nd.Core.QueryMemory

open M1nd.Library.Counters
open M1nd.Library.Ring

variable {T : Type} {capacity numNodes : Nat} {memory next : QueryMemory T}
  {past : List (QueryRecord T)}

-- The nodes and the pairs that a list of records counts.
def nodesIn (records : List (QueryRecord T)) : List Nat :=
  records.flatMap QueryRecord.activatedNodes

def pairsIn (records : List (QueryRecord T)) : List (Nat × Nat) :=
  records.flatMap QueryRecord.pairs

-- The counters are those of the records that are retained, and nothing else has an entry.
structure Counts (memory : QueryMemory T) (numNodes : Nat) (retained : List (QueryRecord T)) :
    Prop where
  length : memory.nodeFrequency.length = numNodes
  nodes : ∀ node < numNodes, memory.nodeFrequency[node]? = some ((nodesIn retained).count node)
  pairs : ∀ pair, (memory.seedBigrams pair).getD 0 = (pairsIn retained).count pair
  entries : ∀ pair, (memory.seedBigrams pair).isSome = true → pair ∈ pairsIn retained

-- No counter overflows on the records that are retained, and every pair that was ever recorded
-- occurs in one of them.
structure Fits (numNodes : Nat) (past retained : List (QueryRecord T)) : Prop where
  nodes : ∀ node < numNodes, (nodesIn retained).count node < 2 ^ 32
  pairs : ∀ pair, (pairsIn retained).count pair < 2 ^ 32
  retained : ∀ pair ∈ pairsIn past, pair ∈ pairsIn retained

-- What holds after every run, of whatever records.
structure Recording (memory : QueryMemory T) (capacity numNodes : Nat)
    (past : List (QueryRecord T)) : Prop where
  ring : Holds capacity memory.records memory.writeHead past
  capacity : memory.capacity = capacity
  length : memory.nodeFrequency.length = numNodes
  node_lt : ∀ (node count : Nat), memory.nodeFrequency[node]? = some count → count < 2 ^ 32
  pair_lt : ∀ pair, (memory.seedBigrams pair).getD 0 < 2 ^ 32
  entries : ∀ pair, (memory.seedBigrams pair).isSome = true ↔ pair ∈ pairsIn past

section Step

variable {old record : QueryRecord T}

theorem nodeFrequency_forget (memory : QueryMemory T) (old : QueryRecord T) (node : Nat) :
    (memory.forget old).nodeFrequency[node]? =
      memory.nodeFrequency[node]?.map (· - old.activatedNodes.count node) := by
  rw [forget, getElem?_foldl_modify, funext (iterate_pred _)]

theorem seedBigrams_forget (memory : QueryMemory T) (old : QueryRecord T) (pair : Nat × Nat) :
    (memory.forget old).seedBigrams pair =
      (memory.seedBigrams pair).map (· - old.pairs.count pair) := by
  have hfold := foldl_update (Option.map fun count => count - 1) old.pairs memory.seedBigrams pair
  rw [iterate_map, funext (iterate_pred _)] at hfold
  exact hfold

theorem nodeFrequency_count {count : Nat} (record : QueryRecord T) {node : Nat}
    (h : memory.nodeFrequency[node]? = some count) (hlt : count < 2 ^ 32) :
    (memory.count record).nodeFrequency[node]? =
      some ((count + record.activatedNodes.count node) % 2 ^ 32) := by
  rw [QueryMemory.count, getElem?_foldl_modify, h, Option.map_some, iterate_succ_mod hlt]

theorem seedBigrams_count (memory : QueryMemory T) (record : QueryRecord T) (pair : Nat × Nat) :
    (memory.count record).seedBigrams pair =
      if record.pairs.count pair = 0 then memory.seedBigrams pair
      else some (((memory.seedBigrams pair).getD 0 + record.pairs.count pair) % 2 ^ 32) := by
  have hfold := foldl_update (fun entry : Option Nat => some ((entry.getD 0 + 1) % 2 ^ 32))
    record.pairs memory.seedBigrams pair
  rw [iterate_entry] at hfold
  exact hfold

-- A counter below its bound after counting, whether the pair had an entry or not.
theorem getD_seedBigrams_count (record : QueryRecord T) {pair : Nat × Nat}
    (hlt : (memory.seedBigrams pair).getD 0 < 2 ^ 32) :
    ((memory.count record).seedBigrams pair).getD 0 =
      ((memory.seedBigrams pair).getD 0 + record.pairs.count pair) % 2 ^ 32 := by
  rw [seedBigrams_count]
  by_cases hnone : record.pairs.count pair = 0
  · rw [if_pos hnone, hnone, Nat.add_zero, Nat.mod_eq_of_lt hlt]
  · rw [if_neg hnone, Option.getD_some]

theorem isSome_seedBigrams_count (record : QueryRecord T) {pair : Nat × Nat} :
    ((memory.count record).seedBigrams pair).isSome = true ↔
      (memory.seedBigrams pair).isSome = true ∨ pair ∈ record.pairs := by
  rw [seedBigrams_count]
  by_cases hnone : record.pairs.count pair = 0
  · have hmem : pair ∉ record.pairs := List.count_eq_zero.mp hnone
    rw [if_pos hnone]
    simp only [hmem, or_false]
  · have hmem : pair ∈ record.pairs := List.count_pos_iff.mp (Nat.pos_of_ne_zero hnone)
    rw [if_neg hnone]
    simp only [hmem, or_true, Option.isSome_some]

-- The record that is evicted, if there is one.
def evict (memory : QueryMemory T) : Option (QueryRecord T) → QueryMemory T
  | some old => memory.forget old
  | none => memory

theorem nodeFrequency_evict (memory : QueryMemory T) (old : Option (QueryRecord T)) (node : Nat) :
    (memory.evict old).nodeFrequency[node]? =
      memory.nodeFrequency[node]?.map (· - (nodesIn old.toList).count node) := by
  cases old with
  | none => simp [evict, nodesIn]
  | some old =>
      rw [evict, nodeFrequency_forget, Option.toList_some, nodesIn, List.flatMap_singleton]

theorem seedBigrams_evict (memory : QueryMemory T) (old : Option (QueryRecord T))
    (pair : Nat × Nat) :
    (memory.evict old).seedBigrams pair =
      (memory.seedBigrams pair).map (· - (pairsIn old.toList).count pair) := by
  cases old with
  | none => simp [evict, pairsIn]
  | some old => rw [evict, seedBigrams_forget, Option.toList_some, pairsIn, List.flatMap_singleton]

theorem getD_seedBigrams_evict (memory : QueryMemory T) (old : Option (QueryRecord T))
    (pair : Nat × Nat) :
    ((memory.evict old).seedBigrams pair).getD 0 =
      (memory.seedBigrams pair).getD 0 - (pairsIn old.toList).count pair := by
  rw [seedBigrams_evict]
  cases memory.seedBigrams pair with
  | none => exact (Nat.zero_sub _).symm
  | some count => rfl

theorem record_eq {old : Option (QueryRecord T)} (h : memory.records[memory.writeHead]? = some old)
    (record : QueryRecord T) :
    memory.record record = some { (memory.evict old).count record with
      records := memory.records.set memory.writeHead (some record)
      writeHead := (memory.writeHead + 1) % memory.capacity } := by
  rw [QueryMemory.record, h]
  cases old <;> rfl

theorem length_evict (memory : QueryMemory T) (old : Option (QueryRecord T)) :
    (memory.evict old).nodeFrequency.length = memory.nodeFrequency.length := by
  cases old with
  | none => rfl
  | some old => exact length_foldl_modify _ _ _

end Step

section Run

theorem recording_new (capacity numNodes : Nat) :
    Recording (new capacity numNodes : QueryMemory T) capacity numNodes [] where
  ring := holds_nil capacity
  capacity := rfl
  length := List.length_replicate
  node_lt node count h := by
    rw [new, List.getElem?_replicate] at h
    split at h
    · obtain rfl := Option.some.inj h
      exact Nat.two_pow_pos 32
    · exact absurd h nofun
  pair_lt := fun _ => Nat.two_pow_pos 32
  entries := by simp [new, pairsIn]

-- A call keeps the ring, and counts what it evicts and what it adds.
theorem Recording.record (h : Recording memory capacity numNodes past) (hpos : 0 < capacity)
    (record : QueryRecord T) :
    ∃ (next : QueryMemory T) (old : Option (QueryRecord T)) (rest : List (QueryRecord T)),
      memory.record record = some next ∧ Recording next capacity numNodes (past ++ [record]) ∧
      window capacity past = old.toList ++ rest ∧
      window capacity (past ++ [record]) = rest ++ [record] ∧
      (∀ (node count : Nat), memory.nodeFrequency[node]? = some count →
        next.nodeFrequency[node]? = some ((count - (nodesIn old.toList).count node +
          record.activatedNodes.count node) % 2 ^ 32)) ∧
      ∀ pair, (next.seedBigrams pair).getD 0 = ((memory.seedBigrams pair).getD 0 -
        (pairsIn old.toList).count pair + record.pairs.count pair) % 2 ^ 32 := by
  obtain ⟨old, rest, hold, hbefore, hafter⟩ := h.ring.evict hpos record
  have hnodes (node count : Nat) (hcount : memory.nodeFrequency[node]? = some count) :
      ((memory.evict old).count record).nodeFrequency[node]? =
        some ((count - (nodesIn old.toList).count node +
          record.activatedNodes.count node) % 2 ^ 32) := by
    refine nodeFrequency_count record ?_ (Nat.lt_of_le_of_lt (Nat.sub_le _ _) (h.node_lt node count hcount))
    rw [nodeFrequency_evict, hcount, Option.map_some]
  have hpairs (pair : Nat × Nat) : (((memory.evict old).count record).seedBigrams pair).getD 0 =
      ((memory.seedBigrams pair).getD 0 - (pairsIn old.toList).count pair +
        record.pairs.count pair) % 2 ^ 32 := by
    rw [getD_seedBigrams_count, getD_seedBigrams_evict]
    rw [getD_seedBigrams_evict]
    exact Nat.lt_of_le_of_lt (Nat.sub_le _ _) (h.pair_lt pair)
  have hlength : ((memory.evict old).count record).nodeFrequency.length = numNodes := by
    rw [QueryMemory.count, length_foldl_modify, length_evict]
    exact h.length
  refine ⟨_, old, rest, record_eq hold record, ?_, hbefore, hafter, hnodes, hpairs⟩
  constructor
  case ring =>
    rw [h.capacity]
    exact h.ring.concat hpos record
  case capacity =>
    rw [← h.capacity]
    cases old <;> rfl
  case length => exact hlength
  case node_lt =>
    intro node count hcount
    have hlt : node < memory.nodeFrequency.length := by
      rw [h.length, ← hlength]
      exact (List.getElem?_eq_some_iff.mp hcount).1
    rw [hnodes node _ (List.getElem?_eq_getElem hlt)] at hcount
    obtain rfl := Option.some.inj hcount
    exact Nat.mod_lt _ (Nat.two_pow_pos 32)
  case pair_lt =>
    intro pair
    rw [hpairs]
    exact Nat.mod_lt _ (Nat.two_pow_pos 32)
  case entries =>
    intro pair
    rw [isSome_seedBigrams_count, seedBigrams_evict, Option.isSome_map, h.entries, pairsIn, pairsIn,
      List.flatMap_append, List.mem_append, List.flatMap_singleton]

theorem run_concat (records : List (QueryRecord T)) (record : QueryRecord T) :
    run capacity numNodes (records ++ [record]) =
      (run capacity numNodes records).bind fun memory => memory.record record := by
  simp only [run, List.foldlM_append, List.foldlM_cons, List.foldlM_nil, bind_pure]
  rfl

-- A memory of some capacity records everything.
theorem exists_recording (numNodes : Nat) (hpos : 0 < capacity) (records : List (QueryRecord T)) :
    ∃ memory, run capacity numNodes records = some memory ∧
      Recording memory capacity numNodes records := by
  induction records using List.reverseRecOn with
  | nil => exact ⟨_, rfl, recording_new capacity numNodes⟩
  | append_singleton records record ih =>
      obtain ⟨memory, hrun, hrecording⟩ := ih
      obtain ⟨next, _, _, hnext, hrecording', -⟩ := hrecording.record hpos record
      refine ⟨next, ?_, hrecording'⟩
      rw [run_concat, hrun]
      exact hnext

theorem count_nodesIn_append (records more : List (QueryRecord T)) (node : Nat) :
    (nodesIn (records ++ more)).count node =
      (nodesIn records).count node + (nodesIn more).count node := by
  rw [nodesIn, List.flatMap_append, List.count_append]
  rfl

theorem count_pairsIn_append (records more : List (QueryRecord T)) (pair : Nat × Nat) :
    (pairsIn (records ++ more)).count pair =
      (pairsIn records).count pair + (pairsIn more).count pair := by
  rw [pairsIn, List.flatMap_append, List.count_append]
  rfl

-- Exact counters stay exact as long as none of them overflows and no pair dies out.
theorem Counts.record {record : QueryRecord T}
    (h : Counts memory numNodes (window capacity past))
    (hrecording : Recording memory capacity numNodes past) (hpos : 0 < capacity)
    (hnext : memory.record record = some next)
    (hfits : Fits numNodes (past ++ [record]) (window capacity (past ++ [record]))) :
    Counts next numNodes (window capacity (past ++ [record])) := by
  obtain ⟨next', old, rest, hnext', hrecording', hbefore, hafter, hnodes, hpairs⟩ :=
    hrecording.record hpos record
  rw [hnext'] at hnext
  obtain rfl := Option.some.inj hnext
  rw [hbefore] at h
  have hexact := hfits
  rw [hafter] at hfits ⊢
  constructor
  case length => exact hrecording'.length
  case nodes =>
    intro node hnode
    have hlt := hfits.nodes node hnode
    rw [hnodes node _ (h.nodes node hnode), count_nodesIn_append, Nat.add_sub_cancel_left]
    rw [count_nodesIn_append, nodesIn, nodesIn, List.flatMap_singleton] at hlt ⊢
    rw [Nat.mod_eq_of_lt hlt]
  case pairs =>
    intro pair
    have hlt := hfits.pairs pair
    rw [hpairs, h.pairs, count_pairsIn_append, Nat.add_sub_cancel_left]
    rw [count_pairsIn_append, pairsIn, pairsIn, List.flatMap_singleton] at hlt ⊢
    rw [Nat.mod_eq_of_lt hlt]
  case entries => exact fun pair hpair => hfits.retained pair ((hrecording'.entries pair).mp hpair)

theorem counts_new (capacity numNodes : Nat) :
    Counts (new capacity numNodes : QueryMemory T) numNodes (window capacity []) := by
  have hwindow : window capacity ([] : List (QueryRecord T)) = [] := List.drop_nil
  rw [hwindow]
  constructor
  case length => exact List.length_replicate
  case nodes => exact fun node hnode => List.getElem?_replicate_of_lt hnode
  case pairs => exact fun _ => rfl
  case entries => exact fun _ h => absurd h nofun

theorem counts_of_fits (hpos : 0 < capacity) (records : List (QueryRecord T))
    (hfits : ∀ count, Fits numNodes (records.take count) (window capacity (records.take count)))
    (hrun : run capacity numNodes records = some memory) :
    Counts memory numNodes (window capacity records) := by
  induction records using List.reverseRecOn generalizing memory with
  | nil =>
      obtain rfl := Option.some.inj hrun
      exact counts_new capacity numNodes
  | append_singleton records record ih =>
      rw [run_concat] at hrun
      obtain ⟨before, hbefore, hrecord⟩ := Option.bind_eq_some_iff.mp hrun
      obtain ⟨before', hbefore', hrecording⟩ :=
        exists_recording numNodes hpos records
      rw [hbefore] at hbefore'
      obtain rfl := Option.some.inj hbefore'
      have hcounts := ih (fun count => by
        have hprefix := hfits (min count records.length)
        rwa [List.take_append_of_le_length (Nat.min_le_right _ _),
          ← List.take_eq_take_min] at hprefix)
        hbefore
      have hall := hfits (records ++ [record]).length
      rw [List.take_length] at hall
      exact hcounts.record hrecording hpos hrecord hall

theorem fits_of_counts (hrecording : Recording memory capacity numNodes past)
    (h : Counts memory numNodes (window capacity past)) :
    Fits numNodes past (window capacity past) where
  nodes node hnode := hrecording.node_lt node _ (h.nodes node hnode)
  pairs pair := by
    rw [← h.pairs]
    exact hrecording.pair_lt pair
  retained pair hpair := h.entries pair ((hrecording.entries pair).mpr hpair)

-- The counters are exact after every call of a run if and only if the counts of the retained
-- records fit into them and every pair of the past is also one of a retained record.
theorem counts_window_iff (capacity numNodes : Nat) (records : List (QueryRecord T)) :
    (∀ count, ∀ memory ∈ run capacity numNodes (records.take count),
      Counts memory numNodes (window capacity (records.take count))) ↔
      (0 < capacity → ∀ count,
        Fits numNodes (records.take count) (window capacity (records.take count))) := by
  constructor
  · intro h hpos count
    obtain ⟨memory, hrun, hrecording⟩ := exists_recording numNodes hpos
      (records.take count)
    exact fits_of_counts hrecording (h count memory hrun)
  · intro h count memory hrun
    by_cases hpos : 0 < capacity
    · refine counts_of_fits hpos _ (fun shorter => ?_) hrun
      rw [List.take_take]
      exact h hpos (min shorter count)
    · obtain rfl : capacity = 0 := by omega
      cases hrecords : records.take count with
      | nil =>
          rw [hrecords] at hrun
          obtain rfl := Option.some.inj hrun
          exact counts_new 0 numNodes
      | cons record rest =>
          rw [hrecords] at hrun
          exact absurd hrun nofun

end Run

-- A pair that has left the memory keeps an entry with the count zero.
theorem forgotten_pair_kept :
    ¬ ∀ (capacity numNodes : Nat) (records : List (QueryRecord Nat)),
      ∀ memory ∈ run capacity numNodes records, ∀ pair,
        (memory.seedBigrams pair).isSome = true → pair ∈ pairsIn (window capacity records) := by
  intro h
  have hrun : (run 1 2 [⟨"", [0, 1], [], 0⟩, ⟨"", [], [], 1⟩]).map (fun memory =>
      memory.seedBigrams (0, 1)) = some (some 0) := by
    decide
  obtain ⟨memory, hmemory, hentry⟩ := Option.map_eq_some_iff.mp hrun
  have hkept := h 1 2 _ memory hmemory (0, 1) (by rw [hentry]; rfl)
  exact absurd hkept (by decide)

end M1nd.Core.QueryMemory
