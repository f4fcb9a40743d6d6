import M1nd.Control.Policy
import M1nd.Core.Snapshot
import M1nd.Library.Checks
import M1nd.Library.Json.Pretty
import Mathlib.Data.List.DropRight

namespace M1nd.Core

open M1nd.Control
open M1nd.Library
open M1nd.Library.Checks
open M1nd.Library.Json (Bytes Number Value)

-- The f64 timestamps, and the text they are written with. One that is not finite is written null.
class TremorF64 (T : Type) extends FiniteF64 T, Zero T, LT T where
  decidableLT : DecidableRel (α := T) (· < ·)
  toValue : T → Value

attribute [instance (100)] TremorF64.toZero

instance TremorF64.decidableRelLT {T : Type} [TremorF64 T] : DecidableRel (α := T) (· < ·) :=
  TremorF64.decidableLT

-- The f32 deltas.
class TremorF32 (D : Type) where
  isFinite : D → Bool
  toValue : D → Value

def DEFAULT_MAX_OBSERVATIONS : Nat := 256

def TREMOR_PERSISTENCE_VERSION : UInt32 := 1

structure TremorObservation (T D : Type) where
  timestamp : T
  weightDelta : D
  edgeEvents : UInt16
deriving DecidableEq

-- No answer depends on the order of the source's hash map.
structure TremorRegistry (T D : Type) where
  observations : BTreeMap (List (TremorObservation T D))
  maxObservations : Nat

structure TremorPersistenceFormat (T D : Type) where
  version : UInt32
  nodes : BTreeMap (List (TremorObservation T D))

inductive TremorError
  | CorruptState (reason : String)
  | Serde (reason : String)
deriving DecidableEq

-- What one call of `record_observation` gets.
structure TremorRecord (T D : Type) where
  externalId : String
  weightDelta : D
  edgeEvents : UInt16
  timestamp : T

-- What the decoders of serde_json answer, with the texts of their errors. `fromStr` reads the
-- file's text, too, and `value` gives the tree that is compared.
structure TremorReader (T D J : Type) where
  fromSlice : Bytes → Except String (TremorPersistenceFormat T D)
  fromStr : Bytes → Except String (TremorPersistenceFormat T D)
  value : Bytes → Except String J

variable {T D J : Type}

section Recording

def TremorRecord.observation (record : TremorRecord T D) : TremorObservation T D where
  timestamp := record.timestamp
  weightDelta := record.weightDelta
  edgeEvents := record.edgeEvents

-- The loop that makes room. The source's loop does not end for a capacity of zero, which neither
-- the constructor with the defaults nor a load gives.
def evict {α : Type} (capacity : Nat) : List α → List α
  | [] => []
  | oldest :: queue =>
      if capacity ≤ (oldest :: queue).length then evict capacity queue else oldest :: queue

namespace TremorRegistry

variable (registry : TremorRegistry T D)

def new (maxObservations : Nat) : TremorRegistry T D where
  observations := ∅
  maxObservations := maxObservations

def withDefaults : TremorRegistry T D :=
  new DEFAULT_MAX_OBSERVATIONS

def queue (externalId : String) : List (TremorObservation T D) :=
  registry.observations[externalId]?.getD []

def recordObservation (record : TremorRecord T D) : TremorRegistry T D :=
  { registry with
    observations := registry.observations.insert record.externalId
      (evict registry.maxObservations (registry.queue record.externalId) ++ [record.observation]) }

def recordAll (records : List (TremorRecord T D)) : TremorRegistry T D :=
  records.foldl recordObservation registry

-- Everything the registry was ever told of a node.
def history (records : List (TremorRecord T D)) (externalId : String) :
    List (TremorObservation T D) :=
  registry.queue externalId ++
    (records.filter (·.externalId = externalId)).map TremorRecord.observation

end TremorRegistry

end Recording

variable [TremorF64 T] [TremorF32 D]

section Encoding

namespace TremorObservation

variable (observation : TremorObservation T D)

def isInvalid : Bool :=
  !FiniteF64.isFinite observation.timestamp || decide (observation.timestamp < 0) ||
    !TremorF32.isFinite observation.weightDelta

def toValue : Value :=
  .object [
    ("timestamp", TremorF64.toValue observation.timestamp),
    ("weight_delta", TremorF32.toValue observation.weightDelta),
    ("edge_events", .ofNat observation.edgeEvents.toNat)]

end TremorObservation

def decreases (observations : List (TremorObservation T D)) : Bool :=
  (observations.zip observations.tail).any fun pair => decide (pair.2.timestamp < pair.1.timestamp)

def validateTremorNode (node : String × List (TremorObservation T D)) : Except TremorError Unit := do
  rejectIf (isBlank node.1 = true ∨ node.2 = [] ∨ DEFAULT_MAX_OBSERVATIONS < node.2.length)
    (.CorruptState
      s!"tremor node '{node.1}' has invalid observation cardinality {node.2.length}")
  rejectIf (node.2.any TremorObservation.isInvalid = true)
    (.CorruptState s!"tremor node '{node.1}' contains invalid numeric observations")
  rejectIf (decreases node.2 = true)
    (.CorruptState s!"tremor node '{node.1}' has decreasing timestamps")

def validateTremorNodes (nodes : BTreeMap (List (TremorObservation T D))) :
    Except TremorError Unit :=
  forM nodes.toList validateTremorNode

namespace TremorPersistenceFormat

variable (format : TremorPersistenceFormat T D)

def toValue : Value :=
  .object [
    ("version", .ofNat format.version.toNat),
    ("nodes", .object (format.nodes.toList.map fun node =>
      (node.1, .array (node.2.map TremorObservation.toValue))))]

def toVecPretty : Bytes :=
  format.toValue.pretty 0

end TremorPersistenceFormat

def TremorRegistry.format (registry : TremorRegistry T D) : TremorPersistenceFormat T D where
  version := TREMOR_PERSISTENCE_VERSION
  nodes := registry.observations

def encodeTremorStateJson (registry : TremorRegistry T D) : Except TremorError Bytes := do
  validateTremorNodes registry.observations
  return registry.format.toVecPretty

end Encoding

section Decoding

variable [DecidableEq J] (reader : TremorReader T D J)

def decodeTremorStateJson (bytes : Bytes) : Except TremorError (TremorRegistry T D) := do
  let format ← (reader.fromSlice bytes).mapError .Serde
  rejectIf (format.version ≠ TREMOR_PERSISTENCE_VERSION)
    (.CorruptState s!"unsupported tremor persistence version {format.version}")
  validateTremorNodes format.nodes
  -- Each node of the file enters an empty map.
  let registry : TremorRegistry T D := {
    observations := format.nodes
    maxObservations := DEFAULT_MAX_OBSERVATIONS }
  let projected ← encodeTremorStateJson registry
  let given ← (reader.value bytes).mapError .Serde
  let complete ← (reader.value projected).mapError .Serde
  rejectIf (given ≠ complete)
    (.CorruptState "tremor checkpoint is not the complete current schema")
  return registry

-- What the file holds when its replacement took the name.
def saveTremorState (registry : TremorRegistry T D) : Except TremorError Bytes :=
  encodeTremorStateJson registry

-- The queue is cut after the push, so it never stays full.
def loadObservation (queue : List (TremorObservation T D)) (observation : TremorObservation T D) :
    List (TremorObservation T D) :=
  if !FiniteF64.isFinite observation.timestamp || !TremorF32.isFinite observation.weightDelta then
    queue
  else if DEFAULT_MAX_OBSERVATIONS ≤ (queue ++ [observation]).length then
    (queue ++ [observation]).tail
  else queue ++ [observation]

def loadQueue (observations : List (TremorObservation T D)) : List (TremorObservation T D) :=
  observations.foldl loadObservation []

-- A node without an observation that is kept is left out.
def loadNodes (nodes : BTreeMap (List (TremorObservation T D))) :
    BTreeMap (List (TremorObservation T D)) :=
  nodes.filterMap fun _ observations =>
    if (loadQueue observations).isEmpty then none else some (loadQueue observations)

def loadTremorState (file : Option Bytes) : Except TremorError (TremorRegistry T D) :=
  match file with
  | none => .ok .withDefaults
  | some bytes => do
      let format ← (reader.fromStr bytes).mapError .Serde
      return {
        observations := loadNodes format.nodes
        maxObservations := DEFAULT_MAX_OBSERVATIONS }

end Decoding

section Windows

variable {α : Type} {queue : List α} {n : Nat}

theorem rtake_eq_self (h : queue.length ≤ n) : queue.rtake n = queue := by
  rw [List.rtake, Nat.sub_eq_zero_of_le h, List.drop_zero]

theorem length_rtake (queue : List α) (n : Nat) : (queue.rtake n).length = min n queue.length := by
  rw [List.rtake, List.length_drop]
  omega

theorem rtake_rtake_succ (queue : List α) (n : Nat) :
    (queue.rtake (n + 1)).rtake n = queue.rtake n := by
  have hdrop : queue.length - (n + 1) + (queue.length - (queue.length - (n + 1)) - n) =
      queue.length - n := by omega
  rw [List.rtake, List.rtake, List.drop_drop, List.length_drop, hdrop, List.rtake]

theorem evict_succ (queue : List α) (n : Nat) : evict (n + 1) queue = queue.rtake n := by
  induction queue with
  | nil => rw [evict, List.rtake_nil]
  | cons oldest queue ih =>
      rw [evict]
      by_cases hfull : n + 1 ≤ (oldest :: queue).length
      · have hlength : (oldest :: queue).length - n = queue.length - n + 1 := by
          rw [List.length_cons] at hfull ⊢
          omega
        rw [if_pos hfull, ih, List.rtake, List.rtake, hlength, List.drop_succ_cons]
      · rw [if_neg hfull, rtake_eq_self (by omega)]

-- A push into a full window drops what is behind its edge.
theorem evict_rtake_concat (past : List α) (item : α) (n : Nat) :
    evict (n + 1) (past.rtake (n + 1)) ++ [item] = (past ++ [item]).rtake (n + 1) := by
  rw [evict_succ, rtake_rtake_succ, List.rtake_concat_succ]

end Windows

section Recorded

variable {registry : TremorRegistry T D} {past : String → List (TremorObservation T D)}

omit [TremorF64 T] [TremorF32 D]

-- What a registry holds when it was told of the past of each node.
structure TremorRegistry.Keeps (registry : TremorRegistry T D)
    (past : String → List (TremorObservation T D)) : Prop where
  capacity : registry.maxObservations = DEFAULT_MAX_OBSERVATIONS
  window : ∀ externalId, registry.observations[externalId]? =
    if past externalId = [] then none
    else some ((past externalId).rtake DEFAULT_MAX_OBSERVATIONS)

namespace TremorRegistry

theorem Keeps.queue_eq (h : registry.Keeps past) (externalId : String) :
    registry.queue externalId = (past externalId).rtake DEFAULT_MAX_OBSERVATIONS := by
  rw [queue, h.window]
  by_cases hempty : past externalId = []
  · rw [if_pos hempty, hempty, List.rtake_nil, Option.getD_none]
  · rw [if_neg hempty, Option.getD_some]

theorem Keeps.recordObservation (h : registry.Keeps past) (record : TremorRecord T D) :
    (registry.recordObservation record).Keeps fun externalId =>
      past externalId ++ if record.externalId = externalId then [record.observation] else [] where
  capacity := h.capacity
  window externalId := by
    simp only [TremorRegistry.recordObservation, Std.ExtTreeMap.getElem?_insert,
      Std.LawfulEqCmp.compare_eq_iff_eq]
    by_cases hsame : record.externalId = externalId
    · subst hsame
      have hsome : past record.externalId ++ [record.observation] ≠ [] := by simp
      rw [if_pos rfl, if_pos rfl, if_neg hsome, h.queue_eq, h.capacity, DEFAULT_MAX_OBSERVATIONS,
        evict_rtake_concat]
    · rw [if_neg hsame, if_neg hsame, List.append_nil, h.window]

theorem Keeps.recordAll (h : registry.Keeps past) (records : List (TremorRecord T D)) :
    (registry.recordAll records).Keeps fun externalId =>
      past externalId ++
        (records.filter (·.externalId = externalId)).map TremorRecord.observation := by
  induction records generalizing registry past with
  | nil =>
      simp only [List.filter_nil, List.map_nil, List.append_nil]
      exact h
  | cons record records ih =>
      have hnext := ih (h.recordObservation record)
      have hpast (externalId : String) :
          (past externalId ++ if record.externalId = externalId then [record.observation] else []) ++
              (records.filter (·.externalId = externalId)).map TremorRecord.observation =
            past externalId ++ ((record :: records).filter (·.externalId = externalId)).map
              TremorRecord.observation := by
        by_cases hsame : record.externalId = externalId
        · simp [hsame]
        · simp [hsame]
      simp only [hpast] at hnext
      exact hnext

end TremorRegistry

end Recorded

section Valid

-- What the encoder asks of a node.
structure ValidNode (externalId : String) (observations : List (TremorObservation T D)) : Prop where
  named : isBlank externalId = false
  observed : observations ≠ []
  fits : observations.length ≤ DEFAULT_MAX_OBSERVATIONS
  numbers : ∀ observation ∈ observations, observation.isInvalid = false
  ordered : observations.IsChain fun before after => ¬ after.timestamp < before.timestamp

variable {externalId : String} {observations : List (TremorObservation T D)}
  {nodes : BTreeMap (List (TremorObservation T D))}

omit [TremorF32 D] in
theorem decreases_eq_false : decreases observations = false ↔
    observations.IsChain fun before after => ¬ after.timestamp < before.timestamp := by
  induction observations with
  | nil => simp [decreases]
  | cons first rest ih =>
      cases rest with
      | nil => simp [decreases]
      | cons second rest =>
          rw [List.isChain_cons_cons, ← ih]
          simp [decreases]

theorem validateTremorNode_eq_ok :
    validateTremorNode (externalId, observations) = .ok () ↔ ValidNode externalId observations := by
  rw [validateTremorNode, bind_unit_eq_ok, bind_unit_eq_ok, rejectIf_eq_ok, rejectIf_eq_ok,
    rejectIf_eq_ok, not_or, not_or, Bool.not_eq_true, Bool.not_eq_true, Bool.not_eq_true,
    decreases_eq_false, List.any_eq_false, Nat.not_lt]
  simp only [Bool.not_eq_true]
  constructor
  · rintro ⟨⟨hnamed, hobserved, hfits⟩, hnumbers, hordered⟩
    exact ⟨hnamed, hobserved, hfits, hnumbers, hordered⟩
  · intro h
    exact ⟨⟨h.named, h.observed, h.fits⟩, h.numbers, h.ordered⟩

theorem validateTremorNodes_eq_ok : validateTremorNodes nodes = .ok () ↔
    ∀ externalId observations, nodes[externalId]? = some observations →
      ValidNode externalId observations := by
  rw [validateTremorNodes, forM_eq_ok]
  constructor
  · intro h externalId observations hnode
    have hmem := Std.ExtTreeMap.mem_toList_iff_getElem?_eq_some.mpr hnode
    exact validateTremorNode_eq_ok.mp (h _ hmem)
  · rintro h ⟨externalId, observations⟩ hmem
    have hnode := Std.ExtTreeMap.mem_toList_iff_getElem?_eq_some.mp hmem
    exact validateTremorNode_eq_ok.mpr (h _ _ hnode)

variable {registry : TremorRegistry T D} {bytes : Bytes}

theorem encodeTremorStateJson_eq_ok : encodeTremorStateJson registry = .ok bytes ↔
    (∀ externalId observations, registry.observations[externalId]? = some observations →
      ValidNode externalId observations) ∧ registry.format.toVecPretty = bytes := by
  rw [encodeTremorStateJson, bind_unit_eq_ok, validateTremorNodes_eq_ok, pure_eq_ok]

end Valid

section Loading

variable {observations : List (TremorObservation T D)}

-- The numbers that a load keeps.
def TremorObservation.isFinite (observation : TremorObservation T D) : Bool :=
  FiniteF64.isFinite observation.timestamp && TremorF32.isFinite observation.weightDelta

omit [TremorF64 T] [TremorF32 D] in
theorem cut_eq_rtake {α : Type} {queue : List α} {n : Nat} (h : queue.length ≤ n + 1) :
    (if n + 1 ≤ queue.length then queue.tail else queue) = queue.rtake n := by
  by_cases hfull : n + 1 ≤ queue.length
  · have hone : queue.length - n = 1 := by omega
    rw [if_pos hfull, List.rtake, hone, List.drop_one]
  · rw [if_neg hfull, rtake_eq_self (by omega)]

-- A load never leaves a queue full.
theorem loadQueue_eq : loadQueue observations =
    (observations.filter TremorObservation.isFinite).rtake 255 := by
  induction observations using List.reverseRecOn with
  | nil => rw [loadQueue, List.foldl_nil, List.filter_nil, List.rtake_nil]
  | append_singleton rest last ih =>
      rw [loadQueue, List.foldl_concat, ← loadQueue, ih, List.filter_append, loadObservation,
        ← Bool.not_and, ← TremorObservation.isFinite]
      generalize rest.filter TremorObservation.isFinite = kept
      by_cases hfinite : last.isFinite = true
      · have hlength : ((kept ++ [last]).rtake 256).length ≤ 255 + 1 := by
          rw [length_rtake]
          omega
        rw [hfinite, List.filter_singleton, hfinite, cond_true, ← List.rtake_concat_succ,
          DEFAULT_MAX_OBSERVATIONS, cut_eq_rtake hlength, rtake_rtake_succ]
        simp only [Bool.not_true, Bool.false_eq_true, ↓reduceIte]
      · rw [Bool.not_eq_true] at hfinite
        rw [hfinite, List.filter_singleton, hfinite, cond_false, List.append_nil]
        simp only [Bool.not_false, ↓reduceIte]

end Loading

section Returning

variable {registry : TremorRegistry T D} {records : List (TremorRecord T D)} {bytes : Bytes}
  {past : String → List (TremorObservation T D)}

def TremorPersistenceFormat.Finite (format : TremorPersistenceFormat T D) : Prop :=
  ∀ (externalId : String) (observations : List (TremorObservation T D)),
    format.nodes[externalId]? = some observations →
      ∀ observation ∈ observations, observation.isFinite = true

-- What serde_json promises of finite numbers, with its feature for an exact round trip of floats.
structure TremorReader.ReadsBack (reader : TremorReader T D J) : Prop where
  slice : ∀ format, format.Finite → reader.fromSlice format.toVecPretty = .ok format
  text : ∀ format, format.Finite → reader.fromStr format.toVecPretty = .ok format
  value : ∀ format : TremorPersistenceFormat T D, ∃ value,
    reader.value format.toVecPretty = .ok value

inductive TremorRegistry.Made (reader : TremorReader T D J) : TremorRegistry T D → Prop
  | withDefaults : Made reader .withDefaults
  | loaded {file : Option Bytes} {registry : TremorRegistry T D}
      (h : loadTremorState reader file = .ok registry) : Made reader registry

def TremorRecord.Proper (record : TremorRecord T D) : Prop :=
  isBlank record.externalId = false ∧ record.observation.isInvalid = false

instance (record : TremorRecord T D) : Decidable record.Proper :=
  inferInstanceAs (Decidable (_ ∧ _))

-- The registry can be saved, and both decoders give back what was saved.
structure TremorRegistry.ComesBack [DecidableEq J] (reader : TremorReader T D J)
    (registry : TremorRegistry T D) : Prop where
  decodes : ∃ bytes back, encodeTremorStateJson registry = .ok bytes ∧
    decodeTremorStateJson reader bytes = .ok back ∧ back.observations = registry.observations
  loads : ∃ bytes, saveTremorState registry = .ok bytes ∧
    loadTremorState reader (some bytes) = .ok registry

-- A node's history with less than a full window and no step back in time. What a load gave may
-- have a blank name or times before the epoch, too.
structure Savable (externalId : String) (past : List (TremorObservation T D)) : Prop where
  named : isBlank externalId = false
  fits : past.length < DEFAULT_MAX_OBSERVATIONS
  epoch : ∀ observation ∈ past, ¬ observation.timestamp < 0
  ordered : past.IsChain fun before after => ¬ after.timestamp < before.timestamp

theorem TremorObservation.isInvalid_eq_false {observation : TremorObservation T D} :
    observation.isInvalid = false ↔
      observation.isFinite = true ∧ ¬ observation.timestamp < 0 := by
  simp only [isInvalid, isFinite, Bool.or_eq_false_iff, Bool.not_eq_false', Bool.and_eq_true,
    decide_eq_false_iff_not]
  tauto

theorem finite_of_valid (h : ∀ externalId observations,
    registry.observations[externalId]? = some observations → ValidNode externalId observations) :
    registry.format.Finite := by
  intro externalId observations hnode observation hmem
  have hvalid := (h externalId observations hnode).numbers observation hmem
  exact (TremorObservation.isInvalid_eq_false.mp hvalid).1

-- What the strict decoder makes of encoded bytes.
theorem decode_encoded [DecidableEq J] {reader : TremorReader T D J} (hreads : reader.ReadsBack)
    (hcapacity : registry.maxObservations = DEFAULT_MAX_OBSERVATIONS)
    (h : encodeTremorStateJson registry = .ok bytes) :
    decodeTremorStateJson reader bytes = .ok registry := by
  obtain ⟨hvalid, rfl⟩ := encodeTremorStateJson_eq_ok.mp h
  obtain ⟨value, hvalue⟩ := hreads.value registry.format
  have hregistry : { registry with maxObservations := DEFAULT_MAX_OBSERVATIONS } = registry := by
    rw [← hcapacity]
  refine bind_eq_ok.mpr ⟨registry.format, ?_, ?_⟩
  · rw [hreads.slice _ (finite_of_valid hvalid)]
    rfl
  refine bind_unit_eq_ok.mpr ⟨rejectIf_eq_ok.mpr (not_not.mpr rfl), ?_⟩
  refine bind_unit_eq_ok.mpr ⟨validateTremorNodes_eq_ok.mpr hvalid, ?_⟩
  refine bind_eq_ok.mpr ⟨registry.format.toVecPretty, ?_, ?_⟩
  · rw [← h]
    exact congrArg encodeTremorStateJson hregistry
  refine bind_eq_ok.mpr ⟨value, by rw [hvalue]; rfl, ?_⟩
  refine bind_eq_ok.mpr ⟨value, by rw [hvalue]; rfl, ?_⟩
  refine bind_unit_eq_ok.mpr ⟨rejectIf_eq_ok.mpr (not_not.mpr rfl), ?_⟩
  exact congrArg Except.ok hregistry

-- What the loader makes of the same bytes.
theorem load_encoded {reader : TremorReader T D J} (hreads : reader.ReadsBack)
    (hcapacity : registry.maxObservations = DEFAULT_MAX_OBSERVATIONS)
    (h : encodeTremorStateJson registry = .ok bytes) :
    loadTremorState reader (some bytes) = .ok registry ↔
      ∀ (externalId : String) (observations : List (TremorObservation T D)),
        registry.observations[externalId]? = some observations →
          observations.length < DEFAULT_MAX_OBSERVATIONS := by
  obtain ⟨hvalid, rfl⟩ := encodeTremorStateJson_eq_ok.mp h
  have hfinite := finite_of_valid hvalid
  have hqueue {externalId : String} {observations : List (TremorObservation T D)}
      (hnode : registry.observations[externalId]? = some observations) :
      loadQueue observations = observations.rtake 255 := by
    rw [loadQueue_eq, List.filter_eq_self.mpr (hfinite externalId observations hnode)]
  have hload : loadTremorState reader (some registry.format.toVecPretty) = .ok {
      observations := loadNodes registry.observations
      maxObservations := DEFAULT_MAX_OBSERVATIONS } := by
    rw [loadTremorState, hreads.text _ hfinite]
    rfl
  obtain ⟨nodes, capacity⟩ := registry
  obtain rfl : capacity = DEFAULT_MAX_OBSERVATIONS := hcapacity
  rw [hload, Except.ok.injEq, TremorRegistry.mk.injEq, and_iff_left rfl]
  constructor
  · intro hsame externalId observations hnode
    have hread := congrArg (·[externalId]?) hsame
    simp only [loadNodes, Std.ExtTreeMap.getElem?_filterMap', hnode, Option.bind_some] at hread
    have hkept : loadQueue observations = observations := by
      by_cases hempty : (loadQueue observations).isEmpty = true
      · rw [if_pos hempty] at hread
        exact nomatch hread
      · rw [if_neg hempty] at hread
        exact Option.some.inj hread
    have hlength := congrArg List.length ((hqueue hnode).symm.trans hkept)
    rw [length_rtake] at hlength
    rw [DEFAULT_MAX_OBSERVATIONS]
    omega
  · intro hshort
    refine Std.ExtTreeMap.ext_getElem? fun externalId => ?_
    rw [loadNodes, Std.ExtTreeMap.getElem?_filterMap']
    cases hnode : nodes[externalId]? with
    | none => rfl
    | some observations =>
        have hfits := hshort externalId observations hnode
        rw [DEFAULT_MAX_OBSERVATIONS] at hfits
        have hobserved := (hvalid externalId observations hnode).observed
        rw [Option.bind_some, hqueue hnode, rtake_eq_self (by omega), List.isEmpty_eq_false_iff.mpr
          hobserved]
        rfl

-- What a registry is made with fits the window.
structure TremorRegistry.Windowed (registry : TremorRegistry T D) : Prop where
  capacity : registry.maxObservations = DEFAULT_MAX_OBSERVATIONS
  window : ∀ (externalId : String) (observations : List (TremorObservation T D)),
    registry.observations[externalId]? = some observations →
      observations ≠ [] ∧ observations.length ≤ DEFAULT_MAX_OBSERVATIONS
  finite : ∀ (externalId : String), ∀ observation ∈ registry.queue externalId,
    observation.isFinite = true

theorem TremorRegistry.Windowed.keeps (h : registry.Windowed) : registry.Keeps registry.queue where
  capacity := h.capacity
  window externalId := by
    rw [queue]
    cases hnode : registry.observations[externalId]? with
    | none => rfl
    | some observations =>
        obtain ⟨hsome, hfits⟩ := h.window externalId observations hnode
        rw [Option.getD_some, if_neg hsome, rtake_eq_self hfits]

theorem TremorRegistry.windowed_withDefaults :
    (TremorRegistry.withDefaults : TremorRegistry T D).Windowed where
  capacity := rfl
  window externalId observations hnode := by simp [withDefaults, new] at hnode
  finite externalId observation hmem := by simp [queue, withDefaults, new] at hmem

theorem TremorRegistry.Made.windowed {reader : TremorReader T D J} (h : registry.Made reader) :
    registry.Windowed := by
  cases h with
  | withDefaults => exact windowed_withDefaults
  | @loaded file _ h =>
      cases file with
      | none =>
          obtain rfl := Except.ok.inj h
          exact windowed_withDefaults
      | some bytes =>
          obtain ⟨format, -, hreturn⟩ := bind_eq_ok.mp h
          obtain rfl := Except.ok.inj hreturn
          have hnodes {externalId : String} {observations : List (TremorObservation T D)}
              (hnode : (loadNodes format.nodes)[externalId]? = some observations) :
              observations ≠ [] ∧ ∃ given, loadQueue given = observations := by
            rw [loadNodes, Std.ExtTreeMap.getElem?_filterMap'] at hnode
            obtain ⟨given, -, hgiven⟩ := Option.bind_eq_some_iff.mp hnode
            by_cases hempty : (loadQueue given).isEmpty = true
            · rw [if_pos hempty] at hgiven
              exact nomatch hgiven
            · rw [if_neg hempty, Option.some.injEq] at hgiven
              exact ⟨fun hnil => hempty (List.isEmpty_iff.mpr (hgiven.trans hnil)), given, hgiven⟩
          refine ⟨rfl, fun externalId observations hnode => ?_, fun externalId observation hmem => ?_⟩
          · obtain ⟨hsome, given, rfl⟩ := hnodes hnode
            refine ⟨hsome, ?_⟩
            rw [loadQueue_eq, length_rtake, DEFAULT_MAX_OBSERVATIONS]
            omega
          · unfold queue at hmem
            cases hnode : (loadNodes format.nodes)[externalId]? with
            | none =>
                rw [hnode] at hmem
                exact absurd hmem List.not_mem_nil
            | some observations =>
                rw [hnode, Option.getD_some] at hmem
                obtain ⟨-, given, rfl⟩ := hnodes hnode
                rw [loadQueue_eq] at hmem
                exact (List.mem_filter.mp (List.mem_of_mem_drop hmem)).2

variable [DecidableEq J] {reader : TremorReader T D J}

-- The strict decoder gives back a full window, too.
theorem decodes_iff (hreads : reader.ReadsBack) (h : registry.Keeps past) :
    (∃ bytes back, encodeTremorStateJson registry = .ok bytes ∧
      decodeTremorStateJson reader bytes = .ok back ∧
        back.observations = registry.observations) ↔
      ∀ externalId, past externalId ≠ [] →
        ValidNode externalId ((past externalId).rtake DEFAULT_MAX_OBSERVATIONS) := by
  constructor
  · rintro ⟨bytes, -, hencode, -⟩ externalId hsome
    refine (encodeTremorStateJson_eq_ok.mp hencode).1 externalId _ ?_
    rw [h.window, if_neg hsome]
  · intro hvalid
    have hencode : encodeTremorStateJson registry = .ok registry.format.toVecPretty := by
      refine encodeTremorStateJson_eq_ok.mpr ⟨fun externalId observations hnode => ?_, rfl⟩
      rw [h.window] at hnode
      by_cases hempty : past externalId = []
      · rw [if_pos hempty] at hnode
        exact nomatch hnode
      · rw [if_neg hempty, Option.some.injEq] at hnode
        rw [← hnode]
        exact hvalid externalId hempty
    exact ⟨_, registry, hencode, decode_encoded hreads h.capacity hencode, rfl⟩

theorem TremorRegistry.comesBack_recordAll_iff (hreads : reader.ReadsBack)
    (hmade : registry.Made reader) (hproper : ∀ record ∈ records, record.Proper) :
    (registry.recordAll records).ComesBack reader ↔
      ∀ externalId, registry.history records externalId ≠ [] →
        Savable externalId (registry.history records externalId) := by
  have hkeeps := hmade.windowed.keeps.recordAll records
  have hfinite (externalId : String) : ∀ observation ∈ registry.history records externalId,
      observation.isFinite = true := by
    intro observation hmem
    obtain hstart | hrecorded := List.mem_append.mp hmem
    · exact hmade.windowed.finite externalId observation hstart
    · obtain ⟨record, hrecord, rfl⟩ := List.mem_map.mp hrecorded
      have hvalid := (hproper record (List.mem_of_mem_filter hrecord)).2
      exact (TremorObservation.isInvalid_eq_false.mp hvalid).1
  constructor
  · rintro ⟨hdecodes, bytes, hsave, hload⟩ externalId hsome
    have hvalid := (decodes_iff hreads hkeeps).mp hdecodes externalId hsome
    have hshort := (load_encoded hreads hkeeps.capacity hsave).mp hload externalId _
      ((hkeeps.window externalId).trans (if_neg hsome))
    have hfits : (registry.history records externalId).length < DEFAULT_MAX_OBSERVATIONS := by
      rw [length_rtake, ← history] at hshort
      omega
    rw [← history, rtake_eq_self (Nat.le_of_lt hfits)] at hvalid
    exact ⟨hvalid.named, hfits, fun observation hmem =>
      (TremorObservation.isInvalid_eq_false.mp (hvalid.numbers observation hmem)).2, hvalid.ordered⟩
  · intro hsavable
    have hvalid : ∀ externalId, registry.history records externalId ≠ [] → ValidNode externalId
        ((registry.history records externalId).rtake DEFAULT_MAX_OBSERVATIONS) := by
      intro externalId hsome
      have h := hsavable externalId hsome
      rw [rtake_eq_self (Nat.le_of_lt h.fits)]
      exact ⟨h.named, hsome, Nat.le_of_lt h.fits, fun observation hmem =>
        TremorObservation.isInvalid_eq_false.mpr ⟨hfinite externalId observation hmem,
          h.epoch observation hmem⟩, h.ordered⟩
    have hdecodes := (decodes_iff hreads hkeeps).mpr hvalid
    have hencodes := hdecodes
    obtain ⟨bytes, -, hencode, -⟩ := hencodes
    refine ⟨hdecodes, bytes, hencode, (load_encoded hreads hkeeps.capacity hencode).mpr ?_⟩
    intro externalId observations hnode
    rw [hkeeps.window, ← history] at hnode
    by_cases hempty : registry.history records externalId = []
    · rw [if_pos hempty] at hnode
      exact nomatch hnode
    · rw [if_neg hempty, Option.some.injEq] at hnode
      have hfits := (hsavable externalId hempty).fits
      rw [← hnode, length_rtake]
      omega

end Returning

section Seconds

-- A whole number with its decimal point.
def wholeNumber (n : Nat) : Number where
  text := (Number.ofNat n).text ++ Json.utf8 ".0"
  nonempty := List.append_ne_nil_of_left_ne_nil (Number.ofNat n).nonempty _
  wellFormed b hb := by
    obtain hdigit | hpoint := List.mem_append.mp hb
    · exact (Number.ofNat n).wellFormed b hdigit
    · have hdecimals : ∀ b ∈ Json.utf8 ".0", Json.isNumberByte b = true := by
        decide +kernel
      exact hdecimals b hpoint

theorem wholeNumber_injective : Function.Injective wholeNumber := by
  intro a b h
  have htext := List.append_cancel_right (congrArg Number.text h)
  exact Number.ofNat_injective (Number.mk.injEq .. |>.mpr htext)

instance secondsF64 : TremorF64 Nat where
  isFinite := fun _ => true
  decidableLT := inferInstance
  toValue n := .number (wholeNumber n)

instance unitsF32 : TremorF32 Nat where
  isFinite := fun _ => true
  toValue n := .number (wholeNumber n)

theorem TremorObservation.toValue_injective :
    Function.Injective (toValue : TremorObservation Nat Nat → Value) := by
  rintro ⟨t, d, e⟩ ⟨t', d', e'⟩ h
  simp only [toValue, TremorF64.toValue, TremorF32.toValue, Value.object.injEq, List.cons.injEq,
    Prod.mk.injEq, true_and, and_true, Value.number.injEq, wholeNumber_injective.eq_iff,
    Value.ofNat_inj, UInt16.toNat_inj] at h
  rw [TremorObservation.mk.injEq]
  exact h

theorem TremorPersistenceFormat.toVecPretty_injective :
    Function.Injective (toVecPretty : TremorPersistenceFormat Nat Nat → Bytes) := by
  intro a b h
  have hnode : Function.Injective fun node : String × List (TremorObservation Nat Nat) =>
      (node.1, Value.array (node.2.map TremorObservation.toValue)) := by
    rintro ⟨name, observations⟩ ⟨name', observations'⟩ hsame
    rw [Prod.mk.injEq, Value.array.injEq] at hsame
    exact Prod.ext hsame.1
      (List.map_injective_iff.mpr TremorObservation.toValue_injective hsame.2)
  have hvalue := Json.pretty_injective h
  simp only [toValue, Value.object.injEq, List.cons.injEq, Prod.mk.injEq, true_and, and_true,
    Value.ofNat_inj, UInt32.toNat_inj] at hvalue
  obtain ⟨version, nodes⟩ := a
  obtain ⟨version', nodes'⟩ := b
  rw [TremorPersistenceFormat.mk.injEq]
  exact ⟨hvalue.1, Std.ExtTreeMap.toList_inj.mp (List.map_injective_iff.mpr hnode hvalue.2)⟩

-- A reader of what the encoder writes.
noncomputable def readEncoded (bytes : Bytes) :
    Except String (TremorPersistenceFormat Nat Nat) :=
  (Function.partialInv TremorPersistenceFormat.toVecPretty bytes).elim (.error "unknown format") .ok

noncomputable def encodedReader : TremorReader Nat Nat Bytes where
  fromSlice := readEncoded
  fromStr := readEncoded
  value := .ok

theorem encodedReader_readsBack : encodedReader.ReadsBack := by
  have hread (format : TremorPersistenceFormat Nat Nat) :
      readEncoded format.toVecPretty = .ok format := by
    rw [readEncoded, Function.partialInv_left TremorPersistenceFormat.toVecPretty_injective]
    rfl
  exact ⟨fun format _ => hread format, fun format _ => hread format, fun format => ⟨_, rfl⟩⟩

-- Two observations of one node, in the order of the clock and against it.
def tick (timestamp : Nat) : TremorRecord Nat Nat :=
  ⟨"file::a", 1, 1, timestamp⟩

theorem comesBack_ticks :
    (TremorRegistry.withDefaults.recordAll [tick 1, tick 2]).ComesBack encodedReader := by
  have hproper : ∀ record ∈ [tick 1, tick 2], record.Proper := by decide
  refine (TremorRegistry.comesBack_recordAll_iff encodedReader_readsBack .withDefaults
    hproper).mpr fun externalId hsome => ?_
  by_cases hnamed : externalId = "file::a"
  · subst hnamed
    have hpast : TremorRegistry.withDefaults.history [tick 1, tick 2] "file::a" =
        [(tick 1).observation, (tick 2).observation] := by decide +kernel
    rw [hpast]
    exact ⟨by decide, by decide, by decide, by decide⟩
  · refine absurd ?_ hsome
    simp [TremorRegistry.history, TremorRegistry.queue, TremorRegistry.withDefaults,
      TremorRegistry.new, tick, Ne.symm hnamed]

theorem not_comesBack_ticks :
    (∀ record ∈ [tick 2, tick 1], record.Proper) ∧
      ¬ (TremorRegistry.withDefaults.recordAll [tick 2, tick 1]).ComesBack encodedReader := by
  refine ⟨by decide, ?_⟩
  rintro ⟨⟨bytes, back, hencode, -⟩, -⟩
  have hrefused : encodeTremorStateJson (TremorRegistry.withDefaults.recordAll [tick 2, tick 1]) =
      .error (.CorruptState "tremor node 'file::a' has decreasing timestamps") := by rfl
  rw [hrefused] at hencode
  exact nomatch hencode

end Seconds

end M1nd.Core
