import M1nd.Control.Policy
import M1nd.Library.Counters
import Mathlib.Algebra.Order.Field.Basic
import Mathlib.Tactic.Linarith

namespace M1nd.Core

open M1nd.Control
open M1nd.Library.Overflow

variable {K : Type} [Field K] [LinearOrder K]

section Constants

variable (K)

def TRUST_COLD_START_DEFAULT : K := 1 / 2

def RECENCY_HALF_LIFE_HOURS : K := 720

def RECENCY_FLOOR : K := 3 / 10

def RISK_MULTIPLIER_CAP : K := 3

end Constants

inductive TrustTier
  | HighRisk
  | MediumRisk
  | LowRisk
  | Unknown
deriving DecidableEq

-- The counters are u32.
structure TrustEntry (K : Type) where
  defectCount : BitVec 32
  falseAlarmCount : BitVec 32
  partialCount : BitVec 32
  lastDefectTimestamp : K
  firstDefectTimestamp : K
  totalLearnEvents : BitVec 32

structure TrustScore (K : Type) where
  trustScore : K
  defectDensity : K
  riskMultiplier : K
  recencyFactor : K
  tier : TrustTier
deriving DecidableEq

-- No answer depends on the order of the source's hash map.
structure TrustLedger (K : Type) where
  entries : BTreeMap (TrustEntry K)

-- The exponential decay of a defect, by its age in half-lives.
structure RecencyDecay (K : Type) [Field K] [LinearOrder K] where
  at_ : K → K
  antitone : Antitone at_
  nonneg : ∀ age, 0 ≤ at_ age
  le_one : ∀ age, at_ age ≤ 1

section Recording

omit [LinearOrder K]

def TrustEntry.fresh (firstDefectTimestamp : K) : TrustEntry K where
  defectCount := 0
  falseAlarmCount := 0
  partialCount := 0
  lastDefectTimestamp := 0
  firstDefectTimestamp := firstDefectTimestamp
  totalLearnEvents := 0

namespace TrustLedger

def new : TrustLedger K where
  entries := ∅

variable (mode : OverflowMode) (ledger : TrustLedger K) (externalId : String) (timestamp : K)

-- The entry of a node, or a new one.
def entryOr (fresh : TrustEntry K) : TrustEntry K :=
  ledger.entries[externalId]?.getD fresh

def recordDefect : Option (TrustLedger K) := do
  let entry := ledger.entryOr externalId (.fresh timestamp)
  let defectCount ← mode.add entry.defectCount 1
  let totalLearnEvents ← mode.add entry.totalLearnEvents 1
  some {
    entries := ledger.entries.insert externalId {
      entry with
      defectCount := defectCount
      totalLearnEvents := totalLearnEvents
      lastDefectTimestamp := timestamp
      firstDefectTimestamp := if defectCount = 1 then timestamp else entry.firstDefectTimestamp } }

def recordFalseAlarm : Option (TrustLedger K) := do
  let entry := ledger.entryOr externalId (.fresh 0)
  let falseAlarmCount ← mode.add entry.falseAlarmCount 1
  let totalLearnEvents ← mode.add entry.totalLearnEvents 1
  some {
    entries := ledger.entries.insert externalId {
      entry with
      falseAlarmCount := falseAlarmCount
      totalLearnEvents := totalLearnEvents } }

def recordPartial : Option (TrustLedger K) := do
  let entry := ledger.entryOr externalId (.fresh 0)
  let partialCount ← mode.add entry.partialCount 1
  let totalLearnEvents ← mode.add entry.totalLearnEvents 1
  some {
    entries := ledger.entries.insert externalId {
      entry with
      partialCount := partialCount
      totalLearnEvents := totalLearnEvents } }

end TrustLedger

inductive Adjudication
  | Defect
  | FalseAlarm
  | PartialMatch
deriving DecidableEq

-- One call of a recording method.
structure TrustEvent (K : Type) where
  adjudication : Adjudication
  externalId : String
  timestamp : K
deriving DecidableEq

namespace TrustLedger

-- The timestamps of the other adjudications are dropped.
def record (mode : OverflowMode) (ledger : TrustLedger K) (event : TrustEvent K) :
    Option (TrustLedger K) :=
  match event.adjudication with
  | .Defect => ledger.recordDefect mode event.externalId event.timestamp
  | .FalseAlarm => ledger.recordFalseAlarm mode event.externalId
  | .PartialMatch => ledger.recordPartial mode event.externalId

def recordAll (mode : OverflowMode) (events : List (TrustEvent K)) : Option (TrustLedger K) :=
  events.foldlM (record mode) new

end TrustLedger

end Recording

section Scoring

variable (decay : RecencyDecay K) (now halfLifeHours riskCap : K)

def coldStart : TrustScore K where
  trustScore := TRUST_COLD_START_DEFAULT K
  defectDensity := 0
  riskMultiplier := 1
  recencyFactor := 0
  tier := .Unknown

def tierOf (trustScore : K) : TrustTier :=
  if trustScore < 2 / 5 then .HighRisk
  else if trustScore < 7 / 10 then .MediumRisk
  else .LowRisk

def hoursSince (timestamp : K) : K :=
  max ((now - timestamp) / 3600) 0

namespace TrustEntry

variable (entry : TrustEntry K)

def rawDensity : K :=
  (entry.defectCount.toNat : K) / (entry.totalLearnEvents.toNat : K)

-- A timestamp of zero stands for none.
def recency : K :=
  if 0 < entry.defectCount ∧ 0 < entry.lastDefectTimestamp then
    decay.at_ (hoursSince now entry.lastDefectTimestamp / max halfLifeHours 1)
  else 0

def weightedDensity : K :=
  entry.rawDensity * (RECENCY_FLOOR K + (1 - RECENCY_FLOOR K) * entry.recency decay now halfLifeHours)

def score : TrustScore K :=
  let weightedDensity := entry.weightedDensity decay now halfLifeHours
  let trustScore := max (1 - weightedDensity) (1 / 20)
  { trustScore := trustScore
    defectDensity := entry.rawDensity
    riskMultiplier := min (1 + weightedDensity * 2) riskCap
    recencyFactor := entry.recency decay now halfLifeHours
    tier := tierOf trustScore }

end TrustEntry

namespace TrustLedger

variable (ledger : TrustLedger K) (externalId : String)

def computeTrustWithParams : TrustScore K :=
  match ledger.entries[externalId]? with
  | none => coldStart
  | some entry =>
      if entry.totalLearnEvents = 0 then coldStart
      else entry.score decay now halfLifeHours riskCap

def computeTrust : TrustScore K :=
  ledger.computeTrustWithParams decay now (RECENCY_HALF_LIFE_HOURS K) (RISK_MULTIPLIER_CAP K)
    externalId

end TrustLedger

end Scoring

section Histories

-- The events of a node.
def pastOf (events : List (TrustEvent K)) (externalId : String) : List (TrustEvent K) :=
  events.filter (·.externalId = externalId)

def defectTimes (past : List (TrustEvent K)) : List K :=
  (past.filter (·.adjudication = .Defect)).map TrustEvent.timestamp

def countOf (adjudication : Adjudication) (past : List (TrustEvent K)) : Nat :=
  past.countP (·.adjudication = adjudication)

-- The defects of every node were recorded in the order of their times.
def InOrder (events : List (TrustEvent K)) : Prop :=
  ∀ externalId, (defectTimes (pastOf events externalId)).Pairwise (· ≤ ·)

variable (decay : RecencyDecay K) (now : K)

-- The recency of defects that were recorded in this order.
def recencyOf (times : List K) : K :=
  match times.getLast? with
  | none => 0
  | some last =>
      if 0 < last then decay.at_ (hoursSince now last / max (RECENCY_HALF_LIFE_HOURS K) 1) else 0

def densityOf (past : List (TrustEvent K)) : K :=
  (countOf .Defect past : K) / (past.length : K) *
    (RECENCY_FLOOR K + (1 - RECENCY_FLOOR K) * recencyOf decay now (defectTimes past))

-- The trust in a node with these events.
def trustOf (past : List (TrustEvent K)) : K :=
  if past = [] then TRUST_COLD_START_DEFAULT K else max (1 - densityOf decay now past) (1 / 20)

-- A defect is not older than the last one of its node, and has a recency of at least two sevenths
-- where it is the first event of its node.
def Timely (past : List (TrustEvent K)) (event : TrustEvent K) : Prop :=
  event.adjudication = .Defect →
    (past = [] → 2 / 7 ≤ recencyOf decay now [event.timestamp]) ∧
      ∀ last ∈ (defectTimes past).getLast?, last ≤ event.timestamp

end Histories

end M1nd.Core
