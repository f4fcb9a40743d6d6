import M1nd.Core.Trust
import Mathlib.Tactic.GCongr
import Mathlib.Tactic.Positivity
import Mathlib.Tactic.Ring

namespace M1nd.Core

open M1nd.Control
open M1nd.Library.Overflow

variable {K : Type} [Field K] [LinearOrder K]

section Histories

variable {events : List (TrustEvent K)} {past : List (TrustEvent K)}

-- What an entry holds of the events of its node.
structure TrustEntry.Tallies (entry : TrustEntry K) (past : List (TrustEvent K)) : Prop where
  defects : entry.defectCount.toNat = countOf .Defect past
  falseAlarms : entry.falseAlarmCount.toNat = countOf .FalseAlarm past
  partials : entry.partialCount.toNat = countOf .PartialMatch past
  total : entry.totalLearnEvents.toNat = past.length
  last : entry.lastDefectTimestamp = (defectTimes past).getLastD 0

-- A node has an entry as soon as it has an event.
structure TrustLedger.Tallies (ledger : TrustLedger K) (events : List (TrustEvent K)) : Prop where
  absent : ∀ externalId, ledger.entries[externalId]? = none → pastOf events externalId = []
  present : ∀ externalId entry, ledger.entries[externalId]? = some entry →
    pastOf events externalId ≠ [] ∧ entry.Tallies (pastOf events externalId)

omit [Field K] [LinearOrder K] in
theorem pastOf_concat (events : List (TrustEvent K)) (event : TrustEvent K) (externalId : String) :
    pastOf (events ++ [event]) externalId =
      pastOf events externalId ++ if event.externalId = externalId then [event] else [] := by
  by_cases hsame : event.externalId = externalId <;> simp [pastOf, hsame]

omit [Field K] [LinearOrder K] in
theorem length_defectTimes (past : List (TrustEvent K)) :
    (defectTimes past).length = countOf .Defect past := by
  rw [defectTimes, List.length_map, countOf, List.countP_eq_length_filter]

omit [LinearOrder K] in
theorem TrustEntry.tallies_fresh (first : K) : (TrustEntry.fresh first).Tallies [] where
  defects := rfl
  falseAlarms := rfl
  partials := rfl
  total := rfl
  last := rfl

omit [LinearOrder K] in
theorem TrustLedger.Tallies.entryOr {ledger : TrustLedger K} (h : ledger.Tallies events)
    (externalId : String) (first : K) :
    (ledger.entryOr externalId (.fresh first)).Tallies (pastOf events externalId) := by
  unfold TrustLedger.entryOr
  cases hentry : ledger.entries[externalId]? with
  | none =>
      rw [h.absent externalId hentry, Option.getD_none]
      exact TrustEntry.tallies_fresh first
  | some entry =>
      rw [Option.getD_some]
      exact (h.present externalId entry hentry).2

end Histories

section Recording

variable {mode : OverflowMode} {ledger next : TrustLedger K} {events : List (TrustEvent K)}
  {event : TrustEvent K}

omit [LinearOrder K]

-- The ledger with a new entry for the node of an event.
theorem TrustLedger.Tallies.insert (h : ledger.Tallies events) {entry : TrustEntry K}
    (hentry : entry.Tallies (pastOf events event.externalId ++ [event])) :
    (TrustLedger.mk (ledger.entries.insert event.externalId entry)).Tallies (events ++ [event]) := by
  constructor
  case absent =>
    intro externalId hnone
    simp only [Std.ExtTreeMap.getElem?_insert, Std.LawfulEqCmp.compare_eq_iff_eq] at hnone
    by_cases hsame : event.externalId = externalId
    · rw [if_pos hsame] at hnone
      exact nomatch hnone
    · rw [if_neg hsame] at hnone
      rw [pastOf_concat, if_neg hsame, List.append_nil]
      exact h.absent externalId hnone
  case present =>
    intro externalId found hfound
    simp only [Std.ExtTreeMap.getElem?_insert, Std.LawfulEqCmp.compare_eq_iff_eq] at hfound
    rw [pastOf_concat]
    by_cases hsame : event.externalId = externalId
    · rw [if_pos hsame, Option.some.injEq] at hfound
      subst hsame hfound
      rw [if_pos rfl]
      exact ⟨by simp, hentry⟩
    · rw [if_neg hsame] at hfound
      rw [if_neg hsame, List.append_nil]
      exact h.present externalId found hfound

omit [Field K] in
theorem pastOf_length_concat (events : List (TrustEvent K)) (event : TrustEvent K) :
    (pastOf (events ++ [event]) event.externalId).length =
      (pastOf events event.externalId).length + 1 := by
  rw [pastOf_concat, if_pos rfl, List.length_append, List.length_singleton]

omit [Field K] in
theorem countOf_concat {adjudication : Adjudication} (h : event.adjudication = adjudication)
    (past : List (TrustEvent K)) :
    countOf adjudication (past ++ [event]) = countOf adjudication past + 1 := by
  rw [countOf, countOf, List.countP_append, List.countP_singleton, if_pos (decide_eq_true h)]

omit [Field K] in
theorem countOf_concat_of_ne {adjudication other : Adjudication}
    (h : event.adjudication = adjudication) (hother : adjudication ≠ other)
    (past : List (TrustEvent K)) : countOf other (past ++ [event]) = countOf other past := by
  have hno : event.adjudication ≠ other := fun he => hother (h.symm.trans he)
  rw [countOf, countOf, List.countP_append, List.countP_singleton,
    if_neg (by simpa using hno), Nat.add_zero]

omit [Field K] in
theorem defectTimes_concat (past : List (TrustEvent K)) (event : TrustEvent K) :
    defectTimes (past ++ [event]) =
      defectTimes past ++ if event.adjudication = .Defect then [event.timestamp] else [] := by
  by_cases hdefect : event.adjudication = .Defect <;> simp [defectTimes, hdefect]

-- The counters of a node have room for one more event.
theorem TrustEntry.Tallies.exists_add {entry : TrustEntry K} {past : List (TrustEvent K)}
    (h : entry.Tallies past) (mode : OverflowMode) (hroom : past.length + 1 < 2 ^ 32) :
    (∃ defects, mode.add entry.defectCount 1 = some defects ∧
        defects.toNat = countOf .Defect past + 1) ∧
      (∃ falseAlarms, mode.add entry.falseAlarmCount 1 = some falseAlarms ∧
        falseAlarms.toNat = countOf .FalseAlarm past + 1) ∧
      (∃ partials, mode.add entry.partialCount 1 = some partials ∧
        partials.toNat = countOf .PartialMatch past + 1) ∧
      ∃ total, mode.add entry.totalLearnEvents 1 = some total ∧ total.toNat = past.length + 1 := by
  have hone : (1 : BitVec 32).toNat = 1 := rfl
  have hcount (adjudication : Adjudication) : countOf adjudication past + 1 < 2 ^ 32 :=
    (Nat.succ_le_succ List.countP_le_length).trans_lt hroom
  have hadd {counter : BitVec 32} {count : Nat} (hcounter : counter.toNat = count)
      (hsmall : count + 1 < 2 ^ 32) :
      ∃ sum, mode.add counter 1 = some sum ∧ sum.toNat = count + 1 := by
    have hsum := mode.exists_add (a := counter) (b := 1) (by rw [hcounter, hone]; exact hsmall)
    rwa [hcounter, hone] at hsum
  exact ⟨hadd h.defects (hcount _), hadd h.falseAlarms (hcount _), hadd h.partials (hcount _),
    hadd h.total hroom⟩

-- What recording an event does to a ledger.
theorem TrustLedger.Tallies.record (h : ledger.Tallies events) (mode : OverflowMode)
    (hroom : (pastOf events event.externalId).length + 1 < 2 ^ 32) :
    ∃ entry : TrustEntry K, entry.Tallies (pastOf events event.externalId ++ [event]) ∧
      ledger.record mode event = some ⟨ledger.entries.insert event.externalId entry⟩ := by
  unfold TrustLedger.record
  cases hkind : event.adjudication with
  | Defect =>
      have hold := h.entryOr event.externalId event.timestamp
      obtain ⟨⟨defects, hdefects, hdefects'⟩, -, -, total, htotal, htotal'⟩ :=
        hold.exists_add mode hroom
      refine ⟨{ ledger.entryOr event.externalId (.fresh event.timestamp) with
          defectCount := defects
          totalLearnEvents := total
          lastDefectTimestamp := event.timestamp
          firstDefectTimestamp := if defects = 1 then event.timestamp
            else (ledger.entryOr event.externalId (.fresh event.timestamp)).firstDefectTimestamp },
        ⟨?_, ?_, ?_, ?_, ?_⟩, ?_⟩
      · rw [hdefects', countOf_concat hkind]
      · exact hold.falseAlarms.trans (countOf_concat_of_ne hkind (by decide) _).symm
      · exact hold.partials.trans (countOf_concat_of_ne hkind (by decide) _).symm
      · rw [htotal', List.length_append, List.length_singleton]
      · rw [defectTimes_concat, if_pos hkind, List.getLastD_concat]
      · simp only [TrustLedger.recordDefect, hdefects, htotal, Option.bind_eq_bind,
          Option.bind_some]
  | FalseAlarm =>
      have hold := h.entryOr event.externalId 0
      obtain ⟨-, ⟨falseAlarms, hfalse, hfalse'⟩, -, total, htotal, htotal'⟩ :=
        hold.exists_add mode hroom
      have hnodefect : event.adjudication ≠ .Defect := by rw [hkind]; decide
      refine ⟨{ ledger.entryOr event.externalId (.fresh 0) with
          falseAlarmCount := falseAlarms
          totalLearnEvents := total },
        ⟨?_, ?_, ?_, ?_, ?_⟩, ?_⟩
      · exact hold.defects.trans (countOf_concat_of_ne hkind (by decide) _).symm
      · rw [hfalse', countOf_concat hkind]
      · exact hold.partials.trans (countOf_concat_of_ne hkind (by decide) _).symm
      · rw [htotal', List.length_append, List.length_singleton]
      · rw [defectTimes_concat, if_neg hnodefect, List.append_nil]
        exact hold.last
      · simp only [TrustLedger.recordFalseAlarm, hfalse, htotal, Option.bind_eq_bind,
          Option.bind_some]
  | PartialMatch =>
      have hold := h.entryOr event.externalId 0
      obtain ⟨-, -, ⟨partials, hpartials, hpartials'⟩, total, htotal, htotal'⟩ :=
        hold.exists_add mode hroom
      have hnodefect : event.adjudication ≠ .Defect := by rw [hkind]; decide
      refine ⟨{ ledger.entryOr event.externalId (.fresh 0) with
          partialCount := partials
          totalLearnEvents := total },
        ⟨?_, ?_, ?_, ?_, ?_⟩, ?_⟩
      · exact hold.defects.trans (countOf_concat_of_ne hkind (by decide) _).symm
      · exact hold.falseAlarms.trans (countOf_concat_of_ne hkind (by decide) _).symm
      · rw [hpartials', countOf_concat hkind]
      · rw [htotal', List.length_append, List.length_singleton]
      · rw [defectTimes_concat, if_neg hnodefect, List.append_nil]
        exact hold.last
      · simp only [TrustLedger.recordPartial, hpartials, htotal, Option.bind_eq_bind,
          Option.bind_some]

end Recording

section Scores

variable (decay : RecencyDecay K) (now : K)

variable {decay now} {past : List (TrustEvent K)} {event : TrustEvent K} {times : List K}

theorem recencyOf_concat (times : List K) (timestamp : K) :
    recencyOf decay now (times ++ [timestamp]) = recencyOf decay now [timestamp] := by
  rw [recencyOf, recencyOf, List.getLast?_concat]
  rfl

theorem recencyOf_nonneg (times : List K) : 0 ≤ recencyOf decay now times := by
  unfold recencyOf
  cases times.getLast? with
  | none => exact le_refl 0
  | some last =>
      dsimp only
      split_ifs
      · exact decay.nonneg _
      · exact le_refl 0

section Ordered

variable [IsStrictOrderedRing K]

theorem recencyOf_le_one (times : List K) : recencyOf decay now times ≤ 1 := by
  unfold recencyOf
  cases times.getLast? with
  | none => exact zero_le_one
  | some last =>
      dsimp only
      split_ifs
      · exact decay.le_one _
      · exact zero_le_one

-- A later defect is more recent.
theorem recencyOf_le_concat {timestamp : K} (h : ∀ last ∈ times.getLast?, last ≤ timestamp) :
    recencyOf decay now times ≤ recencyOf decay now (times ++ [timestamp]) := by
  rw [recencyOf_concat]
  cases hlast : times.getLast? with
  | none =>
      rw [recencyOf, hlast]
      exact recencyOf_nonneg _
  | some last =>
      have hle : last ≤ timestamp := h last hlast
      by_cases hpos : 0 < last
      · have hhours : hoursSince now timestamp ≤ hoursSince now last := by
          unfold hoursSince
          gcongr
        have hhalf : (0 : K) < max (RECENCY_HALF_LIFE_HOURS K) 1 :=
          lt_max_of_lt_right zero_lt_one
        have hage := decay.antitone (div_le_div_of_nonneg_right hhours hhalf.le)
        simp only [recencyOf, hlast, List.getLast?_singleton, if_pos hpos,
          if_pos (hpos.trans_le hle)]
        exact hage
      · rw [recencyOf, hlast]
        dsimp only
        rw [if_neg hpos]
        exact recencyOf_nonneg _

omit [Field K] [LinearOrder K] [IsStrictOrderedRing K] in
theorem countOf_le_length (past : List (TrustEvent K)) : countOf .Defect past ≤ past.length :=
  List.countP_le_length

-- A weight that recency gives to a density lies between the floor and one.
theorem weight_mem (times : List K) :
    3 / 10 ≤ RECENCY_FLOOR K + (1 - RECENCY_FLOOR K) * recencyOf decay now times ∧
      RECENCY_FLOOR K + (1 - RECENCY_FLOOR K) * recencyOf decay now times ≤ 1 := by
  have hnonneg : 0 ≤ recencyOf decay now times := recencyOf_nonneg times
  have hle : recencyOf decay now times ≤ 1 := recencyOf_le_one times
  unfold RECENCY_FLOOR
  constructor <;> linarith

theorem densityOf_nonneg (past : List (TrustEvent K)) : 0 ≤ densityOf decay now past := by
  have hweight : 3 / 10 ≤ RECENCY_FLOOR K +
      (1 - RECENCY_FLOOR K) * recencyOf decay now (defectTimes past) :=
    (weight_mem _).1
  refine mul_nonneg (div_nonneg (Nat.cast_nonneg _) (Nat.cast_nonneg _)) ?_
  linarith

-- The share of defects among the events falls with a further event that is none, and grows with
-- one that is.
theorem share_mono {defects events : Nat} (hpos : 0 < events) (hle : defects ≤ events) :
    (defects : K) / ((events + 1 : Nat) : K) ≤ (defects : K) / (events : K) ∧
      (defects : K) / (events : K) ≤ ((defects + 1 : Nat) : K) / ((events + 1 : Nat) : K) := by
  have hevents : (0 : K) < (events : K) := Nat.cast_pos.mpr hpos
  have hmore : (0 : K) < ((events + 1 : Nat) : K) := Nat.cast_pos.mpr (Nat.succ_pos events)
  constructor
  · gcongr
    exact Nat.le_succ events
  · rw [div_le_div_iff₀ hevents hmore]
    have hcross : defects * (events + 1) ≤ (defects + 1) * events := by
      rw [Nat.mul_succ, Nat.succ_mul]
      exact Nat.add_le_add_left hle _
    exact_mod_cast hcross

theorem trustOf_mem (past : List (TrustEvent K)) :
    1 / 20 ≤ trustOf decay now past ∧ trustOf decay now past ≤ 1 := by
  have hdensity : 0 ≤ densityOf decay now past := densityOf_nonneg past
  unfold trustOf TRUST_COLD_START_DEFAULT
  split_ifs
  · constructor <;> norm_num
  · refine ⟨le_max_right _ _, max_le (by linarith) (by norm_num)⟩

-- The trust in a node that had no event is the default.
theorem trustOf_singleton_le_iff (hdefect : event.adjudication = .Defect) :
    trustOf decay now [event] ≤ trustOf decay now [] ↔
      2 / 7 ≤ recencyOf decay now [event.timestamp] := by
  have hdensity : densityOf decay now [event] =
      3 / 10 + 7 / 10 * recencyOf decay now [event.timestamp] := by
    have htimes := defectTimes_concat ([] : List (TrustEvent K)) event
    have hcount := countOf_concat hdefect ([] : List (TrustEvent K))
    rw [List.nil_append, if_pos hdefect] at htimes
    rw [List.nil_append] at hcount
    rw [densityOf, htimes, hcount, RECENCY_FLOOR, List.length_singleton]
    simp only [countOf, defectTimes, List.countP_nil, List.filter_nil, List.map_nil,
      List.nil_append, Nat.zero_add, Nat.cast_one, div_one, one_mul]
    ring
  rw [trustOf, trustOf, if_neg (List.cons_ne_nil _ _), if_pos rfl, hdensity,
    TRUST_COLD_START_DEFAULT, max_le_iff]
  constructor
  · rintro ⟨hle, -⟩
    linarith
  · intro hle
    constructor
    · linarith
    · norm_num

theorem trustOf_concat_le (htimely : Timely decay now past event)
    (hdefect : event.adjudication = .Defect) :
    trustOf decay now (past ++ [event]) ≤ trustOf decay now past := by
  obtain ⟨hfirst, hlast⟩ := htimely hdefect
  by_cases hnil : past = []
  · subst hnil
    exact (trustOf_singleton_le_iff hdefect).mpr (hfirst rfl)
  · have hshare := (share_mono (K := K) (List.length_pos_iff.mpr hnil) (countOf_le_length past)).2
    have hrecency : recencyOf decay now (defectTimes past) ≤
        recencyOf decay now (defectTimes past ++ [event.timestamp]) :=
      recencyOf_le_concat hlast
    have hfloor : 3 / 10 ≤ RECENCY_FLOOR K +
        (1 - RECENCY_FLOOR K) * recencyOf decay now (defectTimes past) :=
      (weight_mem _).1
    have hdensity : densityOf decay now past ≤ densityOf decay now (past ++ [event]) := by
      rw [densityOf, densityOf, countOf_concat hdefect, defectTimes_concat, if_pos hdefect,
        List.length_append, List.length_singleton]
      refine mul_le_mul hshare ?_ (by linarith) (by positivity)
      unfold RECENCY_FLOOR
      linarith
    rw [trustOf, trustOf, if_neg hnil, if_neg (by simp)]
    exact max_le_max_right _ (by linarith)

theorem le_trustOf_concat (hother : event.adjudication ≠ .Defect) :
    trustOf decay now past ≤ trustOf decay now (past ++ [event]) := by
  have hcount : countOf .Defect (past ++ [event]) = countOf .Defect past :=
    countOf_concat_of_ne rfl hother past
  by_cases hnil : past = []
  · subst hnil
    have hdensity : densityOf decay now [event] = 0 := by
      rw [List.nil_append] at hcount
      rw [densityOf, hcount, countOf, List.countP_nil, Nat.cast_zero, zero_div, zero_mul]
    rw [List.nil_append, trustOf, trustOf, if_pos rfl, if_neg (List.cons_ne_nil _ _), hdensity,
      TRUST_COLD_START_DEFAULT]
    exact le_max_of_le_left (by norm_num)
  · have hshare := (share_mono (K := K) (List.length_pos_iff.mpr hnil) (countOf_le_length past)).1
    have hfloor : 3 / 10 ≤ RECENCY_FLOOR K +
        (1 - RECENCY_FLOOR K) * recencyOf decay now (defectTimes past) :=
      (weight_mem _).1
    have hdensity : densityOf decay now (past ++ [event]) ≤ densityOf decay now past := by
      rw [densityOf, densityOf, hcount, defectTimes_concat, if_neg hother, List.append_nil,
        List.length_append, List.length_singleton]
      exact mul_le_mul_of_nonneg_right hshare (by linarith)
    rw [trustOf, trustOf, if_neg hnil, if_neg (by simp)]
    exact max_le_max_right _ (by linarith)

end Ordered

end Scores

section Runs

variable {decay : RecencyDecay K} {now : K} {mode : OverflowMode} {ledger : TrustLedger K}
  {events : List (TrustEvent K)}

omit [LinearOrder K] in
theorem TrustLedger.tallies_new : (TrustLedger.new : TrustLedger K).Tallies [] where
  absent _ _ := rfl
  present externalId entry hentry := by
    rw [TrustLedger.new, Std.ExtTreeMap.getElem?_empty] at hentry
    exact nomatch hentry

omit [LinearOrder K] in
-- A ledger of events of which no node has too many.
theorem TrustLedger.exists_recordAll (mode : OverflowMode)
    (hfew : ∀ externalId, (pastOf events externalId).length < 2 ^ 32) :
    ∃ ledger, TrustLedger.recordAll mode events = some ledger ∧ ledger.Tallies events := by
  induction events using List.reverseRecOn with
  | nil => exact ⟨TrustLedger.new, rfl, TrustLedger.tallies_new⟩
  | append_singleton events event ih =>
      have hbefore (externalId : String) : (pastOf events externalId).length < 2 ^ 32 := by
        refine Nat.lt_of_le_of_lt ?_ (hfew externalId)
        rw [pastOf_concat, List.length_append]
        exact Nat.le_add_right _ _
      have hroom := hfew event.externalId
      rw [pastOf_length_concat] at hroom
      obtain ⟨ledger, hrun, htallies⟩ := ih hbefore
      obtain ⟨entry, hentry, hrecord⟩ := htallies.record mode hroom
      refine ⟨_, ?_, htallies.insert hentry⟩
      rw [TrustLedger.recordAll] at hrun
      rw [TrustLedger.recordAll, List.foldlM_append, hrun]
      simp only [Option.bind_eq_bind, Option.bind_some, List.foldlM_cons, List.foldlM_nil, hrecord,
        Option.pure_def]

-- What the score of an entry depends on.
theorem TrustEntry.Tallies.score_eq {entry other : TrustEntry K}
    {past past' : List (TrustEvent K)} (h : entry.Tallies past) (hother : other.Tallies past')
    (hcount : countOf .Defect past = countOf .Defect past')
    (hlength : past.length = past'.length) (htimes : defectTimes past = defectTimes past')
    (halfLifeHours riskCap : K) :
    entry.score decay now halfLifeHours riskCap = other.score decay now halfLifeHours riskCap := by
  have hdefects : entry.defectCount = other.defectCount :=
    BitVec.eq_of_toNat_eq (by rw [h.defects, hother.defects, hcount])
  have htotal : entry.totalLearnEvents = other.totalLearnEvents :=
    BitVec.eq_of_toNat_eq (by rw [h.total, hother.total, hlength])
  have hlast : entry.lastDefectTimestamp = other.lastDefectTimestamp := by
    rw [h.last, hother.last, htimes]
  simp only [TrustEntry.score, TrustEntry.weightedDensity, TrustEntry.rawDensity,
    TrustEntry.recency, hdefects, htotal, hlast]

theorem TrustEntry.Tallies.recency_eq {entry : TrustEntry K} {past : List (TrustEvent K)}
    (h : entry.Tallies past) :
    entry.recency decay now (RECENCY_HALF_LIFE_HOURS K) =
      recencyOf decay now (defectTimes past) := by
  have hcount := h.defects
  rw [← length_defectTimes] at hcount
  have hlast := h.last
  rw [List.getLastD_eq_getLast?] at hlast
  unfold TrustEntry.recency recencyOf
  cases htimes : (defectTimes past).getLast? with
  | none =>
      have hzero : ¬ 0 < entry.defectCount := by
        rw [BitVec.lt_def, hcount, List.getLast?_eq_none_iff.mp htimes]
        exact Nat.lt_irrefl 0
      rw [if_neg (fun hboth => hzero hboth.1)]
  | some last =>
      have hpos : 0 < entry.defectCount := by
        rw [BitVec.lt_def, hcount]
        refine List.length_pos_iff.mpr fun hnil => ?_
        rw [hnil] at htimes
        exact nomatch htimes
      rw [htimes, Option.getD_some] at hlast
      simp only [hpos, true_and, hlast]

theorem TrustLedger.Tallies.trustScore_eq (h : ledger.Tallies events) (externalId : String) :
    (ledger.computeTrust decay now externalId).trustScore =
      trustOf decay now (pastOf events externalId) := by
  unfold TrustLedger.computeTrust TrustLedger.computeTrustWithParams
  cases hentry : ledger.entries[externalId]? with
  | none =>
      rw [h.absent externalId hentry]
      rfl
  | some entry =>
      obtain ⟨hsome, htallies⟩ := h.present externalId entry hentry
      have htotal : entry.totalLearnEvents ≠ 0 := by
        intro hzero
        have hlength := htallies.total
        rw [hzero] at hlength
        exact hsome (List.length_eq_zero_iff.mp hlength.symm)
      simp only [if_neg htotal]
      rw [trustOf, if_neg hsome, TrustEntry.score, TrustEntry.weightedDensity,
        htallies.recency_eq, TrustEntry.rawDensity, htallies.defects, htallies.total]
      rfl

-- Ledgers that hold the same events in the order of the times of their defects.
theorem TrustLedger.Tallies.computeTrust_eq {other : TrustLedger K} {events' : List (TrustEvent K)}
    (h : ledger.Tallies events) (hother : other.Tallies events') (hperm : events'.Perm events)
    (horder : InOrder events) (horder' : InOrder events') (externalId : String) :
    other.computeTrust decay now externalId = ledger.computeTrust decay now externalId := by
  have hpast : (pastOf events' externalId).Perm (pastOf events externalId) := hperm.filter _
  have htimes : defectTimes (pastOf events' externalId) = defectTimes (pastOf events externalId) :=
    ((hpast.filter _).map _).eq_of_pairwise' (horder' externalId) (horder externalId)
  unfold TrustLedger.computeTrust TrustLedger.computeTrustWithParams
  cases hentry : ledger.entries[externalId]? with
  | none =>
      cases hentry' : other.entries[externalId]? with
      | none => rfl
      | some entry' =>
          have hnil := (hpast.trans (h.absent externalId hentry ▸ .refl _)).eq_nil
          exact absurd hnil (hother.present externalId entry' hentry').1
  | some entry =>
      obtain ⟨hsome, htallies⟩ := h.present externalId entry hentry
      cases hentry' : other.entries[externalId]? with
      | none =>
          have hnil := (hpast.symm.trans (hother.absent externalId hentry' ▸ .refl _)).eq_nil
          exact absurd hnil hsome
      | some entry' =>
          obtain ⟨-, htallies'⟩ := hother.present externalId entry' hentry'
          have htotal : entry'.totalLearnEvents = entry.totalLearnEvents :=
            BitVec.eq_of_toNat_eq (by rw [htallies'.total, htallies.total, hpast.length_eq])
          simp only [htotal]
          rw [htallies'.score_eq htallies (hpast.countP_eq _) hpast.length_eq htimes]

end Runs

section Results

variable [IsStrictOrderedRing K]

-- Trust at a time, of a ledger whose counters have not overflowed: no defect raises it that is not
-- older than the last one of its node, and the order of the events does not count where the
-- defects of every node come in the order of their times.
theorem TrustLedger.trust_moves (decay : RecencyDecay K) (now : K) (mode : OverflowMode)
    (events : List (TrustEvent K))
    (hfew : ∀ externalId, (pastOf events externalId).length < 2 ^ 32) :
    ∃ ledger, TrustLedger.recordAll mode events = some ledger ∧
      (∀ externalId, 1 / 20 ≤ (ledger.computeTrust decay now externalId).trustScore ∧
        (ledger.computeTrust decay now externalId).trustScore ≤ 1) ∧
      (∀ event, (pastOf events event.externalId).length + 1 < 2 ^ 32 →
        ∃ next, ledger.record mode event = some next ∧
          (∀ externalId, event.externalId ≠ externalId →
            next.computeTrust decay now externalId = ledger.computeTrust decay now externalId) ∧
          (event.adjudication ≠ .Defect →
            (ledger.computeTrust decay now event.externalId).trustScore ≤
              (next.computeTrust decay now event.externalId).trustScore) ∧
          (event.adjudication = .Defect →
            (Timely decay now (pastOf events event.externalId) event →
              (next.computeTrust decay now event.externalId).trustScore ≤
                (ledger.computeTrust decay now event.externalId).trustScore) ∧
            (pastOf events event.externalId = [] →
              (next.computeTrust decay now event.externalId).trustScore ≤
                (ledger.computeTrust decay now event.externalId).trustScore →
              Timely decay now (pastOf events event.externalId) event))) ∧
      (InOrder events → ∀ events' : List (TrustEvent K), events'.Perm events → InOrder events' →
        ∃ other, TrustLedger.recordAll mode events' = some other ∧
          ∀ externalId,
            other.computeTrust decay now externalId = ledger.computeTrust decay now externalId) := by
  obtain ⟨ledger, hrun, htallies⟩ := TrustLedger.exists_recordAll mode hfew
  refine ⟨ledger, hrun, ?_, ?_, ?_⟩
  · intro externalId
    rw [htallies.trustScore_eq]
    exact trustOf_mem _
  · intro event hroom
    obtain ⟨entry, hentry, hrecord⟩ := htallies.record mode hroom
    have hnext := htallies.insert hentry
    have hpast : pastOf (events ++ [event]) event.externalId =
        pastOf events event.externalId ++ [event] := by
      rw [pastOf_concat, if_pos rfl]
    refine ⟨_, hrecord, ?_, ?_, ?_⟩
    · intro externalId hother
      simp only [TrustLedger.computeTrust, TrustLedger.computeTrustWithParams,
        Std.ExtTreeMap.getElem?_insert, Std.LawfulEqCmp.compare_eq_iff_eq, if_neg hother]
    · intro hnone
      rw [htallies.trustScore_eq, hnext.trustScore_eq, hpast]
      exact le_trustOf_concat hnone
    · intro hdefect
      rw [htallies.trustScore_eq, hnext.trustScore_eq, hpast]
      refine ⟨fun htimely => trustOf_concat_le htimely hdefect, ?_⟩
      intro hnil hle
      rw [hnil] at hle ⊢
      intro _
      exact ⟨fun _ => (trustOf_singleton_le_iff hdefect).mp hle, fun last hlast => nomatch hlast⟩
  · intro horder events' hperm horder'
    have hfew' (externalId : String) : (pastOf events' externalId).length < 2 ^ 32 :=
      (hperm.filter _).length_eq.trans_lt (hfew externalId)
    obtain ⟨other, hrun', htallies'⟩ := TrustLedger.exists_recordAll mode hfew'
    exact ⟨other, hrun', htallies.computeTrust_eq htallies' hperm horder horder'⟩

def hyperbolic : RecencyDecay Rat where
  at_ age := 1 / (1 + max age 0)
  antitone younger older h := by
    have hpos : (0 : Rat) < 1 + max younger 0 := by positivity
    exact one_div_le_one_div_of_le hpos (by gcongr)
  nonneg age := by positivity
  le_one age := by
    have hone : (1 : Rat) ≤ 1 + max age 0 := le_add_of_nonneg_right (le_max_right _ _)
    exact (div_le_one (zero_lt_one.trans_le hone)).mpr hone

def defectAt (timestamp : Rat) : TrustEvent Rat where
  adjudication := .Defect
  externalId := "file::a.rs"
  timestamp := timestamp

theorem TrustLedger.trust_moves_second :
    ∃ ledger next, TrustLedger.recordAll .Panics [defectAt 1296000] = some ledger ∧
      ledger.record .Panics (defectAt 2592000) = some next ∧
      (next.computeTrust hyperbolic 2592000 "file::a.rs").trustScore ≤
        (ledger.computeTrust hyperbolic 2592000 "file::a.rs").trustScore := by
  obtain ⟨ledger, hrun, -, hstep, -⟩ := TrustLedger.trust_moves hyperbolic 2592000 .Panics
    [defectAt 1296000] fun externalId =>
      Nat.lt_of_le_of_lt (List.length_filter_le _ _) (by decide)
  obtain ⟨next, hnext, -, -, hdefect⟩ := hstep (defectAt 2592000) (by decide)
  refine ⟨ledger, next, hrun, hnext, (hdefect rfl).1 ?_⟩
  intro _
  refine ⟨fun hnil => absurd hnil (by decide), fun last hlast => ?_⟩
  obtain rfl : (1296000 : Rat) = last := Option.some.inj hlast
  exact (by norm_num : (1296000 : Rat) ≤ 2592000)

-- A late report of an older defect takes the place of the last one.
theorem TrustLedger.trust_raised_late :
    ∃ ledger next other, TrustLedger.recordAll .Panics [defectAt 2592000] = some ledger ∧
      ledger.record .Panics (defectAt 1296000) = some next ∧
      TrustLedger.recordAll .Panics [defectAt 1296000, defectAt 2592000] = some other ∧
      (ledger.computeTrust hyperbolic 2592000 "file::a.rs").trustScore <
        (next.computeTrust hyperbolic 2592000 "file::a.rs").trustScore ∧
      other.computeTrust hyperbolic 2592000 "file::a.rs" ≠
        next.computeTrust hyperbolic 2592000 "file::a.rs" := by
  have hfew (events : List (TrustEvent Rat)) (h : events.length < 2 ^ 32) (externalId : String) :
      (pastOf events externalId).length < 2 ^ 32 :=
    Nat.lt_of_le_of_lt (List.length_filter_le _ _) h
  obtain ⟨ledger, hrun, htallies⟩ := TrustLedger.exists_recordAll .Panics
    (hfew [defectAt 2592000] (by decide))
  obtain ⟨entry, hentry, hrecord⟩ := @TrustLedger.Tallies.record _ _ _ _ (defectAt 1296000) htallies .Panics (by decide)
  obtain ⟨other, hother, htallies'⟩ := TrustLedger.exists_recordAll .Panics
    (hfew [defectAt 1296000, defectAt 2592000] (by decide))
  have hraised : trustOf hyperbolic 2592000 [defectAt 2592000] <
      trustOf hyperbolic 2592000 [defectAt 2592000, defectAt 1296000] := by
    decide +kernel
  have hdiffers : trustOf hyperbolic 2592000 [defectAt 1296000, defectAt 2592000] ≠
      trustOf hyperbolic 2592000 [defectAt 2592000, defectAt 1296000] := by
    decide +kernel
  refine ⟨ledger, _, other, hrun, hrecord, hother, ?_, ?_⟩
  · rw [htallies.trustScore_eq, (htallies.insert hentry).trustScore_eq]
    exact hraised
  · intro hsame
    have hscores := congrArg TrustScore.trustScore hsame
    rw [htallies'.trustScore_eq, (htallies.insert hentry).trustScore_eq] at hscores
    exact hdiffers hscores

end Results

end M1nd.Core
