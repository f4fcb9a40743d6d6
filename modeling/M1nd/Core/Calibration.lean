import M1nd.Library.Ranks
import Mathlib.Algebra.Order.Field.Basic
import Mathlib.Algebra.Order.Floor.Semiring
import Mathlib.Data.Rat.Floor

namespace M1nd.Core

open M1nd.Library.Ranks

-- A confidence as it comes in. f32 is exact here, in any ordered field.
inductive Score (K : Type)
  | finite (value : K)
  | notFinite
deriving DecidableEq

variable {K : Type} [Field K] [LinearOrder K]

def Score.value : Score K → Option K
  | .finite value => some value
  | .notFinite => none

def finiteScores (scores : List (Score K)) : List K :=
  scores.filterMap Score.value

def clamp (low high x : K) : K :=
  if x < low then low else if high < x then high else x

-- The rank of the threshold among the finite scores.
def conformalRank [FloorSemiring K] (m : Nat) (alpha : K) : Nat :=
  ⌈((m + 1 : Nat) : K) * (1 - alpha)⌉₊

def conformalQuantile [FloorSemiring K] (scores : List (Score K)) (alpha : K) : Option K :=
  if scores = [] then some 1
  else
    let sorted := (finiteScores scores).mergeSort (· ≤ ·)
    let m := sorted.length
    if m = 0 then some 1
    else
      let rank := conformalRank m (clamp 0 1 alpha)
      if m ≤ rank then some 1 else sorted[min (rank - 1) (m - 1)]?

namespace Calibration

variable [IsStrictOrderedRing K] [FloorSemiring K] {scores others : List (Score K)}
  {alpha beta x : K}

omit [Field K] [IsStrictOrderedRing K] [FloorSemiring K] in
theorem sorted_mergeSort (values : List K) : (values.mergeSort (· ≤ ·)).Pairwise (· ≤ ·) := by
  have htrans (a b c : K) (hab : decide (a ≤ b) = true) (hbc : decide (b ≤ c) = true) :
      decide (a ≤ c) = true :=
    decide_eq_true ((of_decide_eq_true hab).trans (of_decide_eq_true hbc))
  have htotal (a b : K) : (decide (a ≤ b) || decide (b ≤ a)) = true := by
    simpa using le_total a b
  exact (List.pairwise_mergeSort htrans htotal values).imp of_decide_eq_true

omit [IsStrictOrderedRing K] [FloorSemiring K] in
theorem clamp_eq (h : 0 ≤ alpha ∧ alpha ≤ 1) : clamp 0 1 alpha = alpha := by
  rw [clamp, if_neg (not_lt.mpr h.1), if_neg (not_lt.mpr h.2)]

omit [IsStrictOrderedRing K] in
-- The threshold falls back to one where the rank is that of the largest score, or higher.
theorem conformalQuantile_of_le (h : 0 ≤ alpha ∧ alpha ≤ 1)
    (hrank : (finiteScores scores).length ≤ conformalRank (finiteScores scores).length alpha) :
    conformalQuantile scores alpha = some 1 := by
  rw [conformalQuantile, clamp_eq h]
  dsimp only
  rw [List.length_mergeSort, if_pos hrank]
  split
  · rfl
  · split <;> rfl

omit [IsStrictOrderedRing K] in
-- Below that it is the score of the rank, the smallest one for the rank zero.
theorem exists_conformalQuantile (h : 0 ≤ alpha ∧ alpha ≤ 1)
    (hrank : conformalRank (finiteScores scores).length alpha < (finiteScores scores).length) :
    ∃ x, conformalQuantile scores alpha = some x ∧ Ranked (finiteScores scores)
      (max (conformalRank (finiteScores scores).length alpha) 1) x := by
  have hlength : ((finiteScores scores).mergeSort (· ≤ ·)).length = (finiteScores scores).length :=
    List.length_mergeSort _
  have hscores : scores ≠ [] := by
    rintro rfl
    exact Nat.not_lt_zero _ hrank
  have hindex : min (conformalRank (finiteScores scores).length alpha - 1)
      ((finiteScores scores).length - 1) =
        conformalRank (finiteScores scores).length alpha - 1 := by omega
  have hlt : conformalRank (finiteScores scores).length alpha - 1 <
      ((finiteScores scores).mergeSort (· ≤ ·)).length := by omega
  have hranked : Ranked (finiteScores scores)
      (conformalRank (finiteScores scores).length alpha - 1 + 1) _ :=
    (ranked_getElem (sorted_mergeSort (finiteScores scores)) hlt).perm (List.mergeSort_perm _ _)
  have hone : conformalRank (finiteScores scores).length alpha - 1 + 1 =
      max (conformalRank (finiteScores scores).length alpha) 1 := by omega
  rw [hone] at hranked
  refine ⟨_, ?_, hranked⟩
  rw [conformalQuantile, if_neg hscores, clamp_eq h]
  dsimp only
  rw [hlength, if_neg (by omega), if_neg (by omega), hindex, List.getElem?_eq_getElem hlt]

-- What the threshold is to be, for the rank of the finite-sample quantile. No more scores than there
-- are can be at most the threshold.
structure Exact (scores : List (Score K)) (alpha : K) : Prop where
  ranked : 1 ≤ conformalRank (finiteScores scores).length alpha →
    conformalRank (finiteScores scores).length alpha ≤ (finiteScores scores).length →
      ∃ x, conformalQuantile scores alpha = some x ∧
        Ranked (finiteScores scores) (conformalRank (finiteScores scores).length alpha) x
  fallback : (finiteScores scores).length < conformalRank (finiteScores scores).length alpha ∨
    finiteScores scores = [] → conformalQuantile scores alpha = some 1
  covers : conformalRank (finiteScores scores).length alpha ≤ (finiteScores scores).length →
    ∃ x, conformalQuantile scores alpha = some x ∧
      conformalRank (finiteScores scores).length alpha ≤ (finiteScores scores).countP (· ≤ x)
  antitone : ∀ beta, alpha ≤ beta → beta ≤ 1 → ∃ x y, conformalQuantile scores alpha = some x ∧
    conformalQuantile scores beta = some y ∧ y ≤ x
  ordered : ∀ others : List (Score K), others.Perm scores →
    conformalQuantile others alpha = conformalQuantile scores alpha

theorem conformalRank_le (m : Nat) (h : alpha ≤ beta) :
    conformalRank m beta ≤ conformalRank m alpha := by
  refine Nat.ceil_mono (mul_le_mul_of_nonneg_left ?_ (Nat.cast_nonneg _))
  exact sub_le_sub_left h 1

omit [Field K] [LinearOrder K] [IsStrictOrderedRing K] [FloorSemiring K] in
theorem finiteScores_perm (h : others.Perm scores) :
    (finiteScores others).Perm (finiteScores scores) :=
  h.filterMap _

section Bounded

variable (hscores : ∀ x ∈ finiteScores scores, 0 ≤ x ∧ x ≤ 1) (halpha : 0 ≤ alpha ∧ alpha ≤ 1)

include hscores in
omit [IsStrictOrderedRing K] [FloorSemiring K] in
-- The largest score is one where any score is.
theorem ranked_length (hone : 1 ∈ finiteScores scores) :
    Ranked (finiteScores scores) (finiteScores scores).length 1 where
  mem := hone
  below := by
    refine lt_of_le_of_ne List.countP_le_length fun hall => ?_
    exact lt_irrefl _ (of_decide_eq_true (List.countP_eq_length.mp hall 1 hone))
  upTo := by
    refine (List.countP_eq_length.mpr fun x hx => ?_).ge
    exact decide_eq_true (hscores x hx).2

include halpha in
omit [IsStrictOrderedRing K] in
theorem conformalQuantile_perm (h : others.Perm scores) :
    conformalQuantile others alpha = conformalQuantile scores alpha := by
  have hvalues := finiteScores_perm h
  by_cases hrank : (finiteScores scores).length ≤
      conformalRank (finiteScores scores).length alpha
  · rw [conformalQuantile_of_le halpha hrank, conformalQuantile_of_le halpha]
    rwa [hvalues.length_eq]
  · rw [not_le] at hrank
    obtain ⟨x, hx, hranked⟩ := exists_conformalQuantile halpha hrank
    have hrank' := hrank
    rw [← hvalues.length_eq] at hrank'
    obtain ⟨y, hy, hranked'⟩ := exists_conformalQuantile halpha hrank'
    rw [hvalues.length_eq] at hranked'
    rw [hx, hy, (hranked'.perm hvalues).unique hranked]

include hscores halpha in
theorem conformalQuantile_antitone (hle : alpha ≤ beta) (hbeta : beta ≤ 1) :
    ∃ x y, conformalQuantile scores alpha = some x ∧ conformalQuantile scores beta = some y ∧
      y ≤ x := by
  have hranks := conformalRank_le (finiteScores scores).length hle
  have hbounds : 0 ≤ beta ∧ beta ≤ 1 := ⟨halpha.1.trans hle, hbeta⟩
  by_cases hlow : (finiteScores scores).length ≤ conformalRank (finiteScores scores).length beta
  · exact ⟨1, 1, conformalQuantile_of_le halpha (hlow.trans hranks),
      conformalQuantile_of_le hbounds hlow, le_rfl⟩
  · obtain ⟨y, hy, hranked⟩ := exists_conformalQuantile hbounds (not_le.mp hlow)
    by_cases hhigh : (finiteScores scores).length ≤
        conformalRank (finiteScores scores).length alpha
    · exact ⟨1, y, conformalQuantile_of_le halpha hhigh, hy, (hscores y hranked.mem).2⟩
    · obtain ⟨x, hx, hranked'⟩ := exists_conformalQuantile halpha (not_le.mp hhigh)
      exact ⟨x, y, hx, hy, hranked.le hranked' (max_le_max_right 1 hranks)⟩

include hscores halpha in
-- The fallback is taken one rank too early: it shows where the rank is that of the largest score,
-- and that score is smaller than one.
theorem conformalQuantile_exact_iff : Exact scores alpha ↔
    (conformalRank (finiteScores scores).length alpha = (finiteScores scores).length →
      finiteScores scores ≠ [] → 1 ∈ finiteScores scores) := by
  constructor
  · intro hexact hrank hne
    have hpos : 1 ≤ (finiteScores scores).length := List.length_pos_of_ne_nil hne
    obtain ⟨x, hx, hranked⟩ := hexact.ranked (by omega) hrank.le
    have hone := conformalQuantile_of_le halpha hrank.ge
    obtain rfl := Option.some.inj (hx.symm.trans hone)
    exact hranked.mem
  · intro hlast
    constructor
    case ranked =>
      intro hpos hle
      obtain hlt | heq := Nat.lt_or_eq_of_le hle
      · obtain ⟨x, hx, hranked⟩ := exists_conformalQuantile halpha hlt
        rw [max_eq_left hpos] at hranked
        exact ⟨x, hx, hranked⟩
      · have hne : finiteScores scores ≠ [] := List.ne_nil_of_length_pos (by omega)
        refine ⟨1, conformalQuantile_of_le halpha heq.ge, ?_⟩
        rw [heq]
        exact ranked_length hscores (hlast heq hne)
    case fallback =>
      rintro (hlt | hnil)
      · exact conformalQuantile_of_le halpha hlt.le
      · refine conformalQuantile_of_le halpha ?_
        rw [hnil]
        exact Nat.zero_le _
    case covers =>
      intro hle
      obtain hlt | heq := Nat.lt_or_eq_of_le hle
      · obtain ⟨x, hx, hranked⟩ := exists_conformalQuantile halpha hlt
        exact ⟨x, hx, (le_max_left _ _).trans hranked.upTo⟩
      · refine ⟨1, conformalQuantile_of_le halpha heq.ge, heq.le.trans ?_⟩
        refine (List.countP_eq_length.mpr fun x hx => ?_).ge
        exact decide_eq_true (hscores x hx).2
    case antitone => exact fun beta => conformalQuantile_antitone hscores halpha
    case ordered => exact fun others => conformalQuantile_perm halpha

end Bounded

theorem conformalQuantile_exact_iff_quarter :
    Exact [Score.finite (1 / 2 : Rat), .notFinite, .finite (1 / 4)] (1 / 2) ↔
      (conformalRank 2 (1 / 2 : Rat) = 2 → [(1 / 2 : Rat), 1 / 4] ≠ [] →
        1 ∈ [(1 / 2 : Rat), 1 / 4]) :=
  conformalQuantile_exact_iff
    (by simp only [finiteScores, List.filterMap, Score.value]; decide +kernel) (by norm_num)

-- The threshold of one score, which is also the largest one.
theorem conformalQuantile_half : ¬Exact [Score.finite (1 / 2 : Rat)] (1 / 2) := by
  intro hexact
  have hrank : conformalRank [(1 / 2 : Rat)].length (1 / 2 : Rat) = 1 := by
    norm_num [conformalRank]
  obtain ⟨x, hx, hranked⟩ := hexact.ranked hrank.ge hrank.le
  have hone : conformalQuantile [Score.finite (1 / 2 : Rat)] (1 / 2) = some 1 :=
    conformalQuantile_of_le (by norm_num) hrank.ge
  obtain rfl := Option.some.inj (hx.symm.trans hone)
  have hmem : (1 : Rat) ∈ [(1 / 2 : Rat)] := hranked.mem
  norm_num at hmem

end Calibration

end M1nd.Core
