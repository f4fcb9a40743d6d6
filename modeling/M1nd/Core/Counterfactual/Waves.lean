import M1nd.Core.Counterfactual
import M1nd.Library.Spreading

namespace M1nd.Core

open M1nd.Library
open M1nd.Library.Loops
open M1nd.Library.Spreading

variable {T : Type} {config : PropagationConfig} {n : Nat} {state next : Propagation}

section Arrays

-- The buffers read as functions of the nodes.
def Propagation.wave (state : Propagation) : Spreading.Wave Nat Rat where
  act v := state.activation.getD v 0
  seen v := state.visited.getD v false
  next := state.frontier

-- Each buffer has an entry for each node, and a node with a signal was visited.
structure Propagation.Sized (n : Nat) (state : Propagation) : Prop where
  activation : state.activation.length = n
  visited : state.visited.length = n
  frontier : ∀ v ∈ state.frontier, v < n
  lit : ∀ v, 0 < state.activation.getD v 0 → state.visited.getD v false = true

def PropagationConfig.medium (config : PropagationConfig) (hops : Nat → List (Nat × Rat)) :
    Medium Nat Rat where
  hops := hops
  pass strength w := strength * w * config.decay
  threshold := config.threshold

def reopens (old signal : Rat) : Bool :=
  decide (REEXPANSION_MARGIN < signal - old)

def reopensNone (_ _ : Rat) : Bool :=
  false

theorem getD_set_update {α : Type} {values : List α} {i : Nat} (hi : i < values.length) (a d : α) :
    (fun v => (values.set i a).getD v d) = Function.update (fun v => values.getD v d) i a := by
  funext v
  by_cases hv : v = i
  · subst hv
    simp [hi]
  · rw [Function.update_of_ne hv, List.getD_eq_getElem?_getD, List.getD_eq_getElem?_getD,
      List.getElem?_set_ne (Ne.symm hv)]

theorem Propagation.sized_start (n : Nat) : (Propagation.start n).Sized n where
  activation := List.length_replicate
  visited := List.length_replicate
  frontier := nofun
  lit v hv := by
    have hzero : (Propagation.start n).activation.getD v 0 = 0 := by
      rw [Propagation.start, List.getD_eq_getElem?_getD, List.getElem?_replicate]
      split <;> rfl
    rw [hzero] at hv
    exact absurd hv (lt_irrefl 0)

-- A node with a new signal.
theorem Propagation.Sized.light (h : state.Sized n) {v : Nat} (hv : v < n) (signal : Rat)
    {frontier : List Nat} (hfrontier : ∀ u ∈ frontier, u < n) :
    (Propagation.mk (state.activation.set v signal) (state.visited.set v true) frontier).Sized n := by
  refine ⟨List.length_set.trans h.activation, List.length_set.trans h.visited, hfrontier, ?_⟩
  intro u hu
  have hact := congrFun (getD_set_update (h.activation ▸ hv) signal 0) u
  have hseen := congrFun (getD_set_update (h.visited ▸ hv) true false) u
  dsimp only at hact hseen hu ⊢
  rw [hact] at hu
  rw [hseen]
  by_cases he : u = v
  · rw [he, Function.update_self]
  · rw [Function.update_of_ne he] at hu ⊢
    exact h.lit u hu

theorem mem_queue {v : Nat} {frontier : List Nat} (hfrontier : ∀ u ∈ frontier, u < n) (hv : v < n) :
    ∀ u ∈ frontier ++ [v], u < n := by
  intro u hu
  obtain hu | hu := List.mem_append.mp hu
  · exact hfrontier u hu
  · exact List.mem_singleton.mp hu ▸ hv

theorem Propagation.Sized.seed (config : PropagationConfig) (h : state.Sized n) {v : Nat} (hv : v < n) (score : Rat) :
    (state.seed config n (v, score)).Sized n ∧
      (state.seed config n (v, score)).wave =
        plant state.wave v (min score config.saturationCap) := by
  have hact := getD_set_update (h.activation ▸ hv) (min score config.saturationCap) 0
  have hseen := getD_set_update (h.visited ▸ hv) true false
  unfold Propagation.seed
  rw [if_pos hv]
  dsimp only
  refine ⟨?_, ?_⟩
  · have hfrontier : ∀ u ∈ (if state.visited.getD v false = true then state.frontier
        else state.frontier ++ [v]), u < n := by
      split
      · exact h.frontier
      · exact mem_queue h.frontier hv
    split
    · exact h.light hv _ hfrontier
    · refine ⟨h.activation, List.length_set.trans h.visited, hfrontier, fun u hu => ?_⟩
      have hmark := congrFun hseen u
      dsimp only at hmark ⊢
      rw [hmark]
      by_cases he : u = v
      · rw [he, Function.update_self]
      · rw [Function.update_of_ne he]
        exact h.lit u hu
  · simp only [Propagation.wave, plant, hseen]
    congr 1
    by_cases hraise : state.activation.getD v 0 < min score config.saturationCap
    · simp only [hraise, if_true, hact]
    · simp only [hraise, if_false]

end Arrays

section Slots

variable {hops : Nat → List (Nat × Rat)} {v : Nat} {srcAct w : Rat}

theorem WavefrontEngine.arrive_wave (h : state.Sized n) (hv : v < n) :
    (WavefrontEngine.arrive config srcAct state (v, w, false)).Sized n ∧
      (WavefrontEngine.arrive config srcAct state (v, w, false)).wave =
        Spreading.arrive (config.medium hops) reopens state.wave v ((config.medium hops).pass srcAct w) := by
  have hget : state.activation[v]? = some (state.activation.getD v 0) := by
    rw [List.getD_eq_getElem?_getD, List.getElem?_eq_getElem (h.activation ▸ hv), Option.getD_some]
  have hact := getD_set_update (h.activation ▸ hv) (srcAct * w * config.decay) 0
  have hseen := getD_set_update (h.visited ▸ hv) true false
  unfold WavefrontEngine.arrive Spreading.arrive
  simp only [hget, PropagationConfig.signal, Bool.false_eq_true, if_false, true_and,
    PropagationConfig.medium, Propagation.wave]
  by_cases hloud : config.threshold < srcAct * w * config.decay
  · by_cases hraise : state.activation.getD v 0 < srcAct * w * config.decay
    · simp only [hloud, hraise, and_self, if_true]
      refine ⟨h.light hv _ ?_, ?_⟩
      · split
        · exact mem_queue h.frontier hv
        · exact h.frontier
      · simp only [hact, hseen, reopens, decide_eq_true_eq]
    · simp only [hloud, hraise, and_false, if_true, if_false]
      exact ⟨h, trivial⟩
  · simp only [hloud, false_and, if_false]
    exact ⟨h, trivial⟩

-- Where a signal is heard that raises none, the node was visited before.
theorem arriveMasked_wave (h : state.Sized n) (hv : v < n) :
    (arriveMasked config srcAct state (v, w, false)).Sized n ∧
      (arriveMasked config srcAct state (v, w, false)).wave =
        Spreading.arrive (config.medium hops) reopensNone state.wave v
          ((config.medium hops).pass srcAct w) := by
  have hget : state.activation[v]? = some (state.activation.getD v 0) := by
    rw [List.getD_eq_getElem?_getD, List.getElem?_eq_getElem (h.activation ▸ hv), Option.getD_some]
  have hact := getD_set_update (h.activation ▸ hv) (srcAct * w * config.decay) 0
  have hseen := getD_set_update (h.visited ▸ hv) true false
  unfold arriveMasked Spreading.arrive
  simp only [hget, PropagationConfig.signal, Bool.false_eq_true, if_false, true_and,
    PropagationConfig.medium, Propagation.wave]
  by_cases hloud : config.threshold < srcAct * w * config.decay
  · by_cases hraise : state.activation.getD v 0 < srcAct * w * config.decay
    · simp only [hloud, hraise, and_self, if_true]
      refine ⟨h.light hv _ ?_, ?_⟩
      · split
        · exact h.frontier
        · exact mem_queue h.frontier hv
      · simp only [hact, hseen, reopensNone, Bool.false_eq_true, or_false]
        congr 1
        cases state.visited.getD v false <;> rfl
    · have hlit : state.visited.getD v false = true :=
        h.lit v ((config.threshold_pos.trans hloud).trans_le (not_lt.mp hraise))
      have hsame : state.visited.set v true = state.visited := by
        have hlt : v < state.visited.length := h.visited ▸ hv
        rw [List.getD_eq_getElem?_getD, List.getElem?_eq_getElem hlt, Option.getD_some] at hlit
        rw [← hlit, List.set_getElem_self]
      simp only [hloud, hraise, hlit, hsame, and_false, if_true, if_false]
      exact ⟨h, trivial⟩
  · simp only [hloud, false_and, if_false]
    exact ⟨h, trivial⟩

end Slots

section Levels

variable {medium : Medium Nat Rat} {reopening : Rat → Rat → Bool}
  {expandNode : Propagation → Nat → Option Propagation}

-- An expansion of the arrays that does what the medium does.
def Performs (medium : Medium Nat Rat) (reopening : Rat → Rat → Bool) (n : Nat)
    (expandNode : Propagation → Nat → Option Propagation) : Prop :=
  ∀ state : Propagation, state.Sized n → ∀ src < n, ∃ next, expandNode state src = some next ∧
    next.Sized n ∧ next.wave = expand medium reopening state.wave src

-- A loop over slots some of which lead to a node.
theorem exists_arrivals {slots : List Nat} {read : Nat → Option (Nat × Rat)} {strength : Rat}
    {pass : Propagation → Nat → Option Propagation}
    (hpass : ∀ j ∈ slots, ∀ state : Propagation, state.Sized n → ∃ next, pass state j = some next ∧
      next.Sized n ∧ next.wave = (read j).elim state.wave fun hop =>
        arrive medium reopening state.wave hop.1 (medium.pass strength hop.2))
    (h : state.Sized n) : ∃ next, slots.foldlM pass state = some next ∧ next.Sized n ∧
      next.wave = arrivals medium reopening strength state.wave (slots.filterMap read) := by
  induction slots generalizing state with
  | nil => exact ⟨state, rfl, h, rfl⟩
  | cons j slots ih =>
      obtain ⟨mid, hmid, hsized, hwave⟩ := hpass j List.mem_cons_self state h
      obtain ⟨next, hnext, hsized', hwave'⟩ :=
        ih (fun i hi => hpass i (List.mem_cons_of_mem _ hi)) hsized
      refine ⟨next, by rw [List.foldlM_cons, hmid]; exact hnext, hsized', ?_⟩
      rw [hwave', hwave, List.filterMap_cons]
      cases read j with
      | none => rfl
      | some hop => rfl

theorem Performs.exists_levels (hperforms : Performs medium reopening n expandNode)
    (h : state.Sized n) (left : Nat) : ∃ next, Propagation.levels expandNode left state = some next ∧
      next.Sized n ∧ next.wave = levels medium reopening left state.wave := by
  induction left generalizing state with
  | zero => exact ⟨state, rfl, h, rfl⟩
  | succ left ih =>
      have hlevel : ∃ next, state.frontier.foldlM expandNode { state with frontier := [] } =
          some next ∧ next.Sized n ∧ next.wave = level medium reopening state.wave := by
        have hloop : ∀ (sources : List Nat) (before : Propagation), (∀ v ∈ sources, v < n) →
            before.Sized n → ∃ next, sources.foldlM expandNode before = some next ∧ next.Sized n ∧
              next.wave = sources.foldl (expand medium reopening) before.wave := by
          intro sources
          induction sources with
          | nil => exact fun before _ hbefore => ⟨before, rfl, hbefore, rfl⟩
          | cons src sources ih =>
              intro before hsources hbefore
              obtain ⟨mid, hmid, hsized, hwave⟩ :=
                hperforms before hbefore src (hsources src List.mem_cons_self)
              obtain ⟨next, hnext, hsized', hwave'⟩ :=
                ih mid (fun v hv => hsources v (List.mem_cons_of_mem _ hv)) hsized
              refine ⟨next, by rw [List.foldlM_cons, hmid]; exact hnext, hsized', ?_⟩
              rw [hwave', hwave, List.foldl_cons]
        exact hloop state.frontier { state with frontier := [] } h.frontier
          ⟨h.activation, h.visited, nofun, h.lit⟩
      obtain ⟨mid, hmid, hsized, hwave⟩ := hlevel
      by_cases hempty : state.frontier = []
      · -- An empty frontier makes an empty level.
        refine ⟨state, by rw [Propagation.levels, if_pos hempty], h, ?_⟩
        exact (levels_of_next_nil hempty (left + 1)).symm
      · obtain ⟨next, hnext, hsized', hwave'⟩ := ih hsized
        refine ⟨next, ?_, hsized', by rw [hwave', hwave]; rfl⟩
        rw [Propagation.levels, if_neg hempty, hmid]
        exact hnext

end Levels

end M1nd.Core
