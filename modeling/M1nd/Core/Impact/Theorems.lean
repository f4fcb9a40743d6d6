import M1nd.Core.Impact
import M1nd.Core.SpectralGap.Analysis
import Mathlib.Algebra.Order.Ring.Rat
import Mathlib.Tactic.Linarith

namespace M1nd.Core

open M1nd.Library.Loops

variable {T : Type} {graph : Graph Rat T} {direction : ImpactDirection}

section Hops

-- The slots along which a signal goes from one node to another, with their weights.
def Graph.Hop (graph : Graph Rat T) (direction : ImpactDirection) (node : Nat) (hop : Nat × Rat) :
    Prop :=
  hop.1 < graph.nodes.count ∧
    (direction ≠ .Reverse ∧ (∃ j ∈ graph.csr.outRange node, readForward graph j = some hop) ∨
      direction ≠ .Forward ∧ ∃ j ∈ graph.csr.inRange node, readReverse graph j = some hop)

-- The walks from a source, with the product of their attenuated weights. Every signal on the way
-- is heard.
inductive Graph.Walk (graph : Graph Rat T) (direction : ImpactDirection) (source : Nat)
    (heard : Rat → Prop) : Nat → Nat → Rat → Prop
  | start : Walk graph direction source heard 0 source 1
  | step {hops node : Nat} {signal : Rat} {hop : Nat × Rat}
      (hwalk : Walk graph direction source heard hops node signal)
      (hhop : graph.Hop direction node hop) (hheard : heard (signal * hop.2 * IMPACT_DECAY)) :
      Walk graph direction source heard (hops + 1) hop.1 (signal * hop.2 * IMPACT_DECAY)

theorem Graph.Walk.cases_last {source hops node : Nat} {signal : Rat} {heard : Rat → Prop}
    (h : graph.Walk direction source heard hops node signal) :
    hops = 0 ∧ node = source ∧ signal = 1 ∨ ∃ before u first w, hops = before + 1 ∧
      graph.Walk direction source heard before u first ∧ graph.Hop direction u (node, w) ∧
        signal = first * w * IMPACT_DECAY := by
  cases h with
  | start => exact .inl ⟨rfl, rfl, rfl⟩
  | step hwalk hhop _ => exact .inr ⟨_, _, _, _, rfl, hwalk, hhop, rfl⟩

theorem Graph.Walk.mono {source hops node : Nat} {signal : Rat} {heard heard' : Rat → Prop}
    (h : graph.Walk direction source heard hops node signal)
    (himp : ∀ signal, heard signal → heard' signal) :
    graph.Walk direction source heard' hops node signal := by
  induction h with
  | start => exact .start
  | step _ hhop hheard ih => exact .step ih hhop (himp _ hheard)

-- What is heard above a threshold that is not below zero is above zero.
theorem Graph.Walk.signal_pos {source hops node : Nat} {signal threshold : Rat}
    (hmin : 0 ≤ threshold) (h : graph.Walk direction source (threshold < ·) hops node signal) :
    0 < signal := by
  cases h with
  | start => exact one_pos
  | step _ _ hheard => exact hmin.trans_lt hheard

-- What a level reads of a graph is there.
structure Graph.Audible (graph : Graph Rat T) : Prop where
  forward : ∀ node, ∀ j ∈ graph.csr.outRange node, ∃ hop, readForward graph j = some hop
  reverse : ∀ node, ∀ j ∈ graph.csr.inRange node, ∃ hop, readReverse graph j = some hop

theorem GraphEdit.audible_run (edits : List (GraphEdit Rat T)) :
    (GraphEdit.run edits).Audible where
  forward node j hj := by
    have hcoherent : (GraphEdit.run edits).Coherent Rat := GraphEdit.coherent_run Rat edits
    obtain ⟨target, -, htarget⟩ := hcoherent.closed node j hj
    obtain ⟨w, hw⟩ := hcoherent.weighted node j hj
    exact ⟨(target, w), by rw [readForward, htarget, hw]; rfl⟩
  reverse node j hj := by
    have hindexed : (GraphEdit.run edits).Indexed := GraphEdit.indexed_run Rat edits
    have hlt := GraphEdit.sourced_run Rat edits node j hj
    have hlt' : j < (GraphEdit.run edits).csr.revEdgeIdx.length := hindexed.length ▸ hlt
    have hweight := hindexed.weights _ (List.getElem_mem hlt')
    have hw := List.getElem?_eq_getElem hweight
    exact ⟨(_, _), by
      rw [readReverse, List.getElem?_eq_getElem hlt, List.getElem?_eq_getElem hlt',
        Option.bind_eq_bind, Option.bind_some, Option.bind_eq_bind, Option.bind_some, hw]
      rfl⟩

-- A loop over slots that a direction may leave out steps along their hops.
theorem exists_hopsIf (p : Prop) [Decidable p] {read : Nat → Option (Nat × Rat)}
    {slots : List Nat} (h : ∀ j ∈ slots, ∃ hop, read j = some hop) :
    ∃ hops : List (Nat × Rat), (∀ hop, hop ∈ hops ↔ p ∧ ∃ j ∈ slots, read j = some hop) ∧
      ∀ (step : Wave → Nat × Rat → Wave) (wave : Wave),
        (if p then slots.foldlM (fun wave j => (read j).map (step wave)) wave else some wave) =
          some (hops.foldl step wave) := by
  by_cases hp : p
  · obtain ⟨hops, hhops, hmem⟩ := exists_mapM h
    refine ⟨hops, fun hop => by rw [hmem, and_iff_right hp], fun step wave => ?_⟩
    rw [if_pos hp]
    exact foldlM_map_read hhops step wave
  · refine ⟨[], fun hop => iff_of_false List.not_mem_nil fun hboth => hp hboth.1, fun step wave => ?_⟩
    rw [if_neg hp]
    rfl

-- The hops of a node in the order in which they are taken.
theorem Graph.Audible.exists_hops (h : graph.Audible) (direction : ImpactDirection) (node : Nat) :
    ∃ hops : List (Nat × Rat),
      (∀ hop, hop.1 < graph.nodes.count → (hop ∈ hops ↔ graph.Hop direction node hop)) ∧
      ∀ (calculator : ImpactRadiusCalculator) depth wave signal,
        wave.bestSignal[node]? = some signal →
          calculator.expand graph direction depth wave node =
            some (hops.foldl (calculator.arrive depth signal) wave) := by
  obtain ⟨forward, hforward, hspread⟩ := exists_hopsIf (direction ≠ .Reverse) (h.forward node)
  obtain ⟨reverse, hreverse, hspread'⟩ := exists_hopsIf (direction ≠ .Forward) (h.reverse node)
  refine ⟨forward ++ reverse, fun hop hlt => ?_, fun calculator depth wave signal hsignal => ?_⟩
  · rw [List.mem_append, hforward, hreverse, Graph.Hop, and_iff_right hlt]
  · rw [ImpactRadiusCalculator.expand, hsignal, Option.bind_eq_bind, Option.bind_some,
      ImpactRadiusCalculator.spreadForward, hspread, Option.bind_eq_bind, Option.bind_some,
      ImpactRadiusCalculator.spreadReverse, hspread', List.foldl_append]

end Hops

namespace ImpactRadiusCalculator

variable {calculator : ImpactRadiusCalculator} {wave next : Wave} {depth : Nat}

section Arrivals

-- The best signal of a node.
def bestOf (wave : Wave) (node : Nat) : Rat :=
  wave.bestSignal.getD node 0

def hopOf (wave : Wave) (node : Nat) : Nat :=
  wave.hopDist.getD node 0

theorem getElem?_bestOf {n node : Nat} (hlength : wave.bestSignal.length = n) (hnode : node < n) :
    wave.bestSignal[node]? = some (bestOf wave node) := by
  rw [bestOf, List.getD_eq_getElem?_getD, List.getElem?_eq_getElem (hlength ▸ hnode)]
  rfl

-- What the signals that came so far have done to a level. The nodes that have got a better signal
-- have it from one of them, and are queued.
structure Arrived (calculator : ImpactRadiusCalculator) (n depth : Nat)
    (came : Nat → Rat → Prop) (before after : Wave) : Prop where
  lengths : after.bestSignal.length = n ∧ after.hopDist.length = n
  mono : ∀ v, bestOf before v ≤ bestOf after v
  covered : ∀ v < n, ∀ signal, came v signal → calculator.minSignal < signal →
    signal ≤ bestOf after v
  origin : ∀ v, bestOf after v = bestOf before v ∧ hopOf after v = hopOf before v ∨
    v ∈ after.next ∧ hopOf after v = depth + 1 ∧ calculator.minSignal < bestOf after v ∧
      came v (bestOf after v)
  queued : ∀ v ∈ after.next, v < n ∧ hopOf after v = depth + 1

variable {n : Nat} {came came' : Nat → Rat → Prop} {before after : Wave}

theorem Arrived.congr (h : Arrived calculator n depth came before after)
    (hcame : ∀ v < n, ∀ signal, came' v signal ↔ came v signal) :
    Arrived calculator n depth came' before after where
  lengths := h.lengths
  mono := h.mono
  covered v hv signal hsignal := h.covered v hv signal ((hcame v hv signal).mp hsignal)
  origin v := (h.origin v).imp_right fun ⟨hqueued, hhop, hheard, horigin⟩ =>
    ⟨hqueued, hhop, hheard, (hcame v (h.queued v hqueued).1 _).mpr horigin⟩
  queued := h.queued

theorem getD_set {α : Type} {list : List α} {i j : Nat} (hi : i < list.length) (a d : α) :
    (list.set i a).getD j d = if i = j then a else list.getD j d := by
  rw [List.getD_eq_getElem?_getD, List.getD_eq_getElem?_getD]
  by_cases hj : i = j
  · rw [if_pos hj, ← hj, List.getElem?_set_self hi]
    rfl
  · rw [if_neg hj, List.getElem?_set_ne hj]

theorem Arrived.arrive (h : Arrived calculator n depth came before after) (signal : Rat)
    (hop : Nat × Rat) : Arrived calculator n depth
      (fun v s => came v s ∨ hop.1 = v ∧ s = signal * hop.2 * IMPACT_DECAY) before
        (calculator.arrive depth signal after hop) := by
  unfold ImpactRadiusCalculator.arrive
  cases hget : after.bestSignal[hop.1]? with
  | none =>
      have hout : n ≤ hop.1 := h.lengths.1 ▸ List.getElem?_eq_none_iff.mp hget
      refine h.congr fun v hv s => or_iff_left fun hsame => ?_
      omega
  | some best =>
      have hlt : hop.1 < n := h.lengths.1 ▸ (List.getElem?_eq_some_iff.mp hget).1
      obtain rfl : bestOf after hop.1 = best :=
        Option.some.inj ((getElem?_bestOf h.lengths.1 hlt).symm.trans hget)
      dsimp only
      split
      case isTrue hbetter =>
        have hbest : ∀ v, bestOf
            { bestSignal := after.bestSignal.set hop.1 (signal * hop.2 * IMPACT_DECAY)
              hopDist := after.hopDist.set hop.1 (depth + 1)
              next := after.next ++ [hop.1] } v =
                if hop.1 = v then signal * hop.2 * IMPACT_DECAY else bestOf after v :=
          fun v => getD_set (h.lengths.1.symm ▸ hlt) _ _
        have hhop : ∀ v, hopOf
            { bestSignal := after.bestSignal.set hop.1 (signal * hop.2 * IMPACT_DECAY)
              hopDist := after.hopDist.set hop.1 (depth + 1)
              next := after.next ++ [hop.1] } v =
                if hop.1 = v then depth + 1 else hopOf after v :=
          fun v => getD_set (h.lengths.2.symm ▸ hlt) _ _
        constructor
        case lengths => exact ⟨List.length_set.trans h.lengths.1, List.length_set.trans h.lengths.2⟩
        case mono =>
          intro v
          rw [hbest]
          split
          case isTrue hv => exact (h.mono v).trans (hv ▸ hbetter.2.le)
          case isFalse => exact h.mono v
        case covered =>
          intro v hv s hs hheard
          rw [hbest]
          obtain hs | ⟨hv', rfl⟩ := hs
          · have hold := h.covered v hv s hs hheard
            split
            case isTrue hv' => exact hold.trans (hv' ▸ hbetter.2.le)
            case isFalse => exact hold
          · rw [if_pos hv']
        case origin =>
          intro v
          rw [hbest, hhop]
          split
          case isTrue hv =>
            exact .inr ⟨List.mem_append_right _ (List.mem_singleton.mpr hv.symm), rfl, hbetter.1,
              .inr ⟨hv, rfl⟩⟩
          case isFalse =>
            exact (h.origin v).imp_right fun ⟨hqueued, hdepth, hheard, horigin⟩ =>
              ⟨List.mem_append_left _ hqueued, hdepth, hheard, .inl horigin⟩
        case queued =>
          intro v hv
          rw [hhop]
          obtain hv | hv := List.mem_append.mp hv
          · refine ⟨(h.queued v hv).1, ?_⟩
            rw [(h.queued v hv).2, ite_self]
          · exact ⟨List.mem_singleton.mp hv ▸ hlt, if_pos (List.mem_singleton.mp hv).symm⟩
      case isFalse hworse =>
        constructor
        case lengths => exact h.lengths
        case mono => exact h.mono
        case covered =>
          intro v hv s hs hheard
          obtain hs | ⟨rfl, rfl⟩ := hs
          · exact h.covered v hv s hs hheard
          · exact not_lt.mp fun hlt' => hworse ⟨hheard, hlt'⟩
        case origin =>
          exact fun v => (h.origin v).imp_right fun ⟨hqueued, hdepth, hheard, horigin⟩ =>
            ⟨hqueued, hdepth, hheard, .inl horigin⟩
        case queued => exact h.queued

theorem Arrived.arrives (h : Arrived calculator n depth came before after) (signal : Rat)
    (hops : List (Nat × Rat)) : Arrived calculator n depth
      (fun v s => came v s ∨ ∃ hop ∈ hops, hop.1 = v ∧ s = signal * hop.2 * IMPACT_DECAY) before
        (hops.foldl (calculator.arrive depth signal) after) := by
  induction hops generalizing came after with
  | nil => exact h.congr fun v _ s => by simp
  | cons hop hops ih =>
      refine (ih (h.arrive signal hop)).congr fun v _ s => ?_
      simp only [List.mem_cons, exists_eq_or_imp, or_assoc]

end Arrivals

section Levels

-- No node of the frontier has got a better signal before its turn has come.
def LevelCalm (calculator : ImpactRadiusCalculator) (graph : Graph Rat T)
    (direction : ImpactDirection) (depth : Nat) (wave : Wave) : Prop :=
  ∀ before node behind, wave.next = before ++ node :: behind → ∀ after,
    before.foldlM (calculator.expand graph direction depth) { wave with next := [] } = some after →
      after.bestSignal[node]? = wave.bestSignal[node]?

-- The signals that come from some nodes on a level.
def Came (graph : Graph Rat T) (direction : ImpactDirection) (wave : Wave) (nodes : List Nat)
    (v : Nat) (signal : Rat) : Prop :=
  ∃ u ∈ nodes, ∃ w, graph.Hop direction u (v, w) ∧ signal = bestOf wave u * w * IMPACT_DECAY

structure Sized (n : Nat) (wave : Wave) : Prop where
  lengths : wave.bestSignal.length = n ∧ wave.hopDist.length = n
  queued : ∀ v ∈ wave.next, v < n

theorem exists_level (haudible : graph.Audible) (hsized : Sized graph.nodes.count wave)
    (hcalm : calculator.LevelCalm graph direction depth wave) : ∃ after,
      calculator.level graph direction depth wave.next wave = some after ∧
      Arrived calculator graph.nodes.count depth (Came graph direction wave wave.next)
        { wave with next := [] } after := by
  have hprefix : ∀ nodes behind, wave.next = nodes ++ behind → ∃ after,
      nodes.foldlM (calculator.expand graph direction depth) { wave with next := [] } = some after ∧
      Arrived calculator graph.nodes.count depth (Came graph direction wave nodes)
        { wave with next := [] } after := by
    intro nodes
    induction nodes using List.reverseRecOn with
    | nil =>
        intro behind _
        refine ⟨_, rfl, hsized.lengths, fun v => le_rfl, ?_, fun v => .inl ⟨rfl, rfl⟩, nofun⟩
        rintro v _ signal ⟨u, hu, -⟩
        exact absurd hu List.not_mem_nil
    | append_singleton nodes node ih =>
        intro behind hnext
        rw [List.append_assoc] at hnext
        obtain ⟨after, hafter, harrived⟩ := ih _ hnext
        have hnode : node < graph.nodes.count :=
          hsized.queued node (hnext ▸ List.mem_append_right _ List.mem_cons_self)
        have hsignal : after.bestSignal[node]? = some (bestOf wave node) :=
          (hcalm nodes node behind hnext after hafter).trans
            (getElem?_bestOf hsized.lengths.1 hnode)
        obtain ⟨hops, hmem, hexpand⟩ := haudible.exists_hops direction node
        refine ⟨_, ?_, (harrived.arrives (bestOf wave node) hops).congr fun v hv signal => ?_⟩
        · rw [List.foldlM_append, hafter, Option.bind_eq_bind, Option.bind_some, List.foldlM_cons,
            hexpand calculator depth after _ hsignal]
          rfl
        · have hlast : (∃ w, graph.Hop direction node (v, w) ∧
              signal = bestOf wave node * w * IMPACT_DECAY) ↔
                ∃ hop ∈ hops, hop.1 = v ∧ signal = bestOf wave node * hop.2 * IMPACT_DECAY := by
            constructor
            · rintro ⟨w, hhop, rfl⟩
              exact ⟨(v, w), (hmem (v, w) hv).mpr hhop, rfl, rfl⟩
            · rintro ⟨⟨v, w⟩, hhop, rfl, rfl⟩
              exact ⟨w, (hmem (v, w) hv).mp hhop, rfl⟩
          unfold Came
          rw [← hlast]
          simp only [List.mem_append, List.mem_singleton, or_and_right, exists_or, exists_eq_left]
  exact hprefix wave.next [] (List.append_nil _).symm

-- What holds behind the levels so far. The best signals are those of the walks of as many hops
-- at most, and the nodes that are not in the frontier have nothing left to say.
structure Tuned (calculator : ImpactRadiusCalculator) (graph : Graph Rat T)
    (direction : ImpactDirection) (source depth : Nat) (wave : Wave) : Prop where
  sized : Sized graph.nodes.count wave
  frontier : ∀ v ∈ wave.next, hopOf wave v = depth
  sound : ∀ v, bestOf wave v = 0 ∨ hopOf wave v ≤ depth ∧
    graph.Walk direction source (calculator.minSignal < ·) (hopOf wave v) v (bestOf wave v)
  complete : ∀ hops ≤ depth, ∀ v signal,
    graph.Walk direction source (calculator.minSignal < ·) hops v signal → signal ≤ bestOf wave v
  closed : ∀ u, u ∉ wave.next → ∀ v w, graph.Hop direction u (v, w) →
    calculator.minSignal < bestOf wave u * w * IMPACT_DECAY →
      bestOf wave u * w * IMPACT_DECAY ≤ bestOf wave v

variable {source : Nat}

-- A signal that goes on to be heard goes on at least as well from the best signal.
theorem le_of_heard (hmin : 0 ≤ calculator.minSignal) {signal best w : Rat} (hpos : 0 < signal)
    (hle : signal ≤ best) (hheard : calculator.minSignal < signal * w * IMPACT_DECAY) :
    signal * w * IMPACT_DECAY ≤ best * w * IMPACT_DECAY := by
  have hdecay : 0 < IMPACT_DECAY := by decide +kernel
  have hw : 0 < w := by
    by_contra hw
    have hnonpos := mul_nonpos_of_nonpos_of_nonneg
      (mul_nonpos_of_nonneg_of_nonpos hpos.le (not_lt.mp hw)) hdecay.le
    exact absurd (hmin.trans_lt hheard) (not_lt.mpr hnonpos)
  exact mul_le_mul_of_nonneg_right (mul_le_mul_of_nonneg_right hle hw.le) hdecay.le

theorem Tuned.level (hmin : 0 ≤ calculator.minSignal)
    (h : calculator.Tuned graph direction source depth wave)
    (harrived : Arrived calculator graph.nodes.count depth (Came graph direction wave wave.next)
      { wave with next := [] } after) :
    calculator.Tuned graph direction source (depth + 1) after where
  sized := ⟨harrived.lengths, fun v hv => (harrived.queued v hv).1⟩
  frontier v hv := (harrived.queued v hv).2
  sound v := by
    obtain ⟨hbest, hhop⟩ | ⟨-, hhop, hheard, u, hu, w, hedge, hcame⟩ := harrived.origin v
    · rw [hbest, hhop]
      exact (h.sound v).imp_right fun ⟨hle, hwalk⟩ => ⟨Nat.le_succ_of_le hle, hwalk⟩
    · refine .inr ⟨hhop.le, ?_⟩
      rw [hcame] at hheard
      rw [hcame, hhop]
      obtain hzero | ⟨-, hwalk⟩ := h.sound u
      · rw [hzero, zero_mul, zero_mul] at hheard
        exact absurd hheard (not_lt.mpr hmin)
      · rw [h.frontier u hu] at hwalk
        exact .step hwalk hedge hheard
  complete hops hhops v signal hwalk := by
    cases hwalk with
    | start => exact (h.complete 0 (Nat.zero_le _) source 1 .start).trans (harrived.mono source)
    | @step hops u signal hop hwalk hedge hheard =>
        have hle := h.complete hops (Nat.le_of_succ_le_succ hhops) u signal hwalk
        have hon := le_of_heard hmin (hwalk.signal_pos hmin) hle hheard
        refine hon.trans ?_
        by_cases hu : u ∈ wave.next
        · exact harrived.covered hop.1 hedge.1 _ ⟨u, hu, hop.2, hedge, rfl⟩ (hheard.trans_le hon)
        · exact (h.closed u hu hop.1 hop.2 hedge (hheard.trans_le hon)).trans (harrived.mono hop.1)
  closed u hu v w hedge hheard := by
    obtain ⟨hbest, -⟩ | ⟨hqueued, -⟩ := harrived.origin u
    · rw [hbest] at hheard ⊢
      by_cases hold : u ∈ wave.next
      · exact harrived.covered v hedge.1 _ ⟨u, hold, w, hedge, rfl⟩ hheard
      · exact (h.closed u hold v w hedge hheard).trans (harrived.mono v)
    · exact absurd hqueued hu

-- With an empty frontier no walk has more to say, however long it is.
theorem Tuned.le_of_settled (hmin : 0 ≤ calculator.minSignal)
    (h : calculator.Tuned graph direction source depth wave) (hsettled : wave.next = [])
    {hops v : Nat} {signal : Rat}
    (hwalk : graph.Walk direction source (calculator.minSignal < ·) hops v signal) :
    signal ≤ bestOf wave v := by
  induction hwalk with
  | start => exact h.complete 0 (Nat.zero_le _) source 1 .start
  | @step hops u signal hop hwalk hedge hheard ih =>
      have hon := le_of_heard hmin (hwalk.signal_pos hmin) ih hheard
      have hu : u ∉ wave.next := hsettled ▸ List.not_mem_nil
      exact hon.trans (h.closed u hu hop.1 hop.2 hedge (hheard.trans_le hon))

-- The levels that are calm all along.
def Calm (calculator : ImpactRadiusCalculator) (graph : Graph Rat T)
    (direction : ImpactDirection) : Nat → Nat → Wave → Prop
  | 0, _, _ => True
  | left + 1, depth, wave => wave.next ≠ [] →
      calculator.LevelCalm graph direction depth wave ∧
      ∀ after, calculator.level graph direction depth wave.next wave = some after →
        Calm calculator graph direction left (depth + 1) after

theorem exists_levels (haudible : graph.Audible) (hmin : 0 ≤ calculator.minSignal) {left : Nat}
    (h : calculator.Tuned graph direction source depth wave)
    (hcalm : calculator.Calm graph direction left depth wave) : ∃ reached maxHops,
      calculator.levels graph direction left depth wave = some (reached, maxHops) ∧
      Sized graph.nodes.count reached ∧
      (∀ v, bestOf reached v = 0 ∨ hopOf reached v ≤ depth + left ∧
        graph.Walk direction source (calculator.minSignal < ·) (hopOf reached v) v
          (bestOf reached v)) ∧
      ∀ hops ≤ depth + left, ∀ v signal,
        graph.Walk direction source (calculator.minSignal < ·) hops v signal →
          signal ≤ bestOf reached v := by
  induction left generalizing depth wave with
  | zero => exact ⟨wave, depth, rfl, h.sized, h.sound, h.complete⟩
  | succ left ih =>
      unfold levels
      by_cases hnext : wave.next = []
      · rw [if_pos hnext]
        refine ⟨wave, depth, rfl, h.sized, fun v => ?_, fun _ _ _ _ hwalk => ?_⟩
        · exact (h.sound v).imp_right fun ⟨hle, hwalk⟩ => ⟨hle.trans (Nat.le_add_right _ _), hwalk⟩
        · exact h.le_of_settled hmin hnext hwalk
      · rw [if_neg hnext]
        obtain ⟨hlevel, hrest⟩ := hcalm hnext
        obtain ⟨after, hafter, harrived⟩ := exists_level haudible h.sized hlevel
        obtain ⟨reached, maxHops, hreached, hsized, hsound, hcomplete⟩ :=
          ih (h.level hmin harrived) (hrest after hafter)
        have hdepth : depth + 1 + left = depth + (left + 1) := by omega
        rw [hdepth] at hsound hcomplete
        refine ⟨reached, maxHops, ?_, hsized, hsound, hcomplete⟩
        rw [hafter, Option.bind_eq_bind, Option.bind_some, hreached]

end Levels

section Compute

theorem bestOf_start (graph : Graph Rat T) {source : Nat} (hsource : source < graph.numNodes)
    (v : Nat) : bestOf (start graph source) v = if source = v then 1 else 0 := by
  have hlt : source < (List.replicate graph.numNodes (0 : Rat)).length :=
    List.length_replicate.symm ▸ hsource
  rw [bestOf, start, getD_set hlt]
  refine ite_congr rfl (fun _ => rfl) fun _ => ?_
  rw [List.getD_eq_getElem?_getD, List.getElem?_replicate]
  split <;> rfl

theorem tuned_start (hmin : 0 ≤ calculator.minSignal) {source : Nat}
    (hsource : source < graph.numNodes) :
    calculator.Tuned graph direction source 0 (start graph source) := by
  have hbest := bestOf_start graph hsource
  have hhop : hopOf (start graph source) source = 0 := by
    have hlt : source < (List.replicate graph.numNodes 255).length :=
      List.length_replicate.symm ▸ hsource
    rw [hopOf, start, getD_set hlt, if_pos rfl]
  constructor
  case sized =>
    refine ⟨⟨List.length_set.trans List.length_replicate,
      List.length_set.trans List.length_replicate⟩, fun v hv => ?_⟩
    exact List.mem_singleton.mp hv ▸ hsource
  case frontier => exact fun v hv => List.mem_singleton.mp hv ▸ hhop
  case sound =>
    intro v
    rw [hbest]
    split
    case isTrue hv =>
      subst hv
      rw [hhop]
      exact .inr ⟨le_rfl, .start⟩
    case isFalse => exact .inl rfl
  case complete =>
    intro hops hhops v signal hwalk
    obtain rfl := Nat.le_zero.mp hhops
    cases hwalk
    rw [hbest, if_pos rfl]
  case closed =>
    intro u hu v w _ hheard
    rw [hbest, if_neg (fun hsame => hu (List.mem_singleton.mpr hsame.symm)), zero_mul,
      zero_mul] at hheard
    exact absurd hheard (not_lt.mpr hmin)

theorem mem_blastRadius {source maxHops : Nat} {reached : Wave} {entry : ImpactEntry}
    (hsized : Sized graph.nodes.count reached) :
    entry ∈ (calculator.resultOf graph source reached maxHops).blastRadius ↔
      entry.node < graph.numNodes ∧ entry.node ≠ source ∧
        calculator.minSignal < entry.signalStrength ∧
        entry.signalStrength = bestOf reached entry.node ∧
        entry.hopDistance = hopOf reached entry.node := by
  have hentry : ∀ i < graph.numNodes, calculator.entryOf source reached i = some entry ↔
      i ≠ source ∧ calculator.minSignal < bestOf reached i ∧
        ⟨i, bestOf reached i, hopOf reached i⟩ = entry := by
    intro i hi
    have hhop : reached.hopDist[i]? = some (hopOf reached i) := by
      rw [hopOf, List.getD_eq_getElem?_getD, List.getElem?_eq_getElem (hsized.lengths.2 ▸ hi)]
      rfl
    rw [entryOf, getElem?_bestOf hsized.lengths.1 hi, hhop]
    simp only [Option.bind_eq_bind, Option.bind_some]
    split
    case isTrue hin =>
      rw [Option.some_inj]
      exact ⟨fun h => ⟨hin.1, hin.2, h⟩, fun h => h.2.2⟩
    case isFalse hout => exact ⟨nofun, fun h => absurd ⟨h.1, h.2.1⟩ hout⟩
  unfold resultOf
  rw [List.mem_mergeSort, List.mem_filterMap]
  constructor
  · rintro ⟨i, hi, hsome⟩
    obtain ⟨hne, hheard, rfl⟩ := (hentry i (List.mem_range.mp hi)).mp hsome
    exact ⟨List.mem_range.mp hi, hne, hheard, rfl, rfl⟩
  · rintro ⟨hi, hne, hheard, hbest, hhop⟩
    refine ⟨entry.node, List.mem_range.mpr hi, (hentry _ hi).mpr ⟨hne, hbest ▸ hheard, ?_⟩⟩
    rw [← hbest, ← hhop]

-- The signal of an entry is the strongest that a walk brings, and the hop distance the length of
-- such a walk.
structure Strongest (calculator : ImpactRadiusCalculator) (graph : Graph Rat T)
    (direction : ImpactDirection) (source : Nat) (heard : Rat → Prop) (entry : ImpactEntry) :
    Prop where
  limit : entry.hopDistance ≤ calculator.maxHops
  attained : graph.Walk direction source heard entry.hopDistance entry.node entry.signalStrength
  best : ∀ hops ≤ calculator.maxHops, ∀ signal,
    graph.Walk direction source heard hops entry.node signal → signal ≤ entry.signalStrength

-- What is above the threshold in the end can be so all along.
def Unmuffled (calculator : ImpactRadiusCalculator) (graph : Graph Rat T)
    (direction : ImpactDirection) (source : Nat) : Prop :=
  ∀ hops ≤ calculator.maxHops, ∀ node signal,
    graph.Walk direction source (fun _ => True) hops node signal → calculator.minSignal < signal →
      graph.Walk direction source (calculator.minSignal < ·) hops node signal

theorem Strongest.unmuffled {source : Nat} {entry : ImpactEntry}
    (h : calculator.Strongest graph direction source (calculator.minSignal < ·) entry)
    (hheard : calculator.minSignal < entry.signalStrength)
    (hunmuffled : calculator.Unmuffled graph direction source) :
    calculator.Strongest graph direction source (fun _ => True) entry where
  limit := h.limit
  attained := h.attained.mono fun _ _ => trivial
  best hops hhops signal hwalk := by
    by_cases hsignal : calculator.minSignal < signal
    · exact h.best hops hhops signal (hunmuffled hops hhops entry.node signal hwalk hsignal)
    · exact (not_lt.mp hsignal).trans hheard.le

end Compute

section Leak

-- The second node of the first level gets a better signal from the first, and hands it on before
-- the next level.
def leaking : List (GraphEdit Rat Nat) :=
  [.operate (.addNode "a" "a" .File [] 0 0), .operate (.addNode "b" "b" .File [] 0 0),
    .operate (.addNode "c" "c" .File [] 0 0), .operate (.addNode "d" "d" .File [] 0 0),
    .operate (.addEdge 0 1 "calls" 1 .Forward false 0),
    .operate (.addEdge 0 2 "calls" (1 / 10) .Forward false 0),
    .operate (.addEdge 1 2 "calls" 1 .Forward false 0),
    .operate (.addEdge 2 3 "calls" 1 .Forward false 0)]

theorem leaking_rebuilt : GraphEdit.run (leaking ++ [.operate .finalize]) =
    (GraphEdit.run leaking).rebuildCsr := rfl

theorem placements_leaking : placements (GraphEdit.run leaking).csr.pendingEdges =
    (GraphEdit.run leaking).csr.pendingEdges.zipIdx.flatMap fun indexed =>
      indexed.1.placements indexed.2 :=
  placements_of_sorted (by decide +kernel)

theorem hop_leaking {u v : Nat} {w : Rat}
    (h : (GraphEdit.run (leaking ++ [.operate .finalize])).Hop .Forward u (v, w)) :
    (u, v, w) ∈ [(0, 1, 1), (0, 2, 1 / 10), (1, 2, 1), (2, 3, (1 : Rat))] := by
  have hslots : (GraphEdit.run (leaking ++ [.operate .finalize])).csr.offsets.length = 5 ∧
      ∀ u < 4, ∀ j ∈ (GraphEdit.run (leaking ++ [.operate .finalize])).csr.outRange u,
        ∃ edge ∈ [(0, 1, 1), (0, 2, 1 / 10), (1, 2, 1), (2, 3, (1 : Rat))], edge.1 = u ∧
          readForward (GraphEdit.run (leaking ++ [.operate .finalize])) j = some edge.2 := by
    rw [leaking_rebuilt, Graph.rebuildCsr, placements_leaking]
    decide +kernel
  obtain ⟨-, ⟨-, j, hj, hslot⟩ | ⟨hforward, -⟩⟩ := h
  · by_cases hu : u < 4
    · obtain ⟨⟨_, hop⟩, hedge, rfl, hread⟩ := hslots.2 u hu j hj
      obtain rfl : hop = (v, w) := Option.some.inj (hread.symm.trans hslot)
      exact hedge
    · rw [CsrGraph.outRange, if_pos (by rw [hslots.1]; omega)] at hj
      exact absurd hj List.not_mem_nil
  · exact absurd rfl hforward

-- Within two hops the last node is reached through the third only.
theorem walk_leaking {hops : Nat} (hhops : hops ≤ 2) {signal : Rat}
    (h : (GraphEdit.run (leaking ++ [.operate .finalize])).Walk .Forward 0 (fun _ => True) hops 3
      signal) : signal = 1 * (1 / 10) * IMPACT_DECAY * 1 * IMPACT_DECAY := by
  obtain ⟨-, hthree, -⟩ | ⟨before, u, first, w, rfl, hwalk, hhop, rfl⟩ := h.cases_last
  · exact absurd hthree (by decide)
  obtain ⟨rfl, rfl⟩ : u = 2 ∧ w = 1 := by simpa using hop_leaking hhop
  obtain ⟨-, htwo, -⟩ | ⟨earlier, u, start, w, rfl, hstart, hfirst, rfl⟩ := hwalk.cases_last
  · exact absurd htwo (by decide)
  obtain rfl : earlier = 0 := by omega
  obtain ⟨-, rfl, rfl⟩ | ⟨_, _, _, _, hnone, -⟩ := hstart.cases_last
  · obtain rfl : w = 1 / 10 := by simpa using hop_leaking hfirst
    rfl
  · exact absurd hnone (Nat.zero_ne_add_one _)

-- On one level nothing leaks.
theorem levelCalm_singleton {u : Nat} (hnext : wave.next = [u]) :
    calculator.LevelCalm graph direction depth wave := by
  intro before node behind hsplit after hafter
  rw [hnext] at hsplit
  obtain ⟨rfl, -⟩ | ⟨rest, -, hrest⟩ := List.cons_eq_append_iff.mp hsplit
  · obtain rfl := Option.some.inj hafter
    rfl
  · exact absurd hrest (by simp)

theorem calm_one (hlimit : calculator.maxHops = 1) (graph : Graph Rat T)
    (direction : ImpactDirection) (source : Nat) :
    calculator.Calm graph direction calculator.maxHops 0 (start graph source) := by
  rw [hlimit]
  exact fun _ => ⟨levelCalm_singleton rfl, fun _ _ => trivial⟩

end Leak

end ImpactRadiusCalculator

end M1nd.Core
