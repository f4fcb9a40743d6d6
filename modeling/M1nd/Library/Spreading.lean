import Mathlib.Data.List.Basic
import Mathlib.Data.List.Induction
import Mathlib.Logic.Function.Basic
import Mathlib.Order.Lattice

namespace M1nd.Library.Spreading

variable {α β K : Type} [LinearOrder K]

-- Where signals spread: the ways from a node, what a way makes of a signal, and what is heard.
structure Medium (α K : Type) where
  hops : α → List (α × K)
  pass : K → K → K
  threshold : K

-- The strongest signals so far, the nodes that were queued, and those that are queued for the
-- next level.
structure Wave (α K : Type) where
  act : α → K
  seen : α → Bool
  next : List α

section Steps

variable [DecidableEq α]

-- A node from which signals start.
def plant (wave : Wave α K) (origin : α) (signal : K) : Wave α K where
  act := if wave.act origin < signal then Function.update wave.act origin signal else wave.act
  seen := Function.update wave.seen origin true
  next := if wave.seen origin = true then wave.next else wave.next ++ [origin]

variable (medium : Medium α K) (reopens : K → K → Bool)

-- A node is queued when it is heard first, and again where it is reopened.
def arrive (wave : Wave α K) (target : α) (signal : K) : Wave α K :=
  if medium.threshold < signal ∧ wave.act target < signal then
    { act := Function.update wave.act target signal
      seen := Function.update wave.seen target true
      next := if wave.seen target = false ∨ reopens (wave.act target) signal = true then
          wave.next ++ [target]
        else wave.next }
  else wave

def arrivals (strength : K) (wave : Wave α K) (hops : List (α × K)) : Wave α K :=
  hops.foldl (fun wave hop => arrive medium reopens wave hop.1 (medium.pass strength hop.2)) wave

def expand (wave : Wave α K) (src : α) : Wave α K :=
  if wave.act src < medium.threshold then wave
  else arrivals medium reopens (wave.act src) wave (medium.hops src)

def level (wave : Wave α K) : Wave α K :=
  wave.next.foldl (expand medium reopens) { wave with next := [] }

def levels : Nat → Wave α K → Wave α K
  | 0, wave => wave
  | left + 1, wave => levels left (level medium reopens wave)

end Steps

section Growth

variable [DecidableEq α] {medium : Medium α K} {reopens : K → K → Bool} {wave : Wave α K}

theorem act_arrive (wave : Wave α K) (target : α) (signal : K) :
    (arrive medium reopens wave target signal).act =
      if medium.threshold < signal ∧ wave.act target < signal then
        Function.update wave.act target signal
      else wave.act := by
  unfold arrive
  split <;> rfl

theorem le_arrive (wave : Wave α K) (target : α) (signal : K) (v : α) :
    wave.act v ≤ (arrive medium reopens wave target signal).act v := by
  rw [act_arrive]
  split
  case isTrue h =>
    by_cases hv : v = target
    · subst hv
      rw [Function.update_self]
      exact h.2.le
    · rw [Function.update_of_ne hv]
  case isFalse => exact le_rfl

theorem le_arrivals (wave : Wave α K) (strength : K) (hops : List (α × K)) (v : α) :
    wave.act v ≤ (arrivals medium reopens strength wave hops).act v := by
  induction hops generalizing wave with
  | nil => exact le_rfl
  | cons hop hops ih => exact (le_arrive wave hop.1 (medium.pass strength hop.2) v).trans (ih _)

-- What raises no signal changes nothing.
theorem arrivals_eq_self {strength : K} {hops : List (α × K)}
    (h : (arrivals medium reopens strength wave hops).act = wave.act) :
    arrivals medium reopens strength wave hops = wave := by
  induction hops with
  | nil => rfl
  | cons hop hops ih =>
      have hquiet : ¬ (medium.threshold < medium.pass strength hop.2 ∧
          wave.act hop.1 < medium.pass strength hop.2) := by
        intro hraise
        have hle : (arrive medium reopens wave hop.1 (medium.pass strength hop.2)).act hop.1 ≤
            (arrivals medium reopens strength wave (hop :: hops)).act hop.1 :=
          le_arrivals _ strength hops hop.1
        rw [h, act_arrive, if_pos hraise, Function.update_self] at hle
        exact absurd hraise.2 (not_lt.mpr hle)
      have hsame : arrive medium reopens wave hop.1 (medium.pass strength hop.2) = wave := by
        rw [arrive, if_neg hquiet]
      rw [arrivals, List.foldl_cons, hsame] at h ⊢
      exact ih h

theorem expand_eq_self {src : α} (h : (expand medium reopens wave src).act = wave.act) :
    expand medium reopens wave src = wave := by
  unfold expand at h ⊢
  split
  case isTrue => rfl
  case isFalse hloud =>
    rw [if_neg hloud] at h
    exact arrivals_eq_self h

omit [LinearOrder K] [DecidableEq α] in
theorem eta_next_nil (hnext : wave.next = []) : ({ wave with next := [] } : Wave α K) = wave := by
  rw [← hnext]

theorem levels_of_next_nil (hnext : wave.next = []) (left : Nat) :
    levels medium reopens left wave = wave := by
  induction left with
  | zero => rfl
  | succ left ih => rw [levels, level, hnext, List.foldl_nil, eta_next_nil hnext, ih]

end Growth

section Reopening

variable [DecidableEq α] {medium : Medium α K} {reopens : K → K → Bool}
  {wave wave' : Wave α K} {queued : List α}

-- The entries of a list that were not queued before, each of them once.
def firsts (queued : List α) : List α → List α
  | [] => []
  | x :: rest => if x ∈ queued then firsts queued rest else x :: firsts (x :: queued) rest

theorem firsts_concat (queued items : List α) (x : α) :
    firsts queued (items ++ [x]) =
      firsts queued items ++ if x ∈ queued ∨ x ∈ items then [] else [x] := by
  induction items generalizing queued with
  | nil =>
      rw [List.nil_append, firsts, firsts, firsts]
      by_cases hx : x ∈ queued <;> simp [hx, firsts]
  | cons y items ih =>
      rw [List.cons_append, firsts, firsts]
      by_cases hy : y ∈ queued
      · rw [if_pos hy, if_pos hy, ih]
        have hmem : x ∈ queued ∨ x ∈ items ↔ x ∈ queued ∨ x ∈ y :: items := by
          rw [List.mem_cons]
          constructor
          · exact fun h => h.imp_right Or.inr
          · rintro (h | rfl | h)
            · exact .inl h
            · exact .inl hy
            · exact .inr h
        simp only [hmem]
      · rw [if_neg hy, if_neg hy, ih, List.cons_append]
        have hmem : x ∈ y :: queued ∨ x ∈ items ↔ x ∈ queued ∨ x ∈ y :: items := by
          rw [List.mem_cons, List.mem_cons]
          tauto
        simp only [hmem]

theorem firsts_of_nodup {items : List α} (hnodup : items.Nodup)
    (hfresh : ∀ x ∈ items, x ∉ queued) : firsts queued items = items := by
  induction items generalizing queued with
  | nil => rfl
  | cons x items ih =>
      obtain ⟨hx, hrest⟩ := List.nodup_cons.mp hnodup
      rw [firsts, if_neg (hfresh x List.mem_cons_self), ih hrest]
      intro y hy hqueued
      obtain rfl | hqueued := List.mem_cons.mp hqueued
      · exact hx hy
      · exact hfresh y (List.mem_cons_of_mem _ hy) hqueued

-- The origins of the signals, each of them queued once.
structure Planted (wave : Wave α K) : Prop where
  nodup : wave.next.Nodup
  marked : ∀ v, wave.seen v = true ↔ v ∈ wave.next

theorem seen_plant (wave : Wave α K) (origin : α) (signal : K) (v : α) :
    (plant wave origin signal).seen v = true ↔ wave.seen v = true ∨ v = origin := by
  unfold plant
  by_cases hv : v = origin
  · subst hv
    simp
  · simp [hv]

theorem next_plant (wave : Wave α K) (origin : α) (signal : K) :
    (plant wave origin signal).next =
      if wave.seen origin = true then wave.next else wave.next ++ [origin] := rfl

theorem Planted.plant (h : Planted wave) (origin : α) (signal : K) :
    Planted (plant wave origin signal) := by
  by_cases hseen : wave.seen origin = true
  · have hin := (h.marked origin).mp hseen
    refine ⟨?_, fun v => ?_⟩
    · rw [next_plant, if_pos hseen]
      exact h.nodup
    · rw [next_plant, if_pos hseen, seen_plant, h.marked]
      exact ⟨fun hv => hv.elim id fun he => he ▸ hin, .inl⟩
  · have hout : origin ∉ wave.next := fun hin => hseen ((h.marked origin).mpr hin)
    refine ⟨?_, fun v => ?_⟩
    · rw [next_plant, if_neg hseen]
      refine List.nodup_append.mpr ⟨h.nodup, List.pairwise_singleton _ origin, ?_⟩
      exact fun v hv w hw hsame => hout (List.mem_singleton.mp hw ▸ hsame ▸ hv)
    · rw [next_plant, if_neg hseen, seen_plant, h.marked, List.mem_append, List.mem_singleton]

-- No entry of a frontier that was queued before raises a signal.
def IdleLevel (medium : Medium α K) (reopens : K → K → Bool) (queued : List α) (wave : Wave α K) :
    Prop :=
  ∀ before src behind, wave.next = before ++ src :: behind → src ∈ queued ∨ src ∈ before →
    (expand medium reopens (before.foldl (expand medium reopens) { wave with next := [] }) src).act =
      (before.foldl (expand medium reopens) { wave with next := [] }).act

-- The levels that are left are idle.
def Idle (medium : Medium α K) (reopens : K → K → Bool) : Nat → List α → Wave α K → Prop
  | 0, _, _ => True
  | left + 1, queued, wave =>
      IdleLevel medium reopens queued wave ∧
        Idle medium reopens left (queued ++ wave.next) (level medium reopens wave)

-- The levels that are left queue each node once.
def Fresh (medium : Medium α K) (reopens : K → K → Bool) : Nat → List α → Wave α K → Prop
  | 0, _, _ => True
  | left + 1, queued, wave =>
      (wave.next.Nodup ∧ ∀ x ∈ wave.next, x ∉ queued) ∧
        Fresh medium reopens left (queued ++ wave.next) (level medium reopens wave)

instance Fresh.decidable (medium : Medium α K) (reopens : K → K → Bool) :
    (left : Nat) → (queued : List α) → (wave : Wave α K) →
      Decidable (Fresh medium reopens left queued wave)
  | 0, _, _ => .isTrue trivial
  | left + 1, queued, wave =>
      have := Fresh.decidable medium reopens left (queued ++ wave.next) (level medium reopens wave)
      inferInstanceAs (Decidable (_ ∧ _))

theorem Fresh.idle {left : Nat} (h : Fresh medium reopens left queued wave) :
    Idle medium reopens left queued wave := by
  induction left generalizing queued wave with
  | zero => trivial
  | succ left ih =>
      obtain ⟨⟨hnodup, hfresh⟩, hrest⟩ := h
      refine ⟨fun before src behind hsplit hagain => ?_, ih hrest⟩
      rw [hsplit] at hnodup hfresh
      obtain hqueued | hbefore := hagain
      · exact absurd hqueued (hfresh src (List.mem_append_right _ List.mem_cons_self))
      · exact absurd rfl ((List.nodup_append.mp hnodup).2.2 src hbefore src List.mem_cons_self)

-- The second wave is the first one without what was queued again.
structure Mirrors (queued : List α) (wave wave' : Wave α K) : Prop where
  act : wave'.act = wave.act
  seen : wave'.seen = wave.seen
  next : wave'.next = firsts queued wave.next
  marked : ∀ v, wave.seen v = true ↔ v ∈ queued ∨ v ∈ wave.next

omit [LinearOrder K] in
theorem Planted.mirrors (h : Planted wave) : Mirrors [] wave wave where
  act := rfl
  seen := rfl
  next := (firsts_of_nodup h.nodup fun _ _ => List.not_mem_nil).symm
  marked v := by rw [h.marked, or_iff_right List.not_mem_nil]

theorem Mirrors.arrive (h : Mirrors queued wave wave') (target : α) (signal : K) :
    Mirrors queued (arrive medium reopens wave target signal)
      (arrive medium (fun _ _ => false) wave' target signal) := by
  unfold Spreading.arrive
  rw [h.act]
  by_cases hraise : medium.threshold < signal ∧ wave.act target < signal
  · rw [if_pos hraise, if_pos hraise]
    have hmarks (next : List α) (hnext : ∀ v, v ∈ queued ∨ v ∈ next ↔
        (v ∈ queued ∨ v ∈ wave.next) ∨ v = target) (v : α) :
        Function.update wave.seen target true v = true ↔ v ∈ queued ∨ v ∈ next := by
      rw [hnext, ← h.marked]
      by_cases hv : v = target
      · subst hv
        simp
      · simp [hv]
    by_cases hseen : wave.seen target = true
    · have hin := (h.marked target).mp hseen
      have hold : ¬ (wave.seen target = false ∨ false = true) := by simp [hseen]
      refine ⟨rfl, by rw [h.seen], ?_, ?_⟩
      · rw [h.seen, if_neg hold, h.next]
        split
        · rw [firsts_concat, if_pos hin, List.append_nil]
        · rfl
      · apply hmarks
        intro v
        split
        · rw [List.mem_append, List.mem_singleton, or_assoc]
        · constructor
          · exact .inl
          · rintro (hv | rfl)
            · exact hv
            · exact hin
    · have hfalse : wave.seen target = false := Bool.eq_false_iff.mpr hseen
      have hout : ¬ (target ∈ queued ∨ target ∈ wave.next) := fun hin =>
        hseen ((h.marked target).mpr hin)
      refine ⟨rfl, by rw [h.seen], ?_, ?_⟩
      · rw [h.seen, if_pos (.inl hfalse), if_pos (.inl hfalse), firsts_concat, if_neg hout, h.next]
      · apply hmarks
        intro v
        rw [if_pos (.inl hfalse), List.mem_append, List.mem_singleton, or_assoc]
  · rw [if_neg hraise, if_neg hraise]
    exact h

theorem Mirrors.expand (h : Mirrors queued wave wave') (src : α) :
    Mirrors queued (expand medium reopens wave src)
      (expand medium (fun _ _ => false) wave' src) := by
  unfold Spreading.expand
  rw [h.act]
  split
  case isTrue => exact h
  case isFalse hloud =>
    unfold arrivals
    clear hloud
    generalize wave.act src = strength
    induction medium.hops src generalizing wave wave' with
    | nil => exact h
    | cons hop hops ih => exact ih (h.arrive hop.1 (medium.pass strength hop.2))

-- The entries that were queued again go through the level without an effect.
theorem Mirrors.level (h : Mirrors queued wave wave')
    (hidle : IdleLevel medium reopens queued wave) :
    Mirrors (queued ++ wave.next) (level medium reopens wave)
      (level medium (fun _ _ => false) wave') := by
  have hprefix : ∀ before behind, wave.next = before ++ behind →
      Mirrors (queued ++ wave.next)
        (before.foldl (Spreading.expand medium reopens) { wave with next := [] })
        ((firsts queued before).foldl (Spreading.expand medium fun _ _ => false)
          { wave' with next := [] }) := by
    intro before
    induction before using List.reverseRecOn with
    | nil =>
        intro behind _
        refine ⟨h.act, h.seen, rfl, fun v => (h.marked v).trans ?_⟩
        rw [List.foldl_nil, List.mem_append, or_iff_left List.not_mem_nil]
    | append_singleton before src ih =>
        intro behind hsplit
        rw [List.append_assoc, List.singleton_append] at hsplit
        have hmirrors := ih (src :: behind) hsplit
        rw [List.foldl_append, List.foldl_cons, List.foldl_nil, firsts_concat]
        by_cases hagain : src ∈ queued ∨ src ∈ before
        · have hsame := expand_eq_self (hidle before src behind hsplit hagain)
          rw [hsame, if_pos hagain, List.append_nil]
          exact hmirrors
        · rw [if_neg hagain, List.foldl_append, List.foldl_cons, List.foldl_nil]
          exact hmirrors.expand src
  have hwhole := hprefix wave.next [] (List.append_nil _).symm
  rw [Spreading.level, Spreading.level, h.next]
  exact hwhole

-- Where no node that is queued again raises a signal, it does not matter that it is queued.
theorem Mirrors.levels {left : Nat} (h : Mirrors queued wave wave')
    (hidle : Idle medium reopens left queued wave) :
    (levels medium (fun _ _ => false) left wave').act = (levels medium reopens left wave).act := by
  induction left generalizing queued wave wave' with
  | zero => exact h.act
  | succ left ih => exact ih (h.level hidle.1) hidle.2

end Reopening

section Renaming

variable [DecidableEq α] [DecidableEq β] {medium : Medium α K} {medium' : Medium β K}
  {reopens : K → K → Bool} {f : β → α} {wave : Wave α K} {wave' : Wave β K}

-- A medium over some of the nodes of another one, under other names.
structure Medium.Renames (f : β → α) (medium : Medium α K) (medium' : Medium β K) : Prop where
  hops : ∀ b, medium.hops (f b) = (medium'.hops b).map fun hop => (f hop.1, hop.2)
  pass : medium.pass = medium'.pass
  threshold : medium.threshold = medium'.threshold

structure Wave.Renames (f : β → α) (wave : Wave α K) (wave' : Wave β K) : Prop where
  act : ∀ b, wave.act (f b) = wave'.act b
  seen : ∀ b, wave.seen (f b) = wave'.seen b
  next : wave.next = wave'.next.map f

theorem Wave.Renames.plant (hf : Function.Injective f) (h : wave.Renames f wave') (b : β)
    (signal : K) : (plant wave (f b) signal).Renames f (plant wave' b signal) := by
  unfold Spreading.plant
  refine ⟨fun c => ?_, fun c => ?_, ?_⟩
  · dsimp only
    rw [h.act]
    split
    case isTrue =>
      by_cases hc : c = b
      · subst hc
        simp
      · simp [hf.ne hc, hc, h.act]
    case isFalse => exact h.act c
  · by_cases hc : c = b
    · subst hc
      simp
    · simp [hf.ne hc, hc, h.seen]
  · dsimp only
    rw [h.seen, h.next]
    split
    · rfl
    · rw [List.map_append, List.map_singleton]

theorem Wave.Renames.arrive (hf : Function.Injective f) (hmedium : medium.Renames f medium')
    (h : wave.Renames f wave') (b : β) (signal : K) :
    (arrive medium reopens wave (f b) signal).Renames f (arrive medium' reopens wave' b signal) := by
  unfold Spreading.arrive
  rw [hmedium.threshold, h.act, h.seen]
  split
  case isTrue =>
    refine ⟨fun c => ?_, fun c => ?_, ?_⟩
    · by_cases hc : c = b
      · subst hc
        simp
      · simp [Function.update_of_ne (hf.ne hc), Function.update_of_ne hc, h.act]
    · by_cases hc : c = b
      · subst hc
        simp
      · simp [Function.update_of_ne (hf.ne hc), Function.update_of_ne hc, h.seen]
    · dsimp only
      split <;> simp [h.next]
  case isFalse => exact h

theorem Wave.Renames.expand (hf : Function.Injective f) (hmedium : medium.Renames f medium')
    (h : wave.Renames f wave') (b : β) :
    (expand medium reopens wave (f b)).Renames f (expand medium' reopens wave' b) := by
  unfold Spreading.expand
  rw [hmedium.threshold, h.act, hmedium.hops]
  split
  case isTrue => exact h
  case isFalse hloud =>
    unfold arrivals
    clear hloud
    rw [hmedium.pass]
    generalize wave'.act b = strength
    induction medium'.hops b generalizing wave wave' with
    | nil => exact h
    | cons hop hops ih => exact ih (h.arrive hf hmedium hop.1 (medium'.pass strength hop.2))

theorem Wave.Renames.level (hf : Function.Injective f) (hmedium : medium.Renames f medium')
    (h : wave.Renames f wave') :
    (level medium reopens wave).Renames f (level medium' reopens wave') := by
  rw [Spreading.level, Spreading.level, h.next]
  have hstart : ({ wave with next := [] } : Wave α K).Renames f { wave' with next := [] } :=
    ⟨h.act, h.seen, rfl⟩
  generalize ({ wave with next := [] } : Wave α K) = before at hstart
  generalize ({ wave' with next := [] } : Wave β K) = before' at hstart
  induction wave'.next generalizing before before' with
  | nil => exact hstart
  | cons b rest ih => exact ih _ _ (hstart.expand hf hmedium b)

theorem Wave.Renames.levels (hf : Function.Injective f) (hmedium : medium.Renames f medium')
    (h : wave.Renames f wave') (reopens : K → K → Bool) (left : Nat) :
    (levels medium reopens left wave).Renames f (levels medium' reopens left wave') := by
  induction left generalizing wave wave' with
  | zero => exact h
  | succ left ih => exact ih (h.level hf hmedium)

end Renaming

end M1nd.Library.Spreading
