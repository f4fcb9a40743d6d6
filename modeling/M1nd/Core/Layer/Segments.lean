import M1nd.Core.Layer
import M1nd.Library.Components

namespace M1nd.Core

open M1nd.Library.Components
open Relation

variable {adj : Nat → List Nat}

def Adjacent (adj : Nat → List Nat) (v w : Nat) : Prop := w ∈ adj v

-- A part of the stack: a node in progress, and the finished nodes above it that it reaches and
-- that reach it.
structure Segment where
  vertex : Nat
  pos : Nat
  above : List Nat

namespace Segment

def frame (segment : Segment) : TarjanFrame :=
  .Resume segment.vertex segment.pos

def members (segment : Segment) : List Nat :=
  segment.above ++ [segment.vertex]

theorem vertex_mem (segment : Segment) : segment.vertex ∈ segment.members :=
  List.mem_append_right _ (List.mem_singleton_self _)

-- The neighbors that have been looked at.
def examined (segment : Segment) (adj : Nat → List Nat) (x : Nat) : List Nat :=
  if x = segment.vertex then (adj x).take segment.pos else adj x

end Segment

def Tarjan.num (t : Tarjan) (v : Nat) : Nat :=
  (t.indices v).getD 0

def Tarjan.Settled (t : Tarjan) (v : Nat) : Prop :=
  (t.indices v).isSome ∧ v ∉ t.stack

structure Segment.Ok (t : Tarjan) (adj : Nat → List Nat) (segment : Segment) : Prop where
  linked : ∀ x ∈ segment.members, Linked (Adjacent adj) segment.vertex x
  examined : ∀ x ∈ segment.members, ∀ w ∈ segment.examined adj x,
    (t.indices w).isSome ∧ (w ∈ t.stack → t.lowlinks segment.vertex ≤ t.num w)
  low_le : t.lowlinks segment.vertex ≤ t.num segment.vertex
  low_reached : ∃ u ∈ t.stack, t.num u = t.lowlinks segment.vertex ∧
    ReflTransGen (Adjacent adj) segment.vertex u

-- A segment stays in order when its low link does, what it reached by then is still on the
-- stack, and nothing that had been visited comes back to the stack.
theorem Segment.Ok.of_agree {t next : Tarjan} {segment : Segment} (h : segment.Ok t adj)
    (hvertex : (t.indices segment.vertex).isSome)
    (hindices : ∀ w, (t.indices w).isSome → next.indices w = t.indices w)
    (hlow : next.lowlinks segment.vertex = t.lowlinks segment.vertex)
    (hback : ∀ w, (t.indices w).isSome → w ∈ next.stack → w ∈ t.stack)
    (hkept : ∀ u ∈ t.stack, t.num u ≤ t.num segment.vertex → u ∈ next.stack)
    (hvisited : ∀ u ∈ t.stack, (t.indices u).isSome) : segment.Ok next adj := by
  have hnum (w : Nat) (hw : (t.indices w).isSome) : next.num w = t.num w := by
    rw [Tarjan.num, Tarjan.num, hindices w hw]
  refine ⟨h.linked, ?_, ?_, ?_⟩
  · intro x hx w hw
    obtain ⟨hsome, hle⟩ := h.examined x hx w hw
    refine ⟨by rwa [hindices w hsome], fun hstack => ?_⟩
    rw [hlow, hnum w hsome]
    exact hle (hback w hsome hstack)
  · rw [hlow, hnum _ hvertex]
    exact h.low_le
  · obtain ⟨u, hu, hlowu, hreach⟩ := h.low_reached
    have hle := h.low_le
    refine ⟨u, hkept u hu (by omega), ?_, hreach⟩
    rw [hlow, hnum u (hvisited u hu)]
    exact hlowu

theorem Segment.Ok.advance {t : Tarjan} {v pos : Nat} {above : List Nat}
    (h : (Segment.mk v pos above).Ok t adj) {w : Nat} (hw : (adj v)[pos]? = some w)
    (hvisited : (t.indices w).isSome) (hle : w ∈ t.stack → t.lowlinks v ≤ t.num w) :
    (Segment.mk v (pos + 1) above).Ok t adj := by
  refine ⟨h.linked, fun x hx y hy => ?_, h.low_le, h.low_reached⟩
  have hold : y ∈ (Segment.mk v pos above).examined adj x ∨ y = w := by
    unfold Segment.examined at hy ⊢
    by_cases he : x = v
    · subst he
      simpa only [if_true, List.take_add_one, hw, Option.toList_some, List.mem_append,
        List.mem_singleton] using hy
    · simp only [if_neg he] at hy ⊢
      exact .inl hy
  obtain hy | rfl := hold
  · exact h.examined x hx y hy
  · exact ⟨hvisited, hle⟩

-- The stack is made of segments, each of which reaches the later ones, and what is off the stack
-- is made of components.
structure Tarjan.Invariant (t : Tarjan) (nodes : List Nat) (adj : Nat → List Nat)
    (segments : List Segment) (components : List (List Nat)) : Prop where
  stack : t.stack = segments.flatMap Segment.members
  onStack : ∀ v, t.onStack v = true ↔ v ∈ t.stack
  visited : ∀ v ∈ t.stack, (t.indices v).isSome
  bounded : ∀ v, (t.indices v).isSome → v < nodes.length
  indices_lt : ∀ v index, t.indices v = some index → index < t.indexCounter
  sorted : t.stack.Pairwise fun a b => t.num b < t.num a
  ok : ∀ segment ∈ segments, segment.Ok t adj
  chain : segments.Pairwise fun segment caller =>
    ReflTransGen (Adjacent adj) caller.vertex segment.vertex
  closed : ∀ v w, t.Settled v → Adjacent adj v w → t.Settled w
  settled : ∀ v, t.Settled v ↔ ∃ component ∈ components, v ∈ component
  component : ∀ component ∈ components, component.Nodup ∧ IsComponent (Adjacent adj) component
  disjoint : components.Pairwise List.Disjoint
  result : t.result = (components.filter fun component => 1 < component.length).map fun component =>
    component.map fun w => nodes.getD w 0

namespace Tarjan

variable {t : Tarjan} {nodes : List Nat} {segments : List Segment}
  {components : List (List Nat)} {v pos : Nat} {above : List Nat}

theorem invariant_new : (Tarjan.new).Invariant nodes adj [] [] where
  stack := rfl
  onStack _ := by simp [new]
  visited := nofun
  bounded := nofun
  indices_lt := nofun
  sorted := .nil
  ok := nofun
  chain := .nil
  closed _ _ h := absurd h.1 Bool.false_ne_true
  settled _ := ⟨fun h => absurd h.1 Bool.false_ne_true, nofun⟩
  component := nofun
  disjoint := .nil
  result := rfl

theorem Invariant.withCallStack (h : t.Invariant nodes adj segments components)
    (callStack : List TarjanFrame) :
    { t with callStack := callStack }.Invariant nodes adj segments components where
  stack := h.stack
  onStack := h.onStack
  visited := h.visited
  bounded := h.bounded
  indices_lt := h.indices_lt
  sorted := h.sorted
  ok segment hsegment := by
    have hok := h.ok segment hsegment
    exact ⟨hok.linked, hok.examined, hok.low_le, hok.low_reached⟩
  chain := h.chain
  closed := h.closed
  settled := h.settled
  component := h.component
  disjoint := h.disjoint
  result := h.result

section Stack

theorem Invariant.vertex_mem_stack (h : t.Invariant nodes adj segments components)
    {segment : Segment} (hsegment : segment ∈ segments) : segment.vertex ∈ t.stack := by
  rw [h.stack]
  exact List.mem_flatMap.mpr ⟨segment, hsegment, segment.vertex_mem⟩

-- Each segment lies above those of its callers, and its vertex lowest in it.
theorem Invariant.num_lt (h : t.Invariant nodes adj (⟨v, pos, above⟩ :: segments) components) :
    (∀ x ∈ above, t.num v < t.num x) ∧
      ∀ x ∈ above ++ [v], ∀ y ∈ segments.flatMap Segment.members, t.num y < t.num x := by
  have hsorted := h.sorted
  rw [h.stack, List.flatMap_cons, List.pairwise_append] at hsorted
  obtain ⟨hmembers, -, hlower⟩ := hsorted
  refine ⟨fun x hx => ?_, hlower⟩
  exact (List.pairwise_append.mp hmembers).2.2 x hx v (List.mem_singleton_self v)

theorem Invariant.num_le (h : t.Invariant nodes adj (⟨v, pos, above⟩ :: segments) components)
    {x : Nat} (hx : x ∈ above ++ [v]) : t.num v ≤ t.num x := by
  obtain hx | hx := List.mem_append.mp hx
  · exact (h.num_lt.1 x hx).le
  · rw [List.mem_singleton.mp hx]

theorem Invariant.vertex_not_mem_above
    (h : t.Invariant nodes adj (⟨v, pos, above⟩ :: segments) components) : v ∉ above :=
  fun hv => absurd (h.num_lt.1 v hv) (lt_irrefl _)

theorem Invariant.vertex_ne (h : t.Invariant nodes adj (⟨v, pos, above⟩ :: segments) components)
    {segment : Segment} (hsegment : segment ∈ segments) : segment.vertex ≠ v := by
  intro he
  have hmem : segment.vertex ∈ segments.flatMap Segment.members :=
    List.mem_flatMap.mpr ⟨segment, hsegment, segment.vertex_mem⟩
  have hlt := h.num_lt.2 v (List.mem_append_right _ (List.mem_singleton_self v)) _ hmem
  rw [he] at hlt
  exact absurd hlt (lt_irrefl _)

theorem Invariant.nodup (h : t.Invariant nodes adj segments components) : t.stack.Nodup :=
  h.sorted.imp fun hlt he => absurd (he ▸ hlt) (lt_irrefl _)

end Stack

-- Only the segments change, not the stack they make.
theorem Invariant.withSegments (h : t.Invariant nodes adj segments components)
    {others : List Segment}
    (hstack : others.flatMap Segment.members = segments.flatMap Segment.members)
    (hok : ∀ segment ∈ others, segment.Ok t adj)
    (hchain : others.Pairwise fun segment caller =>
      ReflTransGen (Adjacent adj) caller.vertex segment.vertex) :
    t.Invariant nodes adj others components :=
  ⟨h.stack.trans hstack.symm, h.onStack, h.visited, h.bounded, h.indices_lt, h.sorted, hok, hchain,
    h.closed, h.settled, h.component, h.disjoint, h.result⟩

section Scan

-- The low link of the segment on top is lowered to the index of a neighbor on the stack.
theorem Invariant.lower (h : t.Invariant nodes adj (⟨v, pos, above⟩ :: segments) components)
    {w : Nat} (hadjacent : Adjacent adj v w) (hstack : w ∈ t.stack) :
    (t.lower v (t.num w)).Invariant nodes adj (⟨v, pos, above⟩ :: segments) components := by
  have hok := h.ok _ List.mem_cons_self
  have hself : (t.lower v (t.num w)).lowlinks v = min (t.lowlinks v) (t.num w) :=
    Function.update_self ..
  refine ⟨h.stack, h.onStack, h.visited, h.bounded, h.indices_lt, h.sorted, ?_, h.chain, h.closed,
    h.settled, h.component, h.disjoint, h.result⟩
  intro segment hsegment
  obtain rfl | hsegment := List.mem_cons.mp hsegment
  · refine ⟨hok.linked, ?_, ?_, ?_⟩
    · intro x hx y hy
      obtain ⟨hsome, hle⟩ := hok.examined x hx y hy
      exact ⟨hsome, fun hy => hself.trans_le ((min_le_left _ _).trans (hle hy))⟩
    · exact hself.trans_le ((min_le_left _ _).trans hok.low_le)
    · obtain ⟨u, hu, hnum, hreach⟩ := hok.low_reached
      by_cases hle : t.lowlinks v ≤ t.num w
      · exact ⟨u, hu, hnum.trans (hself.trans (min_eq_left hle)).symm, hreach⟩
      · exact ⟨w, hstack, (hself.trans (min_eq_right (by omega))).symm, .single hadjacent⟩
  · have hne := h.vertex_ne hsegment
    have hvertex := h.vertex_mem_stack (List.mem_cons_of_mem _ hsegment)
    have hlow : (t.lower v (t.num w)).lowlinks segment.vertex = t.lowlinks segment.vertex :=
      Function.update_of_ne hne ..
    exact (h.ok segment (List.mem_cons_of_mem _ hsegment)).of_agree (h.visited _ hvertex)
      (fun _ _ => rfl) hlow (fun _ _ hw => hw) (fun _ hu _ => hu) h.visited

theorem Invariant.advance (h : t.Invariant nodes adj (⟨v, pos, above⟩ :: segments) components)
    {w : Nat} (hw : (adj v)[pos]? = some w) (hvisited : (t.indices w).isSome)
    (hle : w ∈ t.stack → t.lowlinks v ≤ t.num w) :
    t.Invariant nodes adj (⟨v, pos + 1, above⟩ :: segments) components := by
  refine h.withSegments rfl ?_ (List.pairwise_cons.mpr (List.pairwise_cons.mp h.chain))
  intro segment hsegment
  obtain rfl | hsegment := List.mem_cons.mp hsegment
  · exact (h.ok _ List.mem_cons_self).advance hw hvisited hle
  · exact h.ok segment (List.mem_cons_of_mem _ hsegment)

-- The scan stops at the end of the neighbors or at one that has not been visited.
theorem Invariant.scan (h : t.Invariant nodes adj (⟨v, pos, above⟩ :: segments) components)
    {rest : List Nat} (hrest : (adj v).drop pos = rest) :
    ∃ found next stop, t.scan v pos rest = (found, next) ∧ next.indices = t.indices ∧
      next.Invariant nodes adj (⟨v, stop, above⟩ :: segments) components ∧
      ((found = none ∧ (adj v).length ≤ stop) ∨
        ∃ w, found = some (w, stop + 1) ∧ (adj v)[stop]? = some w ∧ t.indices w = none) := by
  induction rest generalizing t pos with
  | nil =>
      have hlength := List.drop_eq_nil_iff.mp hrest
      exact ⟨none, t, pos, rfl, rfl, h, .inl ⟨rfl, hlength⟩⟩
  | cons w rest ih =>
      have hw : (adj v)[pos]? = some w := by
        rw [← List.head?_drop, hrest, List.head?_cons]
      have htail : (adj v).drop (pos + 1) = rest := by
        rw [← List.tail_drop, hrest, List.tail_cons]
      cases hindex : t.indices w with
      | none =>
          refine ⟨some (w, pos + 1), t, pos, ?_, rfl, h, .inr ⟨w, rfl, hw, hindex⟩⟩
          rw [Tarjan.scan, hindex]
      | some index =>
          have hnum : t.num w = index := by rw [num, hindex, Option.getD_some]
          have hvisited : (t.indices w).isSome := by rw [hindex, Option.isSome_some]
          by_cases hstack : t.onStack w = true
          · simp only [Tarjan.scan, hindex, if_pos hstack]
            have hmem := (h.onStack w).mp hstack
            have hlower := h.lower (List.mem_of_getElem? hw) hmem
            rw [hnum] at hlower
            have hle : (t.lower v index).lowlinks v ≤ (t.lower v index).num w := by
              have hself : (t.lower v index).lowlinks v = min (t.lowlinks v) index :=
                Function.update_self ..
              exact hself.trans_le ((min_le_right _ _).trans_eq hnum.symm)
            exact ih (hlower.advance hw hvisited fun _ => hle) htail
          · simp only [Tarjan.scan, hindex, if_neg hstack]
            have hmem : w ∉ t.stack := fun hmem => hstack ((h.onStack w).mpr hmem)
            exact ih (h.advance hw hvisited fun hw => absurd hw hmem) htail

end Scan

section Enter

theorem settled_enter {callers : List TarjanFrame} {w x : Nat} (hw : t.indices w = none) :
    (t.enter w callers).Settled x ↔ t.Settled x := by
  unfold Settled
  by_cases hx : x = w
  · subst hx
    simp [Tarjan.enter, hw]
  · simp [Tarjan.enter, hx]

theorem num_enter_self {callers : List TarjanFrame} {w : Nat} :
    (t.enter w callers).num w = t.indexCounter := by
  simp [num, Tarjan.enter]

theorem num_enter_of_ne {callers : List TarjanFrame} {w x : Nat} (hx : x ≠ w) :
    (t.enter w callers).num x = t.num x := by
  simp [num, Tarjan.enter, hx]

theorem Invariant.enter (h : t.Invariant nodes adj segments components)
    (callers : List TarjanFrame) {w : Nat} (hlt : w < nodes.length) (hw : t.indices w = none)
    (hreach : ∀ segment ∈ segments, ReflTransGen (Adjacent adj) segment.vertex w) :
    (t.enter w callers).Invariant nodes adj (⟨w, 0, []⟩ :: segments) components := by
  have hne (x : Nat) (hx : (t.indices x).isSome) : x ≠ w := by
    rintro rfl
    rw [hw] at hx
    exact absurd hx Bool.false_ne_true
  have hindices (x : Nat) (hx : (t.indices x).isSome) :
      (t.enter w callers).indices x = t.indices x :=
    Function.update_of_ne (hne x hx) ..
  constructor
  case stack =>
    rw [List.flatMap_cons, ← h.stack]
    rfl
  case onStack =>
    intro x
    by_cases hx : x = w
    · subst hx
      simp [Tarjan.enter]
    · simp [Tarjan.enter, hx, h.onStack]
  case visited =>
    intro x hx
    obtain rfl | hx := List.mem_cons.mp hx
    · simp [Tarjan.enter]
    · have hsome := h.visited x hx
      rwa [hindices x hsome]
  case bounded =>
    intro x hx
    by_cases he : x = w
    · exact he ▸ hlt
    · apply h.bounded
      simpa [Tarjan.enter, he] using hx
  case indices_lt =>
    intro x index hx
    change index < t.indexCounter + 1
    by_cases he : x = w
    · subst he
      simp only [Tarjan.enter, Function.update_self, Option.some.injEq] at hx
      omega
    · simp only [Tarjan.enter, Function.update_of_ne he] at hx
      exact (h.indices_lt x index hx).trans (Nat.lt_succ_self _)
  case sorted =>
    refine List.pairwise_cons.mpr ⟨fun x hx => ?_, ?_⟩
    · have hsome := h.visited x hx
      obtain ⟨index, hindex⟩ := Option.isSome_iff_exists.mp hsome
      rw [num_enter_self, num_enter_of_ne (hne x hsome), num, hindex]
      exact h.indices_lt x index hindex
    · refine h.sorted.imp_of_mem fun hx hy hlt => ?_
      rwa [num_enter_of_ne (hne _ (h.visited _ hx)), num_enter_of_ne (hne _ (h.visited _ hy))]
  case ok =>
    intro segment hsegment
    obtain rfl | hsegment := List.mem_cons.mp hsegment
    · have hlow : (t.enter w callers).lowlinks w = (t.enter w callers).num w := by
        rw [num_enter_self]
        exact Function.update_self ..
      refine ⟨?_, ?_, hlow.le, ⟨w, List.mem_cons_self, hlow.symm, .refl⟩⟩
      · intro x hx
        rw [List.mem_singleton.mp hx]
        exact .refl _
      · intro x hx y hy
        rw [Segment.examined, if_pos (List.mem_singleton.mp hx), List.take_zero] at hy
        exact absurd hy List.not_mem_nil
    · have hvertex := h.vertex_mem_stack hsegment
      have hsome := h.visited _ hvertex
      have hlow : (t.enter w callers).lowlinks segment.vertex = t.lowlinks segment.vertex :=
        Function.update_of_ne (hne _ hsome) ..
      refine (h.ok segment hsegment).of_agree hsome hindices hlow ?_ ?_ h.visited
      · intro x hx hstack
        exact (List.mem_cons.mp hstack).resolve_left (hne x hx)
      · exact fun u hu _ => List.mem_cons_of_mem _ hu
  case chain => exact List.pairwise_cons.mpr ⟨hreach, h.chain⟩
  case closed =>
    intro x y hx hedge
    rw [settled_enter hw] at hx ⊢
    exact h.closed x y hx hedge
  case settled =>
    intro x
    rw [settled_enter hw]
    exact h.settled x
  case component => exact h.component
  case disjoint => exact h.disjoint
  case result => exact h.result

end Enter

end Tarjan

end M1nd.Core
