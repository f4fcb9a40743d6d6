import M1nd.Core.Layer.Segments

namespace M1nd.Core

open M1nd.Library.Components
open Relation

variable {adj : Nat → List Nat}

namespace Tarjan

variable {t next : Tarjan} {nodes : List Nat} {segments : List Segment}
  {components : List (List Nat)} {v pos : Nat} {above : List Nat}

-- Every neighbor of the finished segment on top has been looked at.
theorem Invariant.examined_top (h : t.Invariant nodes adj (⟨v, pos, above⟩ :: segments) components)
    (hpos : (adj v).length ≤ pos) {x y : Nat} (hx : x ∈ above ++ [v]) (hy : Adjacent adj x y) :
    (t.indices y).isSome ∧ (y ∈ t.stack → t.lowlinks v ≤ t.num y) := by
  apply (h.ok _ List.mem_cons_self).examined x hx
  unfold Segment.examined
  by_cases he : x = v
  · subst he
    rw [if_pos rfl, List.take_of_length_le hpos]
    exact hy
  · rw [if_neg he]
    exact hy

section Close

theorem popScc_append {rest : List Nat} (hv : v ∉ above) :
    popScc v (above ++ v :: rest) = some (above ++ [v], rest) := by
  induction above with
  | nil => rw [List.nil_append, popScc, if_pos rfl, List.nil_append]
  | cons w above ih =>
      have hne : w ≠ v := (List.ne_of_not_mem_cons hv).symm
      rw [List.cons_append, popScc, if_neg hne, ih (List.not_mem_of_not_mem_cons hv)]
      rfl

theorem Invariant.close_eq (h : t.Invariant nodes adj (⟨v, pos, above⟩ :: segments) components) :
    t.close nodes v = some { t with
      stack := segments.flatMap Segment.members
      onStack := fun w => t.onStack w && w ∉ above ++ [v]
      result := if 1 < (above ++ [v]).length then
        t.result ++ [(above ++ [v]).map fun w => nodes.getD w 0] else t.result } := by
  have hstack : t.stack = above ++ v :: segments.flatMap Segment.members := by
    rw [h.stack, List.flatMap_cons, Segment.members, List.append_assoc]
    rfl
  unfold Tarjan.close
  rw [hstack, popScc_append h.vertex_not_mem_above]
  rfl

-- A segment that reaches no lower index is a component.
theorem Invariant.isComponent (h : t.Invariant nodes adj (⟨v, pos, above⟩ :: segments) components)
    (hpos : (adj v).length ≤ pos) (hlow : t.lowlinks v = t.num v) :
    IsComponent (Adjacent adj) (above ++ [v]) := by
  have hv : v ∈ above ++ [v] := List.mem_append_right _ (List.mem_singleton_self v)
  have hstack := h.stack
  rw [List.flatMap_cons] at hstack
  apply isComponent_of_closed t.Settled hv (h.ok _ List.mem_cons_self).linked
  · exact fun hsettled => hsettled.2 (h.vertex_mem_stack List.mem_cons_self)
  · exact h.closed
  · intro x hx y hy
    obtain ⟨hsome, hle⟩ := h.examined_top hpos hx hy
    by_cases hmem : y ∈ t.stack
    · refine .inl ?_
      have hlt := hle hmem
      rw [hstack] at hmem
      refine (List.mem_append.mp hmem).resolve_right fun hlower => ?_
      have := h.num_lt.2 v hv y hlower
      omega
    · exact .inr ⟨hsome, hmem⟩

theorem Invariant.close (h : t.Invariant nodes adj (⟨v, pos, above⟩ :: segments) components)
    (hpos : (adj v).length ≤ pos) (hlow : t.lowlinks v = t.num v) :
    ∃ next, t.close nodes v = some next ∧ next.indices = t.indices ∧
      next.lowlinks = t.lowlinks ∧
      next.Invariant nodes adj segments (components ++ [above ++ [v]]) := by
  refine ⟨_, h.close_eq, rfl, rfl, ?_⟩
  have hstack : t.stack = (above ++ [v]) ++ segments.flatMap Segment.members := h.stack
  have hdisjoint := List.disjoint_of_nodup_append (hstack ▸ h.nodup)
  have hsettled (x : Nat) :
      ((t.indices x).isSome ∧ x ∉ segments.flatMap Segment.members) ↔
        t.Settled x ∨ x ∈ above ++ [v] := by
    unfold Settled
    rw [hstack, List.mem_append]
    constructor
    · rintro ⟨hsome, hnot⟩
      by_cases hx : x ∈ above ++ [v]
      · exact .inr hx
      · exact .inl ⟨hsome, fun hmem => hmem.elim hx hnot⟩
    · rintro (⟨hsome, hnot⟩ | hx)
      · exact ⟨hsome, fun hmem => hnot (.inr hmem)⟩
      · have hmem : x ∈ t.stack := hstack ▸ List.mem_append_left _ hx
        exact ⟨h.visited x hmem, fun hlower => hdisjoint hx hlower⟩
  have hcomponent := h.isComponent hpos hlow
  constructor
  case stack => rfl
  case onStack =>
    intro x
    change (t.onStack x && decide (x ∉ above ++ [v])) = true ↔ x ∈ segments.flatMap Segment.members
    rw [Bool.and_eq_true, h.onStack, decide_eq_true_eq, hstack, List.mem_append]
    constructor
    · rintro ⟨hmem, hnot⟩
      exact hmem.resolve_left hnot
    · intro hmem
      exact ⟨.inr hmem, fun hx => hdisjoint hx hmem⟩
  case visited =>
    intro x hx
    exact h.visited x (hstack ▸ List.mem_append_right _ hx)
  case bounded => exact h.bounded
  case indices_lt => exact h.indices_lt
  case sorted =>
    have hsorted := h.sorted
    rw [hstack] at hsorted
    exact (List.pairwise_append.mp hsorted).2.1
  case ok =>
    intro segment hsegment
    have hvertex := h.vertex_mem_stack (List.mem_cons_of_mem _ hsegment)
    refine (h.ok segment (List.mem_cons_of_mem _ hsegment)).of_agree (h.visited _ hvertex)
      (fun _ _ => rfl) rfl ?_ ?_ h.visited
    · exact fun x _ hx => hstack ▸ List.mem_append_right _ hx
    · -- What a caller reached by then lies below its own vertex, so below the segment on top.
      intro u hu hle
      rw [hstack] at hu
      refine (List.mem_append.mp hu).resolve_left fun htop => ?_
      have hlower : segment.vertex ∈ segments.flatMap Segment.members :=
        List.mem_flatMap.mpr ⟨segment, hsegment, segment.vertex_mem⟩
      have hlt := h.num_lt.2 u htop _ hlower
      omega
  case chain => exact (List.pairwise_cons.mp h.chain).2
  case closed =>
    intro x y hx hedge
    refine (hsettled y).mpr ?_
    obtain hx | hx := (hsettled x).mp hx
    · exact .inl (h.closed x y hx hedge)
    · obtain ⟨hsome, hle⟩ := h.examined_top hpos hx hedge
      by_cases hmem : y ∈ t.stack
      · have hlink := (hcomponent.mem_iff hx).mp hx
        have hlt := hle hmem
        rw [hstack] at hmem
        refine .inr ((List.mem_append.mp hmem).resolve_right fun hlower => ?_)
        have := h.num_lt.2 v (List.mem_append_right _ (List.mem_singleton_self v)) y hlower
        omega
      · exact .inl ⟨hsome, hmem⟩
  case settled =>
    intro x
    refine (hsettled x).trans ?_
    rw [h.settled]
    simp only [List.mem_append, List.mem_singleton, or_and_right, exists_or, exists_eq_left]
  case component =>
    intro component hmem
    obtain hmem | hmem := List.mem_append.mp hmem
    · exact h.component component hmem
    · rw [List.mem_singleton.mp hmem]
      exact ⟨(List.nodup_append.mp (hstack ▸ h.nodup)).1, hcomponent⟩
  case disjoint =>
    refine List.pairwise_append.mpr ⟨h.disjoint, List.pairwise_singleton _ _, ?_⟩
    intro component hmem other hother x hx hx'
    rw [List.mem_singleton.mp hother] at hx'
    have hsettled := (h.settled x).mpr ⟨component, hmem, hx⟩
    exact hsettled.2 (hstack ▸ List.mem_append_left _ hx')
  case result =>
    have hresult := h.result
    by_cases hlong : 1 < (above ++ [v]).length
    · simp only [if_pos hlong, hresult, List.filter_append, List.filter_singleton,
        decide_eq_true hlong, List.map_append, cond_true, List.map_cons, List.map_nil]
    · simp only [if_neg hlong, hresult, List.filter_append, List.filter_singleton,
        decide_eq_false hlong, cond_false, List.append_nil]

end Close

section Merge

theorem Invariant.lower_vertex
    (h : t.Invariant nodes adj (⟨v, pos, above⟩ :: segments) components)
    (hlow : t.lowlinks v ≠ t.num v) :
    ∃ u ∈ segments.flatMap Segment.members, t.num u = t.lowlinks v ∧
      ReflTransGen (Adjacent adj) v u := by
  have hok := h.ok _ List.mem_cons_self
  have hle := hok.low_le
  obtain ⟨u, hu, hnum, hreach⟩ := hok.low_reached
  rw [h.stack, List.flatMap_cons] at hu
  refine ⟨u, (List.mem_append.mp hu).resolve_left fun hu => ?_, hnum, hreach⟩
  have := h.num_le hu
  simp only at hle hnum
  omega

theorem Invariant.linked_caller {caller : Segment} {callers : List Segment}
    (h : t.Invariant nodes adj (⟨v, pos, above⟩ :: caller :: callers) components)
    (hlow : t.lowlinks v ≠ t.num v) : Linked (Adjacent adj) caller.vertex v := by
  obtain ⟨hreach, hchain⟩ := List.pairwise_cons.mp h.chain
  refine ⟨hreach caller List.mem_cons_self, ?_⟩
  obtain ⟨u, hu, -, hvu⟩ := h.lower_vertex hlow
  obtain ⟨segment, hsegment, hmem⟩ := List.mem_flatMap.mp hu
  have hlinked := (h.ok segment (List.mem_cons_of_mem _ hsegment)).linked u hmem
  refine (hvu.trans hlinked.2).trans ?_
  obtain rfl | hsegment := List.mem_cons.mp hsegment
  · exact .refl
  · exact (List.pairwise_cons.mp hchain).1 segment hsegment

-- A finished segment that reaches a lower index goes to its caller.
theorem Invariant.merge {caller : Segment} {callers : List Segment}
    (h : t.Invariant nodes adj (⟨v, pos, above⟩ :: caller :: callers) components)
    (hpos : (adj v).length ≤ pos) (hlow : t.lowlinks v ≠ t.num v) :
    (t.lower caller.vertex (t.lowlinks v)).Invariant nodes adj
      (⟨caller.vertex, caller.pos, above ++ [v] ++ caller.above⟩ :: callers) components := by
  have hlinked := h.linked_caller hlow
  have htop := h.ok _ List.mem_cons_self
  have hcaller := h.ok caller (List.mem_cons_of_mem _ List.mem_cons_self)
  have hchain := (List.pairwise_cons.mp h.chain).2
  have hself : (t.lower caller.vertex (t.lowlinks v)).lowlinks caller.vertex =
      min (t.lowlinks caller.vertex) (t.lowlinks v) := Function.update_self ..
  have hstack : t.stack = (above ++ [v]) ++ (caller.members ++ callers.flatMap Segment.members) :=
    h.stack
  have hnodup := h.nodup
  rw [hstack] at hnodup
  have hdisjoint := List.disjoint_of_nodup_append hnodup
  constructor
  case stack =>
    change t.stack = _
    rw [hstack, List.flatMap_cons]
    simp only [Segment.members, List.append_assoc]
  case onStack => exact h.onStack
  case visited => exact h.visited
  case bounded => exact h.bounded
  case indices_lt => exact h.indices_lt
  case sorted => exact h.sorted
  case ok =>
    intro segment hsegment
    obtain rfl | hsegment := List.mem_cons.mp hsegment
    · refine ⟨?_, ?_, ?_, ?_⟩
      · intro x hx
        rw [Segment.members, List.append_assoc] at hx
        obtain hx | hx := List.mem_append.mp hx
        · exact hlinked.trans (htop.linked x hx)
        · exact hcaller.linked x hx
      · intro x hx y hy
        rw [hself]
        rw [Segment.members, List.append_assoc] at hx
        obtain hx | hx := List.mem_append.mp hx
        · have hne : x ≠ caller.vertex := by
            rintro rfl
            exact hdisjoint hx (List.mem_append_left _ caller.vertex_mem)
          rw [Segment.examined, if_neg hne] at hy
          obtain ⟨hsome, hle⟩ := h.examined_top hpos hx hy
          exact ⟨hsome, fun hy => (min_le_right _ _).trans (hle hy)⟩
        · obtain ⟨hsome, hle⟩ := hcaller.examined x hx y hy
          exact ⟨hsome, fun hy => (min_le_left _ _).trans (hle hy)⟩
      · rw [hself]
        exact (min_le_left _ _).trans hcaller.low_le
      · rw [hself]
        obtain hle | hle := le_total (t.lowlinks caller.vertex) (t.lowlinks v)
        · rw [min_eq_left hle]
          exact hcaller.low_reached
        · rw [min_eq_right hle]
          obtain ⟨u, hu, hnum, hreach⟩ := htop.low_reached
          exact ⟨u, hu, hnum, hlinked.1.trans hreach⟩
    · have hmem : segment ∈ Segment.mk v pos above :: caller :: callers :=
        List.mem_cons_of_mem _ (List.mem_cons_of_mem _ hsegment)
      have hne : segment.vertex ≠ caller.vertex := by
        intro he
        have hlower := (List.nodup_append.mp hnodup).2.1
        have hapart := List.disjoint_of_nodup_append hlower
        refine hapart caller.vertex_mem (List.mem_flatMap.mpr ⟨segment, hsegment, ?_⟩)
        rw [← he]
        exact segment.vertex_mem
      have hlow' : (t.lower caller.vertex (t.lowlinks v)).lowlinks segment.vertex =
          t.lowlinks segment.vertex := Function.update_of_ne hne ..
      exact (h.ok segment hmem).of_agree (h.visited _ (h.vertex_mem_stack hmem)) (fun _ _ => rfl)
        hlow' (fun _ _ hw => hw) (fun _ hu _ => hu) h.visited
  case chain => exact List.pairwise_cons.mpr (List.pairwise_cons.mp hchain)
  case closed => exact h.closed
  case settled => exact h.settled
  case component => exact h.component
  case disjoint => exact h.disjoint
  case result => exact h.result

end Merge

-- The caller of a component keeps its low link, which lies below it already.
theorem lower_eq_self {parent low : Nat} (h : t.lowlinks parent ≤ low) :
    t.lower parent low = t := by
  rw [Tarjan.lower, min_eq_left h, Function.update_eq_self]

theorem Invariant.finish (h : t.Invariant nodes adj (⟨v, pos, above⟩ :: segments) components)
    (hpos : (adj v).length ≤ pos) :
    ∃ next others found, t.finish nodes v (segments.map Segment.frame) = some next ∧
      next.indices = t.indices ∧ next.callStack = others.map Segment.frame ∧
      others.length = segments.length ∧ next.Invariant nodes adj others found := by
  obtain ⟨index, hindex⟩ := Option.isSome_iff_exists.mp
    (h.visited v (h.vertex_mem_stack List.mem_cons_self))
  have hnum : t.num v = index := by rw [num, hindex, Option.getD_some]
  unfold Tarjan.finish
  simp only [hindex, Option.bind_eq_bind, Option.bind_some]
  by_cases hlow : t.lowlinks v = index
  · obtain ⟨next, hclose, hindices, hlowlinks, hnext⟩ := h.close hpos (hlow.trans hnum.symm)
    rw [if_pos hlow, hclose, Option.bind_some]
    cases segments with
    | nil => exact ⟨_, [], _, rfl, hindices, rfl, rfl, hnext.withCallStack _⟩
    | cons caller callers =>
        have hle : next.lowlinks caller.vertex ≤ next.lowlinks v := by
          have hcaller := (h.ok caller (List.mem_cons_of_mem _ List.mem_cons_self)).low_le
          have hlt := h.num_lt.2 v (List.mem_append_right _ (List.mem_singleton_self v))
            caller.vertex (List.mem_flatMap.mpr ⟨caller, List.mem_cons_self, caller.vertex_mem⟩)
          rw [hlowlinks]
          omega
        simp only [List.map_cons, Segment.frame, lower_eq_self hle]
        exact ⟨_, caller :: callers, _, rfl, hindices, rfl, rfl, hnext.withCallStack _⟩
  · rw [if_neg hlow]
    have hne : t.lowlinks v ≠ t.num v := by omega
    cases segments with
    | nil =>
        obtain ⟨u, hu, -, -⟩ := h.lower_vertex hne
        exact absurd hu List.not_mem_nil
    | cons caller callers =>
        simp only [List.map_cons, Segment.frame]
        exact ⟨_, ⟨caller.vertex, caller.pos, above ++ [v] ++ caller.above⟩ :: callers, _, rfl, rfl,
          rfl, rfl, (h.merge hpos hne).withCallStack _⟩

end Tarjan

end M1nd.Core
