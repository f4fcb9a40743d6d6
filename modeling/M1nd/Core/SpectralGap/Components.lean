import M1nd.Core.Graph.Refinalize
import M1nd.Core.SpectralGap
import M1nd.Library.Components
import Mathlib.Data.Finset.Card

namespace M1nd.Core

open M1nd.Library.Components
open M1nd.Library.Loops
open M1nd.Library.WeakComponents
open Relation

variable {W T : Type} {graph : Graph W T} {search next : ComponentSearch}
  {component last : List (Option Nat)} {label start fuel : Nat}

-- An edge from one node to another.
def Graph.Edge (graph : Graph W T) (source target : Nat) : Prop :=
  ∃ j ∈ graph.csr.outRange source, graph.csr.targets[j]? = some target

-- Every slot of a node ends at a node.
def Graph.Closed (graph : Graph W T) : Prop :=
  ∀ node, ∀ j ∈ graph.csr.outRange node, ∃ target < graph.nodes.count,
    graph.csr.targets[j]? = some target

def Marked (component : List (Option Nat)) (node : Nat) : Prop :=
  ∃ label, component[node]? = some (some label)

theorem marked_set {node : Nat} (hnew : component[node]? = some none) (label other : Nat) :
    Marked (component.set node (some label)) other ↔ Marked component other ∨ other = node := by
  have hlt := (List.getElem?_eq_some_iff.mp hnew).1
  unfold Marked
  by_cases hother : other = node
  · subst hother
    simp [List.getElem?_set_self hlt]
  · rw [List.getElem?_set_ne (Ne.symm hother)]
    simp [hother]

-- The nodes in the queue and those that are not marked.
def ComponentSearch.owed (search : ComponentSearch) : Nat :=
  search.queue.length + search.component.count none

theorem owed_set {node : Nat} (hnew : component[node]? = some none) (label : Nat)
    (queue : List Nat) :
    (ComponentSearch.mk (component.set node (some label)) (queue ++ [node])).owed =
      (ComponentSearch.mk component queue).owed := by
  have hlt := (List.getElem?_eq_some_iff.mp hnew).1
  have hnone : component[node] = none := (List.getElem?_eq_some_iff.mp hnew).2
  have hpos : 0 < component.count none := List.count_pos_iff.mpr (List.mem_of_getElem? hnew)
  simp only [ComponentSearch.owed, List.length_append, List.length_singleton]
  rw [List.count_set hlt, hnone]
  simp
  omega

-- What some slots do to a search: their ends are marked, and queued where they were not marked.
structure ComponentSearch.Grows (graph : Graph W T) (slots : List Nat)
    (search next : ComponentSearch) (fresh : List Nat) : Prop where
  queue : next.queue = search.queue ++ fresh
  length : next.component.length = search.component.length
  owed : next.owed = search.owed
  marked : ∀ v, Marked next.component v ↔ Marked search.component v ∨ v ∈ fresh
  ends : ∀ v ∈ fresh, ∃ j ∈ slots, graph.csr.targets[j]? = some v
  covered : ∀ j ∈ slots, ∀ v, graph.csr.targets[j]? = some v → Marked next.component v

theorem ComponentSearch.Grows.trans {slots slots' fresh fresh' : List Nat} {after : ComponentSearch}
    (h : search.Grows graph slots next fresh) (h' : next.Grows graph slots' after fresh') :
    search.Grows graph (slots ++ slots') after (fresh ++ fresh') where
  queue := by rw [h'.queue, h.queue, List.append_assoc]
  length := h'.length.trans h.length
  owed := h'.owed.trans h.owed
  marked v := by rw [h'.marked, h.marked, List.mem_append, or_assoc]
  ends v hv := by
    obtain hv | hv := List.mem_append.mp hv
    · obtain ⟨j, hj, hend⟩ := h.ends v hv
      exact ⟨j, List.mem_append_left _ hj, hend⟩
    · obtain ⟨j, hj, hend⟩ := h'.ends v hv
      exact ⟨j, List.mem_append_right _ hj, hend⟩
  covered j hj v hend := by
    obtain hj | hj := List.mem_append.mp hj
    · exact (h'.marked v).mpr (.inl (h.covered j hj v hend))
    · exact h'.covered j hj v hend

theorem exists_visitTarget (label : Nat) {j target : Nat} (hlt : target < search.component.length)
    (hj : graph.csr.targets[j]? = some target) : ∃ next fresh,
      visitTarget graph label search j = some next ∧ search.Grows graph [j] next fresh := by
  rw [visitTarget, hj, Option.bind_eq_bind, Option.bind_some]
  have honly : ∀ i ∈ [j], ∀ v, graph.csr.targets[i]? = some v → v = target := by
    intro i hi v hend
    obtain rfl := List.mem_singleton.mp hi
    exact Option.some.inj (hend.symm.trans hj)
  by_cases hnew : search.component[target]? = some none
  · rw [if_pos hnew]
    refine ⟨_, [target], rfl, rfl, List.length_set, owed_set hnew label search.queue, fun v => ?_,
      fun v hv => ?_, fun i hi v hend => ?_⟩
    · rw [marked_set hnew, List.mem_singleton]
    · obtain rfl := List.mem_singleton.mp hv
      exact ⟨j, List.mem_cons_self, hj⟩
    · exact (marked_set hnew label v).mpr (.inr (honly i hi v hend))
  · rw [if_neg hnew]
    refine ⟨search, [], rfl, (List.append_nil _).symm, rfl, rfl, fun v => ?_, nofun,
      fun i hi v hend => ?_⟩
    · exact ⟨.inl, fun hv => hv.resolve_right List.not_mem_nil⟩
    · obtain rfl := honly i hi v hend
      cases hget : search.component[v]? with
      | none => exact absurd (List.getElem?_eq_none_iff.mp hget) (Nat.not_le.mpr hlt)
      | some mark =>
          cases mark with
          | none => exact absurd hget hnew
          | some label => exact ⟨label, hget⟩

theorem exists_visitTargets (label : Nat) {slots : List Nat}
    (hslots : ∀ j ∈ slots, ∃ target < search.component.length,
      graph.csr.targets[j]? = some target) : ∃ next fresh,
      slots.foldlM (visitTarget graph label) search = some next ∧
        search.Grows graph slots next fresh := by
  induction slots generalizing search with
  | nil =>
      refine ⟨search, [], rfl, (List.append_nil _).symm, rfl, rfl, fun v => ?_, nofun, nofun⟩
      exact ⟨.inl, fun hv => hv.resolve_right List.not_mem_nil⟩
  | cons j slots ih =>
      obtain ⟨target, hlt, hj⟩ := hslots j List.mem_cons_self
      obtain ⟨next, fresh, hnext, hgrows⟩ := exists_visitTarget label hlt hj
      obtain ⟨last, fresh', hlast, hgrows'⟩ := ih fun i hi => by
        rw [hgrows.length]
        exact hslots i (List.mem_cons_of_mem _ hi)
      refine ⟨last, fresh ++ fresh', ?_, hgrows.trans hgrows'⟩
      rw [List.foldlM_cons, hnext]
      exact hlast

section Spread

-- A search from a node, with the marks there were before it. What is marked since is reached
-- from the node, and only the nodes in the queue have edges to nodes that are not marked.
structure ComponentSearch.Spreads (graph : Graph W T) (before : Nat → Prop) (start : Nat)
    (search : ComponentSearch) : Prop where
  length : search.component.length = graph.nodes.count
  kept : ∀ v, before v → Marked search.component v
  origin : Marked search.component start
  reached : ∀ v, Marked search.component v → before v ∨ ReflTransGen graph.Edge start v
  queued : ∀ v ∈ search.queue, ReflTransGen graph.Edge start v
  closed : ∀ u v, Marked search.component u → graph.Edge u v →
    Marked search.component v ∨ u ∈ search.queue

variable {before : Nat → Prop}

theorem ComponentSearch.Spreads.exists_pop (hclosed : graph.Closed)
    (h : search.Spreads graph before start) (label : Nat) {node : Nat} {queue : List Nat}
    (hqueue : search.queue = node :: queue) : ∃ next,
      (graph.csr.outRange node).foldlM (visitTarget graph label)
        { search with queue := queue } = some next ∧
      next.Spreads graph before start ∧ next.owed + 1 = search.owed := by
  have hslots : ∀ j ∈ graph.csr.outRange node,
      ∃ target < ({ search with queue := queue } : ComponentSearch).component.length,
        graph.csr.targets[j]? = some target := by
    intro j hj
    obtain ⟨target, hlt, htarget⟩ := hclosed node j hj
    exact ⟨target, h.length ▸ hlt, htarget⟩
  obtain ⟨next, fresh, hnext, hgrows⟩ := exists_visitTargets label hslots
  have hreach : ReflTransGen graph.Edge start node :=
    h.queued node (hqueue ▸ List.mem_cons_self)
  have hstep : ∀ v ∈ fresh, ReflTransGen graph.Edge start v :=
    fun v hv => hreach.tail (hgrows.ends v hv)
  refine ⟨next, hnext, ?_, ?_⟩
  · constructor
    case length => exact hgrows.length.trans h.length
    case kept => exact fun v hv => (hgrows.marked v).mpr (.inl (h.kept v hv))
    case origin => exact (hgrows.marked start).mpr (.inl h.origin)
    case reached =>
      intro v hv
      obtain hv | hv := (hgrows.marked v).mp hv
      · exact h.reached v hv
      · exact .inr (hstep v hv)
    case queued =>
      intro v hv
      rw [hgrows.queue] at hv
      obtain hv | hv := List.mem_append.mp hv
      · exact h.queued v (hqueue ▸ List.mem_cons_of_mem _ hv)
      · exact hstep v hv
    case closed =>
      intro u v hu hedge
      rw [hgrows.queue]
      obtain hu | hu := (hgrows.marked u).mp hu
      · obtain hv | hu := h.closed u v hu hedge
        · exact .inl ((hgrows.marked v).mpr (.inl hv))
        · rw [hqueue] at hu
          obtain rfl | hu := List.mem_cons.mp hu
          · obtain ⟨j, hj, hend⟩ := hedge
            exact .inl (hgrows.covered j hj v hend)
          · exact .inr (List.mem_append_left _ hu)
      · exact .inr (List.mem_append_right _ hu)
  · rw [hgrows.owed]
    simp only [ComponentSearch.owed, hqueue, List.length_cons]
    omega

-- A search that is done has marked what its node reaches.
theorem ComponentSearch.Spreads.marked_iff (h : search.Spreads graph before start)
    (hqueue : search.queue = []) (v : Nat) :
    Marked search.component v ↔ before v ∨ ReflTransGen graph.Edge start v := by
  refine ⟨h.reached v, fun hv => hv.elim (h.kept v) fun hreach => ?_⟩
  refine reach_closed (Marked search.component) (fun u w hu hedge => ?_) hreach h.origin
  refine (h.closed u w hu hedge).resolve_right ?_
  rw [hqueue]
  exact List.not_mem_nil

theorem ComponentSearch.Spreads.exists_spread (hclosed : graph.Closed)
    (h : search.Spreads graph before start) (label : Nat) (hfuel : search.owed ≤ fuel) :
    ∃ last, spread graph label fuel search = some last ∧ last.length = graph.nodes.count ∧
      ∀ v, Marked last v ↔ before v ∨ ReflTransGen graph.Edge start v := by
  induction fuel generalizing search with
  | zero =>
      have hempty : search.queue = [] := by
        rw [← List.length_eq_zero_iff]
        unfold ComponentSearch.owed at hfuel
        omega
      rw [spread, hempty]
      exact ⟨search.component, rfl, h.length, h.marked_iff hempty⟩
  | succ fuel ih =>
      unfold spread
      split
      case h_1 hempty => exact ⟨search.component, rfl, h.length, h.marked_iff hempty⟩
      case h_2 node queue hqueue =>
        obtain ⟨next, hnext, hspreads, howed⟩ := h.exists_pop hclosed label hqueue
        obtain ⟨last, hlast, hrest⟩ := ih hspreads (by omega)
        exact ⟨last, by rw [hnext]; exact hlast, hrest⟩

end Spread

section Count

-- No earlier node reaches the node.
def Graph.Root (graph : Graph W T) (node : Nat) : Prop :=
  ∀ earlier < node, ¬ ReflTransGen graph.Edge earlier node

open Classical in
-- The starts so far have marked what they reach, and the roots among them are counted.
structure Started (graph : Graph W T) (starts : Nat) (found : List (Option Nat) × Nat) : Prop where
  length : found.1.length = graph.nodes.count
  marked : ∀ v < graph.nodes.count,
    Marked found.1 v ↔ ∃ u < starts, ReflTransGen graph.Edge u v
  count : found.2 = ((Finset.range starts).filter graph.Root).card

variable {starts : Nat} {found : List (Option Nat) × Nat}

theorem Graph.Closed.edge_lt (h : graph.Closed) {u v : Nat} (hedge : graph.Edge u v) :
    v < graph.nodes.count := by
  obtain ⟨j, hj, hend⟩ := hedge
  obtain ⟨target, hlt, htarget⟩ := h u j hj
  obtain rfl := Option.some.inj (hend.symm.trans htarget)
  exact hlt

theorem started_zero (graph : Graph W T) :
    Started graph 0 (List.replicate graph.numNodes none, 0) where
  length := List.length_replicate
  marked v _ := by
    constructor
    · rintro ⟨label, hlabel⟩
      rw [List.getElem?_replicate] at hlabel
      split at hlabel <;> simp at hlabel
    · rintro ⟨u, hu, -⟩
      exact absurd hu (Nat.not_lt_zero _)
  count := rfl

theorem Started.start_iff (h : Started graph starts found) (hstart : starts < graph.nodes.count) :
    found.1[starts]? = some none ↔ graph.Root starts := by
  have hlt : starts < found.1.length := h.length.symm ▸ hstart
  have hnew : found.1[starts]? = some none ↔ ¬ Marked found.1 starts := by
    unfold Marked
    rw [List.getElem?_eq_getElem hlt]
    cases found.1[starts] <;> simp
  rw [hnew, h.marked starts hstart]
  unfold Graph.Root
  push Not
  exact Iff.rfl

-- A root starts a search, and any other node has been found before.
theorem Started.spreads (hclosed : graph.Closed) (h : Started graph starts found)
    (hnew : found.1[starts]? = some none) (label : Nat) :
    ComponentSearch.Spreads graph (Marked found.1) starts
      ⟨found.1.set starts (some label), [starts]⟩ where
  length := List.length_set.trans h.length
  kept v hv := (marked_set hnew label v).mpr (.inl hv)
  origin := (marked_set hnew label starts).mpr (.inr rfl)
  reached v hv := by
    obtain hv | rfl := (marked_set hnew label v).mp hv
    · exact .inl hv
    · exact .inr .refl
  queued v hv := by
    obtain rfl := List.mem_singleton.mp hv
    exact .refl
  closed u v hu hedge := by
    obtain hu | rfl := (marked_set hnew label u).mp hu
    · obtain ⟨mark, hmark⟩ := hu
      have hlt : u < graph.nodes.count := h.length ▸ (List.getElem?_eq_some_iff.mp hmark).1
      obtain ⟨w, hw, hreach⟩ := (h.marked u hlt).mp ⟨mark, hmark⟩
      have hv := (h.marked v (hclosed.edge_lt hedge)).mpr ⟨w, hw, hreach.tail hedge⟩
      exact .inl ((marked_set hnew label v).mpr (.inl hv))
    · exact .inr List.mem_cons_self

theorem Started.exists_next (hclosed : graph.Closed) (h : Started graph starts found)
    (hstart : starts < graph.nodes.count) : ∃ next,
      startComponent graph found starts = some next ∧ Started graph (starts + 1) next := by
  classical
  have hroot := h.start_iff hstart
  unfold startComponent
  by_cases hnew : found.1[starts]? = some none
  · rw [if_pos hnew]
    have howed : (ComponentSearch.mk (found.1.set starts (some found.2)) [starts]).owed ≤
        graph.numNodes := by
      rw [← List.nil_append [starts], owed_set hnew found.2 []]
      exact (Nat.zero_add _).le.trans (List.count_le_length.trans h.length.le)
    obtain ⟨last, hlast, hlength, hmarked⟩ :=
      (h.spreads hclosed hnew found.2).exists_spread hclosed found.2 howed
    refine ⟨_, by rw [hlast, Option.map_some], hlength, fun v hv => ?_, ?_⟩
    · rw [hmarked, h.marked v hv]
      constructor
      · rintro (⟨u, hu, hreach⟩ | hreach)
        · exact ⟨u, Nat.lt_succ_of_lt hu, hreach⟩
        · exact ⟨starts, Nat.lt_succ_self _, hreach⟩
      · rintro ⟨u, hu, hreach⟩
        obtain hu | rfl := Nat.lt_succ_iff_lt_or_eq.mp hu
        · exact .inl ⟨u, hu, hreach⟩
        · exact .inr hreach
    · rw [Finset.range_add_one, Finset.filter_insert, if_pos (hroot.mp hnew),
        Finset.card_insert_of_notMem (by simp), h.count]
  · rw [if_neg hnew]
    refine ⟨found, rfl, h.length, fun v hv => ?_, ?_⟩
    · rw [h.marked v hv]
      constructor
      · rintro ⟨u, hu, hreach⟩
        exact ⟨u, Nat.lt_succ_of_lt hu, hreach⟩
      · rintro ⟨u, hu, hreach⟩
        obtain hu | rfl := Nat.lt_succ_iff_lt_or_eq.mp hu
        · exact ⟨u, hu, hreach⟩
        · have hfound := (not_congr hroot).mp hnew
          unfold Graph.Root at hfound
          push Not at hfound
          obtain ⟨w, hw, hback⟩ := hfound
          exact ⟨w, hw, hback.trans hreach⟩
    · rw [Finset.range_add_one, Finset.filter_insert, if_neg (fun hyes => hnew (hroot.mpr hyes)),
        h.count]

-- The number of the roots is returned.
theorem Graph.Closed.exists_countComponents (hclosed : graph.Closed) :
    countComponents graph = some (Nat.card {v : Fin graph.numNodes // graph.Root v}) := by
  classical
  have hstarts : ∀ starts ≤ graph.nodes.count, ∃ found,
      (List.range starts).foldlM (startComponent graph) (List.replicate graph.numNodes none, 0) =
        some found ∧ Started graph starts found := by
    intro starts hle
    induction starts with
    | zero => exact ⟨_, rfl, started_zero graph⟩
    | succ starts ih =>
        obtain ⟨found, hfound, hstarted⟩ := ih (by omega)
        obtain ⟨next, hnext, hstarted'⟩ := hstarted.exists_next hclosed hle
        refine ⟨next, ?_, hstarted'⟩
        rw [List.range_succ, List.foldlM_append, hfound, Option.bind_eq_bind, Option.bind_some,
          List.foldlM_cons, hnext]
        rfl
  obtain ⟨found, hfound, hstarted⟩ := hstarts graph.numNodes (Nat.le_refl _)
  rw [countComponents, hfound, Option.map_some, hstarted.count]
  rw [Nat.card_eq_fintype_card, Fintype.card_subtype, ← Finset.card_map Fin.valEmbedding]
  refine congrArg (some ∘ Finset.card) (Finset.ext fun v => ?_)
  simp only [Finset.mem_filter, Finset.mem_range, Finset.mem_map, Finset.mem_univ, true_and,
    Fin.valEmbedding_apply]
  constructor
  · rintro ⟨hlt, hroot⟩
    exact ⟨⟨v, hlt⟩, hroot, rfl⟩
  · rintro ⟨u, hroot, rfl⟩
    exact ⟨u.isLt, hroot⟩

end Count

end M1nd.Core
