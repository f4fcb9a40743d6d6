import Mathlib.Combinatorics.SimpleGraph.Connectivity.Connected
import Mathlib.Data.List.Basic
import Mathlib.Data.List.Nodup
import Mathlib.Data.List.Perm.Subperm
import Mathlib.Logic.Relation
import Mathlib.Order.Antisymmetrization
import Mathlib.SetTheory.Cardinal.Finite

namespace M1nd.Library.Components

open Relation

variable {α β : Type} {edge : α → α → Prop}

-- Each of two nodes reaches the other.
def Linked (edge : α → α → Prop) (a b : α) : Prop :=
  AntisymmRel (ReflTransGen edge) a b

theorem Linked.refl (a : α) : Linked edge a a :=
  ⟨.refl, .refl⟩

theorem Linked.symm {a b : α} (h : Linked edge a b) : Linked edge b a :=
  AntisymmRel.symm h

theorem Linked.trans {a b c : α} (hab : Linked edge a b) (hbc : Linked edge b c) :
    Linked edge a c :=
  ⟨hab.1.trans hbc.1, hbc.2.trans hab.2⟩

-- A strongly connected component: all the nodes linked to one of them.
def IsComponent (edge : α → α → Prop) (members : List α) : Prop :=
  ∃ root ∈ members, ∀ node, node ∈ members ↔ Linked edge root node

theorem IsComponent.mem_iff {members : List α} (h : IsComponent edge members) {a b : α}
    (ha : a ∈ members) : b ∈ members ↔ Linked edge a b := by
  obtain ⟨root, -, hmem⟩ := h
  have hroot := (hmem a).mp ha
  rw [hmem]
  exact ⟨fun hb => hroot.symm.trans hb, fun hb => hroot.trans hb⟩

theorem reach_closed (inside : α → Prop) (hclosed : ∀ a b, inside a → edge a b → inside b) {a b : α}
    (h : ReflTransGen edge a b) (ha : inside a) : inside b := by
  induction h with
  | refl => exact ha
  | tail _ hedge ih => exact hclosed _ _ ih hedge

-- Linked nodes that no edge leaves except to settled ones make a component.
theorem isComponent_of_closed {members : List α} (settled : α → Prop) {root : α}
    (hroot : root ∈ members) (hlinked : ∀ x ∈ members, Linked edge root x)
    (hunsettled : ¬ settled root) (hsettled : ∀ x y, settled x → edge x y → settled y)
    (hclosed : ∀ x ∈ members, ∀ y, edge x y → y ∈ members ∨ settled y) :
    IsComponent edge members := by
  refine ⟨root, hroot, fun node => ⟨hlinked node, fun hnode => ?_⟩⟩
  have hinside : node ∈ members ∨ settled node := by
    apply reach_closed (fun x => x ∈ members ∨ settled x) ?_ hnode.1 (.inl hroot)
    intro x y hx hedge
    obtain hx | hx := hx
    · exact hclosed x hx y hedge
    · exact .inr (hsettled x y hx hedge)
  obtain hnode' | hnode' := hinside
  · exact hnode'
  · exact absurd (reach_closed settled hsettled hnode.2 hnode') hunsettled

-- All the components with more than one node, each of them once.
structure ListsComponents (edge : α → α → Prop) (sccs : List (List α)) : Prop where
  component : ∀ scc ∈ sccs, scc.Nodup ∧ 1 < scc.length ∧ IsComponent edge scc
  complete : ∀ a b, a ≠ b → Linked edge a b → ∃ scc ∈ sccs, a ∈ scc ∧ b ∈ scc
  disjoint : sccs.Pairwise List.Disjoint

-- A node of a component with another node has an edge.
theorem ListsComponents.exists_edge {sccs : List (List α)} (h : ListsComponents edge sccs)
    {scc : List α} (hscc : scc ∈ sccs) {a : α} (ha : a ∈ scc) : ∃ b, edge a b := by
  obtain ⟨hnodup, hlong, hcomponent⟩ := h.component scc hscc
  obtain ⟨b, hb, hne⟩ : ∃ b ∈ scc, b ≠ a := by
    by_contra hall
    push Not at hall
    have hsub : scc ⊆ [a] := fun b hb => List.mem_singleton.mpr (hall b hb)
    have hle := (List.subperm_of_subset hnodup hsub).length_le
    exact absurd hlong (Nat.not_lt.mpr hle)
  have hlinked := (hcomponent.mem_iff ha).mp hb
  obtain rfl | ⟨c, hedge, -⟩ := hlinked.1.cases_head
  · exact absurd rfl hne
  · exact ⟨c, hedge⟩

section Places

variable {near : β → β → Prop} {label : β → Option α} {place : α → Option β} {f : β → α}
  {components : List (List β)} {component : List β} {a b : α} {v w : β}

-- A graph over places. Several places can have one label, and the edges to a label go to one
-- of them.
structure Presents (near : β → β → Prop) (edge : α → α → Prop) (label : β → Option α)
    (place : α → Option β) : Prop where
  labels : ∀ a v, place a = some v → label v = some a
  lower : ∀ v w, near v w → ∃ a b, label v = some a ∧ edge a b ∧ place b = some w
  lift : ∀ v a b, label v = some a → edge a b → ∃ w, near v w ∧ place b = some w
  placed : ∀ a b, edge a b → ∃ v, place a = some v

theorem Presents.reach_label (h : Presents near edge label place) (hreach : ReflTransGen near v w)
    (hv : label v = some a) (hw : label w = some b) : ReflTransGen edge a b := by
  induction hreach generalizing b with
  | refl =>
      obtain rfl := Option.some.inj (hv.symm.trans hw)
      exact .refl
  | tail _ hnear ih =>
      obtain ⟨c, d, hc, hedge, hd⟩ := h.lower _ _ hnear
      obtain rfl := Option.some.inj ((h.labels d _ hd).symm.trans hw)
      exact (ih hc).tail hedge

theorem Presents.reach_place (h : Presents near edge label place) (hreach : ReflTransGen edge a b)
    (hv : place a = some v) : ∃ w, place b = some w ∧ ReflTransGen near v w := by
  induction hreach with
  | refl => exact ⟨v, hv, .refl⟩
  | tail _ hedge ih =>
      obtain ⟨x, hx, hreach⟩ := ih
      obtain ⟨w, hnear, hw⟩ := h.lift x _ _ (h.labels _ x hx) hedge
      exact ⟨w, hw, hreach.tail hnear⟩

theorem Presents.linked (h : Presents near edge label place) (hlinked : Linked edge a b)
    (hv : place a = some v) : ∃ w, place b = some w ∧ Linked near v w := by
  obtain ⟨w, hw, hvw⟩ := h.reach_place hlinked.1 hv
  obtain ⟨x, hx, hwx⟩ := h.reach_place hlinked.2 hw
  obtain rfl := Option.some.inj (hx.symm.trans hv)
  exact ⟨w, hw, hvw, hwx⟩

-- A node of a component with more than one node has an edge to it.
theorem Presents.place_of_mem (h : Presents near edge label place)
    (hf : ∀ v a, label v = some a → f v = a) (hnodup : component.Nodup)
    (hlong : 1 < component.length) (hcomponent : IsComponent near component)
    (hv : v ∈ component) : place (f v) = some v := by
  obtain ⟨w, hw, hne⟩ : ∃ w ∈ component, w ≠ v := by
    by_contra hall
    have hsub : component ⊆ [v] := fun w hw => by
      by_contra hne
      exact hall ⟨w, hw, fun he => hne (List.mem_singleton.mpr he)⟩
    have hle := (hnodup.subperm hsub).length_le
    rw [List.length_singleton] at hle
    omega
  have hlinked := (hcomponent.mem_iff hw).mp hv
  obtain heq | ⟨x, -, hnear⟩ := ReflTransGen.cases_tail hlinked.1
  · exact absurd heq.symm hne
  · obtain ⟨a, b, -, -, hb⟩ := h.lower x v hnear
    rwa [hf v b (h.labels b v hb)]

theorem Presents.isComponent_map (h : Presents near edge label place)
    (hf : ∀ v a, label v = some a → f v = a) (hcomponent : IsComponent near component)
    (hplace : ∀ v ∈ component, place (f v) = some v) :
    IsComponent edge (component.map f) := by
  obtain ⟨root, hroot, hmem⟩ := hcomponent
  refine ⟨f root, List.mem_map_of_mem hroot, fun node => ⟨fun hnode => ?_, fun hnode => ?_⟩⟩
  · obtain ⟨v, hv, rfl⟩ := List.mem_map.mp hnode
    have hlinked := (hmem v).mp hv
    have hlabel := h.labels _ _ (hplace v hv)
    have hlabel' := h.labels _ _ (hplace root hroot)
    exact ⟨h.reach_label hlinked.1 hlabel' hlabel, h.reach_label hlinked.2 hlabel hlabel'⟩
  · obtain ⟨w, hw, hlinked⟩ := h.linked hnode (hplace root hroot)
    have hnear := (hmem w).mpr hlinked
    rw [← hf w node (h.labels node w hw)]
    exact List.mem_map_of_mem hnear

theorem Presents.listsComponents (h : Presents near edge label place)
    (hf : ∀ v a, label v = some a → f v = a)
    (hcomponents : ∀ component ∈ components, component.Nodup ∧ IsComponent near component)
    (hdisjoint : components.Pairwise List.Disjoint)
    (hcover : ∀ a v, place a = some v → ∃ component ∈ components, v ∈ component) :
    ListsComponents edge
      ((components.filter fun component => 1 < component.length).map (List.map f)) := by
  have hplace : ∀ component ∈ components.filter fun component => 1 < component.length,
      ∀ v ∈ component, place (f v) = some v := by
    intro component hmem v hv
    obtain ⟨hmem, hlong⟩ := List.mem_filter.mp hmem
    obtain ⟨hnodup, hcomponent⟩ := hcomponents component hmem
    exact h.place_of_mem hf hnodup (of_decide_eq_true hlong) hcomponent hv
  constructor
  case component =>
    intro scc hscc
    obtain ⟨component, hmem, rfl⟩ := List.mem_map.mp hscc
    have hinside := hplace component hmem
    obtain ⟨hmem, hlong⟩ := List.mem_filter.mp hmem
    obtain ⟨hnodup, hcomponent⟩ := hcomponents component hmem
    refine ⟨hnodup.map_on fun v hv w hw he => ?_, ?_, h.isComponent_map hf hcomponent hinside⟩
    · have hv' := hinside v hv
      rw [he, hinside w hw] at hv'
      exact (Option.some.inj hv').symm
    · rw [List.length_map]
      exact of_decide_eq_true hlong
  case complete =>
    intro a b hne hlinked
    obtain ⟨v, hv⟩ : ∃ v, place a = some v := by
      obtain heq | ⟨x, hedge, -⟩ := ReflTransGen.cases_head hlinked.1
      · exact absurd heq hne
      · exact h.placed a x hedge
    obtain ⟨w, hw, hnear⟩ := h.linked hlinked hv
    obtain ⟨component, hmem, hinside⟩ := hcover a v hv
    have hinside' := ((hcomponents component hmem).2.mem_iff hinside).mpr hnear
    have hva := hf v a (h.labels a v hv)
    have hwb := hf w b (h.labels b w hw)
    have hlong : 1 < component.length := by
      have hdiffer : v ≠ w := fun he => hne (hva.symm.trans ((congrArg f he).trans hwb))
      have hpair : [v, w].Nodup := by simpa using hdiffer
      have hsub : [v, w] ⊆ component := by simp [hinside, hinside']
      exact (hpair.subperm hsub).length_le
    refine ⟨component.map f, List.mem_map_of_mem (List.mem_filter.mpr ⟨hmem, decide_eq_true hlong⟩),
      ?_, ?_⟩
    · exact hva ▸ List.mem_map_of_mem hinside
    · exact hwb ▸ List.mem_map_of_mem hinside'
  case disjoint =>
    rw [List.pairwise_map]
    refine (hdisjoint.filter _).imp_of_mem fun {first second} hfirst hsecond hapart => ?_
    intro x hx hx'
    obtain ⟨v, hv, rfl⟩ := List.mem_map.mp hx
    obtain ⟨w, hw, he⟩ := List.mem_map.mp hx'
    have hv' := hplace first hfirst v hv
    rw [← he, hplace second hsecond w hw] at hv'
    obtain rfl := Option.some.inj hv'
    exact hapart hv hw

end Places

end M1nd.Library.Components

namespace M1nd.Library.WeakComponents

open Relation

variable {α : Type} {edge : α → α → Prop} {a b : α}

-- The graph without the directions of its edges. Its components are the weak ones.
def undirected (edge : α → α → Prop) : SimpleGraph α :=
  SimpleGraph.fromRel edge

theorem reachable_of_reflTransGen (h : ReflTransGen edge a b) : (undirected edge).Reachable a b := by
  induction h with
  | refl => exact .refl a
  | @tail c d _ hedge ih =>
      by_cases hsame : c = d
      · exact hsame ▸ ih
      · have hadj : (undirected edge).Adj c d := (SimpleGraph.fromRel_adj edge c d).mpr
          ⟨hsame, .inl hedge⟩
        exact ih.trans hadj.reachable

variable [LinearOrder α]

-- A search that starts anew at each node that was not visited starts at the roots, when it takes
-- the nodes in order and follows the edges forward.
def IsRoot (edge : α → α → Prop) (a : α) : Prop :=
  ∀ b < a, ¬ ReflTransGen edge b a

def IsLowest (edge : α → α → Prop) (a : α) : Prop :=
  ∀ b, (undirected edge).Reachable a b → a ≤ b

theorem IsLowest.isRoot (h : IsLowest edge a) : IsRoot edge a :=
  fun b hlt hreach => absurd (h b (reachable_of_reflTransGen hreach).symm) (not_le.mpr hlt)

section Finite

variable [Finite α]

theorem exists_isLowest (edge : α → α → Prop) (a : α) :
    ∃ lowest, (undirected edge).Reachable a lowest ∧ IsLowest edge lowest := by
  obtain ⟨lowest, hreach, hmin⟩ :=
    wellFounded_lt.has_min {b | (undirected edge).Reachable a b} ⟨a, .refl a⟩
  refine ⟨lowest, hreach, fun b hb => not_lt.mp fun hlt => hmin b ?_ hlt⟩
  exact SimpleGraph.Reachable.trans hreach hb

def componentOf (edge : α → α → Prop) (root : {a // IsRoot edge a}) :
    (undirected edge).ConnectedComponent :=
  (undirected edge).connectedComponentMk root

theorem componentOf_surjective (edge : α → α → Prop) : Function.Surjective (componentOf edge) := by
  intro component
  induction component using SimpleGraph.ConnectedComponent.ind with
  | h a =>
      obtain ⟨lowest, hreach, hlowest⟩ := exists_isLowest edge a
      exact ⟨⟨lowest, hlowest.isRoot⟩, SimpleGraph.ConnectedComponent.sound hreach.symm⟩

-- Where the lowest node of a component does not reach all of it, the component has another root.
theorem componentOf_injective_iff : Function.Injective (componentOf edge) ↔
    ∀ a b, IsLowest edge a → (undirected edge).Reachable a b → ReflTransGen edge a b := by
  constructor
  · intro hinjective a b hlowest hreach
    induction b using WellFoundedLT.induction with
    | ind b ih =>
        by_cases hroot : IsRoot edge b
        · have hsame : componentOf edge ⟨a, hlowest.isRoot⟩ = componentOf edge ⟨b, hroot⟩ :=
            SimpleGraph.ConnectedComponent.sound hreach
          obtain rfl := congrArg Subtype.val (hinjective hsame)
          exact .refl
        · unfold IsRoot at hroot
          push Not at hroot
          obtain ⟨c, hlt, hstep⟩ := hroot
          have hback := (reachable_of_reflTransGen hstep).symm
          exact (ih c hlt (hreach.trans hback)).trans hstep
  · rintro hall ⟨a, ha⟩ ⟨b, hb⟩ hsame
    have hreach : (undirected edge).Reachable a b := SimpleGraph.ConnectedComponent.exact hsame
    obtain ⟨lowest, hlowest, hleast⟩ := exists_isLowest edge a
    have honly : ∀ c, IsRoot edge c → (undirected edge).Reachable lowest c → c = lowest := by
      intro c hc hto
      by_contra hne
      exact hc lowest (lt_of_le_of_ne (hleast c hto) (Ne.symm hne)) (hall lowest c hleast hto)
    have hleft := honly a ha hlowest.symm
    have hright := honly b hb (hlowest.symm.trans hreach)
    exact Subtype.ext (hleft.trans hright.symm)

-- The roots are as many as the weak components just when the lowest node of each component
-- reaches all of it.
theorem card_roots_eq_iff :
    Nat.card {a // IsRoot edge a} = Nat.card (undirected edge).ConnectedComponent ↔
      ∀ a b, IsLowest edge a → (undirected edge).Reachable a b → ReflTransGen edge a b := by
  rw [← componentOf_injective_iff]
  constructor
  · intro hcard
    exact ((componentOf_surjective edge).bijective_of_nat_card_le hcard.le).1
  · intro hinjective
    exact Nat.card_eq_of_bijective _ ⟨hinjective, componentOf_surjective edge⟩

end Finite

end M1nd.Library.WeakComponents
