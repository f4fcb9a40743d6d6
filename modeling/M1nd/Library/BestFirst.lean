import Mathlib.Data.List.Nodup
import Mathlib.Logic.Relation

namespace M1nd.Library.BestFirst

open Relation

variable {α : Type} {children : α → List α} {root x y : α} {expanded frontier rest : List α}

-- The nodes that the root leads to.
def Reaches (children : α → List α) (root x : α) : Prop :=
  ReflTransGen (fun a b => b ∈ children a) root x

-- No node has two parents, is a child twice, or leads back to the root.
structure IsTree (children : α → List α) (root : α) : Prop where
  nodup : ∀ x, (children x).Nodup
  unrooted : ∀ x, root ∉ children x
  parent : ∀ x y z, Reaches children root x → Reaches children root y →
    z ∈ children x → z ∈ children y → x = y

-- A search of a tree under way: some nodes are expanded, and their other children are in the
-- frontier.
structure Explored (children : α → List α) (root : α) (expanded frontier : List α) : Prop where
  nodup : (expanded ++ frontier).Nodup
  rooted : root ∈ expanded ++ frontier
  closed : ∀ x ∈ expanded, ∀ y ∈ children x, y ∈ expanded ++ frontier
  reached : ∀ x ∈ expanded ++ frontier, Reaches children root x
  parents : ∀ x ∈ expanded ++ frontier, x = root ∨ ∃ y ∈ expanded, x ∈ children y

theorem explored_root (children : α → List α) (root : α) : Explored children root [] [root] where
  nodup := List.nodup_singleton root
  rooted := List.mem_cons_self
  closed := nofun
  reached x hx := by
    obtain rfl := List.mem_singleton.mp hx
    exact .refl
  parents x hx := .inl (List.mem_singleton.mp hx)

theorem Explored.perm {frontier' : List α} (h : Explored children root expanded frontier)
    (hperm : frontier.Perm frontier') : Explored children root expanded frontier' := by
  have hmem : ∀ x, x ∈ expanded ++ frontier' ↔ x ∈ expanded ++ frontier :=
    fun x => (hperm.append_left expanded).symm.mem_iff
  constructor
  case nodup => exact (hperm.append_left expanded).nodup_iff.mp h.nodup
  case rooted => exact (hmem root).mpr h.rooted
  case closed => exact fun x hx y hy => (hmem y).mpr (h.closed x hx y hy)
  case reached => exact fun x hx => h.reached x ((hmem x).mp hx)
  case parents => exact fun x hx => h.parents x ((hmem x).mp hx)

-- A node of the frontier gives way to its children.
theorem Explored.expand (htree : IsTree children root)
    (h : Explored children root expanded (x :: rest)) :
    Explored children root (expanded ++ [x]) (rest ++ children x) := by
  have hmem : ∀ y, y ∈ expanded ++ [x] ++ (rest ++ children x) ↔
      y ∈ expanded ++ x :: rest ∨ y ∈ children x := by
    intro y
    simp only [List.mem_append, List.mem_cons, List.not_mem_nil, or_false]
    tauto
  have hx : x ∈ expanded ++ x :: rest := List.mem_append_right _ List.mem_cons_self
  have hfresh : ∀ y ∈ children x, y ∉ expanded ++ x :: rest := by
    intro y hy hold
    obtain rfl | ⟨z, hz, hchild⟩ := h.parents y hold
    · exact htree.unrooted x hy
    · have hz' : z ∈ expanded ++ x :: rest := List.mem_append_left _ hz
      obtain rfl := htree.parent x z y (h.reached x hx) (h.reached z hz') hy hchild
      exact (List.nodup_append.mp h.nodup).2.2 x hz x List.mem_cons_self rfl
  constructor
  case nodup =>
    have hsplit : (expanded ++ [x] ++ (rest ++ children x)) =
        (expanded ++ x :: rest) ++ children x := by simp
    rw [hsplit]
    refine List.nodup_append.mpr ⟨h.nodup, htree.nodup x, fun y hold z hz hsame => ?_⟩
    exact hfresh z hz (hsame ▸ hold)
  case rooted => exact (hmem root).mpr (.inl h.rooted)
  case closed =>
    intro y hy z hz
    obtain hy | hy := List.mem_append.mp hy
    · exact (hmem z).mpr (.inl (h.closed y hy z hz))
    · obtain rfl := List.mem_singleton.mp hy
      exact (hmem z).mpr (.inr hz)
  case reached =>
    intro y hy
    obtain hy | hy := (hmem y).mp hy
    · exact h.reached y hy
    · exact (h.reached x hx).tail hy
  case parents =>
    intro y hy
    obtain hy | hy := (hmem y).mp hy
    · exact (h.parents y hy).imp_right fun ⟨z, hz, hchild⟩ =>
        ⟨z, List.mem_append_left _ hz, hchild⟩
    · exact .inr ⟨x, List.mem_append_right _ List.mem_cons_self, hy⟩

-- What is not expanded is in the frontier or below it.
theorem Explored.exists_frontier (h : Explored children root expanded frontier)
    (hreach : Reaches children root y) (hy : y ∉ expanded) :
    ∃ x ∈ frontier, Reaches children x y := by
  induction hreach with
  | refl => exact ⟨root, (List.mem_append.mp h.rooted).resolve_left hy, .refl⟩
  | @tail w y _ hchild ih =>
      by_cases hw : w ∈ expanded
      · exact ⟨y, (List.mem_append.mp (h.closed w hw y hchild)).resolve_left hy, .refl⟩
      · obtain ⟨x, hx, hbelow⟩ := ih hw
        exact ⟨x, hx, hbelow.tail hchild⟩

-- A search that has come to its end has expanded the whole tree.
theorem Explored.mem_iff (h : Explored children root expanded []) :
    y ∈ expanded ↔ Reaches children root y := by
  constructor
  · exact fun hy => h.reached y (List.mem_append_left _ hy)
  · intro hreach
    by_contra hy
    obtain ⟨x, hx, -⟩ := h.exists_frontier hreach hy
    exact List.not_mem_nil hx

section Best

variable {above : α → α → Prop}

-- Nothing in the frontier is above what is expanded.
def Ordered (above : α → α → Prop) (expanded frontier : List α) : Prop :=
  ∀ x ∈ expanded, ∀ y ∈ frontier, above x y

theorem Ordered.expand (h : Ordered above expanded (x :: rest))
    (htrans : ∀ a b c, above a b → above b c → above a c) (hrest : ∀ y ∈ rest, above x y)
    (hchildren : ∀ y ∈ children x, above x y) :
    Ordered above (expanded ++ [x]) (rest ++ children x) := by
  intro y hy z hz
  have hxz : above x z := by
    obtain hz | hz := List.mem_append.mp hz
    · exact hrest z hz
    · exact hchildren z hz
  obtain hy | hy := List.mem_append.mp hy
  · exact htrans y x z (h y hy x List.mem_cons_self) hxz
  · obtain rfl := List.mem_singleton.mp hy
    exact hxz

-- Where no child is above its parent, nothing that is not expanded is above what is.
theorem Ordered.above_unexpanded (h : Ordered above expanded frontier)
    (hexplored : Explored children root expanded frontier)
    (hrefl : ∀ a, above a a) (htrans : ∀ a b c, above a b → above b c → above a c)
    (hchildren : ∀ a b, Reaches children root a → b ∈ children a → above a b)
    (hreach : Reaches children root y) (hy : y ∉ expanded) (hx : x ∈ expanded) : above x y := by
  obtain ⟨z, hz, hbelow⟩ := hexplored.exists_frontier hreach hy
  have hdown : above z y := by
    clear hy
    induction hbelow with
    | refl => exact hrefl z
    | @tail v w hzv hchild ih =>
        have hv : Reaches children root v :=
          (hexplored.reached z (List.mem_append_right _ hz)).trans hzv
        exact htrans z v w (ih hv) (hchildren v w hv hchild)
  exact htrans x z y (h x hx z hz) hdown

end Best

end M1nd.Library.BestFirst
