import Mathlib.Data.List.Chain
import Mathlib.Data.List.Nodup

namespace M1nd.Library.Trails

-- A way from a node that goes along edges.
structure Path {α : Type} (edge : α → α → Prop) (a : α) (path : List α) : Prop where
  head : path.head? = some a
  chain : path.IsChain edge

-- A way that comes to no node twice.
structure Trail {α : Type} (edge : α → α → Prop) (a : α) (trail : List α) : Prop extends
    Path edge a trail where
  nodup : trail.Nodup

variable {α : Type} {edge : α → α → Prop} {a b c : α} {path trail : List α}

theorem Path.start (edge : α → α → Prop) (a : α) : Path edge a [a] :=
  ⟨rfl, List.isChain_singleton a⟩

theorem Path.concat (h : Path edge a path) (hlast : path.getLast? = some b) (hedge : edge b c) :
    Path edge a (path ++ [c]) where
  head := by rw [List.head?_append, h.head, Option.some_or]
  chain := by
    refine List.isChain_append.mpr ⟨h.chain, List.isChain_singleton c, fun u hu v hv => ?_⟩
    obtain rfl := Option.some.inj (hlast.symm.trans hu)
    obtain rfl := Option.some.inj hv
    exact hedge

-- The last step of a way that has one.
theorem Path.exists_init (h : Path edge a (path ++ [c])) (hne : path ≠ []) :
    Path edge a path ∧ ∃ b, path.getLast? = some b ∧ edge b c := by
  obtain ⟨hchain, -, hstep⟩ := List.isChain_append.mp h.chain
  obtain ⟨b, hb⟩ : ∃ b, path.getLast? = some b :=
    ⟨_, List.getLast?_eq_some_getLast hne⟩
  refine ⟨⟨?_, hchain⟩, b, hb, hstep b hb c rfl⟩
  have hhead := h.head
  rwa [List.head?_append_of_ne_nil _ hne] at hhead

theorem Trail.start (edge : α → α → Prop) (a : α) : Trail edge a [a] :=
  ⟨.start edge a, List.nodup_singleton a⟩

theorem Trail.concat (h : Trail edge a trail) (hlast : trail.getLast? = some b) (hedge : edge b c)
    (hnew : c ∉ trail) : Trail edge a (trail ++ [c]) where
  toPath := h.toPath.concat hlast hedge
  nodup := by
    refine List.nodup_append.mpr ⟨h.nodup, List.nodup_singleton c, fun u hu v hv hsame => ?_⟩
    obtain rfl := List.mem_singleton.mp hv
    exact hnew (hsame ▸ hu)

-- A way without its loops.
theorem Path.exists_trail (h : Path edge a path) (hlast : path.getLast? = some b) :
    ∃ trail, Trail edge a trail ∧ trail.getLast? = some b ∧ trail ⊆ path ∧
      trail.length ≤ path.length := by
  induction path using List.reverseRecOn generalizing b with
  | nil => exact absurd hlast nofun
  | append_singleton path c ih =>
      obtain rfl : c = b := by
        rw [List.getLast?_concat] at hlast
        exact Option.some.inj hlast
      by_cases hne : path = []
      · subst hne
        obtain rfl : c = a := Option.some.inj h.head
        exact ⟨[c], .start edge c, rfl, fun v hv => hv, le_rfl⟩
      · obtain ⟨hpath, u, hu, hedge⟩ := h.exists_init hne
        obtain ⟨trail, htrail, hend, hsub, hle⟩ := ih hpath hu
        by_cases hmem : c ∈ trail
        -- The trail has come to the node before.
        · obtain ⟨before, after, rfl⟩ := List.append_of_mem hmem
          have hwhole : before ++ c :: after = (before ++ [c]) ++ after := by
            rw [List.append_assoc, List.singleton_append]
          rw [hwhole] at htrail hsub hle
          refine ⟨before ++ [c], ⟨⟨?_, (List.isChain_append.mp htrail.chain).1⟩,
            (List.nodup_append.mp htrail.nodup).1⟩, List.getLast?_concat, fun v hv => ?_, ?_⟩
          · have hhead := htrail.head
            rwa [List.head?_append_of_ne_nil _ (by simp)] at hhead
          · exact List.mem_append_left _ (hsub (List.mem_append_left _ hv))
          · rw [List.length_append] at hle
            have hlonger : path.length ≤ (path ++ [c]).length := 
              (List.sublist_append_left path [c]).length_le
            omega
        · refine ⟨trail ++ [c], htrail.concat hend hedge hmem, List.getLast?_concat,
            fun v hv => ?_, ?_⟩
          · obtain hv | hv := List.mem_append.mp hv
            · exact List.mem_append_left _ (hsub hv)
            · exact List.mem_append_right _ hv
          · rw [List.length_append, List.length_append]
            exact Nat.add_le_add_right hle 1

-- What holds of the first node alone, and of each trail that goes on from one it holds of, holds
-- of every trail that is not too long.
theorem Trail.induction (found : List α → Prop) (bound : Nat) (hstart : found [a])
    (hstep : ∀ trail b c, Trail edge a trail → found trail → trail.length ≤ bound →
      trail.getLast? = some b → edge b c → c ∉ trail → found (trail ++ [c]))
    (h : Trail edge a trail) (hlength : trail.length ≤ bound + 1) : found trail := by
  induction trail using List.reverseRecOn with
  | nil => exact absurd h.head nofun
  | append_singleton trail c ih =>
      rw [List.length_append, List.length_singleton] at hlength
      by_cases hne : trail = []
      · subst hne
        obtain rfl : c = a := Option.some.inj h.head
        exact hstart
      · obtain ⟨hpath, b, hb, hedge⟩ := h.toPath.exists_init hne
        obtain ⟨hnodup, -, hdisjoint⟩ := List.nodup_append.mp h.nodup
        have htrail : Trail edge a trail := ⟨hpath, hnodup⟩
        exact hstep trail b c htrail (ih htrail (by omega)) (by omega) hb hedge fun hc =>
          hdisjoint c hc c (List.mem_singleton_self c) rfl

end M1nd.Library.Trails
