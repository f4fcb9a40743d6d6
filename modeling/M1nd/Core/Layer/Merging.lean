import M1nd.Core.Layer.Grouping
import M1nd.Library.Collections

namespace M1nd.Core

open M1nd.Library.Buckets
open M1nd.Library.Groups

variable {F : Type} {groups : List (List Nat)} {removed mergeInto : Nat}

section Absorb

theorem length_absorb (mergeInto : Nat) (hremoved : removed < groups.length) :
    (absorb groups removed mergeInto).length + 1 = groups.length := by
  rw [absorb, List.length_modify, List.length_eraseIdx_of_lt hremoved]
  omega

theorem flatten_absorb (hremoved : removed < groups.length)
    (hinto : mergeInto + 1 < groups.length) :
    (absorb groups removed mergeInto).flatten.Perm groups.flatten := by
  refine (flatten_modify_append_perm ?_ _).trans (flatten_eraseIdx_perm groups removed)
  rw [List.length_eraseIdx_of_lt hremoved]
  omega

end Absorb

section Groups

-- The groups at first are the buckets of the depths.
theorem flatten_depthGroups (candidates : List Nat) (depth : Nat → Nat) :
    (depthGroups candidates depth).flatten.Perm candidates := by
  have hlt : ∀ node ∈ candidates, depth node < (candidates.map depth).max?.getD 0 + 1 := by
    intro node hnode
    have hmem := List.mem_map_of_mem (f := depth) hnode
    cases hmax : (candidates.map depth).max? with
    | none =>
        rw [List.max?_eq_none_iff.mp hmax] at hmem
        exact absurd hmem List.not_mem_nil
    | some bound =>
        have hle := (List.max?_eq_some_iff.mp hmax).2 _ hmem
        exact Nat.lt_succ_of_le hle
  refine List.Perm.trans (List.Perm.of_eq ?_) (arrange_perm hlt)
  rw [depthGroups, arrange, buckets, List.flatMap_def]
  refine congrArg List.flatten (List.map_congr_left fun d _ => ?_)
  exact (bucket_eq_filter d).symm

variable [LayerF32 F] {pagerank : Nat → F}

theorem closestGroups_lt (pagerank : Nat → F) (hmany : 1 < groups.length) :
    closestGroups pagerank groups + 1 < groups.length := by
  refine List.foldlRecOn (motive := fun best : Nat × F => best.1 + 1 < groups.length) _ _ hmany
    fun best hbest i hi => ?_
  have hlt := List.mem_range.mp hi
  dsimp only
  split
  · dsimp only
    omega
  · exact hbest

theorem flatten_limitLayers (pagerank : Nat → F) (maxLayers fuel : Nat)
    (groups : List (List Nat)) :
    (limitLayers pagerank maxLayers fuel groups).flatten.Perm groups.flatten := by
  induction fuel generalizing groups with
  | zero => exact List.Perm.refl _
  | succ fuel ih =>
      unfold limitLayers
      split
      case isTrue hmany =>
        have hbest := closestGroups_lt pagerank hmany.2
        exact (ih _).trans (flatten_absorb hbest hbest)
      case isFalse => exact List.Perm.refl _

theorem length_limitLayers {maxLayers fuel : Nat} (hfuel : groups.length ≤ fuel) :
    (limitLayers pagerank maxLayers fuel groups).length ≤ max 1 maxLayers := by
  induction fuel generalizing groups with
  | zero => exact hfuel.trans (Nat.zero_le _)
  | succ fuel ih =>
      unfold limitLayers
      split
      case isTrue hmany =>
        have hlength := length_absorb (closestGroups pagerank groups)
          (closestGroups_lt pagerank hmany.2)
        exact ih (by omega)
      case isFalse hfew => omega

theorem flatten_pruneLayers (minNodes fuel i : Nat) (groups : List (List Nat)) :
    (pruneLayers minNodes fuel i groups).flatten.Perm groups.flatten := by
  induction fuel generalizing i groups with
  | zero => exact List.Perm.refl _
  | succ fuel ih =>
      unfold pruneLayers
      split
      case isTrue => exact List.Perm.refl _
      case isFalse hi =>
        split
        case isTrue hsmall => exact (ih _ _).trans (flatten_absorb (by omega) (by omega))
        case isFalse => exact ih _ _

theorem length_pruneLayers (minNodes fuel i : Nat) (groups : List (List Nat)) :
    (pruneLayers minNodes fuel i groups).length ≤ groups.length := by
  induction fuel generalizing i groups with
  | zero => exact Nat.le_refl _
  | succ fuel ih =>
      unfold pruneLayers
      split
      case isTrue => exact Nat.le_refl _
      case isFalse hi =>
        split
        case isTrue hsmall =>
          have hlength := length_absorb (min (i - 1) (groups.length - 2)) (Nat.not_le.mp hi)
          exact (ih _ _).trans (by omega)
        case isFalse => exact ih _ _

theorem flatten_layerGroups (detector : LayerDetector) (pagerank : Nat → F)
    (candidates : List Nat) (depth : Nat → Nat) :
    (layerGroups detector pagerank candidates depth).flatten.Perm candidates :=
  (flatten_pruneLayers _ _ _ _).trans
    ((flatten_limitLayers _ _ _ _).trans (flatten_depthGroups candidates depth))

theorem length_layerGroups (detector : LayerDetector) (pagerank : Nat → F)
    (candidates : List Nat) (depth : Nat → Nat) :
    (layerGroups detector pagerank candidates depth).length ≤ max 1 detector.maxLayers.toNat :=
  (length_pruneLayers _ _ _ _).trans (length_limitLayers (Nat.le_refl _))

end Groups

end M1nd.Core

namespace M1nd.Core

variable {edges : List (Nat × Nat)} {hashOrder : List Nat → List Nat} {adj : Nat → List Nat}

section Neighbors

theorem mem_dagAdj (hperm : ∀ nodes, (hashOrder nodes).Perm nodes) {node next : Nat} :
    next ∈ dagAdj hashOrder edges node ↔ (node, next) ∈ edges := by
  rw [dagAdj, (hperm _).mem_iff, List.mem_dedup, List.mem_map]
  constructor
  · rintro ⟨edge, hedge, rfl⟩
    obtain ⟨hmem, hsource⟩ := List.mem_filter.mp hedge
    obtain rfl : edge.1 = node := of_decide_eq_true hsource
    exact hmem
  · intro hedge
    exact ⟨(node, next), List.mem_filter.mpr ⟨hedge, decide_eq_true rfl⟩, rfl⟩

theorem nodup_dagAdj (hperm : ∀ nodes, (hashOrder nodes).Perm nodes) (node : Nat) :
    (dagAdj hashOrder edges node).Nodup :=
  (hperm _).nodup_iff.mpr (List.nodup_dedup _)

theorem length_dagAdj_le (hperm : ∀ nodes, (hashOrder nodes).Perm nodes) (node : Nat) :
    (dagAdj hashOrder edges node).length ≤ edges.countP fun edge => edge.1 = node := by
  rw [dagAdj, (hperm _).length_eq, List.countP_eq_length_filter]
  exact (List.dedup_sublist _).length_le.trans_eq (List.length_map _)

end Neighbors

namespace Depths

variable {state : Depths} {currentDepth node fuel : Nat} {nexts : List Nat}

theorem visited_relax (currentDepth : Nat) (state : Depths) (nexts : List Nat) :
    (nexts.foldl (relax currentDepth) state).visited = state.visited := by
  induction nexts generalizing state with
  | nil => rfl
  | cons next nexts ih => exact (ih _).trans rfl

theorem length_queue_relax (currentDepth : Nat) (state : Depths) (nexts : List Nat) :
    (nexts.foldl (relax currentDepth) state).queue.length ≤ state.queue.length + nexts.length := by
  induction nexts generalizing state with
  | nil => exact Nat.le_refl _
  | cons next nexts ih =>
      have hone : (relax currentDepth state next).queue.length ≤ state.queue.length + 1 := by
        unfold relax
        dsimp only
        split
        · rw [List.length_append, List.length_singleton]
        · exact Nat.le_succ _
      have hmore := ih (relax currentDepth state next)
      rw [List.foldl_cons, List.length_cons]
      omega

-- The edges of the nodes that are not visited, and the nodes in the queue.
def owed (edges : List (Nat × Nat)) (state : Depths) : Nat :=
  state.queue.length + edges.countP fun edge => edge.1 ∉ state.visited

theorem countP_visited (edges : List (Nat × Nat)) {visited : List Nat} (hnew : node ∉ visited) :
    edges.countP (fun edge => edge.1 ∉ node :: visited) +
      edges.countP (fun edge => edge.1 = node) = edges.countP fun edge => edge.1 ∉ visited := by
  induction edges with
  | nil => rfl
  | cons edge edges ih =>
      rw [List.countP_cons, List.countP_cons, List.countP_cons, ← ih]
      by_cases he : edge.1 = node
      · rw [if_neg (by simp [he]), if_pos (by simp [he]), if_pos (by simpa [he] using hnew)]
        omega
      · by_cases hmem : edge.1 ∈ visited
        · rw [if_neg (by simp [hmem]), if_neg (by simp [he]), if_neg (by simp [hmem])]
          omega
        · rw [if_pos (by simp [he, hmem]), if_neg (by simp [he]), if_pos (by simp [hmem])]
          omega

theorem exists_assign
    (hadj : ∀ node, (adj node).length ≤ edges.countP fun edge => edge.1 = node)
    (hfuel : state.owed edges ≤ fuel) : ∃ last, state.assign adj fuel = some last := by
  induction fuel generalizing state with
  | zero =>
      have hempty : state.queue = [] := by
        rw [← List.length_eq_zero_iff]
        unfold owed at hfuel
        omega
      rw [assign, hempty]
      exact ⟨state, rfl⟩
  | succ fuel ih =>
      unfold assign
      split
      case h_1 => exact ⟨state, rfl⟩
      case h_2 node queue hqueue =>
        unfold owed at hfuel
        rw [hqueue, List.length_cons] at hfuel
        dsimp only
        split
        case isTrue => exact ih (by unfold owed; dsimp only; omega)
        case isFalse hnew =>
          refine ih ?_
          have hvisited := countP_visited edges hnew
          have hpushed := length_queue_relax (({ state with queue := queue } : Depths).get node)
            { state with queue := queue, visited := node :: state.visited } (adj node)
          have hout := hadj node
          rw [owed, visit, visited_relax]
          dsimp only at hpushed ⊢
          omega

end Depths

theorem length_dagRoots_le (edges : List (Nat × Nat)) (dagNodes : List Nat) :
    (dagRoots edges dagNodes).length ≤ dagNodes.length := by
  unfold dagRoots
  dsimp only
  split <;> exact List.length_filter_le _ _

theorem exists_layerDepths (hperm : ∀ nodes, (hashOrder nodes).Perm nodes)
    (edges : List (Nat × Nat)) (candidates : List Nat) (sccs : List (List Nat)) :
    ∃ depth, layerDepths hashOrder edges candidates sccs = some depth := by
  have howed : (Depths.start edges (candidates.map (effective sccs)).eraseDups).owed edges ≤
      (candidates.map (effective sccs)).eraseDups.length + edges.length :=
    Nat.add_le_add (length_dagRoots_le _ _) List.countP_le_length
  obtain ⟨last, hlast⟩ := Depths.exists_assign (length_dagAdj_le hperm) howed
  exact ⟨_, Option.bind_eq_some_iff.mpr ⟨last, hlast, rfl⟩⟩

end M1nd.Core
