import M1nd.Core.Community.Adjacency

namespace M1nd.Core

open M1nd.Library.Loops
open M1nd.Library.Modularity
open M1nd.Library.WeightMap

variable {n : Nat} {community : List Nat} {row : List (Nat × Rat)}

def communityOf (community : List Nat) (i : Nat) : Nat :=
  community.getD i 0

theorem getElem?_eq_communityOf {i : Nat} (hi : i < community.length) :
    community[i]? = some (communityOf community i) := by
  rw [communityOf, List.getD_eq_getElem?_getD, List.getElem?_eq_getElem hi]
  rfl

theorem communityOf_set {i : Nat} (hi : i < community.length) (c : Nat) :
    communityOf (community.set i c) = Function.update (communityOf community) i c := by
  funext j
  rw [communityOf, List.getD_eq_getElem?_getD]
  by_cases hj : j = i
  · subst hj
    rw [List.getElem?_set_self hi, Function.update_self]
    rfl
  · rw [List.getElem?_set_ne (Ne.symm hj), Function.update_of_ne hj, communityOf,
      List.getD_eq_getElem?_getD]

section Neighbors

-- The weight of the neighbors in a community.
theorem foldlM_weightWithin (hkeys : ∀ entry ∈ row, entry.1 < community.length) (c : Nat)
    (sum : Rat) : row.foldlM (fun sum entry => do
      let neighbor ← community[entry.1]?
      some (if neighbor = c then sum + entry.2 else sum)) sum =
        some (sum + weigh row fun j => if communityOf community j = c then 1 else 0) := by
  induction row generalizing sum with
  | nil => exact congrArg some (add_zero sum).symm
  | cons entry row ih =>
      rw [List.foldlM_cons, getElem?_eq_communityOf (hkeys entry List.mem_cons_self)]
      simp only [Option.bind_eq_bind, Option.bind_some] at ih ⊢
      rw [ih fun other hother => hkeys other (List.mem_cons_of_mem _ hother), weigh_cons]
      split
      case isTrue => rw [one_mul, add_assoc]
      case isFalse => rw [zero_mul, zero_add]

-- The communities next to a node, each with the weight of the neighbors in it.
structure Neighbors (community : List Nat) (row comms : List (Nat × Rat)) : Prop where
  nodup : (comms.map Prod.fst).Nodup
  keys : ∀ c ∈ comms.map Prod.fst, c ∈ community
  weigh_eq : ∀ f : Nat → Rat, weigh comms f = weigh row fun j => f (communityOf community j)

theorem exists_neighborComms (hkeys : ∀ entry ∈ row, entry.1 < community.length) :
    ∃ comms, neighborComms community row = some comms ∧ Neighbors community row comms := by
  induction row using List.reverseRecOn with
  | nil => exact ⟨[], rfl, List.nodup_nil, nofun, fun _ => rfl⟩
  | append_singleton row entry ih =>
      obtain ⟨comms, hcomms, hneighbors⟩ :=
        ih fun other hother => hkeys other (List.mem_append_left _ hother)
      have hlt := hkeys entry (List.mem_append_right _ List.mem_cons_self)
      refine ⟨addTo comms (communityOf community entry.1) entry.2, ?_,
        nodup_addTo hneighbors.nodup, fun c hc => ?_, fun f => ?_⟩
      · rw [neighborComms] at hcomms ⊢
        rw [List.foldlM_append, hcomms, Option.bind_eq_bind, Option.bind_some, List.foldlM_cons,
          getElem?_eq_communityOf hlt]
        rfl
      · obtain rfl | hc := mem_keys_addTo.mp hc
        · exact List.mem_of_getElem? (getElem?_eq_communityOf hlt)
        · exact hneighbors.keys c hc
      · rw [weigh_addTo, hneighbors.weigh_eq, weigh_append, weigh_cons]
        exact congrArg _ (add_zero _).symm

end Neighbors

namespace Neighborhood

variable {net : Neighborhood} {orders : HashOrder}

def modularity (net : Neighborhood) (community : List Nat) : Rat :=
  Library.Modularity.modularity (Finset.range net.adj.length) net.weight (communityOf community)

-- Each node is in a community, and the degrees of the nodes of each are summed.
structure Keeps (n : Nat) (net : Neighborhood) (state : Moving) : Prop where
  length : state.community.length = n
  below : ∀ c ∈ state.community, c < n
  totals : ∀ c < n, state.sumTot[c]? =
    some (degreeIn (Finset.range n) net.weight (communityOf state.community) c)

variable {state : Moving}

theorem Keeps.communityOf_lt (h : Keeps n net state) {i : Nat} (hi : i < n) :
    communityOf state.community i < n :=
  h.below _ (List.mem_of_getElem? (getElem?_eq_communityOf (h.length.symm ▸ hi)))

theorem Sums.weigh_community (h : net.Sums n) (i c : Nat) :
    (weigh (net.adj.getD i []) fun j => if communityOf state.community j = c then 1 else 0) =
      weightTo (Finset.range n) net.weight (communityOf state.community) i c := by
  rw [h.weigh_row, weightTo]
  refine Finset.sum_congr rfl fun j _ => ?_
  rw [ite_mul, one_mul, zero_mul]

section Consider

variable {i : Nat} {comms : List (Nat × Rat)}

-- The best move so far: none, or one of positive gain.
def Best (n : Nat) (net : Neighborhood) (state : Moving) (i : Nat) (best : Nat × Rat) : Prop :=
  best = (communityOf state.community i, 0) ∨
    best.1 < n ∧ communityOf state.community i ≠ best.1 ∧ 0 < best.2 ∧
      best.2 = gain (Finset.range n) net.weight (communityOf state.community) i best.1

theorem Best.nonneg {best : Nat × Rat} (h : Best n net state i best) : 0 ≤ best.2 := by
  obtain rfl | ⟨-, -, hpos, -⟩ := h
  · exact le_rfl
  · exact hpos.le

theorem Best.lt (hkeeps : Keeps n net state) (hi : i < n) {best : Nat × Rat}
    (h : Best n net state i best) : best.1 < n := by
  obtain rfl | ⟨hlt, -⟩ := h
  · exact hkeeps.communityOf_lt hi
  · exact hlt

-- The totals without the node.
def without (n : Nat) (net : Neighborhood) (state : Moving) (i : Nat) : List Rat :=
  let ci := communityOf state.community i
  state.sumTot.set ci (degreeIn (Finset.range n) net.weight (communityOf state.community) ci -
    Library.Modularity.degree (Finset.range n) net.weight i)

theorem Keeps.getElem?_without (h : Keeps n net state) {c : Nat} (hc : c < n) :
    (without n net state i)[c]? = some (
      degreeIn (Finset.range n) net.weight (communityOf state.community) c -
        if communityOf state.community i = c then
          Library.Modularity.degree (Finset.range n) net.weight i else 0) := by
  have hget := h.totals c hc
  have hlt : c < state.sumTot.length := (List.getElem?_eq_some_iff.mp hget).1
  rw [without]
  by_cases hsame : communityOf state.community i = c
  · subst hsame
    rw [List.getElem?_set_self hlt, if_pos rfl]
  · rw [List.getElem?_set_ne hsame, hget, if_neg hsame, sub_zero]

theorem Sums.exists_consider (h : net.Sums n) (hkeeps : Keeps n net state) (hi : i < n)
    {best entry : Nat × Rat} (hbest : Best n net state i best) (hlt : entry.1 < n)
    (hentry : entry.2 =
      weightTo (Finset.range n) net.weight (communityOf state.community) i entry.1) :
    ∃ next, net.consider (Library.Modularity.degree (Finset.range n) net.weight i)
      (weightTo (Finset.range n) net.weight (communityOf state.community) i
        (communityOf state.community i))
      (communityOf state.community i) (without n net state i) best entry = some next ∧
        Best n net state i next := by
  have hci := hkeeps.communityOf_lt hi
  rw [consider, hkeeps.getElem?_without hlt, hkeeps.getElem?_without hci, if_pos rfl, h.twoM_eq]
  simp only [Option.bind_eq_bind, Option.bind_some]
  by_cases hsame : communityOf state.community i = entry.1
  · -- Back to its own community the node gains nothing.
    rw [if_pos hsame, hentry, ← hsame, sub_self, if_neg (not_lt.mpr hbest.nonneg)]
    exact ⟨best, rfl, hbest⟩
  · rw [if_neg hsame, sub_zero, hentry]
    split
    case isTrue hbetter =>
      exact ⟨_, rfl, .inr ⟨hlt, hsame, hbest.nonneg.trans_lt hbetter, rfl⟩⟩
    case isFalse => exact ⟨best, rfl, hbest⟩

end Consider

section Move

variable {i : Nat}

-- The totals when the node has come to its community.
theorem Keeps.move (h : net.Sums n) (hkeeps : Keeps n net state) (hi : i < n) {c : Nat}
    (hc : c < n) : ∃ totBest, (without n net state i)[c]? = some totBest ∧
      Keeps n net {
        community := state.community.set i c
        sumTot := (without n net state i).set c
          (totBest + Library.Modularity.degree (Finset.range n) net.weight i) } := by
  have hlt : i < state.community.length := hkeeps.length.symm ▸ hi
  refine ⟨_, hkeeps.getElem?_without hc, List.length_set.trans hkeeps.length, fun d hd => ?_,
    fun d hd => ?_⟩
  · obtain hd | rfl := List.mem_or_eq_of_mem_set hd
    · exact hkeeps.below d hd
    · exact hc
  · rw [communityOf_set hlt, degreeIn_update _ (Finset.mem_range.mpr hi)]
    have hget := hkeeps.getElem?_without (i := i) hd
    by_cases hsame : c = d
    · subst hsame
      rw [List.getElem?_set_self (List.getElem?_eq_some_iff.mp hget).1, if_pos rfl]
    · rw [List.getElem?_set_ne hsame, hget, if_neg hsame, add_zero]

-- A node stays, or it moves and the modularity ascends.
theorem Sums.exists_moveNode (h : net.Sums n) (hpos : 0 < net.twoM) (hkeeps : Keeps n net state)
    (orders : HashOrder) (pass : Nat) (hi : i < n) : ∃ next moved,
      net.moveNode orders pass state i = some (next, moved) ∧ Keeps n net next ∧
      (moved = false ∧ next.community = state.community ∨
        moved = true ∧ net.modularity state.community < net.modularity next.community) := by
  have hlt : i < state.community.length := hkeeps.length.symm ▸ hi
  have hci := hkeeps.communityOf_lt hi
  have hkeys : ∀ entry ∈ net.adj.getD i [], entry.1 < state.community.length :=
    fun entry hentry => hkeeps.length.symm ▸ h.keys i entry hentry
  have hwithin : weightWithin state.community (net.adj.getD i [])
      (communityOf state.community i) = some (weightTo (Finset.range n) net.weight
        (communityOf state.community) i (communityOf state.community i)) := by
    rw [weightWithin, foldlM_weightWithin hkeys, zero_add, h.weigh_community]
  obtain ⟨comms, hcomms, hneighbors⟩ := exists_neighborComms hkeys
  have hstart : Best n net state i (communityOf state.community i, 0) := .inl rfl
  obtain ⟨best, hbest, hisBest⟩ := exists_foldlM (Best n net state i) hstart
    fun best hbest entry (hentry : entry ∈ orders.order pass i comms) => by
      have hmem : entry ∈ comms := (orders.perm pass i comms).mem_iff.mp hentry
      have hweight := weightOf_of_mem hneighbors.nodup hmem
      rw [weightOf, hneighbors.weigh_eq, h.weigh_community] at hweight
      exact h.exists_consider hkeeps hi hbest
        (hkeeps.below _ (hneighbors.keys _ (List.mem_map_of_mem hmem))) hweight.symm
  obtain ⟨totBest, htotBest, hnext⟩ := hkeeps.move h hi (hisBest.lt hkeeps hi)
  refine ⟨_, decide (best.1 ≠ communityOf state.community i), ?_, hnext, ?_⟩
  · rw [moveNode, h.degree_getElem? hi, getElem?_eq_communityOf hlt, h.row hi]
    simp only [Option.bind_eq_bind, Option.bind_some]
    rw [hwithin, hkeeps.totals _ hci, hcomms]
    simp only [Option.bind_some]
    rw [without] at hbest htotBest
    rw [hbest, Option.bind_some, htotBest]
    rfl
  · obtain rfl | ⟨hlt', hne, hgain, heq⟩ := hisBest
    · refine .inl ⟨by simp, ?_⟩
      rw [communityOf, List.getD_eq_getElem?_getD, List.getElem?_eq_getElem hlt]
      exact List.set_getElem_self hlt
    · refine .inr ⟨by simpa using Ne.symm hne, ?_⟩
      rw [modularity, modularity, communityOf_set hlt, h.length]
      rw [heq] at hgain
      exact modularity_lt_update h.symm (Finset.mem_range.mpr hi) (h.twoM_eq ▸ hpos)
        (h.nonneg i i) hne hgain

end Move

end Neighborhood

end M1nd.Core

namespace M1nd.Core

open M1nd.Library.Loops
open M1nd.Library.Modularity

variable {n : Nat}

section Communities

-- The communities that the nodes can be in.
def communities (n : Nat) : Finset (List Nat) :=
  Finset.univ.image fun f : Fin n → Fin n => List.ofFn fun i => (f i : Nat)

theorem mem_communities {community : List Nat} (hlength : community.length = n)
    (hbelow : ∀ c ∈ community, c < n) : community ∈ communities n := by
  refine Finset.mem_image.mpr ⟨fun i => ⟨communityOf community i, ?_⟩, Finset.mem_univ _, ?_⟩
  · have hi : (i : Nat) < community.length := hlength.symm ▸ i.isLt
    exact hbelow _ (List.mem_of_getElem? (getElem?_eq_communityOf hi))
  · refine List.ext_getElem (by rw [List.length_ofFn, hlength]) fun i _ hi => ?_
    have hget := getElem?_eq_communityOf hi
    rw [List.getElem?_eq_getElem hi, Option.some_inj] at hget
    rw [List.getElem_ofFn, hget]

theorem card_communities_le (n : Nat) : (communities n).card ≤ n ^ n := by
  refine Finset.card_image_le.trans ?_
  rw [Finset.card_univ, Fintype.card_fun, Fintype.card_fin]

end Communities

namespace Neighborhood

variable {net : Neighborhood} {orders : HashOrder} {state : Moving}

-- The states of the local moving, whatever the order in which the nodes are visited.
inductive Reached (net : Neighborhood) (orders : HashOrder) : Moving → Prop
  | start : Reached net orders net.start
  | move {state next : Moving} {pass i : Nat} {moved : Bool} (h : Reached net orders state)
      (hi : i < net.adj.length) (hmove : net.moveNode orders pass state i = some (next, moved)) :
      Reached net orders next

theorem Sums.keeps_start (h : net.Sums n) : Keeps n net net.start where
  length := List.length_range.trans h.length
  below c hc := h.length ▸ List.mem_range.mp hc
  totals c hc := by
    rw [start, h.degree_getElem? hc, degreeIn, h.length]
    have hself : ∀ j ∈ Finset.range n, (if communityOf (List.range n) j = c then
        Library.Modularity.degree (Finset.range n) net.weight j else 0) =
          if c = j then Library.Modularity.degree (Finset.range n) net.weight j else 0 := by
      intro j hj
      rw [communityOf, List.getD_eq_getElem?_getD, List.getElem?_range (Finset.mem_range.mp hj)]
      simp only [Option.getD_some, eq_comm]
    rw [Finset.sum_congr rfl hself, Finset.sum_ite_eq, if_pos (Finset.mem_range.mpr hc)]

theorem Sums.keeps (h : net.Sums n) (hpos : 0 < net.twoM) (hreached : net.Reached orders state) :
    Keeps n net state := by
  induction hreached with
  | start => exact h.keeps_start
  | @move state next pass i moved _ hi hmove ih =>
      obtain ⟨next', moved', hmove', hkeeps, -⟩ :=
        h.exists_moveNode hpos ih orders pass (h.length ▸ hi)
      obtain ⟨rfl, rfl⟩ := Prod.mk.inj (Option.some.inj (hmove.symm.trans hmove'))
      exact hkeeps

-- What some visits of a pass have come to.
structure Swept (n : Nat) (net : Neighborhood) (state : Moving) (swept : Moving × Bool) :
    Prop where
  keeps : Keeps n net swept.1
  ascends : swept.2 = false ∧ swept.1.community = state.community ∨
    swept.2 = true ∧ net.modularity state.community < net.modularity swept.1.community

theorem Sums.exists_sweep (h : net.Sums n) (hpos : 0 < net.twoM) (hkeeps : Keeps n net state)
    (orders : HashOrder) (pass : Nat) : ∃ swept,
      (List.range net.adj.length).foldlM (net.visit orders pass) (state, false) = some swept ∧
        Swept n net state swept := by
  have hstart : Swept n net state (state, false) := ⟨hkeeps, .inl ⟨rfl, rfl⟩⟩
  refine exists_foldlM (Swept n net state) hstart fun swept hswept i hi => ?_
  obtain ⟨next, moved, hmove, hnext, hascends⟩ := h.exists_moveNode hpos hswept.keeps orders pass
    (h.length ▸ List.mem_range.mp hi)
  refine ⟨(next, swept.2 || moved), by rw [visit, hmove, Option.map_some], hnext, ?_⟩
  obtain ⟨rfl, hsame⟩ | ⟨rfl, hlt⟩ := hascends
  · rw [Bool.or_false, hsame]
    exact hswept.ascends
  · refine .inr ⟨Bool.or_true _, ?_⟩
    obtain ⟨-, hsame⟩ | ⟨-, hlt'⟩ := hswept.ascends
    · exact hsame ▸ hlt
    · exact hlt'.trans hlt

-- Every pass but the last one ascends, so that they are fewer than the states above the start.
theorem Sums.exists_localMoving (h : net.Sums n) (hpos : 0 < net.twoM) (orders : HashOrder)
    (hkeeps : Keeps n net state) (pass : Nat) : ∃ moved : Moved, moved.converged = true ∧
      moved.passes ≤ pass + above (communities n) net.modularity state.community + 1 ∧
      ∀ left, above (communities n) net.modularity state.community < left →
        net.localMoving orders left pass state = some moved := by
  induction habove : above (communities n) net.modularity state.community using Nat.strong_induction_on
    generalizing state pass with
  | _ bound ih =>
      obtain ⟨⟨next, improved⟩, hsweep, hswept⟩ := h.exists_sweep hpos hkeeps orders (pass + 1)
      cases improved with
      | false =>
          refine ⟨⟨next.community, pass + 1, true⟩, rfl, by dsimp only; omega, fun left hleft => ?_⟩
          obtain ⟨left, rfl⟩ := Nat.exists_eq_add_of_lt hleft
          rw [localMoving, hsweep]
          rfl
      | true =>
          have hlt : net.modularity state.community < net.modularity next.community := by
            obtain ⟨hfalse, -⟩ | ⟨-, hlt⟩ := hswept.ascends
            · exact absurd hfalse nofun
            · exact hlt
          have hless := above_lt (mem_communities hswept.keeps.length hswept.keeps.below) hlt
          rw [habove] at hless
          obtain ⟨moved, hconverged, hpasses, hmoved⟩ := ih _ hless hswept.keeps (pass + 1) rfl
          refine ⟨moved, hconverged, by omega, fun left hleft => ?_⟩
          obtain ⟨left, rfl⟩ := Nat.exists_eq_add_of_lt hleft
          rw [localMoving, hsweep]
          exact hmoved _ (by omega)

-- With fewer passes the local moving is cut off.
theorem Sums.exists_moved (h : net.Sums n) (hpos : 0 < net.twoM) (orders : HashOrder) (left : Nat)
    (hkeeps : Keeps n net state) (pass : Nat) : ∃ moved,
      net.localMoving orders left pass state = some moved ∧ moved.community.length = n := by
  induction left generalizing state pass with
  | zero => exact ⟨_, rfl, hkeeps.length⟩
  | succ left ih =>
      obtain ⟨⟨next, improved⟩, hsweep, hswept⟩ := h.exists_sweep hpos hkeeps orders (pass + 1)
      rw [localMoving, hsweep, Option.bind_eq_bind, Option.bind_some]
      cases improved with
      | false => exact ⟨_, rfl, hswept.keeps.length⟩
      | true => exact ih hswept.keeps (pass + 1)

end Neighborhood

section Renumber

-- The numbers that the communities so far have been given, in the order of their first nodes.
structure Numbers (community : List Nat) (numbered : Renumbering) : Prop where
  assignments : List.Forall₂ (fun c id => numbered.commMap.lookup c = some id) community
    numbered.assignments
  below : ∀ c id, numbered.commMap.lookup c = some id → id < numbered.nextId
  used : ∀ id < numbered.nextId, id ∈ numbered.assignments
  injective : ∀ c d id, numbered.commMap.lookup c = some id →
    numbered.commMap.lookup d = some id → c = d

theorem Numbers.renumberOne {community : List Nat} {numbered : Renumbering}
    (h : Numbers community numbered) (c : Nat) :
    Numbers (community ++ [c]) (renumberOne numbered c) := by
  unfold M1nd.Core.renumberOne
  split
  case h_1 id hid =>
    refine ⟨List.rel_append h.assignments (.cons hid .nil), h.below, fun id' hid' => ?_, h.injective⟩
    exact List.mem_append_left _ (h.used id' hid')
  case h_2 hnew =>
    have hlookup : ∀ d, ((c, numbered.nextId) :: numbered.commMap).lookup d =
        if d = c then some numbered.nextId else numbered.commMap.lookup d := by
      intro d
      rw [List.lookup_cons]
      split <;> simp_all
    constructor
    case assignments =>
      refine List.rel_append (h.assignments.imp fun d id hid => ?_) (.cons ?_ .nil)
      · rw [hlookup, if_neg, hid]
        rintro rfl
        exact absurd (hid.symm.trans hnew) nofun
      · rw [hlookup, if_pos rfl]
    case below =>
      intro d id hid
      rw [hlookup] at hid
      split at hid
      · exact (Option.some.inj hid) ▸ Nat.lt_succ_self _
      · exact Nat.lt_succ_of_lt (h.below d id hid)
    case used =>
      intro id hid
      obtain hid | rfl := Nat.lt_succ_iff_lt_or_eq.mp hid
      · exact List.mem_append_left _ (h.used id hid)
      · exact List.mem_append_right _ List.mem_cons_self
    case injective =>
      intro d e id hd he
      rw [hlookup] at hd he
      split at hd <;> split at he
      case isTrue.isTrue hd' he' => exact hd'.trans he'.symm
      case isTrue.isFalse =>
        exact absurd (h.below e id he) (by rw [Option.some.inj hd]; exact lt_irrefl _)
      case isFalse.isTrue =>
        exact absurd (h.below d id hd) (by rw [Option.some.inj he]; exact lt_irrefl _)
      case isFalse.isFalse => exact h.injective d e id hd he

theorem numbers_renumber (community : List Nat) : Numbers community (renumber community) := by
  induction community using List.reverseRecOn with
  | nil => exact ⟨.nil, nofun, nofun, nofun⟩
  | append_singleton community c ih =>
      rw [renumber, List.foldl_append]
      exact ih.renumberOne c

theorem Numbers.length {community : List Nat} {numbered : Renumbering}
    (h : Numbers community numbered) : numbered.assignments.length = community.length :=
  h.assignments.length_eq.symm

-- The numbers are contiguous.
theorem Numbers.mem_iff {community : List Nat} {numbered : Renumbering}
    (h : Numbers community numbered) (id : Nat) :
    id ∈ numbered.assignments ↔ id < numbered.nextId := by
  refine ⟨fun hmem => ?_, h.used id⟩
  obtain ⟨i, hi, rfl⟩ := List.getElem_of_mem hmem
  exact h.below _ _ (h.assignments.get (h.length ▸ hi) hi)

-- Two nodes have one number just when they have one community.
theorem Numbers.communityOf_eq_iff {community : List Nat} {numbered : Renumbering}
    (h : Numbers community numbered) {i j : Nat} (hi : i < community.length)
    (hj : j < community.length) :
    communityOf numbered.assignments i = communityOf numbered.assignments j ↔
      communityOf community i = communityOf community j := by
  have hnumber : ∀ k < community.length, numbered.commMap.lookup (communityOf community k) =
      some (communityOf numbered.assignments k) := by
    intro k hk
    have hk' : k < numbered.assignments.length := h.length.symm ▸ hk
    have hget := h.assignments.get hk hk'
    have hleft := getElem?_eq_communityOf hk
    have hright := getElem?_eq_communityOf hk'
    rw [List.getElem?_eq_getElem hk, Option.some_inj] at hleft
    rw [List.getElem?_eq_getElem hk', Option.some_inj] at hright
    rwa [List.get_eq_getElem, List.get_eq_getElem, hleft, hright] at hget
  constructor
  · intro hsame
    exact h.injective _ _ _ (hnumber i hi) (hsame ▸ hnumber j hj)
  · intro hsame
    have hboth := (hnumber i hi).symm.trans (hsame ▸ hnumber j hj)
    exact Option.some.inj hboth

end Renumber

end M1nd.Core
