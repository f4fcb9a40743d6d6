import Mathlib.Data.List.Nodup
import Mathlib.Logic.Relation

namespace M1nd.Library.Flooding

open Relation

-- A breadth-first search under way: the marks of the nodes, those that wait, and how many have
-- entered the queue and left it.
structure Flood where
  visited : List Bool
  queue : List Nat
  entered : Nat
  left : Nat

section Search

variable (neighbors : Nat → Option (List Nat)) (barred : List Bool)

-- A node enters once, unless it is barred.
def enter (flood : Flood) (node : Nat) : Flood :=
  if flood.visited[node]? = some false ∧ barred[node]? = some false then
    { flood with
      visited := flood.visited.set node true
      queue := flood.queue ++ [node]
      entered := flood.entered + 1 }
  else flood

def startAt (visited : List Bool) (origin : Nat) : Flood where
  visited := visited.set origin true
  queue := [origin]
  entered := 1
  left := 0

-- Each node is queued once, so that the number of the nodes is enough fuel.
def floodQueue : Nat → Flood → Option Flood
  | fuel, flood =>
      match flood.queue with
      | [] => some flood
      | node :: queue =>
          match fuel with
          | 0 => none
          | fuel + 1 => do
              let next ← neighbors node
              floodQueue fuel
                (next.foldl (enter barred) { flood with queue := queue, left := flood.left + 1 })

-- The way to a neighbor that is not barred.
def Passes (a b : Nat) : Prop :=
  ∃ next, neighbors a = some next ∧ b ∈ next ∧ barred[b]? = some false

end Search

variable {neighbors : Nat → Option (List Nat)} {barred before : List Bool} {flood next : Flood}
  {members nodes fresh : List Nat} {origin fuel : Nat}

-- The nodes that wait and those without a mark.
def Flood.owed (flood : Flood) : Nat :=
  flood.queue.length + flood.visited.count false

-- What some nodes do to a search.
structure Flood.Grows (barred : List Bool) (nodes : List Nat) (flood next : Flood)
    (fresh : List Nat) : Prop where
  queue : next.queue = flood.queue ++ fresh
  length : next.visited.length = flood.visited.length
  left : next.left = flood.left
  entered : next.entered = flood.entered + fresh.length
  owed : next.owed = flood.owed
  nodup : fresh.Nodup
  unmarked : ∀ v ∈ fresh, flood.visited[v]? = some false
  marked : ∀ v, next.visited[v]? = some true ↔ flood.visited[v]? = some true ∨ v ∈ fresh
  named : ∀ v ∈ fresh, v ∈ nodes ∧ barred[v]? = some false
  covered : ∀ v ∈ nodes, barred[v]? = some false → v < flood.visited.length →
    next.visited[v]? = some true

theorem getElem?_set_true {visited : List Bool} {node : Nat} (hlt : node < visited.length)
    (v : Nat) :
    (visited.set node true)[v]? = some true ↔ visited[v]? = some true ∨ v = node := by
  by_cases hv : v = node
  · subst hv
    simp [List.getElem?_set_self hlt]
  · rw [List.getElem?_set_ne (Ne.symm hv)]
    simp [hv]

theorem count_set_true {visited : List Bool} {node : Nat} (hnode : visited[node]? = some false) :
    (visited.set node true).count false + 1 = visited.count false := by
  obtain ⟨hlt, hfalse⟩ := List.getElem?_eq_some_iff.mp hnode
  have hpos : 0 < visited.count false := List.count_pos_iff.mpr (List.mem_of_getElem? hnode)
  rw [List.count_set hlt, hfalse]
  simp
  omega

theorem grows_enter (barred : List Bool) (flood : Flood) (node : Nat) :
    ∃ fresh, flood.Grows barred [node] (enter barred flood node) fresh := by
  unfold enter
  by_cases hnew : flood.visited[node]? = some false ∧ barred[node]? = some false
  · rw [if_pos hnew]
    have hlt := (List.getElem?_eq_some_iff.mp hnew.1).1
    refine ⟨[node], rfl, List.length_set, rfl, rfl, ?_, List.nodup_singleton node, ?_, ?_, ?_, ?_⟩
    · have hcount := count_set_true hnew.1
      simp only [Flood.owed, List.length_append, List.length_singleton]
      omega
    · intro v hv
      obtain rfl := List.mem_singleton.mp hv
      exact hnew.1
    · intro v
      rw [getElem?_set_true hlt, List.mem_singleton]
    · intro v hv
      obtain rfl := List.mem_singleton.mp hv
      exact ⟨hv, hnew.2⟩
    · intro v hv _ _
      obtain rfl := List.mem_singleton.mp hv
      exact List.getElem?_set_self hlt
  · rw [if_neg hnew]
    refine ⟨[], (List.append_nil _).symm, rfl, rfl, rfl, rfl, List.nodup_nil, nofun, ?_, nofun, ?_⟩
    · exact fun v => ⟨.inl, fun hv => hv.resolve_right List.not_mem_nil⟩
    · intro v hv hfree hlt
      obtain rfl := List.mem_singleton.mp hv
      cases hmark : flood.visited[v] with
      | true => exact List.getElem?_eq_some_iff.mpr ⟨hlt, hmark⟩
      | false => exact absurd ⟨List.getElem?_eq_some_iff.mpr ⟨hlt, hmark⟩, hfree⟩ hnew

theorem Flood.Grows.trans {nodes' fresh' : List Nat} {last : Flood}
    (h : flood.Grows barred nodes next fresh) (h' : next.Grows barred nodes' last fresh') :
    flood.Grows barred (nodes ++ nodes') last (fresh ++ fresh') where
  queue := by rw [h'.queue, h.queue, List.append_assoc]
  length := h'.length.trans h.length
  left := h'.left.trans h.left
  entered := by rw [h'.entered, h.entered, List.length_append, Nat.add_assoc]
  owed := h'.owed.trans h.owed
  nodup := by
    refine List.nodup_append.mpr ⟨h.nodup, h'.nodup, fun v hv w hw hsame => ?_⟩
    subst hsame
    have hmark := (h.marked v).mpr (.inr hv)
    rw [h'.unmarked v hw] at hmark
    exact nomatch hmark
  unmarked v hv := by
    obtain hv | hv := List.mem_append.mp hv
    · exact h.unmarked v hv
    · have hnext := h'.unmarked v hv
      have hlt := (List.getElem?_eq_some_iff.mp hnext).1
      rw [h.length] at hlt
      cases hmark : flood.visited[v] with
      | false => exact List.getElem?_eq_some_iff.mpr ⟨hlt, hmark⟩
      | true =>
          have hkept := (h.marked v).mpr (.inl (List.getElem?_eq_some_iff.mpr ⟨hlt, hmark⟩))
          rw [hnext] at hkept
          exact nomatch hkept
  marked v := by rw [h'.marked, h.marked, List.mem_append, or_assoc]
  named v hv := by
    obtain hv | hv := List.mem_append.mp hv
    · exact ⟨List.mem_append_left _ (h.named v hv).1, (h.named v hv).2⟩
    · exact ⟨List.mem_append_right _ (h'.named v hv).1, (h'.named v hv).2⟩
  covered v hv hfree hlt := by
    obtain hv | hv := List.mem_append.mp hv
    · exact (h'.marked v).mpr (.inl (h.covered v hv hfree hlt))
    · exact h'.covered v hv hfree (h.length ▸ hlt)

theorem grows_foldl (barred : List Bool) (nodes : List Nat) (flood : Flood) :
    ∃ fresh, flood.Grows barred nodes (nodes.foldl (enter barred) flood) fresh := by
  induction nodes generalizing flood with
  | nil =>
      refine ⟨[], (List.append_nil _).symm, rfl, rfl, rfl, rfl, List.nodup_nil, nofun, ?_, nofun,
        nofun⟩
      exact fun v => ⟨.inl, fun hv => hv.resolve_right List.not_mem_nil⟩
  | cons node nodes ih =>
      obtain ⟨fresh, hfirst⟩ := grows_enter barred flood node
      obtain ⟨fresh', hrest⟩ := ih (enter barred flood node)
      exact ⟨fresh ++ fresh', hfirst.trans hrest⟩

-- A search from a node, over the marks there were before it: its members are marked since, and
-- only those that wait have a way to a node without a mark.
structure Flood.Holds (neighbors : Nat → Option (List Nat)) (barred before : List Bool)
    (origin : Nat) (flood : Flood) (members : List Nat) : Prop where
  length : flood.visited.length = before.length
  nodup : members.Nodup
  entered : flood.entered = members.length
  left : flood.left + flood.queue.length = flood.entered
  marked : ∀ v, flood.visited[v]? = some true ↔ before[v]? = some true ∨ v ∈ members
  unmarked : ∀ v ∈ members, before[v]? = some false
  reached : ∀ v ∈ members, ReflTransGen (Passes neighbors barred) origin v
  queued : ∀ v ∈ flood.queue, v ∈ members
  origin : origin ∈ members
  closed : ∀ u ∈ members, ∀ v, Passes neighbors barred u v →
    flood.visited[v]? = some true ∨ u ∈ flood.queue

theorem holds_startAt (horigin : before[origin]? = some false) :
    (startAt before origin).Holds neighbors barred before origin [origin] := by
  have hlt := (List.getElem?_eq_some_iff.mp horigin).1
  constructor
  case length => exact List.length_set
  case nodup => exact List.nodup_singleton origin
  case entered => rfl
  case left => rfl
  case marked =>
    intro v
    rw [startAt, getElem?_set_true hlt, List.mem_singleton]
  case unmarked =>
    intro v hv
    obtain rfl := List.mem_singleton.mp hv
    exact horigin
  case reached =>
    intro v hv
    obtain rfl := List.mem_singleton.mp hv
    exact .refl
  case queued => exact fun v hv => hv
  case origin => exact List.mem_cons_self
  case closed => exact fun u hu v _ => .inr hu

-- The first node of the queue gives way to its neighbors.
theorem Flood.Holds.exists_pop (hbarred : barred.length = before.length)
    (hread : ∀ node < before.length, ∃ next, neighbors node = some next)
    (h : flood.Holds neighbors barred before origin members) {node : Nat} {queue : List Nat}
    (hqueue : flood.queue = node :: queue) :
    ∃ nodes fresh, neighbors node = some nodes ∧
      (nodes.foldl (enter barred) { flood with queue := queue, left := flood.left + 1 }).Holds
        neighbors barred before origin (members ++ fresh) ∧
      (nodes.foldl (enter barred) { flood with queue := queue, left := flood.left + 1 }).owed + 1 =
        flood.owed := by
  have hnode : node ∈ members := h.queued node (hqueue ▸ List.mem_cons_self)
  have hlt := (List.getElem?_eq_some_iff.mp (h.unmarked node hnode)).1
  obtain ⟨nodes, hnodes⟩ := hread node hlt
  obtain ⟨fresh, hgrows⟩ :=
    grows_foldl barred nodes { flood with queue := queue, left := flood.left + 1 }
  have hpasses (v : Nat) (hv : v ∈ fresh) : Passes neighbors barred node v :=
    ⟨nodes, hnodes, (hgrows.named v hv).1, (hgrows.named v hv).2⟩
  refine ⟨nodes, fresh, hnodes, ?_, ?_⟩
  · constructor
    case length => exact hgrows.length.trans h.length
    case nodup =>
      refine List.nodup_append.mpr ⟨h.nodup, hgrows.nodup, fun v hv w hw hsame => ?_⟩
      subst hsame
      have hmark := (h.marked v).mpr (.inr hv)
      rw [hgrows.unmarked v hw] at hmark
      exact nomatch hmark
    case entered => rw [hgrows.entered, List.length_append, ← h.entered]
    case left =>
      have hold := h.left
      rw [hqueue, List.length_cons] at hold
      rw [hgrows.left, hgrows.queue, hgrows.entered, List.length_append]
      dsimp only
      omega
    case marked =>
      intro v
      rw [hgrows.marked, h.marked, List.mem_append, or_assoc]
    case unmarked =>
      intro v hv
      obtain hv | hv := List.mem_append.mp hv
      · exact h.unmarked v hv
      · have hfree : flood.visited[v]? = some false := hgrows.unmarked v hv
        have hlt := (List.getElem?_eq_some_iff.mp hfree).1
        rw [h.length] at hlt
        cases hmark : before[v] with
        | false => exact List.getElem?_eq_some_iff.mpr ⟨hlt, hmark⟩
        | true =>
            have hkept := (h.marked v).mpr (.inl (List.getElem?_eq_some_iff.mpr ⟨hlt, hmark⟩))
            rw [hfree] at hkept
            exact nomatch hkept
    case reached =>
      intro v hv
      obtain hv | hv := List.mem_append.mp hv
      · exact h.reached v hv
      · exact (h.reached node hnode).tail (hpasses v hv)
    case queued =>
      intro v hv
      rw [hgrows.queue] at hv
      obtain hv | hv := List.mem_append.mp hv
      · exact List.mem_append_left _ (h.queued v (hqueue ▸ List.mem_cons_of_mem _ hv))
      · exact List.mem_append_right _ hv
    case origin => exact List.mem_append_left _ h.origin
    case closed =>
      intro u hu v hpass
      rw [hgrows.queue]
      obtain hu | hu := List.mem_append.mp hu
      · obtain hv | hwait := h.closed u hu v hpass
        · exact .inl ((hgrows.marked v).mpr (.inl hv))
        · rw [hqueue] at hwait
          obtain rfl | hwait := List.mem_cons.mp hwait
          · left
            obtain ⟨nodes', hnodes', hmem, hfree⟩ := hpass
            obtain rfl : nodes = nodes' := Option.some.inj (hnodes.symm.trans hnodes')
            have hlt := (List.getElem?_eq_some_iff.mp hfree).1
            rw [hbarred, ← h.length] at hlt
            exact hgrows.covered v hmem hfree hlt
          · exact .inr (List.mem_append_left _ hwait)
      · exact .inr (List.mem_append_right _ hu)
  · have howed := hgrows.owed
    simp only [Flood.owed] at howed ⊢
    rw [howed, hqueue, List.length_cons]
    omega

theorem Flood.Holds.exists_floodQueue (hbarred : barred.length = before.length)
    (hread : ∀ node < before.length, ∃ next, neighbors node = some next)
    (h : flood.Holds neighbors barred before origin members) (hfuel : flood.owed ≤ fuel) :
    ∃ last members', floodQueue neighbors barred fuel flood = some last ∧
      last.Holds neighbors barred before origin members' ∧ last.queue = [] := by
  induction fuel generalizing flood members with
  | zero =>
      cases hqueue : flood.queue with
      | nil =>
          refine ⟨flood, members, ?_, h, hqueue⟩
          rw [floodQueue]
          simp only [hqueue]
      | cons node queue =>
          simp only [Flood.owed, hqueue, List.length_cons] at hfuel
          omega
  | succ fuel ih =>
      cases hqueue : flood.queue with
      | nil =>
          refine ⟨flood, members, ?_, h, hqueue⟩
          rw [floodQueue]
          simp only [hqueue]
      | cons node queue =>
          obtain ⟨nodes, fresh, hnodes, hnext, howed⟩ := h.exists_pop hbarred hread hqueue
          obtain ⟨last, members', hlast, hholds⟩ := ih hnext (by omega)
          refine ⟨last, members', ?_, hholds⟩
          rw [floodQueue]
          simp only [hqueue, hnodes, Option.bind_eq_bind, Option.bind_some]
          exact hlast

-- A search from a node without a mark marks what the node reaches, as long as no marked node has
-- a way to a node without a mark.
theorem exists_flood (hbarred : barred.length = before.length)
    (hread : ∀ node < before.length, ∃ next, neighbors node = some next)
    (hclosed : ∀ u v, before[u]? = some true → Passes neighbors barred u v →
      before[v]? = some true)
    (horigin : before[origin]? = some false) :
    ∃ last, ∃ members : List Nat,
      floodQueue neighbors barred before.length (startAt before origin) = some last ∧
      members.Nodup ∧ last.entered = members.length ∧ last.left = members.length ∧
      last.visited.length = before.length ∧
      (∀ v, last.visited[v]? = some true ↔ before[v]? = some true ∨ v ∈ members) ∧
      ∀ v, v ∈ members ↔
        ReflTransGen (Passes neighbors barred) origin v ∧ before[v]? ≠ some true := by
  have hstart : (startAt before origin).Holds neighbors barred before origin [origin] :=
    holds_startAt horigin
  have hfuel : (startAt before origin).owed ≤ before.length := by
    have hcount := count_set_true horigin
    have hle := List.count_le_length (a := false) (l := before)
    simp only [Flood.owed, startAt, List.length_singleton]
    omega
  obtain ⟨last, members, hlast, hholds, hqueue⟩ := hstart.exists_floodQueue hbarred hread hfuel
  have hleft := hholds.left
  rw [hqueue, List.length_nil, Nat.add_zero] at hleft
  refine ⟨last, members, hlast, hholds.nodup, hholds.entered, hleft.trans hholds.entered,
    hholds.length, hholds.marked, fun v => ⟨fun hv => ⟨hholds.reached v hv, ?_⟩, ?_⟩⟩
  · rw [hholds.unmarked v hv]
    exact nofun
  · rintro ⟨hreach, hfree⟩
    have hmarked : last.visited[v]? = some true := by
      clear hfree
      induction hreach with
      | refl => exact (hholds.marked origin).mpr (.inr hholds.origin)
      | @tail u v _ hpass ih =>
          obtain hu | hu := (hholds.marked u).mp ih
          · exact (hholds.marked v).mpr (.inl (hclosed u v hu hpass))
          · obtain hv | hwait := hholds.closed u hu v hpass
            · exact hv
            · rw [hqueue] at hwait
              exact absurd hwait List.not_mem_nil
    exact ((hholds.marked v).mp hmarked).resolve_left hfree

-- Searches that were made one after the other, with the nodes that each of them marked: what its
-- origin reaches.
structure Floods (neighbors : Nat → Option (List Nat)) (barred : List Bool) (n : Nat)
    (visited : List Bool) (groups : List (Nat × List Nat)) : Prop where
  length : visited.length = n
  marked : ∀ v, visited[v]? = some true ↔ v ∈ groups.flatMap Prod.snd
  nodup : (groups.flatMap Prod.snd).Nodup
  members : ∀ group ∈ groups, barred[group.1]? = some false ∧
    ∀ v, v ∈ group.2 ↔ ReflTransGen (Passes neighbors barred) group.1 v

theorem floods_nil (n : Nat) : Floods neighbors barred n (List.replicate n false) [] where
  length := List.length_replicate
  marked v := by
    constructor
    · intro hv
      have := List.eq_of_mem_replicate (List.mem_of_getElem? hv)
      exact absurd this (by simp)
    · exact fun hv => absurd hv List.not_mem_nil
  nodup := List.nodup_nil
  members _ hgroup := absurd hgroup List.not_mem_nil

theorem Floods.exists_flood {n : Nat} {visited : List Bool} {groups : List (Nat × List Nat)}
    (h : Floods neighbors barred n visited groups) (hbarred : barred.length = n)
    (hread : ∀ node < n, ∃ next, neighbors node = some next)
    (hsymm : ∀ a b, barred[a]? = some false → Passes neighbors barred a b →
      Passes neighbors barred b a)
    (horigin : visited[origin]? = some false) (hfree : barred[origin]? = some false) :
    ∃ last, ∃ members : List Nat,
      floodQueue neighbors barred n (startAt visited origin) = some last ∧
      Floods neighbors barred n last.visited (groups ++ [(origin, members)]) ∧
      last.left = members.length ∧ origin ∈ members := by
  have hlength := h.length
  subst hlength
  have hclosed : ∀ u v, visited[u]? = some true → Passes neighbors barred u v →
      visited[v]? = some true := by
    intro u v hu hpass
    obtain ⟨group, hgroup, hmem⟩ := List.mem_flatMap.mp ((h.marked u).mp hu)
    have hreach := (((h.members group hgroup).2 u).mp hmem).tail hpass
    exact (h.marked v).mpr
      (List.mem_flatMap.mpr ⟨group, hgroup, ((h.members group hgroup).2 v).mpr hreach⟩)
  obtain ⟨last, members, hlast, hnodup, -, hleft, hlen, hmarked, hmembers⟩ :=
    Flooding.exists_flood hbarred hread hclosed horigin
  -- A marked node that the origin reaches would reach the origin, too.
  have hback {v : Nat} (hreach : ReflTransGen (Passes neighbors barred) origin v) :
      barred[v]? = some false ∧ ReflTransGen (Passes neighbors barred) v origin := by
    induction hreach with
    | refl => exact ⟨hfree, .refl⟩
    | tail _ hpass ih =>
        obtain ⟨next, hnext, hmem, hfree⟩ := hpass
        exact ⟨hfree, .head (hsymm _ _ ih.1 ⟨next, hnext, hmem, hfree⟩) ih.2⟩
  have hstays {v : Nat} (hv : visited[v]? = some true) {w : Nat}
      (hreach : ReflTransGen (Passes neighbors barred) v w) : visited[w]? = some true := by
    induction hreach with
    | refl => exact hv
    | tail _ hpass ih => exact hclosed _ _ ih hpass
  have hnew {v : Nat} (hreach : ReflTransGen (Passes neighbors barred) origin v) :
      visited[v]? ≠ some true := by
    intro hv
    rw [hstays hv (hback hreach).2] at horigin
    exact absurd horigin (by simp)
  have hexact (v : Nat) : v ∈ members ↔ ReflTransGen (Passes neighbors barred) origin v :=
    (hmembers v).trans ⟨And.left, fun hreach => ⟨hreach, hnew hreach⟩⟩
  refine ⟨last, members, hlast, ⟨hlen, fun v => ?_, ?_, fun group hgroup => ?_⟩, hleft,
    (hexact origin).mpr .refl⟩
  · rw [hmarked, h.marked, List.flatMap_append, List.mem_append, List.flatMap_singleton]
  · rw [List.flatMap_append, List.flatMap_singleton]
    refine List.nodup_append.mpr ⟨h.nodup, hnodup, fun v hv w hw hsame => ?_⟩
    subst hsame
    exact ((hmembers v).mp hw).2 ((h.marked v).mpr hv)
  · obtain hgroup | hgroup := List.mem_append.mp hgroup
    · exact h.members group hgroup
    · obtain rfl := List.mem_singleton.mp hgroup
      exact ⟨hfree, hexact⟩

end M1nd.Library.Flooding
