import M1nd.Core.CausalChain
import M1nd.Core.Snapshot.Coherent
import M1nd.Library.BestFirst
import Mathlib.Algebra.Order.Ring.Rat

namespace M1nd.Core

open M1nd.Library.BestFirst
open M1nd.Library.Loops

variable {W F T : Type} [FiniteF32 W F] [ChainF32 F] {graph : Graph W T} {source : Nat}
  {detector : CausalChainDetector W} {slots : List Nat} {entry longer : ChainEntry F} {j : Nat}

section Paths

-- What the extension of a chain reads is there.
structure Graph.Causal (graph : Graph W T) : Prop where
  strengths : ∀ node, ∀ j ∈ graph.csr.outRange node,
    ∃ causal, graph.csr.causalStrengths[j]? = some causal
  targets : ∀ node, ∀ j ∈ graph.csr.outRange node, ∃ target, graph.csr.targets[j]? = some target
  relations : ∀ node, ∀ j ∈ graph.csr.outRange node,
    ∃ relation, graph.csr.relations[j]? = some relation

omit [ChainF32 F] in
theorem Graph.Coherent.causal [Zero W] (h : graph.Coherent F) : graph.Causal where
  strengths _ j hj := by
    have hlt := h.tabled.listed.mem_outRange_lt hj
    rw [← h.tabled.causalStrengths] at hlt
    exact ⟨_, List.getElem?_eq_getElem hlt⟩
  targets _ j hj := ⟨_, List.getElem?_eq_getElem (h.tabled.listed.mem_outRange_lt hj)⟩
  relations _ j hj := by
    have hlt := h.tabled.listed.mem_outRange_lt hj
    rw [← h.named.length] at hlt
    exact ⟨_, List.getElem?_eq_getElem hlt⟩

-- A slot along which a chain may go on, with the chain that it gives.
structure Graph.Extends (graph : Graph W T) (kept : F → Prop) (entry : ChainEntry F) (j : Nat)
    (longer : ChainEntry F) : Prop where
  slot : ∃ current, entry.path.getLast? = some current ∧ j ∈ graph.csr.outRange current
  extended : ∃ causal target relation,
    graph.csr.causalStrengths[j]? = some causal ∧ graph.csr.targets[j]? = some target ∧
    graph.csr.relations[j]? = some relation ∧ Float32.le (FiniteF32.get causal) 0 = false ∧
    target ∉ entry.path ∧ longer = {
      path := entry.path ++ [target]
      relations := entry.relations ++ [relation]
      cumulative := entry.cumulative * FiniteF32.get causal }
  kept : kept longer.cumulative

-- The simple paths along slots of positive causal strength, the last slot first. The strengths
-- of all that the path goes through are kept.
inductive Graph.CausalPath (graph : Graph W T) (kept : F → Prop) (source maxDepth : Nat) :
    List Nat → ChainEntry F → Prop
  | start (h : kept 1) : CausalPath graph kept source maxDepth [] (ChainEntry.start source)
  | step {slots : List Nat} {entry longer : ChainEntry F} {j : Nat}
      (hpath : CausalPath graph kept source maxDepth slots entry)
      (hdepth : slots.length < maxDepth) (hextends : graph.Extends kept entry j longer) :
      CausalPath graph kept source maxDepth (j :: slots) longer

variable {kept : F → Prop} {maxDepth : Nat}

theorem Graph.CausalPath.last_kept (h : graph.CausalPath kept source maxDepth slots entry) :
    kept entry.cumulative := by
  cases h with
  | start h => exact h
  | step _ _ hextends => exact hextends.kept

theorem Graph.Extends.length (h : graph.Extends kept entry j longer) :
    longer.path.length = entry.path.length + 1 := by
  obtain ⟨_, _, _, -, -, -, -, -, rfl⟩ := h.extended
  rw [List.length_append, List.length_singleton]

theorem Graph.CausalPath.length (h : graph.CausalPath kept source maxDepth slots entry) :
    entry.path.length = slots.length + 1 := by
  induction h with
  | start => rfl
  | step _ _ hextends ih => rw [hextends.length, ih, List.length_cons]

theorem Graph.Extends.unique {other : ChainEntry F} (h : graph.Extends kept entry j longer)
    (h' : graph.Extends kept entry j other) : longer = other := by
  obtain ⟨_, _, _, hcausal, htarget, hrelation, -, -, rfl⟩ := h.extended
  obtain ⟨_, _, _, hcausal', htarget', hrelation', -, -, rfl⟩ := h'.extended
  rw [Option.some.inj (hcausal.symm.trans hcausal'), Option.some.inj (htarget.symm.trans htarget'),
    Option.some.inj (hrelation.symm.trans hrelation')]

-- The slots determine the chain.
theorem Graph.CausalPath.unique {other : ChainEntry F}
    (h : graph.CausalPath kept source maxDepth slots entry)
    (h' : graph.CausalPath kept source maxDepth slots other) : entry = other := by
  induction h generalizing other with
  | start =>
      cases h'
      rfl
  | step _ _ hextends ih =>
      cases h' with
      | step hpath' _ hextends' =>
          obtain rfl := ih hpath'
          exact hextends.unique hextends'

end Paths

namespace CausalChainDetector

def Kept (detector : CausalChainDetector W) (cumulative : F) : Prop :=
  detector.tooWeak cumulative = false

section Extension

theorem extension_eq_some (detector : CausalChainDetector W) (hcausal : graph.Causal) {current : Nat}
    (hlast : entry.path.getLast? = some current) (hj : j ∈ graph.csr.outRange current) :
    ∃ found, detector.extension graph entry j = some found ∧
      ∀ longer, found = some longer ↔ graph.Extends detector.Kept entry j longer := by
  obtain ⟨causal, hstrength⟩ := hcausal.strengths current j hj
  obtain ⟨target, htarget⟩ := hcausal.targets current j hj
  obtain ⟨relation, hrelation⟩ := hcausal.relations current j hj
  have hread : ∀ longer, graph.Extends detector.Kept entry j longer →
      Float32.le (FiniteF32.get causal) 0 = false ∧ target ∉ entry.path ∧
      detector.tooWeak (entry.cumulative * FiniteF32.get causal) = false ∧ longer = {
        path := entry.path ++ [target]
        relations := entry.relations ++ [relation]
        cumulative := entry.cumulative * FiniteF32.get causal } := by
    intro longer h
    obtain ⟨_, _, _, hstrength', htarget', hrelation', hpos, hnew, hlonger⟩ := h.extended
    obtain rfl := Option.some.inj (hstrength.symm.trans hstrength')
    obtain rfl := Option.some.inj (htarget.symm.trans htarget')
    obtain rfl := Option.some.inj (hrelation.symm.trans hrelation')
    have hkept := h.kept
    rw [hlonger] at hkept
    exact ⟨hpos, hnew, hkept, hlonger⟩
  unfold extension
  rw [hstrength, htarget, hrelation]
  simp only [Option.bind_eq_bind, Option.bind_some, Option.map_some]
  split
  case isTrue hzero =>
    refine ⟨none, rfl, fun longer => ⟨nofun, fun h => ?_⟩⟩
    exact absurd hzero (Bool.eq_false_iff.mp (hread longer h).1)
  case isFalse hpos =>
    split
    case isTrue hold => exact ⟨none, rfl, fun longer => ⟨nofun, fun h => absurd hold (hread longer h).2.1⟩⟩
    case isFalse hnew =>
      split
      case isTrue hweak =>
        refine ⟨none, rfl, fun longer => ⟨nofun, fun h => ?_⟩⟩
        exact absurd hweak (Bool.eq_false_iff.mp (hread longer h).2.2.1)
      case isFalse hkept =>
        refine ⟨_, rfl, fun longer => ⟨fun h => ?_, fun h => ?_⟩⟩
        · obtain rfl := Option.some.inj h
          exact ⟨⟨current, hlast, hj⟩, ⟨causal, target, relation, hstrength, htarget, hrelation,
            Bool.eq_false_iff.mpr hpos, hnew, rfl⟩, Bool.eq_false_iff.mpr hkept⟩
        · rw [(hread longer h).2.2.2]

-- The chains that a chain goes on to, with their slots.
def branch (detector : CausalChainDetector W) (graph : Graph W T)
    (chain : List Nat × ChainEntry F) : List (List Nat × ChainEntry F) :=
  if detector.tooWeak chain.2.cumulative || detector.maxDepth < chain.2.path.length then []
  else ((chain.2.path.getLast?.map graph.csr.outRange).getD []).filterMap fun j =>
    (detector.extension graph chain.2 j).join.map fun longer => (j :: chain.1, longer)

theorem mem_branch (hcausal : graph.Causal) {chain next : List Nat × ChainEntry F} :
    next ∈ detector.branch graph chain ↔ detector.Kept chain.2.cumulative ∧
      chain.2.path.length ≤ detector.maxDepth ∧
        ∃ j, next.1 = j :: chain.1 ∧ graph.Extends detector.Kept chain.2 j next.2 := by
  unfold branch
  split
  case isTrue hstop =>
    refine ⟨nofun, fun ⟨hkept, hdepth, _⟩ => ?_⟩
    rw [Kept] at hkept
    rw [hkept, Bool.false_or, decide_eq_true_eq] at hstop
    exact absurd hdepth (not_le.mpr hstop)
  case isFalse hgo =>
    rw [Bool.or_eq_true, not_or, decide_eq_true_eq, not_lt, Bool.not_eq_true] at hgo
    rw [List.mem_filterMap]
    constructor
    · rintro ⟨j, hj, hnext⟩
      obtain ⟨longer, hlonger, rfl⟩ := Option.map_eq_some_iff.mp hnext
      cases hlast : chain.2.path.getLast? with
      | none =>
          rw [hlast] at hj
          exact absurd hj List.not_mem_nil
      | some current =>
          rw [hlast] at hj
          obtain ⟨found, hfound, hiff⟩ := extension_eq_some detector hcausal hlast hj
          rw [hfound] at hlonger
          exact ⟨hgo.1, hgo.2, j, rfl, (hiff longer).mp hlonger⟩
    · rintro ⟨-, -, j, hslots, hextends⟩
      obtain ⟨current, hlast, hj⟩ := hextends.slot
      obtain ⟨found, hfound, hiff⟩ := extension_eq_some detector hcausal hlast hj
      refine ⟨j, by rw [hlast]; exact hj, ?_⟩
      rw [hfound, (hiff next.2).mpr hextends]
      exact congrArg some (Prod.ext hslots.symm rfl)

-- The loop over the slots puts the branches of a chain on the heap.
theorem foldlM_extend (hcausal : graph.Causal) {current : Nat}
    (hlast : entry.path.getLast? = some current) (entries : List (ChainEntry F)) :
    (graph.csr.outRange current).foldlM (detector.extend graph entry) entries =
      some (entries ++ (graph.csr.outRange current).filterMap
        fun j => (detector.extension graph entry j).join) := by
  have hloop : ∀ items : List Nat, (∀ j ∈ items, j ∈ graph.csr.outRange current) → ∀ entries,
      items.foldlM (detector.extend graph entry) entries =
        some (entries ++ items.filterMap fun j => (detector.extension graph entry j).join) := by
    intro items hitems
    induction items with
    | nil => exact fun entries => congrArg some (List.append_nil entries).symm
    | cons j items ih =>
        intro entries
        obtain ⟨found, hfound, -⟩ :=
          extension_eq_some detector hcausal hlast (hitems j List.mem_cons_self)
        rw [List.foldlM_cons, extend, hfound, Option.map_some, Option.bind_eq_bind, Option.bind_some,
          ih fun i hi => hitems i (List.mem_cons_of_mem _ hi)]
        cases found with
        | none => rw [List.filterMap_cons_none (by rw [hfound]; rfl), Option.toList_none, List.append_nil]
        | some longer =>
            rw [List.filterMap_cons_some (b := longer) (by rw [hfound]; rfl), Option.toList_some,
              List.append_assoc, List.singleton_append]
  exact hloop _ (fun j hj => hj) entries

end Extension

section Tree

-- A search starts with the chain of the source alone.
def origin (source : Nat) : List Nat × ChainEntry F :=
  ([], ChainEntry.start source)

theorem reaches_iff (hcausal : graph.Causal) {chain : List Nat × ChainEntry F} :
    Reaches (detector.branch graph) (origin source) chain ↔ chain = origin source ∨
      graph.CausalPath detector.Kept source detector.maxDepth chain.1 chain.2 := by
  constructor
  · intro hreach
    induction hreach with
    | refl => exact .inl rfl
    | tail _ hchild ih =>
        obtain ⟨hkept, hdepth, j, hslots, hextends⟩ := (mem_branch hcausal).mp hchild
        rw [hslots]
        have hpath := ih.elim (fun horigin => by
          rw [horigin] at hkept ⊢
          exact Graph.CausalPath.start hkept) id
        rw [hpath.length] at hdepth
        exact .inr (.step hpath hdepth hextends)
  · rintro (rfl | hpath)
    · exact .refl
    · obtain ⟨slots, entry⟩ := chain
      dsimp only at hpath
      induction hpath with
      | start => exact .refl
      | step hpath hdepth hextends ih =>
          refine Relation.ReflTransGen.tail ih ((mem_branch hcausal).mpr ⟨hpath.last_kept, ?_, ?_⟩)
          · rw [hpath.length]
            exact hdepth
          · exact ⟨_, rfl, hextends⟩

theorem isTree (hcausal : graph.Causal) (source : Nat) :
    IsTree (detector.branch graph) (origin source : List Nat × ChainEntry F) where
  nodup chain := by
    unfold branch
    split
    · exact List.nodup_nil
    · refine List.Nodup.filterMap (fun i j next hi hj => ?_) ?_
      · obtain ⟨_, -, rfl⟩ := Option.map_eq_some_iff.mp hi
        obtain ⟨_, -, hsame⟩ := Option.map_eq_some_iff.mp hj
        exact (List.cons.inj (congrArg Prod.fst hsame)).1.symm
      · cases chain.2.path.getLast? with
        | none => exact List.nodup_nil
        | some current =>
            change (graph.csr.outRange current).Nodup
            unfold CsrGraph.outRange
            split
            · exact List.nodup_nil
            · exact List.nodup_range'
  unrooted chain hmem := by
    obtain ⟨-, -, j, hslots, -⟩ := (mem_branch hcausal).mp hmem
    exact List.cons_ne_nil _ _ hslots.symm
  parent x y z hx hy hzx hzy := by
    obtain ⟨hkept, -, j, hslots, -⟩ := (mem_branch hcausal).mp hzx
    obtain ⟨-, -, i, hslots', -⟩ := (mem_branch hcausal).mp hzy
    obtain ⟨-, hsame⟩ := List.cons.inj (hslots.symm.trans hslots')
    refine Prod.ext hsame ?_
    -- The origin is a path, too, since it is not too weak to go on from.
    have hpath : ∀ {chain : List Nat × ChainEntry F},
        Reaches (detector.branch graph) (origin source) chain → detector.Kept chain.2.cumulative →
          graph.CausalPath detector.Kept source detector.maxDepth chain.1 chain.2 := by
      intro chain hreach hkept
      obtain rfl | hpath := (reaches_iff hcausal).mp hreach
      · exact .start hkept
      · exact hpath
    have hkept' := ((mem_branch hcausal).mp hzy).1
    exact (hpath hx hkept).unique (hsame ▸ hpath hy hkept')

end Tree

section Search

variable {expanded frontier : List (List Nat × ChainEntry F)} {heap : ChainHeap F}

-- The chains that are recorded of what was expanded.
def recorded (detector : CausalChainDetector W) (expanded : List (List Nat × ChainEntry F)) :
    List (List Nat × ChainEntry F) :=
  expanded.filter fun chain =>
    !detector.tooWeak chain.2.cumulative && decide (1 < chain.2.path.length)

-- Along edges of strength at most one no chain gains strength.
def Above (chain other : List Nat × ChainEntry F) : Prop :=
  ChainF32.totalLe other.2.cumulative chain.2.cumulative

-- What a search comes to.
structure Comes (detector : CausalChainDetector W) (graph : Graph W T) (source : Nat)
    (found : ChainSearch W) (expanded frontier : List (List Nat × ChainEntry F)) : Prop where
  explored : Explored (detector.branch graph) (origin source) expanded frontier
  chains : found.chains = (detector.recorded expanded).map fun chain => chain.2.toChain
  exhausted : found.exhausted = false → frontier = []

theorem branch_eq_nil {chain : List Nat × ChainEntry F}
    (h : detector.tooWeak chain.2.cumulative = true ∨ detector.maxDepth < chain.2.path.length) :
    detector.branch graph chain = [] := by
  rw [branch, if_pos]
  simpa using h

theorem map_branch {chain : List Nat × ChainEntry F} {current : Nat}
    (hkept : detector.tooWeak chain.2.cumulative = false)
    (hdepth : ¬ detector.maxDepth < chain.2.path.length)
    (hlast : chain.2.path.getLast? = some current) :
    (detector.branch graph chain).map Prod.snd = (graph.csr.outRange current).filterMap
      fun j => (detector.extension graph chain.2 j).join := by
  rw [branch, hkept, Bool.false_or, decide_eq_false hdepth, if_neg Bool.false_ne_true, hlast,
    List.map_filterMap]
  refine congrArg (fun f => List.filterMap f _) (funext fun j => ?_)
  rw [Option.map_map]
  exact Option.map_id'

omit [ChainF32 F] in
-- The heap has taken out the chain of a node of the frontier.
theorem exists_popped {entry : ChainEntry F} {rest : List (ChainEntry F)}
    (h : (entry :: rest).Perm (frontier.map Prod.snd)) : ∃ chain others,
      frontier.Perm (chain :: others) ∧ chain.2 = entry ∧ rest.Perm (others.map Prod.snd) := by
  obtain ⟨chain, hchain, rfl⟩ := List.mem_map.mp (h.mem_iff.mp List.mem_cons_self)
  obtain ⟨before, behind, rfl⟩ := List.append_of_mem hchain
  refine ⟨chain, before ++ behind, List.perm_middle, rfl, ?_⟩
  exact (h.trans (List.perm_middle.map Prod.snd)).cons_inv

theorem recorded_append_of_weak (expanded : List (List Nat × ChainEntry F))
    {chain : List Nat × ChainEntry F} (hweak : detector.tooWeak chain.2.cumulative = true) :
    detector.recorded (expanded ++ [chain]) = detector.recorded expanded := by
  rw [recorded, List.filter_append, List.filter_cons, hweak]
  exact List.append_nil _

theorem map_recorded_append (detector : CausalChainDetector W)
    (expanded : List (List Nat × ChainEntry F))
    {chain : List Nat × ChainEntry F} (hkept : detector.tooWeak chain.2.cumulative = false) :
    (detector.recorded (expanded ++ [chain])).map (fun chain => chain.2.toChain (W := W)) =
      if 1 < chain.2.path.length then
        (detector.recorded expanded).map (fun chain => chain.2.toChain) ++ [chain.2.toChain]
      else (detector.recorded expanded).map fun chain => chain.2.toChain := by
  rw [recorded, List.filter_append, List.map_append, List.filter_cons, hkept, Bool.not_false,
    Bool.true_and]
  by_cases hlong : 1 < chain.2.path.length
  · rw [if_pos hlong, if_pos (decide_eq_true hlong)]
    rfl
  · rw [if_neg hlong, if_neg (by simpa using hlong)]
    exact List.append_nil _

theorem exists_search (hcausal : graph.Causal) (heap : ChainHeap F) (budget : Nat)
    {entries : List (ChainEntry F)} {chains : List (CausalChain W)}
    (hexplored : Explored (detector.branch graph) (origin source) expanded frontier)
    (hentries : entries.Perm (frontier.map Prod.snd))
    (hchains : chains = (detector.recorded expanded).map fun chain => chain.2.toChain) :
    ∃ found expanded' frontier', detector.search heap graph budget entries chains = some found ∧
      detector.Comes graph source found expanded' frontier' ∧
      ((∀ a b, Reaches (detector.branch graph) (origin source) a → b ∈ detector.branch graph a →
        Above a b) → Ordered Above expanded frontier → Ordered Above expanded' frontier') := by
  induction budget generalizing expanded frontier entries chains with
  | zero =>
      unfold search
      cases hpop : heap.pop entries with
      | none =>
          obtain rfl := (heap.pop_none entries).mp hpop
          obtain rfl := List.map_eq_nil_iff.mp (List.nil_perm.mp hentries)
          exact ⟨_, expanded, [], rfl, ⟨hexplored, hchains, fun _ => rfl⟩, fun _ h => h⟩
      | some popped => exact ⟨_, expanded, frontier, rfl, ⟨hexplored, hchains, nofun⟩, fun _ h => h⟩
  | succ budget ih =>
      unfold search
      cases hpop : heap.pop entries with
      | none =>
          obtain rfl := (heap.pop_none entries).mp hpop
          obtain rfl := List.map_eq_nil_iff.mp (List.nil_perm.mp hentries)
          exact ⟨_, expanded, [], rfl, ⟨hexplored, hchains, fun _ => rfl⟩, fun _ h => h⟩
      | some popped =>
          obtain ⟨entry, rest⟩ := popped
          obtain ⟨chain, others, hfrontier, rfl, hrest⟩ :=
            exists_popped ((heap.pop_perm entries entry rest hpop).symm.trans hentries)
          have hchain : Reaches (detector.branch graph) (origin source) chain :=
            hexplored.reached chain
              (List.mem_append_right _ (hfrontier.mem_iff.mpr List.mem_cons_self))
          have hnext := (hexplored.perm hfrontier).expand (isTree hcausal source)
          have hordered : (∀ a b, Reaches (detector.branch graph) (origin source) a →
              b ∈ detector.branch graph a → Above a b) → Ordered Above expanded frontier →
                Ordered Above (expanded ++ [chain]) (others ++ detector.branch graph chain) := by
            intro hbelow hold
            refine Ordered.expand (fun x hx y hy => hold x hx y (hfrontier.mem_iff.mpr hy)) ?_ ?_ ?_
            · exact fun a b c hab hbc => ChainF32.totalLe_trans _ _ _ hbc hab
            · intro y hy
              exact heap.pop_max entries chain.2 rest hpop y.2
                (hrest.mem_iff.mpr (List.mem_map_of_mem hy))
            · exact fun y hy => hbelow chain y hchain hy
          dsimp only
          by_cases hkept : detector.tooWeak chain.2.cumulative = true
          · rw [if_pos hkept]
            rw [branch_eq_nil (.inl hkept), List.append_nil] at hnext hordered
            rw [← recorded_append_of_weak expanded hkept] at hchains
            obtain ⟨found, expanded', frontier', hfound, hcomes, hlast⟩ := ih hnext hrest hchains
            exact ⟨found, expanded', frontier', hfound, hcomes,
              fun hbelow hold => hlast hbelow (hordered hbelow hold)⟩
          · rw [if_neg hkept]
            rw [Bool.not_eq_true] at hkept
            have hpath : chain.2.path ≠ [] := by
              rw [← List.length_pos_iff]
              obtain rfl | hpath := (reaches_iff hcausal).mp hchain
              · exact Nat.one_pos
              · rw [hpath.length]
                exact Nat.succ_pos _
            have hcurrent := List.getLast?_eq_some_getLast hpath
            have hchains' := map_recorded_append detector expanded hkept
            rw [← hchains] at hchains'
            rw [hcurrent, Option.bind_eq_bind, Option.bind_some]
            by_cases hdepth : detector.maxDepth < chain.2.path.length
            · rw [branch_eq_nil (.inr hdepth), List.append_nil] at hnext hordered
              obtain ⟨found, expanded', frontier', hfound, hcomes, hlast⟩ :=
                ih hnext hrest hchains'.symm
              refine ⟨found, expanded', frontier', ?_, hcomes,
                fun hbelow hold => hlast hbelow (hordered hbelow hold)⟩
              rw [if_pos hdepth]
              exact hfound
            · have hentries' := hrest.append_right ((detector.branch graph chain).map Prod.snd)
              rw [← List.map_append] at hentries'
              obtain ⟨found, expanded', frontier', hfound, hcomes, hlast⟩ :=
                ih hnext hentries' hchains'.symm
              refine ⟨found, expanded', frontier', ?_, hcomes,
                fun hbelow hold => hlast hbelow (hordered hbelow hold)⟩
              rw [if_neg hdepth, foldlM_extend hcausal hcurrent, ← map_branch hkept hdepth hcurrent]
              exact hfound

end Search

section Strengths

def AtMostOne (graph : Graph W T) : Prop :=
  ∀ causal ∈ graph.csr.causalStrengths, Float32.le (FiniteF32.get causal) 1 = true

theorem extends_totalLe (hone : AtMostOne graph) {kept : F → Prop}
    (hzero : ChainF32.totalLe 0 entry.cumulative) (hunit : ChainF32.totalLe entry.cumulative 1)
    (hextends : graph.Extends kept entry j longer) :
    ChainF32.totalLe 0 longer.cumulative ∧
      ChainF32.totalLe longer.cumulative entry.cumulative := by
  obtain ⟨causal, _, _, hcausal, -, -, hpos, -, rfl⟩ := hextends.extended
  have hle := hone causal (List.mem_of_getElem? hcausal)
  exact ⟨ChainF32.zero_totalLe_mul _ _ hzero hunit hpos hle,
    ChainF32.mul_totalLe _ _ hzero hunit hpos hle⟩

-- Then the strength of a chain stays between zero and one.
theorem path_totalLe (hone : AtMostOne graph) {kept : F → Prop} {maxDepth : Nat}
    (hpath : graph.CausalPath kept source maxDepth slots entry) :
    ChainF32.totalLe 0 entry.cumulative ∧ ChainF32.totalLe entry.cumulative 1 := by
  induction hpath with
  | start => exact ⟨ChainF32.zero_totalLe_one, ChainF32.totalLe_refl 1⟩
  | step _ _ hextends ih =>
      obtain ⟨hzero, hle⟩ := extends_totalLe hone ih.1 ih.2 hextends
      exact ⟨hzero, ChainF32.totalLe_trans _ _ _ hle ih.2⟩

theorem above_branch (hcausal : graph.Causal) (hone : AtMostOne graph)
    {chain next : List Nat × ChainEntry F}
    (hreach : Reaches (detector.branch graph) (origin source) chain)
    (hnext : next ∈ detector.branch graph chain) : Above chain next := by
  obtain ⟨-, -, j, -, hextends⟩ := (mem_branch hcausal).mp hnext
  obtain rfl | hpath := (reaches_iff hcausal).mp hreach
  · exact (extends_totalLe hone ChainF32.zero_totalLe_one (ChainF32.totalLe_refl 1) hextends).2
  · obtain ⟨hzero, hunit⟩ := path_totalLe hone hpath
    exact (extends_totalLe hone hzero hunit hextends).2

end Strengths

section Detect

theorem mem_recorded (hcausal : graph.Causal)
    {expanded frontier : List (List Nat × ChainEntry F)}
    (hexplored : Explored (detector.branch graph) (origin source) expanded frontier)
    {chain : List Nat × ChainEntry F} : chain ∈ detector.recorded expanded ↔ chain ∈ expanded ∧
      chain.1 ≠ [] ∧ graph.CausalPath detector.Kept source detector.maxDepth chain.1 chain.2 := by
  rw [recorded, List.mem_filter, Bool.and_eq_true, Bool.not_eq_true', decide_eq_true_eq]
  refine and_congr_right fun hmem => ?_
  have hreach := (reaches_iff hcausal).mp (hexplored.reached chain (List.mem_append_left _ hmem))
  constructor
  · rintro ⟨hkept, hlong⟩
    obtain rfl | hpath := hreach
    · exact absurd hlong (lt_irrefl 1)
    · rw [hpath.length, Nat.lt_add_left_iff_pos, List.length_pos_iff] at hlong
      exact ⟨hlong, hpath⟩
  · rintro ⟨hslots, hpath⟩
    rw [hpath.length, Nat.lt_add_left_iff_pos, List.length_pos_iff]
    exact ⟨hpath.last_kept, hslots⟩

variable [Zero W]

-- A search that is not cut off finds the simple paths of the source through chains that are all
-- strong enough. One that is cut off has left out none that is stronger than one it has found,
-- when no slot has a strength above one.
theorem detect_exact (detector : CausalChainDetector W) (heap : ChainHeap F)
    (edits : List (GraphEdit W T)) (source : Nat) :
    let graph := GraphEdit.run edits
    if graph.numNodes ≤ source then detector.detect heap graph source = some []
    else ∃ (found : ChainSearch W) (expanded : List (List Nat × ChainEntry F))
        (chains : List (CausalChain W)),
      detector.search heap graph detector.chainBudget [ChainEntry.start source] [] = some found ∧
      detector.detect heap graph source = some chains ∧
      chains.Perm (expanded.map fun chain => chain.2.toChain) ∧ expanded.Nodup ∧
      (∀ chain ∈ expanded, chain.1 ≠ [] ∧
        graph.CausalPath detector.Kept source detector.maxDepth chain.1 chain.2) ∧
      (found.exhausted = false → ∀ slots entry, slots ≠ [] →
        graph.CausalPath detector.Kept source detector.maxDepth slots entry →
          (slots, entry) ∈ expanded) ∧
      (found.exhausted = true → AtMostOne graph → ∀ slots entry, slots ≠ [] →
        graph.CausalPath detector.Kept source detector.maxDepth slots entry →
          (slots, entry) ∉ expanded → ∀ chain ∈ expanded,
            ChainF32.totalLe entry.cumulative chain.2.cumulative) := by
  intro graph
  have hcoherent : graph.Coherent F := GraphEdit.coherent_run F edits
  have hcausal := hcoherent.causal
  by_cases hsource : graph.numNodes ≤ source
  · rw [if_pos hsource, detect, if_pos hsource]
  · rw [if_neg hsource]
    have hnone : ([] : List (CausalChain W)) =
      (detector.recorded []).map fun chain : List Nat × ChainEntry F => chain.2.toChain := rfl
    obtain ⟨found, expanded, frontier, hfound, hcomes, hordered⟩ :=
      exists_search hcausal heap detector.chainBudget (explored_root _ (origin source))
        (List.Perm.refl [ChainEntry.start source]) hnone
    have hmem : ∀ {chain : List Nat × ChainEntry F}, chain ∈ detector.recorded expanded ↔
        chain ∈ expanded ∧ chain.1 ≠ [] ∧
          graph.CausalPath detector.Kept source detector.maxDepth chain.1 chain.2 :=
      mem_recorded hcausal hcomes.explored
    refine ⟨found, detector.recorded expanded, found.chains.mergeSort stronger, hfound, ?_, ?_, ?_,
      fun chain hchain => (hmem.mp hchain).2, fun hexhausted slots entry hslots hpath => ?_,
      fun _ hone slots entry hslots hpath hnew chain hchain => ?_⟩
    · rw [detect, if_neg hsource, hfound, Option.map_some]
    · rw [← hcomes.chains]
      exact List.mergeSort_perm _ _
    · exact (List.nodup_append.mp hcomes.explored.nodup).1.filter _
    · have hexplored := hcomes.explored
      rw [hcomes.exhausted hexhausted] at hexplored
      exact hmem.mpr ⟨hexplored.mem_iff.mpr ((reaches_iff hcausal).mpr (.inr hpath)), hslots, hpath⟩
    · have hbest := hordered (fun a b hreach hb => above_branch hcausal hone hreach hb) nofun
      have hout : (slots, entry) ∉ expanded := fun hin => hnew (hmem.mpr ⟨hin, hslots, hpath⟩)
      exact hbest.above_unexpanded hcomes.explored (fun _ => ChainF32.totalLe_refl _)
        (fun a b c hab hbc => ChainF32.totalLe_trans _ _ _ hbc hab)
        (fun a b hreach hb => above_branch hcausal hone hreach hb)
        ((reaches_iff hcausal).mpr (.inr hpath)) hout (hmem.mp hchain).1

end Detect

section Pruned

instance exactChain : ChainF32 Rat where
  totalLe x y := decide (x ≤ y)
  totalLe_refl x := decide_eq_true le_rfl
  totalLe_trans x y z hxy hyz :=
    decide_eq_true ((of_decide_eq_true hxy).trans (of_decide_eq_true hyz))
  zero_totalLe_one := by decide +kernel
  zero_totalLe_mul x c hx _ hc _ :=
    decide_eq_true (mul_nonneg (of_decide_eq_true hx) (not_le.mp (of_decide_eq_false hc)).le)
  mul_totalLe x c hx _ _ hc :=
    decide_eq_true (mul_le_of_le_one_right (of_decide_eq_true hx) (of_decide_eq_true hc))

-- Of entries of one strength the first is taken out.
def popFirst : List (ChainEntry Rat) → Option (ChainEntry Rat × List (ChainEntry Rat))
  | [] => none
  | entry :: entries =>
      match popFirst entries with
      | none => some (entry, entries)
      | some (best, rest) =>
          if best.cumulative ≤ entry.cumulative then some (entry, entries)
          else some (best, entry :: rest)

theorem popFirst_spec (entries : List (ChainEntry Rat)) : match popFirst entries with
    | none => entries = []
    | some (best, rest) => entries.Perm (best :: rest) ∧
        ∀ other ∈ rest, other.cumulative ≤ best.cumulative := by
  induction entries with
  | nil => rfl
  | cons entry entries ih =>
      unfold popFirst
      cases hpop : popFirst entries with
      | none =>
          rw [hpop] at ih
          obtain rfl := ih
          exact ⟨List.Perm.refl _, nofun⟩
      | some popped =>
          obtain ⟨best, rest⟩ := popped
          rw [hpop] at ih
          obtain ⟨hperm, hmax⟩ := ih
          dsimp only
          split
          case h_1 hnone => split at hnone <;> exact absurd hnone nofun
          case h_2 first others hsome =>
            split at hsome
            case isTrue hle =>
              obtain ⟨rfl, rfl⟩ := Prod.mk.inj (Option.some.inj hsome)
              refine ⟨List.Perm.refl _, fun other hother => ?_⟩
              obtain rfl | hother := List.mem_cons.mp (hperm.mem_iff.mp hother)
              · exact hle
              · exact (hmax other hother).trans hle
            case isFalse hlt =>
              obtain ⟨rfl, rfl⟩ := Prod.mk.inj (Option.some.inj hsome)
              refine ⟨(hperm.cons entry).trans (List.Perm.swap _ _ _), fun other hother => ?_⟩
              obtain rfl | hother := List.mem_cons.mp hother
              · exact (not_le.mp hlt).le
              · exact hmax other hother

def exactHeap : ChainHeap Rat where
  pop := popFirst
  pop_none entries := by
    have hspec := popFirst_spec entries
    refine ⟨fun hnone => ?_, fun hempty => hempty ▸ rfl⟩
    rw [hnone] at hspec
    exact hspec
  pop_perm entries entry rest hsome := by
    have hspec := popFirst_spec entries
    rw [hsome] at hspec
    exact hspec.1
  pop_max entries entry rest hsome other hother := by
    have hspec := popFirst_spec entries
    rw [hsome] at hspec
    exact decide_eq_true (hspec.2 other hother)

-- A weak slot leads to a strong one.
def recovering : List (GraphEdit Rat Nat) :=
  [.operate (.addNode "a" "a" .File [] 0 0), .operate (.addNode "b" "b" .File [] 0 0),
    .operate (.addNode "c" "c" .File [] 0 0),
    .operate (.addEdge 0 1 "calls" 1 .Forward false (1 / 2)),
    .operate (.addEdge 1 2 "calls" 1 .Forward false 2)]

theorem recovering_pruned :
    let graph := GraphEdit.run (recovering ++ [.operate .finalize])
    let detector : CausalChainDetector Rat := ⟨4, 3 / 5, 1000⟩
    ∃ slots entry, detector.search exactHeap graph detector.chainBudget [ChainEntry.start 0] [] =
        some ⟨[], false⟩ ∧ detector.detect exactHeap graph 0 = some [] ∧
      graph.CausalPath (fun _ => True) 0 detector.maxDepth slots entry ∧ slots ≠ [] ∧
      detector.tooWeak entry.cumulative = false := by
  intro graph detector
  have hedges : graph = (GraphEdit.run recovering).rebuildCsr := rfl
  have hsorted : placements (GraphEdit.run recovering).csr.pendingEdges = _ :=
    placements_of_sorted (by decide +kernel)
  have hsearch : detector.search exactHeap graph detector.chainBudget [ChainEntry.start 0] [] =
      some ⟨[], false⟩ := by
    rw [hedges, Graph.rebuildCsr, hsorted]
    decide +kernel
  have hnodes : ¬ graph.numNodes ≤ 0 := by decide +kernel
  have hranges : graph.csr.outRange 0 = [0] ∧ graph.csr.outRange 1 = [1] := by
    rw [hedges, Graph.rebuildCsr, hsorted]
    decide +kernel
  have hslots : graph.csr.targets = [1, 2] ∧ graph.csr.causalStrengths = [1 / 2, 2] ∧
      graph.csr.relations = [3, 3] := by
    rw [hedges, Graph.rebuildCsr, hsorted]
    decide +kernel
  obtain ⟨htargets, hstrengths, hrelations⟩ := hslots
  have hfirst : graph.Extends (fun _ => True) (ChainEntry.start 0) 0
      ⟨[0, 1], [3], 1 * (1 / 2 : Rat)⟩ := by
    refine ⟨⟨0, rfl, hranges.1 ▸ List.mem_cons_self⟩, ⟨1 / 2, 1, 3, ?_, ?_, ?_, ?_, ?_, rfl⟩, trivial⟩
    · rw [hstrengths]; rfl
    · rw [htargets]; rfl
    · rw [hrelations]; rfl
    · decide +kernel
    · decide
  have hsecond : graph.Extends (fun _ => True) ⟨[0, 1], [3], 1 * (1 / 2 : Rat)⟩ 1
      ⟨[0, 1, 2], [3, 3], 1 * (1 / 2) * 2⟩ := by
    refine ⟨⟨1, rfl, hranges.2 ▸ List.mem_cons_self⟩, ⟨2, 2, 3, ?_, ?_, ?_, ?_, ?_, rfl⟩, trivial⟩
    · rw [hstrengths]; rfl
    · rw [htargets]; rfl
    · rw [hrelations]; rfl
    · decide +kernel
    · decide
  refine ⟨[1, 0], _, hsearch, ?_, .step (.step (.start trivial) (by decide) hfirst) (by decide)
    hsecond, by decide, by decide +kernel⟩
  rw [detect, if_neg hnodes, hsearch, Option.map_some, List.mergeSort_nil]

end Pruned

end CausalChainDetector

end M1nd.Core
