import M1nd.Core.Plasticity.Identity

namespace M1nd.Core

open M1nd.Library.Checks

variable {W F T : Type} [FiniteF32 W F]

section Resolve

variable [DecidableEq W] {graph : Graph W T} {keys rowKeys : List (Option FullKey)} {key : FullKey}
  {state : SynapticState F} {cursor : FullKey → Nat} {i j owner : Nat}

-- The slots of an identity can be bound to rows in their order.
def interchangeable (graph : Graph W T) (keys : List (Option FullKey)) (key : FullKey) : Bool :=
  !(1 < (fullSlots keys key).length &&
    !parallelSlotsAreInterchangeable graph (fullSlots keys key))

-- A row with this complete identity.
structure SynapticState.HasKey (W : Type) [FiniteF32 W F] (state : SynapticState F)
    (key : FullKey) : Prop where
  triple : state.triple = key.triple
  direction : state.direction = some key.direction
  inhibitory : state.inhibitory = some key.inhibitory
  known : key.direction ≤ 1
  finite : FiniteF32.isFinite W state.originalWeight = true

-- A row is for the next slot of its identity.
theorem resolveSynapse_complete (h : state.HasKey W key)
    (howner : (fullSlots keys key)[cursor key]? = some owner) :
    resolveSynapse graph keys cursor state =
      .ok (if interchangeable graph keys key then some owner else none,
        Function.update cursor key (cursor key + 1)) := by
  have hkey : (⟨⟨state.sourceLabel, state.targetLabel, state.relation⟩, key.direction,
      key.inhibitory⟩ : FullKey) = key := by
    have htriple := h.triple
    rw [SynapticState.triple] at htriple
    rw [htriple]
  have hempty : ¬ (fullSlots keys key).isEmpty = true := by
    rw [List.isEmpty_iff]
    intro hnil
    rw [hnil] at howner
    exact absurd howner (by simp)
  unfold resolveSynapse
  rw [h.direction, h.inhibitory]
  dsimp only
  rw [hkey, if_neg (Nat.not_lt.mpr h.known), if_neg hempty, interchangeable]
  split
  · rename_i hdiffer
    rw [hdiffer]
    rfl
  · rename_i hsame
    rw [howner, Bool.eq_false_iff.mpr hsame]
    rfl

-- The slot that stands in `keys` where the slot `i` stands among those of its identity.
def matchedSlot (keys rowKeys : List (Option FullKey)) (i : Nat) : Option Nat :=
  (rowKeys.getD i none).bind fun key => (fullSlots keys key)[(rowKeys.take i).count (some key)]?

theorem matchedSlot_eq (hi : rowKeys[i]? = some (some key)) :
    matchedSlot keys rowKeys i = (fullSlots keys key)[(rowKeys.take i).count (some key)]? := by
  rw [matchedSlot, List.getD_eq_getElem?_getD, hi]
  rfl

theorem exists_key_of_matchedSlot (h : matchedSlot keys rowKeys i = some owner) :
    ∃ key, rowKeys[i]? = some (some key) ∧
      (fullSlots keys key)[(rowKeys.take i).count (some key)]? = some owner := by
  obtain ⟨key, hkey, howner⟩ := Option.bind_eq_some_iff.mp h
  refine ⟨key, ?_, howner⟩
  rw [List.getD_eq_getElem?_getD] at hkey
  cases hi : rowKeys[i]? with
  | none =>
      rw [hi] at hkey
      exact absurd hkey nofun
  | some found =>
      rw [hi] at hkey
      exact congrArg some hkey

-- Two rows are not for one slot.
theorem matchedSlot_inj (h : matchedSlot keys rowKeys i = some owner)
    (h' : matchedSlot keys rowKeys j = some owner) : i = j := by
  obtain ⟨key, hi, howner⟩ := exists_key_of_matchedSlot h
  obtain ⟨key', hj, howner'⟩ := exists_key_of_matchedSlot h'
  obtain ⟨hkey, hcount⟩ := getElem?_fullSlots.mp howner
  obtain ⟨hkey', hcount'⟩ := getElem?_fullSlots.mp howner'
  rw [hkey] at hkey'
  obtain rfl := Option.some.inj (Option.some.inj hkey')
  have hi' := getElem?_fullSlots.mpr ⟨hi, hcount.symm⟩
  have hj' := getElem?_fullSlots.mpr ⟨hj, hcount'.symm⟩
  rw [hi'] at hj'
  exact Option.some.inj hj'

-- With the same labels every slot has its counterpart.
theorem exists_matchedSlot (hperm : keys.Perm rowKeys) (hi : rowKeys[i]? = some (some key)) :
    ∃ owner, matchedSlot keys rowKeys i = some owner := by
  have hlt : (rowKeys.take i).count (some key) < (fullSlots keys key).length := by
    rw [length_fullSlots keys, hperm.count_eq, ← length_fullSlots rowKeys]
    exact (List.getElem?_eq_some_iff.mp (getElem?_fullSlots.mpr ⟨hi, rfl⟩)).1
  rw [matchedSlot_eq hi]
  exact ⟨_, List.getElem?_eq_getElem hlt⟩

theorem exists_matched_row (hperm : keys.Perm rowKeys) (hj : keys[j]? = some (some key)) :
    ∃ i, rowKeys[i]? = some (some key) ∧ matchedSlot keys rowKeys i = some j := by
  obtain ⟨i, hi⟩ := exists_matchedSlot hperm.symm hj
  rw [matchedSlot_eq hj] at hi
  obtain ⟨hkey, hcount⟩ := getElem?_fullSlots.mp hi
  refine ⟨i, hkey, ?_⟩
  rw [matchedSlot_eq hkey]
  exact getElem?_fullSlots.mpr ⟨hj, hcount.symm⟩

end Resolve

section Rows

variable [DecidableEq W] {graph : Graph W T} {keys rowKeys : List (Option FullKey)} {rows : List (SynapticState F)}

-- The rows are those of the slots with these labels, in the order of the slots.
structure Labels (W : Type) [FiniteF32 W F] (rows : List (SynapticState F))
    (rowKeys : List (Option FullKey)) : Prop where
  length : rows.length = rowKeys.length
  complete : ∀ (i : Nat) (row : SynapticState F), rows[i]? = some row →
    ∃ key, rowKeys[i]? = some (some key) ∧ row.HasKey W key

-- What is restored of a row.
def plannedAt (graph : Graph W T) (keys rowKeys : List (Option FullKey))
    (rows : List (SynapticState F)) (i : Nat) : Option (RestorePlan F) := do
  let row ← rows[i]?
  let key ← rowKeys.getD i none
  let slot ← matchedSlot keys rowKeys i
  if interchangeable graph keys key then some (row.planAt W slot) else none

theorem plannedAt_eq {i slot : Nat} {row : SynapticState F} {key : FullKey}
    (hrow : rows[i]? = some row) (hkey : rowKeys[i]? = some (some key))
    (hslot : matchedSlot keys rowKeys i = some slot) :
    plannedAt graph keys rowKeys rows i =
      if interchangeable graph keys key then some (row.planAt W slot) else none := by
  rw [plannedAt, hrow, List.getD_eq_getElem?_getD, hkey, hslot]
  rfl

theorem plan_of_plannedAt {i : Nat} {plan : RestorePlan F}
    (h : plannedAt graph keys rowKeys rows i = some plan) :
    matchedSlot keys rowKeys i = some plan.slot ∧
      ∃ key, rowKeys.getD i none = some key ∧ interchangeable graph keys key = true := by
  simp only [plannedAt, Option.bind_eq_bind, Option.bind_eq_some_iff] at h
  obtain ⟨row, -, key, hkey, slot, hslot, hplan⟩ := h
  split at hplan
  · rename_i hsame
    obtain rfl := Option.some.inj hplan
    exact ⟨hslot, key, hkey, hsame⟩
  · exact absurd hplan nofun

-- The cursors have moved on by the rows read so far, and the plans are those of these rows.
structure Importing.Matches (graph : Graph W T) (keys rowKeys : List (Option FullKey))
    (rows : List (SynapticState F)) (done : Nat) (importing : Importing F) : Prop where
  cursor : ∀ key, importing.cursor key = (rowKeys.take done).count (some key)
  plans : importing.plans = (List.range done).filterMap (plannedAt graph keys rowKeys rows)
  selected : ∀ slot ∈ importing.selected, ∃ i < done, matchedSlot keys rowKeys i = some slot

theorem Importing.Matches.planSynapse {importing : Importing F} {done : Nat}
    (h : importing.Matches graph keys rowKeys rows done) (hlabels : Labels W rows rowKeys)
    (hperm : keys.Perm rowKeys) {row : SynapticState F} (hrow : rows[done]? = some row) :
    ∃ next, M1nd.Core.planSynapse graph keys importing row = .ok next ∧
      next.Matches graph keys rowKeys rows (done + 1) := by
  obtain ⟨key, hkey, hcomplete⟩ := hlabels.complete done row hrow
  obtain ⟨owner, howner⟩ := exists_matchedSlot hperm hkey
  have hnext : (fullSlots keys key)[importing.cursor key]? = some owner := by
    rw [h.cursor key, ← matchedSlot_eq hkey, howner]
  have hresolve : resolveSynapse graph keys importing.cursor row = _ :=
    resolveSynapse_complete hcomplete hnext
  have hcursor : ∀ other, Function.update importing.cursor key (importing.cursor key + 1) other =
      (rowKeys.take (done + 1)).count (some other) := by
    intro other
    rw [List.take_add_one, hkey, List.count_append, Function.update_apply, h.cursor, h.cursor]
    by_cases he : other = key
    · subst he
      simp
    · have hne : ¬ key = other := fun heq => he heq.symm
      simp [he, hne]
  have hplanned : plannedAt graph keys rowKeys rows done = _ := plannedAt_eq hrow hkey howner
  have hfresh : ∀ slot ∈ (if interchangeable graph keys key then some owner else none),
      slot ∉ importing.selected := by
    intro slot hslot hmem
    split at hslot
    · obtain rfl := Option.some.inj hslot
      obtain ⟨i, hi, hmatched⟩ := h.selected _ hmem
      exact Nat.ne_of_lt hi (matchedSlot_inj hmatched howner)
    · exact absurd hslot nofun
  refine ⟨_, planSynapse_eq_ok.mpr ⟨hcomplete.finite, _, _, hresolve, hfresh, rfl⟩, ?_⟩
  have hearlier : ∀ slot ∈ importing.selected,
      ∃ i < done + 1, matchedSlot keys rowKeys i = some slot := by
    intro slot hslot
    obtain ⟨i, hi, hmatched⟩ := h.selected slot hslot
    exact ⟨i, Nat.lt_succ_of_lt hi, hmatched⟩
  by_cases hsame : interchangeable graph keys key = true
  · rw [if_pos hsame] at hplanned ⊢
    refine ⟨hcursor, ?_, fun slot hslot => ?_⟩
    · rw [List.range_succ, List.filterMap_append, ← h.plans, List.filterMap_cons_some hplanned]
      rfl
    · obtain rfl | hslot := List.mem_cons.mp hslot
      · exact ⟨done, Nat.lt_succ_self done, howner⟩
      · exact hearlier slot hslot
  · rw [if_neg hsame] at hplanned ⊢
    refine ⟨hcursor, ?_, hearlier⟩
    rw [List.range_succ, List.filterMap_append, ← h.plans, List.filterMap_cons_none hplanned]
    exact (List.append_nil _).symm

theorem foldlM_matches (graph : Graph W T) (hlabels : Labels W rows rowKeys) (hperm : keys.Perm rowKeys) :
    ∃ importing, rows.foldlM (planSynapse graph keys) ⟨fun _ => 0, [], []⟩ = .ok importing ∧
      importing.Matches graph keys rowKeys rows rows.length := by
  have hprefix : ∀ done ≤ rows.length, ∃ importing,
      (rows.take done).foldlM (planSynapse graph keys) ⟨fun _ => 0, [], []⟩ = .ok importing ∧
        importing.Matches graph keys rowKeys rows done := by
    intro done hdone
    induction done with
    | zero => exact ⟨_, rfl, fun _ => rfl, rfl, nofun⟩
    | succ done ih =>
        obtain ⟨importing, himporting, hmatches⟩ := ih (Nat.le_of_succ_le hdone)
        have hrow := List.getElem?_eq_getElem (Nat.lt_of_succ_le hdone)
        obtain ⟨next, hnext, hmatches'⟩ := hmatches.planSynapse hlabels hperm hrow
        refine ⟨next, ?_, hmatches'⟩
        rw [List.take_add_one, hrow, List.foldlM_append, bind_eq_ok]
        refine ⟨importing, himporting, ?_⟩
        rw [Option.toList_some, List.foldlM_cons, bind_eq_ok]
        exact ⟨next, hnext, rfl⟩
  obtain ⟨importing, himporting, hmatches⟩ := hprefix rows.length (Nat.le_refl _)
  rw [List.take_length] at himporting
  exact ⟨importing, himporting, hmatches⟩

-- No two plans are for one slot.
theorem Importing.Matches.nodup {importing : Importing F} {done : Nat}
    (h : importing.Matches graph keys rowKeys rows done) :
    (importing.plans.map RestorePlan.slot).Nodup := by
  rw [h.plans, List.map_filterMap]
  refine List.Nodup.filterMap ?_ List.nodup_range
  intro i j slot hi hj
  obtain ⟨plan, hplan, rfl⟩ := Option.map_eq_some_iff.mp hi
  obtain ⟨plan', hplan', hslot⟩ := Option.map_eq_some_iff.mp hj
  exact matchedSlot_inj (plan_of_plannedAt hplan).1 (hslot ▸ (plan_of_plannedAt hplan').1)

end Rows

section Restored

variable {graph source : Graph W T} {plans : List (RestorePlan F)} {plan : RestorePlan F}

theorem filter_slot_eq (hnodup : (plans.map RestorePlan.slot).Nodup) (hplan : plan ∈ plans) :
    (plans.filter fun other => decide (other.slot = plan.slot)) = [plan] := by
  induction plans with
  | nil => exact absurd hplan List.not_mem_nil
  | cons first plans ih =>
      rw [List.map_cons, List.nodup_cons] at hnodup
      obtain ⟨hfresh, hnodup⟩ := hnodup
      rw [List.filter_cons]
      obtain rfl | hplan := List.mem_cons.mp hplan
      · rw [if_pos (decide_eq_true rfl), List.filter_eq_nil_iff.mpr]
        intro other hother he
        exact hfresh (of_decide_eq_true he ▸ List.mem_map_of_mem hother)
      · have hother : ¬ decide (first.slot = plan.slot) = true := fun he =>
          hfresh (of_decide_eq_true he ▸ List.mem_map_of_mem hplan)
        rw [if_neg hother]
        exact ih hnodup hplan

-- A slot holds what the arrays of another graph hold about one of its slots.
structure Graph.CarriesOver (source : Graph W T) (i : Nat) (target : Graph W T) (j : Nat) :
    Prop where
  weight : target.csr.weights[j]? = source.edgePlasticity.currentWeight[i]?
  originalWeight :
    target.edgePlasticity.originalWeight[j]? = source.edgePlasticity.originalWeight[i]?
  currentWeight : target.edgePlasticity.currentWeight[j]? = source.edgePlasticity.currentWeight[i]?
  strengthenCount :
    target.edgePlasticity.strengthenCount[j]? = source.edgePlasticity.strengthenCount[i]?
  weakenCount : target.edgePlasticity.weakenCount[j]? = source.edgePlasticity.weakenCount[i]?
  ltpApplied : target.edgePlasticity.ltpApplied[j]? = source.edgePlasticity.ltpApplied[i]?
  ltdApplied : target.edgePlasticity.ltdApplied[j]? = source.edgePlasticity.ltdApplied[i]?
  lastUsedQuery : target.edgePlasticity.lastUsedQuery[j]? = source.edgePlasticity.lastUsedQuery[i]?

theorem Graph.CarriesOver.of_slotAlike {i j : Nat} {next : Graph W T}
    (h : source.CarriesOver i graph j) (halike : graph.SlotAlike next j) :
    source.CarriesOver i next j where
  weight := halike.weight.trans h.weight
  originalWeight := halike.originalWeight.trans h.originalWeight
  currentWeight := halike.currentWeight.trans h.currentWeight
  strengthenCount := halike.strengthenCount.trans h.strengthenCount
  weakenCount := halike.weakenCount.trans h.weakenCount
  ltpApplied := halike.ltpApplied.trans h.ltpApplied
  ltdApplied := halike.ltdApplied.trans h.ltdApplied
  lastUsedQuery := halike.lastUsedQuery.trans h.lastUsedQuery

variable [Zero W]

-- The plan of an exported slot writes what the slot holds.
theorem carriesOver_apply {i j size : Nat} {slot : Slot W} (howned : graph.Owned)
    (hj : j < graph.csr.numEdges) (hsynapses : source.edgePlasticity.HasLength size) (hi : i < size)
    (hslot : slot.synapse = source.edgePlasticity.row i) :
    source.CarriesOver i
      (((source.synapticState slot : SynapticState F).planAt W j).apply graph) j := by
  obtain ⟨hgraph, hweights⟩ := howned
  have hcurrent : ((source.synapticState slot : SynapticState F).planAt W j).currentWeight =
      FiniteF32.get (source.edgePlasticity.currentWeight.getD i 0) := by
    simp only [SynapticState.planAt, Graph.synapticState, FiniteF32.isFinite_get, if_true, hslot]
    rfl
  have hwrite : ∀ {α : Type} (list other : List α) (x d : α), list.length = graph.csr.numEdges →
      other.length = size → x = other.getD i d → (list.set j x)[j]? = other[i]? := by
    rintro α list other _ d hlist hother rfl
    rw [List.getElem?_set_self (hlist.symm ▸ hj), getElem?_eq_getD hother hi d]
  exact {
    weight := hwrite _ _ _ 0 hweights hsynapses.currentWeight (by rw [hcurrent, FiniteF32.new_get])
    originalWeight := hwrite _ _ _ 0 hgraph.originalWeight hsynapses.originalWeight
      ((FiniteF32.new_get _).trans (congrArg SynapseRecord.originalWeight hslot))
    currentWeight := hwrite _ _ _ 0 hgraph.currentWeight hsynapses.currentWeight
      (by rw [hcurrent, FiniteF32.new_get])
    strengthenCount := hwrite _ _ _ 0 hgraph.strengthenCount hsynapses.strengthenCount
      (congrArg SynapseRecord.strengthenCount hslot)
    weakenCount := hwrite _ _ _ 0 hgraph.weakenCount hsynapses.weakenCount
      (congrArg SynapseRecord.weakenCount hslot)
    ltpApplied := hwrite _ _ _ false hgraph.ltpApplied hsynapses.ltpApplied
      (congrArg SynapseRecord.ltpApplied hslot)
    ltdApplied := hwrite _ _ _ false hgraph.ltdApplied hsynapses.ltdApplied
      (congrArg SynapseRecord.ltdApplied hslot)
    lastUsedQuery := hwrite _ _ _ 0 hgraph.lastUsedQuery hsynapses.lastUsedQuery
      (congrArg SynapseRecord.lastUsedQuery hslot) }

end Restored

section Transfer

variable [Zero W] [DecidableEq W] {source graph : Graph W T}

omit [DecidableEq W] in
theorem Graph.Coherent.labels (h : source.Coherent F) (hfinal : source.finalized = true) :
    Labels W (source.slots.map (source.synapticState (F := F))) source.slotKeys where
  length := by rw [slotKeys, List.length_map, List.length_map]
  complete i row hrow := by
    rw [List.getElem?_map] at hrow
    obtain ⟨slot, hslot, rfl⟩ := Option.map_eq_some_iff.mp hrow
    obtain ⟨htriple, hdirection, hinhibitory⟩ :=
      h.synapticState_complete hfinal (List.mem_of_getElem? hslot)
    refine ⟨source.fullKey slot, ?_, htriple, hdirection, hinhibitory, ?_, FiniteF32.isFinite_get _⟩
    · rw [slotKeys, List.getElem?_map, hslot]
      rfl
    · change slot.direction.code ≤ 1
      cases slot.direction with
      | Forward => exact Nat.zero_le 1
      | Bidirectional => exact Nat.le_refl 1

omit [DecidableEq W] in
theorem Graph.Coherent.owned (h : graph.Coherent F) (hfinal : graph.finalized = true) :
    graph.Owned := by
  obtain ⟨hpending, -⟩ := h.finalized hfinal
  have hlisted := h.tabled.listed
  have hsynapses := hlisted.synapses
  rw [hpending, List.length_nil, Nat.add_zero, ← hlisted.numEdges] at hsynapses
  exact ⟨hsynapses, hlisted.weights.trans hlisted.numEdges.symm⟩

-- The rows of one graph, imported into another with the same labels: a slot takes over its
-- counterpart, or is left as it is where parallel slots differ outside their identity.
theorem restored_matches (hsource : source.Coherent F) (hfinal : source.finalized = true)
    (hgraph : graph.Coherent F) (hfinal' : graph.finalized = true)
    (hperm : graph.slotKeys.Perm source.slotKeys) {importing : Importing F}
    (hmatches : importing.Matches graph graph.slotKeys source.slotKeys
      (source.slots.map (source.synapticState (F := F))) source.slots.length)
    {j : Nat} {key : FullKey} (hj : graph.slotKeys[j]? = some (some key)) :
    ∃ i, source.slotKeys[i]? = some (some key) ∧
      matchedSlot graph.slotKeys source.slotKeys i = some j ∧
      if interchangeable graph graph.slotKeys key then
        source.CarriesOver i (importing.plans.foldl RestorePlan.apply graph) j
      else graph.SlotAlike (importing.plans.foldl RestorePlan.apply graph) j := by
  obtain ⟨i, hi, hmatched⟩ := exists_matched_row hperm hj
  refine ⟨i, hi, hmatched, ?_⟩
  have hj' : j < graph.csr.numEdges := by
    rw [← length_synapticKeys (hgraph.synapticKeys_eq hfinal')]
    exact (List.getElem?_eq_some_iff.mp hj).1
  have hplans := hmatches.plans
  have hfiltered : (importing.plans.foldl RestorePlan.apply graph).SlotAlike
      ((importing.plans.filter fun plan => decide (plan.slot = j)).foldl RestorePlan.apply graph)
      j :=
    foldl_apply_alike (fun slot => decide (slot = j)) (decide_eq_true rfl) (.refl graph j)
      importing.plans
  split
  · rename_i hsame
    have hlabelled := hi
    rw [Graph.slotKeys, List.getElem?_map] at hlabelled
    obtain ⟨slot, hslot, -⟩ := Option.map_eq_some_iff.mp hlabelled
    have hrow : (source.slots.map (source.synapticState (F := F)))[i]? =
        some (source.synapticState slot) := by
      rw [List.getElem?_map, hslot]
      rfl
    have hplanned : plannedAt graph graph.slotKeys source.slotKeys
        (source.slots.map (source.synapticState (F := F))) i = _ :=
      plannedAt_eq hrow hi hmatched
    rw [if_pos hsame] at hplanned
    have hplan : (source.synapticState slot : SynapticState F).planAt W j ∈ importing.plans := by
      rw [hplans]
      exact List.mem_filterMap.mpr
        ⟨i, List.mem_range.mpr (List.getElem?_eq_some_iff.mp hslot).1, hplanned⟩
    have hsingle : (importing.plans.filter fun plan => decide (plan.slot = j)) =
        [(source.synapticState slot).planAt W j] :=
      filter_slot_eq hmatches.nodup hplan
    rw [hsingle] at hfiltered
    rw [Graph.slots, List.getElem?_map] at hslot
    obtain ⟨entry, hentry, rfl⟩ := Option.map_eq_some_iff.mp hslot
    obtain ⟨rfl, hlt⟩ := hsource.tabled.listed.snd_edgeSlots hentry
    have hsynapses := (hsource.owned hfinal).synapses
    rw [hsource.tabled.listed.numEdges] at hsynapses
    exact (carriesOver_apply (hgraph.owned hfinal') hj' hsynapses hlt rfl).of_slotAlike
      hfiltered.symm
  · rename_i hdiffer
    have hnone : (importing.plans.filter fun plan => decide (plan.slot = j)) = [] := by
      rw [List.filter_eq_nil_iff, hplans]
      intro plan hplan hslot
      obtain ⟨i', -, hplanned⟩ := List.mem_filterMap.mp hplan
      obtain ⟨hmatched', key', hkey', hsame⟩ := plan_of_plannedAt hplanned
      rw [of_decide_eq_true hslot] at hmatched'
      obtain rfl := matchedSlot_inj hmatched' hmatched
      rw [List.getD_eq_getElem?_getD, hi, Option.getD_some] at hkey'
      obtain rfl := Option.some.inj hkey'
      exact hdiffer hsame
    rw [hnone] at hfiltered
    exact hfiltered.symm

-- The rows of a graph go over into each graph with the same labels. Where the parallel slots of
-- an identity can be bound in their order each takes over its counterpart, and else they stay as
-- they are. An import that ends in an error has changed nothing.
theorem PlasticityEngine.transfers (engine : PlasticityEngine W F) :
    (∀ ops ops' : List (GraphOp W T), (GraphOp.run ops).finalized = true →
      (GraphOp.run ops').finalized = true →
      (GraphOp.run ops').slotKeys.Perm (GraphOp.run ops).slotKeys →
      ∃ rows count engine' next, exportState (GraphOp.run ops) = .ok rows ∧
        engine.importStateInPlace (GraphOp.run ops') rows = (.ok count, engine', next) ∧
        ∀ j < (GraphOp.run ops').csr.numEdges, ∃ key i,
          (GraphOp.run ops').slotKeys[j]? = some (some key) ∧
          (GraphOp.run ops).slotKeys[i]? = some (some key) ∧
          matchedSlot (GraphOp.run ops').slotKeys (GraphOp.run ops).slotKeys i = some j ∧
          if interchangeable (GraphOp.run ops') (GraphOp.run ops').slotKeys key then
            (GraphOp.run ops).CarriesOver i next j
          else (GraphOp.run ops').SlotAlike next j) ∧
    ∀ (graph : Graph W T) (states : List (SynapticState F)) (e : SnapshotError)
      (engine' : PlasticityEngine W F) (next : Graph W T),
      engine.importStateInPlace graph states = (.error e, engine', next) →
      engine' = engine ∧ next = graph := by
  refine ⟨fun ops ops' hfinal hfinal' hperm => ?_,
    fun graph states e engine' next h => importStateInPlace_atomic h⟩
  have hsource := GraphOp.coherent_run F ops
  have hgraph := GraphOp.coherent_run F ops'
  obtain ⟨hpending, hlength⟩ := hsource.finalized hfinal
  obtain ⟨importing, himporting, hmatches⟩ :=
    foldlM_matches (GraphOp.run ops') (hsource.labels hfinal) hperm
  rw [List.length_map] at hmatches
  have hkeys := hgraph.synapticKeys_eq hfinal'
  have himport := importStateInPlace_eq_ok (importState_eq_ok.mpr
    ⟨hgraph.owned hfinal', _, _, hkeys, himporting, rfl⟩ : engine.importState _ _ = _)
  refine ⟨_, _, _, _, exportState_eq hsource.tabled hpending hlength, himport, fun j hj => ?_⟩
  rw [← length_synapticKeys hkeys] at hj
  obtain ⟨key, hkey⟩ : ∃ key, (GraphOp.run ops').slotKeys[j]? = some (some key) := by
    rw [Graph.slotKeys, List.length_map] at hj
    exact ⟨_, by rw [Graph.slotKeys, List.getElem?_map, List.getElem?_eq_getElem hj]; rfl⟩
  obtain ⟨i, hi, hmatched, hrestored⟩ :=
    restored_matches hsource hfinal hgraph hfinal' hperm hmatches hkey
  exact ⟨key, i, hkey, hi, hmatched, hrestored⟩

end Transfer

section Parallel

def SynapseRecord.strong (weight : Rat) : SynapseRecord Rat :=
  { SynapseRecord.fresh (1 / 2) with currentWeight := weight, strengthenCount := 3 }

-- One edge.
def GraphOp.single : List (GraphOp Rat Nat) :=
  [.addNode "a" "a" .File [] 0 0, .addNode "b" "b" .File [] 0 0,
    .addEdge 0 1 "calls" (1 / 2) .Forward false 0, .finalize]

-- Two edges between the same nodes, with different causal strengths.
def GraphOp.parallel : List (GraphOp Rat Nat) :=
  [.addNode "a" "a" .File [] 0 0, .addNode "b" "b" .File [] 0 0,
    .addEdge 0 1 "calls" (1 / 2) .Forward false 0, .addEdge 0 1 "calls" (1 / 2) .Forward false 1]

theorem PlasticityEngine.transfers_single :
    ∃ rows count engine' next,
      exportState (GraphOp.run (GraphOp.single ++ [.storeSynapse 0 (.strong 1)])) = .ok rows ∧
      (new (.retrying 64)).importStateInPlace (GraphOp.run GraphOp.single) rows =
        (.ok count, engine', next) ∧
      ∀ j < (GraphOp.run GraphOp.single).csr.numEdges, ∃ key i,
        (GraphOp.run GraphOp.single).slotKeys[j]? = some (some key) ∧
        (GraphOp.run (GraphOp.single ++ [.storeSynapse 0 (.strong 1)])).slotKeys[i]? =
          some (some key) ∧
        matchedSlot (GraphOp.run GraphOp.single).slotKeys
          (GraphOp.run (GraphOp.single ++ [.storeSynapse 0 (.strong 1)])).slotKeys i = some j ∧
        if interchangeable (GraphOp.run GraphOp.single) (GraphOp.run GraphOp.single).slotKeys key
        then (GraphOp.run (GraphOp.single ++ [.storeSynapse 0 (.strong 1)])).CarriesOver i next j
        else (GraphOp.run GraphOp.single).SlotAlike next j :=
  (transfers (new (.retrying 64))).1 _ _ (by decide +kernel) (by decide +kernel)
    (by decide +kernel)

-- The two edges, and what they have learned.
def GraphOp.learning : List (GraphOp Rat Nat) :=
  GraphOp.parallel ++ [.finalize, .storeSynapse 0 (.strong 1), .storeSynapse 1 (.strong 2)]

-- What the slots of a graph have learned, and what an import of it leaves in another graph.
structure Graph.Leaves (source graph : Graph Rat Nat) (current weights : List Rat) : Prop where
  finalized : source.finalized = true
  finalized' : graph.finalized = true
  slotKeys : graph.slotKeys = source.slotKeys
  currentWeight : source.edgePlasticity.currentWeight = current
  numEdges : 0 < graph.csr.numEdges
  weights : (match exportState source with
    | .ok rows => ((PlasticityEngine.new (.retrying 64)).importStateInPlace graph
        rows).2.2.csr.weights
    | .error _ => []) = weights

theorem GraphOp.learning_leaves :
    (run learning).Leaves (run (parallel ++ [.finalize])) [1, 2] [1 / 2, 1 / 2] := by
  have hrebuilt : run (parallel ++ [.finalize]) = (run parallel).rebuildCsr := rfl
  have hlearned : run learning =
      [.storeSynapse 0 (.strong 1), .storeSynapse 1 (.strong 2)].foldl apply
        (run parallel).rebuildCsr := rfl
  have hsorted : placements (run parallel).csr.pendingEdges = _ :=
    placements_of_sorted (by decide +kernel)
  rw [hlearned, hrebuilt, Graph.rebuildCsr, hsorted]
  constructor <;> decide +kernel

-- Parallel edges that differ in their causal strength keep their own weights.
theorem PlasticityEngine.parallel_not_transferred :
    ¬ ∀ ops ops' : List (GraphOp Rat Nat), (GraphOp.run ops).finalized = true →
      (GraphOp.run ops').finalized = true →
      (GraphOp.run ops').slotKeys.Perm (GraphOp.run ops).slotKeys →
      ∃ rows count engine' next, exportState (GraphOp.run ops) = .ok rows ∧
        (new (.retrying 64)).importStateInPlace (GraphOp.run ops') rows =
          (.ok count, engine', next) ∧
        ∀ j < (GraphOp.run ops').csr.numEdges, ∃ i,
          matchedSlot (GraphOp.run ops').slotKeys (GraphOp.run ops).slotKeys i = some j ∧
          (GraphOp.run ops).CarriesOver i next j := by
  intro h
  have hleaves := GraphOp.learning_leaves
  have hclaim := h GraphOp.learning (GraphOp.parallel ++ [.finalize]) hleaves.finalized
    hleaves.finalized'
  obtain ⟨rows, count, engine', next, hrows, hnext, hall⟩ := hclaim (.of_eq hleaves.slotKeys)
  obtain ⟨i, -, hcarries⟩ := hall 0 hleaves.numEdges
  have hweights := hleaves.weights
  rw [hrows] at hweights
  dsimp only at hweights
  rw [hnext] at hweights
  have hweight := hcarries.weight
  rw [hweights, hleaves.currentWeight, List.getElem?_cons_zero] at hweight
  have hmem : (1 / 2 : Rat) ∈ [(1 : Rat), 2] := List.mem_of_getElem? hweight.symm
  exact absurd hmem (by decide +kernel)

end Parallel

end M1nd.Core
