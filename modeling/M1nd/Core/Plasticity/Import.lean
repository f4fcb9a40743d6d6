import M1nd.Core.Plasticity.Learning

namespace M1nd.Core

open M1nd.Library.Checks

variable {W F T : Type}

def SynapticState.triple (state : SynapticState F) : Triple :=
  ⟨state.sourceLabel, state.targetLabel, state.relation⟩

-- The identity of each slot.
def synapticKeys (graph : Graph W T) : Except SnapshotError (List (Option FullKey)) := do
  let sources ← importedSources graph
  (List.range graph.csr.numEdges).mapM (synapticKey graph (importedExtIds graph) sources)

-- The triple of a slot, of the slots with one.
def tripleAt (keys : List (Option FullKey)) (slot : Nat) : Option Triple :=
  (keys.getD slot none).map FullKey.triple

theorem mem_tripleSlots {keys : List (Option FullKey)} {triple : Triple} {slot : Nat}
    (h : slot ∈ tripleSlots keys triple) : tripleAt keys slot = some triple :=
  of_decide_eq_true (List.mem_filter.mp h).2

theorem mem_fullSlots {keys : List (Option FullKey)} {key : FullKey} {slot : Nat}
    (h : slot ∈ fullSlots keys key) : tripleAt keys slot = some key.triple := by
  have hkey : keys.getD slot none = some key := of_decide_eq_true (List.mem_filter.mp h).2
  rw [tripleAt, hkey]
  rfl

section Resolve

variable [DecidableEq W] {graph : Graph W T} {keys : List (Option FullKey)}
  {cursor cursor' next : FullKey → Nat} {state : SynapticState F} {slot : Option Nat}

-- The slot of a row has the triple of the row, and only cursors with this triple move. The
-- other cursors have no say in it.
structure Resolves (graph : Graph W T) (keys : List (Option FullKey)) (state : SynapticState F)
    (cursor next : FullKey → Nat) (slot : Option Nat) : Prop where
  triple : ∀ owner ∈ slot, tripleAt keys owner = some state.triple
  others : ∀ key, key.triple ≠ state.triple → next key = cursor key
  alike : ∀ cursor', (∀ key, key.triple = state.triple → cursor' key = cursor key) →
    ∃ next', resolveSynapse graph keys cursor' state = .ok (slot, next') ∧
      ∀ key, key.triple = state.triple → next' key = next key

-- A row that finds no cursor to move is resolved without one.
theorem Resolves.of_still (htriple : ∀ owner ∈ slot, tripleAt keys owner = some state.triple)
    (h : ∀ cursor : FullKey → Nat, resolveSynapse graph keys cursor state = .ok (slot, cursor)) :
    Resolves graph keys state cursor cursor slot :=
  ⟨htriple, fun _ _ => rfl, fun cursor' hcursor => ⟨cursor', h cursor', hcursor⟩⟩

theorem resolves_legacy (hdirection : state.direction = none) (hinhibitory : state.inhibitory = none)
    (h : resolveSynapse graph keys cursor state = .ok (slot, next)) :
    Resolves graph keys state cursor next slot := by
  unfold resolveSynapse at h
  rw [hdirection, hinhibitory] at h
  dsimp only at h
  split at h
  · rename_i hslots
    obtain ⟨rfl, rfl⟩ := Prod.mk.inj (Except.ok.inj h)
    refine .of_still nofun fun cursor => ?_
    simp only [resolveSynapse, hdirection, hinhibitory, hslots]
  · rename_i owner hslots
    obtain ⟨rfl, rfl⟩ := Prod.mk.inj (Except.ok.inj h)
    refine .of_still ?_ fun cursor => ?_
    · intro slot hslot
      obtain rfl := Option.some.inj hslot
      exact mem_tripleSlots (hslots ▸ List.mem_singleton_self owner)
    · simp only [resolveSynapse, hdirection, hinhibitory, hslots]
  · exact absurd h nofun

theorem resolves_full {direction : Nat} {inhibitory : Bool}
    (hdirection : state.direction = some direction) (hinhibitory : state.inhibitory = some inhibitory)
    (h : resolveSynapse graph keys cursor state = .ok (slot, next)) :
    Resolves graph keys state cursor next slot := by
  unfold resolveSynapse at h
  rw [hdirection, hinhibitory] at h
  dsimp only at h
  split at h
  · exact absurd h nofun
  · rename_i hknown
    split at h
    · rename_i hempty
      obtain ⟨rfl, rfl⟩ := Prod.mk.inj (Except.ok.inj h)
      refine .of_still nofun fun cursor => ?_
      unfold resolveSynapse
      rw [hdirection, hinhibitory]
      dsimp only
      rw [if_neg hknown, if_pos hempty]
    · rename_i hempty
      have hothers : ∀ (cursor : FullKey → Nat) (key : FullKey), key.triple ≠ state.triple →
          Function.update cursor ⟨state.triple, direction, inhibitory⟩
            (cursor ⟨state.triple, direction, inhibitory⟩ + 1) key = cursor key :=
        fun cursor key hkey => Function.update_of_ne (fun he => hkey (congrArg FullKey.triple he)) _ cursor
      have halike : ∀ cursor' : FullKey → Nat,
          (∀ key, key.triple = state.triple → cursor' key = cursor key) → ∀ key,
            key.triple = state.triple →
              Function.update cursor' ⟨state.triple, direction, inhibitory⟩
                (cursor' ⟨state.triple, direction, inhibitory⟩ + 1) key =
              Function.update cursor ⟨state.triple, direction, inhibitory⟩
                (cursor ⟨state.triple, direction, inhibitory⟩ + 1) key := by
        intro cursor' hcursor key hkey
        rw [Function.update_apply, Function.update_apply, hcursor key hkey,
          hcursor ⟨state.triple, direction, inhibitory⟩ rfl]
      split at h
      · rename_i hdiffer
        obtain ⟨rfl, rfl⟩ := Prod.mk.inj (Except.ok.inj h)
        refine ⟨nofun, hothers cursor, fun cursor' hcursor => ⟨_, ?_, halike cursor' hcursor⟩⟩
        unfold resolveSynapse
        rw [hdirection, hinhibitory]
        dsimp only
        rw [if_neg hknown, if_neg hempty, if_pos hdiffer]
        rfl
      · rename_i hdiffer
        split at h
        · rename_i owner howner
          obtain ⟨rfl, rfl⟩ := Prod.mk.inj (Except.ok.inj h)
          refine ⟨?_, hothers cursor, fun cursor' hcursor => ⟨_, ?_, halike cursor' hcursor⟩⟩
          · intro slot hslot
            obtain rfl := Option.some.inj hslot
            exact mem_fullSlots (List.mem_of_getElem? howner)
          · unfold resolveSynapse
            rw [hdirection, hinhibitory]
            dsimp only
            rw [if_neg hknown, if_neg hempty, if_neg hdiffer,
              hcursor ⟨⟨state.sourceLabel, state.targetLabel, state.relation⟩, direction,
                inhibitory⟩ rfl, howner, hcursor ⟨state.triple, direction, inhibitory⟩ rfl]
            rfl
        · exact absurd h nofun

theorem resolveSynapse_resolves (h : resolveSynapse graph keys cursor state = .ok (slot, next)) :
    Resolves graph keys state cursor next slot := by
  cases hdirection : state.direction with
  | none =>
      cases hinhibitory : state.inhibitory with
      | none => exact resolves_legacy hdirection hinhibitory h
      | some inhibitory =>
          rw [resolveSynapse, hdirection, hinhibitory] at h
          exact absurd h nofun
  | some direction =>
      cases hinhibitory : state.inhibitory with
      | none =>
          rw [resolveSynapse, hdirection, hinhibitory] at h
          exact absurd h nofun
      | some inhibitory => exact resolves_full hdirection hinhibitory h

end Resolve

section Plan

variable [FiniteF32 W F] [DecidableEq W] {graph : Graph W T} {keys : List (Option FullKey)}
  {importing importing' next : Importing F} {state : SynapticState F}

-- What a row restores in a slot. A current weight that is not finite falls back to the original.
def SynapticState.planAt (W : Type) [FiniteF32 W F] (state : SynapticState F) (slot : Nat) :
    RestorePlan F where
  slot := slot
  originalWeight := state.originalWeight
  currentWeight :=
    if FiniteF32.isFinite W state.currentWeight then state.currentWeight else state.originalWeight
  strengthenCount := state.strengthenCount
  weakenCount := state.weakenCount
  ltpApplied := state.ltpApplied
  ltdApplied := state.ltdApplied
  lastUsedQuery := state.lastUsedQuery

-- The plan of a row, if it has a slot, goes behind the plans made before.
def Importing.take (W : Type) [FiniteF32 W F] (importing : Importing F) (state : SynapticState F)
    (cursor : FullKey → Nat) : Option Nat → Importing F
  | none => { importing with cursor := cursor }
  | some slot =>
      ⟨cursor, slot :: importing.selected, importing.plans ++ [state.planAt W slot]⟩

theorem planSynapse_eq_ok :
    planSynapse graph keys importing state = .ok next ↔
      FiniteF32.isFinite W state.originalWeight = true ∧
        ∃ slot cursor, resolveSynapse graph keys importing.cursor state = .ok (slot, cursor) ∧
          (∀ owner ∈ slot, owner ∉ importing.selected) ∧
            next = importing.take W state cursor slot := by
  unfold planSynapse
  by_cases hfinite : FiniteF32.isFinite W state.originalWeight = true
  · simp only [hfinite, Bool.not_true, Bool.false_eq_true, if_false, true_and]
    rw [bind_eq_ok]
    constructor
    · rintro ⟨⟨slot, cursor⟩, hresolve, hnext⟩
      refine ⟨slot, cursor, hresolve, ?_⟩
      cases slot with
      | none => exact ⟨nofun, (Except.ok.inj hnext).symm⟩
      | some slot =>
          dsimp only at hnext
          split at hnext
          · exact absurd hnext nofun
          · rename_i hfresh
            refine ⟨?_, (Except.ok.inj hnext).symm⟩
            intro owner howner
            obtain rfl := Option.some.inj howner
            exact fun hmem => hfresh (List.contains_iff_mem.mpr hmem)
    · rintro ⟨slot, cursor, hresolve, hfresh, rfl⟩
      refine ⟨(slot, cursor), hresolve, ?_⟩
      cases slot with
      | none => rfl
      | some slot =>
          dsimp only
          rw [if_neg fun hmem => hfresh slot rfl (List.contains_iff_mem.mp hmem)]
          rfl
  · simp only [hfinite, Bool.not_false, if_true, Bool.false_eq_true, false_and, iff_false]
    exact nofun

end Plan

section Alike

variable [FiniteF32 W F] [DecidableEq W] {graph : Graph W T} {keys : List (Option FullKey)}
  {owns : Triple → Bool} {importing importing' next : Importing F} {state : SynapticState F}
  {states : List (SynapticState F)}

def ownsSlot (keys : List (Option FullKey)) (owns : Triple → Bool) (slot : Nat) : Bool :=
  (tripleAt keys slot).any owns

-- Two imports that do not differ in what concerns these triples.
structure Importing.Alike (keys : List (Option FullKey)) (owns : Triple → Bool)
    (importing importing' : Importing F) : Prop where
  cursor : ∀ key, owns key.triple = true → importing'.cursor key = importing.cursor key
  selected : ∀ slot, ownsSlot keys owns slot = true →
    (slot ∈ importing'.selected ↔ slot ∈ importing.selected)
  plans : importing'.plans.filter (fun plan => ownsSlot keys owns plan.slot) =
    importing.plans.filter fun plan => ownsSlot keys owns plan.slot

theorem Importing.Alike.refl (importing : Importing F) : importing.Alike keys owns importing :=
  ⟨fun _ _ => rfl, fun _ _ => .rfl, rfl⟩

theorem Importing.Alike.symm (h : importing.Alike keys owns importing') :
    importing'.Alike keys owns importing :=
  ⟨fun key hkey => (h.cursor key hkey).symm, fun slot hslot => (h.selected slot hslot).symm,
    h.plans.symm⟩

theorem Importing.Alike.trans (h : importing.Alike keys owns importing')
    (h' : importing'.Alike keys owns next) : importing.Alike keys owns next :=
  ⟨fun key hkey => (h'.cursor key hkey).trans (h.cursor key hkey),
    fun slot hslot => (h'.selected slot hslot).trans (h.selected slot hslot),
    h'.plans.trans h.plans⟩

-- A row of one of the triples is planned in both imports, and in the same slot.
theorem planSynapse_alike (howns : owns state.triple = true)
    (h : importing.Alike keys owns importing')
    (hnext : planSynapse graph keys importing state = .ok next) :
    ∃ next', planSynapse graph keys importing' state = .ok next' ∧ next.Alike keys owns next' := by
  obtain ⟨hfinite, slot, cursor, hresolve, hfresh, rfl⟩ := planSynapse_eq_ok.mp hnext
  have hresolves := resolveSynapse_resolves hresolve
  obtain ⟨cursor', hresolve', hcursor'⟩ := hresolves.alike importing'.cursor
    fun key hkey => h.cursor key (hkey ▸ howns)
  obtain ⟨-, hothers', -⟩ := resolveSynapse_resolves hresolve'
  have hsame : ∀ key, owns key.triple = true → cursor' key = cursor key := by
    intro key hkey
    by_cases htriple : key.triple = state.triple
    · exact hcursor' key htriple
    · rw [hothers' key htriple, hresolves.others key htriple, h.cursor key hkey]
  refine ⟨importing'.take W state cursor' slot, planSynapse_eq_ok.mpr
    ⟨hfinite, slot, cursor', hresolve', ?_, rfl⟩, ?_⟩
  · intro owner howner
    have hslot : ownsSlot keys owns owner = true := by
      rw [ownsSlot, hresolves.triple owner howner]
      exact howns
    exact fun hmem => hfresh owner howner ((h.selected owner hslot).mp hmem)
  · cases slot with
    | none => exact ⟨hsame, h.selected, h.plans⟩
    | some slot =>
        refine ⟨hsame, fun other hother => ?_, ?_⟩
        · simp only [Importing.take, List.mem_cons, h.selected other hother]
        · simp only [Importing.take, List.filter_append, h.plans]

-- A row of another triple changes nothing of what concerns the triples.
theorem planSynapse_other (howns : owns state.triple = false)
    (hnext : planSynapse graph keys importing state = .ok next) :
    importing.Alike keys owns next := by
  obtain ⟨-, slot, cursor, hresolve, -, rfl⟩ := planSynapse_eq_ok.mp hnext
  obtain ⟨htriple, hothers, -⟩ := resolveSynapse_resolves hresolve
  have hsame : ∀ key, owns key.triple = true → cursor key = importing.cursor key := by
    intro key hkey
    refine hothers key fun he => ?_
    rw [he, howns] at hkey
    exact absurd hkey Bool.false_ne_true
  cases slot with
  | none => exact ⟨hsame, fun _ _ => .rfl, rfl⟩
  | some slot =>
      have hslot : ownsSlot keys owns slot = false := by
        rw [ownsSlot, htriple slot rfl]
        exact howns
      refine ⟨hsame, fun other hother => ?_, ?_⟩
      · have hne : other ≠ slot := by
          rintro rfl
          rw [hslot] at hother
          exact absurd hother Bool.false_ne_true
        simp only [Importing.take, List.mem_cons, hne, false_or]
      · simp only [Importing.take, List.filter_append, SynapticState.planAt, List.filter_cons, hslot,
          Bool.false_eq_true, if_false, List.filter_nil, List.append_nil]

-- An import of all rows and one of the rows of these triples only end alike.
theorem foldlM_planSynapse_alike (h : importing.Alike keys owns importing')
    (hnext : states.foldlM (planSynapse graph keys) importing = .ok next) :
    ∃ next', (states.filter fun state => owns state.triple).foldlM (planSynapse graph keys)
      importing' = .ok next' ∧ next.Alike keys owns next' := by
  induction states generalizing importing importing' with
  | nil =>
      obtain rfl := Except.ok.inj hnext
      exact ⟨importing', rfl, h⟩
  | cons state states ih =>
      rw [List.foldlM_cons] at hnext
      obtain ⟨mid, hmid, hnext⟩ := bind_eq_ok.mp hnext
      cases howns : owns state.triple with
      | true =>
          obtain ⟨mid', hmid', halike⟩ := planSynapse_alike howns h hmid
          obtain ⟨next', hnext', hend⟩ := ih halike hnext
          refine ⟨next', ?_, hend⟩
          rw [List.filter_cons, howns, if_pos rfl, List.foldlM_cons, bind_eq_ok]
          exact ⟨mid', hmid', hnext'⟩
      | false =>
          rw [List.filter_cons, howns, if_neg Bool.false_ne_true]
          exact ih ((planSynapse_other howns hmid).symm.trans h) hnext

theorem foldlM_planSynapse_others (howns : ∀ state ∈ states, owns state.triple = false)
    (hnext : states.foldlM (planSynapse graph keys) importing = .ok next) :
    importing.Alike keys owns next := by
  obtain ⟨next', hnext', halike⟩ := foldlM_planSynapse_alike (.refl importing) hnext
  have hnone : (states.filter fun state => owns state.triple) = [] := by
    rw [List.filter_eq_nil_iff]
    exact fun state hstate => Bool.eq_false_iff.mp (howns state hstate)
  rw [hnone] at hnext'
  obtain rfl := Except.ok.inj hnext'
  exact halike.symm

end Alike

section Restore

variable [FiniteF32 W F] {graph graph' next : Graph W T} {plan : RestorePlan F} {slot : Nat}

-- What two graphs hold about a slot is the same.
structure Graph.SlotAlike (graph next : Graph W T) (slot : Nat) : Prop where
  weight : next.csr.weights[slot]? = graph.csr.weights[slot]?
  originalWeight :
    next.edgePlasticity.originalWeight[slot]? = graph.edgePlasticity.originalWeight[slot]?
  currentWeight :
    next.edgePlasticity.currentWeight[slot]? = graph.edgePlasticity.currentWeight[slot]?
  strengthenCount :
    next.edgePlasticity.strengthenCount[slot]? = graph.edgePlasticity.strengthenCount[slot]?
  weakenCount : next.edgePlasticity.weakenCount[slot]? = graph.edgePlasticity.weakenCount[slot]?
  ltpApplied : next.edgePlasticity.ltpApplied[slot]? = graph.edgePlasticity.ltpApplied[slot]?
  ltdApplied : next.edgePlasticity.ltdApplied[slot]? = graph.edgePlasticity.ltdApplied[slot]?
  lastUsedQuery :
    next.edgePlasticity.lastUsedQuery[slot]? = graph.edgePlasticity.lastUsedQuery[slot]?

theorem Graph.SlotAlike.refl (graph : Graph W T) (slot : Nat) : graph.SlotAlike graph slot :=
  ⟨rfl, rfl, rfl, rfl, rfl, rfl, rfl, rfl⟩

theorem Graph.SlotAlike.symm (h : graph.SlotAlike next slot) : next.SlotAlike graph slot :=
  ⟨h.weight.symm, h.originalWeight.symm, h.currentWeight.symm, h.strengthenCount.symm,
    h.weakenCount.symm, h.ltpApplied.symm, h.ltdApplied.symm, h.lastUsedQuery.symm⟩

theorem Graph.SlotAlike.trans (h : graph.SlotAlike graph' slot) (h' : graph'.SlotAlike next slot) :
    graph.SlotAlike next slot where
  weight := h'.weight.trans h.weight
  originalWeight := h'.originalWeight.trans h.originalWeight
  currentWeight := h'.currentWeight.trans h.currentWeight
  strengthenCount := h'.strengthenCount.trans h.strengthenCount
  weakenCount := h'.weakenCount.trans h.weakenCount
  ltpApplied := h'.ltpApplied.trans h.ltpApplied
  ltdApplied := h'.ltdApplied.trans h.ltdApplied
  lastUsedQuery := h'.lastUsedQuery.trans h.lastUsedQuery

theorem RestorePlan.apply_other (hother : plan.slot ≠ slot) (graph : Graph W T) :
    graph.SlotAlike (plan.apply graph) slot :=
  ⟨List.getElem?_set_ne hother, List.getElem?_set_ne hother, List.getElem?_set_ne hother,
    List.getElem?_set_ne hother, List.getElem?_set_ne hother, List.getElem?_set_ne hother,
    List.getElem?_set_ne hother, List.getElem?_set_ne hother⟩

theorem getElem?_set_congr {α : Type} {xs ys : List α} {i : Nat} (h : ys[i]? = xs[i]?) (j : Nat)
    (x : α) : (ys.set j x)[i]? = (xs.set j x)[i]? := by
  rw [List.getElem?_set', List.getElem?_set', h]

theorem Graph.SlotAlike.apply (h : graph.SlotAlike next slot) (plan : RestorePlan F) :
    (plan.apply graph).SlotAlike (plan.apply next) slot where
  weight := getElem?_set_congr h.weight _ _
  originalWeight := getElem?_set_congr h.originalWeight _ _
  currentWeight := getElem?_set_congr h.currentWeight _ _
  strengthenCount := getElem?_set_congr h.strengthenCount _ _
  weakenCount := getElem?_set_congr h.weakenCount _ _
  ltpApplied := getElem?_set_congr h.ltpApplied _ _
  ltdApplied := getElem?_set_congr h.ltdApplied _ _
  lastUsedQuery := getElem?_set_congr h.lastUsedQuery _ _

-- Only the plans for the slots asked about decide what such a slot holds in the end.
theorem foldl_apply_alike (asked : Nat → Bool) (hslot : asked slot = true)
    (h : graph.SlotAlike next slot) (plans : List (RestorePlan F)) :
    (plans.foldl RestorePlan.apply graph).SlotAlike
      ((plans.filter fun plan => asked plan.slot).foldl RestorePlan.apply next) slot := by
  induction plans generalizing graph next with
  | nil => exact h
  | cons plan plans ih =>
      rw [List.foldl_cons, List.filter_cons]
      cases hplan : asked plan.slot with
      | true => exact ih (h.apply plan)
      | false =>
          have hother : plan.slot ≠ slot := by
            rintro rfl
            rw [hplan] at hslot
            exact absurd hslot Bool.false_ne_true
          exact ih ((RestorePlan.apply_other hother graph).symm.trans h)

variable {keys : List (Option FullKey)} {owns : Triple → Bool}
  {importing importing' : Importing F} {states : List (SynapticState F)}
  {engine : PlasticityEngine W F}

theorem Importing.Alike.restores (h : importing.Alike keys owns importing')
    (hslot : ownsSlot keys owns slot = true) (graph : Graph W T) :
    (importing.plans.foldl RestorePlan.apply graph).SlotAlike
      (importing'.plans.foldl RestorePlan.apply graph) slot := by
  have hall := foldl_apply_alike _ hslot (.refl graph slot) importing.plans
  have hall' := foldl_apply_alike _ hslot (.refl graph slot) importing'.plans
  rw [h.plans] at hall'
  exact hall.trans hall'.symm

-- The arrays of the weights and of the plasticity have an entry for each slot.
structure Graph.Owned (graph : Graph W T) : Prop where
  synapses : graph.edgePlasticity.HasLength graph.csr.numEdges
  weights : graph.csr.weights.length = graph.csr.numEdges

variable [DecidableEq W]

-- The rows are resolved before the first write.
def planState (graph : Graph W T) (states : List (SynapticState F)) :
    Except SnapshotError (List (RestorePlan F)) :=
  let numCsr := graph.csr.numEdges
  let plasticity := graph.edgePlasticity
  if plasticity.originalWeight.length ≠ numCsr ∨ plasticity.currentWeight.length ≠ numCsr ∨
      plasticity.strengthenCount.length ≠ numCsr ∨ plasticity.weakenCount.length ≠ numCsr ∨
      plasticity.ltpApplied.length ≠ numCsr ∨ plasticity.ltdApplied.length ≠ numCsr ∨
      plasticity.lastUsedQuery.length ≠ numCsr ∨ graph.csr.weights.length ≠ numCsr then
    .error (.CorruptState "CSR and edge-plasticity arrays have different lengths")
  else do
    let keys ← synapticKeys graph
    let importing ← states.foldlM (planSynapse graph keys) ⟨fun _ => 0, [], []⟩
    .ok importing.plans

theorem planState_eq_ok {plans : List (RestorePlan F)} :
    planState graph states = .ok plans ↔ graph.Owned ∧
      ∃ keys importing, synapticKeys graph = .ok keys ∧
        states.foldlM (planSynapse graph keys) ⟨fun _ => 0, [], []⟩ = .ok importing ∧
        importing.plans = plans := by
  unfold planState
  dsimp only
  split
  · rename_i hlengths
    refine ⟨(by simp), ?_⟩
    rintro ⟨⟨hsynapses, hweights⟩, -⟩
    refine absurd hlengths ?_
    simp only [hsynapses.originalWeight, hsynapses.currentWeight, hsynapses.strengthenCount,
      hsynapses.weakenCount, hsynapses.ltpApplied, hsynapses.ltdApplied, hsynapses.lastUsedQuery,
      hweights, ne_eq, not_true_eq_false, or_self, not_false_eq_true]
  · rename_i hlengths
    simp only [not_or, not_not] at hlengths
    obtain ⟨ho, hc, hs, hw, hp, hd, hq, hweights⟩ := hlengths
    simp only [bind_eq_ok]
    constructor
    · rintro ⟨keys, hkeys, importing, himporting, hplans⟩
      exact ⟨⟨⟨ho, hc, hs, hw, hp, hd, hq⟩, hweights⟩, keys, importing, hkeys, himporting,
        Except.ok.inj hplans⟩
    · rintro ⟨-, keys, importing, hkeys, himporting, rfl⟩
      exact ⟨keys, hkeys, importing, himporting, rfl⟩

def PlasticityEngine.restored (engine : PlasticityEngine W F) (graph : Graph W T)
    (plans : List (RestorePlan F)) : Nat × PlasticityEngine W F × Graph W T :=
  (plans.length,
    { engine with
      queryCount := plans.foldl (fun count plan => max count plan.lastUsedQuery) engine.queryCount },
    plans.foldl RestorePlan.apply graph)

theorem PlasticityEngine.importState_eq_planState (engine : PlasticityEngine W F)
    (graph : Graph W T) (states : List (SynapticState F)) :
    engine.importState graph states = engine.restored graph <$> planState graph states := by
  unfold importState planState
  dsimp only
  split
  · rfl
  · simp only [synapticKeys, map_bind, bind_assoc]
    rfl

theorem PlasticityEngine.importState_eq_ok {out : Nat × PlasticityEngine W F × Graph W T} :
    engine.importState graph states = .ok out ↔ graph.Owned ∧
      ∃ keys importing, synapticKeys graph = .ok keys ∧
        states.foldlM (planSynapse graph keys) ⟨fun _ => 0, [], []⟩ = .ok importing ∧
        out = engine.restored graph importing.plans := by
  rw [importState_eq_planState, map_eq_ok]
  simp only [planState_eq_ok]
  constructor
  · rintro ⟨plans, ⟨howned, keys, importing, hkeys, himporting, rfl⟩, hout⟩
    exact ⟨howned, keys, importing, hkeys, himporting, hout.symm⟩
  · rintro ⟨howned, keys, importing, hkeys, himporting, rfl⟩
    exact ⟨importing.plans, ⟨howned, keys, importing, hkeys, himporting, rfl⟩, rfl⟩

end Restore

end M1nd.Core
