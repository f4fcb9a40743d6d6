import M1nd.Core.Plasticity.Export
import M1nd.Core.Plasticity.Import

namespace M1nd.Core

open M1nd.Library.Checks
open M1nd.Library.Loops

variable {W F T : Type}

section Writes

-- A write to one array of the graph. Behind the end of the array it panics.
def storeAt (length : Graph W T → Nat) (slot : Nat) (write : Graph W T → Graph W T) :
    ExceptT SnapshotError (StateM (Graph W T)) Unit := do
  let graph ← get
  if length graph ≤ slot then throw .Panicked else set (write graph)

variable [FiniteF32 W F]

-- The arrays are written one after the other.
def RestorePlan.write (plan : RestorePlan F) : ExceptT SnapshotError (StateM (Graph W T)) Unit := do
  storeAt (·.csr.weights.length) plan.slot fun graph =>
    { graph with csr := graph.csr.storeWeight plan.slot (FiniteF32.new plan.currentWeight) }
  storeAt (·.edgePlasticity.originalWeight.length) plan.slot fun graph =>
    { graph with
      edgePlasticity := {
        graph.edgePlasticity with
        originalWeight := graph.edgePlasticity.originalWeight.set plan.slot
          (FiniteF32.new plan.originalWeight) } }
  storeAt (·.edgePlasticity.currentWeight.length) plan.slot fun graph =>
    { graph with
      edgePlasticity := {
        graph.edgePlasticity with
        currentWeight := graph.edgePlasticity.currentWeight.set plan.slot
          (FiniteF32.new plan.currentWeight) } }
  storeAt (·.edgePlasticity.strengthenCount.length) plan.slot fun graph =>
    { graph with
      edgePlasticity := {
        graph.edgePlasticity with
        strengthenCount := graph.edgePlasticity.strengthenCount.set plan.slot
          plan.strengthenCount } }
  storeAt (·.edgePlasticity.weakenCount.length) plan.slot fun graph =>
    { graph with
      edgePlasticity := {
        graph.edgePlasticity with
        weakenCount := graph.edgePlasticity.weakenCount.set plan.slot plan.weakenCount } }
  storeAt (·.edgePlasticity.ltpApplied.length) plan.slot fun graph =>
    { graph with
      edgePlasticity := {
        graph.edgePlasticity with
        ltpApplied := graph.edgePlasticity.ltpApplied.set plan.slot plan.ltpApplied } }
  storeAt (·.edgePlasticity.ltdApplied.length) plan.slot fun graph =>
    { graph with
      edgePlasticity := {
        graph.edgePlasticity with
        ltdApplied := graph.edgePlasticity.ltdApplied.set plan.slot plan.ltdApplied } }
  storeAt (·.edgePlasticity.lastUsedQuery.length) plan.slot fun graph =>
    { graph with
      edgePlasticity := {
        graph.edgePlasticity with
        lastUsedQuery := graph.edgePlasticity.lastUsedQuery.set plan.slot plan.lastUsedQuery } }

-- The import as it runs on the engine and the graph in place, with the state it leaves also where
-- it ends in an error.
def PlasticityEngine.importStateInPlace [DecidableEq W] (engine : PlasticityEngine W F)
    (graph : Graph W T) (states : List (SynapticState F)) :
    Except SnapshotError Nat × PlasticityEngine W F × Graph W T :=
  match planState graph states with
  | .error e => (.error e, engine, graph)
  | .ok plans =>
      match (forM plans RestorePlan.write).run.run graph with
      | (.error e, graph) => (.error e, engine, graph)
      | (.ok (), graph) =>
          (.ok plans.length,
            { engine with
              queryCount := plans.foldl (fun count plan => max count plan.lastUsedQuery)
                engine.queryCount },
            graph)

end Writes

section Run

variable {graph : Graph W T} {plan : RestorePlan F}

theorem run_bind {α β : Type} {x : ExceptT SnapshotError (StateM (Graph W T)) α}
    {f : α → ExceptT SnapshotError (StateM (Graph W T)) β} {a : α} {next : Graph W T}
    (hx : x.run.run graph = (.ok a, next)) : (x >>= f).run.run graph = (f a).run.run next := by
  rw [ExceptT.run_bind, StateT.run_bind, hx]
  rfl

theorem run_storeAt {length : Graph W T → Nat} {slot : Nat} {write : Graph W T → Graph W T}
    (h : slot < length graph) :
    (storeAt length slot write).run.run graph = (.ok (), write graph) := by
  have hlength : ¬ length graph ≤ slot := Nat.not_le.mpr h
  have hget : (get : ExceptT SnapshotError (StateM (Graph W T)) (Graph W T)).run.run graph =
      (.ok graph, graph) := rfl
  rw [storeAt, run_bind hget, if_neg hlength]
  rfl

variable [FiniteF32 W F]

-- A slot of the graph is in all arrays.
theorem run_write {size : Nat} {plan : RestorePlan F} (h : graph.edgePlasticity.HasLength size)
    (hweights : graph.csr.weights.length = size) (hslot : plan.slot < size) :
    plan.write.run.run graph = (.ok (), plan.apply graph) := by
  unfold RestorePlan.write
  rw [run_bind (run_storeAt (hweights ▸ hslot)), run_bind (run_storeAt (h.originalWeight ▸ hslot)),
    run_bind (run_storeAt (h.currentWeight ▸ hslot)),
    run_bind (run_storeAt (h.strengthenCount ▸ hslot)),
    run_bind (run_storeAt (h.weakenCount ▸ hslot)), run_bind (run_storeAt (h.ltpApplied ▸ hslot)),
    run_bind (run_storeAt (h.ltdApplied ▸ hslot)), run_storeAt (h.lastUsedQuery ▸ hslot)]
  rfl

theorem run_forM_write {size : Nat} (plans : List (RestorePlan F))
    (h : graph.edgePlasticity.HasLength size) (hweights : graph.csr.weights.length = size)
    (hslots : ∀ plan ∈ plans, plan.slot < size) :
    (forM plans RestorePlan.write).run.run graph =
      (.ok (), plans.foldl RestorePlan.apply graph) := by
  induction plans generalizing graph with
  | nil => rfl
  | cons plan plans ih =>
      obtain ⟨hslot, hslots⟩ := List.forall_mem_cons.mp hslots
      rw [List.forM_cons, run_bind (run_write h hweights hslot)]
      exact ih (h.store _ _) (List.length_set.trans hweights) hslots

end Run

section Validation

variable [FiniteF32 W F] [DecidableEq W] {graph : Graph W T} {keys : List (Option FullKey)}
  {importing next : Importing F} {state : SynapticState F} {states : List (SynapticState F)}

theorem lt_of_tripleAt {slot : Nat} {triple : Triple} (h : tripleAt keys slot = some triple) :
    slot < keys.length := by
  by_contra hlt
  rw [tripleAt, List.getD_eq_getElem?_getD, List.getElem?_eq_none (Nat.le_of_not_lt hlt)] at h
  exact absurd h (by simp)

-- A plan is for a slot of the graph.
theorem slot_lt_of_foldlM (hstart : ∀ plan ∈ importing.plans, plan.slot < keys.length)
    (h : states.foldlM (planSynapse graph keys) importing = .ok next) :
    ∀ plan ∈ next.plans, plan.slot < keys.length := by
  refine foldlM_invariant (fun importing : Importing F =>
    ∀ plan ∈ importing.plans, plan.slot < keys.length) hstart ?_ h
  intro importing hplans state _ next hnext
  obtain ⟨-, slot, cursor, hresolve, -, rfl⟩ := planSynapse_eq_ok.mp hnext
  cases slot with
  | none => exact hplans
  | some slot =>
      intro plan hplan
      obtain hplan | hplan := List.mem_append.mp hplan
      · exact hplans plan hplan
      · obtain rfl := List.mem_singleton.mp hplan
        exact lt_of_tripleAt ((resolveSynapse_resolves hresolve).triple slot rfl)

omit [DecidableEq W] in
theorem length_synapticKeys (h : synapticKeys graph = .ok keys) :
    keys.length = graph.csr.numEdges := by
  obtain ⟨sources, -, hkeys⟩ := bind_eq_ok.mp h
  have hlength := (mapM_eq_ok.mp hkeys).length_eq
  rw [List.length_range] at hlength
  exact hlength.symm

namespace PlasticityEngine

variable {engine : PlasticityEngine W F}

-- Once the rows are resolved no write fails.
theorem importStateInPlace_eq (engine : PlasticityEngine W F) (graph : Graph W T)
    (states : List (SynapticState F)) :
    (∃ e, planState graph states = .error e ∧
      engine.importStateInPlace graph states = (.error e, engine, graph)) ∨
    ∃ count engine' next, engine.importState graph states = .ok (count, engine', next) ∧
      engine.importStateInPlace graph states = (.ok count, engine', next) := by
  cases hplans : planState graph states with
  | error e =>
      left
      refine ⟨e, rfl, ?_⟩
      rw [importStateInPlace, hplans]
  | ok plans =>
      right
      obtain ⟨howned, keys, importing, hkeys, himporting, rfl⟩ := planState_eq_ok.mp hplans
      have hslots := slot_lt_of_foldlM (fun plan hplan => absurd hplan List.not_mem_nil) himporting
      rw [length_synapticKeys hkeys] at hslots
      have hrun := run_forM_write importing.plans howned.synapses howned.weights hslots
      refine ⟨_, _, _, importState_eq_ok.mpr ⟨howned, keys, importing, hkeys, himporting, rfl⟩, ?_⟩
      rw [importStateInPlace, hplans]
      dsimp only
      rw [hrun]

-- An import that ends in an error has changed nothing.
theorem importStateInPlace_atomic {e : SnapshotError} {engine' : PlasticityEngine W F}
    {next : Graph W T} (h : engine.importStateInPlace graph states = (.error e, engine', next)) :
    engine' = engine ∧ next = graph := by
  obtain ⟨e', -, he⟩ | ⟨count, engine'', next', -, hok⟩ :=
    engine.importStateInPlace_eq graph states
  · rw [he] at h
    obtain ⟨-, hrest⟩ := Prod.mk.inj h
    obtain ⟨hengine, hgraph⟩ := Prod.mk.inj hrest
    exact ⟨hengine.symm, hgraph.symm⟩
  · rw [hok] at h
    exact absurd (Prod.mk.inj h).1 nofun

theorem importStateInPlace_eq_ok {count : Nat} {engine' : PlasticityEngine W F} {next : Graph W T}
    (h : engine.importState graph states = .ok (count, engine', next)) :
    engine.importStateInPlace graph states = (.ok count, engine', next) := by
  obtain ⟨e, he, -⟩ | ⟨count', engine'', next', hok, hrun⟩ :=
    engine.importStateInPlace_eq graph states
  · obtain ⟨howned, keys, importing, hkeys, himporting, -⟩ := importState_eq_ok.mp h
    rw [planState_eq_ok.mpr ⟨howned, keys, importing, hkeys, himporting, rfl⟩] at he
    exact absurd he nofun
  · rw [h] at hok
    obtain ⟨rfl, hrest⟩ := Prod.mk.inj (Except.ok.inj hok)
    obtain ⟨rfl, rfl⟩ := Prod.mk.inj hrest
    exact hrun

end PlasticityEngine

end Validation

end M1nd.Core

namespace M1nd.Core

open M1nd.Library.Checks
open M1nd.Library.Loops

section Occurrences

variable {keys : List (Option FullKey)} {key : FullKey} {k j : Nat}

theorem fullSlots_concat (keys : List (Option FullKey)) (last : Option FullKey) (key : FullKey) :
    fullSlots (keys ++ [last]) key =
      fullSlots keys key ++ if last = some key then [keys.length] else [] := by
  have hbefore : (List.range keys.length).filter
      (fun j => (keys ++ [last]).getD j none = some key) = fullSlots keys key := by
    refine List.filter_congr fun j hj => ?_
    rw [List.getD_eq_getElem?_getD, List.getD_eq_getElem?_getD,
      List.getElem?_append_left (List.mem_range.mp hj)]
  rw [fullSlots, List.length_append, List.length_singleton, List.range_succ, List.filter_append,
    hbefore, List.filter_cons, List.filter_nil]
  simp

theorem length_fullSlots (keys : List (Option FullKey)) (key : FullKey) :
    (fullSlots keys key).length = keys.count (some key) := by
  induction keys using List.reverseRecOn with
  | nil => rfl
  | append_singleton keys last ih =>
      rw [fullSlots_concat, List.length_append, ih, List.count_append, List.count_singleton]
      by_cases hlast : last = some key
      · simp [hlast]
      · simp [hlast]

-- The slots of an identity are in their order. A slot stands behind those of its identity that
-- come before it.
theorem getElem?_fullSlots :
    (fullSlots keys key)[k]? = some j ↔
      keys[j]? = some (some key) ∧ (keys.take j).count (some key) = k := by
  induction keys using List.reverseRecOn with
  | nil => simp [fullSlots]
  | append_singleton keys last ih =>
      have hlt : ∀ slot ∈ fullSlots keys key, slot < keys.length :=
        fun slot hslot => List.mem_range.mp (List.mem_filter.mp hslot).1
      have hlast : ∀ slot, (if last = some key then [keys.length] else [])[slot]? = some j ↔
          last = some key ∧ slot = 0 ∧ j = keys.length := by
        intro slot
        by_cases he : last = some key
        · rw [if_pos he, List.getElem?_singleton]
          by_cases hslot : slot = 0
          · simp [he, hslot, eq_comm]
          · simp [hslot]
        · simp [he]
      rw [fullSlots_concat, List.getElem?_append]
      obtain hj | rfl | hj := Nat.lt_trichotomy j keys.length
      · rw [List.getElem?_append_left hj, List.take_append_of_le_length (Nat.le_of_lt hj), ← ih]
        split
        · exact .rfl
        · rename_i hk
          rw [hlast, List.getElem?_eq_none (Nat.le_of_not_lt hk)]
          exact ⟨fun h => absurd h.2.2 (Nat.ne_of_lt hj), nofun⟩
      · rw [List.getElem?_append_right (Nat.le_refl _), Nat.sub_self, List.take_left,
          ← length_fullSlots]
        split
        · rename_i hk
          constructor
          · intro h
            exact absurd (hlt _ (List.mem_of_getElem? h)) (Nat.lt_irrefl _)
          · rintro ⟨-, rfl⟩
            exact absurd hk (Nat.lt_irrefl _)
        · rename_i hk
          rw [hlast]
          simp only [List.getElem?_cons_zero, Option.some.injEq, and_true]
          exact and_congr_right fun _ => by omega
      · have hnone : (keys ++ [last])[j]? = none := by
          rw [List.getElem?_eq_none]
          rw [List.length_append, List.length_singleton]
          exact hj
        rw [hnone]
        refine iff_of_false ?_ nofun
        split
        · intro h
          exact absurd (hlt _ (List.mem_of_getElem? h)) (Nat.lt_asymm hj)
        · rw [hlast]
          exact fun h => absurd h.2.2 (Nat.ne_of_gt hj)

end Occurrences

section Keys

variable {W F T : Type} [Zero W] [FiniteF32 W F] {graph : Graph W T} {slot : Slot W}

def Graph.fullKey (graph : Graph W T) (slot : Slot W) : FullKey where
  triple := {
    source := (importedExtIds graph).getD slot.source ""
    target := (importedExtIds graph).getD slot.target ""
    relation := (graph.strings.tryResolve slot.relation).getD "" }
  direction := slot.direction.code
  inhibitory := slot.inhibitory

-- The labels of the slots, in the order of the slots.
def Graph.slotKeys (graph : Graph W T) : List (Option FullKey) :=
  graph.slots.map fun slot => some (graph.fullKey slot)

omit [Zero W] in
theorem length_importedExtIds (graph : Graph W T) :
    (importedExtIds graph).length = graph.nodes.count := by
  have hfold : ∀ (step : List String → Nat × Nat → List String),
      (∀ ids entry, (step ids entry).length = ids.length) →
        ∀ (entries : List (Nat × Nat)) (ids : List String), (entries.foldl step ids).length = ids.length := by
    intro step hstep entries
    induction entries with
    | nil => exact fun _ => rfl
    | cons entry entries ih =>
        intro ids
        rw [List.foldl_cons, ih, hstep]
  refine (hfold _ (fun ids entry => ?_) _ _).trans List.length_replicate
  split
  · exact List.length_set
  · rfl

theorem Graph.Coherent.synapticState_complete (h : graph.Coherent F)
    (hfinal : graph.finalized = true) (hslot : slot ∈ graph.slots) :
    (graph.synapticState slot : SynapticState F).triple = (graph.fullKey slot).triple ∧
      (graph.synapticState slot : SynapticState F).direction =
        some (graph.fullKey slot).direction ∧
      (graph.synapticState slot : SynapticState F).inhibitory =
        some (graph.fullKey slot).inhibitory := by
  obtain ⟨hsource, htarget, relation, hrelation⟩ := h.slot_lt hslot
  rw [← length_importedExtIds] at hsource htarget
  refine ⟨?_, rfl, rfl⟩
  simp only [SynapticState.triple, Graph.synapticState, Graph.fullKey, hrelation, Option.getD_some,
    List.getElem?_eq_getElem hsource, List.getElem?_eq_getElem htarget,
    List.getD_eq_getElem?_getD]

theorem Graph.Coherent.synapticKeys_eq (h : graph.Coherent F) (hfinal : graph.finalized = true) :
    synapticKeys graph = .ok graph.slotKeys := by
  obtain ⟨-, hlength⟩ := h.finalized hfinal
  have hlisted := h.tabled.listed
  have hslots : graph.slots.length = graph.csr.numEdges := by
    rw [Graph.slots, List.length_map, hlisted.length_edgeSlots, hlisted.numEdges]
  have hkey : ∀ (j : Nat) (slot : Slot W), graph.slots[j]? = some slot →
      synapticKey graph (importedExtIds graph)
        ((edgeSlots (graph.csr.offsets.length - 1) graph.csr.offsets).map Prod.fst) j =
          .ok (some (graph.fullKey slot)) := by
    intro j slot hslot
    obtain ⟨hsource, htarget, -⟩ := h.slot_lt (List.mem_of_getElem? hslot)
    rw [← length_importedExtIds] at hsource htarget
    rw [Graph.slots, List.getElem?_map] at hslot
    obtain ⟨entry, hentry, rfl⟩ := Option.map_eq_some_iff.mp hslot
    obtain ⟨rfl, hj⟩ := hlisted.snd_edgeSlots hentry
    unfold synapticKey
    simp only [List.getElem?_map, hentry, Option.map_some, orPanic_some,
      getElem?_eq_getD rfl hj 0, getElem?_eq_getD h.tabled.relations hj 0,
      getElem?_eq_getD h.tabled.directions hj .Forward,
      getElem?_eq_getD h.tabled.inhibitory hj false, bind, Except.bind]
    change entry.1 < _ at hsource
    change graph.csr.targets.getD entry.2 0 < _ at htarget
    rw [getElem?_eq_getD rfl hsource "", getElem?_eq_getD rfl htarget ""]
    rfl
  have hkeys := mapM_range hkey
  rw [hslots] at hkeys
  rw [synapticKeys, importedSources_eq hlisted hlength]
  exact hkeys

end Keys

end M1nd.Core
