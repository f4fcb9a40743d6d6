import M1nd.Control.ActionPolicy
import M1nd.Library.Collections

namespace M1nd.Control

open M1nd.Library.Checks
open M1nd.Library.Collections
open ActionPolicy

section Blank

private theorem isWhiteSpace_HEX (nibble : UInt8) : isWhiteSpace (HEX nibble) = false := by
  have hdigits : ("0123456789abcdef".toList.all fun c => !isWhiteSpace c) = true := by decide
  have hmem : HEX nibble ∈ "0123456789abcdef".toList := by
    rw [HEX, List.getD_eq_getElem?_getD]
    cases h : "0123456789abcdef".toList[nibble.toNat]? with
    | none => decide
    | some digit => exact List.mem_of_getElem? h
  exact Bool.not_eq_true' _ |>.mp (List.all_eq_true.mp hdigits _ hmem)

theorem isBlank_digestCanonical [Sha256] (domain : String) (value : Library.Json.Value) :
    isBlank (digestCanonical domain value) = false := by
  have hlength (bytes : Vector UInt8 32) : ∃ head tail, bytes.toList = head :: tail := by
    have h : bytes.toList.length = 32 := by simp
    cases hlist : bytes.toList with
    | nil => simp [hlist] at h
    | cons head tail => exact ⟨head, tail, rfl⟩
  unfold digestCanonical digestDomainBytes
  obtain ⟨head, tail, hlist⟩ := hlength (Sha256.finalize (digestPreimage domain (canonicalJson value)))
  rw [hlist]
  simp [isBlank, hexLower, isWhiteSpace_HEX]

end Blank

section Tuples

-- The grant and the tier a variant acts under.
def ReachablePolicyTupleV1.GrantTierFits (tuple : ReachablePolicyTupleV1) : Prop :=
  match tuple.authorityVariant with
  | .Human | .SafetyKernel => tuple.applicableGrantId = none ∧ tuple.applicableTier = none
  | .Policy | .AgentQuorum => tuple.applicableGrantId ≠ none ∧ tuple.applicableTier ≠ none
  | .Ordinary => tuple.applicableGrantId = none ↔ tuple.applicableTier = none

structure ReachablePolicyTupleV1.Valid (tuple : ReachablePolicyTupleV1) : Prop where
  action : isBlank tuple.action = false
  subject : isBlank tuple.subjectId = false
  grant : ∀ grant, tuple.applicableGrantId = some grant → isBlank grant = false
  grantTier : tuple.GrantTierFits
  mode : modeMatches tuple.activeMode tuple.authorityVariant = true

theorem ActionPolicy.requireNonEmpty_eq_ok {field value : String} :
    requireNonEmpty field value = .ok () ↔ isBlank value = false := by
  rw [requireNonEmpty, rejectIf_eq_ok, Bool.not_eq_true]

theorem ActionPolicy.validateGrantTier_eq_ok {tuple : ReachablePolicyTupleV1} :
    validateGrantTier tuple = .ok () ↔ tuple.GrantTierFits := by
  unfold validateGrantTier ReachablePolicyTupleV1.GrantTierFits
  cases tuple.authorityVariant <;> cases tuple.applicableGrantId <;>
    cases tuple.applicableTier <;> simp [rejectIf]

theorem ActionPolicy.validateTuple_eq_ok {tuple : ReachablePolicyTupleV1} :
    validateTuple tuple = .ok () ↔ tuple.Valid := by
  simp only [validateTuple, validateOptionalNonEmpty, bind_eq_ok, exists_unit,
    requireNonEmpty_eq_ok, validateGrantTier_eq_ok, rejectIf_eq_ok, not_not]
  constructor
  · rintro ⟨haction, hsubject, hgrant, hfits, hmode⟩
    refine ⟨haction, hsubject, fun grant hsome => ?_, hfits, hmode⟩
    simpa [hsome] using hgrant
  · rintro ⟨haction, hsubject, hgrant, hfits, hmode⟩
    refine ⟨haction, hsubject, ?_, hfits, hmode⟩
    cases hsome : tuple.applicableGrantId with
    | none => simp
    | some grant => simpa using hgrant grant hsome

end Tuples

section Effects

-- Safety rules have only safety effects, the others none. An ordinary rule has no sovereign
-- effect and a positive sovereign rule has it.
structure ActionPolicyRuleV1.Separated (rule : ActionPolicyRuleV1) : Prop where
  safety : rule.tuple.authorityVariant = .SafetyKernel →
    ∀ effect ∈ rule.effects, effect.isNegativeSafety = true
  other : rule.tuple.authorityVariant ≠ .SafetyKernel →
    ∀ effect ∈ rule.effects, effect.isNegativeSafety = false
  ordinary : rule.tuple.authorityVariant = .Ordinary → .SovereignMutation ∉ rule.effects
  positive : rule.tuple.authorityVariant.isPositiveSovereign = true →
    .SovereignMutation ∈ rule.effects

theorem ActionPolicy.validateEffectPath_eq_ok {rule : ActionPolicyRuleV1} :
    validateEffectPath rule = .ok () ↔ rule.Separated := by
  have hsafety : (∀ effect ∈ rule.effects.toList, effect.isNegativeSafety = true) ↔
      ∀ effect ∈ rule.effects, effect.isNegativeSafety = true := by
    simp only [Std.ExtTreeSet.mem_toList]
  have hother : (∀ effect ∈ rule.effects.toList, effect.isNegativeSafety = false) ↔
      ∀ effect ∈ rule.effects, effect.isNegativeSafety = false := by
    simp only [Std.ExtTreeSet.mem_toList]
  unfold validateEffectPath
  constructor
  · intro h
    cases hvariant : rule.tuple.authorityVariant with
    | SafetyKernel =>
        simp only [hvariant, forM_eq_ok, rejectIf_eq_ok, not_not, hsafety] at h
        constructor <;> simp_all [AuthorityVariant.isPositiveSovereign]
    | Ordinary | Human | Policy | AgentQuorum =>
        simp only [hvariant, bind_eq_ok, exists_unit, forM_eq_ok, rejectIf_eq_ok, not_and,
          Bool.not_eq_true, not_not, hother] at h
        constructor <;> simp_all [AuthorityVariant.isPositiveSovereign]
  · intro h
    cases hvariant : rule.tuple.authorityVariant with
    | SafetyKernel =>
        simp only [forM_eq_ok, rejectIf_eq_ok, not_not, hsafety]
        exact h.safety hvariant
    | Ordinary | Human | Policy | AgentQuorum =>
        simp only [bind_eq_ok, exists_unit, forM_eq_ok, rejectIf_eq_ok, not_and,
          Bool.not_eq_true, not_not, hother]
        refine ⟨h.other (by simp [hvariant]), fun hordinary => ?_, fun hpositive => ?_⟩
        · exact h.ordinary (by simp [hvariant, hordinary])
        · exact h.positive (by simpa [hvariant] using hpositive)

end Effects

section Loops

def ActionPolicy.Reach.insert (reach : Reach) (tuple : ReachablePolicyTupleV1) : Reach where
  reachable := reach.reachable.insert tuple
  actions := reach.actions.insert tuple.action

theorem ActionPolicy.Reach.foldlM_add_eq_ok {tuples : List ReachablePolicyTupleV1} {reach : Reach} :
    tuples.foldlM Reach.add .none = .ok reach ↔
      (∀ tuple ∈ tuples, tuple.Valid) ∧ tuples.Nodup ∧ reach = tuples.foldl Reach.insert .none := by
  have hstep (reach : Reach) (tuple : ReachablePolicyTupleV1) (next : Reach) :
      reach.add tuple = .ok next ↔
        tuple.Valid ∧ ¬ id tuple ∈ reach.reachable ∧ next = reach.insert tuple := by
    simp only [add, bind_eq_ok, exists_unit, validateTuple_eq_ok, rejectIf_eq_ok, pure_eq_ok,
      insert, id_eq, eq_comm (a := next)]
  have hseen (reach : Reach) (tuple k : ReachablePolicyTupleV1) :
      k ∈ (reach.insert tuple).reachable ↔ k = id tuple ∨ k ∈ reach.reachable := by
    simp only [insert, mem_insert_iff, id_eq]
  have hnone (tuple : ReachablePolicyTupleV1) : tuple ∉ Reach.none.reachable := by
    simp [none]
  rw [foldlM_distinct_eq_ok hstep hseen]
  simp only [hnone, not_false_eq_true, and_true, List.map_id]

theorem ActionPolicy.Reach.mem_reachable (tuples : List ReachablePolicyTupleV1)
    (tuple : ReachablePolicyTupleV1) :
    tuple ∈ (tuples.foldl Reach.insert .none).reachable ↔ tuple ∈ tuples := by
  have hseen (reach : Reach) (tuple k : ReachablePolicyTupleV1) :
      k ∈ (reach.insert tuple).reachable ↔ k = id tuple ∨ k ∈ reach.reachable := by
    simp only [insert, mem_insert_iff, id_eq]
  have h := seen_foldl (fun reach tuple => tuple ∈ Reach.reachable reach) hseen tuples .none tuple
  simpa [none] using h

theorem ActionPolicy.Reach.mem_actions (tuples : List ReachablePolicyTupleV1) (action : String) :
    action ∈ (tuples.foldl Reach.insert .none).actions ↔
      action ∈ tuples.map ReachablePolicyTupleV1.action := by
  have hseen (reach : Reach) (tuple : ReachablePolicyTupleV1) (k : String) :
      k ∈ (reach.insert tuple).actions ↔ k = tuple.action ∨ k ∈ reach.actions := by
    simp only [insert, mem_insert_iff]
  have h := seen_foldl (fun reach action => action ∈ Reach.actions reach) hseen tuples .none action
  simpa [none] using h

def ActionPolicy.Floors.insertFloor (floors : Floors) (floor : ActionEffectFloorV1) : Floors :=
  floors.insert floor.action floor.requiredEffects

theorem ActionPolicy.Floors.mem_insertFloor (floors : Floors) (floor : ActionEffectFloorV1)
    (action : String) :
    action ∈ floors.insertFloor floor ↔ action = floor.action ∨ action ∈ floors := by
  rw [insertFloor, Std.ExtTreeMap.mem_insert, Std.LawfulEqCmp.compare_eq_iff_eq, eq_comm]

theorem ActionPolicy.Floors.foldlM_add_eq_ok {items : List ActionEffectFloorV1} {floors : Floors} :
    items.foldlM Floors.add ∅ = .ok floors ↔
      (∀ floor ∈ items, isBlank floor.action = false ∧ floor.requiredEffects.isEmpty = false) ∧
        (items.map ActionEffectFloorV1.action).Nodup ∧
          floors = items.foldl Floors.insertFloor ∅ := by
  have hstep (floors : Floors) (floor : ActionEffectFloorV1) (next : Floors) :
      floors.add floor = .ok next ↔
        (isBlank floor.action = false ∧ floor.requiredEffects.isEmpty = false) ∧
          ¬ floor.action ∈ floors ∧ next = floors.insertFloor floor := by
    simp only [add, bind_eq_ok, exists_unit, requireNonEmpty_eq_ok, rejectIf_eq_ok, pure_eq_ok,
      Bool.not_eq_true, insertFloor, and_assoc, eq_comm (a := next)]
  rw [foldlM_distinct_eq_ok hstep mem_insertFloor]
  simp

theorem ActionPolicy.Floors.mem_foldl (items : List ActionEffectFloorV1) (action : String) :
    action ∈ items.foldl Floors.insertFloor ∅ ↔ action ∈ items.map ActionEffectFloorV1.action := by
  have h := seen_foldl (fun (floors : Floors) action => action ∈ floors) mem_insertFloor items ∅
    action
  simpa using h

private theorem ActionPolicy.Floors.getElem?_foldl_of_notMem {items : List ActionEffectFloorV1}
    {floors : Floors} {action : String} (h : action ∉ items.map ActionEffectFloorV1.action) :
    (items.foldl Floors.insertFloor floors)[action]? = floors[action]? := by
  induction items generalizing floors with
  | nil => rfl
  | cons floor items ih =>
      rw [List.map_cons, List.mem_cons, not_or] at h
      rw [List.foldl_cons, ih h.2, insertFloor, Std.ExtTreeMap.getElem?_insert]
      simp [Ne.symm h.1]

theorem ActionPolicy.Floors.required_foldl {items : List ActionEffectFloorV1} {floors : Floors}
    {floor : ActionEffectFloorV1} (hfloor : floor ∈ items)
    (hnodup : (items.map ActionEffectFloorV1.action).Nodup) :
    (items.foldl Floors.insertFloor floors).required floor.action = floor.requiredEffects := by
  induction items generalizing floors with
  | nil => exact absurd hfloor List.not_mem_nil
  | cons head items ih =>
      rw [List.map_cons, List.nodup_cons] at hnodup
      rw [List.foldl_cons]
      cases hfloor with
      | head =>
          rw [required, getElem?_foldl_of_notMem hnodup.1, insertFloor]
          simp
      | tail _ hmem => exact ih hmem hnodup.2

-- A rule the loop over the rules lets pass.
structure ActionPolicy.Covers (reachable : BTreeSet ReachablePolicyTupleV1) (floors : Floors)
    (rule : ActionPolicyRuleV1) : Prop where
  valid : rule.tuple.Valid
  effects : rule.effects.isEmpty = false
  reachable : rule.tuple ∈ reachable
  separated : rule.Separated
  floor : ∀ effect ∈ floors.required rule.tuple.action, effect ∈ rule.effects

theorem ActionPolicy.cover_eq_ok {reachable covered next : BTreeSet ReachablePolicyTupleV1}
    {floors : Floors} {rule : ActionPolicyRuleV1} :
    cover reachable floors covered rule = .ok next ↔
      Covers reachable floors rule ∧ ¬ rule.tuple ∈ covered ∧ next = covered.insert rule.tuple := by
  have hfloor : (∀ effect ∈ (floors.required rule.tuple.action).toList, effect ∈ rule.effects) ↔
      ∀ effect ∈ floors.required rule.tuple.action, effect ∈ rule.effects := by
    simp only [Std.ExtTreeSet.mem_toList]
  simp only [cover, bind_eq_ok, exists_unit, validateTuple_eq_ok, rejectIf_eq_ok, pure_eq_ok,
    Bool.not_eq_true, not_not, validateEffectPath_eq_ok, forM_eq_ok, hfloor]
  constructor
  · rintro ⟨hvalid, heffects, hnew, hreachable, hseparated, hfloor, rfl⟩
    exact ⟨⟨hvalid, heffects, hreachable, hseparated, hfloor⟩, hnew, rfl⟩
  · rintro ⟨⟨hvalid, heffects, hreachable, hseparated, hfloor⟩, hnew, rfl⟩
    exact ⟨hvalid, heffects, hnew, hreachable, hseparated, hfloor, rfl⟩

private theorem ActionPolicy.mem_insertRule (covered : BTreeSet ReachablePolicyTupleV1)
    (rule : ActionPolicyRuleV1) (tuple : ReachablePolicyTupleV1) :
    tuple ∈ covered.insert rule.tuple ↔ tuple = rule.tuple ∨ tuple ∈ covered :=
  mem_insert_iff

theorem ActionPolicy.foldlM_cover_eq_ok {reachable covered : BTreeSet ReachablePolicyTupleV1}
    {floors : Floors} {rules : List ActionPolicyRuleV1} :
    rules.foldlM (cover reachable floors) ∅ = .ok covered ↔
      (∀ rule ∈ rules, Covers reachable floors rule) ∧
        (rules.map ActionPolicyRuleV1.tuple).Nodup ∧
          covered = rules.foldl (fun covered rule => covered.insert rule.tuple) ∅ := by
  have hstep (covered : BTreeSet ReachablePolicyTupleV1) (rule : ActionPolicyRuleV1)
      (next : BTreeSet ReachablePolicyTupleV1) :
      cover reachable floors covered rule = .ok next ↔
        Covers reachable floors rule ∧ ¬ rule.tuple ∈ covered ∧
          next = covered.insert rule.tuple :=
    cover_eq_ok
  rw [foldlM_distinct_eq_ok hstep mem_insertRule]
  simp

theorem ActionPolicy.mem_covered (rules : List ActionPolicyRuleV1)
    (tuple : ReachablePolicyTupleV1) :
    tuple ∈ rules.foldl (fun covered rule => covered.insert rule.tuple)
        (∅ : BTreeSet ReachablePolicyTupleV1) ↔ tuple ∈ rules.map ActionPolicyRuleV1.tuple := by
  have h := seen_foldl (fun (covered : BTreeSet ReachablePolicyTupleV1) tuple => tuple ∈ covered)
    mem_insertRule rules ∅ tuple
  simpa using h

end Loops

namespace ActionPolicyRegistryV1

variable {registry : ActionPolicyRegistryV1}

-- There is one rule for each reachable tuple and none for another.
structure RulesMatchTuples (registry : ActionPolicyRegistryV1) : Prop where
  tuples : registry.reachableTuples.Nodup
  rules : (registry.rules.map ActionPolicyRuleV1.tuple).Nodup
  same : ∀ tuple, tuple ∈ registry.rules.map ActionPolicyRuleV1.tuple ↔
    tuple ∈ registry.reachableTuples

-- There is one floor for each reachable action and none for another, and each has an effect.
structure FloorsMatchActions (registry : ActionPolicyRegistryV1) : Prop where
  floors : (registry.actionEffectFloors.map ActionEffectFloorV1.action).Nodup
  same : ∀ action, action ∈ registry.actionEffectFloors.map ActionEffectFloorV1.action ↔
    action ∈ registry.reachableTuples.map ReachablePolicyTupleV1.action
  effects : ∀ floor ∈ registry.actionEffectFloors, floor.requiredEffects.isEmpty = false

def RulesMeetFloors (registry : ActionPolicyRegistryV1) : Prop :=
  ∀ rule ∈ registry.rules, ∀ floor ∈ registry.actionEffectFloors,
    floor.action = rule.tuple.action → ∀ effect ∈ floor.requiredEffects, effect ∈ rule.effects

structure WellFormed (registry : ActionPolicyRegistryV1) : Prop where
  schema : registry.schema = ACTION_POLICY_REGISTRY_SCHEMA
  version : isBlank registry.policyVersion = false
  nonempty : registry.reachableTuples ≠ []
  valid : ∀ tuple ∈ registry.reachableTuples, tuple.Valid
  floors : registry.FloorsMatchActions

-- The lanes of a registry are separated.
structure SeparatesLanes [Sha256] (registry : ActionPolicyRegistryV1) : Prop where
  rules : registry.RulesMatchTuples
  floors : registry.RulesMeetFloors
  separated : ∀ rule ∈ registry.rules, rule.Separated
  digest : registry.policyDigest = registry.computePolicyDigest

variable [Sha256]

theorem policyDigest_seal (registry : ActionPolicyRegistryV1) :
    registry.seal.policyDigest = registry.seal.computePolicyDigest := rfl

theorem policyDigest_present (h : registry.policyDigest = registry.computePolicyDigest) :
    isBlank registry.policyDigest = false := by
  rw [h]
  exact isBlank_digestCanonical _ _

-- What the passes of the validation establish, in their order.
theorem validate_eq_ok {v : PolicyValidation} :
    registry.validate = .ok v → registry.WellFormed ∧ registry.SeparatesLanes := by
  intro h
  simp only [validate, bind_eq_ok, exists_unit, rejectIf_eq_ok, requireNonEmpty_eq_ok, not_not,
    Reach.foldlM_add_eq_ok, Floors.foldlM_add_eq_ok, foldlM_cover_eq_ok, forM_eq_ok,
    Std.ExtTreeSet.mem_toList, Std.ExtTreeMap.mem_keys] at h
  obtain ⟨hschema, hversion, -, htuples, -, -, reach, ⟨hvalid, hnodup, rfl⟩, floors,
    ⟨hfloors, hdistinct, rfl⟩, hmissing, hextra, covered, ⟨hcovers, hrules, rfl⟩, hcovered,
    hdigest, -⟩ := h
  simp only [Reach.mem_actions, Floors.mem_foldl] at hmissing hextra
  simp only [Reach.mem_reachable, mem_covered] at hcovered
  refine ⟨⟨hschema, hversion, htuples, hvalid, hdistinct, ?_, ?_⟩, ⟨hnodup, hrules, ?_⟩, ?_, ?_,
    hdigest⟩
  · exact fun action => ⟨hextra action, hmissing action⟩
  · exact fun floor hfloor => (hfloors floor hfloor).2
  · intro tuple
    refine ⟨fun hmem => ?_, hcovered tuple⟩
    obtain ⟨rule, hrule, rfl⟩ := List.mem_map.mp hmem
    exact (Reach.mem_reachable _ _).mp (hcovers rule hrule).reachable
  · intro rule hrule floor hfloor haction effect heffect
    have hmeets := (hcovers rule hrule).floor effect
    rw [← haction, Floors.required_foldl hfloor hdistinct] at hmeets
    exact hmeets heffect
  · exact fun rule hrule => (hcovers rule hrule).separated

theorem validate_of_wellFormed (hwell : registry.WellFormed) (hlanes : registry.SeparatesLanes) :
    ∃ v, registry.validate = .ok v := by
  have hreach (tuple : ReachablePolicyTupleV1) (h : tuple ∈ registry.reachableTuples) :
      ∃ rule ∈ registry.rules, rule.tuple = tuple :=
    List.mem_map.mp ((hlanes.rules.same tuple).mpr h)
  have hfloor (tuple : ReachablePolicyTupleV1) (h : tuple ∈ registry.reachableTuples) :
      ∃ floor ∈ registry.actionEffectFloors, floor.action = tuple.action :=
    List.mem_map.mp ((hwell.floors.same tuple.action).mpr (List.mem_map_of_mem h))
  obtain ⟨first, hfirst⟩ := List.exists_mem_of_ne_nil _ hwell.nonempty
  obtain ⟨rule, hrule, -⟩ := hreach first hfirst
  obtain ⟨floor, hfirstFloor, -⟩ := hfloor first hfirst
  simp only [validate, bind_eq_ok, exists_unit, rejectIf_eq_ok, requireNonEmpty_eq_ok, not_not,
    Reach.foldlM_add_eq_ok, Floors.foldlM_add_eq_ok, foldlM_cover_eq_ok, forM_eq_ok,
    Std.ExtTreeSet.mem_toList, Std.ExtTreeMap.mem_keys, pure_eq_ok]
  refine ⟨_, hwell.schema, hwell.version, policyDigest_present hlanes.digest, hwell.nonempty, ?_, ?_,
    _, ⟨hwell.valid, hlanes.rules.tuples, rfl⟩, _, ⟨?_, hwell.floors.floors, rfl⟩, ?_, ?_, _,
    ⟨?_, hlanes.rules.rules, rfl⟩, ?_, hlanes.digest, rfl⟩
  · rw [List.isEmpty_iff]
    exact List.ne_nil_of_mem hrule
  · rw [List.isEmpty_iff]
    exact List.ne_nil_of_mem hfirstFloor
  · intro floor hmem
    refine ⟨?_, hwell.floors.effects floor hmem⟩
    obtain ⟨tuple, htuple, haction⟩ :=
      List.mem_map.mp ((hwell.floors.same _).mp (List.mem_map_of_mem hmem))
    rw [← haction]
    exact (hwell.valid tuple htuple).action
  · intro action haction
    rw [Reach.mem_actions] at haction
    rw [Floors.mem_foldl]
    exact (hwell.floors.same action).mpr haction
  · intro action haction
    rw [Floors.mem_foldl] at haction
    rw [Reach.mem_actions]
    exact (hwell.floors.same action).mp haction
  · intro rule hrule
    have hreachable : rule.tuple ∈ registry.reachableTuples :=
      (hlanes.rules.same _).mp (List.mem_map_of_mem hrule)
    obtain ⟨floor, hmem, haction⟩ := hfloor rule.tuple hreachable
    have hrequired : Floors.required (registry.actionEffectFloors.foldl Floors.insertFloor ∅)
        rule.tuple.action = floor.requiredEffects := by
      rw [← haction]
      exact Floors.required_foldl hmem hwell.floors.floors
    have hmeets := hlanes.floors rule hrule floor hmem haction
    refine ⟨hwell.valid _ hreachable, ?_, (Reach.mem_reachable _ _).mpr hreachable,
      hlanes.separated rule hrule, ?_⟩
    · obtain ⟨effect, heffect⟩ := exists_mem_iff.mpr (hwell.floors.effects floor hmem)
      exact exists_mem_iff.mp ⟨effect, hmeets effect heffect⟩
    · rw [hrequired]
      exact hmeets
  · intro tuple htuple
    rw [Reach.mem_reachable] at htuple
    rw [mem_covered]
    exact (hlanes.rules.same tuple).mpr htuple

-- A floor has an effect, and every rule of its action has that effect. It is a safety effect
-- or it is none.
theorem safety_action_only_safety (hwell : registry.WellFormed)
    (hlanes : registry.SeparatesLanes) {safety other : ReachablePolicyTupleV1}
    (hsafety : safety ∈ registry.reachableTuples) (hother : other ∈ registry.reachableTuples)
    (haction : other.action = safety.action) (hvariant : safety.authorityVariant = .SafetyKernel) :
    other.authorityVariant = .SafetyKernel := by
  by_contra hne
  obtain ⟨safetyRule, hsafetyRule, rfl⟩ := List.mem_map.mp ((hlanes.rules.same _).mpr hsafety)
  obtain ⟨otherRule, hotherRule, rfl⟩ := List.mem_map.mp ((hlanes.rules.same _).mpr hother)
  obtain ⟨floor, hfloor, hof⟩ :=
    List.mem_map.mp ((hwell.floors.same _).mpr (List.mem_map_of_mem hsafety))
  obtain ⟨effect, heffect⟩ := exists_mem_iff.mpr (hwell.floors.effects floor hfloor)
  have hin := hlanes.floors safetyRule hsafetyRule floor hfloor hof effect heffect
  have hin' := hlanes.floors otherRule hotherRule floor hfloor (hof.trans haction.symm) effect heffect
  have hnegative := (hlanes.separated safetyRule hsafetyRule).safety hvariant effect hin
  have hpositive := (hlanes.separated otherRule hotherRule).other hne effect hin'
  rw [hnegative] at hpositive
  exact absurd hpositive nofun

theorem validates_iff_separates_lanes (registry : ActionPolicyRegistryV1) :
    ((∃ v, registry.validate = .ok v) ↔ registry.WellFormed ∧ registry.SeparatesLanes) ∧
      ((∃ v, registry.validate = .ok v) →
        ∀ safety ∈ registry.reachableTuples, ∀ other ∈ registry.reachableTuples,
          other.action = safety.action → safety.authorityVariant = .SafetyKernel →
            other.authorityVariant = .SafetyKernel) := by
  refine ⟨⟨fun ⟨v, h⟩ => validate_eq_ok h, fun ⟨hwell, hlanes⟩ => ?_⟩, ?_⟩
  · exact validate_of_wellFormed hwell hlanes
  · rintro ⟨v, h⟩ safety hsafety other hother haction hvariant
    obtain ⟨hwell, hlanes⟩ := validate_eq_ok h
    exact safety_action_only_safety hwell hlanes hsafety hother haction hvariant

end ActionPolicyRegistryV1

namespace ActionPolicy

def emptyRegistry : ActionPolicyRegistryV1 where
  schema := ACTION_POLICY_REGISTRY_SCHEMA
  policyVersion := "2026-07-18.1"
  reachableTuples := []
  rules := []
  actionEffectFloors := []
  policyDigest := ""

-- Nothing is reachable and no rule is missing, and the validation still asks for a tuple.
theorem empty_registry_refused :
    letI : Sha256 := standardSha256
    emptyRegistry.seal.SeparatesLanes ∧
      emptyRegistry.seal.validate = .error .NoReachableTuples := by
  let : Sha256 := standardSha256
  have hdigest := ActionPolicyRegistryV1.policyDigest_seal emptyRegistry
  have hversion : isBlank emptyRegistry.seal.policyVersion = false := by
    change isBlank "2026-07-18.1" = false
    decide
  constructor
  · refine ⟨⟨List.nodup_nil, List.nodup_nil, fun _ => Iff.rfl⟩, ?_, ?_, hdigest⟩
    · exact fun _ hrule => absurd hrule List.not_mem_nil
    · exact fun _ hrule => absurd hrule List.not_mem_nil
  · have hpresent := ActionPolicyRegistryV1.policyDigest_present hdigest
    simp only [ActionPolicyRegistryV1.validate, requireNonEmpty, hversion, hpresent, rejectIf]
    rfl

def seekTuple : ReachablePolicyTupleV1 where
  ingress := .Mcp
  action := "seek"
  activeMode := .HumanGated
  subjectId := "client:codex"
  authorityVariant := .Ordinary
  applicableGrantId := none
  applicableTier := none
  riskClass := .Low

def readOnly : BTreeSet Effect :=
  (∅ : BTreeSet Effect).insert .Read

def seekRegistry : ActionPolicyRegistryV1 where
  schema := ACTION_POLICY_REGISTRY_SCHEMA
  policyVersion := "2026-07-18.1"
  reachableTuples := [seekTuple]
  rules := [⟨seekTuple, readOnly⟩]
  actionEffectFloors := [⟨"seek", readOnly⟩]
  policyDigest := ""

theorem seek_registry_validates :
    letI : Sha256 := standardSha256
    ∃ v, seekRegistry.seal.validate = .ok v := by
  let : Sha256 := standardSha256
  have hread : ∀ effect, effect ∈ readOnly ↔ effect = .Read := by
    intro effect
    rw [readOnly, mem_insert_iff]
    simp
  have hblank : isBlank "2026-07-18.1" = false ∧ isBlank "seek" = false ∧
      isBlank "client:codex" = false := by decide
  refine (ActionPolicyRegistryV1.validates_iff_separates_lanes _).1.mpr ⟨?_, ?_⟩
  · refine ⟨rfl, hblank.1, List.cons_ne_nil _ _, ?_, ?_⟩
    · intro tuple htuple
      obtain rfl := List.mem_singleton.mp htuple
      have hgrant : seekTuple.GrantTierFits := ⟨fun _ => rfl, fun _ => rfl⟩
      exact ⟨hblank.2.1, hblank.2.2, nofun, hgrant, rfl⟩
    · refine ⟨List.nodup_singleton _, fun _ => Iff.rfl, fun floor hfloor => ?_⟩
      obtain rfl := List.mem_singleton.mp hfloor
      exact exists_mem_iff.mp ⟨.Read, (hread _).mpr rfl⟩
  · refine ⟨⟨List.nodup_singleton _, List.nodup_singleton _, fun _ => Iff.rfl⟩, ?_, ?_,
      ActionPolicyRegistryV1.policyDigest_seal _⟩
    · intro rule hrule floor hfloor _ effect heffect
      obtain rfl := List.mem_singleton.mp hrule
      obtain rfl := List.mem_singleton.mp hfloor
      exact heffect
    · intro rule hrule
      obtain rfl := List.mem_singleton.mp hrule
      refine ⟨nofun, fun _ effect heffect => ?_, fun _ heffect => ?_, nofun⟩
      · rw [(hread effect).mp heffect]
        rfl
      · exact absurd ((hread _).mp heffect) nofun

end ActionPolicy

end M1nd.Control
