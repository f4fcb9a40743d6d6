import M1nd.Control.Mission
import M1nd.Library.Loops

namespace M1nd.Control

open M1nd.Library.Checks
open M1nd.Library.Json (Value)
open M1nd.Library.Runs

-- One call of the mission service: it names the head that an accepted intent produces.
structure MissionCall where
  headId : String
  intent : MissionTransitionIntentV1
  payload : Value
  nowMs : Nat

def MissionCall.head (call : MissionCall) : MissionHeadSnapshot where
  headId := call.headId
  state := call.intent.toState
  iterationId := call.intent.iterationId
  packetDigest := call.intent.packetDigest

def missionTransition [Sha256] (brainId missionId : String) (current : Option MissionHeadSnapshot)
    (call : MissionCall) : Except MissionContractError (Option MissionHeadSnapshot) := do
  let _ ← call.intent.validate ⟨brainId, missionId, current⟩ call.payload call.nowMs
  return some call.head

namespace Mission

-- When each check accepts.

variable {field record actual expected observed value : String}

@[simp]
theorem requireSchema_eq_ok :
    requireSchema record actual expected = .ok () ↔ actual = expected := by
  simp [requireSchema]

@[simp]
theorem requireNonEmpty_eq_ok : requireNonEmpty field value = .ok () ↔ value ≠ "" := by
  simp [requireNonEmpty]

@[simp]
theorem requireOptionalNonEmpty_eq_ok {value : Option String} :
    requireOptionalNonEmpty field value = .ok () ↔ value ≠ some "" := by
  simp [requireOptionalNonEmpty]

@[simp]
theorem requireDigest_eq_ok : requireDigest field value = .ok () ↔ isDigest value = true := by
  simp [requireDigest]

@[simp]
theorem requireIteration_eq_ok {iterationId : Nat} :
    requireIteration iterationId = .ok () ↔ iterationId ≠ 0 := by
  simp [requireIteration]

@[simp]
theorem ensureDigest_eq_ok : ensureDigest field expected observed = .ok () ↔ expected = observed := by
  simp [ensureDigest]

@[simp]
theorem ensureHead_eq_ok {expected observed : Option String} :
    ensureHead expected observed = .ok () ↔ expected = observed := by
  simp [ensureHead]

end Mission

open Mission

-- The edges of the table.

theorem mem_of_missionTransitionRule {fromState : Option MissionState} {toState : MissionState}
    {rule : MissionTransitionRule} (h : missionTransitionRule fromState toState = some rule) :
    rule ∈ MISSION_TRANSITION_RULES ∧ rule.fromState = fromState ∧ rule.toState = toState := by
  have hmem : rule ∈ MISSION_TRANSITION_RULES := List.mem_of_find?_eq_some h
  have hfound := List.find?_some h
  simp only [Bool.and_eq_true, decide_eq_true_eq] at hfound
  exact ⟨hmem, hfound.1, hfound.2⟩

theorem legalTransition_eq_ok {fromState : Option MissionState} {toState : MissionState}
    {rule : MissionTransitionRule} :
    legalTransition fromState toState = .ok rule ↔
      missionTransitionRule fromState toState = some rule := by
  unfold legalTransition
  cases missionTransitionRule fromState toState <;> simp

theorem iteration_of_rule : ∀ rule ∈ MISSION_TRANSITION_RULES, rule.fromState ≠ none →
    rule.iteration = if rule.fromState = some .Revising then .Advance else .Preserve := by
  decide

theorem rule_not_from_terminal : ∀ rule ∈ MISSION_TRANSITION_RULES,
    ∀ state ∈ rule.fromState, state.isTerminal = false := by
  decide

-- Where an edge into each state of the landing path comes from.
def comesFrom : MissionState → List MissionState
  | .Landed => [.MergeWait]
  | .MergeWait => [.Gate, .Review]
  | .Review => [.Gate]
  | .Gate => [.Executing]
  | .Executing => [.Dispatching]
  | _ => [.Judging, .Revising, .Dispatching, .Executing, .Gate, .Review, .MergeWait]

theorem rule_comesFrom : ∀ rule ∈ MISSION_TRANSITION_RULES,
    ∀ state ∈ rule.fromState, state ∈ comesFrom rule.toState := by
  decide

-- What an accepted transition says of the head before it and the head it produces.
structure Edge (a b : MissionHeadSnapshot) : Prop where
  rule : ∃ rule, missionTransitionRule (some a.state) b.state = some rule
  advance : a.state = .Revising →
    b.iterationId = a.iterationId + 1 ∧ b.packetDigest ≠ a.packetDigest
  preserve : a.state ≠ .Revising → b.iterationId = a.iterationId ∧ b.packetDigest = a.packetDigest

structure Opens (a : MissionHeadSnapshot) : Prop where
  rule : ∃ rule, missionTransitionRule none a.state = some rule
  iteration : a.iterationId = 1

section Steps

variable [Sha256] {brainId missionId : String} {current next : Option MissionHeadSnapshot}
  {call : MissionCall}

theorem missionTransition_eq_ok (h : missionTransition brainId missionId current call = .ok next) :
    next = some call.head ∧ (current = none → Opens call.head) ∧
      ∀ head, current = some head → Edge head call.head := by
  simp only [missionTransition, bind_eq_ok, pure_eq_ok] at h
  obtain ⟨validation, hvalidate, rfl⟩ := h
  simp only [MissionTransitionIntentV1.validate, bind_eq_ok, exists_unit, rejectIf_eq_ok,
    pure_eq_ok] at hvalidate
  obtain ⟨-, -, -, rule, hrule, -, -, hhead, -⟩ := hvalidate
  have hfound : missionTransitionRule call.intent.fromState call.intent.toState = some rule :=
    legalTransition_eq_ok.mp hrule
  obtain ⟨hmem, hfrom, -⟩ := mem_of_missionTransitionRule hfound
  refine ⟨rfl, ?_, ?_⟩
  · rintro rfl
    simp only [MissionTransitionIntentV1.validateHead, bind_unit_eq_ok, ensureHead_eq_ok,
      rejectIf_eq_ok, Bool.not_eq_true, Option.isSome_eq_false_iff, Option.isNone_iff_eq_none, ne_eq,
      not_not] at hhead
    obtain ⟨-, hnone, hone⟩ := hhead
    rw [hnone] at hfound
    exact ⟨⟨rule, hfound⟩, hone⟩
  · rintro head rfl
    simp only [MissionTransitionIntentV1.validateHead, bind_eq_ok, exists_unit, ensureHead_eq_ok,
      rejectIf_eq_ok, ne_eq, not_not] at hhead
    obtain ⟨-, -, -, -, hstate, expected, hexpected, rfl, hpacket⟩ := hhead
    have hiteration := iteration_of_rule rule hmem (by simp [hfrom, hstate])
    rw [hstate] at hfound hfrom
    refine ⟨⟨rule, hfound⟩, ?_, ?_⟩
    · intro hrevising
      rw [hfrom, hrevising, if_pos rfl] at hiteration
      rw [hiteration] at hexpected hpacket
      simp only [expectedIteration, validatePacketDigest, rejectIf_eq_ok] at hexpected hpacket
      split at hexpected
      · exact ⟨(Except.ok.inj hexpected).symm, hpacket⟩
      · cases hexpected
    · intro hother
      rw [hfrom, if_neg (by simpa using hother)] at hiteration
      rw [hiteration] at hexpected hpacket
      simp only [expectedIteration, validatePacketDigest, rejectIf_eq_ok, ne_eq, not_not]
        at hexpected hpacket
      exact ⟨(Except.ok.inj hexpected).symm, hpacket⟩

end Steps

-- The heads of an accepted run, oldest first.
structure Recorded (heads : List MissionHeadSnapshot) : Prop where
  opens : ∀ first ∈ heads.head?, Opens first
  edges : heads.IsChain Edge

namespace Recorded

variable {heads before after : List MissionHeadSnapshot} {head last : MissionHeadSnapshot}

theorem nil : Recorded [] :=
  ⟨by simp, List.isChain_nil⟩

theorem first (h : Opens head) : Recorded [head] :=
  ⟨by simpa using h, List.isChain_singleton head⟩

theorem concat (h : Recorded heads) (hlast : heads.getLast? = some last) (hedge : Edge last head) :
    Recorded (heads ++ [head]) where
  opens := by
    have hne : heads ≠ [] := by
      rintro rfl
      simp at hlast
    rw [List.head?_append_of_ne_nil _ hne]
    exact h.opens
  edges := by
    refine List.isChain_append.mpr ⟨h.edges, List.isChain_singleton head, ?_⟩
    intro x hx y hy
    obtain rfl : last = x := Option.some.inj (hlast.symm.trans hx)
    obtain rfl : head = y := Option.some.inj hy
    exact hedge

theorem of_append (h : Recorded (before ++ after)) : Recorded before where
  opens := by
    cases before with
    | nil => simp
    | cons head before => exact h.opens
  edges := (List.isChain_append.mp h.edges).1

-- A head that does not open the mission was produced from the head before it.
theorem exists_before (h : Recorded (before ++ head :: after))
    (hopen : missionTransitionRule none head.state = none) :
    ∃ earlier previous, before = earlier ++ [previous] ∧ Edge previous head := by
  obtain rfl | ⟨earlier, previous, rfl⟩ := before.eq_nil_or_concat
  · obtain ⟨⟨rule, hrule⟩, -⟩ := h.opens head rfl
    rw [hopen] at hrule
    cases hrule
  · rw [List.concat_eq_append, List.append_assoc] at h
    refine ⟨earlier, previous, List.concat_eq_append, ?_⟩
    exact ((List.isChain_append.mp h.edges).2.1).rel

-- The iteration never goes back, and as long as it stands the packet digest does.
theorem constant (h : Recorded heads) : ∀ a ∈ heads, ∀ b ∈ heads,
    a.iterationId = b.iterationId → a.packetDigest = b.packetDigest := by
  let Within (a b : MissionHeadSnapshot) : Prop :=
    a.iterationId ≤ b.iterationId ∧ (a.iterationId = b.iterationId → a.packetDigest = b.packetDigest)
  have hedge : ∀ a b, Edge a b → Within a b := by
    intro a b hedge
    by_cases hrevising : a.state = .Revising
    · obtain ⟨hnext, -⟩ := hedge.advance hrevising
      exact ⟨by omega, fun hsame => by omega⟩
    · obtain ⟨hsame, hdigest⟩ := hedge.preserve hrevising
      exact ⟨by omega, fun _ => hdigest.symm⟩
  have htrans : IsTrans MissionHeadSnapshot Within := by
    refine ⟨fun a b c hab hbc => ⟨by omega, fun hsame => ?_⟩⟩
    have hmiddle : a.iterationId = b.iterationId := by omega
    have hlast : b.iterationId = c.iterationId := by omega
    exact (hab.2 hmiddle).trans (hbc.2 hlast)
  have hpairs : heads.Pairwise Within :=
    List.isChain_iff_pairwise.mp (h.edges.imp hedge)
  intro a ha b hb
  refine List.Pairwise.forall_of_forall_of_flip
    (R := fun a b => a.iterationId = b.iterationId → a.packetDigest = b.packetDigest)
    (fun _ _ _ => rfl) (hpairs.imp And.right) (hpairs.imp fun hwithin hsame => ?_) ha hb
  exact (hwithin.2 hsame.symm).symm

-- No head follows a terminal one.
theorem terminal_last (h : Recorded (before ++ head :: after)) (hterminal : head.state.isTerminal) :
    after = [] := by
  cases after with
  | nil => rfl
  | cons next after =>
      have hchain := (List.isChain_append.mp h.edges).2.1
      obtain ⟨rule, hrule⟩ := hchain.rel.rule
      obtain ⟨hmem, hfrom, -⟩ := mem_of_missionTransitionRule hrule
      rw [rule_not_from_terminal rule hmem head.state hfrom] at hterminal
      cases hterminal

end Recorded

-- Heads of one iteration, bound to one packet.
def MissionHeadSnapshot.Alike (a b : MissionHeadSnapshot) : Prop :=
  a.iterationId = b.iterationId ∧ a.packetDigest = b.packetDigest

theorem MissionHeadSnapshot.Alike.trans {a b c : MissionHeadSnapshot} (h : a.Alike b)
    (h' : b.Alike c) : a.Alike c :=
  ⟨h.1.trans h'.1, h.2.trans h'.2⟩

namespace Recorded

variable {before after : List MissionHeadSnapshot} {head : MissionHeadSnapshot}

-- One step back along the landing path, which stays inside the iteration.
theorem step_back (h : Recorded (before ++ head :: after))
    (hopen : missionTransitionRule none head.state = none)
    (hrevising : .Revising ∉ comesFrom head.state) :
    ∃ earlier previous, before = earlier ++ [previous] ∧ Recorded (earlier ++ [previous]) ∧
      previous.state ∈ comesFrom head.state ∧ previous.Alike head := by
  obtain ⟨earlier, previous, hbefore, hedge⟩ := h.exists_before hopen
  obtain ⟨rule, hrule⟩ := hedge.rule
  obtain ⟨hmem, hfrom, hto⟩ := mem_of_missionTransitionRule hrule
  have hcame : previous.state ∈ comesFrom head.state := by
    rw [← hto]
    exact rule_comesFrom rule hmem _ hfrom
  have hother : previous.state ≠ .Revising := by
    intro hsame
    rw [hsame] at hcame
    exact hrevising hcame
  obtain ⟨hiteration, hdigest⟩ := hedge.preserve hother
  have hrecorded : Recorded (earlier ++ [previous]) := by
    rw [← hbefore]
    exact h.of_append
  exact ⟨earlier, previous, hbefore, hrecorded, hcame, hiteration.symm, hdigest.symm⟩

theorem gate_passed (h : Recorded (before ++ head :: after)) (hstate : head.state = .Gate) :
    ∃ dispatching executing, [dispatching, executing].Sublist before ∧
      dispatching.state = .Dispatching ∧ executing.state = .Executing ∧
      dispatching.Alike head ∧ executing.Alike head := by
  obtain ⟨rest, executing, rfl, hrest, hexecuting, halike⟩ :=
    h.step_back (by rw [hstate]; rfl) (by rw [hstate]; decide)
  rw [hstate] at hexecuting
  have hexecuting : executing.state = .Executing := List.mem_singleton.mp hexecuting
  obtain ⟨start, dispatching, rfl, -, hdispatching, halike'⟩ :=
    hrest.step_back (by rw [hexecuting]; rfl) (by rw [hexecuting]; decide)
  rw [hexecuting] at hdispatching
  have hdispatching : dispatching.state = .Dispatching := List.mem_singleton.mp hdispatching
  refine ⟨dispatching, executing, ?_, hdispatching, hexecuting, halike'.trans halike, halike⟩
  simp

-- The gate is passed before the merge is waited for, with a review in between or without one.
theorem mergeWait_passed (h : Recorded (before ++ head :: after))
    (hstate : head.state = .MergeWait) :
    ∃ dispatching executing gate, [dispatching, executing, gate].Sublist before ∧
      dispatching.state = .Dispatching ∧ executing.state = .Executing ∧ gate.state = .Gate ∧
      dispatching.Alike head ∧ executing.Alike head ∧ gate.Alike head := by
  obtain ⟨rest, previous, rfl, hrest, hprevious, halike⟩ :=
    h.step_back (by rw [hstate]; rfl) (by rw [hstate]; decide)
  rw [hstate] at hprevious
  obtain hgate | hreview : previous.state = .Gate ∨ previous.state = .Review := by
    simpa [comesFrom] using hprevious
  · obtain ⟨dispatching, executing, hsublist, hdispatching, hexecuting, hfirst, hsecond⟩ :=
      hrest.gate_passed hgate
    refine ⟨dispatching, executing, previous, ?_, hdispatching, hexecuting, hgate,
      hfirst.trans halike, hsecond.trans halike, halike⟩
    exact hsublist.append (List.Sublist.refl [previous])
  · obtain ⟨start, gate, rfl, hstart, hgate, hbefore⟩ :=
      hrest.step_back (by rw [hreview]; rfl) (by rw [hreview]; decide)
    rw [hreview] at hgate
    have hgate : gate.state = .Gate := List.mem_singleton.mp hgate
    obtain ⟨dispatching, executing, hsublist, hdispatching, hexecuting, hfirst, hsecond⟩ :=
      hstart.gate_passed hgate
    refine ⟨dispatching, executing, gate, ?_, hdispatching, hexecuting, hgate,
      hfirst.trans (hbefore.trans halike), hsecond.trans (hbefore.trans halike),
      hbefore.trans halike⟩
    exact (hsublist.append (List.Sublist.refl [gate])).trans (List.sublist_append_left _ _)

theorem landed_passed (h : Recorded (before ++ head :: after)) (hstate : head.state = .Landed) :
    ∃ dispatching executing gate mergeWait,
      [dispatching, executing, gate, mergeWait].Sublist before ∧
      dispatching.state = .Dispatching ∧ executing.state = .Executing ∧ gate.state = .Gate ∧
      mergeWait.state = .MergeWait ∧ dispatching.Alike head ∧ executing.Alike head ∧
      gate.Alike head ∧ mergeWait.Alike head := by
  obtain ⟨rest, mergeWait, rfl, hrest, hmerge, halike⟩ :=
    h.step_back (by rw [hstate]; rfl) (by rw [hstate]; decide)
  rw [hstate] at hmerge
  have hmerge : mergeWait.state = .MergeWait := List.mem_singleton.mp hmerge
  obtain ⟨dispatching, executing, gate, hsublist, hdispatching, hexecuting, hgate, hfirst, hsecond,
    hthird⟩ := hrest.mergeWait_passed hmerge
  refine ⟨dispatching, executing, gate, mergeWait, ?_, hdispatching, hexecuting, hgate, hmerge,
    hfirst.trans halike, hsecond.trans halike, hthird.trans halike, halike⟩
  exact hsublist.append (List.Sublist.refl [mergeWait])

end Recorded

variable [Sha256] {brainId missionId : String}

theorem missionRun_recorded {calls : List MissionCall} {last : Option MissionHeadSnapshot}
    (h : replay (missionTransition brainId missionId) none calls = .ok last) :
    last = (calls.map MissionCall.head).getLast? ∧ Recorded (calls.map MissionCall.head) := by
  refine replay_invariant
    (fun calls last => last = (calls.map MissionCall.head).getLast? ∧
      Recorded (calls.map MissionCall.head)) ⟨rfl, .nil⟩ ?_ h
  rintro calls call current next ⟨hcurrent, hrecorded⟩ hstep
  obtain ⟨rfl, hopens, hedge⟩ := missionTransition_eq_ok hstep
  rw [List.map_append, List.map_singleton]
  refine ⟨by simp, ?_⟩
  cases current with
  | none =>
      have hnil : calls.map MissionCall.head = [] := List.getLast?_eq_none_iff.mp hcurrent.symm
      rw [hnil]
      exact .first (hopens rfl)
  | some head => exact hrecorded.concat hcurrent.symm (hedge head rfl)

-- Every accepted run of mission transitions, whatever the intents, payloads and clocks.
theorem mission_run_safe (brainId missionId : String) (calls : List MissionCall)
    (last : Option MissionHeadSnapshot)
    (h : replay (missionTransition brainId missionId) none calls = .ok last) :
    let heads := calls.map MissionCall.head
    (∀ first ∈ heads.head?, first.iterationId = 1) ∧
    heads.IsChain Edge ∧
    (∀ a ∈ heads, ∀ b ∈ heads, a.iterationId = b.iterationId → a.packetDigest = b.packetDigest) ∧
    (∀ before head after, heads = before ++ head :: after → head.state.isTerminal = true →
      after = []) ∧
    (∀ before landed after, heads = before ++ landed :: after → landed.state = .Landed →
      ∃ dispatching executing gate mergeWait,
        [dispatching, executing, gate, mergeWait].Sublist before ∧
        dispatching.state = .Dispatching ∧ executing.state = .Executing ∧ gate.state = .Gate ∧
        mergeWait.state = .MergeWait ∧ dispatching.Alike landed ∧ executing.Alike landed ∧
        gate.Alike landed ∧ mergeWait.Alike landed) := by
  intro heads
  obtain ⟨-, hrecorded⟩ := missionRun_recorded h
  refine ⟨fun first hfirst => (hrecorded.opens first hfirst).iteration, hrecorded.edges,
    hrecorded.constant, ?_, ?_⟩
  · intro before head after hheads hterminal
    have hsplit : Recorded (before ++ head :: after) := by
      rw [← hheads]
      exact hrecorded
    exact hsplit.terminal_last hterminal
  · intro before landed after hheads hlanded
    have hsplit : Recorded (before ++ landed :: after) := by
      rw [← hheads]
      exact hrecorded
    exact hsplit.landed_passed hlanded

-- A mission that lands without a review.

def fixtureIntent (expectedHeadId : Option String) (rule : MissionTransitionRule) :
    MissionTransitionIntentV1 :=
  MissionTransitionIntentV1.sealed {
    schema := MISSION_TRANSITION_INTENT_SCHEMA
    transitionId := "transition-1"
    brainId := "brain-1"
    missionId := "mission-1"
    expectedHeadId := expectedHeadId
    fromState := rule.fromState
    toState := rule.toState
    iterationId := 1
    actorId := "actor-1"
    role := rule.role
    source := rule.source
    sourceDigest := String.ofList (List.replicate 64 'a')
    capabilityId := "capability-1"
    packetDigest := String.ofList (List.replicate 64 'b')
    payloadDigest := MissionTransitionIntentV1.payloadDigestFor .null
    idempotencyKey := "idempotency-1"
    causationId := none
    issuedAt := 1000
    expiresAt := 3000
    issuer := "issuer-1"
    keyId := "key-1"
    algorithm := "opaque-test-algorithm"
    intentDigest := ""
    signature := ⟨"opaque-signature"⟩ }

def fixtureCall (headId : String) (expectedHeadId : Option String) (rule : MissionTransitionRule) :
    MissionCall :=
  ⟨headId, fixtureIntent expectedHeadId rule, .null, 2000⟩

theorem fixtureIntent_validateFields {expectedHeadId : Option String} {rule : MissionTransitionRule}
    (h : expectedHeadId ≠ some "") :
    (fixtureIntent expectedHeadId rule).validateFields .null 2000 = .ok () := by
  simp only [MissionTransitionIntentV1.validateFields, bind_unit_eq_ok, requireSchema_eq_ok,
    requireNonEmpty_eq_ok, requireOptionalNonEmpty_eq_ok, requireDigest_eq_ok,
    requireIteration_eq_ok, ensureDigest_eq_ok]
  have hdigest : isDigest (fixtureIntent expectedHeadId rule).intentDigest = true :=
    isDigest_digestCanonical _ _
  have hpayload : isDigest (fixtureIntent expectedHeadId rule).payloadDigest = true :=
    isDigest_digestCanonical _ _
  refine ⟨rfl, ?_, ?_, ?_, h, ?_, ?_, ?_, ?_, by rfl, by rfl, hpayload, hdigest, ?_, by rfl, by rfl,
    rfl, rfl⟩
  all_goals simp [fixtureIntent, MissionTransitionIntentV1.sealed]

theorem fixtureCall_accepted {headId : String} {expectedHeadId : Option String}
    {rule : MissionTransitionRule} {current : Option MissionHeadSnapshot}
    (hexpected : expectedHeadId ≠ some "")
    (hrule : missionTransitionRule rule.fromState rule.toState = some rule)
    (hhead : (fixtureIntent expectedHeadId rule).validateHead rule current = .ok ()) :
    missionTransition "brain-1" "mission-1" current (fixtureCall headId expectedHeadId rule) =
      .ok (some (fixtureCall headId expectedHeadId rule).head) := by
  simp only [missionTransition, bind_eq_ok, pure_eq_ok]
  refine ⟨⟨rule, (fixtureIntent expectedHeadId rule).computeIntentDigest,
    .OpaqueSignaturePresentUnverified⟩, ?_, trivial⟩
  simp only [MissionTransitionIntentV1.validate, bind_eq_ok, exists_unit, rejectIf_eq_ok, pure_eq_ok]
  exact ⟨fixtureIntent_validateFields hexpected, fun hne => hne rfl, fun hne => hne rfl, rule,
    legalTransition_eq_ok.mpr hrule, fun hne => hne rfl, fun hne => hne rfl, hhead, rfl⟩

def landingCalls : List MissionCall := [
  fixtureCall "head-1" none
    ⟨none, .Dispatching, .MissionService, .MissionServiceDecision, .Initialize⟩,
  fixtureCall "head-2" (some "head-1")
    ⟨some .Dispatching, .Executing, .Runner, .ExecutionDispatchAck, .Preserve⟩,
  fixtureCall "head-3" (some "head-2")
    ⟨some .Executing, .Gate, .Runner, .ExecutionResult, .Preserve⟩,
  fixtureCall "head-4" (some "head-3")
    ⟨some .Gate, .MergeWait, .MissionService, .MissionServiceDecision, .Preserve⟩,
  fixtureCall "head-5" (some "head-4")
    ⟨some .MergeWait, .Landed, .MissionService, .MissionServiceDecision, .Preserve⟩]

theorem landingCalls_accepted :
    replay (missionTransition "brain-1" "mission-1") none landingCalls =
      .ok (landingCalls.map MissionCall.head).getLast? := by
  refine bind_eq_ok.mpr ⟨_, fixtureCall_accepted (by decide) (by decide) (by rfl), ?_⟩
  refine bind_eq_ok.mpr ⟨_, fixtureCall_accepted (by decide) (by decide) (by rfl), ?_⟩
  refine bind_eq_ok.mpr ⟨_, fixtureCall_accepted (by decide) (by decide) (by rfl), ?_⟩
  refine bind_eq_ok.mpr ⟨_, fixtureCall_accepted (by decide) (by decide) (by rfl), ?_⟩
  exact bind_eq_ok.mpr ⟨_, fixtureCall_accepted (by decide) (by decide) (by rfl), rfl⟩

omit [Sha256] in
theorem landingCalls_safe :
    letI : Sha256 := standardSha256
    ∃ dispatching executing gate mergeWait : MissionHeadSnapshot,
      [dispatching, executing, gate, mergeWait].Sublist ((landingCalls.map MissionCall.head).take 4) ∧
      dispatching.state = .Dispatching ∧ executing.state = .Executing ∧ gate.state = .Gate ∧
      mergeWait.state = .MergeWait := by
  let : Sha256 := standardSha256
  obtain ⟨-, -, -, -, hlanded⟩ :=
    mission_run_safe "brain-1" "mission-1" landingCalls _ landingCalls_accepted
  obtain ⟨dispatching, executing, gate, mergeWait, hsublist, hdispatching, hexecuting, hgate, hmerge,
    -⟩ := hlanded ((landingCalls.map MissionCall.head).take 4) _ [] rfl rfl
  exact ⟨dispatching, executing, gate, mergeWait, hsublist, hdispatching, hexecuting, hgate, hmerge⟩

end M1nd.Control
