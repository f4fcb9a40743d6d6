import M1nd.Control.Autonomy.Intent
import M1nd.Library.Collections
import M1nd.Library.Loops

namespace M1nd.Control

open M1nd.Library.Json
open M1nd.Library.Checks

inductive QuorumVoteDisposition
  | Approve
  | Dissent
  | Abstain
deriving DecidableEq

@[ext]
structure QuorumVoteV1 where
  verifierPrincipalId : String
  verifierKeyId : String
  failureDomain : String
  parentSessionContextDigest : String
  intentDigest : String
  constitutionDigest : String
  candidateDigest : Option String
  evidenceDigest : String
  rolloutPlanDigest : String
  rollbackPlanDigest : String
  disposition : QuorumVoteDisposition
  signature : OpaqueSignature

@[ext]
structure AgentQuorumDecisionEvidenceV1 where
  independenceSpec : IndependenceSpecV1
  votes : List QuorumVoteV1
  sentinelVerdictDigest : String

open Autonomy

namespace AgentQuorumDecisionEvidenceV1

-- What the loop over the votes has counted.
structure Tally where
  voted : BTreeSet String
  approvalDomains : BTreeSet String
  approvals : Nat

def Tally.none : Tally where
  voted := ∅
  approvalDomains := ∅
  approvals := 0

def Tally.add (tally : Tally) (vote : QuorumVoteV1) : Tally where
  voted := tally.voted.insert vote.verifierPrincipalId
  approvalDomains := tally.approvalDomains.insert vote.failureDomain
  approvals := tally.approvals + 1

-- The vote speaks about this intent and nothing else.
def requireVoteBinds (vote : QuorumVoteV1) (intent : SovereignActionIntentV1) :
    Except AutonomyContractError Unit := do
  requireDigestEquality "vote.intent_digest" intent.intentDigest vote.intentDigest
  requireDigestEquality "vote.constitution_digest" intent.core.constitutionDigest
    vote.constitutionDigest
  forM [
    ("vote.evidence_digest", intent.core.evidenceDigest, vote.evidenceDigest),
    ("vote.rollout_plan_digest", intent.core.rolloutPlanDigest, vote.rolloutPlanDigest),
    ("vote.rollback_plan_digest", intent.core.rollbackPlanDigest, vote.rollbackPlanDigest)]
    fun (field, expected, observed) => requireDigestEquality field expected observed
  requireBinding "vote.candidate_digest" (vote.candidateDigest = intent.core.candidateDigest)
  requireSignature "quorum.vote.signature" vote.signature

def Tally.count (seats : BTreeMap VerifierSeatV1) (intent : SovereignActionIntentV1)
    (tally : Tally) (vote : QuorumVoteV1) : Except AutonomyContractError Tally :=
  match seats[vote.verifierPrincipalId]? with
  | Option.none => .error .NonIndependentQuorum
  | some seat => do
      rejectIf (vote.verifierPrincipalId ∈ tally.voted ∨ vote.verifierKeyId ≠ seat.keyId ∨
          vote.failureDomain ≠ seat.failureDomain ∨
          vote.parentSessionContextDigest ≠ seat.parentSessionContextDigest)
        .NonIndependentQuorum
      requireVoteBinds vote intent
      rejectIf (vote.disposition ≠ .Approve) .QuorumNotUnanimouslyResolvable
      return tally.add vote

def seats (evidence : AgentQuorumDecisionEvidenceV1) : BTreeMap VerifierSeatV1 :=
  .ofList (evidence.independenceSpec.core.votingVerifiers.map fun seat => (seat.principalId, seat))

-- The subjects that may not sit on the quorum about their own action.
def interested (core : SovereignIntentCoreV1) : List String :=
  core.proposerSubjectId ::
    [core.executorSubjectId, core.promotionTargetSubjectId,
      core.ratificationTargetSubjectId].reduceOption

variable [Sha256]

def validate (evidence : AgentQuorumDecisionEvidenceV1) (intent : SovereignActionIntentV1)
    (constitution : ConstitutionStoreV1) (kernel : SafetyKernelV1)
    (sentinelVerdictDigest : String) : Except AutonomyContractError Unit := do
  let spec := evidence.independenceSpec
  spec.validateAgainstKernel kernel
  requireDigestEquality "quorum.independence_spec_digest" constitution.core.independenceSpecDigest
    spec.independenceSpecDigest
  rejectIf (spec.core.constitutionEpoch ≠ intent.core.constitutionEpoch)
    (.EpochMismatch "quorum.constitution_epoch" intent.core.constitutionEpoch
      spec.core.constitutionEpoch)
  requireDigestEquality "quorum.sentinel_verdict_digest" sentinelVerdictDigest
    evidence.sentinelVerdictDigest
  rejectIf (∃ subject ∈ interested intent.core, subject ∈ evidence.seats)
    (.SelfAuthorization intent.core.proposerSubjectId)
  rejectIf (evidence.votes.length > evidence.seats.size) .NonIndependentQuorum
  let tally ← evidence.votes.foldlM (Tally.count evidence.seats intent) .none
  rejectIf (tally.approvals < spec.core.quorumThreshold)
    (.InsufficientQuorum tally.approvals spec.core.quorumThreshold)
  rejectIf (tally.approvalDomains.size < spec.core.minimumFailureDomains) .NonIndependentQuorum

end AgentQuorumDecisionEvidenceV1

end M1nd.Control

namespace M1nd.Control

open M1nd.Library.Checks
open M1nd.Library.Collections
open M1nd.Library.Runs
open Autonomy

namespace IndependenceSpecV1

-- What the loop over the seats knows of the seats it has passed.
structure SeenSeats.Saw (seats : List VerifierSeatV1) (seen : SeenSeats) : Prop where
  principals : Collects seen.principals (seats.map VerifierSeatV1.principalId)
  keys : Collects seen.keys (seats.map VerifierSeatV1.keyId)
  contexts : Collects seen.contexts (seats.map VerifierSeatV1.parentSessionContextDigest)

theorem SeenSeats.saw_nil : SeenSeats.none.Saw [] :=
  ⟨.empty, .empty, .empty⟩

theorem SeenSeats.saw_concat {seats : List VerifierSeatV1} {seat : VerifierSeatV1}
    {seen next : SeenSeats} (h : seen.Saw seats) (hsee : seen.see seat = .ok next) :
    next.Saw (seats ++ [seat]) := by
  simp only [see, bind_eq_ok, exists_unit, rejectIf_eq_ok, pure_eq_ok, not_or] at hsee
  obtain ⟨-, -, -, -, ⟨hprincipal, hkey, hcontext⟩, rfl⟩ := hsee
  constructor
  · rw [List.map_append]
    exact h.principals.insert hprincipal
  · rw [List.map_append]
    exact h.keys.insert hkey
  · rw [List.map_append]
    exact h.contexts.insert hcontext

theorem SeenSeats.saw_of_foldlM {seats : List VerifierSeatV1} {seen : SeenSeats}
    (h : seats.foldlM SeenSeats.see .none = .ok seen) : seen.Saw seats :=
  replay_invariant (fun seats seen => seen.Saw seats) saw_nil
    (fun _ _ _ _ hsaw hsee => saw_concat hsaw hsee) h

variable [Sha256]

theorem floors_of_validate {kernel : SafetyKernelV1} {v : AutonomyStructuralValidation}
    (h : kernel.validate = .ok v) :
    kernel.core.minimumVerifierSeats = 4 ∧ kernel.core.minimumQuorumThreshold = 3 ∧
      kernel.core.minimumFailureDomains = 3 := by
  simp only [SafetyKernelV1.validate, bind_eq_ok, exists_unit, rejectIf_eq_ok, not_not] at h
  obtain ⟨-, -, -, -, -, -, hseats, hthreshold, hdomains, -⟩ := h
  exact ⟨hseats, hthreshold, hdomains⟩

-- What a spec that a kernel accepts fixes about its seats.
structure Standing (spec : IndependenceSpecV1) : Prop where
  four_seats : spec.core.votingVerifiers.length = 4
  threshold : 3 ≤ spec.core.quorumThreshold
  domains : 3 ≤ spec.core.minimumFailureDomains
  principals : (spec.core.votingVerifiers.map VerifierSeatV1.principalId).Nodup
  keys : (spec.core.votingVerifiers.map VerifierSeatV1.keyId).Nodup
  contexts : (spec.core.votingVerifiers.map VerifierSeatV1.parentSessionContextDigest).Nodup
  sentinel : ∀ seat ∈ spec.core.votingVerifiers, seat.principalId ≠ spec.core.nonvotingSentinelId

theorem standing_of_validate {spec : IndependenceSpecV1} {kernel : SafetyKernelV1}
    (h : spec.validateAgainstKernel kernel = .ok ()) : spec.Standing := by
  simp only [validateAgainstKernel, bind_eq_ok, exists_unit, rejectIf_eq_ok, not_not, not_or,
    not_lt] at h
  obtain ⟨_, hkernel, -, hseats, ⟨hthreshold, -⟩, hdomains, -, -, -, seen, hseen, -, hsentinel, -⟩ :=
    h
  obtain ⟨hfour, hthree, hthree'⟩ := floors_of_validate hkernel
  have hsaw := SeenSeats.saw_of_foldlM hseen
  rw [hsaw.principals.mem] at hsentinel
  exact {
    four_seats := hseats.trans hfour
    threshold := hthree ▸ hthreshold
    domains := hthree' ▸ hdomains
    principals := hsaw.principals.nodup
    keys := hsaw.keys.nodup
    contexts := hsaw.contexts.nodup
    sentinel := fun seat hseat he => hsentinel (he ▸ List.mem_map_of_mem hseat) }

end IndependenceSpecV1

-- The vote was cast from the seat, under its key, in its domain and its session.
structure QuorumVoteV1.CastFrom (vote : QuorumVoteV1) (seat : VerifierSeatV1) : Prop where
  principal : vote.verifierPrincipalId = seat.principalId
  key : vote.verifierKeyId = seat.keyId
  domain : vote.failureDomain = seat.failureDomain
  context : vote.parentSessionContextDigest = seat.parentSessionContextDigest

-- The vote approves this intent, with its candidate, its evidence and its plans.
structure QuorumVoteV1.Approves (vote : QuorumVoteV1) (intent : SovereignActionIntentV1) : Prop where
  disposition : vote.disposition = .Approve
  intentDigest : vote.intentDigest = intent.intentDigest
  candidate : vote.candidateDigest = intent.core.candidateDigest
  evidence : vote.evidenceDigest = intent.core.evidenceDigest
  rolloutPlan : vote.rolloutPlanDigest = intent.core.rolloutPlanDigest
  rollbackPlan : vote.rollbackPlanDigest = intent.core.rollbackPlanDigest

namespace AgentQuorumDecisionEvidenceV1

variable {evidence : AgentQuorumDecisionEvidenceV1} {intent : SovereignActionIntentV1}
  {constitution : ConstitutionStoreV1} {kernel : SafetyKernelV1} {sentinelVerdictDigest : String}

-- The digests of an intent that its votes repeat.
def votedDigests (intent : SovereignActionIntentV1) : List String :=
  [intent.intentDigest, intent.core.constitutionDigest, intent.core.evidenceDigest,
    intent.core.rolloutPlanDigest, intent.core.rollbackPlanDigest]

theorem requireVoteBinds_eq_ok {vote : QuorumVoteV1} :
    requireVoteBinds vote intent = .ok () ↔
      (∀ digest ∈ votedDigests intent, isDigest digest = true) ∧
      vote.intentDigest = intent.intentDigest ∧
      vote.candidateDigest = intent.core.candidateDigest ∧
      vote.evidenceDigest = intent.core.evidenceDigest ∧
      vote.rolloutPlanDigest = intent.core.rolloutPlanDigest ∧
      vote.rollbackPlanDigest = intent.core.rollbackPlanDigest ∧
      vote.constitutionDigest = intent.core.constitutionDigest ∧
      vote.signature.isEmpty = false := by
  simp only [requireVoteBinds, bind_eq_ok, exists_unit, requireDigestEquality_eq_ok, forM_eq_ok,
    requireBinding_eq_ok, requireSignature_eq_ok, votedDigests, List.forall_mem_cons,
    List.not_mem_nil, false_imp_iff, implies_true, and_true]
  grind

-- A vote the tally counts.
structure Counted (seats : BTreeMap VerifierSeatV1) (intent : SovereignActionIntentV1)
    (vote : QuorumVoteV1) : Prop where
  seated : ∃ seat, seats[vote.verifierPrincipalId]? = some seat ∧ vote.verifierKeyId = seat.keyId ∧
    vote.failureDomain = seat.failureDomain ∧
    vote.parentSessionContextDigest = seat.parentSessionContextDigest
  binds : requireVoteBinds vote intent = .ok ()
  approves : vote.disposition = .Approve

theorem Tally.count_eq_ok {seats : BTreeMap VerifierSeatV1} {vote : QuorumVoteV1}
    {tally next : Tally} :
    tally.count seats intent vote = .ok next ↔
      Counted seats intent vote ∧ vote.verifierPrincipalId ∉ tally.voted ∧
        next = tally.add vote := by
  unfold count
  cases hseat : seats[vote.verifierPrincipalId]? with
  | none =>
      refine ⟨fun h => absurd h nofun, fun ⟨h, _⟩ => ?_⟩
      obtain ⟨seat, hsome, -⟩ := h.seated
      rw [hseat] at hsome
      exact absurd hsome nofun
  | some seat =>
      simp only [bind_eq_ok, exists_unit, rejectIf_eq_ok, pure_eq_ok, not_or, not_not]
      constructor
      · rintro ⟨⟨hvoted, hkey, hdomain, hcontext⟩, hbinds, happroves, rfl⟩
        exact ⟨⟨⟨seat, hseat, hkey, hdomain, hcontext⟩, hbinds, happroves⟩, hvoted, rfl⟩
      · rintro ⟨⟨⟨seat', hseat', hkey, hdomain, hcontext⟩, hbinds, happroves⟩, hvoted, rfl⟩
        obtain rfl : seat = seat' := Option.some.inj (hseat.symm.trans hseat')
        exact ⟨⟨hvoted, hkey, hdomain, hcontext⟩, hbinds, happroves, rfl⟩

theorem Tally.foldlM_count_eq_ok {seats : BTreeMap VerifierSeatV1} {votes : List QuorumVoteV1}
    {tally last : Tally} :
    votes.foldlM (Tally.count seats intent) tally = .ok last ↔
      (∀ vote ∈ votes, Counted seats intent vote ∧ vote.verifierPrincipalId ∉ tally.voted) ∧
        (votes.map QuorumVoteV1.verifierPrincipalId).Nodup ∧ last = votes.foldl Tally.add tally := by
  induction votes generalizing tally with
  | nil => simp [pure, Except.pure, eq_comm]
  | cons vote votes ih =>
      have hvoted (other : QuorumVoteV1) :
          other.verifierPrincipalId ∉ (tally.add vote).voted ↔
            other.verifierPrincipalId ≠ vote.verifierPrincipalId ∧
              other.verifierPrincipalId ∉ tally.voted := by
        simp only [add, mem_insert_iff, not_or, ne_eq]
      simp only [List.foldlM_cons, bind_eq_ok, count_eq_ok, List.forall_mem_cons, List.map_cons,
        List.nodup_cons, List.foldl_cons, List.mem_map, not_exists, not_and]
      constructor
      · rintro ⟨next, ⟨hcounted, hnew, rfl⟩, hrest⟩
        obtain ⟨hall, hnodup, rfl⟩ := ih.mp hrest
        refine ⟨⟨⟨hcounted, hnew⟩, fun other hother => ?_⟩, ⟨fun other hother => ?_, hnodup⟩, rfl⟩
        · obtain ⟨hother, hother'⟩ := hall other hother
          exact ⟨hother, ((hvoted other).mp hother').2⟩
        · exact ((hvoted other).mp (hall other hother).2).1
      · rintro ⟨⟨⟨hcounted, hnew⟩, hall⟩, ⟨hne, hnodup⟩, rfl⟩
        refine ⟨_, ⟨hcounted, hnew, rfl⟩, ih.mpr ⟨fun other hother => ?_, hnodup, rfl⟩⟩
        exact ⟨(hall other hother).1, (hvoted other).mpr ⟨hne other hother, (hall other hother).2⟩⟩

theorem Tally.approvals_foldl (votes : List QuorumVoteV1) (tally : Tally) :
    (votes.foldl Tally.add tally).approvals = tally.approvals + votes.length := by
  induction votes generalizing tally with
  | nil => rfl
  | cons vote votes ih =>
      simp only [List.foldl_cons, ih, List.length_cons, add]
      omega

theorem Tally.mem_approvalDomains_foldl (votes : List QuorumVoteV1) (tally : Tally)
    (domain : String) :
    domain ∈ (votes.foldl Tally.add tally).approvalDomains ↔
      domain ∈ tally.approvalDomains ∨ domain ∈ votes.map QuorumVoteV1.failureDomain := by
  induction votes generalizing tally with
  | nil => simp
  | cons vote votes ih =>
      rw [List.foldl_cons, ih, List.map_cons, List.mem_cons, add, mem_insert_iff, or_assoc,
        or_left_comm]

theorem Tally.size_approvalDomains (votes : List QuorumVoteV1) :
    (votes.foldl Tally.add .none).approvalDomains.size =
      (votes.map QuorumVoteV1.failureDomain).dedup.length :=
  size_eq_length_dedup fun domain => by
    rw [mem_approvalDomains_foldl]
    simp [none]

-- Different verifiers in different failure domains approve, and none of them has a part in
-- the action they approve.
structure Independent (evidence : AgentQuorumDecisionEvidenceV1)
    (intent : SovereignActionIntentV1) : Prop where
  four_seats : evidence.independenceSpec.core.votingVerifiers.length = 4
  seated : ∀ vote ∈ evidence.votes, ∃ seat ∈ evidence.independenceSpec.core.votingVerifiers,
    vote.CastFrom seat
  three_votes : 3 ≤ evidence.votes.length
  principals : (evidence.votes.map QuorumVoteV1.verifierPrincipalId).Nodup
  keys : (evidence.votes.map QuorumVoteV1.verifierKeyId).Nodup
  contexts : (evidence.votes.map QuorumVoteV1.parentSessionContextDigest).Nodup
  three_domains : 3 ≤ (evidence.votes.map QuorumVoteV1.failureDomain).dedup.length
  approvals : ∀ vote ∈ evidence.votes, vote.Approves intent
  disinterested : ∀ vote ∈ evidence.votes, vote.verifierPrincipalId ∉ interested intent.core ∧
    vote.verifierPrincipalId ≠ evidence.independenceSpec.core.nonvotingSentinelId

theorem mem_seats {subject : String} :
    subject ∈ evidence.seats ↔
      ∃ seat ∈ evidence.independenceSpec.core.votingVerifiers, seat.principalId = subject := by
  rw [seats, mem_index, List.mem_map]

theorem seated_iff (hspec : evidence.independenceSpec.Standing) {vote : QuorumVoteV1} :
    (∃ seat, evidence.seats[vote.verifierPrincipalId]? = some seat ∧
      vote.verifierKeyId = seat.keyId ∧ vote.failureDomain = seat.failureDomain ∧
      vote.parentSessionContextDigest = seat.parentSessionContextDigest) ↔
    ∃ seat ∈ evidence.independenceSpec.core.votingVerifiers, vote.CastFrom seat := by
  constructor
  · rintro ⟨seat, hseat, hkey, hdomain, hcontext⟩
    obtain ⟨hmem, hprincipal⟩ := (index_eq_some hspec.principals).mp hseat
    exact ⟨seat, hmem, hprincipal.symm, hkey, hdomain, hcontext⟩
  · rintro ⟨seat, hmem, hprincipal, hkey, hdomain, hcontext⟩
    exact ⟨seat, (index_eq_some hspec.principals).mpr ⟨hmem, hprincipal.symm⟩, hkey, hdomain,
      hcontext⟩

theorem counted_iff (hspec : evidence.independenceSpec.Standing) {vote : QuorumVoteV1} :
    Counted evidence.seats intent vote ↔
      (∃ seat ∈ evidence.independenceSpec.core.votingVerifiers, vote.CastFrom seat) ∧
      vote.Approves intent ∧ (∀ digest ∈ votedDigests intent, isDigest digest = true) ∧
      vote.constitutionDigest = intent.core.constitutionDigest ∧
      vote.signature.isEmpty = false := by
  constructor
  · rintro ⟨hseated, hbinds, happroves⟩
    obtain ⟨hdigests, hintent, hcandidate, hevidence, hrollout, hrollback, hrest⟩ :=
      requireVoteBinds_eq_ok.mp hbinds
    exact ⟨(seated_iff hspec).mp hseated,
      ⟨happroves, hintent, hcandidate, hevidence, hrollout, hrollback⟩, hdigests, hrest⟩
  · rintro ⟨hseated, happroves, hdigests, hconstitution, hsigned⟩
    exact {
      seated := (seated_iff hspec).mpr hseated
      binds := requireVoteBinds_eq_ok.mpr ⟨hdigests, happroves.intentDigest, happroves.candidate,
        happroves.evidence, happroves.rolloutPlan, happroves.rollbackPlan, hconstitution, hsigned⟩
      approves := happroves.disposition }

-- Two votes of one seat are votes of one principal, so what tells the seats apart tells the
-- votes apart.
theorem nodup_of_seated {α : Type} {ofVote : QuorumVoteV1 → α} {ofSeat : VerifierSeatV1 → α}
    {seats : List VerifierSeatV1} {votes : List QuorumVoteV1} (hseats : (seats.map ofSeat).Nodup)
    (hseated : ∀ vote ∈ votes, ∃ seat ∈ seats, vote.CastFrom seat)
    (hof : ∀ vote seat, vote.CastFrom seat → ofVote vote = ofSeat seat)
    (hvotes : (votes.map QuorumVoteV1.verifierPrincipalId).Nodup) : (votes.map ofVote).Nodup := by
  refine List.pairwise_map.mpr (List.Pairwise.imp_of_mem ?_ (List.pairwise_map.mp hvotes))
  intro vote other hvote hother hne he
  obtain ⟨seat, hseat, hcast⟩ := hseated vote hvote
  obtain ⟨seat', hseat', hcast'⟩ := hseated other hother
  rw [hof _ _ hcast, hof _ _ hcast'] at he
  obtain rfl := List.inj_on_of_nodup_map hseats hseat hseat' he
  exact hne (hcast.principal.trans hcast'.principal.symm)

theorem votes_le_seats (hspec : evidence.independenceSpec.Standing)
    (hseated : ∀ vote ∈ evidence.votes, ∃ seat ∈ evidence.independenceSpec.core.votingVerifiers,
      vote.CastFrom seat)
    (hvotes : (evidence.votes.map QuorumVoteV1.verifierPrincipalId).Nodup) :
    evidence.votes.length ≤ evidence.seats.size := by
  rw [seats, size_index hspec.principals]
  have hsub : evidence.votes.map QuorumVoteV1.verifierPrincipalId ⊆
      evidence.independenceSpec.core.votingVerifiers.map VerifierSeatV1.principalId := by
    intro principal hprincipal
    obtain ⟨vote, hvote, rfl⟩ := List.mem_map.mp hprincipal
    obtain ⟨seat, hseat, hcast⟩ := hseated vote hvote
    exact hcast.principal ▸ List.mem_map_of_mem hseat
  simpa using (List.subperm_of_subset hvotes hsub).length_le

variable [Sha256]

-- What else the quorum has to show.
structure Authorized (evidence : AgentQuorumDecisionEvidenceV1) (intent : SovereignActionIntentV1)
    (constitution : ConstitutionStoreV1) (kernel : SafetyKernelV1)
    (sentinelVerdictDigest : String) : Prop where
  spec : evidence.independenceSpec.validateAgainstKernel kernel = .ok ()
  constitution : isDigest constitution.core.independenceSpecDigest = true ∧
    constitution.core.independenceSpecDigest = evidence.independenceSpec.independenceSpecDigest
  epoch : evidence.independenceSpec.core.constitutionEpoch = intent.core.constitutionEpoch
  sentinel : isDigest sentinelVerdictDigest = true ∧
    sentinelVerdictDigest = evidence.sentinelVerdictDigest
  seats : ∀ seat ∈ evidence.independenceSpec.core.votingVerifiers,
    seat.principalId ∉ interested intent.core
  threshold : evidence.independenceSpec.core.quorumThreshold ≤ evidence.votes.length
  domains : evidence.independenceSpec.core.minimumFailureDomains ≤
    (evidence.votes.map QuorumVoteV1.failureDomain).dedup.length
  digests : ∀ digest ∈ votedDigests intent, isDigest digest = true
  signed : ∀ vote ∈ evidence.votes, vote.constitutionDigest = intent.core.constitutionDigest ∧
    vote.signature.isEmpty = false

theorem counted_of_validate
    (h : evidence.validate intent constitution kernel sentinelVerdictDigest = .ok ()) :
    ∀ vote ∈ evidence.votes, Counted evidence.seats intent vote := by
  simp only [validate, bind_eq_ok, exists_unit, rejectIf_eq_ok, Tally.foldlM_count_eq_ok] at h
  obtain ⟨-, -, -, -, -, -, _, ⟨hcounted, -⟩, -⟩ := h
  exact fun vote hvote => (hcounted vote hvote).1

theorem accepted_iff_independent :
    evidence.validate intent constitution kernel sentinelVerdictDigest = .ok () ↔
      evidence.Independent intent ∧
        evidence.Authorized intent constitution kernel sentinelVerdictDigest := by
  simp only [validate, bind_eq_ok, exists_unit, requireDigestEquality_eq_ok, rejectIf_eq_ok,
    not_not, not_lt, Tally.foldlM_count_eq_ok, not_exists, not_and]
  constructor
  · rintro ⟨hspec, hconstitution, hepoch, hsentinel, hinterested, -, tally,
      ⟨hcounted, hprincipals, rfl⟩, hthreshold, hdomains⟩
    have hstanding := IndependenceSpecV1.standing_of_validate hspec
    rw [Tally.approvals_foldl, Tally.none, Nat.zero_add] at hthreshold
    rw [Tally.size_approvalDomains] at hdomains
    have hthree : 3 ≤ evidence.votes.length := hstanding.threshold.trans hthreshold
    have hvote (vote) (h : vote ∈ evidence.votes) :=
      (counted_iff hstanding).mp (hcounted vote h).1
    have hseated (vote) (h : vote ∈ evidence.votes) := (hvote vote h).1
    have hseats : ∀ seat ∈ evidence.independenceSpec.core.votingVerifiers,
        seat.principalId ∉ interested intent.core :=
      fun seat hseat hmem => hinterested _ hmem (mem_seats.mpr ⟨seat, hseat, rfl⟩)
    obtain ⟨first, hfirst⟩ := List.exists_mem_of_length_pos (by omega : 0 < evidence.votes.length)
    refine ⟨?_, ?_⟩
    · exact {
        four_seats := hstanding.four_seats
        seated := hseated
        three_votes := hthree
        principals := hprincipals
        keys := nodup_of_seated hstanding.keys hseated (fun _ _ h => h.key) hprincipals
        contexts := nodup_of_seated hstanding.contexts hseated (fun _ _ h => h.context) hprincipals
        three_domains := hstanding.domains.trans hdomains
        approvals := fun vote h => (hvote vote h).2.1
        disinterested := fun vote h => by
          obtain ⟨seat, hseat, hcast⟩ := hseated vote h
          rw [hcast.principal]
          exact ⟨hseats seat hseat, hstanding.sentinel seat hseat⟩ }
    · exact {
        spec := hspec
        constitution := hconstitution
        epoch := hepoch
        sentinel := hsentinel
        seats := hseats
        threshold := hthreshold
        domains := hdomains
        digests := (hvote first hfirst).2.2.1
        signed := fun vote h => (hvote vote h).2.2.2 }
  · rintro ⟨hindependent, hauthorized⟩
    have hstanding := IndependenceSpecV1.standing_of_validate hauthorized.spec
    refine ⟨hauthorized.spec, hauthorized.constitution, hauthorized.epoch, hauthorized.sentinel,
      fun subject hsubject hmem => ?_, ?_, _, ⟨fun vote h => ⟨?_, ?_⟩, hindependent.principals, rfl⟩,
      ?_, ?_⟩
    · obtain ⟨seat, hseat, rfl⟩ := mem_seats.mp hmem
      exact hauthorized.seats seat hseat hsubject
    · exact votes_le_seats hstanding hindependent.seated hindependent.principals
    · exact (counted_iff hstanding).mpr ⟨hindependent.seated vote h, hindependent.approvals vote h,
        hauthorized.digests, hauthorized.signed vote h⟩
    · simp [Tally.none]
    · rw [Tally.approvals_foldl, Tally.none, Nat.zero_add]
      exact hauthorized.threshold
    · rw [Tally.size_approvalDomains]
      exact hauthorized.domains

-- Three of the four seats approve a landing, and nobody has signed a vote.

def landing : SovereignActionIntentV1 where
  schema := SOVEREIGN_ACTION_INTENT_SCHEMA
  core := SovereignActionIntentV1.fixtureCore "land" "mission.service.land" (hash 'c')
  intentDigest := hash 'd'
  intentCoreRef := .forSovereignDigest (hash 'd')

def unsignedApproval (seat : VerifierSeatV1) : QuorumVoteV1 where
  verifierPrincipalId := seat.principalId
  verifierKeyId := seat.keyId
  failureDomain := seat.failureDomain
  parentSessionContextDigest := seat.parentSessionContextDigest
  intentDigest := landing.intentDigest
  constitutionDigest := landing.core.constitutionDigest
  candidateDigest := landing.core.candidateDigest
  evidenceDigest := landing.core.evidenceDigest
  rolloutPlanDigest := landing.core.rolloutPlanDigest
  rollbackPlanDigest := landing.core.rollbackPlanDigest
  disposition := .Approve
  signature := ⟨""⟩

def unsignedApprovals : AgentQuorumDecisionEvidenceV1 where
  independenceSpec := independenceFixture
  votes := (independenceFixtureCore.votingVerifiers.take 3).map unsignedApproval
  sentinelVerdictDigest := hash 'e'

theorem unsignedApprovals_independent : unsignedApprovals.Independent landing where
  four_seats := rfl
  seated := by
    intro vote hvote
    obtain ⟨seat, hseat, rfl⟩ := List.mem_map.mp hvote
    exact ⟨seat, List.mem_of_mem_take hseat, rfl, rfl, rfl, rfl⟩
  three_votes := by
    change 3 ≤ ((independenceFixtureCore.votingVerifiers.take 3).map unsignedApproval).length
    decide
  principals := by
    change (((independenceFixtureCore.votingVerifiers.take 3).map unsignedApproval).map
      QuorumVoteV1.verifierPrincipalId).Nodup
    decide
  keys := by
    change (((independenceFixtureCore.votingVerifiers.take 3).map unsignedApproval).map
      QuorumVoteV1.verifierKeyId).Nodup
    decide
  contexts := by
    change (((independenceFixtureCore.votingVerifiers.take 3).map unsignedApproval).map
      QuorumVoteV1.parentSessionContextDigest).Nodup
    decide
  three_domains := by
    change 3 ≤ (((independenceFixtureCore.votingVerifiers.take 3).map unsignedApproval).map
      QuorumVoteV1.failureDomain).dedup.length
    decide
  approvals := by
    intro vote hvote
    obtain ⟨seat, -, rfl⟩ := List.mem_map.mp hvote
    exact ⟨rfl, rfl, rfl, rfl, rfl, rfl⟩
  disinterested := by
    change ∀ vote ∈ (independenceFixtureCore.votingVerifiers.take 3).map unsignedApproval,
      vote.verifierPrincipalId ∉ interested landing.core ∧ vote.verifierPrincipalId ≠ "sentinel-1"
    decide

omit [Sha256] in
theorem unsigned_approvals_refused :
    letI := standardSha256
    ¬ ∀ (evidence : AgentQuorumDecisionEvidenceV1) (intent : SovereignActionIntentV1)
        (constitution : ConstitutionStoreV1) (kernel : SafetyKernelV1)
        (sentinelVerdictDigest : String),
      evidence.independenceSpec.validateAgainstKernel kernel = .ok () →
      evidence.Independent intent →
      evidence.validate intent constitution kernel sentinelVerdictDigest = .ok () := by
  let := standardSha256
  intro h
  have hok := h unsignedApprovals landing constitutionFixture kernelFixture (hash 'e')
    independenceFixture_validate unsignedApprovals_independent
  have hcounted := counted_of_validate hok _ (List.mem_map_of_mem List.mem_cons_self)
  obtain ⟨-, -, -, -, -, -, -, hsigned⟩ := requireVoteBinds_eq_ok.mp hcounted.binds
  exact absurd hsigned (by decide)

end AgentQuorumDecisionEvidenceV1

end M1nd.Control
