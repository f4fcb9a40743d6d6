import M1nd.Mcp.ExternalMutationJournal.History
import M1nd.Mcp.OwnerAuthorizationBroker.History
import M1nd.Mcp.OwnerFinalization.Backed
import M1nd.Mcp.OwnerFinalization.Calls

namespace M1nd.Mcp

open M1nd.Control
open M1nd.Library.Checks
open M1nd.Library.Durable
open M1nd.Library.Json (CanonicalValue)

-- One source edit, from the receipt it is authorized by to the COMMIT of its callback.

def zeroDigest : String :=
  "0000000000000000000000000000000000000000000000000000000000000000"

def nullForm : CanonicalValue := ⟨.null, rfl⟩

def trueForm : CanonicalValue := ⟨.bool true, rfl⟩

def editReceipt : AuthorityAuthorizationReceiptV1 where
  schema := "m1nd-authority-authorization-receipt-v1"
  core := {
    organismId := "organism"
    repoId := "repo"
    brainId := "brain"
    subjectId := "subject"
    role := nullForm
    capabilityId := "capability"
    capabilityKind := none
    verifiedObjectDigest := zeroDigest
    missionId := none
    missionHeadId := none
    transportSessionId := "session"
    ingressContextDigest := zeroDigest
    action := "source.edit.commit"
    ingress := nullForm
    completeEffects := nullForm
    activeMode := .HumanGated
    constitutionDigest := zeroDigest
    constitutionEpoch := 1
    autonomyEpoch := 1
    protectedEpochAtDecision := 1
    policyRegistryDigest := zeroDigest
    exactPolicyTuple := nullForm
    authorityDecisionDigest := none
    autonomyAdmissionReceiptDigest := none
    autonomyCommittedStateDigest := none
    autonomyProtectedRootDigest := none
    authority := .OrdinarySession nullForm
    authorityBodyDigest := zeroDigest
    replaySequence := 1
    journalSequence := 1
    journalRootDigest := zeroDigest
    protectedEpoch := 1
    authorizedAt := 1
    expiresAt := 1000 }
  receiptDigest := zeroDigest
  issuer := "owner"
  keyId := "key"
  algorithm := "ed25519"
  signature := ⟨"signature"⟩

def editAuthority : AuthorityRuntimeStateCoreV1 where
  activeMode := .HumanGated
  constitutionDigest := zeroDigest
  constitutionEpoch := 1
  autonomyEpoch := 1
  policyRegistryDigest := zeroDigest
  issuanceFrozen := false
  safetyState := .Healthy
  protectedEpoch := 1
  journalRootDigest := zeroDigest

def editConfig : OwnerAuthorizationBrokerConfigV1 where
  reservationTtlMs := 1000
  minimumTerminalRetentionMs := 1000

def editIssued : OwnerAuthorizationLeaseV1 where
  schema := OWNER_AUTHORIZATION_LEASE_SCHEMA
  leaseId := "lease"
  authorizationReceipt := editReceipt
  state := .Unused
  reservation := none
  finalizationSnapshot := none
  terminal := none
  issuedAt := 1
  expiresAt := 1000
  retainUntil := 2000
  revision := 1

def editPrepare (payload : CanonicalValue) : ExternalMutationPrepareV1 where
  semanticAction := "source.edit.commit"
  payloadDigest := zeroDigest
  operationObjectDigest := zeroDigest
  operationVersion := 1
  actorBrainId := "brain"
  routeSelector := none
  missionId := none
  missionHeadId := none
  recoveryPayload := payload

section Edit

variable [Sha256]

def editReservation : AuthorizationReservationV1 where
  reservationId := digestCanonical OWNER_AUTHORIZATION_RESERVATION_DIGEST_DOMAIN (.array [
    .string "lease", .string zeroDigest, .string "session", .string zeroDigest,
    .string zeroDigest, .null, .ofNat 2, .ofNat 1])
  leaseId := "lease"
  operationObjectDigest := zeroDigest
  transactionId := none
  transportSessionId := "session"
  ingressContextDigest := zeroDigest
  reservedAt := 2
  reservationExpiresAt := 1000

def editReserved : OwnerAuthorizationLeaseV1 :=
  { editIssued with
    state := .Reserved
    reservation := some editReservation
    revision := 2 }

def editOperationId (payload : CanonicalValue) : String :=
  ExternalMutationJournalStateV1.operationIdOf editReservation zeroDigest (editPrepare payload)

def editPreparing (payload : CanonicalValue) : ExternalMutationOperation :=
  .Prepare editReservation zeroDigest (editPrepare payload) 3

def editCommitting (payload : CanonicalValue) : ExternalMutationOperation :=
  .Commit (editOperationId payload) zeroDigest 4

def editPreparedEntry (payload : CanonicalValue) : ExternalMutationJournalEntryV1 :=
  ExternalMutationJournalStateV1.preparedEntry editReservation zeroDigest (editPrepare payload) 3

def editCommittedEntry (payload : CanonicalValue) : ExternalMutationJournalEntryV1 :=
  { editPreparedEntry payload with
    phase := .Committed
    outcomeDigest := some zeroDigest
    committedAt := some 4
    updatedAt := 4 }

-- The operations once the edit of this payload is committed.
def editCommitted (entries : ExternalMutationJournalStateV1) (payload : CanonicalValue) :
    ExternalMutationJournalStateV1 :=
  (entries.filed (editPreparing payload) (editPreparedEntry payload) 3).filed
    (editCommitting payload) (editCommittedEntry payload) 4

omit [Sha256] in
theorem isDigest_zeroDigest : isDigest zeroDigest = true := by decide +kernel

theorem editReserved_shape : validateLeaseShape editReserved = .ok () := by
  simp [validateLeaseShape, editReserved, editIssued, editReservation, reservationMisshapen,
    stateShape, bind_unit_eq_ok, isDigest_zeroDigest, editReceipt]
  decide +kernel

omit [Sha256] in
theorem prepared_shape {lease : OwnerAuthorizationLeaseV1} (hreserved : lease.state = .Reserved)
    (h : validateLeaseShape lease = .ok ()) :
    validateLeaseShape (prepared editAuthority 3 lease) = .ok () := by
  simp only [validateLeaseShape, bind_unit_eq_ok, rejectIf_eq_ok, not_or] at h ⊢
  obtain ⟨⟨hschema, hid, htime, -, hdigest⟩, hreservation, hstate, hterminal⟩ := h
  refine ⟨⟨hschema, hid, htime, Nat.succ_ne_zero _, hdigest⟩, hreservation, ?_, hterminal⟩
  unfold stateShape at hstate ⊢
  rw [hreserved] at hstate
  simpa [prepared, hreserved] using hstate

section Plans

variable {state : BrokerStateV1} {entries : ExternalMutationJournalStateV1}
  {lease : OwnerAuthorizationLeaseV1} {payload : CanonicalValue}

omit [Sha256] in
theorem issue_edit : (⟨0, none, ∅⟩ : BrokerStateV1).issue editConfig "lease" editReceipt 1 =
    .ok (.Append .Issued editIssued) := by
  rfl

theorem reserve_edit (h : state.leases["lease"]? = some editIssued) :
    state.reserve editConfig "lease" "session" zeroDigest zeroDigest 2 =
      .ok (.Append .Reserved editReserved) := by
  simp only [BrokerStateV1.reserve, BrokerStateV1.reserveBoundOperation, findLease, h]
  rfl

-- A lease that was prepared before is prepared again.
theorem prepareFinalization_edit (h : state.leases["lease"]? = some lease)
    (hreserved : lease.state = .Reserved) (hreservation : lease.reservation = some editReservation)
    (hreceipt : lease.authorizationReceipt = editReceipt) :
    state.prepareFinalization editReservation editAuthority 3 =
      .ok (.Append .FinalizationPrepared (prepared editAuthority 3 lease)) := by
  have hfound : findLease state editReservation.leaseId = .ok lease := findLease_eq_ok.mpr h
  have hexact : exactReserved state editReservation 3 false = .ok lease := by
    simp only [exactReserved, bind_eq_ok, exists_unit, rejectIf_eq_ok, pure_eq_ok]
    exact ⟨lease, hfound, by simp [hreserved, hreservation], rfl⟩
  have hvalid : validateForFinalization state editReservation editAuthority 3 = .ok lease := by
    simp only [validateForFinalization, bind_eq_ok, exists_unit, rejectIf_eq_ok, pure_eq_ok]
    exact ⟨lease, hexact, by rw [hreceipt]; decide, by simp [editReservation], rfl⟩
  simp only [BrokerStateV1.prepareFinalization, hvalid]
  rfl

theorem prepare_edit (hfresh : entries.entries[editOperationId payload]? = none) :
    (editPreparing payload).plan entries = .ok (some (editPreparedEntry payload, 3)) := by
  have hdigest : isDigest zeroDigest = true := isDigest_zeroDigest
  simp only [editPreparing, ExternalMutationOperation.plan, ExternalMutationJournalStateV1.prepare,
    bind_unit_eq_ok, rejectIf_eq_ok, pure_eq_ok]
  refine ⟨by simp [editReservation, editPrepare, hdigest], ?_, rfl⟩
  change ¬entries.entries[editOperationId payload]?.isSome = true
  rw [hfresh]
  simp

theorem preparedEntry_valid : validateEntry (editPreparedEntry payload) = .ok () := by
  have hid : isDigest (editPreparedEntry payload).operationId = true := isDigest_digestCanonical ..
  have hreservation : isDigest (editPreparedEntry payload).reservationId = true :=
    isDigest_digestCanonical ..
  have hshape : entryMisshapen (editPreparedEntry payload) = false := by
    simp only [entryMisshapen, hid, hreservation]
    simp only [editPreparedEntry, ExternalMutationJournalStateV1.preparedEntry, editPrepare,
      editReservation, isDigest_zeroDigest]
    rfl
  have hfields : fieldsMatchPhase (editPreparedEntry payload) = true := rfl
  simp only [validateEntry, bind_unit_eq_ok, rejectIf_eq_ok, hshape, hfields]
  exact ⟨by simp, rfl⟩

theorem committedEntry_valid : validateEntry (editCommittedEntry payload) = .ok () := by
  have hid : isDigest (editPreparedEntry payload).operationId = true := isDigest_digestCanonical ..
  have hreservation : isDigest (editPreparedEntry payload).reservationId = true :=
    isDigest_digestCanonical ..
  have hshape : entryMisshapen (editCommittedEntry payload) = false := by
    simp only [entryMisshapen, editCommittedEntry, hid, hreservation]
    simp only [editPreparedEntry, ExternalMutationJournalStateV1.preparedEntry, editPrepare,
      editReservation, isDigest_zeroDigest]
    rfl
  have hfields : fieldsMatchPhase (editCommittedEntry payload) = true := rfl
  simp only [validateEntry, bind_unit_eq_ok, rejectIf_eq_ok, hshape, hfields]
  exact ⟨by simp, rfl⟩

theorem commit_edit :
    (editCommitting payload).plan
        (entries.filed (editPreparing payload) (editPreparedEntry payload) 3) =
      .ok (some (editCommittedEntry payload, 4)) := by
  have hfound : findEntry (entries.filed (editPreparing payload) (editPreparedEntry payload) 3)
      "external_mutation_prepare_not_found" (editOperationId payload) =
      .ok (editPreparedEntry payload) := by
    unfold findEntry
    rw [show (entries.filed (editPreparing payload) (editPreparedEntry payload) 3).entries[
      editOperationId payload]? = some (editPreparedEntry payload) from
        Std.ExtTreeMap.getElem?_insert_self]
  simp only [editCommitting, ExternalMutationOperation.plan, ExternalMutationJournalStateV1.commit,
    bind_eq_ok, exists_unit, rejectIf_eq_ok, pure_eq_ok]
  exact ⟨by simp [isDigest_zeroDigest], _, hfound, by simp [editPreparedEntry,
    ExternalMutationJournalStateV1.preparedEntry], rfl⟩

end Plans

-- The edit once it is reserved, and once its first half has been durable so many times.

def reservedEdit : BrokerStateV1 :=
  ((⟨0, none, ∅⟩ : BrokerStateV1).filed .Issued editIssued 1).filed .Reserved editReserved 2

def preparedLease : Nat → OwnerAuthorizationLeaseV1
  | 0 => editReserved
  | times + 1 => prepared editAuthority 3 (preparedLease times)

def preparedEdit : Nat → BrokerStateV1
  | 0 => reservedEdit
  | times + 1 => (preparedEdit times).filed .FinalizationPrepared (preparedLease (times + 1)) 3

theorem preparedLease_spec (times : Nat) : (preparedLease times).leaseId = "lease" ∧
    (preparedLease times).state = .Reserved ∧
    (preparedLease times).reservation = some editReservation ∧
    (preparedLease times).authorizationReceipt = editReceipt ∧
    validateLeaseShape (preparedLease times) = .ok () := by
  induction times with
  | zero => exact ⟨rfl, rfl, rfl, rfl, editReserved_shape⟩
  | succ times ih =>
      obtain ⟨hid, hstate, hreservation, hreceipt, hshape⟩ := ih
      exact ⟨hid, hstate, hreservation, hreceipt, prepared_shape hstate hshape⟩

theorem preparedEdit_leases (times : Nat) :
    (preparedEdit times).leases["lease"]? = some (preparedLease times) := by
  have hid := (preparedLease_spec times).1
  cases times with
  | zero => exact Std.ExtTreeMap.getElem?_insert_self
  | succ times =>
      rw [← hid]
      exact Std.ExtTreeMap.getElem?_insert_self

theorem editCommitted_entries {entries : ExternalMutationJournalStateV1} {payload : CanonicalValue} :
    (editCommitted entries payload).entries[editOperationId payload]? =
      some ((editCommitting payload).keep (externalMutationRecord
        (entries.filed (editPreparing payload) (editPreparedEntry payload) 3)
        (editCommittedEntry payload) 4).recordDigest (editCommittedEntry payload)) :=
  Std.ExtTreeMap.getElem?_insert_self

-- The reservation that a committed edit is bound to.
theorem editCommitted_bound {payload : CanonicalValue} {digest : String} :
    ((editCommitting payload).keep digest (editCommittedEntry payload)).IsCommitted ∧
      ((editCommitting payload).keep digest (editCommittedEntry payload)).BoundTo
        editReservation.reservationId "lease" :=
  ⟨nofun, rfl, rfl⟩

theorem editCommitted_other {entries : ExternalMutationJournalStateV1} {payload : CanonicalValue}
    {operationId : String} (hother : editOperationId payload ≠ operationId) :
    (editCommitted entries payload).entries[operationId]? = entries.entries[operationId]? := by
  have hskip : ∀ {map : BTreeMap ExternalMutationJournalEntryV1}
      {entry : ExternalMutationJournalEntryV1},
      (map.insert (editOperationId payload) entry)[operationId]? = map[operationId]? := by
    intro map entry
    rw [Std.ExtTreeMap.getElem?_insert, if_neg]
    exact fun heq => hother (Std.LawfulEqCmp.eq_of_compare heq)
  exact hskip.trans hskip

section Run

variable {fromSlice : BrokerDecoder} {decoder : ExternalMutationDecoder}
  {condition : Owner → OwnerEvent → Prop} {entries : ExternalMutationJournalStateV1}

-- The decoders that read back what was written.

noncomputable def editBrokerDecoder : BrokerDecoder :=
  Function.partialInv fun record => canonicalJson record.toValue

noncomputable def editJournalDecoder : ExternalMutationDecoder where
  fromSlice bytes := (Function.partialInv Library.Json.Value.write bytes).map
    Library.Json.Value.sortKeys
  fromValue := Function.partialInv fun record => record.toValue.sortKeys

omit [Sha256] in
theorem editBrokerDecoder_readsBack : BrokerReadsBack editBrokerDecoder :=
  partialInv_brokerReadsBack

omit [Sha256] in
theorem editJournalDecoder_readsBack : ExternalMutationReadsBack editJournalDecoder :=
  partialInv_externalMutationReadsBack

-- Events that neither finalize, commit, abort nor recover.
def OwnerEvent.Routine : OwnerEvent → Prop
  | .OpenBroker _ | .OpenJournal _ | .FinishExternalMutation (.refused _) _ => True
  | .Broker (.Issue _ _) _ _ | .Broker (.Reserve _ _ _ _) _ _ => True
  | .Journal (.Prepare _ _ _ _) _ => True
  | _ => False

variable (hcondition : ∀ owner event, OwnerEvent.Routine event → condition owner event)

include hcondition

theorem reaches_reserved (hbroker : BrokerReadsBack fromSlice)
    (hjournal : ExternalMutationReadsBack decoder) :
    Reaches fromSlice decoder editConfig condition reservedEdit ⟨0, none, ∅⟩ none := by
  have hvalid : editConfig.Valid := by
    simp [editConfig, OwnerAuthorizationBrokerConfigV1.Valid]
  have hopen := reaches_open hbroker hjournal hvalid fun owner fates =>
    ⟨hcondition owner (.OpenBroker fates) trivial, hcondition owner (.OpenJournal fates) trivial⟩
  have hissued := hopen.operate (.Issue "lease" editReceipt) (fun _ => trivial)
    (fun owner => hcondition owner (.Broker (.Issue "lease" editReceipt) 1 []) trivial) rfl
    issue_edit rfl (by simp)
  exact hissued.operate (.Reserve "lease" "session" zeroDigest zeroDigest) (fun _ => trivial)
    (fun owner => hcondition owner
      (.Broker (.Reserve "lease" "session" zeroDigest zeroDigest) 2 []) trivial) rfl
    (reserve_edit Std.ExtTreeMap.getElem?_insert_self) editReserved_shape (by simp)

omit hcondition in
theorem Reaches.prepareAgain (times : Nat)
    (h : Reaches fromSlice decoder editConfig condition (preparedEdit times) entries none)
    (hfinalize : ∀ owner, OwnerRun fromSlice decoder editConfig false condition owner →
      Stage owner (preparedEdit times) entries none →
      condition owner (.Finalize .ExternalMutation editReservation editAuthority 3 [])) :
    Reaches fromSlice decoder editConfig condition (preparedEdit (times + 1)) entries
      (some ⟨.ExternalMutation, editReservation, preparedLease (times + 1), 3, []⟩) := by
  obtain ⟨-, hstate, hreservation, hreceipt, -⟩ := preparedLease_spec times
  exact h.finalize hfinalize (prepareFinalization_edit (preparedEdit_leases times) hstate
    hreservation hreceipt) (preparedLease_spec (times + 1)).2.2.2.2

-- The callback prepares and commits the edit of a payload.
theorem Reaches.edit (payload : CanonicalValue) {state : BrokerStateV1} {running : Finalization}
    (h : Reaches fromSlice decoder editConfig condition state entries (some running))
    (hkind : running.kind = .ExternalMutation)
    (hfresh : entries.entries[editOperationId payload]? = none)
    (hcommit : ∀ owner, OwnerRun fromSlice decoder editConfig false condition owner →
      Stage owner state (entries.filed (editPreparing payload) (editPreparedEntry payload) 3)
        (some { running with committing := running.committing ++ [] }) →
      condition owner (.Journal (editCommitting payload) [])) :
    Reaches fromSlice decoder editConfig condition state (editCommitted entries payload)
      (some { running with
        committing := running.committing ++ [] ++ [editOperationId payload] }) := by
  have hpermits : ∀ owner : Owner, owner.finalization = some running →
      owner.Permits (.Journal (editPreparing payload) []) := fun _ _ => trivial
  have hprepared := h.journal hpermits (fun owner _ _ => hcondition owner
    (.Journal (editPreparing payload) []) trivial) (prepare_edit hfresh) preparedEntry_valid
  refine hprepared.journal ?_ hcommit commit_edit committedEntry_valid
  intro owner hfinalization
  change owner.finalization.map Finalization.kind = _
  rw [hfinalization]
  exact congrArg some hkind

omit hcondition in
-- The operation that the callback commits is bound to its own reservation.
theorem commitsOwn_edit {owner : Owner} {state : BrokerStateV1} {running : Finalization}
    {payload : CanonicalValue}
    (hstage : Stage owner state (entries.filed (editPreparing payload) (editPreparedEntry payload) 3)
      (some running)) (hreservation : running.reservation.reservationId = editReservation.reservationId)
    (hlease : running.reservation.leaseId = "lease") :
    owner.CommitsOwn (entries.filed (editPreparing payload) (editPreparedEntry payload) 3)
      (.Journal (editCommitting payload) []) := by
  intro finalization entry hfinalization hentry
  rw [hstage.finalization] at hfinalization
  obtain rfl := Option.some.inj hfinalization
  obtain rfl : editPreparedEntry payload = entry :=
    Option.some.inj (Std.ExtTreeMap.getElem?_insert_self.symm.trans hentry)
  exact ⟨hreservation.symm, hlease.symm⟩

end Run

end Edit

end M1nd.Mcp
