import M1nd.Mcp.ExternalMutationJournal.Operations
import M1nd.Mcp.OwnerAuthorizationBroker.Operations

namespace M1nd.Mcp

open M1nd.Control
open M1nd.Library.Durable
open ChainedJournal (Store)

inductive FinalizationKind
  | Wal
  | ExternalMutation
deriving DecidableEq

-- A finalization between its two halves: the lease as the first half left it, and the
-- operations its commit callback has called `commit` on so far.
structure Finalization where
  kind : FinalizationKind
  reservation : AuthorizationReservationV1
  lease : OwnerAuthorizationLeaseV1
  nowMs : Nat
  committing : List String

-- A COMMIT of the authority WAL, with the reservation in whose finalization it was written.
structure WalCommit where
  reservation : AuthorizationReservationV1
  witness : AuthorityWalCommitWitnessV1

-- The broker and the stores its commit callbacks write to. The commit and the abort witnesses
-- are the ones that were answered so far: nobody else can make one.
structure Owner where
  broker : Store BrokerStateV1
  journal : Store ExternalMutationJournalStateV1
  walCommits : List WalCommit
  finalization : Option Finalization
  commitWitnesses : List ExternalMutationCommitWitnessV1
  preparedWitnesses : List ExternalMutationPreparedAbortWitnessV1

def Owner.empty : Owner where
  broker := .empty
  journal := .empty
  walCommits := []
  finalization := none
  commitWitnesses := []
  preparedWitnesses := []

inductive OwnerEvent
  | OpenBroker (fates : List Fate)
  | OpenJournal (fates : List Fate)
  | Broker (operation : BrokerOperation) (nowMs : Nat) (fates : List Fate)
  | Finalize (kind : FinalizationKind) (reservation : AuthorizationReservationV1)
      (current : AuthorityRuntimeStateCoreV1) (nowMs : Nat) (fates : List Fate)
  | WalCommitted (witness : AuthorityWalCommitWitnessV1)
  | Journal (operation : ExternalMutationOperation) (fates : List Fate)
  | VerifyCommit (operationId : String)
  | VerifyPrepared (operationId : String)
  | FinishWal (commit : Outcome String AuthorityWalCommitWitnessV1) (fates : List Fate)
  | FinishExternalMutation (commit : Outcome String ExternalMutationCommitWitnessV1)
      (fates : List Fate)

-- What a commit that returns is answered with.
def ExternalMutationOperation.witness :
    ExternalMutationOperation → Option (ExternalMutationJournalEntryV1 × String) →
      Option ExternalMutationCommitWitnessV1
  | .Commit _ _ committedAt, some (entry, recordDigest) => some {
      reservationId := entry.reservationId
      leaseId := entry.leaseId
      operationObjectDigest := entry.prepare.operationObjectDigest
      authorizationSnapshotDigest := entry.authorizationSnapshotDigest
      journalRecordDigest := recordDigest
      committedAt }
  | _, _ => none

-- The operation that a callback calls `commit` on.
def ExternalMutationOperation.committed : ExternalMutationOperation → Option String
  | .Commit operationId _ _ => some operationId
  | _ => none

namespace Owner

section Apply

variable [Sha256] (fromSlice : BrokerDecoder) (decoder : ExternalMutationDecoder)
  (config : OwnerAuthorizationBrokerConfigV1) (backend : Bool) (owner : Owner)

-- The first half of a finalization; the callback only runs once it has returned.
def finalize (kind : FinalizationKind) (reservation : AuthorizationReservationV1)
    (current : AuthorityRuntimeStateCoreV1) (nowMs : Nat) (fates : List Fate) : Owner :=
  match owner.broker.call
      (perform fromSlice (·.prepareFinalization reservation current nowMs) nowMs) fates with
  | (some (.returned lease), broker) =>
      { owner with broker, finalization := some ⟨kind, reservation, lease, nowMs, []⟩ }
  | (_, broker) => { owner with broker }

def finish (program : Finalization → BrokerProgram OwnerAuthorizationLeaseV1)
    (fates : List Fate) : Owner :=
  match owner.finalization with
  | none => owner
  | some finalization => { owner with
      broker := (owner.broker.call (program finalization) fates).2
      finalization := none }

def callJournal (operation : ExternalMutationOperation) (fates : List Fate) : Owner :=
  let (outcome, journal) := owner.journal.call (operation.program decoder) fates
  let answered := match outcome with
    | some (.returned answer) => (operation.witness answer).toList
    | _ => []
  { owner with
    journal
    finalization := owner.finalization.map fun finalization =>
      { finalization with committing := finalization.committing ++ operation.committed.toList }
    commitWitnesses := owner.commitWitnesses ++ answered }

-- A read of the open journal.
def ask {W : Type} (read : ExternalMutationJournalStateV1 → Except ExternalMutationJournalError W) :
    List W :=
  match owner.journal.handle with
  | none => []
  | some handle => (read handle.state).toOption.toList

-- The process that holds the broker ends when the broker is opened again, and the callback it
-- ran with it.
def apply : OwnerEvent → Owner
  | .OpenBroker fates => { owner with
      broker := owner.broker.reopen (openBroker fromSlice config backend) fates
      finalization := none }
  | .OpenJournal fates => { owner with
      journal := owner.journal.reopen (openExternalMutationJournal decoder backend) fates }
  | .Broker operation nowMs fates => { owner with
      broker := (owner.broker.call (operation.program fromSlice config nowMs) fates).2 }
  | .Finalize kind reservation current nowMs fates =>
      owner.finalize fromSlice kind reservation current nowMs fates
  | .WalCommitted witness => { owner with
      walCommits := owner.walCommits ++ owner.finalization.toList.map fun finalization =>
        ⟨finalization.reservation, witness⟩ }
  | .Journal operation fates => owner.callJournal decoder operation fates
  | .VerifyCommit operationId => { owner with
      commitWitnesses := owner.commitWitnesses ++
        owner.ask (·.verifiedCommitWitness operationId) }
  | .VerifyPrepared operationId => { owner with
      preparedWitnesses := owner.preparedWitnesses ++
        owner.ask (·.verifiedPreparedAbortWitness operationId) }
  | .FinishWal commit fates => owner.finish
      (fun finalization => finishWal fromSlice finalization.lease commit finalization.nowMs) fates
  | .FinishExternalMutation commit fates => owner.finish (fun finalization =>
      finishExternalMutation fromSlice finalization.lease commit finalization.nowMs) fates

end Apply

-- What a finalization does not touch.

section Frame

variable [Sha256] {fromSlice : BrokerDecoder} {owner : Owner} {kind : FinalizationKind}
  {reservation : AuthorizationReservationV1} {current : AuthorityRuntimeStateCoreV1} {nowMs : Nat}
  {fates : List Fate} {program : Finalization → BrokerProgram OwnerAuthorizationLeaseV1}

@[simp]
theorem finalize_journal :
    (owner.finalize fromSlice kind reservation current nowMs fates).journal = owner.journal := by
  unfold finalize
  split <;> rfl

@[simp]
theorem finalize_walCommits :
    (owner.finalize fromSlice kind reservation current nowMs fates).walCommits =
      owner.walCommits := by
  unfold finalize
  split <;> rfl

@[simp]
theorem finalize_commitWitnesses :
    (owner.finalize fromSlice kind reservation current nowMs fates).commitWitnesses =
      owner.commitWitnesses := by
  unfold finalize
  split <;> rfl

omit [Sha256] in
@[simp]
theorem finish_journal : (owner.finish program fates).journal = owner.journal := by
  unfold finish
  split <;> rfl

omit [Sha256] in
@[simp]
theorem finish_walCommits : (owner.finish program fates).walCommits = owner.walCommits := by
  unfold finish
  split <;> rfl

omit [Sha256] in
@[simp]
theorem finish_commitWitnesses :
    (owner.finish program fates).commitWitnesses = owner.commitWitnesses := by
  unfold finish
  split <;> rfl

omit [Sha256] in
@[simp]
theorem finish_ends : (owner.finish program fates).finalization = none := by
  unfold finish
  split
  · assumption
  · rfl

end Frame

variable (owner : Owner)

-- The finalization whose callback runs is of this kind.
def Finalizing (kind : FinalizationKind) : Prop :=
  owner.finalization.map Finalization.kind = some kind

-- A witness is one that the WAL or the journal has answered.
def Witnessed : BrokerOperation → Prop
  | .FinalizeWal _ _ _ | .FinalizeExternalMutation _ _ _ => False
  | .RecoverReserved _ (some witness) => witness ∈ owner.walCommits.map WalCommit.witness
  | .RecoverExternalReserved _ (some witness) => witness ∈ owner.commitWitnesses
  | .RecoverExternalPreparedWithoutCommit _ witness => witness ∈ owner.preparedWitnesses
  | _ => True

-- The events that can happen: the broker is held while a callback runs, and only a callback
-- commits.
def Permits : OwnerEvent → Prop
  | .Broker operation _ _ => owner.finalization = none ∧ owner.Witnessed operation
  | .Finalize _ _ _ _ _ => owner.finalization = none
  | .WalCommitted _ => owner.Finalizing .Wal
  | .Journal (.Commit _ _ _) _ => owner.Finalizing .ExternalMutation
  | .FinishWal commit _ => owner.Finalizing .Wal ∧
      ∀ witness, commit = .returned witness → witness ∈ owner.walCommits.map WalCommit.witness
  | .FinishExternalMutation commit _ => owner.Finalizing .ExternalMutation ∧
      ∀ witness, commit = .returned witness → witness ∈ owner.commitWitnesses
  | _ => True

-- What the two journals hold on disk.
def Recovers [Sha256] (fromSlice : BrokerDecoder) (decoder : ExternalMutationDecoder)
    (state : BrokerStateV1) (entries : ExternalMutationJournalStateV1) : Prop :=
  (∃ complete, (brokerFormat fromSlice).replayFile owner.broker.disk.log = .ok (state, complete)) ∧
    ∃ complete, (externalMutationFormat decoder).replayFile owner.journal.disk.log =
      .ok (entries, complete)

end Owner

-- The owners that permitted events lead to, each event under a condition on the state before it.
inductive OwnerRun [Sha256] (fromSlice : BrokerDecoder) (decoder : ExternalMutationDecoder)
    (config : OwnerAuthorizationBrokerConfigV1) (backend : Bool)
    (condition : Owner → OwnerEvent → Prop) : Owner → Prop
  | Empty : OwnerRun fromSlice decoder config backend condition .empty
  | Next {owner : Owner} (h : OwnerRun fromSlice decoder config backend condition owner)
      (event : OwnerEvent) (hpermits : owner.Permits event) (hcondition : condition owner event) :
      OwnerRun fromSlice decoder config backend condition
        (owner.apply fromSlice decoder config backend event)

-- The operation has been committed, and may have gone on from there.
def ExternalMutationJournalEntryV1.IsCommitted (entry : ExternalMutationJournalEntryV1) : Prop :=
  entry.phase ≠ .Prepared

-- The operation is bound to the reservation of the lease.
def ExternalMutationJournalEntryV1.BoundTo (entry : ExternalMutationJournalEntryV1)
    (reservationId leaseId : String) : Prop :=
  entry.reservationId = reservationId ∧ entry.leaseId = leaseId

end M1nd.Mcp
