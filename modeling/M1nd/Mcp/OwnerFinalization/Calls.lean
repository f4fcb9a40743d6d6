import M1nd.Mcp.OwnerFinalization.Runs

namespace M1nd.Mcp

open M1nd.Control
open M1nd.Library.Checks
open M1nd.Library.Durable
open ChainedJournal (Disk Handle Store World)

-- Calls without a fault, on journals without a protected head.

section Clean

variable {ρ σ ε α : Type} {format : ChainedJournal.Format ρ σ ε} {store : Store σ}
  {state next : σ} {record : ρ} {make : σ → Except ε (ρ × σ)}

-- The world of a journal that is open with a good handle.
def cleanWorld (bytes : Library.Json.Bytes) (heads : ProtectedHeads) (state : σ) : World σ :=
  ⟨⟨bytes, heads⟩, ⟨state, bytes.length, false, none⟩⟩

def Clean (store : Store σ) (state : σ) : Prop :=
  ∃ bytes heads, store = ⟨⟨bytes, heads⟩, some ⟨state, bytes.length, false, none⟩⟩

theorem append_clean {bytes : Library.Json.Bytes} {heads : ProtectedHeads}
    (hmake : make state = .ok (record, next)) :
    Ends (format.append make) [] (cleanWorld bytes heads state) (.returned record) []
      (cleanWorld (bytes ++ format.line record) heads next) := by
  have hlength : Ends format.checkLength [] (cleanWorld bytes heads state) (.returned ()) []
      (cleanWorld bytes heads state) := by
    have hsame : (cleanWorld bytes heads state).disk.log.length =
        (cleanWorld bytes heads state).handle.knownLen := rfl
    refine .bind .get ?_
    rw [if_neg (not_not.mpr hsame)]
    exact .pure
  have hverify : Ends format.verifyHead [] (cleanWorld bytes heads state) (.returned ()) []
      (cleanWorld bytes heads state) := .bind .get .pure
  have hchecked : Ends format.checkUnchanged [] (cleanWorld bytes heads state) (.returned ()) []
      (cleanWorld bytes heads state) := by
    unfold ChainedJournal.Format.checkUnchanged
    split
    · exact .bind hlength hverify
    · exact .bind hverify hlength
  refine .bind .get (.bind (.check rfl) (.bind hchecked (.bind (.check hmake)
    (.bind (.orElse (.zoom .step)) (.bind (.bind .get .pure) (.bind .modify ?_))))))
  unfold cleanWorld
  rw [List.length_append]
  exact .pure

theorem call_clean {program : Program (World σ) ε α} {value : α} {next : σ}
    (hclean : Clean store state)
    (hprogram : ∀ bytes heads, ∃ more, Ends program [] (cleanWorld bytes heads state)
      (.returned value) [] (cleanWorld (bytes ++ more) heads next)) :
    (store.call program []).1 = some (.returned value) ∧ Clean (store.call program []).2 next := by
  obtain ⟨bytes, heads, rfl⟩ := hclean
  obtain ⟨more, hends⟩ := hprogram bytes heads
  have hrun : program [] ⟨⟨bytes, heads⟩, ⟨state, bytes.length, false, none⟩⟩ = _ := hends
  unfold Store.call
  dsimp only
  rw [hrun]
  exact ⟨rfl, _, _, rfl⟩

theorem reopen_clean (hlawful : format.Lawful)
    (hfresh : format.sequence format.fresh = 0 ∧ format.tailDigest format.fresh = none) :
    Clean (Store.empty.reopen (format.openJournal false) []) format.fresh := by
  obtain ⟨o, after, hends, hlog, head, rfl, hsome⟩ :=
    ChainedJournal.openJournal_empty hlawful false hfresh
  obtain rfl : head = none := by
    cases head with
    | none => rfl
    | some head => cases hsome
  obtain ⟨bytes, heads⟩ := after
  obtain rfl : bytes = [] := hlog
  have hrun : format.openJournal false [] ⟨[], ∅⟩ = _ := hends
  unfold Store.reopen Store.empty
  dsimp only
  rw [hrun]
  exact ⟨[], heads, rfl⟩

end Clean

section Broker

variable [Sha256] {fromSlice : BrokerDecoder} {config : OwnerAuthorizationBrokerConfigV1}
  {store : Store BrokerStateV1} {state : BrokerStateV1} {plan : BrokerStateV1 → LeasePlan} {kind : BrokerJournalEventKindV1}
  {lease : OwnerAuthorizationLeaseV1} {nowMs : Nat}

theorem perform_ends (bytes : Library.Json.Bytes) (heads : ProtectedHeads)
    (hplan : plan state = .ok (.Append kind lease)) (hshape : validateLeaseShape lease = .ok ())
    (hkind : kind ≠ .GcTombstone) :
    Ends (perform fromSlice plan nowMs) [] (cleanWorld bytes heads state) (.returned lease) []
      (cleanWorld (bytes ++ (brokerFormat fromSlice).line
        (brokerRecord state kind lease.leaseId (some lease) nowMs)) heads
        (state.filed kind lease nowMs)) := by
  have hmake : chainRecord (fun state => brokerRecord state kind lease.leaseId (some lease) nowMs)
      (fun leases => leases.insert lease.leaseId lease) state =
      .ok (brokerRecord state kind lease.leaseId (some lease) nowMs, state.filed kind lease nowMs) := by
    simp only [chainRecord, bind_unit_eq_ok, pure_eq_ok]
    refine ⟨BrokerJournalRecordV1.validate_seal.mpr ⟨not_isBlank_of_shape hshape, ?_⟩, rfl⟩
    simpa using hkind
  have happend : Ends (appendSnapshot fromSlice kind lease nowMs) [] (cleanWorld bytes heads state)
      (.returned ()) [] _ := .bind (.check hshape) (.bind (append_clean hmake) .pure)
  exact .bind .get (.bind (.check hplan) (.bind happend .pure))

theorem perform_clean (hclean : Clean store state)
    (hplan : plan state = .ok (.Append kind lease)) (hshape : validateLeaseShape lease = .ok ())
    (hkind : kind ≠ .GcTombstone) :
    (store.call (perform fromSlice plan nowMs) []).1 = some (.returned lease) ∧
      Clean (store.call (perform fromSlice plan nowMs) []).2 (state.filed kind lease nowMs) :=
  call_clean hclean fun bytes heads => ⟨_, perform_ends bytes heads hplan hshape hkind⟩

theorem operation_clean (hclean : Clean store state) {operation : BrokerOperation}
    (hprogram : operation.program fromSlice config nowMs =
      do let _ ← perform fromSlice plan nowMs)
    (hplan : plan state = .ok (.Append kind lease)) (hshape : validateLeaseShape lease = .ok ())
    (hkind : kind ≠ .GcTombstone) :
    Clean (store.call (operation.program fromSlice config nowMs) []).2
      (state.filed kind lease nowMs) := by
  have hends : ∀ bytes heads, ∃ more, Ends (operation.program fromSlice config nowMs) []
      (cleanWorld bytes heads state) (.returned ()) []
      (cleanWorld (bytes ++ more) heads (state.filed kind lease nowMs)) := by
    intro bytes heads
    rw [hprogram]
    exact ⟨_, .bind (perform_ends bytes heads hplan hshape hkind) .pure⟩
  exact (call_clean hclean hends).2

end Broker

section Journal

variable [Sha256] {decoder : ExternalMutationDecoder} {store : Store ExternalMutationJournalStateV1}
  {state : ExternalMutationJournalStateV1} {operation : ExternalMutationOperation}
  {entry : ExternalMutationJournalEntryV1} {nowMs : Nat}

theorem program_ends (bytes : Library.Json.Bytes) (heads : ProtectedHeads)
    (hplan : operation.plan state = .ok (some (entry, nowMs)))
    (hvalid : validateEntry entry = .ok ()) :
    Ends (operation.program decoder) [] (cleanWorld bytes heads state)
      (.returned (some (operation.keep (externalMutationRecord state entry nowMs).recordDigest entry,
        (externalMutationRecord state entry nowMs).recordDigest))) []
      (cleanWorld (bytes ++ (externalMutationFormat decoder).line
        (externalMutationRecord state entry nowMs)) heads (state.filed operation entry nowMs)) := by
  have hmake : chainEntry operation.keep entry nowMs state =
      .ok (externalMutationRecord state entry nowMs, state.filed operation entry nowMs) := by
    simp only [chainEntry, bind_unit_eq_ok, pure_eq_ok]
    exact ⟨hvalid, rfl⟩
  exact .bind .get (.bind (.check hplan) (.bind (append_clean hmake) .pure))

theorem program_clean (hclean : Clean store state)
    (hplan : operation.plan state = .ok (some (entry, nowMs)))
    (hvalid : validateEntry entry = .ok ()) :
    Clean (store.call (operation.program decoder) []).2 (state.filed operation entry nowMs) :=
  (call_clean hclean fun bytes heads => ⟨_, program_ends bytes heads hplan hvalid⟩).2

end Journal

section Owner

variable [Sha256] {fromSlice : BrokerDecoder} {decoder : ExternalMutationDecoder}
  {config : OwnerAuthorizationBrokerConfigV1} {condition : Owner → OwnerEvent → Prop}
  {owner : Owner} {state : BrokerStateV1} {entries : ExternalMutationJournalStateV1}
  {finalization : Option Finalization}

-- An owner whose journals are open, with what they hold.
structure Stage (owner : Owner) (state : BrokerStateV1) (entries : ExternalMutationJournalStateV1)
    (finalization : Option Finalization) : Prop where
  broker : Clean owner.broker state
  journal : Clean owner.journal entries
  finalization : owner.finalization = finalization

-- A run under the condition leads to such an owner.
def Reaches (fromSlice : BrokerDecoder) (decoder : ExternalMutationDecoder)
    (config : OwnerAuthorizationBrokerConfigV1) (condition : Owner → OwnerEvent → Prop)
    (state : BrokerStateV1) (entries : ExternalMutationJournalStateV1)
    (finalization : Option Finalization) : Prop :=
  ∃ owner, OwnerRun fromSlice decoder config false condition owner ∧
    Stage owner state entries finalization

-- A good handle knows what its journal holds.
omit [Sha256] in
theorem Clean.state_eq {ρ σ ε : Type} {format : ChainedJournal.Format ρ σ ε}
    {legal : σ → ρ → Prop} {store : Store σ} {log : List ρ} {held known : σ}
    (h : Clean store known) (hholds : store.Holds format legal log held) : held = known := by
  obtain ⟨bytes, heads, rfl⟩ := h
  exact ((hholds.held _ rfl).synced rfl).state.symm

theorem Stage.recovers (hbroker : BrokerReadsBack fromSlice)
    (hjournal : ExternalMutationReadsBack decoder) {backend : Bool}
    (hrun : OwnerRun fromSlice decoder config backend condition owner)
    (h : Stage owner state entries finalization) :
    owner.Recovers fromSlice decoder state entries := by
  obtain ⟨log, held, records, kept, hholds, -⟩ :=
    hrun.invariant hbroker hjournal (fun _ _ _ => True) trivial fun _ _ _ _ _ _ _ => trivial
  have hrecovers := hholds.recovers hbroker hjournal
  rwa [h.broker.state_eq hholds.broker, h.journal.state_eq hholds.journal] at hrecovers

theorem reaches_open (hbroker : BrokerReadsBack fromSlice)
    (hjournal : ExternalMutationReadsBack decoder) (hvalid : config.Valid)
    (hcondition : ∀ owner fates, condition owner (.OpenBroker fates) ∧
      condition owner (.OpenJournal fates)) :
    Reaches fromSlice decoder config condition ⟨0, none, ∅⟩ ⟨0, none, ∅⟩ none := by
  refine ⟨_, .Next (.Next .Empty (.OpenBroker []) trivial (hcondition _ _).1) (.OpenJournal [])
    trivial (hcondition _ _).2, ?_, ?_, rfl⟩
  · change Clean (Store.empty.reopen (openBroker fromSlice config false) []) _
    rw [openBroker_eq hvalid]
    exact reopen_clean (brokerFormat_lawful hbroker) ⟨rfl, rfl⟩
  · exact reopen_clean (externalMutationFormat_lawful hjournal) ⟨rfl, rfl⟩

theorem Reaches.operate (h : Reaches fromSlice decoder config condition state entries none)
    (operation : BrokerOperation) {nowMs : Nat} {plan : BrokerStateV1 → LeasePlan}
    {kind : BrokerJournalEventKindV1} {lease : OwnerAuthorizationLeaseV1}
    (hwitnessed : ∀ owner : Owner, owner.Witnessed operation)
    (hcondition : ∀ owner, condition owner (.Broker operation nowMs []))
    (hprogram : operation.program fromSlice config nowMs =
      do let _ ← perform fromSlice plan nowMs)
    (hplan : plan state = .ok (.Append kind lease)) (hshape : validateLeaseShape lease = .ok ())
    (hkind : kind ≠ .GcTombstone) :
    Reaches fromSlice decoder config condition (state.filed kind lease nowMs) entries none := by
  obtain ⟨owner, hrun, hstage⟩ := h
  exact ⟨_, .Next hrun (.Broker operation nowMs []) ⟨hstage.finalization, hwitnessed owner⟩
    (hcondition owner), operation_clean hstage.broker hprogram hplan hshape hkind, hstage.journal,
    hstage.finalization⟩

theorem Reaches.finalize (h : Reaches fromSlice decoder config condition state entries none)
    {kind : FinalizationKind} {reservation : AuthorizationReservationV1}
    {current : AuthorityRuntimeStateCoreV1} {nowMs : Nat} {lease : OwnerAuthorizationLeaseV1}
    (hcondition : ∀ owner, OwnerRun fromSlice decoder config false condition owner →
      Stage owner state entries none →
      condition owner (.Finalize kind reservation current nowMs []))
    (hplan : state.prepareFinalization reservation current nowMs =
      .ok (.Append .FinalizationPrepared lease)) (hshape : validateLeaseShape lease = .ok ()) :
    Reaches fromSlice decoder config condition (state.filed .FinalizationPrepared lease nowMs)
      entries (some ⟨kind, reservation, lease, nowMs, []⟩) := by
  obtain ⟨owner, hrun, hstage⟩ := h
  refine ⟨_, .Next hrun (.Finalize kind reservation current nowMs []) hstage.finalization
    (hcondition owner hrun hstage), ?_⟩
  obtain ⟨hreturned, hclean⟩ := @perform_clean _ fromSlice _ _
    (·.prepareFinalization reservation current nowMs) _ _ nowMs hstage.broker hplan hshape nofun
  change Stage (owner.finalize fromSlice kind reservation current nowMs []) _ _ _
  unfold Owner.finalize
  generalize owner.broker.call _ [] = run at hreturned hclean ⊢
  obtain ⟨outcome, broker⟩ := run
  obtain rfl : outcome = some (.returned lease) := hreturned
  exact ⟨hclean, hstage.journal, rfl⟩

theorem Reaches.journal (h : Reaches fromSlice decoder config condition state entries finalization)
    {operation : ExternalMutationOperation} {entry : ExternalMutationJournalEntryV1} {nowMs : Nat}
    (hpermits : ∀ owner : Owner, owner.finalization = finalization →
      owner.Permits (.Journal operation []))
    (hcondition : ∀ owner, OwnerRun fromSlice decoder config false condition owner →
      Stage owner state entries finalization → condition owner (.Journal operation []))
    (hplan : operation.plan entries = .ok (some (entry, nowMs)))
    (hvalid : validateEntry entry = .ok ()) :
    Reaches fromSlice decoder config condition state (entries.filed operation entry nowMs)
      (finalization.map fun finalization => { finalization with
        committing := finalization.committing ++ operation.committed.toList }) := by
  obtain ⟨owner, hrun, hstage⟩ := h
  refine ⟨_, .Next hrun (.Journal operation []) (hpermits owner hstage.finalization)
    (hcondition owner hrun hstage), hstage.broker, program_clean hstage.journal hplan hvalid, ?_⟩
  rw [← hstage.finalization]
  rfl

-- A callback that fails leaves the lease as the first half left it.
theorem Reaches.refuse (detail : String) {running : Finalization}
    (h : Reaches fromSlice decoder config condition state entries (some running))
    (hkind : running.kind = .ExternalMutation)
    (hcondition : ∀ owner, condition owner (.FinishExternalMutation (.refused detail) [])) :
    Reaches fromSlice decoder config condition state entries none := by
  obtain ⟨owner, hrun, hstage⟩ := h
  have hfinalizing : owner.Finalizing .ExternalMutation := by
    unfold Owner.Finalizing
    rw [hstage.finalization]
    exact congrArg some hkind
  refine ⟨_, .Next hrun (.FinishExternalMutation (.refused detail) []) ⟨hfinalizing, by simp⟩
    (hcondition owner), ?_⟩
  obtain ⟨bytes, heads, hbroker⟩ := hstage.broker
  change Stage (owner.finish _ []) _ _ _
  unfold Owner.finish
  rw [hstage.finalization, hbroker]
  exact ⟨⟨bytes, heads, rfl⟩, hstage.journal, rfl⟩

end Owner

end M1nd.Mcp
