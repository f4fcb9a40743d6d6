import M1nd.Control.AuthorityWal.Theorems
import M1nd.Mcp.AuthorityWal

namespace M1nd.Mcp

open M1nd.Control
open M1nd.Library.Checks
open M1nd.Library.Runs

-- The abstract machine of one transaction: which phase may follow which.
def follows : Option AuthorityWalPhase → AuthorityWalPhase → Bool
  | none, .Prepare => true
  | some .Prepare, .Provisional => true
  | some .Prepare, .Abort => true
  | some .Provisional, .Commit => true
  | some .Provisional, .Abort => true
  | _, _ => false

def phaseStep (current : Option AuthorityWalPhase) (phase : AuthorityWalPhase) :
    Except Unit (Option AuthorityWalPhase) := do
  rejectIf (¬ follows current phase) ()
  return some phase

-- The life of a transaction: phases that the machine accepts one after the other.
def Life (phases : List AuthorityWalPhase) (current : Option AuthorityWalPhase) : Prop :=
  replay phaseStep none phases = .ok current

namespace Life

variable {phases more : List AuthorityWalPhase} {phase : AuthorityWalPhase}
  {current next : Option AuthorityWalPhase}

theorem phaseStep_eq_ok :
    phaseStep current phase = .ok next ↔ follows current phase = true ∧ next = some phase := by
  rw [phaseStep, bind_unit_eq_ok, rejectIf_eq_ok, pure_eq_ok, not_not, eq_comm (a := some phase)]

theorem extend (h : Life phases current) (hfollows : follows current phase = true) :
    Life (phases ++ [phase]) (some phase) :=
  replay_concat_eq_ok.mpr ⟨current, h, phaseStep_eq_ok.mpr ⟨hfollows, rfl⟩⟩

theorem current_eq (h : Life (phases ++ [phase]) current) : current = some phase := by
  obtain ⟨previous, -, hstep⟩ := replay_concat_eq_ok.mp h
  exact (phaseStep_eq_ok.mp hstep).2

theorem isPrefix (h : Life phases current) :
    phases <+: [.Prepare, .Provisional, .Commit] ∨ phases <+: [.Prepare, .Abort] ∨
      phases <+: [.Prepare, .Provisional, .Abort] := by
  have hlives : (phases, current) ∈ [([], none), ([.Prepare], some .Prepare),
      ([.Prepare, .Provisional], some .Provisional),
      ([.Prepare, .Provisional, .Commit], some .Commit), ([.Prepare, .Abort], some .Abort),
      ([.Prepare, .Provisional, .Abort], some AuthorityWalPhase.Abort)] := by
    refine replay_invariant (fun phases current => (phases, current) ∈ _) (by simp) ?_ h
    intro phases phase current next hmem hstep
    obtain ⟨hfollows, rfl⟩ := phaseStep_eq_ok.mp hstep
    simp only [List.mem_cons, Prod.mk.injEq, List.not_mem_nil, or_false] at hmem
    obtain ⟨rfl, rfl⟩ | ⟨rfl, rfl⟩ | ⟨rfl, rfl⟩ | ⟨rfl, rfl⟩ | ⟨rfl, rfl⟩ | ⟨rfl, rfl⟩ := hmem <;>
      cases phase <;> first | exact absurd hfollows (by decide) | simp
  simp only [List.mem_cons, Prod.mk.injEq, List.not_mem_nil, or_false] at hlives
  obtain ⟨rfl, -⟩ | ⟨rfl, -⟩ | ⟨rfl, -⟩ | ⟨rfl, -⟩ | ⟨rfl, -⟩ | ⟨rfl, -⟩ := hlives <;> decide

-- Nothing follows a terminal phase.
theorem terminal_last (h : Life (phases ++ phase :: more) current)
    (hterminal : phase.isTerminal = true) : more = [] := by
  have hsplit : phases ++ phase :: more = (phases ++ [phase]) ++ more := by simp
  rw [Life, hsplit] at h
  obtain ⟨previous, hlife, hmore⟩ := replay_append_eq_ok.mp h
  obtain rfl := current_eq hlife
  cases more with
  | nil => rfl
  | cons later more =>
      rw [replay_cons, bind_eq_ok] at hmore
      obtain ⟨next, hstep, -⟩ := hmore
      have hfollows := (phaseStep_eq_ok.mp hstep).1
      cases phase with
      | Prepare => exact absurd hterminal (by decide)
      | Provisional => exact absurd hterminal (by decide)
      | Commit => exact absurd hfollows (by cases later <;> decide)
      | Abort => exact absurd hfollows (by cases later <;> decide)

theorem terminal_iff (h : Life phases current) (hterminal : phase.isTerminal = true) :
    current = some phase ↔ phase ∈ phases := by
  constructor
  · rintro rfl
    obtain rfl | ⟨earlier, last, rfl⟩ := phases.eq_nil_or_concat
    · cases h
    · rw [List.concat_eq_append] at h ⊢
      obtain rfl : phase = last := Option.some.inj (current_eq h)
      simp
  · intro hmem
    obtain ⟨earlier, later, rfl⟩ := List.append_of_mem hmem
    obtain rfl := terminal_last h hterminal
    exact current_eq h

end Life

variable {log before after : List AuthorityWalRecordV1} {record : AuthorityWalRecordV1}

-- The phases of one transaction in log order.
def phases (transactionId : String) (log : List AuthorityWalRecordV1) : List AuthorityWalPhase :=
  (log.filter fun record => record.transactionId = transactionId).map (·.phase)

theorem phases_append (transactionId : String) (log more : List AuthorityWalRecordV1) :
    phases transactionId (log ++ more) = phases transactionId log ++ phases transactionId more := by
  simp [phases]

theorem phases_own : phases record.transactionId [record] = [record.phase] := by
  simp [phases]

theorem phases_other {transactionId : String} (h : record.transactionId ≠ transactionId) :
    phases transactionId [record] = [] := by
  simp [phases, h]

theorem mem_phases {transactionId : String} {phase : AuthorityWalPhase} :
    phase ∈ phases transactionId log ↔
      ∃ record ∈ log, record.transactionId = transactionId ∧ record.phase = phase := by
  simp [phases, and_assoc]

theorem phases_eq_nil {transactionId : String} :
    phases transactionId log = [] ↔ ∀ record ∈ log, record.transactionId ≠ transactionId := by
  simp [phases]

namespace ReplayIndex

theorem update_update (index : ReplayIndex) (transactionId : String)
    (f g : ReplayTransaction → ReplayTransaction) :
    (index.update transactionId f).update transactionId g = index.update transactionId (g ∘ f) := by
  unfold update
  congr 1
  ext key replay
  simp only [Std.ExtHashMap.getElem?_modify]
  split <;> simp_all

variable [Sha256] {index next : ReplayIndex}

def closed (index : ReplayIndex) (record : AuthorityWalRecordV1) : ReplayIndex :=
  { index with recordCount := record.sequence, lastRecordDigest := some record.recordDigest }

-- Everything an accepted record can do: it opens a transaction, or it moves one on.
inductive Applied (index : ReplayIndex) (record : AuthorityWalRecordV1) : ReplayIndex → Prop
  | Opens (payload : AuthorityWalPrepareV1) (hpayload : record.payload = .Prepare payload)
      (hbinds : Binds record payload.transaction)
      (hfresh : record.transactionId ∉ index.transactions)
      (hscope : IdempotencyScope.fromTransaction payload.transaction ∉ index.idempotency) :
      Applied index record (closed { index with
        idempotency := index.idempotency.insert
          (IdempotencyScope.fromTransaction payload.transaction) record.transactionId
        transactions := index.transactions.insert record.transactionId
          { transaction := payload.transaction, phase := .Prepare, terminal := none } } record)
  | Moves (replay : ReplayTransaction) (f : ReplayTransaction → ReplayTransaction)
      (hreplay : index.transactions[record.transactionId]? = some replay)
      (hbinds : Binds record replay.transaction)
      (hfollows : follows (some replay.phase) record.payload.phase = true)
      (htransaction : (f replay).transaction = replay.transaction)
      (hphase : (f replay).phase = record.payload.phase)
      (hpending : record.payload.phase.isTerminal = false →
        (f replay).terminal = replay.terminal)
      (hterminal : record.payload.phase.isTerminal = true →
        ∃ outcome, (f replay).terminal = some outcome ∧ outcome.phase = record.payload.phase ∧
          outcome.terminalRecordDigest = record.recordDigest) :
      Applied index record (closed (index.update record.transactionId f) record)

theorem prepare_eq_ok {payload : AuthorityWalPrepareV1}
    (h : index.prepare record payload = .ok next) :
    (∃ validation, record.validateAgainstTransaction payload.transaction = .ok validation) ∧
      record.transactionId ∉ index.transactions ∧
      IdempotencyScope.fromTransaction payload.transaction ∉ index.idempotency ∧
      next = { index with
        idempotency := index.idempotency.insert
          (IdempotencyScope.fromTransaction payload.transaction) record.transactionId
        transactions := index.transactions.insert record.transactionId
          { transaction := payload.transaction, phase := .Prepare, terminal := none } } := by
  simp only [prepare, bind_eq_ok, mapError_eq_ok, rejectIf_eq_ok, pure_eq_ok] at h
  obtain ⟨validation, hvalidation, -, hfresh, -, hscope, rfl⟩ := h
  exact ⟨⟨validation, hvalidation⟩, hfresh, hscope, rfl⟩

theorem advance_eq_ok {requiredPrevious : AuthorityWalPhase}
    (h : index.advance record requiredPrevious = .ok next) :
    ∃ replay, index.transactions[record.transactionId]? = some replay ∧
      replay.phase = requiredPrevious ∧ Binds record replay.transaction ∧
      next = index.update record.transactionId fun replay =>
        { replay with phase := record.phase } := by
  unfold advance at h
  split at h
  · cases h
  · rename_i replay hreplay
    simp only [bind_eq_ok, mapError_eq_ok, rejectIf_eq_ok, ne_eq, not_not, pure_eq_ok] at h
    obtain ⟨-, hphase, validation, hvalidation, rfl⟩ := h
    exact ⟨replay, hreplay, hphase, validateAgainstTransaction_binds hvalidation, rfl⟩

theorem commit_eq_ok {payload : AuthorityWalCommitV1}
    (h : index.commit record payload = .ok next) :
    ∃ replay, index.transactions[record.transactionId]? = some replay ∧
      replay.phase = .Provisional ∧ Binds record replay.transaction ∧
      next = index.update record.transactionId fun replay =>
        { replay with
          phase := record.phase
          terminal := some (commitOutcome record payload replay.transaction) } := by
  simp only [commit, bind_eq_ok, pure_eq_ok] at h
  obtain ⟨advanced, hadvance, rfl⟩ := h
  obtain ⟨replay, hreplay, hphase, hbinds, rfl⟩ := advance_eq_ok hadvance
  exact ⟨replay, hreplay, hphase, hbinds, update_update _ _ _ _⟩

theorem abort_eq_ok {payload : AuthorityWalAbortV1}
    (h : index.abort record payload = .ok next) :
    ∃ replay, index.transactions[record.transactionId]? = some replay ∧
      (replay.phase = .Prepare ∨ replay.phase = .Provisional) ∧
      Binds record replay.transaction ∧
      next = index.update record.transactionId fun replay =>
        { replay with phase := .Abort, terminal := some (abortOutcome record payload) } := by
  unfold abort at h
  split at h
  · cases h
  · rename_i replay hreplay
    simp only [bind_eq_ok, mapError_eq_ok, rejectIf_eq_ok, ne_eq, pure_eq_ok] at h
    obtain ⟨-, hphase, validation, hvalidation, rfl⟩ := h
    refine ⟨replay, hreplay, ?_, validateAgainstTransaction_binds hvalidation, rfl⟩
    by_contra hnot
    exact hphase (not_or.mp hnot)

theorem applyRecord_applied (h : index.applyRecord record = .ok next) :
    Applied index record next := by
  simp only [applyRecord, bind_eq_ok, pure_eq_ok] at h
  obtain ⟨moved, hmoved, rfl⟩ := h
  unfold applyPayload at hmoved
  cases hpayload : record.payload with
  | Prepare payload =>
      rw [hpayload] at hmoved
      obtain ⟨⟨validation, hvalidation⟩, hfresh, hscope, rfl⟩ := prepare_eq_ok hmoved
      exact .Opens payload hpayload (validateAgainstTransaction_binds hvalidation) hfresh hscope
  | Provisional payload =>
      rw [hpayload] at hmoved
      obtain ⟨replay, hreplay, hphase, hbinds, rfl⟩ := advance_eq_ok hmoved
      exact .Moves replay _ hreplay hbinds (by rw [hphase, hpayload]; rfl) rfl hbinds.phase
        (fun _ => rfl) (by rw [hpayload]; intro h; cases h)
  | Commit payload =>
      rw [hpayload] at hmoved
      obtain ⟨replay, hreplay, hphase, hbinds, rfl⟩ := commit_eq_ok hmoved
      exact .Moves replay _ hreplay hbinds (by rw [hphase, hpayload]; rfl) rfl hbinds.phase
        (by rw [hpayload]; intro h; cases h)
        (fun _ => ⟨_, rfl, by rw [hpayload]; rfl, rfl⟩)
  | Abort payload =>
      rw [hpayload] at hmoved
      obtain ⟨replay, hreplay, hphase, hbinds, rfl⟩ := abort_eq_ok hmoved
      refine .Moves replay _ hreplay hbinds ?_ rfl (by rw [hpayload]; rfl)
        (by rw [hpayload]; intro h; cases h)
        (fun _ => ⟨_, rfl, by rw [hpayload]; rfl, rfl⟩)
      rw [hpayload]
      obtain hphase | hphase := hphase <;> rw [hphase] <;> rfl

end ReplayIndex

end M1nd.Mcp
