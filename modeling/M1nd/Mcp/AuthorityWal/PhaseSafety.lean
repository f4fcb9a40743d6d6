import M1nd.Mcp.AuthorityWal.Phases

namespace M1nd.Mcp

open M1nd.Control
open M1nd.Library.Checks
open M1nd.Library.Runs

namespace ReplayIndex

theorem committedTransaction_eq_some {index : ReplayIndex} {transactionId : String}
    {transaction : AuthorityTransactionV1} :
    index.committedTransaction transactionId = some transaction ↔
      ∃ entry, index.transactions[transactionId]? = some entry ∧ entry.phase = .Commit ∧
        entry.transaction = transaction := by
  simp [committedTransaction, Option.filter_eq_some_iff, and_assoc]

variable [Sha256] {index next : ReplayIndex} {record : AuthorityWalRecordV1} {transactionId : String}
  {entry : ReplayTransaction}

namespace Applied

theorem binds (h : Applied index record next) :
    ∃ entry, next.transactions[record.transactionId]? = some entry ∧
      Binds record entry.transaction ∧ entry.phase = record.payload.phase := by
  cases h with
  | Opens payload hpayload hbinds hfresh hscope =>
      refine ⟨⟨payload.transaction, .Prepare, none⟩, by simp [closed], hbinds, ?_⟩
      rw [hpayload]
      rfl
  | Moves entry f hentry hbinds hfollows htransaction hphase hpending hterminal =>
      refine ⟨f entry, by simp [closed, update, hentry], ?_, hphase⟩
      rw [htransaction]
      exact hbinds

theorem phase_eq (h : Applied index record next) : record.phase = record.payload.phase := by
  obtain ⟨entry, -, hbinds, -⟩ := h.binds
  exact hbinds.phase

theorem follows_phaseOf (h : Applied index record next) :
    follows (index.phaseOf record.transactionId) record.phase = true := by
  rw [h.phase_eq]
  cases h with
  | Opens payload hpayload hbinds hfresh hscope =>
      rw [phaseOf, Std.ExtHashMap.getElem?_eq_none hfresh, hpayload]
      rfl
  | Moves entry f hentry hbinds hfollows htransaction hphase hpending hterminal =>
      rw [phaseOf, hentry]
      exact hfollows

theorem phaseOf_own (h : Applied index record next) :
    next.phaseOf record.transactionId = some record.phase := by
  obtain ⟨entry, hentry, hbinds, hphase⟩ := h.binds
  rw [phaseOf, hentry, hbinds.phase, ← hphase]
  rfl

theorem transactions_other (h : Applied index record next)
    (hother : record.transactionId ≠ transactionId) :
    next.transactions[transactionId]? = index.transactions[transactionId]? := by
  cases h with
  | Opens => simp [closed, Std.ExtHashMap.getElem?_insert, hother]
  | Moves => simp [closed, update, Std.ExtHashMap.getElem?_modify, hother]

-- A transaction never disappears and never changes.
theorem keeps (h : Applied index record next)
    (hentry : index.transactions[transactionId]? = some entry) :
    ∃ later, next.transactions[transactionId]? = some later ∧
      later.transaction = entry.transaction := by
  by_cases hother : record.transactionId = transactionId
  · subst hother
    cases h with
    | Opens payload hpayload hbinds hfresh hscope =>
        rw [Std.ExtHashMap.getElem?_eq_none hfresh] at hentry
        cases hentry
    | Moves opened f hopened hbinds hfollows htransaction hphase hpending hterminal =>
        obtain rfl : opened = entry := Option.some.inj (hopened.symm.trans hentry)
        exact ⟨f opened, by simp [closed, update, hopened], htransaction⟩
  · exact ⟨entry, by rw [h.transactions_other hother, hentry], rfl⟩

-- It appears with the record that prepares it.
theorem origin (h : Applied index record next)
    (hentry : next.transactions[transactionId]? = some entry) :
    (∃ earlier, index.transactions[transactionId]? = some earlier ∧
      earlier.transaction = entry.transaction) ∨
      (record.transactionId = transactionId ∧ record.payload = .Prepare ⟨entry.transaction⟩) := by
  by_cases hother : record.transactionId = transactionId
  · subst hother
    cases h with
    | Opens payload hpayload hbinds hfresh hscope =>
        simp only [closed, Std.ExtHashMap.getElem?_insert_self, Option.some.injEq] at hentry
        subst hentry
        exact .inr ⟨rfl, hpayload⟩
    | Moves opened f hopened hbinds hfollows htransaction hphase hpending hterminal =>
        simp only [closed, update, Std.ExtHashMap.getElem?_modify_self, hopened,
          Option.map_some, Option.some.injEq] at hentry
        subst hentry
        exact .inl ⟨opened, hopened, htransaction.symm⟩
  · rw [h.transactions_other hother] at hentry
    exact .inl ⟨entry, hentry, rfl⟩

theorem idempotency_eq (h : Applied index record next) (scope : IdempotencyScope) :
    next.idempotency[scope]? = some transactionId ↔
      index.idempotency[scope]? = some transactionId ∨
        (record.transactionId = transactionId ∧ ∃ payload, record.payload = .Prepare payload ∧
          IdempotencyScope.fromTransaction payload.transaction = scope) := by
  cases h with
  | Opens payload hpayload hbinds hfresh hscope =>
      simp only [closed, Std.ExtHashMap.getElem?_insert, beq_iff_eq]
      split
      · rename_i heq
        subst heq
        rw [Std.ExtHashMap.getElem?_eq_none hscope]
        simp [hpayload]
      · rename_i hne
        simp [hpayload, hne]
  | Moves entry f hentry hbinds hfollows htransaction hmoved hpending hterminal =>
      have hpayload : ∀ payload, record.payload ≠ .Prepare payload := by
        intro payload hprepare
        rw [hprepare] at hfollows
        cases hphase : entry.phase <;> rw [hphase] at hfollows <;> cases hfollows
      simp [closed, update, hpayload]

end Applied

-- What every accepted log has in common with the index it leads to.
structure PhaseInvariant (log : List AuthorityWalRecordV1) (index : ReplayIndex) : Prop where
  life : ∀ transactionId, Life (phases transactionId log) (index.phaseOf transactionId)
  payload : ∀ record ∈ log, record.phase = record.payload.phase
  binds : ∀ record ∈ log, ∃ entry, index.transactions[record.transactionId]? = some entry ∧
    Binds record entry.transaction
  prepared : ∀ transactionId entry, index.transactions[transactionId]? = some entry →
    ∃ record ∈ log, record.transactionId = transactionId ∧
      record.payload = .Prepare ⟨entry.transaction⟩
  scopes : ∀ scope transactionId, index.idempotency[scope]? = some transactionId ↔
    ∃ entry, index.transactions[transactionId]? = some entry ∧
      IdempotencyScope.fromTransaction entry.transaction = scope

theorem phaseInvariant_default : PhaseInvariant [] default where
  life transactionId := by
    have hphase : default.phaseOf transactionId = none := by simp [phaseOf, default]
    rw [hphase]
    rfl
  payload := by simp
  binds := by simp
  prepared := by simp [default]
  scopes := by simp [default]

theorem PhaseInvariant.step {log : List AuthorityWalRecordV1} (hinv : PhaseInvariant log index)
    (h : Applied index record next) : PhaseInvariant (log ++ [record]) next where
  life transactionId := by
    rw [phases_append]
    by_cases hown : record.transactionId = transactionId
    · subst hown
      rw [phases_own, h.phaseOf_own]
      exact (hinv.life _).extend h.follows_phaseOf
    · rw [phases_other hown, List.append_nil, phaseOf, h.transactions_other hown]
      exact hinv.life transactionId
  payload := by
    rw [List.forall_mem_append]
    exact ⟨hinv.payload, by simpa using h.phase_eq⟩
  binds := by
    rw [List.forall_mem_append]
    constructor
    · intro earlier hmem
      obtain ⟨entry, hentry, hbinds⟩ := hinv.binds earlier hmem
      obtain ⟨later, hlater, htransaction⟩ := h.keeps hentry
      exact ⟨later, hlater, by rw [htransaction]; exact hbinds⟩
    · obtain ⟨entry, hentry, hbinds, -⟩ := h.binds
      simpa using ⟨entry, hentry, hbinds⟩
  prepared transactionId entry hentry := by
    obtain ⟨earlier, hearlier, htransaction⟩ | ⟨hown, hpayload⟩ := h.origin hentry
    · obtain ⟨prepare, hmem, hid, hpayload⟩ := hinv.prepared transactionId earlier hearlier
      rw [htransaction] at hpayload
      exact ⟨prepare, List.mem_append_left _ hmem, hid, hpayload⟩
    · exact ⟨record, by simp, hown, hpayload⟩
  scopes scope transactionId := by
    rw [h.idempotency_eq scope, hinv.scopes]
    constructor
    · rintro (⟨entry, hentry, hscope⟩ | ⟨rfl, payload, hpayload, hscope⟩)
      · obtain ⟨later, hlater, htransaction⟩ := h.keeps hentry
        exact ⟨later, hlater, by rw [htransaction]; exact hscope⟩
      · obtain ⟨entry, hentry, hbinds, -⟩ := h.binds
        exact ⟨entry, hentry, by rw [← hbinds.prepare payload hpayload]; exact hscope⟩
    · rintro ⟨entry, hentry, hscope⟩
      obtain ⟨earlier, hearlier, htransaction⟩ | ⟨hown, hpayload⟩ := h.origin hentry
      · exact .inl ⟨earlier, hearlier, by rw [htransaction]; exact hscope⟩
      · exact .inr ⟨hown, _, hpayload, hscope⟩

variable {log : List AuthorityWalRecordV1}

theorem phaseInvariant (h : replay applyRecord default log = .ok index) :
    PhaseInvariant log index :=
  replay_invariant PhaseInvariant phaseInvariant_default
    (fun _ _ _ _ hinv hstep => hinv.step (applyRecord_applied hstep)) h

-- The index shows a transaction exactly when the log holds its commit.
theorem PhaseInvariant.committed_iff (hinv : PhaseInvariant log index) {transactionId : String}
    {transaction : AuthorityTransactionV1} :
    index.committedTransaction transactionId = some transaction ↔
      ∃ prepare ∈ log, ∃ commit ∈ log, ∃ payload, prepare.transactionId = transactionId ∧
        prepare.payload = .Prepare ⟨transaction⟩ ∧ commit.transactionId = transactionId ∧
        commit.payload = .Commit payload ∧ WithinPrepared payload transaction := by
  rw [committedTransaction_eq_some]
  constructor
  · rintro ⟨entry, hentry, hphase, rfl⟩
    obtain ⟨prepare, hprepare, hid, hpayload⟩ := hinv.prepared transactionId entry hentry
    have hcurrent : index.phaseOf transactionId = some .Commit := by
      rw [phaseOf, hentry, Option.map_some, hphase]
    obtain ⟨commit, hcommit, hcommitId, hcommitPhase⟩ :=
      mem_phases.mp (((hinv.life transactionId).terminal_iff rfl).mp hcurrent)
    obtain ⟨payload, hcommitted⟩ : ∃ payload, commit.payload = .Commit payload := by
      have hkind := hinv.payload commit hcommit
      rw [hcommitPhase] at hkind
      cases hp : commit.payload <;> rw [hp] at hkind <;> first | exact ⟨_, rfl⟩ | cases hkind
    obtain ⟨entry', hentry', hbinds⟩ := hinv.binds commit hcommit
    rw [hcommitId] at hentry'
    obtain rfl : entry = entry' := Option.some.inj (hentry.symm.trans hentry')
    exact ⟨prepare, hprepare, commit, hcommit, payload, hid, hpayload, hcommitId, hcommitted,
      hbinds.commit payload hcommitted⟩
  · rintro ⟨prepare, hprepare, commit, hcommit, payload, rfl, hpayload, hid, hcommitted, -⟩
    obtain ⟨entry, hentry, hbinds⟩ := hinv.binds prepare hprepare
    have hmem : AuthorityWalPhase.Commit ∈ phases prepare.transactionId log :=
      mem_phases.mpr ⟨commit, hcommit, hid, by rw [hinv.payload commit hcommit, hcommitted]; rfl⟩
    have hcurrent := ((hinv.life prepare.transactionId).terminal_iff rfl).mpr hmem
    rw [phaseOf, hentry, Option.map_some, Option.some.injEq] at hcurrent
    exact ⟨entry, hentry, hcurrent, (hbinds.prepare _ hpayload).symm⟩

theorem PhaseInvariant.commit_visible (hinv : PhaseInvariant log index)
    {commit : AuthorityWalRecordV1} {payload : AuthorityWalCommitV1} (hcommit : commit ∈ log)
    (hpayload : commit.payload = .Commit payload) :
    ∃ transaction, index.committedTransaction commit.transactionId = some transaction ∧
      WithinPrepared payload transaction := by
  obtain ⟨entry, hentry, hbinds⟩ := hinv.binds commit hcommit
  have hwithin := hbinds.commit payload hpayload
  obtain ⟨prepare, hprepare, hid, hprepared⟩ := hinv.prepared _ entry hentry
  exact ⟨entry.transaction, hinv.committed_iff.mpr ⟨prepare, hprepare, commit, hcommit, payload,
    hid, hprepared, rfl, hpayload, hwithin⟩, hwithin⟩

theorem PhaseInvariant.nothing_after_terminal (hinv : PhaseInvariant log index)
    {before after : List AuthorityWalRecordV1} {later : AuthorityWalRecordV1}
    (hlog : log = before ++ record :: after) (hterminal : record.phase.isTerminal = true)
    (hlater : later ∈ after) : later.transactionId ≠ record.transactionId := by
  have hlife := hinv.life record.transactionId
  have hsplit : phases record.transactionId log = phases record.transactionId before ++
      record.phase :: phases record.transactionId after := by
    rw [hlog, ← List.singleton_append, phases_append, phases_append, phases_own,
      List.singleton_append]
  rw [hsplit] at hlife
  exact phases_eq_nil.mp (hlife.terminal_last hterminal) later hlater

-- A prepared transaction is found under its scope.
theorem PhaseInvariant.indexed (hinv : PhaseInvariant log index)
    {payload : AuthorityWalPrepareV1} (hrecord : record ∈ log)
    (hpayload : record.payload = .Prepare payload) :
    ∃ entry, index.transactions[record.transactionId]? = some entry ∧
      entry.transaction = payload.transaction ∧
      index.idempotency[IdempotencyScope.fromTransaction payload.transaction]? =
        some record.transactionId := by
  obtain ⟨entry, hentry, hbinds⟩ := hinv.binds record hrecord
  have htransaction := (hbinds.prepare payload hpayload).symm
  exact ⟨entry, hentry, htransaction, (hinv.scopes _ _).mpr ⟨entry, hentry, by rw [htransaction]⟩⟩

theorem PhaseInvariant.one_per_scope (hinv : PhaseInvariant log index)
    {first second : AuthorityWalRecordV1} {firstPayload secondPayload : AuthorityWalPrepareV1}
    (hfirst : first ∈ log) (hsecond : second ∈ log)
    (hfirstPayload : first.payload = .Prepare firstPayload)
    (hsecondPayload : second.payload = .Prepare secondPayload)
    (hscope : IdempotencyScope.fromTransaction firstPayload.transaction =
      IdempotencyScope.fromTransaction secondPayload.transaction) :
    first.transactionId = second.transactionId := by
  obtain ⟨-, -, -, hone⟩ := hinv.indexed hfirst hfirstPayload
  obtain ⟨-, -, -, htwo⟩ := hinv.indexed hsecond hsecondPayload
  rw [hscope, htwo] at hone
  exact (Option.some.inj hone).symm

theorem PhaseInvariant.scope_ne (hinv : PhaseInvariant log index) {scope : IdempotencyScope}
    (hnone : index.idempotency[scope]? = none) {payload : AuthorityWalPrepareV1}
    (hrecord : record ∈ log) (hpayload : record.payload = .Prepare payload) :
    IdempotencyScope.fromTransaction payload.transaction ≠ scope := by
  rintro rfl
  obtain ⟨-, -, -, hindexed⟩ := hinv.indexed hrecord hpayload
  rw [hnone] at hindexed
  cases hindexed

theorem PhaseInvariant.mem_transactions (hinv : PhaseInvariant log index) :
    transactionId ∈ index.transactions ↔ ∃ earlier ∈ log, earlier.transactionId = transactionId := by
  constructor
  · intro hmem
    obtain ⟨prepare, hprepare, hid, -⟩ :=
      hinv.prepared _ _ (Std.ExtHashMap.getElem?_eq_some_getElem hmem)
    exact ⟨prepare, hprepare, hid⟩
  · rintro ⟨earlier, hearlier, rfl⟩
    obtain ⟨entry, hentry, -⟩ := hinv.binds earlier hearlier
    exact Std.ExtHashMap.mem_iff_isSome_getElem?.mpr (by rw [hentry]; rfl)

-- Conversely a record is accepted when its phase may follow and it validates against the
-- transaction it belongs to.
section Acceptance

variable {transaction : AuthorityTransactionV1} {entry : ReplayTransaction}
  {validation : AuthorityWalRecordStructuralValidation}

theorem applyRecord_opens {payload : AuthorityWalPrepareV1}
    (hpayload : record.payload = .Prepare payload)
    (hvalid : record.validateAgainstTransaction payload.transaction = .ok validation)
    (hfresh : record.transactionId ∉ index.transactions)
    (hscope : IdempotencyScope.fromTransaction payload.transaction ∉ index.idempotency) :
    ∃ next, index.applyRecord record = .ok next := by
  simp only [applyRecord, applyPayload, hpayload, prepare, bind_eq_ok, mapError_eq_ok,
    rejectIf_eq_ok, pure_eq_ok]
  exact ⟨_, _, ⟨validation, hvalid, (), hfresh, (), hscope, rfl⟩, rfl⟩

theorem advance_accepts {requiredPrevious : AuthorityWalPhase}
    (hentry : index.transactions[record.transactionId]? = some entry)
    (hphase : entry.phase = requiredPrevious)
    (hvalid : record.validateAgainstTransaction entry.transaction = .ok validation) :
    ∃ next, index.advance record requiredPrevious = .ok next := by
  simp only [advance, hentry, bind_eq_ok, mapError_eq_ok, rejectIf_eq_ok, pure_eq_ok]
  exact ⟨_, (), fun h => h hphase, validation, hvalid, rfl⟩

theorem applyRecord_moves
    (hentry : index.transactions[record.transactionId]? = some entry)
    (hfollows : follows (some entry.phase) record.payload.phase = true)
    (hvalid : record.validateAgainstTransaction entry.transaction = .ok validation) :
    ∃ next, index.applyRecord record = .ok next := by
  have hmoves : ∃ moved, index.applyPayload record = .ok moved := by
    cases hpayload : record.payload with
    | Prepare payload =>
        rw [hpayload] at hfollows
        cases hphase : entry.phase <;> rw [hphase] at hfollows <;> cases hfollows
    | Provisional payload =>
        rw [hpayload] at hfollows
        have hphase : entry.phase = .Prepare := by
          cases hphase : entry.phase <;> rw [hphase] at hfollows <;> first | rfl | cases hfollows
        simp only [applyPayload, hpayload]
        exact advance_accepts hentry hphase hvalid
    | Commit payload =>
        rw [hpayload] at hfollows
        have hphase : entry.phase = .Provisional := by
          cases hphase : entry.phase <;> rw [hphase] at hfollows <;> first | rfl | cases hfollows
        obtain ⟨moved, hmoved⟩ := advance_accepts hentry hphase hvalid
        simp only [applyPayload, hpayload, commit, hmoved]
        exact ⟨_, rfl⟩
    | Abort payload =>
        rw [hpayload] at hfollows
        have hphase : ¬ (entry.phase ≠ .Prepare ∧ entry.phase ≠ .Provisional) := by
          cases hphase : entry.phase <;> rw [hphase] at hfollows <;>
            first | decide | cases hfollows
        simp only [applyPayload, hpayload, abort, hentry, bind_eq_ok, mapError_eq_ok,
          rejectIf_eq_ok, pure_eq_ok]
        exact ⟨_, (), hphase, validation, hvalid, rfl⟩
  obtain ⟨moved, hmoved⟩ := hmoves
  simp only [applyRecord, hmoved]
  exact ⟨_, rfl⟩

theorem landing_accepted {first second third : AuthorityWalRecordV1}
    {provisional : AuthorityWalProvisionalV1} {commit : AuthorityWalCommitV1}
    (hfirst : first.payload = .Prepare ⟨transaction⟩)
    (hsecond : second.payload = .Provisional provisional)
    (hthird : third.payload = .Commit commit)
    (hvalid : ∀ record ∈ [first, second, third],
      ∃ validation, record.validateAgainstTransaction transaction = .ok validation) :
    ∃ index, replay applyRecord default [first, second, third] = .ok index := by
  have hid : ∀ record ∈ [first, second, third],
      record.transactionId = transaction.binding.transactionId := by
    intro record hmem
    obtain ⟨_, hrecord⟩ := hvalid record hmem
    exact (validateAgainstTransaction_binds hrecord).transactionId
  obtain ⟨_, hopens⟩ := hvalid first (by simp)
  have hfresh : first.transactionId ∉ default.transactions := by simp [default]
  have hscope : IdempotencyScope.fromTransaction transaction ∉ default.idempotency := by
    simp [default]
  obtain ⟨opened, hopened⟩ := applyRecord_opens hfirst hopens hfresh hscope
  obtain ⟨entry, hentry, hbinds, hphase⟩ := (applyRecord_applied hopened).binds
  obtain rfl : transaction = entry.transaction := hbinds.prepare _ hfirst
  rw [hid first (by simp), ← hid second (by simp)] at hentry
  obtain ⟨_, hmoves⟩ := hvalid second (by simp)
  obtain ⟨moved, hmoved⟩ := applyRecord_moves hentry
    (by rw [hphase, hfirst, hsecond]; rfl) hmoves
  obtain ⟨later, hlater, htransaction⟩ := (applyRecord_applied hmoved).keeps hentry
  obtain ⟨current, hcurrent, -, hphase'⟩ := (applyRecord_applied hmoved).binds
  obtain rfl : later = current := Option.some.inj (hlater.symm.trans hcurrent)
  rw [hid second (by simp), ← hid third (by simp)] at hlater
  obtain ⟨_, hlands⟩ := hvalid third (by simp)
  rw [← htransaction] at hlands
  obtain ⟨landed, hlanded⟩ := applyRecord_moves hlater
    (by rw [hphase', hsecond, hthird]; rfl) hlands
  refine ⟨landed, ?_⟩
  simp only [replay_cons, bind_eq_ok]
  exact ⟨opened, hopened, moved, hmoved, landed, hlanded, rfl⟩

end Acceptance

theorem accepted_log_phase_safe (h : replay applyRecord default log = .ok index) :
    (∀ transactionId,
      phases transactionId log <+: [.Prepare, .Provisional, .Commit] ∨
      phases transactionId log <+: [.Prepare, .Abort] ∨
      phases transactionId log <+: [.Prepare, .Provisional, .Abort]) ∧
    (∀ before record after, log = before ++ record :: after → record.phase.isTerminal = true →
      ∀ later ∈ after, later.transactionId ≠ record.transactionId) ∧
    (∀ first ∈ log, ∀ second ∈ log, ∀ firstPayload secondPayload,
      first.payload = .Prepare firstPayload → second.payload = .Prepare secondPayload →
      IdempotencyScope.fromTransaction firstPayload.transaction =
        IdempotencyScope.fromTransaction secondPayload.transaction →
      first.transactionId = second.transactionId) ∧
    (∀ transactionId transaction,
      index.committedTransaction transactionId = some transaction ↔
        ∃ prepare ∈ log, ∃ commit ∈ log, ∃ payload, prepare.transactionId = transactionId ∧
          prepare.payload = .Prepare ⟨transaction⟩ ∧ commit.transactionId = transactionId ∧
          commit.payload = .Commit payload ∧ WithinPrepared payload transaction) ∧
    (∀ commit ∈ log, ∀ payload, commit.payload = .Commit payload →
      ∃ transaction, index.committedTransaction commit.transactionId = some transaction ∧
        WithinPrepared payload transaction) := by
  have hinv := phaseInvariant h
  refine ⟨fun transactionId => (hinv.life transactionId).isPrefix, ?_, ?_, ?_, ?_⟩
  · intro before record after hlog hterminal later hlater
    exact hinv.nothing_after_terminal hlog hterminal hlater
  · intro first hfirst second hsecond firstPayload secondPayload hp hq hscope
    exact hinv.one_per_scope hfirst hsecond hp hq hscope
  · intro transactionId transaction
    exact hinv.committed_iff
  · intro commit hcommit payload hpayload
    exact hinv.commit_visible hcommit hpayload

omit [Sha256] in
theorem landLog_phase_safe :
    letI : Sha256 := standardSha256
    ∃ index, replay applyRecord default landLog = .ok index ∧
      index.committedTransaction "tx-1" = some landTransaction := by
  let : Sha256 := standardSha256
  obtain ⟨index, hindex⟩ := landing_accepted rfl rfl rfl landLog_validates
  obtain ⟨-, -, -, hvisible, -⟩ := accepted_log_phase_safe hindex
  refine ⟨index, hindex, (hvisible _ _).mpr ?_⟩
  exact ⟨_, List.mem_cons_self, _, List.mem_cons_of_mem _ (List.mem_cons_of_mem _
    List.mem_cons_self), landCommit, rfl, rfl, rfl, rfl, by decide, by decide, rfl⟩

-- The outcome is that of the record.
def Ends (record : AuthorityWalRecordV1) (transactionId : String)
    (outcome : AuthorityWalTerminalOutcome) : Prop :=
  record.transactionId = transactionId ∧ record.phase.isTerminal = true ∧
    outcome.phase = record.phase ∧ outcome.terminalRecordDigest = record.recordDigest

theorem Applied.ends (h : Applied index record next) {outcome : AuthorityWalTerminalOutcome}
    (hnext : next.terminalOutcome transactionId = some outcome) :
    index.terminalOutcome transactionId = some outcome ∨ Ends record transactionId outcome := by
  by_cases hown : record.transactionId = transactionId
  · subst hown
    cases h with
    | Opens => simp [terminalOutcome, closed] at hnext
    | Moves entry f hentry hbinds hfollows htransaction hphase hpending hterminal =>
        have hmoved : (f entry).terminal = some outcome := by
          simpa [terminalOutcome, closed, update, hentry] using hnext
        rw [Ends, hbinds.phase]
        cases hends : record.payload.phase.isTerminal with
        | false => exact .inl (by rw [terminalOutcome, hentry, ← hmoved, hpending hends]; rfl)
        | true =>
            obtain ⟨found, hfound, hends⟩ := hterminal hends
            obtain rfl := Option.some.inj (hmoved.symm.trans hfound)
            exact .inr ⟨rfl, rfl, hends⟩
  · rw [terminalOutcome, h.transactions_other hown] at hnext
    exact .inl hnext

theorem exists_ends (h : replay applyRecord default log = .ok index) :
    ∀ id outcome, index.terminalOutcome id = some outcome → ∃ last ∈ log, Ends last id outcome := by
  refine replay_invariant (fun log index => ∀ id outcome, index.terminalOutcome id = some outcome →
    ∃ last ∈ log, Ends last id outcome) (by simp [terminalOutcome, default]) ?_ h
  intro log record index next hinv hstep id outcome hnext
  obtain hindex | hends := (applyRecord_applied hstep).ends hnext
  · obtain ⟨last, hlast, hends⟩ := hinv id outcome hindex
    exact ⟨last, List.mem_append_left _ hlast, hends⟩
  · exact ⟨record, by simp, hends⟩

-- A retried prepare is answered from the log alone, and the lookup never panics.
theorem terminalReplay_exact (h : replay applyRecord default log = .ok index)
    (record : AuthorityWalRecordV1) (transaction : AuthorityTransactionV1) :
    (∀ message, index.terminalReplayForPrepare record transaction ≠ .error (.Panic message)) ∧
    (index.terminalReplayForPrepare record transaction = .ok none ↔
      ∀ earlier ∈ log, earlier.transactionId ≠ record.transactionId ∧
        ∀ payload, earlier.payload = .Prepare payload →
          IdempotencyScope.fromTransaction payload.transaction ≠
            IdempotencyScope.fromTransaction transaction) ∧
    ∀ terminal, index.terminalReplayForPrepare record transaction = .ok (some terminal) ↔
      ∃ prepare ∈ log, ∃ payload, prepare.payload = .Prepare payload ∧
        IdempotencyScope.fromTransaction payload.transaction =
          IdempotencyScope.fromTransaction transaction ∧
        payload.transaction.binding.intentDigest = transaction.binding.intentDigest ∧
        index.terminalOutcome prepare.transactionId = some terminal ∧
        ∃ last ∈ log, Ends last prepare.transactionId terminal := by
  have hinv := phaseInvariant h
  cases hexisting : index.idempotency[IdempotencyScope.fromTransaction transaction]? with
  | none =>
      have hlookup : index.terminalReplayForPrepare record transaction =
          if record.transactionId ∈ index.transactions then
            .error (.DuplicateTransaction record.transactionId) else .ok none := by
        simp only [terminalReplayForPrepare, hexisting, rejectIf]
        split <;> rfl
      rw [hlookup]
      refine ⟨by intro message; split <;> simp, ?_, fun terminal => ?_⟩
      · simp only [ite_eq_right_iff, reduceCtorEq, imp_false, hinv.mem_transactions, not_exists,
          not_and]
        exact ⟨fun hfresh earlier hearlier => ⟨hfresh earlier hearlier, fun _ hpayload =>
          hinv.scope_ne hexisting hearlier hpayload⟩,
          fun hall earlier hearlier => (hall earlier hearlier).1⟩
      · refine iff_of_false (by split <;> simp) ?_
        rintro ⟨prepare, hprepare, payload, hpayload, hscope, -⟩
        exact hinv.scope_ne hexisting hprepare hpayload hscope
  | some existingId =>
      obtain ⟨entry, hentry, hscope⟩ := (hinv.scopes _ _).mp hexisting
      obtain ⟨prepare, hprepare, hid, hpayload⟩ := hinv.prepared _ _ hentry
      simp only [terminalReplayForPrepare, hexisting, hentry]
      refine ⟨by intro message; split <;> [split; skip] <;> simp, ?_, fun terminal => ?_⟩
      · refine iff_of_false (by split <;> [split; skip] <;> simp) fun hall => ?_
        exact (hall prepare hprepare).2 _ hpayload hscope
      · have houtcome : index.terminalOutcome existingId = entry.terminal := by
          rw [terminalOutcome, hentry, Option.bind_some]
        constructor
        · intro hlookup
          cases hterminal : entry.terminal with
          | none => simp [hterminal] at hlookup
          | some found =>
              simp only [hterminal] at hlookup
              split at hlookup
              · obtain rfl := Option.some.inj (Except.ok.inj hlookup)
                rw [hterminal, ← hid] at houtcome
                exact ⟨prepare, hprepare, _, hpayload, hscope, ‹_›, houtcome,
                  exists_ends h _ _ houtcome⟩
              · cases hlookup
        · rintro ⟨earlier, hearlier, payload, hearlierPayload, hsame, hintent, hterminal, -⟩
          obtain ⟨entry', hentry', htransaction, hindexed⟩ := hinv.indexed hearlier hearlierPayload
          rw [hsame, hexisting, Option.some.injEq] at hindexed
          rw [← hindexed, hentry, Option.some.injEq] at hentry'
          subst hentry'
          rw [← hindexed, houtcome] at hterminal
          simp [hterminal, htransaction, hintent]

omit [Sha256] in
theorem terminalReplay_exact_landLog :
    letI : Sha256 := standardSha256
    ∃ index, replay applyRecord default landLog = .ok index ∧ ∀ record ∈ landLog,
      index.terminalReplayForPrepare record landTransaction ≠ .ok none := by
  let : Sha256 := standardSha256
  obtain ⟨index, hindex⟩ := landing_accepted rfl rfl rfl landLog_validates
  refine ⟨index, hindex, fun record hmem hnone => ?_⟩
  obtain ⟨-, hfresh, -⟩ := terminalReplay_exact hindex record landTransaction
  exact (hfresh.mp hnone record hmem).1 rfl

end ReplayIndex

end M1nd.Mcp
