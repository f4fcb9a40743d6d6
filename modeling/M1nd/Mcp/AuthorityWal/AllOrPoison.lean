import M1nd.Mcp.AuthorityWal.Recovery

namespace M1nd.Mcp

open M1nd.Control
open M1nd.Library.Durable

variable [Sha256] {crypto : AuthorityWalRecordCrypto} {world after : WalWorld}
  {record : AuthorityWalRecordV1} {next : ReplayIndex} {heads : ProtectedHeads}

-- A handle that is still usable agrees with the backend about the head.
def HeadLive (world : WalWorld) : Prop :=
  world.wal.poisoned = false → AuthorityWal.HeadCurrent world

-- A stored head is never anchored again.
omit [Sha256] in
theorem HeadsTouched.unchanged (h : HeadsTouched world.wal world.disk.heads heads)
    (hcurrent : AuthorityWal.HeadCurrent world) : heads = world.disk.heads := by
  unfold HeadsTouched at h
  cases hhead : world.wal.protectedHead with
  | none => simpa only [hhead] using h
  | some expected =>
      simp only [hhead] at h
      obtain ⟨-, hstored⟩ := hcurrent expected hhead
      obtain hsame | ⟨hnone, -⟩ := h
      · exact hsame
      · rw [hstored] at hnone
        cases hnone

omit [Sha256] in
theorem HeadLive.poisoned (h : after.wal.poisoned = true) : HeadLive after := by
  intro hlive
  rw [h] at hlive
  cases hlive

-- An acknowledged record moves the head of the handle and that of the backend together.
theorem AuthorityWal.HeadCurrent.advanced
    (hadmitted : admitRecord world.wal.recordCrypto world.wal.replay record = .ok next)
    (hadvanced : HeadsAdvanced world.wal record heads after.disk.heads)
    (hwal : after.wal =
      install next { world.wal with protectedHead := advancedHead world.wal record }) :
    AuthorityWal.HeadCurrent after := by
  intro expected hexpected
  rw [hwal] at hexpected ⊢
  unfold HeadsAdvanced at hadvanced
  cases hhead : world.wal.protectedHead with
  | none => simp [install, advancedHead, hhead] at hexpected
  | some previous =>
      simp only [hhead] at hadvanced
      obtain ⟨-, -, hinsert⟩ := hadvanced
      obtain ⟨hcount, hdigest⟩ := admitRecord_closes hadmitted
      obtain ⟨hsequence, -⟩ := admitRecord_eq_ok.mp hadmitted
      have hhead' : expected = ⟨AUTHORITY_WAL_HEAD_DOMAIN, record.sequence,
          some record.recordDigest⟩ := by
        simpa [install, advancedHead, hhead] using hexpected.symm
      subst hhead'
      refine ⟨?_, by simp [hinsert]⟩
      simp only [install, hcount, hdigest, hsequence]

theorem HeadLive.step (h : HeadLive world) (call : AppendCall) :
    HeadLive (performAppend world call) := by
  obtain ⟨o, after, hstep, hperform⟩ := performAppend_step world call
  have hcrashed : HeadLive after → HeadLive (performAppend world call) := by
    intro hafter
    obtain ⟨-, hperform⟩ | ⟨-, hperform⟩ := hperform
    · rwa [hperform]
    · rw [hperform]
      exact HeadLive.poisoned rfl
  have hended : (o = .crashed ∧ after.wal = world.wal ∨ after.wal = poison world.wal) →
      HeadLive (performAppend world call) := by
    intro hwal
    obtain ⟨hlives, hperform⟩ | ⟨-, hperform⟩ := hperform
    · rw [hperform]
      refine HeadLive.poisoned ?_
      rw [hwal.resolve_left fun hcrash => hlives hcrash.1]
      rfl
    · rw [hperform]
      exact HeadLive.poisoned rfl
  cases hstep with
  | Poisoned hpoisoned => exact hcrashed h
  | Idle _ _ hlive _ hlog hheads hwal =>
      refine hcrashed ?_
      obtain hwal | hwal := hwal
      · have hsame := hheads.unchanged (h hlive)
        intro _ expected hexpected
        rw [hwal] at hexpected ⊢
        rw [hsame]
        exact h hlive expected hexpected
      · refine HeadLive.poisoned ?_
        rw [hwal]
        rfl
  | Torn _ _ _ _ _ _ _ _ _ _ hwal => exact hended hwal
  | Unconfirmed _ _ _ _ _ _ _ _ _ _ _ hwal => exact hended hwal
  | Acknowledged _ _ _ _ _ _ hadmitted _ _ hadvanced hwal =>
      exact hcrashed fun _ => AuthorityWal.HeadCurrent.advanced hadmitted hadvanced hwal

theorem HeadLive.appendAll (h : HeadLive world) (calls : List AppendCall) :
    HeadLive (appendAll world calls) := by
  induction calls generalizing world with
  | nil => exact h
  | cons call calls ih => exact ih (h.step call)

variable {fromSlice : RecordDecoder} {backend : Bool} {disk : WalDisk} {fates : List Fate}
  {wal : AuthorityWal}

theorem opened_headLive
    (hopen : (AuthorityWal.openInternal fromSlice crypto backend).outcome fates disk =
      .returned wal) :
    HeadLive ⟨(AuthorityWal.openInternal fromSlice crypto backend).final fates disk, wal⟩ := by
  have halways : Always (AuthorityWal.openInternal fromSlice crypto backend) disk
      (OpenStep fromSlice crypto backend disk) := openInternal_step
  have hstep := halways fates
  rw [hopen] at hstep
  generalize (AuthorityWal.openInternal fromSlice crypto backend).final fates disk = after at hstep ⊢
  cases hstep with
  | HeadRefused _ _ _ _ _ _ hout => exact absurd rfl (hout wal)
  | Untruncated _ _ _ _ _ _ hout => exact absurd rfl (hout wal)
  | Opened _ index report complete hreplay hlog hheads =>
      intro _ expected hexpected
      cases backend with
      | false => simp [opened] at hexpected
      | true =>
          obtain ⟨-, hstored⟩ := hheads
          obtain rfl : _ = expected := by simpa [opened] using hexpected
          exact ⟨rfl, hstored⟩

-- A poisoned handle refuses every call before it looks at the disk.
theorem append_poisoned (hpoisoned : world.wal.poisoned = true) (call : AppendCall) :
    Ends (AuthorityWal.append call.entropy call.draft) call.fates world (.refused .Poisoned)
      call.fates world := by
  refine .bind .get ?_
  exact .bind_refused (.check_rejected hpoisoned)

theorem performAppend_poisoned (hpoisoned : world.wal.poisoned = true) (call : AppendCall) :
    performAppend world call = world := by
  have hrun := append_poisoned hpoisoned call
  unfold performAppend
  rw [hrun]

theorem appendAll_poisoned (hpoisoned : world.wal.poisoned = true) (calls : List AppendCall) :
    appendAll world calls = world := by
  induction calls with
  | nil => rfl
  | cons call calls ih =>
      change appendAll (performAppend world call) calls = world
      rw [performAppend_poisoned hpoisoned call, ih]

-- A refused call has done nothing, or the handle is poisoned.
theorem append_refused {call : AppendCall} {error : AuthorityWalError} (h : HeadLive world)
    (hrefused : (AuthorityWal.append call.entropy call.draft).outcome call.fates world =
      .refused error) :
    (AuthorityWal.append call.entropy call.draft).final call.fates world = world ∨
      ((AuthorityWal.append call.entropy call.draft).final call.fates world).wal.poisoned = true := by
  have halways : Always (AuthorityWal.append call.entropy call.draft) world
      (AuthorityWal.AppendStep world) := AuthorityWal.append_step
  have hstep := halways call.fates
  rw [hrefused] at hstep
  generalize (AuthorityWal.append call.entropy call.draft).final call.fates world = after at hstep ⊢
  have hpoison : after.wal = poison world.wal → after.wal.poisoned = true := by
    intro hwal
    rw [hwal]
    rfl
  cases hstep with
  | Poisoned hpoisoned => exact .inl rfl
  | Idle _ _ hlive _ hlog hheads hwal =>
      obtain hwal | hwal := hwal
      · left
        have hheads := hheads.unchanged (h hlive)
        obtain ⟨⟨log, heads⟩, wal⟩ := after
        obtain ⟨⟨log', heads'⟩, wal'⟩ := world
        simp only at hlog hheads hwal
        rw [hlog, hheads, hwal]
      · exact .inr (hpoison hwal)
  | Torn _ _ _ _ _ _ _ _ _ _ hwal => exact .inr (hpoison (hwal.resolve_left (by simp)))
  | Unconfirmed _ _ _ _ _ _ _ _ _ _ _ hwal =>
      exact .inr (hpoison (hwal.resolve_left (by simp)))

-- Append is all or poison, on every handle that an open and any calls lead to.
theorem append_all_or_poison
    (hopen : (AuthorityWal.openInternal fromSlice crypto backend).outcome fates disk =
      .returned wal) (calls : List AppendCall) (call : AppendCall) (error : AuthorityWalError) :
    let start : WalWorld := ⟨(AuthorityWal.openInternal fromSlice crypto backend).final fates disk, wal⟩
    let world := appendAll start calls
    let after := (AuthorityWal.append call.entropy call.draft).final call.fates world
    (AuthorityWal.append call.entropy call.draft).outcome call.fates world = .refused error →
      (after.disk.log = world.disk.log ∧ after.disk.heads = world.disk.heads ∧
        after.wal = world.wal) ∨
      (after.wal.poisoned = true ∧ ∀ (later : List AppendCall) (more : AppendCall),
        (AuthorityWal.append more.entropy more.draft).outcome more.fates (appendAll after later) =
          .refused .Poisoned ∧
        (AuthorityWal.append more.entropy more.draft).final more.fates (appendAll after later) =
          after) := by
  intro start world after hrefused
  have hlive : HeadLive world := (opened_headLive hopen).appendAll calls
  rcases append_refused hlive hrefused with hsame | hpoisoned
  · left
    change after = world at hsame
    rw [hsame]
    exact ⟨rfl, rfl, rfl⟩
  · right
    refine ⟨hpoisoned, fun later more => ?_⟩
    rw [appendAll_poisoned hpoisoned later]
    have hrun := append_poisoned hpoisoned more
    exact ⟨hrun.outcome_eq, hrun.final_eq⟩

-- A write that fails after its first byte poisons the handle.
omit [Sha256] in
theorem torn_append_poisons :
    letI : Sha256 := standardSha256
    ∃ (world : WalWorld) (call : AppendCall),
      let after := (AuthorityWal.append call.entropy call.draft).final call.fates world
      (AuthorityWal.append call.entropy call.draft).outcome call.fates world = .refused .Io ∧
        after.wal.poisoned = true ∧ after.disk.log ≠ world.disk.log ∧
        ∀ more : AppendCall, (AuthorityWal.append more.entropy more.draft).outcome more.fates after =
          .refused .Poisoned := by
  let : Sha256 := standardSha256
  have hsigns := softwareTest_signs [0]
  generalize softwareTestAuthorityWalRecordCrypto [0] = crypto at hsigns
  obtain ⟨draft, record, next, happendable⟩ := landing_appendable (hsigns 0)
  have hopen : Ends (AuthorityWal.openInternal (Function.partialInv toVec) crypto false) [] ⟨[], ∅⟩
      (.returned (fresh crypto)) [] ⟨[], ∅⟩ := AuthorityWal.openInternal_ends
  let world : WalWorld := ⟨⟨[], ∅⟩, fresh crypto⟩
  have hlive : world.wal.poisoned = false := rfl
  have hnone : world.wal.protectedHead = none := rfl
  have hrun := AuthorityWal.append_ends_failed hlive hnone happendable.signed happendable.terminal
    happendable.apply 1
  have hresult := append_all_or_poison hopen.outcome_eq [] ⟨draft, 0, [.failed 1]⟩ .Io
  rw [hopen.final_eq] at hresult
  have hlog : ((AuthorityWal.append 0 draft).final [.failed 1] world).disk.log ≠ world.disk.log := by
    rw [hrun.final_eq]
    simp [world, List.take_eq_nil_iff]
  obtain ⟨hsame, -⟩ | ⟨hpoisoned, hlater⟩ := hresult hrun.outcome_eq
  · exact absurd hsame hlog
  · exact ⟨world, ⟨draft, 0, [.failed 1]⟩, hrun.outcome_eq, hpoisoned, hlog,
      fun more => (hlater [] more).1⟩

end M1nd.Mcp
