import M1nd.Mcp.ChainedJournal

namespace M1nd.Mcp.ChainedJournal

open M1nd.Library
open M1nd.Library.Checks
open M1nd.Library.Durable
open M1nd.Library.Framing
open M1nd.Library.Json (Bytes)

variable {ρ σ ε α : Type} {format : Format ρ σ ε} {legal : σ → ρ → Prop}

-- What the theorems need of a journal: its lines hold no line end, the decoder reads back
-- what was written, and replay moves the chain by one record.
structure Format.Lawful (format : Format ρ σ ε) : Prop where
  line : ∀ record, lineEnd ∉ format.toVec record
  nonempty : ∀ record, format.toVec record ≠ []
  decode : ∀ state record, format.decode state (format.toVec record) = .ok record
  closes : ∀ {state record next}, format.accept state record = .ok next →
    format.sequence next = format.sequence state + 1 ∧
      format.tailDigest next = some (format.recordDigest record)

def logBytes (format : Format ρ σ ε) (log : List ρ) : Bytes :=
  frames lineEnd (log.map format.toVec)

-- The logs that replay admits record by record, and of which each record is `legal` where
-- it was appended: what the writer promises beyond what replay checks.
inductive Traced (format : Format ρ σ ε) (legal : σ → ρ → Prop) : List ρ → σ → Prop
  | Fresh : Traced format legal [] format.fresh
  | Next {log state record next} (h : Traced format legal log state) (hlegal : legal state record)
      (haccept : format.accept state record = .ok next) : Traced format legal (log ++ [record]) next

-- The file holds the records of the log, and at most a part of one more.
structure Stored (format : Format ρ σ ε) (legal : σ → ρ → Prop) (disk : Disk) (log : List ρ)
    (state : σ) : Prop where
  traced : Traced format legal log state
  bytes : ∃ tail, disk.log = logBytes format log ++ tail ∧ lineEnd ∉ tail

def HeadCurrent (format : Format ρ σ ε) (world : World σ) : Prop :=
  ∀ expected, world.handle.protectedHead = some expected →
    expected = ⟨format.headDomain, format.sequence world.handle.state,
      format.tailDigest world.handle.state⟩ ∧
    world.disk.heads[format.headDomain]? = some expected

-- A usable handle knows exactly what the file holds.
structure Synced (format : Format ρ σ ε) (world : World σ) (log : List ρ) (state : σ) : Prop where
  state : world.handle.state = state
  bytes : world.disk.log = logBytes format log
  knownLen : world.handle.knownLen = world.disk.log.length
  head : HeadCurrent format world

-- A poisoned handle has stayed behind: it knows the first records of the log.
structure Held (format : Format ρ σ ε) (legal : σ → ρ → Prop) (world : World σ) (log : List ρ)
    (state : σ) : Prop where
  stored : Stored format legal world.disk log state
  behind : ∃ known, known <+: log ∧ Traced format legal known world.handle.state
  synced : world.handle.poisoned = false → Synced format world log state

variable {world after : World σ} {disk : Disk} {log : List ρ} {state next : σ} {record : ρ}
  {tail : Bytes}

theorem Traced.replay (h : Traced format legal log state) :
    Runs.replay format.accept format.fresh log = .ok state := by
  induction h with
  | Fresh => rfl
  | Next _ _ haccept ih => exact Runs.replay_concat_eq_ok.mpr ⟨_, ih, haccept⟩

theorem Traced.unique (h : Traced format legal log state) (h' : Traced format legal log next) :
    state = next :=
  Except.ok.inj (h.replay.symm.trans h'.replay)

-- A fact that each appended record keeps holds of every state a log leads to.
theorem Traced.invariant (h : Traced format legal log state) (inv : List ρ → σ → Prop)
    (hfresh : inv [] format.fresh)
    (hnext : ∀ log state record next, inv log state → legal state record →
      format.accept state record = .ok next → inv (log ++ [record]) next) : inv log state := by
  induction h with
  | Fresh => exact hfresh
  | Next _ hlegal haccept ih => exact hnext _ _ _ _ ih hlegal haccept

theorem logBytes_concat :
    logBytes format (log ++ [record]) = logBytes format log ++ format.line record := by
  simp [logBytes, Format.line, frames_concat]

section Replay

variable (hlawful : format.Lawful)

include hlawful

theorem Format.Lawful.lines (log : List ρ) : ∀ line ∈ log.map format.toVec, lineEnd ∉ line := by
  simpa using fun record _ => hlawful.line record

theorem replayFrame_line (haccept : format.accept state record = .ok next) :
    format.replayFrame state (format.line record) = .ok next := by
  have htext : (format.line record).dropLast = format.toVec record := List.dropLast_concat
  simp only [Format.replayFrame, htext, bind_eq_ok, exists_unit, rejectIf_eq_ok]
  exact ⟨hlawful.nonempty record, record, hlawful.decode state record, haccept⟩

theorem replay_lines (h : Runs.replay format.accept state log = .ok next) :
    Runs.replay format.replayFrame state ((log.map format.toVec).map fun text => text ++ [lineEnd]) =
      .ok next := by
  induction log generalizing state with
  | nil => exact h
  | cons record log ih =>
      obtain ⟨middle, hrecord, hlog⟩ := bind_eq_ok.mp h
      rw [List.map_cons, List.map_cons, Runs.replay_cons]
      exact bind_eq_ok.mpr ⟨middle, replayFrame_line hlawful hrecord, ih hlog⟩

-- Replaying the file rebuilds the state of its records and leaves the torn tail out.
theorem replayFile_logBytes (h : Runs.replay format.accept format.fresh log = .ok state)
    (htail : lineEnd ∉ tail) :
    format.replayFile (logBytes format log ++ tail) =
      .ok (state, (logBytes format log).length) := by
  have hcomplete : completeLen lineEnd (logBytes format log ++ tail) =
      (logBytes format log).length := completeLen_frames_append htail
  have htake : (logBytes format log ++ tail).take (logBytes format log).length =
      logBytes format log := List.take_left
  have hsplit : splitInclusive lineEnd (logBytes format log) =
      (log.map format.toVec).map fun text => text ++ [lineEnd] :=
    splitInclusive_frames (hlawful.lines log)
  simp only [Format.replayFile, hcomplete, htake, hsplit, replay_lines hlawful h]
  rfl

theorem Stored.replayFile (h : Stored format legal disk log state) :
    format.replayFile disk.log = .ok (state, (logBytes format log).length) := by
  obtain ⟨tail, hbytes, htail⟩ := h.bytes
  rw [hbytes]
  exact replayFile_logBytes hlawful h.traced.replay htail

end Replay

theorem Stored.of_log (h : Stored format legal disk log state) {other : Disk}
    (hlog : other.log = disk.log) : Stored format legal other log state :=
  ⟨h.traced, by rw [hlog]; exact h.bytes⟩

theorem Stored.truncated (h : Stored format legal disk log state) {other : Disk}
    (hlog : other.log = disk.log.take (logBytes format log).length) :
    Stored format legal other log state := by
  obtain ⟨tail, hbytes, -⟩ := h.bytes
  refine ⟨h.traced, [], ?_, by simp⟩
  rw [hlog, hbytes, List.take_left, List.append_nil]

-- A part of the next record is all of it or a torn tail.
theorem Stored.written (hline : ∀ record, lineEnd ∉ format.toVec record)
    (h : Traced format legal log state) (hbytes : disk.log = logBytes format log)
    (hlegal : legal state record) (haccept : format.accept state record = .ok next) (reached : Nat)
    {other : Disk} (hlog : other.log = disk.log ++ (format.line record).take reached) :
    Stored format legal other log state ∨ Stored format legal other (log ++ [record]) next := by
  rw [hbytes] at hlog
  obtain hwhole | hpart := take_frame (hline record) reached
  · refine .inr ⟨h.Next hlegal haccept, [], ?_, by simp⟩
    rw [hlog, logBytes_concat, List.append_nil, Format.line, hwhole]
  · exact .inl ⟨h, _, hlog, hpart⟩

theorem Held.poisoned (h : Held format legal world log state) :
    Held format legal { world with handle := poison world.handle } log state :=
  ⟨h.stored, h.behind, nofun⟩

-- What a call leaves: after a crash only the file counts.
def Left (format : Format ρ σ ε) (legal : σ → ρ → Prop) (o : Outcome ε α) (after : World σ)
    (log : List ρ) (state : σ) : Prop :=
  match o with
  | .crashed => Stored format legal after.disk log state
  | _ => Held format legal after log state

section Append

theorem onHeads_always {program : HeadProgram α} {post : Outcome ε α → Disk → Prop}
    (h : Always program disk.heads fun o heads =>
      match o with
      | .returned value => post (.returned value) { disk with heads }
      | .refused detail => post (.refused (format.headError detail)) { disk with heads }
      | .crashed => post .crashed { disk with heads }) :
    Always (format.onHeads program) disk post := by
  refine .orElse (.zoom (h.mono ?_))
  rintro (value | detail | _) heads hpost
  · exact hpost
  · exact .refuse hpost
  · exact hpost

theorem poisonOnError_always {program : Program (World σ) ε α}
    {post : Outcome ε α → World σ → Prop}
    (h : Always program world fun o after =>
      match o with
      | .returned value => post (.returned value) after
      | .refused error => post (.refused error) { after with handle := poison after.handle }
      | .crashed => post .crashed after) :
    Always (poisonOnError program) world post := by
  refine .orElse (h.mono ?_)
  rintro (value | error | _) after hpost
  · exact hpost
  · exact .bind (.modify (.refuse hpost))
  · exact hpost

-- Neither comparison touches the files. One that fails at most poisons the handle.
def Unmoved (world : World σ) (o : Outcome ε Unit) (after : World σ) : Prop :=
  after = world ∨ o ≠ .returned () ∧ after = { world with handle := poison world.handle }

theorem checkLength_always : Always format.checkLength world (Unmoved world) := by
  refine .bind (.get ?_)
  dsimp only
  split
  · exact .bind (.modify (.refuse (.inr ⟨nofun, rfl⟩)))
  · exact .pure (.inl rfl)

-- The head of a usable handle is in place, so looking at it changes nothing.
theorem verifyHead_always (hcurrent : HeadCurrent format world) :
    Always format.verifyHead world (Unmoved world) := by
  refine .bind (.get ?_)
  dsimp only
  cases hhead : world.handle.protectedHead with
  | none => exact .pure (.inl rfl)
  | some expected =>
      obtain ⟨-, hstored⟩ := hcurrent expected hhead
      refine .bind (.zoom (onHeads_always (verifyOrInitialize_always.mono ?_)))
      rintro o heads ⟨-, hanchors⟩
      obtain rfl : heads = world.disk.heads := by
        obtain hsame | ⟨hnone, -⟩ := hanchors
        · exact hsame
        · rw [hnone] at hstored
          cases hstored
      obtain (head | detail | _) := o
      · dsimp only
        split
        · exact .bind (.modify (.refuse (.inr ⟨nofun, rfl⟩)))
        · exact .pure (.inl rfl)
      · exact .inl rfl
      · exact .inl rfl

theorem checkUnchanged_always (hcurrent : HeadCurrent format world) :
    Always format.checkUnchanged world (Unmoved world) := by
  unfold Format.checkUnchanged
  split
  · refine .bind (checkLength_always.mono ?_)
    rintro (_ | error | _) after hunmoved
    · obtain rfl | ⟨hout, -⟩ := hunmoved
      · exact verifyHead_always hcurrent
      · exact absurd rfl hout
    · exact hunmoved.imp_right fun h => ⟨nofun, h.2⟩
    · exact hunmoved.imp_right fun h => ⟨nofun, h.2⟩
  · refine .bind ((verifyHead_always hcurrent).mono ?_)
    rintro (_ | error | _) after hunmoved
    · obtain rfl | ⟨hout, -⟩ := hunmoved
      · exact checkLength_always
      · exact absurd rfl hout
    · exact hunmoved.imp_right fun h => ⟨nofun, h.2⟩
    · exact hunmoved.imp_right fun h => ⟨nofun, h.2⟩

-- A write that fails has left some of the bytes and a handle that takes no more.
theorem writeLine_always :
    Always (format.writeLine record) world fun o after =>
      (o = .returned () ∧ after = { world with
        disk.log := world.disk.log ++ format.line record }) ∨
      (o ≠ .returned () ∧
        (∃ reached, after.disk.log = world.disk.log ++ (format.line record).take reached) ∧
        (o = .crashed ∨ after.handle = poison world.handle)) := by
  refine poisonOnError_always (.zoom (.step (.inl ⟨rfl, rfl⟩) ?_ ?_))
  · exact fun reached => .inr ⟨nofun, ⟨reached, rfl⟩, .inr rfl⟩
  · exact fun reached => .inr ⟨nofun, ⟨reached, rfl⟩, .inl rfl⟩

-- The head moves with the record, or the handle takes no more.
theorem advanceHead_always :
    Always (format.advanceHead record) world fun o after =>
      after.disk.log = world.disk.log ∧
      ((o = .returned () ∧ after.handle.state = world.handle.state ∧
          after.handle.knownLen = world.handle.knownLen ∧
          after.handle.poisoned = world.handle.poisoned ∧
          ∀ expected, after.handle.protectedHead = some expected →
            expected = ⟨format.headDomain, format.sequence world.handle.state + 1,
              some (format.recordDigest record)⟩ ∧
            after.disk.heads[format.headDomain]? = some expected) ∨
        (o ≠ .returned () ∧ (o = .crashed ∨ after.handle = poison world.handle))) := by
  refine .bind (.get ?_)
  dsimp only
  cases hhead : world.handle.protectedHead with
  | none =>
      refine .pure ⟨rfl, .inl ⟨rfl, rfl, rfl, rfl, ?_⟩⟩
      intro expected hexpected
      rw [hhead] at hexpected
      cases hexpected
  | some expected =>
      refine .bind (poisonOnError_always (.zoom (onHeads_always
        (advanceProtectedHead_always.mono ?_))))
      rintro (head | detail | _) heads ⟨hreturned, -⟩
      · obtain ⟨rfl, -, -, rfl⟩ := hreturned head rfl
        refine .modify ⟨rfl, .inl ⟨rfl, rfl, rfl, rfl, ?_⟩⟩
        rintro _ ⟨⟩
        exact ⟨rfl, Std.ExtTreeMap.getElem?_insert_self⟩
      · exact ⟨rfl, .inr ⟨nofun, .inr rfl⟩⟩
      · exact ⟨rfl, .inr ⟨nofun, .inl rfl⟩⟩

variable {make : σ → Except ε (ρ × σ)}

-- What one append does to the log: nothing, or one more record. When the call returned, the
-- record is there and the handle is usable; when it was refused or crashed, the record may be
-- there all the same, with a handle that takes no more.
def Appended (format : Format ρ σ ε) (legal : σ → ρ → Prop) (make : σ → Except ε (ρ × σ))
    (world : World σ) (log : List ρ) (state : σ) (o : Outcome ε ρ) (after : World σ) : Prop :=
  match o with
  | .returned record => ∃ next, world.handle.poisoned = false ∧ make state = .ok (record, next) ∧
      Held format legal after (log ++ [record]) next ∧ after.handle.poisoned = false
  | _ => Left format legal o after log state ∨
      ∃ record next, world.handle.poisoned = false ∧ make state = .ok (record, next) ∧
        Left format legal o after (log ++ [record]) next

theorem append_always (hlawful : format.Lawful) (h : Held format legal world log state)
    (hmake : ∀ record next, world.handle.poisoned = false → make state = .ok (record, next) →
      format.accept state record = .ok next ∧ legal state record) :
    Always (format.append make) world (Appended format legal make world log state) := by
  have hidle : ∀ o : Outcome ε ρ, (∀ record, o ≠ .returned record) → ∀ after,
      (after = world ∨ after = { world with handle := poison world.handle }) →
      Appended format legal make world log state o after := by
    rintro o hout after hafter
    have hheld : Held format legal after log state := by
      obtain rfl | rfl := hafter
      · exact h
      · exact h.poisoned
    cases o with
    | returned record => exact absurd rfl (hout record)
    | refused error => exact .inl hheld
    | crashed => exact .inl hheld.stored
  refine .bind (.get (.bind (.check ?_ fun error _ => hidle _ (by simp) _ (.inl rfl))))
  intro _ hpoisoned
  have hlive : world.handle.poisoned = false := by simpa using hpoisoned
  have hsynced := h.synced hlive
  refine .bind ((checkUnchanged_always hsynced.head).mono ?_)
  rintro (_ | error | _) checked hunmoved
  rotate_left
  · exact hidle _ (by simp) _ (hunmoved.imp_right And.right)
  · exact hidle _ (by simp) _ (hunmoved.imp_right And.right)
  obtain rfl : checked = world := hunmoved.resolve_right fun h => h.1 rfl
  refine .bind (.check ?_ fun error _ => hidle _ (by simp) _ (.inl rfl))
  rintro ⟨record, next⟩ hrecord
  rw [hsynced.state] at hrecord
  obtain ⟨haccept, hlegal⟩ := hmake record next hlive hrecord
  have htraced := h.stored.traced
  have hdoubt : ∀ (o : Outcome ε ρ), (∀ value, o ≠ .returned value) → ∀ (after : World σ) reached,
      after.disk.log = checked.disk.log ++ (format.line record).take reached →
      (o = .crashed ∨ after.handle = poison checked.handle) →
      Appended format legal make checked log state o after := by
    intro o hout after reached hlog hhandle
    have hleft : ∀ log' state', log <+: log' → Stored format legal after.disk log' state' →
        Left format legal o after log' state' := by
      intro log' state' hmore hstored
      obtain (value | error | _) := o
      · exact absurd rfl (hout value)
      · have hhandle := hhandle.resolve_left (by simp)
        obtain ⟨known, hknown, hbefore⟩ := h.behind
        refine ⟨hstored, ⟨known, hknown.trans hmore, by rw [hhandle]; exact hbefore⟩, ?_⟩
        rw [hhandle]
        exact fun hsafe => absurd hsafe.symm Bool.false_ne_true
      · exact hstored
    have hmore := Stored.written hlawful.line htraced hsynced.bytes hlegal haccept reached hlog
    have hdone : Left format legal o after log state ∨ ∃ record next,
        checked.handle.poisoned = false ∧ make state = .ok (record, next) ∧
          Left format legal o after (log ++ [record]) next := by
      obtain hsame | hwhole := hmore
      · exact .inl (hleft _ _ (List.prefix_refl _) hsame)
      · exact .inr ⟨record, next, hlive, hrecord, hleft _ _ (List.prefix_append _ _) hwhole⟩
    obtain (value | error | _) := o
    · exact absurd rfl (hout value)
    · exact hdone
    · exact hdone
  refine .bind (writeLine_always.mono ?_)
  rintro o written (⟨rfl, rfl⟩ | ⟨hout, ⟨reached, hlog⟩, hhandle⟩)
  · refine .bind (advanceHead_always.mono ?_)
    rintro o advanced ⟨hlog, ⟨rfl, hstate, hlen, hpoisoned, hhead⟩ | ⟨hout, hhandle⟩⟩
    · refine .bind (.modify (.pure ⟨next, hlive, hrecord, ?_, hpoisoned.trans hlive⟩))
      have hbytes : advanced.disk.log = logBytes format (log ++ [record]) := by
        rw [hlog, logBytes_concat, ← hsynced.bytes]
      have hnext := htraced.Next hlegal haccept
      have hcloses := hlawful.closes haccept
      refine ⟨⟨hnext, [], by rw [List.append_nil]; exact hbytes, by simp⟩,
        ⟨_, List.prefix_refl _, hnext⟩, fun _ => ⟨rfl, hbytes, ?_, ?_⟩⟩
      · change advanced.handle.knownLen + _ = advanced.disk.log.length
        rw [hlen, hlog]
        dsimp only
        rw [hsynced.knownLen, List.length_append]
      · intro expected hexpected
        obtain ⟨rfl, hstored⟩ := hhead expected hexpected
        refine ⟨?_, hstored⟩
        change _ = ProtectedJournalHeadSnapshotV1.mk _ (format.sequence next)
          (format.tailDigest next)
        rw [hcloses.1, hcloses.2, hsynced.state]
    · have hwhole : advanced.disk.log = checked.disk.log ++
          (format.line record).take (format.line record).length := by
        rw [hlog, List.take_length]
      obtain (value | error | _) := o
      · exact absurd rfl hout
      · exact hdoubt _ (by simp) advanced _ hwhole (.inr (hhandle.resolve_left (by simp)))
      · exact hdoubt _ (by simp) advanced _ hwhole (.inl rfl)
  · obtain (value | error | _) := o
    · exact absurd rfl hout
    · exact hdoubt _ (by simp) written reached hlog (.inr (hhandle.resolve_left (by simp)))
    · exact hdoubt _ (by simp) written reached hlog (.inl rfl)

end Append

section Open

variable {backend : Bool}

theorem truncateTail_always (h : Stored format legal disk log state) :
    Always (format.truncateTail (logBytes format log).length) disk fun o after =>
      Stored format legal after log state ∧ after.heads = disk.heads ∧
        (o = .returned () → after.log = logBytes format log) := by
  obtain ⟨tail, hbytes, -⟩ := h.bytes
  have htake : disk.log.take (logBytes format log).length = logBytes format log := by
    rw [hbytes, List.take_left]
  have hpart : ∀ reached, Stored format legal
      ((truncateLog (logBytes format log).length).part reached disk) log state ∧
      ((truncateLog (logBytes format log).length).part reached disk).heads = disk.heads := by
    intro reached
    unfold truncateLog
    dsimp only
    split
    · exact ⟨h, rfl⟩
    · exact ⟨h.truncated rfl, rfl⟩
  refine .bind (.get ?_)
  dsimp only
  split
  · refine .step ⟨h.truncated rfl, rfl, fun _ => htake⟩ ?_ ?_
    · exact fun reached => ⟨(hpart reached).1, (hpart reached).2, nofun⟩
    · exact fun reached => ⟨(hpart reached).1, (hpart reached).2, nofun⟩
  · rename_i hcomplete
    refine .pure ⟨h, rfl, fun _ => ?_⟩
    rw [← htake, not_not.mp hcomplete, List.take_length]

theorem findHead_always :
    Always (format.findHead backend state) disk fun o after => after.log = disk.log ∧
      ∀ head, o = .returned head → ∀ expected, head = some expected →
        expected = ⟨format.headDomain, format.sequence state, format.tailDigest state⟩ ∧
          after.heads[format.headDomain]? = some expected := by
  unfold Format.findHead
  split
  · refine .bind (onHeads_always (verifyOrInitialize_always.mono ?_))
    rintro (head | detail | _) heads ⟨hreturned, -⟩
    · obtain ⟨rfl, hstored⟩ := hreturned head rfl
      refine .pure ⟨rfl, ?_⟩
      rintro _ ⟨⟩ _ ⟨⟩
      exact ⟨rfl, hstored⟩
    · exact ⟨rfl, nofun⟩
    · exact ⟨rfl, nofun⟩
  · refine .pure ⟨rfl, ?_⟩
    rintro _ ⟨⟩ _ ⟨⟩

-- Opening keeps the records, and a handle it returns knows them.
theorem openJournal_always (hlawful : format.Lawful) (h : Stored format legal disk log state) :
    Always (format.openJournal backend) disk fun o after =>
      Stored format legal after log state ∧ ∀ handle, o = .returned handle →
        handle.poisoned = false ∧ Held format legal ⟨after, handle⟩ log state := by
  have hheld : ∀ (after : Disk) head, after.log = logBytes format log →
      (∀ expected, head = some expected →
        expected = ⟨format.headDomain, format.sequence state, format.tailDigest state⟩ ∧
          after.heads[format.headDomain]? = some expected) →
      Held format legal ⟨after, ⟨state, (logBytes format log).length, false, head⟩⟩ log state := by
    intro after head hlog hhead
    exact ⟨⟨h.traced, [], by rw [hlog, List.append_nil], by simp⟩,
      ⟨log, List.prefix_refl _, h.traced⟩, fun _ => ⟨rfl, hlog, by rw [hlog], hhead⟩⟩
  refine .bind (.get (.bind (.check ?_ fun error _ => ⟨h, nofun⟩)))
  rintro ⟨found, complete⟩ hreplay
  obtain ⟨rfl, rfl⟩ : state = found ∧ (logBytes format log).length = complete := by
    have hsame := Except.ok.inj ((h.replayFile hlawful).symm.trans hreplay)
    exact ⟨congrArg Prod.fst hsame, congrArg Prod.snd hsame⟩
  dsimp only
  unfold Format.opened
  cases hfirst : format.fileFirst with
  | true =>
      simp only [↓reduceIte, not_true_eq_false]
      refine .bind ((truncateTail_always h).mono ?_)
      rintro (_ | error | _) cut ⟨hstored, -, hlog⟩
      · refine .bind (findHead_always.mono ?_)
        rintro (head | error | _) after ⟨hsame, hhead⟩
        · refine .pure ⟨hstored.of_log hsame, ?_⟩
          rintro _ ⟨⟩
          exact ⟨rfl, hheld after head (hsame.trans (hlog rfl)) (hhead head rfl)⟩
        · exact ⟨hstored.of_log hsame, nofun⟩
        · exact ⟨hstored.of_log hsame, nofun⟩
      · exact ⟨hstored, nofun⟩
      · exact ⟨hstored, nofun⟩
  | false =>
      simp only [Bool.false_eq_true, ↓reduceIte, not_false_eq_true]
      refine .bind (findHead_always.mono ?_)
      rintro (head | error | _) found ⟨hsame, hhead⟩
      · refine .bind ((truncateTail_always (h.of_log hsame)).mono ?_)
        rintro (_ | error | _) after ⟨hstored, hheads, hlog⟩
        · refine .pure ⟨hstored, ?_⟩
          rintro _ ⟨⟩
          refine ⟨rfl, hheld after head (hlog rfl) ?_⟩
          rw [hheads]
          exact hhead head rfl
        · exact ⟨hstored, nofun⟩
        · exact ⟨hstored, nofun⟩
      · exact ⟨h.of_log hsame, nofun⟩
      · exact ⟨h.of_log hsame, nofun⟩

-- Opening the journal of a usable handle gives that handle again.
theorem openJournal_ends (hlawful : format.Lawful) (h : Held format legal world log state)
    (hlive : world.handle.poisoned = false) :
    Ends (format.openJournal world.handle.protectedHead.isSome) [] world.disk
      (.returned world.handle) [] world.disk := by
  obtain ⟨disk, found, knownLen, poisoned, head⟩ := world
  obtain rfl : poisoned = false := hlive
  obtain ⟨hstate, hbytes, hlen, hhead⟩ := h.synced rfl
  dsimp only at hstate hbytes hlen
  subst hstate hlen
  have hcut : Ends (format.truncateTail disk.log.length) [] disk (.returned ()) [] disk := by
    refine .bind .get ?_
    rw [if_neg (not_not.mpr rfl)]
    exact .pure
  have hfound : Ends (format.findHead head.isSome found) [] disk (.returned head) [] disk := by
    unfold Format.findHead
    cases head with
    | none => exact .pure
    | some expected =>
        obtain ⟨hexpected, hstored⟩ := hhead expected rfl
        dsimp only at hexpected hstored
        subst hexpected
        exact .bind (.orElse (.zoom (verifyOrInitialize_ends hstored))) .pure
  have hreplay : format.replayFile disk.log = .ok (found, disk.log.length) := by
    rw [h.stored.replayFile hlawful, hbytes]
  refine .bind .get (.bind (.check hreplay) ?_)
  dsimp only
  unfold Format.opened
  cases hfirst : format.fileFirst with
  | true =>
      simp only [↓reduceIte, not_true_eq_false]
      exact .bind hcut (.bind hfound .pure)
  | false =>
      simp only [Bool.false_eq_true, ↓reduceIte, not_false_eq_true]
      exact .bind hfound (.bind hcut .pure)

end Open

-- A journal between two calls.
structure Store.Holds (format : Format ρ σ ε) (legal : σ → ρ → Prop) (store : Store σ)
    (log : List ρ) (state : σ) : Prop where
  stored : Stored format legal store.disk log state
  held : ∀ handle, store.handle = some handle → Held format legal ⟨store.disk, handle⟩ log state

namespace Store

variable {store : Store σ}

theorem Holds.empty (format : Format ρ σ ε) (legal : σ → ρ → Prop) :
    (Store.empty : Store σ).Holds format legal [] format.fresh :=
  ⟨⟨.Fresh, [], rfl, by simp⟩, nofun⟩

theorem Holds.reopen {opening : Program Disk ε (Handle σ)}
    (hopening : Always opening store.disk fun o after =>
      Stored format legal after log state ∧ ∀ handle, o = .returned handle →
        handle.poisoned = false ∧ Held format legal ⟨after, handle⟩ log state)
    (fates : List Fate) : (store.reopen opening fates).Holds format legal log state := by
  have hopen := hopening fates
  unfold Program.outcome Program.final at hopen
  unfold Store.reopen
  generalize opening fates store.disk = run at hopen ⊢
  obtain ⟨handle | error | _, rest, disk⟩ := run
  · refine ⟨hopen.1, ?_⟩
    rintro _ ⟨⟩
    exact (hopen.2 handle rfl).2
  · exact ⟨hopen.1, nofun⟩
  · exact ⟨hopen.1, nofun⟩

-- What a call does to the store is what its program leaves.
theorem Holds.call {program : Program (World σ) ε α} {handle : Handle σ}
    {post : Outcome ε α → List ρ → σ → Prop} (hhandle : store.handle = some handle)
    (hprogram : Always program ⟨store.disk, handle⟩ fun o after =>
      ∃ log state, Left format legal o after log state ∧ post o log state) (fates : List Fate) :
    ∃ o log state, (store.call program fates).1 = some o ∧
      (store.call program fates).2.Holds format legal log state ∧ post o log state := by
  have hrun := hprogram fates
  unfold Program.outcome Program.final at hrun
  unfold Store.call
  rw [hhandle]
  dsimp only
  generalize program fates ⟨store.disk, handle⟩ = run at hrun ⊢
  obtain ⟨value | error | _, rest, world⟩ := run
  · obtain ⟨log, state, hleft, hpost⟩ := hrun
    refine ⟨_, log, state, rfl, ⟨hleft.stored, ?_⟩, hpost⟩
    rintro _ ⟨⟩
    exact hleft
  · obtain ⟨log, state, hleft, hpost⟩ := hrun
    refine ⟨_, log, state, rfl, ⟨hleft.stored, ?_⟩, hpost⟩
    rintro _ ⟨⟩
    exact hleft
  · obtain ⟨log, state, hleft, hpost⟩ := hrun
    exact ⟨_, log, state, rfl, ⟨hleft, nofun⟩, hpost⟩

end Store

end M1nd.Mcp.ChainedJournal
