import M1nd.Control.AuthorityWal
import M1nd.Control.ReplayLedger
import M1nd.Library.Framing

namespace M1nd.Control

open M1nd.Library
open M1nd.Library.Checks
open M1nd.Library.Framing
open M1nd.Library.Json (Bytes Value write_injective)
open M1nd.Library.Json.Value (sortKeys_object_inj sortKeys_ofNat sortKeys_string)

-- Different records have different canonical forms.

theorem canonical_replayClaim :
    Function.Injective fun claim : ReplayClaimV1 => claim.toValue.sortKeys := by
  intro a b h
  dsimp only [ReplayClaimV1.toValue] at h
  have h := sortKeys_object_inj (by rfl) (by simp) h
  simp only [List.map_cons, List.map_nil, List.cons.injEq, and_true, sortKeys_string,
    sortKeys_ofNat, Value.string.injEq, Value.ofNat_inj] at h
  exact ReplayClaimV1.ext_iff.mpr h

theorem canonical_ledgerRecord :
    Function.Injective fun record : ReplayLedgerRecordV1 => record.toValue.sortKeys := by
  intro a b h
  dsimp only [ReplayLedgerRecordV1.toValue] at h
  have h := sortKeys_object_inj (by rfl) (by simp) h
  simp only [List.map_cons, List.map_nil, List.cons.injEq, and_true, sortKeys_string,
    sortKeys_ofNat, sortKeys_optionalString, Value.string.injEq, Value.ofNat_inj,
    optionalString_injective.eq_iff, canonical_replayClaim.eq_iff] at h
  exact ReplayLedgerRecordV1.ext_iff.mpr h

namespace ReplayLedgerRecordV1

theorem toVec_injective : Function.Injective toVec :=
  fun _ _ h => canonical_ledgerRecord (write_injective h)

-- A record is its material and its own digest.
theorem eq_of_material {a b : ReplayLedgerRecordV1}
    (h : a.material.sortKeys = b.material.sortKeys) (hdigest : a.recordDigest = b.recordDigest) :
    a = b := by
  dsimp only [material] at h
  have h := sortKeys_object_inj (by rfl) (by simp) h
  simp only [List.map_cons, List.map_nil, List.cons.injEq, and_true, sortKeys_string,
    sortKeys_ofNat, sortKeys_optionalString, Value.string.injEq, Value.ofNat_inj,
    optionalString_injective.eq_iff, canonical_replayClaim.eq_iff] at h
  obtain ⟨hschema, hsequence, hprevious, hclaim, hclaimDigest, hscopeDigest⟩ := h
  exact ReplayLedgerRecordV1.ext hschema hsequence hprevious hclaim hclaimDigest hscopeDigest hdigest

theorem lineFeed_not_mem_toVec (record : ReplayLedgerRecordV1) : lineFeed ∉ record.toVec :=
  Json.newline_not_mem_write _

theorem toVec_ne_nil (record : ReplayLedgerRecordV1) : record.toVec ≠ [] :=
  Json.write_ne_nil _

end ReplayLedgerRecordV1

-- The bytes of a ledger: one line for each record.
def ledgerBytes (log : List ReplayLedgerRecordV1) : Bytes :=
  frames lineFeed (log.map ReplayLedgerRecordV1.toVec)

theorem ledgerBytes_concat {log : List ReplayLedgerRecordV1} {record : ReplayLedgerRecordV1} :
    ledgerBytes (log ++ [record]) = ledgerBytes log ++ (record.toVec ++ [lineFeed]) := by
  simp [ledgerBytes, frames_concat]

theorem lines_clean (log : List ReplayLedgerRecordV1) :
    ∀ line ∈ log.map ReplayLedgerRecordV1.toVec, lineFeed ∉ line := by
  simpa using fun record _ => record.lineFeed_not_mem_toVec

section Replay

variable [Sha256] {fromSlice : ReplayRecordDecoder} {state next : ReplayedRecords}
  {record : ReplayLedgerRecordV1}

-- What replay found out about a record that it accepts.
structure ReplayedRecords.Admits (state : ReplayedRecords) (record : ReplayLedgerRecordV1) :
    Prop where
  schema : record.schema = REPLAY_LEDGER_RECORD_SCHEMA
  sequence : record.sequence = state.expectedSequence
  previous : record.previousRecordDigest = state.tailDigest
  claim : record.claim.validateStatic = .ok ()
  claimDigest : record.claimDigest = record.claim.claimDigest
  scopeDigest : record.scopeDigest = record.claim.scopeDigest
  recordDigest : record.recordDigest = record.computeRecordDigest
  fresh : record.scopeDigest ∉ state.consumedScopes

def ReplayedRecords.after (state : ReplayedRecords) (record : ReplayLedgerRecordV1) :
    ReplayedRecords where
  consumedScopes := state.consumedScopes.insert record.scopeDigest
  expectedSequence := nextLedgerSequence state.expectedSequence
  tailDigest := some record.recordDigest

theorem ReplayedRecords.accept_eq_ok :
    state.accept record = .ok next ↔ state.Admits record ∧ next = state.after record := by
  simp only [accept, bind_unit_eq_ok, rejectIf_eq_ok, mapError_eq_ok, pure_eq_ok, ne_eq, not_not]
  constructor
  · rintro ⟨hschema, hsequence, hprevious, hclaim, hclaimDigest, hscopeDigest, hrecordDigest, hfresh,
      rfl⟩
    exact ⟨⟨hschema, hsequence, hprevious, hclaim, hclaimDigest, hscopeDigest, hrecordDigest, hfresh⟩,
      rfl⟩
  · rintro ⟨h, rfl⟩
    exact ⟨h.schema, h.sequence, h.previous, h.claim, h.claimDigest, h.scopeDigest, h.recordDigest,
      h.fresh, rfl⟩

-- The records of a ledger file, accepted one by one.
def Ledgered (log : List ReplayLedgerRecordV1) (state : ReplayedRecords) : Prop :=
  Runs.replay ReplayedRecords.accept .none log = .ok state

theorem Ledgered.nil : Ledgered [] .none := rfl

theorem Ledgered.concat {log : List ReplayLedgerRecordV1} (h : Ledgered log state)
    (hadmits : state.Admits record) : Ledgered (log ++ [record]) (state.after record) :=
  Runs.replay_concat_eq_ok.mpr ⟨state, h, ReplayedRecords.accept_eq_ok.mpr ⟨hadmits, rfl⟩⟩

-- The consumed scopes are those of the records.
theorem Ledgered.mem_consumedScopes {log : List ReplayLedgerRecordV1} (h : Ledgered log state)
    (scopeDigest : String) :
    scopeDigest ∈ state.consumedScopes ↔ ∃ record ∈ log, record.scopeDigest = scopeDigest := by
  refine Runs.replay_invariant
    (fun log (state : ReplayedRecords) => scopeDigest ∈ state.consumedScopes ↔
      ∃ record ∈ log, record.scopeDigest = scopeDigest) ?_ ?_ h
  · simp [ReplayedRecords.none]
  · intro log record state next ih haccept
    obtain ⟨-, rfl⟩ := ReplayedRecords.accept_eq_ok.mp haccept
    simp only [ReplayedRecords.after, Std.ExtTreeSet.mem_insert, Std.LawfulEqCmp.compare_eq_iff_eq,
      ih, List.mem_append, List.mem_singleton]
    constructor
    · rintro (rfl | ⟨other, hother, rfl⟩)
      · exact ⟨record, .inr rfl, rfl⟩
      · exact ⟨other, .inl hother, rfl⟩
    · rintro ⟨other, hother | rfl, rfl⟩
      · exact .inr ⟨other, hother, rfl⟩
      · exact .inl rfl

private theorem replayLedgerLine_blank {count index : Nat} :
    replayLedgerLine fromSlice count state ([], index) = .ok next ↔
      index + 1 = count ∧ state = next := by
  simp only [replayLedgerLine, bind_unit_eq_ok, rejectIf_eq_ok, pure_eq_ok, ne_eq, not_not]

private theorem replayLedgerLine_line {count index : Nat} {line : Bytes} (hne : line ≠ []) :
    replayLedgerLine fromSlice count state (line, index) = .ok next ↔
      ∃ record, fromSlice line = .ok record ∧ record.toVec = line ∧
        state.accept record = .ok next := by
  cases line with
  | nil => exact absurd rfl hne
  | cons byte line =>
      simp only [replayLedgerLine, replayLedgerRecord, mapError_eq_ok, bind_eq_ok, exists_unit,
        rejectIf_eq_ok, ne_eq, not_not]

-- Replaying the lines that a file splits into, with the empty one after the last line feed.
private theorem replay_lines_eq_ok {lines : List Bytes} {index count : Nat}
    (hcount : index + lines.length + 1 = count) :
    Runs.replay (replayLedgerLine fromSlice count) state ((lines ++ [[]]).zipIdx index) = .ok next ↔
      ∃ log : List ReplayLedgerRecordV1, lines = log.map ReplayLedgerRecordV1.toVec ∧
        (∀ record ∈ log, fromSlice record.toVec = .ok record) ∧
        Runs.replay ReplayedRecords.accept state log = .ok next := by
  induction lines generalizing state index with
  | nil =>
      have hlast : index + 1 = count := by simpa using hcount
      simp only [List.nil_append, List.zipIdx_singleton, Runs.replay_cons, bind_eq_ok,
        replayLedgerLine_blank, hlast, true_and, exists_eq_left', Runs.replay_nil, Except.ok.injEq]
      constructor
      · rintro rfl
        exact ⟨[], rfl, by simp, rfl⟩
      · rintro ⟨log, hlines, -, hreplay⟩
        obtain rfl : log = [] := List.map_eq_nil_iff.mp hlines.symm
        exact Except.ok.inj hreplay
  | cons line lines ih =>
      have hrest : index + 1 + lines.length + 1 = count := by
        simp only [List.length_cons] at hcount
        omega
      simp only [List.cons_append, List.zipIdx_cons, Runs.replay_cons, bind_eq_ok, ih hrest]
      constructor
      · rintro ⟨middle, hline, log, rfl, hdecode, hreplay⟩
        have hne : line ≠ [] := by
          rintro rfl
          have hlast := (replayLedgerLine_blank.mp hline).1
          omega
        obtain ⟨record, hfound, rfl, haccept⟩ := (replayLedgerLine_line hne).mp hline
        refine ⟨record :: log, rfl, List.forall_mem_cons.mpr ⟨hfound, hdecode⟩, ?_⟩
        exact bind_eq_ok.mpr ⟨middle, haccept, hreplay⟩
      · rintro ⟨log, hlines, hdecode, hreplay⟩
        cases log with
        | nil => cases hlines
        | cons record log =>
            obtain ⟨rfl, rfl⟩ := List.cons.inj hlines
            obtain ⟨middle, haccept, hreplay⟩ := bind_eq_ok.mp hreplay
            obtain ⟨hfound, hdecode⟩ := List.forall_mem_cons.mp hdecode
            refine ⟨middle, ?_, log, rfl, hdecode, hreplay⟩
            exact (replayLedgerLine_line record.toVec_ne_nil).mpr ⟨record, hfound, rfl, haccept⟩

-- A file is accepted exactly when it is the lines of accepted records.
theorem replayRecords_eq_ok {bytes : Bytes} :
    replayRecords fromSlice bytes = .ok state ↔
      ∃ log, bytes = ledgerBytes log ∧ (∀ record ∈ log, fromSlice record.toVec = .ok record) ∧
        Ledgered log state := by
  obtain ⟨lines, tail, rfl, hlines, htail⟩ := exists_frames lineFeed bytes
  have hsplit := splitOn_frames_append hlines htail
  simp only [replayRecords, bind_unit_eq_ok, rejectIf_eq_ok, hsplit]
  constructor
  · rintro ⟨hended, hreplay⟩
    have hnil : tail = [] := by
      by_contra hne
      have hlast : (frames lineFeed lines ++ tail).getLast? = tail.getLast? :=
        List.getLast?_append_of_ne_nil _ hne
      have hfeed : tail.getLast? ≠ some lineFeed := fun h => htail (List.mem_of_getLast? h)
      exact hended ⟨by simp [hne], by rwa [hlast]⟩
    subst hnil
    obtain ⟨log, rfl, hdecode, hlog⟩ := (replay_lines_eq_ok (by simp)).mp hreplay
    exact ⟨log, by rw [List.append_nil, ledgerBytes], hdecode, hlog⟩
  · rintro ⟨log, hbytes, hdecode, hlog⟩
    have hparts : lines ++ [tail] = log.map ReplayLedgerRecordV1.toVec ++ [[]] := by
      rw [← hsplit, hbytes, ← splitOn_frames_append (lines_clean log) (List.not_mem_nil),
        List.append_nil, ledgerBytes]
    obtain ⟨rfl, htail⟩ := List.append_inj' hparts rfl
    obtain rfl : tail = [] := by simpa using htail
    refine ⟨?_, (replay_lines_eq_ok (by simp)).mpr ⟨log, rfl, hdecode, hlog⟩⟩
    rintro ⟨hne, hlast⟩
    obtain rfl | ⟨before, last, rfl⟩ := log.eq_nil_or_concat
    · exact hne rfl
    · refine hlast ?_
      simp [frames_concat]

end Replay

end M1nd.Control

namespace M1nd.Control

open M1nd.Library
open M1nd.Library.Checks
open M1nd.Library.Framing
open M1nd.Library.Json (Bytes)

-- What the digest of a record is the hash of.
def ReplayLedgerRecordV1.message (record : ReplayLedgerRecordV1) : Bytes :=
  digestPreimage REPLAY_LEDGER_RECORD_DIGEST_DOMAIN (canonicalJson record.material)

-- The hashed messages of the records that stand in a file.
def ledgerMessages (bytes : Bytes) : Set Bytes :=
  {message | ∃ record : ReplayLedgerRecordV1,
    record.toVec ∈ bytes.splitOn lineFeed ∧ record.message = message}

theorem message_mem_ledgerMessages {log : List ReplayLedgerRecordV1} {record : ReplayLedgerRecordV1}
    (h : record ∈ log) : record.message ∈ ledgerMessages (ledgerBytes log) := by
  refine ⟨record, ?_, rfl⟩
  have hsplit := splitOn_frames_append (lines_clean log) (List.not_mem_nil (a := lineFeed))
  rw [List.append_nil] at hsplit
  rw [ledgerBytes, hsplit]
  exact List.mem_append_left _ (List.mem_map_of_mem h)

section Chain

variable [Sha256] {log log' before after : List ReplayLedgerRecordV1}
  {record other : ReplayLedgerRecordV1} {state state' : ReplayedRecords} {messages : Set Bytes}

theorem ReplayLedgerRecordV1.eq_of_recordDigest (hfree : CollisionFree messages)
    (hmem : record.message ∈ messages) (hmem' : other.message ∈ messages)
    (hown : record.recordDigest = record.computeRecordDigest)
    (hown' : other.recordDigest = other.computeRecordDigest)
    (h : record.recordDigest = other.recordDigest) : record = other := by
  refine eq_of_material (digestCanonical_inj (hfree.mono ?_) (hown.symm.trans (h.trans hown'))) h
  rintro _ (rfl | rfl)
  · exact hmem
  · exact hmem'

theorem ledgered_concat : Ledgered (log ++ [record]) state ↔
    ∃ before, Ledgered log before ∧ before.Admits record ∧ state = before.after record := by
  unfold Ledgered
  simp only [Runs.replay_concat_eq_ok, ReplayedRecords.accept_eq_ok]

theorem Ledgered.nil_of_tail (h : Ledgered log state) (htail : state.tailDigest = none) : log = [] := by
  obtain rfl | ⟨log, record, rfl⟩ := log.eq_nil_or_concat
  · rfl
  · rw [List.concat_eq_append, ledgered_concat] at h
    obtain ⟨before, -, -, rfl⟩ := h
    cases htail

theorem Ledgered.tail (h : Ledgered (log ++ [record]) state) :
    state.tailDigest = some record.recordDigest := by
  obtain ⟨before, -, -, rfl⟩ := ledgered_concat.mp h
  rfl

-- The tail digest commits to the whole ledger.
theorem Ledgered.eq_of_tail (h : Ledgered log state) (h' : Ledgered log' state')
    (htail : state.tailDigest = state'.tailDigest) (hfree : CollisionFree messages)
    (hmem : ∀ record ∈ log, record.message ∈ messages)
    (hmem' : ∀ record ∈ log', record.message ∈ messages) : log = log' := by
  induction log using List.reverseRecOn generalizing log' state state' with
  | nil =>
      obtain rfl : ReplayedRecords.none = state := Except.ok.inj h
      exact (h'.nil_of_tail htail.symm).symm
  | append_singleton log record ih =>
      obtain ⟨before, hbefore, hadmits, rfl⟩ := ledgered_concat.mp h
      obtain rfl | ⟨log', record', rfl⟩ := log'.eq_nil_or_concat
      · obtain rfl : ReplayedRecords.none = state' := Except.ok.inj h'
        cases htail
      · rw [List.concat_eq_append] at h' hmem' ⊢
        obtain ⟨before', hbefore', hadmits', rfl⟩ := ledgered_concat.mp h'
        rw [List.forall_mem_append, List.forall_mem_singleton] at hmem hmem'
        obtain rfl : record = record' := ReplayLedgerRecordV1.eq_of_recordDigest hfree hmem.2
          hmem'.2 hadmits.recordDigest hadmits'.recordDigest (Option.some.inj htail)
        have htails : before.tailDigest = before'.tailDigest :=
          hadmits.previous.symm.trans hadmits'.previous
        rw [ih hbefore hbefore' htails hmem.1 hmem'.1]

-- An accepted ledger of records of another one is its beginning.
theorem Ledgered.isPrefix_of_subset (h : Ledgered log state) (h' : Ledgered log' state')
    (hfree : CollisionFree messages) (hmem : ∀ record ∈ log, record.message ∈ messages)
    (hsubset : log' ⊆ log) : log' <+: log := by
  obtain rfl | ⟨first, last, rfl⟩ := log'.eq_nil_or_concat
  · exact List.nil_prefix
  · rw [List.concat_eq_append] at h' hsubset ⊢
    have hlast : last ∈ log := hsubset (by simp)
    obtain ⟨before, after, rfl⟩ := List.append_of_mem hlast
    rw [List.append_cons] at h
    obtain ⟨middle, hmiddle, -⟩ := Runs.replay_append_eq_ok.mp h
    have hsame : first ++ [last] = before ++ [last] := by
      refine h'.eq_of_tail hmiddle (h'.tail.trans (Ledgered.tail hmiddle).symm) hfree
        (fun record hrecord => hmem record (hsubset hrecord)) fun record hrecord => hmem record ?_
      rw [List.append_cons]
      exact List.mem_append_left _ hrecord
    exact ⟨after, by rw [hsame, List.append_assoc, List.singleton_append]⟩

end Chain

section Refused

variable [Sha256] {fromSlice : ReplayRecordDecoder} {log log' before after : List ReplayLedgerRecordV1}
  {record : ReplayLedgerRecordV1} {state state' : ReplayedRecords}

theorem replayed_ledgered (h : replayRecords fromSlice (ledgerBytes log) = .ok state) :
    Ledgered log state := by
  obtain ⟨log', hbytes, -, hlog⟩ := replayRecords_eq_ok.mp h
  have hmap := frames_inj (lines_clean log) (lines_clean log') hbytes
  rwa [ReplayLedgerRecordV1.toVec_injective.list_map hmap]

theorem removed_refused (h : Ledgered (before ++ record :: after) state) (hafter : after ≠ [])
    (hfree : CollisionFree (ledgerMessages (ledgerBytes (before ++ record :: after)))) :
    replayRecords fromSlice (ledgerBytes (before ++ after)) ≠ .ok state' := by
  intro hreplayed
  have h' := replayed_ledgered hreplayed
  obtain ⟨rest, last, rfl⟩ := (after.eq_nil_or_concat).resolve_left hafter
  rw [List.concat_eq_append] at *
  have htail : state.tailDigest = state'.tailDigest := by
    rw [← List.append_assoc] at h'
    rw [← List.cons_append, ← List.append_assoc] at h
    rw [h.tail, h'.tail]
  have hsame := h.eq_of_tail h' htail hfree (fun _ => message_mem_ledgerMessages) ?_
  · simpa using congrArg List.length hsame
  · intro other hother
    refine message_mem_ledgerMessages ?_
    simp only [List.mem_append, List.mem_cons] at hother ⊢
    grind

theorem reordered_refused (h : Ledgered log state) (hperm : log'.Perm log) (hne : log' ≠ log)
    (hfree : CollisionFree (ledgerMessages (ledgerBytes log))) :
    replayRecords fromSlice (ledgerBytes log') ≠ .ok state' := by
  intro hreplayed
  have hstart := h.isPrefix_of_subset (replayed_ledgered hreplayed) hfree
    (fun _ => message_mem_ledgerMessages) hperm.subset
  exact hne (hstart.eq_of_length hperm.length_eq)

-- A file in which bytes stand in the place of one record.
def editedLedger (before : List ReplayLedgerRecordV1) (edit : Bytes)
    (after : List ReplayLedgerRecordV1) : Bytes :=
  ledgerBytes before ++ (edit ++ [lineFeed]) ++ ledgerBytes after

omit [Sha256] in
theorem editedLedger_eq {edit : Bytes} (h : editedLedger before edit after = ledgerBytes log) :
    ∃ rewritten, edit ++ [lineFeed] = ledgerBytes rewritten ∧ log = before ++ rewritten ++ after := by
  obtain ⟨lines, tail, hedit, hlines, htail⟩ := exists_frames lineFeed edit
  have hframes : edit ++ [lineFeed] = frames lineFeed (lines ++ [tail]) := by
    rw [frames_concat, hedit, List.append_assoc]
  have hclean : ∀ line ∈ before.map ReplayLedgerRecordV1.toVec ++ (lines ++ [tail]) ++
      after.map ReplayLedgerRecordV1.toVec, lineFeed ∉ line := by
    simp only [List.forall_mem_append, List.forall_mem_singleton]
    exact ⟨⟨lines_clean before, hlines, htail⟩, lines_clean after⟩
  rw [editedLedger, hframes, ledgerBytes, ledgerBytes, ← frames_append, ← frames_append] at h
  have hmap := frames_inj hclean (lines_clean log) h
  obtain ⟨front, back, rfl, hfront, hback⟩ := List.map_eq_append_iff.mp hmap.symm
  obtain ⟨start, rewritten, rfl, hstart, hrewritten⟩ := List.map_eq_append_iff.mp hfront
  obtain rfl : start = before := ReplayLedgerRecordV1.toVec_injective.list_map hstart
  obtain rfl : back = after := ReplayLedgerRecordV1.toVec_injective.list_map hback
  exact ⟨rewritten, by rw [hframes, ← hrewritten, ledgerBytes], rfl⟩

-- An edit that is accepted puts whole records in the place of the last one, each with the
-- digests of its new content.
theorem edited_accepted (h : Ledgered (before ++ record :: after) state) {edit : Bytes}
    (hedit : edit ≠ record.toVec)
    (hfree : CollisionFree (ledgerMessages (ledgerBytes (before ++ record :: after)) ∪
      ledgerMessages (editedLedger before edit after)))
    (hreplayed : replayRecords fromSlice (editedLedger before edit after) = .ok state') :
    after = [] ∧ ∃ rewritten, edit ++ [lineFeed] = ledgerBytes rewritten ∧
      Ledgered (before ++ rewritten) state' := by
  obtain ⟨log, hbytes, -, hlog⟩ := replayRecords_eq_ok.mp hreplayed
  obtain ⟨rewritten, hrewritten, rfl⟩ := editedLedger_eq hbytes
  obtain rfl | ⟨rest, last, rfl⟩ := after.eq_nil_or_concat
  · exact ⟨rfl, rewritten, hrewritten, by rwa [List.append_nil] at hlog⟩
  · exfalso
    rw [List.concat_eq_append] at *
    have htail : state.tailDigest = state'.tailDigest := by
      rw [← List.append_assoc] at hlog
      rw [← List.cons_append, ← List.append_assoc] at h
      rw [h.tail, hlog.tail]
    have hsame := h.eq_of_tail hlog htail hfree
      (fun _ hmem => .inl (message_mem_ledgerMessages hmem)) fun _ hmem => .inr ?_
    · rw [List.append_assoc, List.append_cancel_left_eq, ← List.singleton_append,
        List.append_cancel_right_eq] at hsame
      subst hsame
      refine hedit (List.append_cancel_right (hrewritten.trans ?_))
      simp [ledgerBytes]
    · rw [hbytes]
      exact message_mem_ledgerMessages hmem

end Refused

end M1nd.Control
