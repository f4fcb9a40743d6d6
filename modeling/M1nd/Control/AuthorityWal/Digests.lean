import M1nd.Control.AuthorityWal.Theorems

namespace M1nd.Control

open M1nd.Library.Json
open M1nd.Library.Json.Value (sortKeys_object_inj sortKeys_object_ne_null sortKeys_ofOption_injective
  sortKeys_ofNat sortKeys_string)
open M1nd.Library.Checks

-- The part of a transaction or a record that its own digest covers.

def AuthorityTransactionV1.digestedValue (transaction : AuthorityTransactionV1) : Value :=
  transaction.toValue.adjust "transaction" fun body =>
    (body.remove "transaction_digest").remove "signature"

def AuthorityWalRecordV1.digestedValue (record : AuthorityWalRecordV1) : Value :=
  (record.toValue.remove "record_digest").remove "signature"

-- The same with the digest and the signature blanked.

def AuthorityTransactionV1.blanked : AuthorityTransactionV1 → AuthorityTransactionV1
  | .PositiveAuthority transaction =>
      .PositiveAuthority { transaction with transactionDigest := "", signature := ⟨""⟩ }
  | .SafetyKernel transaction =>
      .SafetyKernel { transaction with transactionDigest := "", signature := ⟨""⟩ }

def AuthorityWalRecordV1.blanked (record : AuthorityWalRecordV1) : AuthorityWalRecordV1 :=
  { record with recordDigest := "", signature := ⟨""⟩ }

-- The messages that the two digests are hashes of.

def AuthorityTransactionV1.digestMessage (transaction : AuthorityTransactionV1) : Bytes :=
  digestPreimage AUTHORITY_TRANSACTION_DIGEST_DOMAIN (canonicalJson transaction.digestedValue)

def AuthorityWalRecordV1.digestMessage (record : AuthorityWalRecordV1) : Bytes :=
  digestPreimage AUTHORITY_WAL_RECORD_DIGEST_DOMAIN (canonicalJson record.digestedValue)

theorem canonical_binding :
    Function.Injective fun binding : AuthorityTransactionBindingV1 => binding.toValue.sortKeys := by
  intro a b h
  dsimp only [AuthorityTransactionBindingV1.toValue] at h
  have h := sortKeys_object_inj (by rfl) (by simp) h
  simp only [List.map_cons, List.map_nil, List.cons.injEq, and_true, sortKeys_string,
    sortKeys_ofNat, sortKeys_optionalString, Value.string.injEq, Value.ofNat_inj,
    optionalString_injective.eq_iff, CapabilityKind.name_injective.eq_iff,
    ActiveMode.name_injective.eq_iff] at h
  exact AuthorityTransactionBindingV1.ext_iff.mpr h

theorem canonical_positive :
    Function.Injective fun transaction : PositiveAuthorityTransactionV1 =>
      transaction.toValue.sortKeys := by
  intro a b h
  dsimp only [PositiveAuthorityTransactionV1.toValue] at h
  have h := sortKeys_object_inj (by rfl) (by simp) h
  simp only [List.map_cons, List.map_nil, List.cons.injEq, and_true, sortKeys_string,
    sortKeys_ofNat, sortKeys_signature, Value.string.injEq, Value.ofNat_inj,
    canonical_binding.eq_iff, AuthorityVariant.name_injective.eq_iff,
    OpaqueSignature.toValue_injective.eq_iff] at h
  exact PositiveAuthorityTransactionV1.ext_iff.mpr h

theorem canonical_safety :
    Function.Injective fun transaction : SafetyKernelTransactionV1 =>
      transaction.toValue.sortKeys := by
  intro a b h
  dsimp only [SafetyKernelTransactionV1.toValue] at h
  have h := sortKeys_object_inj (by rfl) (by simp) h
  simp only [List.map_cons, List.map_nil, List.cons.injEq, and_true, sortKeys_string,
    sortKeys_ofNat, sortKeys_signature, Value.sortKeys_bool, Value.string.injEq, Value.bool.injEq,
    Value.ofNat_inj, canonical_binding.eq_iff, OpaqueSignature.toValue_injective.eq_iff] at h
  exact SafetyKernelTransactionV1.ext_iff.mpr h

-- Two values of a tagged form: the tag tells the variant.
private theorem tagged_inj {tag key : String} {value value' body body' : Value}
    (hkey : tag ≠ key) (h : (Value.object [(tag, value), (key, body)]).sortKeys =
      (Value.object [(tag, value'), (key, body')]).sortKeys) :
    value.sortKeys = value'.sortKeys ∧ body.sortKeys = body'.sortKeys := by
  have h := sortKeys_object_inj (by rfl) (by simp [hkey]) h
  simpa using h

theorem canonical_transaction :
    Function.Injective fun transaction : AuthorityTransactionV1 => transaction.toValue.sortKeys := by
  intro a b h
  cases a with
  | PositiveAuthority a =>
      cases b with
      | PositiveAuthority b =>
          obtain ⟨-, hbody⟩ := tagged_inj (by decide) h
          exact congrArg _ (canonical_positive hbody)
      | SafetyKernel b =>
          obtain ⟨htag, -⟩ := tagged_inj (by decide) h
          simp at htag
  | SafetyKernel a =>
      cases b with
      | PositiveAuthority b =>
          obtain ⟨htag, -⟩ := tagged_inj (by decide) h
          simp at htag
      | SafetyKernel b =>
          obtain ⟨-, hbody⟩ := tagged_inj (by decide) h
          exact congrArg _ (canonical_safety hbody)

theorem canonical_payload :
    Function.Injective fun payload : AuthorityWalPayloadV1 => payload.toValue.sortKeys := by
  intro a b h
  obtain ⟨hphase, hbody⟩ := tagged_inj (by decide) h
  simp only [sortKeys_string, Value.string.injEq, AuthorityWalPhase.name_injective.eq_iff] at hphase
  cases a <;> cases b <;> cases hphase
  case Prepare.Prepare a b =>
      simp only [AuthorityWalPayloadV1.body, AuthorityWalPrepareV1.toValue, Value.sortKeys_single,
        Value.object.injEq, List.cons.injEq, Prod.mk.injEq, true_and, and_true,
        canonical_transaction.eq_iff] at hbody
      obtain ⟨transaction⟩ := a
      obtain rfl : transaction = b.transaction := hbody
      rfl
  case Provisional.Provisional a b =>
      simp only [AuthorityWalPayloadV1.body, AuthorityWalProvisionalV1.toValue,
        Value.sortKeys_single, Value.object.injEq, List.cons.injEq, Prod.mk.injEq, true_and,
        and_true, sortKeys_string, Value.string.injEq] at hbody
      obtain ⟨digest⟩ := a
      obtain rfl : digest = b.provisionalEffectsDigest := hbody
      rfl
  case Commit.Commit a b =>
      have h := sortKeys_object_inj (by rfl) (by simp) hbody
      simp only [List.map_cons, List.map_nil, List.cons.injEq, and_true, sortKeys_string,
        sortKeys_ofNat, Value.string.injEq, Value.ofNat_inj] at h
      exact congrArg _ (AuthorityWalCommitV1.ext_iff.mpr h)
  case Abort.Abort a b =>
      have h := sortKeys_object_inj (by rfl) (by simp) hbody
      simp only [List.map_cons, List.map_nil, List.cons.injEq, and_true, sortKeys_string,
        sortKeys_ofNat, Value.string.injEq, Value.ofNat_inj] at h
      exact congrArg _ (AuthorityWalAbortV1.ext_iff.mpr h)

-- The same for an object without two of its members.
private theorem removed_inj {first second : String} {members members' : List (String × Value)}
    (hkeys : members.map Prod.fst = members'.map Prod.fst) (hnodup : (members.map Prod.fst).Nodup)
    (h : (((Value.object members).remove first).remove second).sortKeys =
      (((Value.object members').remove first).remove second).sortKeys) :
    (((members.filter fun member => member.1 ≠ first).filter fun member => member.1 ≠ second).map
        fun member => member.2.sortKeys) =
      ((members'.filter fun member => member.1 ≠ first).filter fun member => member.1 ≠ second).map
        fun member => member.2.sortKeys := by
  have hfilter (items : List (String × Value)) :
      ((items.filter fun member => member.1 ≠ first).filter fun member => member.1 ≠ second).map
          Prod.fst =
        (((items.map Prod.fst).filter fun key => key ≠ first).filter fun key => key ≠ second) := by
    rw [List.filter_map, List.filter_map]
    rfl
  refine sortKeys_object_inj ?_ ?_ h
  · rw [hfilter, hfilter, hkeys]
  · rw [hfilter]
    exact (hnodup.filter _).filter _

-- What a digest covers is everything but the digest and the signature.

theorem AuthorityTransactionV1.blanked_of_digestedValue {a b : AuthorityTransactionV1}
    (h : a.digestedValue.sortKeys = b.digestedValue.sortKeys) : a.blanked = b.blanked := by
  cases a with
  | PositiveAuthority a =>
      cases b with
      | PositiveAuthority b =>
          obtain ⟨-, hbody⟩ := tagged_inj (by decide) h
          have h := removed_inj (by rfl) (by simp) hbody
          simp only [ne_eq, List.filter_cons, List.filter_nil, String.reduceEq, not_false_eq_true,
            decide_true, ite_true, not_true_eq_false, decide_false, Bool.false_eq_true, ite_false,
            List.map_cons, List.map_nil, List.cons.injEq, and_true, sortKeys_string, sortKeys_ofNat,
            Value.string.injEq, Value.ofNat_inj, canonical_binding.eq_iff,
            AuthorityVariant.name_injective.eq_iff] at h
          simp only [blanked, PositiveAuthority.injEq, PositiveAuthorityTransactionV1.mk.injEq,
            and_true]
          exact h
      | SafetyKernel b =>
          obtain ⟨htag, -⟩ := tagged_inj (by decide) h
          simp at htag
  | SafetyKernel a =>
      cases b with
      | PositiveAuthority b =>
          obtain ⟨htag, -⟩ := tagged_inj (by decide) h
          simp at htag
      | SafetyKernel b =>
          obtain ⟨-, hbody⟩ := tagged_inj (by decide) h
          have h := removed_inj (by rfl) (by simp) hbody
          simp only [ne_eq, List.filter_cons, List.filter_nil, String.reduceEq, not_false_eq_true,
            decide_true, ite_true, not_true_eq_false, decide_false, Bool.false_eq_true, ite_false,
            List.map_cons, List.map_nil, List.cons.injEq, and_true, sortKeys_string, sortKeys_ofNat,
            Value.sortKeys_bool, Value.bool.injEq, Value.string.injEq, Value.ofNat_inj,
            canonical_binding.eq_iff] at h
          simp only [blanked, SafetyKernel.injEq, SafetyKernelTransactionV1.mk.injEq, and_true]
          exact h

theorem AuthorityWalRecordV1.blanked_of_digestedValue {a b : AuthorityWalRecordV1}
    (h : a.digestedValue.sortKeys = b.digestedValue.sortKeys) : a.blanked = b.blanked := by
  have h := removed_inj (by rfl) (by simp) h
  simp only [ne_eq, List.filter_cons, List.filter_nil, String.reduceEq, not_false_eq_true,
    decide_true, ite_true, not_true_eq_false, decide_false, Bool.false_eq_true, ite_false,
    List.map_cons, List.map_nil, List.cons.injEq, and_true, sortKeys_string, sortKeys_ofNat,
    sortKeys_optionalString, Value.string.injEq, Value.ofNat_inj, optionalString_injective.eq_iff,
    AuthorityWalPhase.name_injective.eq_iff, canonical_payload.eq_iff] at h
  simp only [blanked, AuthorityWalRecordV1.mk.injEq, and_true]
  exact h

section Digests

variable [Sha256]

theorem AuthorityTransactionV1.digest_of_validate {transaction : AuthorityTransactionV1}
    {validation : AuthorityTransactionStructuralValidation}
    (h : transaction.validate = .ok validation) :
    transaction.transactionDigest = transaction.computeTransactionDigest := by
  simp only [AuthorityTransactionV1.validate, bind_unit_eq_ok, rejectIf_eq_ok, ne_eq,
    not_not] at h
  obtain ⟨-, -, -, -, hdigest, -⟩ := h
  exact hdigest.symm

theorem AuthorityWalRecordV1.digest_of_validate {record : AuthorityWalRecordV1}
    {validation : AuthorityWalRecordStructuralValidation}
    (h : record.validate = .ok validation) : record.recordDigest = record.computeRecordDigest := by
  simp only [AuthorityWalRecordV1.validate, bind_unit_eq_ok, rejectIf_eq_ok, ne_eq,
    not_not] at h
  obtain ⟨-, -, -, -, -, -, -, -, -, -, hdigest, -⟩ := h
  exact hdigest.symm

-- Two transactions, or two records, that no hash collision confuses.

theorem AuthorityTransactionV1.blanked_of_digest {a b : AuthorityTransactionV1}
    {validation validation' : AuthorityTransactionStructuralValidation}
    (hfree : CollisionFree {a.digestMessage, b.digestMessage})
    (ha : a.validate = .ok validation) (hb : b.validate = .ok validation')
    (h : a.transactionDigest = b.transactionDigest) : a.blanked = b.blanked := by
  rw [digest_of_validate ha, digest_of_validate hb] at h
  exact blanked_of_digestedValue (digestCanonical_inj hfree h)

theorem AuthorityWalRecordV1.blanked_of_digest {a b : AuthorityWalRecordV1}
    {validation validation' : AuthorityWalRecordStructuralValidation}
    (hfree : CollisionFree {a.digestMessage, b.digestMessage})
    (ha : a.validate = .ok validation) (hb : b.validate = .ok validation')
    (h : a.recordDigest = b.recordDigest) : a.blanked = b.blanked := by
  rw [digest_of_validate ha, digest_of_validate hb] at h
  exact blanked_of_digestedValue (digestCanonical_inj hfree h)

end Digests

theorem canonicalJson_eq_iff (v w : MapValue) :
    canonicalJson v.form = canonicalJson w.form ↔ v.form.Same w.form := by
  unfold canonicalJson
  rw [write_injective.eq_iff, Value.sortKeys_eq_iff v.distinct]

-- Equal canonical bytes mean the same value, a digest preimage names one domain and one
-- payload, and a digest that two validated transactions or records share settles both.
theorem canonical_digests_injective [Sha256] :
    (∀ v w : MapValue, canonicalJson v.form = canonicalJson w.form ↔ v.form.Same w.form) ∧
    (∀ (domain domain' : String) (payload payload' : Bytes),
      (utf8 domain).length < 2 ^ 64 → (utf8 domain').length < 2 ^ 64 →
      digestPreimage domain payload = digestPreimage domain' payload' →
      domain = domain' ∧ payload = payload') ∧
    (∀ (a b : AuthorityTransactionV1) (validation validation' :
        AuthorityTransactionStructuralValidation),
      CollisionFree {a.digestMessage, b.digestMessage} →
      a.validate = .ok validation → b.validate = .ok validation' →
      a.transactionDigest = b.transactionDigest → a.blanked = b.blanked) ∧
    (∀ (a b : AuthorityWalRecordV1) (validation validation' :
        AuthorityWalRecordStructuralValidation),
      CollisionFree {a.digestMessage, b.digestMessage} →
      a.validate = .ok validation → b.validate = .ok validation' →
      a.recordDigest = b.recordDigest → a.blanked = b.blanked) := by
  refine ⟨canonicalJson_eq_iff, ?_, ?_, ?_⟩
  · intro domain domain' payload payload' hdomain hdomain' h
    exact digestPreimage_inj hdomain hdomain' h
  · intro a b validation validation' hfree ha hb h
    exact AuthorityTransactionV1.blanked_of_digest hfree ha hb h
  · intro a b validation validation' hfree ha hb h
    exact AuthorityWalRecordV1.blanked_of_digest hfree ha hb h

-- The same sealed transaction, and the same record, signed a second time.

def resignedTransaction [Sha256] : AuthorityTransactionV1 :=
  match landTransaction with
  | .PositiveAuthority transaction => .PositiveAuthority { transaction with signature := ⟨"again"⟩ }
  | .SafetyKernel transaction => .SafetyKernel { transaction with signature := ⟨"again"⟩ }

def signedRecord [Sha256] (signature : String) : AuthorityWalRecordV1 :=
  storedRecord landTransaction (.Provisional landProvisional) 1600 "owner-1" "owner-key-1"
    "opaque-test-algorithm" 1 none signature

theorem resignedTransaction_validates [Sha256] :
    ∃ validation, resignedTransaction.validate = .ok validation := by
  refine ⟨⟨resignedTransaction.computeTransactionDigest, .OpaqueSignaturePresentUnverified⟩, ?_⟩
  simp only [AuthorityTransactionV1.validate, bind_unit_eq_ok]
  refine ⟨by rfl, by rfl, by rfl, ?_, ?_, rfl⟩
  · exact AuthorityWal.requireDigest_eq_ok.mpr (isDigest_digestCanonical _ _)
  · exact rejectIf_eq_ok.mpr fun h => h rfl

theorem signedRecord_validates [Sha256] (signature : String) (h : signature ≠ "") :
    ∃ validation, (signedRecord signature).validate = .ok validation := by
  obtain ⟨_, htransaction⟩ := landTransaction_validates
  exact storedRecord_validates (transaction_validated htransaction) (by rfl) (by decide) (by decide)
    (by decide) (by decide) h (by simp)

theorem canonical_digests_resigned :
    letI : Sha256 := standardSha256
    resignedTransaction.blanked = landTransaction.blanked ∧
      (signedRecord "once").blanked = (signedRecord "again").blanked ∧
      digestPreimage AUTHORITY_TRANSACTION_DIGEST_DOMAIN [] ≠
        digestPreimage AUTHORITY_WAL_RECORD_DIGEST_DOMAIN [] := by
  let : Sha256 := standardSha256
  obtain ⟨-, hpreimage, htransactions, hrecords⟩ := canonical_digests_injective
  obtain ⟨_, hland⟩ := landTransaction_validates
  obtain ⟨_, hresigned⟩ := resignedTransaction_validates
  obtain ⟨_, honce⟩ := signedRecord_validates "once" (by decide)
  obtain ⟨_, hagain⟩ := signedRecord_validates "again" (by decide)
  refine ⟨htransactions _ _ _ _ ?_ hresigned hland rfl, hrecords _ _ _ _ ?_ honce hagain rfl, ?_⟩
  · have hsame : resignedTransaction.digestMessage = landTransaction.digestMessage := rfl
    rw [hsame]
    simp [CollisionFree]
  · have hsame : (signedRecord "once").digestMessage = (signedRecord "again").digestMessage := rfl
    rw [hsame]
    simp [CollisionFree]
  · intro h
    obtain ⟨hdomain, -⟩ := hpreimage _ _ _ _ (by decide) (by decide) h
    exact absurd hdomain (by decide)

end M1nd.Control
