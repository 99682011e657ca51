import Stet.Client.Orchestrator

/-!
Which panics the client can raise. The share loops have two: a KEK URI after a failed
constructor calls the typed nil client the constructor left in the field, and a Cloud KMS
answer without a checksum wrapper is read through nil. Both are nil dereferences, and
there is no other kind: every index the client takes is in range, since both share loops
run only when there are as many KEKs as shares.

The rules for the calls both clients make (the constructor, the Cloud KMS calls, the
secure session) are stated once here, over the parts the versions share, and the earlier
client's development uses them too.
-/

namespace Stet.Client

open Stet

section Shared

variable (env : Env) {C : Type}

theorem nilSafe_initializeKMSClientAs [HasKmsClient C] (userAgentOf : C → String) :
    NilSafe (initializeKMSClientAs env userAgentOf) fun _ => True := by
  refine .get_bind fun s => ?_
  dsimp only
  split
  · refine .bind (nilSafe_newKeyManagementClient env _) fun ⟨h, err⟩ _ =>
      .bind (.modify _) fun _ _ => ?_
    split
    exacts [.fail _, .pure trivial]
  · exact .pure trivial

theorem nilSafe_getKekURIMetadata (h : KmsHandle) (kek : KekInfo) :
    NilSafe (getKekURIMetadata env h kek : Go (Sys C) _) fun _ => True := by
  cases kek with
  | kekUri uri =>
      simp only [getKekURIMetadata]
      split
      · exact .fail _
      · exact .bind (.wrapError _ (nilSafe_kmsCall _ _ _)) fun _ _ => .ofExcept _
  | rsaFingerprint _ | unset => exact .fail _

theorem nilSafe_wrapKMSShareOn (h : KmsHandle) (share : Bytes) (keyName : String) :
    NilSafe (wrapKMSShareOn env h share keyName : Go (Sys C) _) fun _ => True := by
  refine .bind (.wrapError _ (nilSafe_kmsCall _ _ _)) fun r _ => ?_
  split
  · exact .fail _
  · exact .bind (.deref _) fun _ _ => by split <;> first | exact .fail _ | exact .pure trivial

theorem nilSafe_unwrapKMSShareOn (h : KmsHandle) (wrapped : Bytes) (keyName : String) :
    NilSafe (unwrapKMSShareOn env h wrapped keyName : Go (Sys C) _) fun _ => True :=
  .bind (.wrapError _ (nilSafe_kmsCall _ _ _)) fun _ _ => .bind (.deref _) fun _ _ => by
    split <;> first | exact .fail _ | exact .pure trivial

theorem nilSafe_ekmSecureSessionWith {parse : String → Except String (String × String)}
    {clientFor : String → Go (Sys C) SessionClient}
    (hc : ∀ addr, NilSafe (clientFor addr) fun _ => True) (op : SessionOp) (pre : String)
    (payload : Bytes) (md : KekMetadata) :
    NilSafe (ekmSecureSessionWith env parse clientFor op pre payload md) fun _ => True := by
  have hop : ∀ sc kp, NilSafe (op.call env sc kp md.resourceName payload : Go (Sys C) _)
      fun _ => True := by
    intro sc kp
    cases op <;> simp only [SessionOp.call, confidentialWrap, confidentialUnwrap] <;>
      exact nilSafe_external _ _
  exact .bind (.ofExcept _) fun ⟨addr, kp⟩ _ => .bind (hc addr) fun sc _ =>
    .bind (.wrapError _ (hop sc kp)) fun _ _ =>
      .bind (.wrapError _ (nilSafe_external _ _)) fun _ _ => .pure trivial

end Shared

section Safe

variable (env : Env) (keys : AsymmetricKeys)

theorem nilSafe_ekmSecureSession (op : SessionOp) (pre : String) (payload : Bytes)
    (md : KekMetadata) : NilSafe (ekmSecureSession env op pre payload md) fun _ => True :=
  nilSafe_ekmSecureSessionWith env (fun addr => .get_bind fun s => by
    dsimp only
    split
    · exact .pure trivial
    · exact .bind (nilSafe_external _ _) fun _ _ => .wrapError _ (nilSafe_external _ _)) op pre
    payload md

theorem nilSafe_wrapWithMetadata (kmd : KekMetadata) (share : Bytes) :
    NilSafe (wrapWithMetadata env kmd share) fun _ => True := by
  unfold wrapWithMetadata
  split
  all_goals first
    | exact .wrapError _ (.get_bind fun _ => nilSafe_wrapKMSShareOn env _ _ _)
    | exact .wrapError _ (nilSafe_ekmSecureSession env _ _ _ _)
    | exact .fail _

theorem nilSafe_unwrapWithMetadata (kmd : KekMetadata) (w : WrappedShare) :
    NilSafe (unwrapWithMetadata env kmd w) fun _ => True := by
  unfold unwrapWithMetadata
  split
  all_goals first
    | exact .attempt (.get_bind fun _ => nilSafe_unwrapKMSShareOn env _ _ _)
    | exact .attempt (nilSafe_ekmSecureSession env _ _ _ _)
    | exact .pure trivial

theorem nilSafe_wrapShare (kek : KekInfo) (share : Bytes) :
    NilSafe (wrapShare env keys kek share) fun _ => True := by
  cases kek with
  | rsaFingerprint _ =>
      exact .bind (.wrapError _ (.ofExcept _)) fun _ _ =>
        .bind (.wrapError _ (.ofExcept _)) fun _ _ => .pure trivial
  | kekUri _ =>
      exact .bind (.wrapError _ (nilSafe_initializeKMSClientAs env _)) fun _ _ =>
        .bind (.modify _) fun _ _ => .get_bind fun _ =>
          .bind (.wrapError _ (nilSafe_getKekURIMetadata env _ _)) fun _ _ =>
            .bind (nilSafe_wrapWithMetadata env _ _) fun _ _ => .pure trivial
  | unset => exact .fail _

theorem nilSafe_unwrapShare (kek : KekInfo) (w : WrappedShare) :
    NilSafe (unwrapShare env keys kek w) fun _ => True := by
  cases kek with
  | rsaFingerprint _ =>
      simp only [unwrapShare]
      split
      · exact .pure trivial
      · split <;> exact .pure trivial
  | kekUri _ =>
      refine .bind (.attempt (nilSafe_initializeKMSClientAs env _)) fun r _ => ?_
      cases r
      · exact .pure trivial
      exact .bind (.modify _) fun _ _ => .get_bind fun _ =>
        .bind (.wrapError _ (nilSafe_getKekURIMetadata env _ _)) fun _ _ =>
          .bind (nilSafe_unwrapWithMetadata env _ _) fun r _ => by cases r <;> exact .pure trivial
  | unset => exact .pure trivial

theorem nilSafe_unwrapAndValidateShare (kek : KekInfo) (w : WrappedShare) :
    NilSafe (unwrapAndValidateShare env keys kek w) fun _ => True :=
  .bind (nilSafe_unwrapShare env keys kek w) fun _ _ => .pure trivial

variable {env keys} {kekInfos : List KekInfo}

theorem nilSafe_wrapSharesLoop {i : Nat} {shares : List Bytes}
    (hi : i + shares.length ≤ kekInfos.length) :
    NilSafe (wrapSharesLoop env keys kekInfos i shares) fun _ => True := by
  induction shares generalizing i with
  | nil => exact .pure trivial
  | cons share rest ih =>
      simp only [List.length_cons] at hi
      exact .bind (.index_of_lt (by omega)) fun _ _ =>
        .bind (nilSafe_wrapShare env keys _ _) fun _ _ =>
          .bind (ih (by omega)) fun _ _ => .pure trivial

theorem nilSafe_unwrapAndValidateLoop {i : Nat} {ws : List WrappedShare}
    (hi : i + ws.length ≤ kekInfos.length) :
    NilSafe (unwrapAndValidateLoop env keys kekInfos i ws) fun _ => True := by
  induction ws generalizing i with
  | nil => exact .pure trivial
  | cons w rest ih =>
      simp only [List.length_cons] at hi
      exact .bind (.index_of_lt (by omega)) fun _ _ =>
        .bind (nilSafe_unwrapAndValidateShare env keys _ _) fun _ _ =>
          .bind (ih (by omega)) fun _ _ => .pure trivial

variable (env keys)

theorem nilSafe_wrapShares (shares : List Bytes) (kekInfos : List KekInfo) :
    NilSafe (wrapShares env keys shares kekInfos) fun _ => True := by
  refine nilSafe_withDeferred ?_
  split
  · exact .fail _
  · exact nilSafe_wrapSharesLoop (by omega)

theorem nilSafe_unwrapAndValidateShares (ws : List WrappedShare) (kekInfos : List KekInfo) :
    NilSafe (unwrapAndValidateShares env keys ws kekInfos) fun _ => True := by
  refine nilSafe_withDeferred ?_
  split
  · exact .fail _
  · exact nilSafe_unwrapAndValidateLoop (by omega)

variable (p : Pipeline)

theorem nilSafe_writeOutput (b : Bytes) : NilSafe (writeOutput p b) fun _ => True := by
  refine ⟨fun s m s' h => ?_, fun _ _ _ _ => trivial⟩
  unfold writeOutput at h
  split at h <;> cases h

theorem nilSafe_writeStream (stream : Bytes × Option String) :
    NilSafe (writeStream p stream) fun _ => True :=
  .bind (nilSafe_writeOutput p _) fun _ _ => by
    split
    exacts [.fail _, .pure trivial]

theorem nilSafe_encrypt (input : Bytes) (config : Option EncryptConfig) (blobID : String) :
    NilSafe (encrypt env p keys input config blobID) fun _ => True := by
  cases config with
  | none => exact .fail _
  | some config =>
      exact .get_bind fun _ => .bind (.wrapError _ (.ofExcept _)) fun _ _ =>
        .bind (.wrapError _ (nilSafe_wrapShares env keys _ _)) fun _ _ =>
          .bind (.wrapError _ (.ofExcept _)) fun _ _ =>
            .bind (.wrapError _ (.ofExcept _)) fun _ _ =>
              .bind (.wrapError _ (nilSafe_writeOutput p _)) fun _ _ =>
                .bind (.wrapError _ (nilSafe_writeOutput p _)) fun _ _ =>
                  .bind (.wrapError _ (nilSafe_writeStream p _)) fun _ _ => .pure trivial

theorem nilSafe_decrypt (input : Bytes) (config : Option DecryptConfig) :
    NilSafe (decrypt env p keys input config) fun _ => True := by
  cases config with
  | none => exact .fail _
  | some config =>
      refine .bind (.wrapError _ (.ofExcept _)) fun ⟨metadata, rest⟩ _ => ?_
      dsimp only
      split
      · exact .fail _
      · exact .bind (.wrapError _ (nilSafe_unwrapAndValidateShares env keys _ _)) fun _ _ =>
          .bind (.wrapError _ (.ofExcept _)) fun _ _ =>
            .bind (.wrapError _ (.ofExcept _)) fun _ _ =>
              .bind (.wrapError _ (nilSafe_writeStream p _)) fun _ _ => .pure trivial

end Safe

/-- Every panic of `Encrypt` and `Decrypt`, for every input and every behaviour of the
backends and the collaborators, is a nil dereference: of the typed nil client a failed
constructor left in the field, or of a missing checksum wrapper. No index the client takes
is ever out of range. -/
theorem encrypt_decrypt_panics (env : Env) (p : Pipeline) (keys : AsymmetricKeys)
    (plaintext blob : Bytes) (encryptConfig : Option EncryptConfig) (blobID : String)
    (decryptConfig : Option DecryptConfig) :
    (∀ s m s', encrypt env p keys plaintext encryptConfig blobID s = .error (.panic m) s' →
      m = nilDereference) ∧
    (∀ s m s', decrypt env p keys blob decryptConfig s = .error (.panic m) s' →
      m = nilDereference) :=
  ⟨(nilSafe_encrypt env keys p plaintext encryptConfig blobID).panics,
    (nilSafe_decrypt env keys p blob decryptConfig).panics⟩

end Stet.Client
