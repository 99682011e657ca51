import Stet.Legacy
import Stet.Client.Orchestrator

/-!
The earlier client's `Encrypt` and `Decrypt`, on whole buffers.

`Encrypt` splits the DEK by the algorithm of the `KeyConfig` and checks the number of
KEKs against it: one KEK when the DEK is not split, as many KEKs as Shamir shares
otherwise. `Decrypt` combines what the unwrap loop returned by the same algorithm and
checks the length of the DEK it got. Neither checks its pointer arguments: a nil
`EncryptConfig` (or one without a `KeyConfig`) is dereferenced, and so is a nil
`EncryptedData` as soon as there is a configured `KeyConfig` to compare its metadata with.

The collaborators outside the file (`NewDEK`, `SplitShares`, `CombineShares`, `uuid`,
`metadataToAAD`, the AEAD) are a `Pipeline`, as for the current client.
-/

namespace Stet.Legacy

open Stet Stet.Client

/-- The collaborators of the earlier `Encrypt` and `Decrypt`. The ones that draw
randomness answer by the time of the call. -/
structure Pipeline where
  /-- `NewDEK`. -/
  newDEK : Nat → DEK
  /-- `uuid.NewString`. -/
  newString : Nat → String
  /-- `SplitShares(dek, shares, threshold)`. -/
  splitShares : Bytes → Int → Int → Except String (List Bytes)
  /-- `CombineShares`. -/
  combineShares : List Bytes → Except String Bytes
  /-- `metadataToAAD`, of a possibly nil `*Metadata`. -/
  metadataToAAD : Option Metadata → Except String Bytes
  /-- `aeadEncrypt(dek, plaintext, aad)`. -/
  aeadEncrypt : DEK → Bytes → Bytes → Except String Bytes
  /-- `aeadDecrypt(dek, ciphertext, aad)`. -/
  aeadDecrypt : DEK → Bytes → Bytes → Except String Bytes

/-- `configpb.EncryptedData`: the ciphertext and the metadata it was written under. -/
structure EncryptedData where
  ciphertext : Bytes
  metadata : Option Metadata
  deriving DecidableEq, Repr

/-- `DecryptedData`. -/
structure DecryptedData where
  plaintext : Bytes
  keyUris : List String
  blobID : String
  deriving DecidableEq, Repr

/-- `DEKBytes`. -/
def dekBytes : Nat := 32

/-- The key URIs the earlier `Decrypt` reports: every KEK URI of every configured
`KeyConfig`, in order. -/
def configuredKeyURIs (keyConfigs : List KeyConfig) : List String :=
  keyConfigs.flatMap fun kcfg => kcfg.kekInfos.filterMap fun
    | .kekUri uri => some uri
    | _ => none

/-- A pipeline under which every call succeeds but a split into no shares: the DEK is
zero, a split gives the DEK once per share and combining takes the first share, the AAD
is empty, and the AEAD is the identity. -/
def Pipeline.echo : Pipeline where
  newDEK _ := ⟨List.replicate 32 0, rfl⟩
  newString _ := "00000000-0000-4000-8000-000000000000"
  splitShares dek n _ := if 0 < n then .ok (List.replicate n.toNat dek) else .error "no shares"
  combineShares
    | u :: _ => .ok u
    | [] => .error "no shares"
  metadataToAAD _ := .ok []
  aeadEncrypt _ pt _ := .ok pt
  aeadDecrypt _ ct _ := .ok ct

variable (env : Env) (p : Pipeline) (keys : AsymmetricKeys)

/-- The `switch` on the key splitting algorithm in `Encrypt`: the shares of the DEK. -/
def splitDEK (keyCfg : KeyConfig) (dek : DEK) : Go (Sys StetClient) (List Bytes) :=
  match keyCfg.keySplittingAlgorithm with
  | .noSplit =>
      if keyCfg.kekInfos.length ≠ 1 then
        Go.fail ("invalid Encrypt configuration, number of KekInfos is " ++
          toString keyCfg.kekInfos.length ++ " but expected 1 for 'no split' option")
      else pure [dek.bytes]
  | .shamir shares threshold =>
      if (keyCfg.kekInfos.length : Int) ≠ shares then
        Go.fail ("invalid Encrypt configuration, number of KEK Infos does not match the " ++
          "number of shares to generate: found " ++ toString keyCfg.kekInfos.length ++
          " KEK Infos, " ++ toString shares ++ " shares")
      else Go.wrapError "error splitting encryption key: "
        (Go.ofExcept (p.splitShares dek.bytes shares threshold))
  | .unset => Go.fail "Unknown key splitting algorithm"

/-- The earlier `Encrypt`. `config.GetKeyConfig()` is nil for a nil `config`, and the
`switch` reads the algorithm through it. -/
def encrypt (plaintext : Bytes) (config : Option EncryptConfig) (blobID : String) :
    Go (Sys StetClient) EncryptedData := do
  let t := (← get).log.length
  let blobID := if blobID = "" then p.newString t else blobID
  let dataEncryptionKey := p.newDEK t
  match config.bind EncryptConfig.keyConfig with
  | none => Go.crash nilDereference
  | some keyCfg => do
      let shares ← splitDEK p keyCfg dataEncryptionKey
      let wrapped ← Go.wrapError "Error wrapping shares: "
        (wrapShares env keys shares keyCfg.kekInfos)
      let metadata : Metadata := ⟨blobID, some keyCfg, wrapped⟩
      let aad ← Go.wrapError "Error serializing metadata: "
        (Go.ofExcept (p.metadataToAAD (some metadata)))
      let ciphertext ← Go.wrapError "error encrypting data: "
        (Go.ofExcept (p.aeadEncrypt dataEncryptionKey plaintext aad))
      pure ⟨ciphertext, some metadata⟩

/-- The `switch` on the key splitting algorithm in `Decrypt`: the DEK from the unwrapped
shares. -/
def combineDEK (keyCfg : KeyConfig) (unwrappedShares : List Bytes) : Go (Sys StetClient) Bytes :=
  match keyCfg.keySplittingAlgorithm with
  | .noSplit =>
      if unwrappedShares.length ≠ 1 then
        Go.fail ("number of unwrapped shares is " ++ toString unwrappedShares.length ++
          " but expected 1 for 'no split' option")
      else Go.index unwrappedShares 0
  | .shamir _ _ => Go.wrapError "Error combining DEK shares: "
      (Go.ofExcept (p.combineShares unwrappedShares))
  | .unset => Go.fail "Unknown key splitting algorithm"

/-- The loop of the earlier `Decrypt` that looks for the configured `KeyConfig` equal to
the blob's: each iteration reads `data.Metadata`, so a nil `data` is dereferenced at the
first configured `KeyConfig`, and not at all when none is configured. -/
def matchingKeyConfigLoop (data : Option EncryptedData) :
    List KeyConfig → Go (Sys StetClient) (Option KeyConfig)
  | [] => pure none
  | keyCfg :: rest => do
      let d ← Go.deref data
      if some keyCfg = d.metadata.bind Metadata.keyConfig then pure (some keyCfg)
      else matchingKeyConfigLoop data rest

/-- The earlier `Decrypt`. After the loop, `data` is read again, through the metadata
getters (which are nil-safe) and for the ciphertext. -/
def decrypt (data : Option EncryptedData) (config : Option DecryptConfig) :
    Go (Sys StetClient) DecryptedData := do
  let keyConfigs := (config.map DecryptConfig.keyConfigs).getD []
  match ← matchingKeyConfigLoop data keyConfigs with
  | none => Go.fail "no known KeyConfig matches given data"
  | some matchingKeyConfig => do
      let data ← Go.deref data
      let unwrappedShares ← Go.wrapError "error unwrapping and validating shares: "
        (unwrapAndValidateShares env keys ((data.metadata.map Metadata.shares).getD [])
          matchingKeyConfig.kekInfos)
      let combinedShares ← combineDEK p matchingKeyConfig unwrappedShares
      if combinedShares.length ≠ dekBytes then
        Go.fail "Reconstituted DEK has the wrong length"
      else do
        let combinedDEK := DEK.ofSlice combinedShares
        let aad ← Go.wrapError "error serializing metadata: "
          (Go.ofExcept (p.metadataToAAD data.metadata))
        let plaintext ← Go.wrapError "error decrypting data: "
          (Go.ofExcept (p.aeadDecrypt combinedDEK data.ciphertext aad))
        pure ⟨plaintext, configuredKeyURIs keyConfigs,
          (data.metadata.map Metadata.blobId).getD ""⟩

/-! ### Finding the key configuration -/

/-- On data that is not nil, the loop finds what the current client's `matchingKeyConfig`
finds, and changes nothing. -/
theorem matchingKeyConfigLoop_some (d : EncryptedData) (keyConfigs : List KeyConfig) :
    matchingKeyConfigLoop (some d) keyConfigs =
      pure (matchingKeyConfig keyConfigs (d.metadata.bind Metadata.keyConfig)) := by
  induction keyConfigs with
  | nil => rfl
  | cons kc kcs ih =>
      by_cases h : some kc = d.metadata.bind Metadata.keyConfig
      · simp [matchingKeyConfigLoop, matchingKeyConfig, List.find?_cons, h]
      · simp [matchingKeyConfigLoop, matchingKeyConfig, List.find?_cons, h, ih]

/-- On nil data, `Decrypt` reports that no `KeyConfig` matches when none is configured,
and dereferences nil otherwise. -/
theorem decrypt_none (config : Option DecryptConfig) (s : Sys StetClient) :
    decrypt env p keys none config s =
      if (config.map DecryptConfig.keyConfigs).getD [] = [] then
        .error (.error "no known KeyConfig matches given data") s
      else .error (.panic nilDereference) s := by
  unfold decrypt
  cases (config.map DecryptConfig.keyConfigs).getD [] <;> rfl

/-! ### Which panics the orchestrators can raise -/

section Safe

theorem nilSafe_splitDEK (keyCfg : KeyConfig) (dek : DEK) :
    NilSafe (splitDEK p keyCfg dek) fun _ => True := by
  unfold splitDEK
  split
  · split
    exacts [.fail _, .pure trivial]
  · split
    exacts [.fail _, .wrapError _ (.ofExcept _)]
  · exact .fail _

theorem nilSafe_combineDEK (keyCfg : KeyConfig) (unwrappedShares : List Bytes) :
    NilSafe (combineDEK p keyCfg unwrappedShares) fun _ => True := by
  unfold combineDEK
  split
  · split
    · exact .fail _
    · exact .post (.index_of_lt (by omega)) fun _ _ _ _ => trivial
  · exact .wrapError _ (.ofExcept _)
  · exact .fail _

theorem nilSafe_matchingKeyConfigLoop (data : Option EncryptedData) (keyConfigs : List KeyConfig) :
    NilSafe (matchingKeyConfigLoop data keyConfigs) fun _ => True := by
  induction keyConfigs with
  | nil => exact .pure trivial
  | cons kc kcs ih => exact .bind (.deref _) fun _ _ => by split; exacts [.pure trivial, ih]

/-- Every panic of the earlier `Encrypt` and `Decrypt` is a nil dereference: of the nil
configuration or data they were given, or of a nil client or wrapper in the share loops.
Neither indexes out of range, the single share of an unsplit DEK included. -/
theorem orchestrators_nilSafe (plaintext : Bytes) (encryptConfig : Option EncryptConfig)
    (blobID : String) (data : Option EncryptedData) (decryptConfig : Option DecryptConfig) :
    NilSafe (encrypt env p keys plaintext encryptConfig blobID) (fun _ => True) ∧
      NilSafe (decrypt env p keys data decryptConfig) (fun _ => True) := by
  refine ⟨.get_bind fun _ => ?_, ?_⟩
  · dsimp only
    split
    · exact .deref none
    · exact .bind (nilSafe_splitDEK p _ _) fun _ _ =>
        .bind (.wrapError _ (nilSafe_wrapShares env keys _ _)) fun _ _ =>
          .bind (.wrapError _ (.ofExcept _)) fun _ _ =>
            .bind (.wrapError _ (.ofExcept _)) fun _ _ => .pure trivial
  · refine .bind (nilSafe_matchingKeyConfigLoop _ _) fun o _ => ?_
    split
    · exact .fail _
    · refine .bind (.deref _) fun _ _ =>
        .bind (.wrapError _ (nilSafe_unwrapAndValidateShares env keys _ _)) fun _ _ =>
          .bind (nilSafe_combineDEK p _ _) fun _ _ => ?_
      split
      · exact .fail _
      · exact .bind (.wrapError _ (.ofExcept _)) fun _ _ =>
          .bind (.wrapError _ (.ofExcept _)) fun _ _ => .pure trivial

end Safe

end Stet.Legacy
