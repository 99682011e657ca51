import Stet.Client.Shares
import Stet.Container
import Stet.Codec

/-!
`Encrypt` and `Decrypt`, the entry points of `client.go`.

`Encrypt` splits a fresh DEK into shares, wraps them, and writes the container: the
header, the serialised metadata, and the AEAD stream of the input under the metadata's
AAD. `Decrypt` reads the metadata back, takes the first configured `KeyConfig` equal to
the blob's, unwraps and validates the shares, combines what it kept into the DEK, and
writes the decryption of the rest of the input.

The collaborators outside `client.go` (the `shares` package's DEK and share codec,
`uuid`, proto serialisation, `MetadataToAAD`, the AEAD streams, the output writer) are a
`Pipeline`, so a theorem over every pipeline covers every behaviour of them;
`Pipeline.Inverts` collects the contracts a round trip takes them at. A write to the output
can take only part of its bytes and fail, and each AEAD streams into the output: what it
wrote before it failed stays written.

`encrypt_eq_ok` and `decrypt_eq_ok` say what a successful call computed, step by step;
`encrypt_of_ok` and `decrypt_of_ok` run a call from the results of its steps.
-/

namespace Stet.Client

open Stet

/-- The collaborators of `Encrypt` and `Decrypt` outside `client.go`. The ones that draw
randomness answer by the time of the call. -/
structure Pipeline where
  /-- `shares.NewDEK`. -/
  newDEK : Nat → DEK
  /-- `shares.CreateDEKShares`. -/
  createDEKShares : DEK → Option KeyConfig → Except String (List Bytes)
  /-- `shares.CombineUnwrappedShares`. -/
  combineUnwrappedShares : KeyConfig → List UnwrappedShare → Except String Bytes
  /-- `uuid.NewString`. -/
  newString : Nat → String
  /-- `MetadataToAAD`. -/
  metadataToAAD : Metadata → Except String Bytes
  /-- `proto.Marshal`. -/
  marshal : Metadata → Except String Bytes
  /-- `proto.Unmarshal`, as `ReadMetadata` calls it. -/
  unmarshal : Bytes → Except String Metadata
  /-- `output.Write`, on what was written so far: `none` when it takes every byte, or the
  number of bytes it took before it failed, and its error. -/
  write : Bytes → Bytes → Option (Nat × String)
  /-- `AeadEncrypt`, which streams into the output: the ciphertext it writes for the
  plaintext under the key and the AAD, and the error it stops with, if any. -/
  aeadEncrypt : DEK → Bytes → Bytes → Bytes × Option String
  /-- `AeadDecrypt`, which streams the plaintext into the output the same way. -/
  aeadDecrypt : DEK → Bytes → Bytes → Bytes × Option String

/-- The contracts of the collaborators a round trip needs: combining every share of a
split gives the DEK back, AEAD decryption inverts encryption under the same AAD,
unmarshalling inverts marshalling, and the output takes every write. -/
structure Pipeline.Inverts (p : Pipeline) : Prop where
  combine : ∀ dek cfg pts, p.createDEKShares dek (some cfg) = .ok pts →
    ∀ us : List UnwrappedShare, us.map UnwrappedShare.share = pts →
      p.combineUnwrappedShares cfg us = .ok dek.bytes
  aead : ∀ k pt aad ct, p.aeadEncrypt k pt aad = (ct, none) → p.aeadDecrypt k ct aad = (pt, none)
  proto : ∀ m b, p.marshal m = .ok b → p.unmarshal b = .ok m
  write : ∀ o b, p.write o b = none

/-- `keyCfg.GetKekInfos()`: none for a nil `KeyConfig`. -/
def getKekInfos : Option KeyConfig → List KekInfo
  | some c => c.kekInfos
  | none => []

/-- `output.Write(b)`: the bytes the writer took are written, and its error returned. -/
def writeOutput (p : Pipeline) (b : Bytes) : Go (Sys StetClient) Unit := fun s =>
  match p.write s.output b with
  | none => .ok () { s with output := s.output ++ b }
  | some (n, e) => .error (.error e) { s with output := s.output ++ b.take n }

/-- An AEAD stream into the output: the bytes it produced go through the writer, then the
stream's own error, if any, is returned. -/
def writeStream (p : Pipeline) (stream : Bytes × Option String) : Go (Sys StetClient) Unit := do
  writeOutput p stream.1
  match stream.2 with
  | some e => Go.fail e
  | none => pure ()

/-- The first configured `KeyConfig` that `proto.Equal` finds equal to the blob's. -/
def matchingKeyConfig (keyConfigs : List KeyConfig) (keyConfig : Option KeyConfig) :
    Option KeyConfig :=
  keyConfigs.find? fun c => some c = keyConfig

/-- The key URIs `Decrypt` returns: those of the unwrapped shares that are not empty. -/
def usedKeyURIs (unwrappedShares : List UnwrappedShare) : List String :=
  (unwrappedShares.map UnwrappedShare.uri).filter (· ≠ "")

variable (env : Env) (p : Pipeline) (keys : AsymmetricKeys)

/-- `Encrypt`. -/
def encrypt (input : Bytes) (config : Option EncryptConfig) (blobID : String) :
    Go (Sys StetClient) StetMetadata :=
  match config with
  | none => Go.fail "nil EncryptConfig passed to Encrypt()"
  | some config => do
      let keyCfg := config.keyConfig
      let t := (← get).log.length
      let dataEncryptionKey := p.newDEK t
      let shares ← Go.wrapError "error creating DEK shares: "
        (Go.ofExcept (p.createDEKShares dataEncryptionKey keyCfg))
      let blobID := if blobID = "" then p.newString t else blobID
      let (wrapped, keyURIs) ← Go.wrapError "error wrapping shares: "
        (wrapShares env keys shares (getKekInfos keyCfg))
      let metadata : Metadata := ⟨blobID, keyCfg, wrapped⟩
      let aad ← Go.wrapError "error serializing metadata: "
        (Go.ofExcept (p.metadataToAAD metadata))
      let metadataBytes ← Go.wrapError "failed to serialize metadata: "
        (Go.ofExcept (p.marshal metadata))
      Go.wrapError "failed to write encrypted file header: "
        (writeOutput p (writeSTETHeader metadataBytes.length))
      Go.wrapError "failed to write metadata: " (writeOutput p metadataBytes)
      Go.wrapError "error encrypting data: "
        (writeStream p (p.aeadEncrypt dataEncryptionKey input aad))
      pure ⟨keyURIs, metadata.blobId⟩

/-- `Decrypt`. -/
def decrypt (input : Bytes) (config : Option DecryptConfig) : Go (Sys StetClient) StetMetadata :=
  match config with
  | none => Go.fail "nil DecryptConfig passed to Decrypt()"
  | some config => do
      let (metadata, rest) ← Go.wrapError "error reading metadata: "
        (Go.ofExcept (readMetadata p.unmarshal input))
      match matchingKeyConfig config.keyConfigs metadata.keyConfig with
      | none => Go.fail "no known KeyConfig matches given data"
      | some matchingKeyConfig => do
          let unwrappedShares ← Go.wrapError "error unwrapping and validating shares: "
            (unwrapAndValidateShares env keys metadata.shares matchingKeyConfig.kekInfos)
          let combinedShares ← Go.wrapError "error combining unwrapped shares: "
            (Go.ofExcept (p.combineUnwrappedShares matchingKeyConfig unwrappedShares))
          let combinedDEK := DEK.ofSlice combinedShares
          let aad ← Go.wrapError "error serializing metadata: "
            (Go.ofExcept (p.metadataToAAD metadata))
          Go.wrapError "error decrypting data: "
            (writeStream p (p.aeadDecrypt combinedDEK rest aad))
          pure ⟨usedKeyURIs unwrappedShares, metadata.blobId⟩

/-! ### Finding the key configuration -/

theorem matchingKeyConfig_of_mem {kc : KeyConfig} {keyConfigs : List KeyConfig}
    (h : kc ∈ keyConfigs) : matchingKeyConfig keyConfigs (some kc) = some kc := by
  obtain ⟨c, hc⟩ : ∃ c, matchingKeyConfig keyConfigs (some kc) = some c :=
    Option.isSome_iff_exists.mp (List.find?_isSome.mpr ⟨kc, h, by simp⟩)
  obtain rfl : c = kc := by simpa using List.find?_some hc
  exact hc

theorem matchingKeyConfig_eq_some {keyConfigs : List KeyConfig} {o : Option KeyConfig}
    {kc : KeyConfig} (h : matchingKeyConfig keyConfigs o = some kc) :
    o = some kc ∧ kc ∈ keyConfigs :=
  ⟨(by simpa using List.find?_some h : some kc = o).symm, List.mem_of_find?_eq_some h⟩

/-! ### Writing the output -/

section Write

variable {p : Pipeline} {s s' : Sys StetClient}

theorem writeOutput_eq_ok {b : Bytes} {u : Unit} :
    writeOutput p b s = .ok u s' ↔
      p.write s.output b = none ∧ s' = { s with output := s.output ++ b } := by
  unfold writeOutput
  cases p.write s.output b with
  | none => simp [eq_comm]
  | some ne => simp

theorem writeStream_eq_ok {stream : Bytes × Option String} {u : Unit} :
    writeStream p stream s = .ok u s' ↔
      p.write s.output stream.1 = none ∧ stream.2 = none ∧
        s' = { s with output := s.output ++ stream.1 } := by
  obtain ⟨b, err⟩ := stream
  simp only [writeStream, Go.bind_eq_ok, writeOutput_eq_ok]
  cases err <;> simp [and_comm, eq_comm]

/-- A write changes nothing but the output. -/
theorem writeOutput_frame (b : Bytes) (s : Sys StetClient) :
    ∃ o, resultState (writeOutput p b s) = { s with output := o } := by
  unfold writeOutput
  split <;> exact ⟨_, rfl⟩

theorem writeStream_frame (stream : Bytes × Option String) (s : Sys StetClient) :
    ∃ o, resultState (writeStream p stream s) = { s with output := o } := by
  obtain ⟨o, ho⟩ := writeOutput_frame (p := p) stream.1 s
  rw [writeStream, Go.bind_apply]
  cases hw : writeOutput p stream.1 s with
  | ok _ s₁ =>
      rw [hw] at ho
      cases ho
      cases stream.2 <;> exact ⟨o, rfl⟩
  | error _ s₁ =>
      rw [hw] at ho
      exact ⟨o, ho⟩

/-- A writer that takes every write appends the stream of an AEAD that does not fail. -/
theorem writeStream_of_ok (hw : ∀ o b, p.write o b = none) (b : Bytes) :
    writeStream p (b, none) s = .ok () { s with output := s.output ++ b } := by
  simp [writeStream, writeOutput, hw, Go.bind_apply]

end Write

/-! ### What a successful call computed -/

section Steps

variable {env p keys} {input : Bytes} {s s' : Sys StetClient}

/-- A successful `Encrypt` split the DEK of its time into shares, wrapped them, and
wrote the header, the marshalled metadata and the AEAD stream after what was there. -/
theorem encrypt_eq_ok {cfg : EncryptConfig} {blobID : String} {md : StetMetadata}
    (h : encrypt env p keys input (some cfg) blobID s = .ok md s') :
    ∃ pts ws s₁ aad mbytes ct,
      p.createDEKShares (p.newDEK s.log.length) cfg.keyConfig = .ok pts ∧
      wrapShares env keys pts (getKekInfos cfg.keyConfig) s = .ok (ws, md.keyUris) s₁ ∧
      md.blobId = (if blobID = "" then p.newString s.log.length else blobID) ∧
      p.metadataToAAD ⟨md.blobId, cfg.keyConfig, ws⟩ = .ok aad ∧
      p.marshal ⟨md.blobId, cfg.keyConfig, ws⟩ = .ok mbytes ∧
      p.aeadEncrypt (p.newDEK s.log.length) input aad = (ct, none) ∧
      s' = { s₁ with output := s₁.output ++ writeSTETHeader mbytes.length ++ mbytes ++ ct } := by
  simp only [encrypt, Go.bind_eq_ok, Go.wrapError_eq_ok, Go.ofExcept_eq_ok, Go.get_apply,
    writeOutput_eq_ok, writeStream_eq_ok, EStateM.Result.ok.injEq, Go.pure_eq_ok, exists_and_left,
    exists_eq_left, exists_eq_left', Prod.exists, and_assoc] at h
  obtain ⟨pts, hc, ws, uris, s₁, hw, aad, ha, mbytes, hm, -, -, -, he, rfl, -, -, -, rfl⟩ := h
  exact ⟨pts, ws, s₁, aad, mbytes, _, hc, hw, rfl, ha, hm, Prod.ext rfl he, by simp⟩

/-- `Encrypt` run from the results of its steps, on an output that takes every write. -/
theorem encrypt_of_ok (hwr : ∀ o b, p.write o b = none) {cfg : EncryptConfig}
    {blobID blob : String} {pts : List Bytes} {ws : List WrappedShare} {uris : List String}
    {s₁ : Sys StetClient} {aad mbytes ct : Bytes}
    (hc : p.createDEKShares (p.newDEK s.log.length) cfg.keyConfig = .ok pts)
    (hb : (if blobID = "" then p.newString s.log.length else blobID) = blob)
    (hw : wrapShares env keys pts (getKekInfos cfg.keyConfig) s = .ok (ws, uris) s₁)
    (ha : p.metadataToAAD ⟨blob, cfg.keyConfig, ws⟩ = .ok aad)
    (hm : p.marshal ⟨blob, cfg.keyConfig, ws⟩ = .ok mbytes)
    (he : p.aeadEncrypt (p.newDEK s.log.length) input aad = (ct, none)) :
    encrypt env p keys input (some cfg) blobID s = .ok ⟨uris, blob⟩
      { s₁ with output := s₁.output ++ writeSTETHeader mbytes.length ++ mbytes ++ ct } := by
  subst hb
  simp only [encrypt, Go.bind_apply, Go.get_apply, Go.wrapError, Go.ofExcept, hc, hw, ha, hm, he,
    writeOutput, hwr, writeStream_of_ok hwr, Go.pure_apply, List.append_assoc]

/-- A successful `Decrypt` read the metadata and found its `KeyConfig` among the
configured ones, kept the shares that unwrapped and validated, combined them into the
DEK, and wrote the decryption of the rest of the input after what was there. -/
theorem decrypt_eq_ok {cfg : DecryptConfig} {md : StetMetadata}
    (h : decrypt env p keys input (some cfg) s = .ok md s') :
    ∃ metadata rest kc us s₁ combined aad pt,
      readMetadata p.unmarshal input = .ok (metadata, rest) ∧
      matchingKeyConfig cfg.keyConfigs metadata.keyConfig = some kc ∧
      unwrapAndValidateShares env keys metadata.shares kc.kekInfos s = .ok us s₁ ∧
      p.combineUnwrappedShares kc us = .ok combined ∧
      p.metadataToAAD metadata = .ok aad ∧
      p.aeadDecrypt (DEK.ofSlice combined) rest aad = (pt, none) ∧
      md = ⟨usedKeyURIs us, metadata.blobId⟩ ∧ s' = { s₁ with output := s₁.output ++ pt } := by
  simp only [decrypt, Go.bind_eq_ok, Go.wrapError_eq_ok, Go.ofExcept_eq_ok] at h
  obtain ⟨⟨metadata, rest⟩, _, ⟨hr, rfl⟩, h⟩ := h
  cases hk : matchingKeyConfig cfg.keyConfigs metadata.keyConfig with
  | none => simp [hk] at h
  | some kc =>
      simp only [hk, Go.bind_eq_ok, Go.wrapError_eq_ok, Go.ofExcept_eq_ok, writeStream_eq_ok,
        EStateM.Result.ok.injEq, Go.pure_eq_ok] at h
      obtain ⟨us, s₁, hu, combined, _, ⟨hc, rfl⟩, aad, _, ⟨ha, rfl⟩, _, _, ⟨-, hd, rfl⟩,
        rfl, rfl⟩ := h
      exact ⟨metadata, rest, kc, us, _, combined, aad, _, hr, hk, hu, hc, ha, Prod.ext rfl hd,
        rfl, rfl⟩

/-- `Decrypt` run from the results of its steps, on an output that takes every write. -/
theorem decrypt_of_ok (hwr : ∀ o b, p.write o b = none) {cfg : DecryptConfig}
    {metadata : Metadata} {rest : Bytes}
    {kc : KeyConfig} {us : List UnwrappedShare} {s₁ : Sys StetClient} {combined aad pt : Bytes}
    (hr : readMetadata p.unmarshal input = .ok (metadata, rest))
    (hk : matchingKeyConfig cfg.keyConfigs metadata.keyConfig = some kc)
    (hu : unwrapAndValidateShares env keys metadata.shares kc.kekInfos s = .ok us s₁)
    (hc : p.combineUnwrappedShares kc us = .ok combined)
    (ha : p.metadataToAAD metadata = .ok aad)
    (hd : p.aeadDecrypt (DEK.ofSlice combined) rest aad = (pt, none)) :
    decrypt env p keys input (some cfg) s =
      .ok ⟨usedKeyURIs us, metadata.blobId⟩ { s₁ with output := s₁.output ++ pt } := by
  simp only [decrypt, Go.bind_apply, Go.wrapError, Go.ofExcept, hr, hk, hu, hc, ha, hd,
    writeStream_of_ok hwr, Go.pure_apply]

end Steps

/-! ### A pipeline that inverts itself -/

/-- A pipeline under which every call succeeds: the DEK is zero, every KEK gets a copy of
it as its share and combining takes the first share, the metadata is written in the
canonical encoding of `Codec.metadata`, and the AEAD stream is the identity. -/
def Pipeline.echo : Pipeline where
  newDEK _ := ⟨List.replicate 32 0, rfl⟩
  createDEKShares dek
    | some c => if c.kekInfos = [] then .error "no KEKs" else .ok (c.kekInfos.map fun _ => dek.bytes)
    | none => .error "nil KeyConfig"
  combineUnwrappedShares _
    | u :: _ => .ok u.share
    | [] => .error "no shares"
  newString _ := "00000000-0000-4000-8000-000000000000"
  metadataToAAD m := .ok (Codec.metadata.write m)
  marshal m := .ok (Codec.metadata.write m)
  unmarshal b := match Codec.metadata.read b with
    | some (m, []) => .ok m
    | _ => .error "proto: cannot parse invalid wire-format data"
  write _ _ := none
  aeadEncrypt _ pt _ := (pt, none)
  aeadDecrypt _ ct _ := (ct, none)

theorem inverts_echo : Pipeline.echo.Inverts where
  combine dek cfg pts hc us hu := by
    simp only [Pipeline.echo] at hc
    split at hc
    · cases hc
    · rename_i hne
      cases hc
      obtain ⟨k, ks, hk⟩ := List.exists_cons_of_ne_nil hne
      rw [hk] at hu
      obtain ⟨u, us, rfl⟩ := List.exists_cons_of_ne_nil (show us ≠ [] by rintro rfl; cases hu)
      simp only [List.map_cons, List.cons.injEq] at hu
      simp [Pipeline.echo, hu.1]
  aead _ _ _ _ h := by cases h; rfl
  proto m b h := by
    cases h
    have hr := Codec.metadata.read_write m []
    rw [List.append_nil] at hr
    simp [Pipeline.echo, hr]
  write _ _ := rfl

end Stet.Client
