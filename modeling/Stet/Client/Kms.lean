import Stet.World

/-!
The Cloud KMS half of `client.go`: building the KMS client, wrapping and unwrapping a
share with CRC32C guards on both directions, and reading a KEK's metadata.

`wrapKMSShareOn` and `unwrapKMSShareOn` take the KMS client as an argument, as the
whole-buffer client of the earlier version has them; the methods of this client read it
from the `StetClient`. `kekMetadataOf` is the check of the primary key version that
`getKekURIMetadata` makes once `GetCryptoKey` has answered, which the earlier client's
`protectionLevelsAndUris` makes too.

For a live client every call here is a function of the time it is made: the
`*_of_live` lemmas say so, and the `*_sound` lemmas say what the service must have
answered for a call to return.
-/

namespace Stet.Client

open Stet

/-! ### CRC32C -/

/-- One byte into a CRC-32C (Castagnoli, reflected polynomial `0x82F63B78`). -/
def crc32cByte (crc : UInt32) (b : UInt8) : UInt32 :=
  (List.range 8).foldl (fun c _ => if c &&& 1 = 1 then (c >>> 1) ^^^ 0x82F63B78 else c >>> 1)
    (crc ^^^ b.toUInt32)

/-- `crc32c`: `crc32.Checksum(data, crc32.MakeTable(crc32.Castagnoli))`. -/
def crc32c (data : Bytes) : UInt32 := data.foldl crc32cByte 0xFFFFFFFF ^^^ 0xFFFFFFFF

/-- `int64(crc32c(data))`, as the requests carry it and the responses are compared
with it. -/
def crcValue (data : Bytes) : Int := (crc32c data).toNat

/-! ### The KMS client -/

/-- The user agent of Cloud KMS calls: `STET/` and the version, `dev` when unset. -/
def userAgent (version : String) : String :=
  "STET/" ++ if version ≠ "" then version else "dev"

variable (env : Env)

/-- The body of `initializeKMSClient` in both versions of the client, which differ only in
the user agent: a no-op when the field is not nil; otherwise the field takes what the
constructor returned, the nil client included when it failed. -/
def initializeKMSClientAs {C : Type} [HasKmsClient C] (userAgentOf : C → String) :
    Go (Sys C) Unit := do
  let c := (← get).client
  if HasKmsClient.kmsClient c = .nil then
    let (h, err) ← newKeyManagementClient env (userAgentOf c)
    modify fun s => { s with client := HasKmsClient.setKmsClient s.client h }
    match err with
    | some e => Go.fail ("error creating KMS client: " ++ e)
    | none => pure ()

/-- `initializeKMSClient`, with the user agent of the client's version. -/
def initializeKMSClient : Go (Sys StetClient) Unit :=
  initializeKMSClientAs env fun c => userAgent c.version

/-! ### Wrapping and unwrapping through Cloud KMS -/

/-- The body of `wrapKMSShare`, on the KMS client `h`. -/
def wrapKMSShareOn {C : Type} (h : KmsHandle) (share : Bytes) (keyName : String) :
    Go (Sys C) Bytes := do
  let result ← Go.wrapError "failed to encrypt: "
    (kmsEncrypt env h ⟨keyName, share, some (crcValue share)⟩)
  if !result.verifiedPlaintextCrc32C then Go.fail "Encrypt: request corrupted in-transit"
  else
    let v ← Go.deref result.ciphertextCrc32C
    if crcValue result.ciphertext ≠ v then Go.fail "Encrypt: response corrupted in-transit"
    else pure result.ciphertext

/-- `wrapKMSShare`. -/
def wrapKMSShare (share : Bytes) (keyName : String) : Go (Sys StetClient) Bytes := do
  wrapKMSShareOn env (← get).client.kmsClient share keyName

/-- The body of `unwrapKMSShare`, on the KMS client `h`. -/
def unwrapKMSShareOn {C : Type} (h : KmsHandle) (wrappedShare : Bytes) (keyName : String) :
    Go (Sys C) Bytes := do
  let result ← Go.wrapError "failed to decrypt ciphertext: "
    (kmsDecrypt env h ⟨keyName, wrappedShare, some (crcValue wrappedShare)⟩)
  let v ← Go.deref result.plaintextCrc32C
  if crcValue result.plaintext ≠ v then Go.fail "Decrypt: response corrupted in-transit"
  else pure result.plaintext

/-- `unwrapKMSShare`. -/
def unwrapKMSShare (wrappedShare : Bytes) (keyName : String) : Go (Sys StetClient) Bytes := do
  unwrapKMSShareOn env (← get).client.kmsClient wrappedShare keyName

/-! ### KEK metadata -/

/-- `kekMetadata`; the zero value is `default`. -/
structure KekMetadata where
  protectionLevel : ProtectionLevel
  uri : String
  resourceName : String
  deriving DecidableEq, Repr

instance : Inhabited KekMetadata := ⟨⟨.protectionLevelUnspecified, "", ""⟩⟩

/-- Identifier for GCP KMS used in KEK URIs. -/
def gcpKeyPrefix : String := "gcp-kms://"

/-- `strings.HasPrefix`. -/
def hasPrefix (s pre : String) : Bool := pre.data.isPrefixOf s.data

/-- `strings.TrimPrefix`. -/
def trimPrefix (s pre : String) : String := if hasPrefix s pre then ⟨s.data.drop pre.length⟩ else s

/-- The checks on the primary version of the KEK named `uri` and the metadata read off it:
the URI reported for observability is the external key URI for an EXTERNAL key and `uri`
otherwise. -/
def kekMetadataOf (uri : String) : Option CryptoKeyVersion → Except String KekMetadata
  | none => .error ("CryptoKeyVersion for " ++ uri ++ " is not enabled")
  | some ver =>
      if ver.state ≠ .enabled then .error ("CryptoKeyVersion for " ++ uri ++ " is not enabled")
      else if ver.protectionLevel = .protectionLevelUnspecified then
        .error ("unspecified protection level " ++ ver.protectionLevel.name)
      else if ver.protectionLevel = .external then
        match ver.externalProtectionLevelOptions with
        | none => .error ("CryptoKeyVersion for KEK " ++ uri ++ " does not have external " ++
            "protection level options despite being EXTERNAL protection level")
        | some o => .ok ⟨ver.protectionLevel, o.externalKeyUri, trimPrefix uri gcpKeyPrefix⟩
      else .ok ⟨ver.protectionLevel, uri, trimPrefix uri gcpKeyPrefix⟩

/-- `getKekURIMetadata`. -/
def getKekURIMetadata {C : Type} (h : KmsHandle) : KekInfo → Go (Sys C) KekMetadata
  | .kekUri uri =>
      if !hasPrefix uri gcpKeyPrefix then
        Go.fail (uri ++ " does not have the expected URI prefix, want " ++ gcpKeyPrefix)
      else do
        let cryptoKey ← Go.wrapError "error retrieving key metadata: "
          (kmsGetCryptoKey env h (trimPrefix uri gcpKeyPrefix))
        Go.ofExcept (kekMetadataOf uri cryptoKey.primary)
  | _ => Go.fail "cannot retrieve KEK Metadata for a non-KEK"

/-- What `getKekURIMetadata` gives for `uri` on a live client at time `t`. -/
def kekMetadataAt (t : Nat) (uri : String) : Except String KekMetadata :=
  if !hasPrefix uri gcpKeyPrefix then
    .error (uri ++ " does not have the expected URI prefix, want " ++ gcpKeyPrefix)
  else match env.getCryptoKey t (trimPrefix uri gcpKeyPrefix) with
    | .ok cryptoKey => kekMetadataOf uri cryptoKey.primary
    | .error e => .error ("error retrieving key metadata: " ++ e)

/-! ### Frames -/

theorem appends_wrapKMSShareOn {C : Type} (h : KmsHandle) (share : Bytes) (keyName : String) :
    Appends (wrapKMSShareOn env h share keyName : Go (Sys C) _) := by
  unfold wrapKMSShareOn
  refine .bind (.wrapError _ (appends_kmsEncrypt _ _ _)) fun r => ?_
  split
  · exact .fail _
  · exact .bind (.deref _) fun _ => by split <;> first | exact .fail _ | exact .pure _

theorem appends_unwrapKMSShareOn {C : Type} (h : KmsHandle) (wrapped : Bytes) (keyName : String) :
    Appends (unwrapKMSShareOn env h wrapped keyName : Go (Sys C) _) := by
  unfold unwrapKMSShareOn
  refine .bind (.wrapError _ (appends_kmsDecrypt _ _ _)) fun r => ?_
  exact .bind (.deref _) fun _ => by split <;> first | exact .fail _ | exact .pure _

theorem appends_getKekURIMetadata {C : Type} (h : KmsHandle) (kek : KekInfo) :
    Appends (getKekURIMetadata env h kek : Go (Sys C) _) := by
  cases kek with
  | kekUri uri =>
      simp only [getKekURIMetadata]
      split
      · exact .fail _
      · exact .bind (.wrapError _ (appends_kmsGetCryptoKey _ _ _)) fun _ => .ofExcept _
  | _ => exact .fail _

/-! ### Building the client -/

section Init

variable {C : Type} [HasKmsClient C] (userAgentOf : C → String) {s : Sys C}

theorem initializeKMSClientAs_of_ne_nil (h : HasKmsClient.kmsClient s.client ≠ .nil) :
    initializeKMSClientAs env userAgentOf s = .ok () s := by
  simp [initializeKMSClientAs, Go.bind_apply, h]

/-- On a nil field the constructor runs, and the field takes its client, the nil one
when it failed. -/
theorem initializeKMSClientAs_of_nil (h : HasKmsClient.kmsClient s.client = .nil) :
    initializeKMSClientAs env userAgentOf s =
      match env.newKeyManagementClient s.log.length (userAgentOf s.client) with
      | .ok () => .ok () { s.record (.newKeyManagementClient (userAgentOf s.client) true)
          with client := HasKmsClient.setKmsClient s.client (.client s.log.length) }
      | .error e => .error (.error ("error creating KMS client: " ++ e))
          { s.record (.newKeyManagementClient (userAgentOf s.client) false)
            with client := HasKmsClient.setKmsClient s.client .typedNil } := by
  simp only [initializeKMSClientAs, Go.bind_apply, Go.get_apply, h, if_true,
    newKeyManagementClient]
  cases env.newKeyManagementClient s.log.length (userAgentOf s.client) <;> rfl

/-- Where the constructor does not fail, a usable client comes out of
`initializeKMSClient` live, with only the field and the log changed. -/
theorem initializeKMSClientAs_live (hu : Usable s)
    (hc : ∀ t ua, env.newKeyManagementClient t ua = .ok ()) :
    ∃ s', initializeKMSClientAs env userAgentOf s = .ok () s' ∧
      live s'.log (HasKmsClient.kmsClient s'.client) ∧ s.log <+: s'.log ∧
      s'.deferred = s.deferred ∧ s'.output = s.output := by
  rcases hu with hn | hl
  · rw [initializeKMSClientAs_of_nil env _ hn, hc]
    refine ⟨_, rfl, ?_, List.prefix_append _ _, rfl, rfl⟩
    simp [HasKmsClient.kmsClient_setKmsClient, live, builtAt]
  · have hn : HasKmsClient.kmsClient s.client ≠ .nil := by
      intro he
      rw [he] at hl
      cases hl
    exact ⟨s, initializeKMSClientAs_of_ne_nil env _ hn, hl, List.prefix_refl _, rfl, rfl⟩

end Init

theorem initializeKMSClient_of_ne_nil {s : Sys StetClient} (h : s.client.kmsClient ≠ .nil) :
    initializeKMSClient env s = .ok () s :=
  initializeKMSClientAs_of_ne_nil env _ h

theorem initializeKMSClient_of_nil {s : Sys StetClient} (h : s.client.kmsClient = .nil) :
    initializeKMSClient env s =
      match env.newKeyManagementClient s.log.length (userAgent s.client.version) with
      | .ok () => .ok () { s.record (.newKeyManagementClient (userAgent s.client.version) true)
          with client := { s.client with kmsClient := .client s.log.length } }
      | .error e => .error (.error ("error creating KMS client: " ++ e))
          { s.record (.newKeyManagementClient (userAgent s.client.version) false)
            with client := { s.client with kmsClient := .typedNil } } :=
  initializeKMSClientAs_of_nil env _ h

/-- The KMS client is ready at time `t` for a KEK URI position that starts in `s`: the field
holds a client, or the constructor called at `s.log.length` builds one. -/
def KmsReadyAt (s : Sys StetClient) (t : Nat) : Prop :=
  s.client.kmsClient ≠ .nil ∧ t = s.log.length ∨
    s.client.kmsClient = .nil ∧
      env.newKeyManagementClient s.log.length (userAgent s.client.version) = .ok () ∧
      t = s.log.length + 1

/-- `initializeKMSClient` returns at the time `KmsReadyAt` names, having changed only the
field and the log. -/
theorem initializeKMSClient_eq_ok_iff {s : Sys StetClient} {t : Nat} :
    (∃ s', initializeKMSClient env s = .ok () s' ∧ s'.log.length = t) ↔ KmsReadyAt env s t := by
  by_cases hn : s.client.kmsClient = .nil
  · rw [initializeKMSClient_of_nil env hn]
    cases hc : env.newKeyManagementClient s.log.length (userAgent s.client.version) <;>
      simp [KmsReadyAt, hn, hc, eq_comm]
  · simp [initializeKMSClient_of_ne_nil env hn, KmsReadyAt, hn, eq_comm]

theorem initializeKMSClient_client {s s' : Sys StetClient}
    (h : initializeKMSClient env s = .ok () s') :
    s'.client.fakeSecureSessionClient = s.client.fakeSecureSessionClient ∧
      s'.client.insecureSkipVerify = s.client.insecureSkipVerify ∧ s'.deferred = s.deferred := by
  by_cases hn : s.client.kmsClient = .nil
  · rw [initializeKMSClient_of_nil env hn] at h
    cases hc : env.newKeyManagementClient s.log.length (userAgent s.client.version) with
    | error e => simp [hc] at h
    | ok _ =>
        simp only [hc] at h
        cases h
        exact ⟨rfl, rfl, rfl⟩
  · rw [initializeKMSClient_of_ne_nil env hn] at h
    cases h
    exact ⟨rfl, rfl, rfl⟩

/-! ### What the service answered when a call returns -/

section Sound

variable {C : Type} {s s' : Sys C} {h : KmsHandle}

/-- A KMS call that returned was answered by the service at the time it was made. -/

theorem kmsCall_sound {α : Type} {ev : Event} {svc : Nat → Except String α} {a : α}
    (hr : kmsCall h ev svc s = .ok a s') : svc s.log.length = .ok a := by
  unfold kmsCall at hr
  split at hr
  · split at hr
    · cases hr
    · simp only [external_apply] at hr
      split at hr <;> simp_all
  · cases hr

theorem unwrapKMSShareOn_sound {wrapped pt : Bytes} {keyName : String}
    (hr : unwrapKMSShareOn env h wrapped keyName s = .ok pt s') :
    ∃ t r, env.decrypt t ⟨keyName, wrapped, some (crcValue wrapped)⟩ = .ok r ∧
      r.plaintext = pt ∧ r.plaintextCrc32C = some (crcValue pt) := by
  simp only [unwrapKMSShareOn, Go.bind_eq_ok, Go.wrapError_eq_ok] at hr
  obtain ⟨r, s₁, hr₁, v, s₂, hv, hr₂⟩ := hr
  refine ⟨_, r, kmsCall_sound hr₁, ?_⟩
  cases hc : r.plaintextCrc32C with
  | none => simp [hc] at hv
  | some v' =>
      simp only [hc, Go.deref_some, Go.pure_apply, EStateM.Result.ok.injEq] at hv
      obtain ⟨rfl, rfl⟩ := hv
      split at hr₂
      · cases hr₂
      · rename_i heq
        simp only [Go.pure_apply, EStateM.Result.ok.injEq] at hr₂
        exact ⟨hr₂.1, by rw [← hr₂.1, not_not.mp heq]⟩

theorem wrapKMSShareOn_sound {share ct : Bytes} {keyName : String}
    (hr : wrapKMSShareOn env h share keyName s = .ok ct s') :
    ∃ t r, env.encrypt t ⟨keyName, share, some (crcValue share)⟩ = .ok r ∧
      r.verifiedPlaintextCrc32C = true ∧ r.ciphertextCrc32C = some (crcValue ct) ∧
      r.ciphertext = ct := by
  simp only [wrapKMSShareOn, Go.bind_eq_ok, Go.wrapError_eq_ok] at hr
  obtain ⟨r, s₁, hr₁, hr₂⟩ := hr
  refine ⟨_, r, kmsCall_sound hr₁, ?_⟩
  split at hr₂
  · cases hr₂
  · rename_i hv
    simp only [Go.bind_eq_ok] at hr₂
    obtain ⟨v, s₂, hd, hr₃⟩ := hr₂
    cases hc : r.ciphertextCrc32C with
    | none => simp [hc] at hd
    | some v' =>
        simp only [hc, Go.deref_some, Go.pure_apply, EStateM.Result.ok.injEq] at hd
        obtain ⟨rfl, rfl⟩ := hd
        split at hr₃
        · cases hr₃
        · rename_i heq
          simp only [Go.pure_apply, EStateM.Result.ok.injEq] at hr₃
          simp only [Bool.not_eq_true', Bool.not_eq_false] at hv
          exact ⟨hv, by rw [← hr₃.1, not_not.mp heq], hr₃.1⟩

/-- A metadata lookup that returned was answered at the time of the call, by a client the
call reached. -/
theorem getKekURIMetadata_eq_ok {uri : String} {md : KekMetadata}
    (hr : getKekURIMetadata env h (.kekUri uri) s = .ok md s') :
    kekMetadataAt env s.log.length uri = .ok md ∧ reaches s.log h ∧
      s' = s.record (.getCryptoKey h (trimPrefix uri gcpKeyPrefix)) := by
  simp only [getKekURIMetadata] at hr
  split at hr
  · cases hr
  · rename_i hp
    simp only [Go.bind_eq_ok, Go.wrapError_eq_ok, kmsGetCryptoKey, Go.ofExcept_eq_ok] at hr
    obtain ⟨ck, s₁, hk, hm, rfl⟩ := hr
    obtain ⟨hreach, ha, rfl⟩ := kmsCall_eq_ok hk
    exact ⟨by simp [kekMetadataAt, hp, ha, hm], hreach, rfl⟩

theorem getKekURIMetadata_sound {kek : KekInfo} {md : KekMetadata}
    (hr : getKekURIMetadata env h kek s = .ok md s') :
    ∃ uri, kek = .kekUri uri ∧ ∃ t, kekMetadataAt env t uri = .ok md := by
  cases kek with
  | kekUri uri => exact ⟨uri, rfl, _, (getKekURIMetadata_eq_ok env hr).1⟩
  | _ => cases hr
end Sound

/-! ### What a call on a live client computes -/

section Live

variable {C : Type} {s : Sys C} {h : KmsHandle}


/-- What `unwrapKMSShare` does on a client it reaches: the answer of the service at the time
of the call, checked against its checksum, whose missing wrapper panics. -/
theorem unwrapKMSShareOn_of_reaches (hr : reaches s.log h) (wrapped : Bytes) (keyName : String) :
    unwrapKMSShareOn env h wrapped keyName s =
      match env.decrypt s.log.length ⟨keyName, wrapped, some (crcValue wrapped)⟩ with
      | .error e => .error (.error ("failed to decrypt ciphertext: " ++ e))
          (s.record (.decrypt h ⟨keyName, wrapped, some (crcValue wrapped)⟩))
      | .ok r => match r.plaintextCrc32C with
        | none => .error (.panic nilDereference)
            (s.record (.decrypt h ⟨keyName, wrapped, some (crcValue wrapped)⟩))
        | some v =>
            if crcValue r.plaintext ≠ v then .error (.error "Decrypt: response corrupted in-transit")
              (s.record (.decrypt h ⟨keyName, wrapped, some (crcValue wrapped)⟩))
            else .ok r.plaintext (s.record (.decrypt h ⟨keyName, wrapped, some (crcValue wrapped)⟩)) := by
  simp only [unwrapKMSShareOn, kmsDecrypt, Go.bind_apply, kmsCall_of_reaches hr, external_apply,
    Go.wrapError]
  cases env.decrypt s.log.length ⟨keyName, wrapped, some (crcValue wrapped)⟩ with
  | error e => rfl
  | ok r =>
      obtain ⟨pt, crc⟩ := r
      cases crc with
      | none => rfl
      | some v => by_cases hv : crcValue pt = v <;> simp [hv, Go.bind_apply]

theorem unwrapKMSShareOn_eq_ok_iff (hr : reaches s.log h) {wrapped pt : Bytes}
    {keyName : String} :
    (∃ s', unwrapKMSShareOn env h wrapped keyName s = .ok pt s') ↔
      ∃ r, env.decrypt s.log.length ⟨keyName, wrapped, some (crcValue wrapped)⟩ = .ok r ∧
        r.plaintextCrc32C = some (crcValue r.plaintext) ∧ r.plaintext = pt := by
  rw [unwrapKMSShareOn_of_reaches env hr]
  cases env.decrypt s.log.length ⟨keyName, wrapped, some (crcValue wrapped)⟩ with
  | error e => simp
  | ok r =>
      obtain ⟨pt', crc⟩ := r
      cases crc with
      | none => simp
      | some v =>
          by_cases hv : crcValue pt' = v
          · subst hv
            simp [eq_comm]
          · simp [hv, Ne.symm hv]

theorem unwrapKMSShareOn_of_live (hl : live s.log h) {wrapped pt : Bytes} {keyName : String}
    (hd : env.decrypt s.log.length ⟨keyName, wrapped, some (crcValue wrapped)⟩ =
      .ok ⟨pt, some (crcValue pt)⟩) :
    unwrapKMSShareOn env h wrapped keyName s =
      .ok pt (s.record (.decrypt h ⟨keyName, wrapped, some (crcValue wrapped)⟩)) := by
  simp [unwrapKMSShareOn_of_reaches env (reaches_of_live hl), hd]

theorem getKekURIMetadata_of_live (hl : live s.log h) {uri : String} {md : KekMetadata}
    (hm : kekMetadataAt env s.log.length uri = .ok md) :
    getKekURIMetadata env h (.kekUri uri) s =
      .ok md (s.record (.getCryptoKey h (trimPrefix uri gcpKeyPrefix))) := by
  unfold kekMetadataAt at hm
  split at hm
  · cases hm
  · rename_i hp
    cases hc : env.getCryptoKey s.log.length (trimPrefix uri gcpKeyPrefix) with
    | error e => simp [hc] at hm
    | ok ck =>
        have hk : kmsGetCryptoKey env h (trimPrefix uri gcpKeyPrefix) s =
            .ok ck (s.record (.getCryptoKey h (trimPrefix uri gcpKeyPrefix))) := by
          simp [kmsGetCryptoKey, kmsCall_of_live hl, hc]
        simp only [hc] at hm
        simp only [getKekURIMetadata, hp, Bool.not_true, Bool.false_eq_true, if_false]
        rw [Go.bind_of_ok _ (Go.wrapError_of_ok hk), hm]
        rfl
end Live

end Stet.Client
