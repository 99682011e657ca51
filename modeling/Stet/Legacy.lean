import Mathlib.Data.List.Forall2
import Stet.Client.Safety

/-!
The earlier whole-buffer client. Its share loops do not look a KEK's metadata up at the
position that needs it: the first KEK URI of a loop fetches the metadata of every KEK at
once, `protectionLevelsAndUris`, into a slice `kekMetadatas` that later positions index
with their own position `i`. That is only right if the slice is aligned with `kekInfos`:
as long, and with the metadata of `kekInfos[i]` at `i`, the zero value for a KEK that is
not a KEK URI.

The KEK URI case of `protectionLevelsAndUris`'s loop is the body the later
`getKekURIMetadata` has, checks and messages included, and is modelled by it; so are the
bodies of `initializeKMSClient` and of the secure-session calls, which the two versions
share but for the user agent and the session set-up. The earlier client has no user agent,
dials its key manager at port 8842 and makes its token through
`generateTokenFromEKMAddress`; its RSA and hash failures end the unwrap loop.

The read `kekMetadatas[i]` of both loops is `kekMetadataFor`, so that what it reads is
stated once: the metadata of `kekInfos[i]`, whenever the slice was aligned before.
-/

namespace Stet.Legacy

open Stet Stet.Client

/-- The earlier `client.StetClient`: the KMS client and the test hook for a fake session
client. -/
structure StetClient where
  kmsClient : KmsHandle
  fakeSecureSessionClient : Bool
  deriving DecidableEq, Repr

instance : HasKmsClient StetClient :=
  ⟨StetClient.kmsClient, fun c h => { c with kmsClient := h }, fun _ _ => rfl⟩

@[simp] theorem StetClient.hasKmsClient_kmsClient (c : StetClient) :
    HasKmsClient.kmsClient c = c.kmsClient := rfl

@[simp] theorem StetClient.hasKmsClient_setKmsClient (c : StetClient) (h : KmsHandle) :
    HasKmsClient.setKmsClient c h = { c with kmsClient := h } := rfl

/-- `defer c.kmsClient.Close()`. -/
def deferKmsClose : Go (Sys StetClient) Unit :=
  modify fun s => { s with deferred := s.client.kmsClient :: s.deferred }

variable (env : Env) (keys : AsymmetricKeys)

/-- `initializeKMSClient`, with no user agent. -/
def initializeKMSClient : Go (Sys StetClient) Unit :=
  initializeKMSClientAs env fun _ => ""

/-! ### The external key manager -/

/-- `parseEKMKeyURI`: the address `scheme://host:8842` and the key path. -/
def parseEKMKeyURI (keyURI : String) : Except String (String × String) :=
  match env.urlParse keyURI with
  | .error e => .error ("could not parse: " ++ e)
  | .ok u => .ok (u.scheme ++ "://" ++ u.hostname ++ ":8842", pathBase keyURI)

/-- `generateTokenFromEKMAddress`: a token whose audience is `scheme://host`. -/
def generateTokenFromEKMAddress {C : Type} (address : String) : Go (Sys C) String :=
  match env.urlParse address with
  | .error e => Go.fail ("could not parse EKM address: " ++ e)
  | .ok u => Go.wrapError "failed to generate JWT: "
      (generateTokenWithAudience env (u.scheme ++ "://" ++ u.hostname))

/-- `removeSchemeFromURL`: the `host:port` to dial. -/
def removeSchemeFromURL (ekmURL : String) : Except String String :=
  match env.urlParse ekmURL with
  | .error e => .error ("could not extract host from EKM address: " ++ e)
  | .ok u => .ok u.host

/-- The session client of one call: the fake one if installed, otherwise a session
established with the key manager at `addr`. -/
def ekmClientFor (addr : String) : Go (Sys StetClient) SessionClient := do
  if (← get).client.fakeSecureSessionClient then pure .fake
  else do
    let authToken ← generateTokenFromEKMAddress env addr
    let rpcAddr ← Go.ofExcept (removeSchemeFromURL env addr)
    Go.wrapError "error establishing secure session: "
      (establishSecureSession env rpcAddr authToken false)

/-- The body of `ekmSecureSessionWrap` and `ekmSecureSessionUnwrap`. -/
def ekmSecureSession (op : SessionOp) (opError : String) (payload : Bytes) (md : KekMetadata) :
    Go (Sys StetClient) Bytes :=
  ekmSecureSessionWith env (parseEKMKeyURI env) (ekmClientFor env) op opError payload md

/-! ### KEK metadata -/

/-- One iteration of `protectionLevelsAndUris`: the zero value unless the KEK is a KEK
URI. -/
def kekMetadataOfInfo {C : Type} (h : KmsHandle) (kek : KekInfo) : Go (Sys C) KekMetadata :=
  match kek with
  | .kekUri _ => getKekURIMetadata env h kek
  | _ => pure default

/-- `protectionLevelsAndUris`. -/
def protectionLevelsAndUris {C : Type} (h : KmsHandle) :
    List KekInfo → Go (Sys C) (List KekMetadata)
  | [] => pure []
  | kek :: rest => do
      let kmd ← kekMetadataOfInfo env h kek
      let kmds ← protectionLevelsAndUris h rest
      pure (kmd :: kmds)

/-- `kekMetadatas` at a KEK URI: fetched for all of `kekInfos` while it is nil, and kept
afterwards. -/
def loadKekMetadatas (kekInfos : List KekInfo) (kekMetadatas : List KekMetadata) :
    Go (Sys StetClient) (List KekMetadata) :=
  if kekMetadatas.isEmpty then do
    let c := (← get).client
    Go.wrapError "Error retrieving KEK Metadata: " (protectionLevelsAndUris env c.kmsClient kekInfos)
  else pure kekMetadatas

/-- `kekMetadatas[i]` at a KEK URI: the entry read, and the slice the next positions see. -/
def kekMetadataFor (kekInfos : List KekInfo) (i : Nat) (kekMetadatas : List KekMetadata) :
    Go (Sys StetClient) (KekMetadata × List KekMetadata) := do
  let kmds ← loadKekMetadatas env kekInfos kekMetadatas
  let kmd ← Go.index kmds i
  pure (kmd, kmds)

/-! ### `wrapShares` -/

/-- The `switch` on the protection level in `wrapShares`. -/
def wrapWithMetadata (kmd : KekMetadata) (share : Bytes) : Go (Sys StetClient) Bytes :=
  match kmd.protectionLevel with
  | .software | .hsm => do
      Go.wrapError "error wrapping key share: "
        (wrapKMSShareOn env (← get).client.kmsClient share kmd.resourceName)
  | .external => Go.wrapError "error wrapping with secure session: "
      (ekmSecureSession env .wrap "error wrapping with secure session: " share kmd)
  | pl => Go.fail ("unsupported protection level " ++ pl.name)

/-- One iteration of `wrapShares`'s loop at position `i`, with `kekMetadatas` as the
iterations before it left it. -/
def wrapShare (kekInfos : List KekInfo) (i : Nat) (kek : KekInfo) (share : Bytes)
    (kekMetadatas : List KekMetadata) :
    Go (Sys StetClient) (WrappedShare × List KekMetadata) :=
  match kek with
  | .rsaFingerprint _ => do
      let key ← Go.wrapError "failed to find public key for RSA fingerprint: "
        (Go.ofExcept (env.publicKeyForRSAFingerprint kek keys))
      let ct ← Go.wrapError "error wrapping key share: " (Go.ofExcept (env.encryptOAEP key share))
      pure (⟨ct, env.hashShare share⟩, kekMetadatas)
  | .kekUri _ => do
      Go.wrapError "error initializing KMS Client: " (initializeKMSClient env)
      deferKmsClose
      let (kmd, kmds) ← kekMetadataFor env kekInfos i kekMetadatas
      let ct ← wrapWithMetadata env kmd share
      pure (⟨ct, env.hashShare share⟩, kmds)
  | .unset => Go.fail "unsupported KekInfo type: <nil>"

/-- The loop of `wrapShares` from position `i`. -/
def wrapSharesLoop (kekInfos : List KekInfo) :
    Nat → List Bytes → List KekMetadata → Go (Sys StetClient) (List WrappedShare)
  | _, [], _ => pure []
  | i, share :: rest, kmds => do
      let kek ← Go.index kekInfos i
      let (w, kmds) ← wrapShare env keys kekInfos i kek share kmds
      let ws ← wrapSharesLoop kekInfos (i + 1) rest kmds
      pure (w :: ws)

/-- `wrapShares`. -/
def wrapShares (unwrappedShares : List Bytes) (kekInfos : List KekInfo) :
    Go (Sys StetClient) (List WrappedShare) :=
  withDeferred do
    if unwrappedShares.length ≠ kekInfos.length then
      Go.fail ("number of shares to wrap (" ++ toString unwrappedShares.length ++
        ") does not match number of KEKs (" ++ toString kekInfos.length ++ ")")
    else wrapSharesLoop env keys kekInfos 0 unwrappedShares []

/-! ### `unwrapAndValidateShares` -/

/-- The `switch` on the protection level in `unwrapAndValidateShares`. -/
def unwrapWithMetadata (kmd : KekMetadata) (wrapped : Bytes) : Go (Sys StetClient) Bytes :=
  match kmd.protectionLevel with
  | .software | .hsm => do
      Go.wrapError "error unwrapping key share: "
        (unwrapKMSShareOn env (← get).client.kmsClient wrapped kmd.resourceName)
  | .external => Go.wrapError ("error unwrapping with external EKM for " ++ kmd.uri ++ ": ")
      (ekmSecureSession env .unwrap "error unwrapping with secure session: " wrapped kmd)
  | pl => Go.fail ("unsupported protection level " ++ pl.name)

/-- The `switch` of one iteration of `unwrapAndValidateShares`'s loop at position `i`. -/
def unwrapShare (kekInfos : List KekInfo) (i : Nat) (kek : KekInfo) (wrapped : WrappedShare)
    (kekMetadatas : List KekMetadata) : Go (Sys StetClient) (Bytes × List KekMetadata) :=
  match kek with
  | .rsaFingerprint _ => do
      let key ← Go.wrapError "failed to find public key for RSA fingerprint: "
        (Go.ofExcept (env.privateKeyForRSAFingerprint kek keys))
      let pt ← Go.wrapError "error unwrapping key share: "
        (Go.ofExcept (env.decryptOAEP key wrapped.share))
      pure (pt, kekMetadatas)
  | .kekUri _ => do
      Go.wrapError "error initializing KMS Client: " (initializeKMSClient env)
      deferKmsClose
      let (kmd, kmds) ← kekMetadataFor env kekInfos i kekMetadatas
      let pt ← unwrapWithMetadata env kmd wrapped.share
      pure (pt, kmds)
  | .unset => Go.fail "unsupported KekInfo type: <nil>"

/-- The loop of `unwrapAndValidateShares` from position `i`. -/
def unwrapAndValidateLoop (kekInfos : List KekInfo) :
    Nat → List WrappedShare → List KekMetadata → Go (Sys StetClient) (List Bytes)
  | _, [], _ => pure []
  | i, wrapped :: rest, kmds => do
      let kek ← Go.index kekInfos i
      let (pt, kmds) ← unwrapShare env keys kekInfos i kek wrapped kmds
      if !env.validateShare pt wrapped.hash then
        Go.fail ("unwrapped share " ++ toString i ++ " does not have the expected hash")
      else
        let pts ← unwrapAndValidateLoop kekInfos (i + 1) rest kmds
        pure (pt :: pts)

/-- `unwrapAndValidateShares`. -/
def unwrapAndValidateShares (wrappedShares : List WrappedShare) (kekInfos : List KekInfo) :
    Go (Sys StetClient) (List Bytes) :=
  withDeferred do
    if wrappedShares.length ≠ kekInfos.length then
      Go.fail ("number of shares to unwrap (" ++ toString wrappedShares.length ++
        ") does not match number of KEKs (" ++ toString kekInfos.length ++ ")")
    else unwrapAndValidateLoop env keys kekInfos 0 wrappedShares []

/-! ### `kekMetadatas` is aligned with `kekInfos` -/

/-- What the entry of `kekMetadatas` for `kek` holds: the metadata Cloud KMS gave at
some call for a KEK URI, the zero value for any other KEK. -/
def Describes : KekInfo → KekMetadata → Prop
  | .kekUri uri, md => ∃ t, kekMetadataAt env t uri = .ok md
  | _, md => md = default

/-- The loops' invariant on `kekMetadatas`: nil, or aligned with `kekInfos`. -/
def Aligned (kekInfos : List KekInfo) (kmds : List KekMetadata) : Prop :=
  kmds = [] ∨ List.Forall₂ (Describes env) kekInfos kmds

theorem forall₂_getElem? {α β : Type} {R : α → β → Prop} {l₁ : List α} {l₂ : List β}
    (h : List.Forall₂ R l₁ l₂) (i : Nat) {a : α} (ha : l₁[i]? = some a) :
    ∃ b, l₂[i]? = some b ∧ R a b := by
  induction h generalizing i with
  | nil => cases ha
  | @cons a' b' _ _ hr _ ih =>
      cases i with
      | zero =>
          obtain rfl : a' = a := by simpa using ha
          exact ⟨b', by simp, hr⟩
      | succ i => simpa using ih i (by simpa using ha)

section Aligned

variable {env} {C : Type} {h : KmsHandle} {s s' : Sys C}

theorem kekMetadataOfInfo_sound {kek : KekInfo} {md : KekMetadata}
    (hr : kekMetadataOfInfo env h kek s = .ok md s') : Describes env kek md := by
  cases kek with
  | kekUri uri =>
      simp only [kekMetadataOfInfo] at hr
      obtain ⟨_, hu, t, hm⟩ := getKekURIMetadata_sound env hr
      cases hu
      exact ⟨t, hm⟩
  | rsaFingerprint _ | unset =>
      simp only [kekMetadataOfInfo, Go.pure_eq_ok] at hr
      exact hr.1.symm

theorem protectionLevelsAndUris_sound {kekInfos : List KekInfo} {kmds : List KekMetadata}
    (hr : protectionLevelsAndUris env h kekInfos s = .ok kmds s') :
    List.Forall₂ (Describes env) kekInfos kmds := by
  induction kekInfos generalizing s s' kmds with
  | nil =>
      simp only [protectionLevelsAndUris, Go.pure_eq_ok] at hr
      exact hr.1 ▸ .nil
  | cons kek rest ih =>
      simp only [protectionLevelsAndUris, Go.bind_eq_ok, Go.pure_eq_ok] at hr
      obtain ⟨md, s₁, h₁, mds, s₂, h₂, rfl, -⟩ := hr
      exact .cons (kekMetadataOfInfo_sound h₁) (ih h₂)

end Aligned

/-! ### Every panic of the loops is a nil dereference -/

section Safe

variable {C : Type}

theorem nilSafe_protectionLevelsAndUris (h : KmsHandle) (kekInfos : List KekInfo) :
    NilSafe (protectionLevelsAndUris env h kekInfos : Go (Sys C) _)
      (List.Forall₂ (Describes env) kekInfos) := by
  refine NilSafe.post (P := fun _ => True) ?_ fun _ _ _ hr => protectionLevelsAndUris_sound hr
  induction kekInfos with
  | nil => exact .pure trivial
  | cons kek rest ih =>
      have hk : NilSafe (kekMetadataOfInfo env h kek : Go (Sys C) _) fun _ => True := by
        cases kek <;> simp only [kekMetadataOfInfo]
        all_goals first | exact nilSafe_getKekURIMetadata env _ _ | exact .pure trivial
      exact .bind hk fun _ _ => .bind ih fun _ _ => .pure trivial

theorem nilSafe_ekmClientFor (addr : String) :
    NilSafe (ekmClientFor env addr) fun _ => True := by
  refine .get_bind fun s => ?_
  split
  · exact .pure trivial
  · have ht : NilSafe (generateTokenFromEKMAddress env addr : Go (Sys StetClient) _)
        fun _ => True := by
      unfold generateTokenFromEKMAddress
      split
      · exact .fail _
      · exact .wrapError _ (nilSafe_external _ _)
    exact .bind ht fun _ _ => .bind (.ofExcept _) fun _ _ => .wrapError _ (nilSafe_external _ _)

theorem nilSafe_ekmSecureSession (op : SessionOp) (pre : String) (p : Bytes) (md : KekMetadata) :
    NilSafe (ekmSecureSession env op pre p md) fun _ => True :=
  nilSafe_ekmSecureSessionWith env (nilSafe_ekmClientFor env) op pre p md

theorem nilSafe_loadKekMetadatas {kekInfos : List KekInfo} {kmds : List KekMetadata}
    (hc : Aligned env kekInfos kmds) :
    NilSafe (loadKekMetadatas env kekInfos kmds) (List.Forall₂ (Describes env) kekInfos) := by
  unfold loadKekMetadatas
  split
  · exact .get_bind fun s => .wrapError _ (nilSafe_protectionLevelsAndUris env _ _)
  · rename_i he
    exact .pure (hc.resolve_left (by simpa using he))

theorem nilSafe_wrapWithMetadata (kmd : KekMetadata) (share : Bytes) :
    NilSafe (wrapWithMetadata env kmd share) fun _ => True := by
  unfold wrapWithMetadata
  split
  all_goals first
    | exact .get_bind fun _ => .wrapError _ (nilSafe_wrapKMSShareOn env _ _ _)
    | exact .wrapError _ (nilSafe_ekmSecureSession env _ _ _ _)
    | exact .fail _

theorem nilSafe_unwrapWithMetadata (kmd : KekMetadata) (wrapped : Bytes) :
    NilSafe (unwrapWithMetadata env kmd wrapped) fun _ => True := by
  unfold unwrapWithMetadata
  split
  all_goals first
    | exact .get_bind fun _ => .wrapError _ (nilSafe_unwrapKMSShareOn env _ _ _)
    | exact .wrapError _ (nilSafe_ekmSecureSession env _ _ _ _)
    | exact .fail _

variable {env keys} {kekInfos : List KekInfo} {i : Nat} {kek : KekInfo} {kmds : List KekMetadata}

/-- The read `kekMetadatas[i]` of a KEK URI, from an aligned slice, is in range and reads
the metadata of `kekInfos[i]`; the slice stays aligned. -/
theorem nilSafe_kekMetadataFor (hk : kekInfos[i]? = some kek) (hc : Aligned env kekInfos kmds) :
    NilSafe (kekMetadataFor env kekInfos i kmds)
      fun r => Describes env kek r.1 ∧ Aligned env kekInfos r.2 :=
  .bind (nilSafe_loadKekMetadatas env hc) fun _ hal =>
    .bind (.index_of_lt (hal.length_eq ▸ (List.getElem?_eq_some_iff.mp hk).1)) fun md hmd =>
      .pure <| by
        obtain ⟨md', hmd', hd⟩ := forall₂_getElem? hal i hk
        exact ⟨Option.some.inj (hmd'.symm.trans hmd) ▸ hd, .inr hal⟩

/-- One position of `wrapShares`'s loop keeps `kekMetadatas` aligned. -/
theorem nilSafe_wrapShare {share : Bytes} (hk : kekInfos[i]? = some kek)
    (hc : Aligned env kekInfos kmds) :
    NilSafe (wrapShare env keys kekInfos i kek share kmds) fun r => Aligned env kekInfos r.2 := by
  cases kek with
  | rsaFingerprint _ =>
      exact .bind (.wrapError _ (.ofExcept _)) fun _ _ =>
        .bind (.wrapError _ (.ofExcept _)) fun _ _ => .pure hc
  | kekUri _ =>
      exact .bind (.wrapError _ (nilSafe_initializeKMSClientAs env _)) fun _ _ =>
        .bind (.modify _) fun _ _ => .bind (nilSafe_kekMetadataFor hk hc) fun _ hr =>
          .bind (nilSafe_wrapWithMetadata env _ _) fun _ _ => .pure hr.2
  | unset => exact .fail _

/-- One position of `unwrapAndValidateShares`'s loop keeps `kekMetadatas` aligned. -/
theorem nilSafe_unwrapShare {w : WrappedShare} (hk : kekInfos[i]? = some kek)
    (hc : Aligned env kekInfos kmds) :
    NilSafe (unwrapShare env keys kekInfos i kek w kmds) fun r => Aligned env kekInfos r.2 := by
  cases kek with
  | rsaFingerprint _ =>
      exact .bind (.wrapError _ (.ofExcept _)) fun _ _ =>
        .bind (.wrapError _ (.ofExcept _)) fun _ _ => .pure hc
  | kekUri _ =>
      exact .bind (.wrapError _ (nilSafe_initializeKMSClientAs env _)) fun _ _ =>
        .bind (.modify _) fun _ _ => .bind (nilSafe_kekMetadataFor hk hc) fun _ hr =>
          .bind (nilSafe_unwrapWithMetadata env _ _) fun _ _ => .pure hr.2
  | unset => exact .fail _

theorem nilSafe_wrapSharesLoop {shares : List Bytes}
    (hi : i + shares.length ≤ kekInfos.length) (hc : Aligned env kekInfos kmds) :
    NilSafe (wrapSharesLoop env keys kekInfos i shares kmds) fun _ => True := by
  induction shares generalizing i kmds with
  | nil => exact .pure trivial
  | cons share rest ih =>
      simp only [List.length_cons] at hi
      exact .bind (.index_of_lt (by omega)) fun _ hk =>
        .bind (nilSafe_wrapShare hk hc) fun ⟨_, _⟩ hk =>
          .bind (ih (by omega) hk) fun _ _ => .pure trivial

theorem nilSafe_unwrapAndValidateLoop {ws : List WrappedShare}
    (hi : i + ws.length ≤ kekInfos.length) (hc : Aligned env kekInfos kmds) :
    NilSafe (unwrapAndValidateLoop env keys kekInfos i ws kmds) fun _ => True := by
  induction ws generalizing i kmds with
  | nil => exact .pure trivial
  | cons w rest ih =>
      simp only [List.length_cons] at hi
      refine .bind (.index_of_lt (by omega)) fun _ hk =>
        .bind (nilSafe_unwrapShare hk hc) fun ⟨_, _⟩ hk => ?_
      dsimp only
      split
      · exact .fail _
      · exact .bind (ih (by omega) hk) fun _ _ => .pure trivial

variable (env keys)

theorem nilSafe_wrapShares (shares : List Bytes) (kekInfos : List KekInfo) :
    NilSafe (wrapShares env keys shares kekInfos) fun _ => True := by
  refine nilSafe_withDeferred ?_
  split
  · exact .fail _
  · exact nilSafe_wrapSharesLoop (by omega) (.inl rfl)

theorem nilSafe_unwrapAndValidateShares (ws : List WrappedShare) (kekInfos : List KekInfo) :
    NilSafe (unwrapAndValidateShares env keys ws kekInfos) fun _ => True := by
  refine nilSafe_withDeferred ?_
  split
  · exact .fail _
  · exact nilSafe_unwrapAndValidateLoop (by omega) (.inl rfl)

end Safe

end Stet.Legacy
