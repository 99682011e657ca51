import Stet.Client.Ekm

/-!
The two share loops of `client.go`: `wrapShares`, which wraps the i-th share under the
i-th KEK and stops at the first failure, and `unwrapAndValidateShares`, which unwraps
the i-th wrapped share with the i-th KEK, checks its hash, and records a failure and goes
on to the next share.

Go's `defer c.kmsClient.Close()` sits inside both loops. The defer stack is part of the
state: `deferKmsClose` pushes the client the field holds when the statement runs, and
`withDeferred` runs a function body on a stack of its own and closes what it deferred,
last first, however the body ended.

The body of each loop is a definition of its own, `wrapShare` and `unwrapShare` (the
`switch` on the KEK type), so that what one position does is stated once: `WrapsTo` and
`UnwrapsTo` say what a KEK's backend must have answered for the position to come out as
it did. `UnwrapsAt` says more of an unwrap: exactly which share a position yields from a
given state, with the times of its calls fixed by that state, so that a position is kept
if and only if its backends answered as `UnwrapsAt` says (`unwrapShare_eq_some_iff`).
-/

namespace Stet.Client

open Stet

/-! ### Deferred calls -/

/-- `defer c.kmsClient.Close()`: the receiver is read now, the call runs at return. -/
def deferKmsClose : Go (Sys StetClient) Unit :=
  modify fun s => { s with deferred := s.client.kmsClient :: s.deferred }

@[simp] theorem deferKmsClose_apply (s : Sys StetClient) :
    deferKmsClose s = .ok () { s with deferred := s.client.kmsClient :: s.deferred } := rfl

section Deferred

variable {C α : Type} (env : Env)

/-- The deferred `Close` calls, last deferred first; a panicking one ends the run. -/
def runDeferred : List KmsHandle → Go (Sys C) Unit
  | [] => pure ()
  | h :: hs => do kmsClose h; runDeferred hs

/-- A function body with `defer`: it runs on a defer stack of its own, and however it
ends, what it deferred runs before the function returns. -/
def withDeferred (body : Go (Sys C) α) : Go (Sys C) α := fun s =>
  match body { s with deferred := [] } with
  | .ok a s₁ =>
      match runDeferred s₁.deferred { s₁ with deferred := s.deferred } with
      | .ok () s₂ => .ok a s₂
      | .error f s₂ => .error f s₂
  | .error f s₁ =>
      match runDeferred s₁.deferred { s₁ with deferred := s.deferred } with
      | .ok () s₂ => .error f s₂
      | .error f' s₂ => .error f' s₂

/-- However the body ends, the state left is the one the deferred calls leave. -/
theorem resultState_withDeferred (body : Go (Sys C) α) (s : Sys C) :
    resultState (withDeferred body s) =
      resultState (runDeferred (resultState (body { s with deferred := [] })).deferred
        { resultState (body { s with deferred := [] }) with deferred := s.deferred }) := by
  unfold withDeferred
  split <;> split <;> simp_all [resultState]

theorem withDeferred_eq_ok {body : Go (Sys C) α} {s s' : Sys C} {a : α}
    (h : withDeferred body s = .ok a s') :
    ∃ s₁, body { s with deferred := [] } = .ok a s₁ ∧
      runDeferred s₁.deferred { s₁ with deferred := s.deferred } = .ok () s' := by
  unfold withDeferred at h
  split at h
  · rename_i s₁ hb
    split at h
    · cases h
      exact ⟨s₁, hb, by assumption⟩
    · cases h
  · split at h <;> cases h

theorem withDeferred_of_ok {body : Go (Sys C) α} {s s₁ s' : Sys C} {a : α}
    (hb : body { s with deferred := [] } = .ok a s₁)
    (hr : runDeferred s₁.deferred { s₁ with deferred := s.deferred } = .ok () s') :
    withDeferred body s = .ok a s' := by
  simp [withDeferred, hb, hr]

theorem nilSafe_runDeferred (hs : List KmsHandle) :
    NilSafe (runDeferred hs : Go (Sys C) Unit) fun _ => True := by
  induction hs with
  | nil => exact .pure trivial
  | cons h hs ih => exact .bind (nilSafe_kmsClose h) fun _ _ => ih

theorem nilSafe_withDeferred {body : Go (Sys C) α} {P : α → Prop} (hb : NilSafe body P) :
    NilSafe (withDeferred body) P where
  panics s m s' h := by
    unfold withDeferred at h
    split at h <;> split at h <;> cases h
    all_goals first
      | exact hb.panics _ m _ (by assumption)
      | exact (nilSafe_runDeferred _).panics _ m _ (by assumption)
  returns s a s' h := by
    obtain ⟨s₁, hb', -⟩ := withDeferred_eq_ok h
    exact hb.returns _ a s₁ hb'

/-- Deferred calls that all close a client built by a constructor run through. -/
theorem runDeferred_ok {hs : List KmsHandle} (h : ∀ k ∈ hs, ∃ id, k = .client id)
    (s : Sys C) : ∃ s', runDeferred hs s = .ok () s' := by
  induction hs generalizing s with
  | nil => exact ⟨s, rfl⟩
  | cons k hs ih =>
      obtain ⟨id, rfl⟩ := h k (.head _)
      obtain ⟨s', hs'⟩ := ih (fun k hk => h k (.tail _ hk)) (s.record (.close (.client id)))
      exact ⟨s', by simpa [runDeferred, Go.bind_apply, kmsClose] using hs'⟩

end Deferred

/-! ### A backend that answers every call -/

/-- A backend on which every call succeeds: RSA, Cloud KMS and EKM wrapping are the
identity, the KMS answers with correct checksums for an enabled SOFTWARE key, and a share
is its own hash. -/
def Env.echo : Env where
  newKeyManagementClient _ _ := .ok ()
  getCryptoKey _ _ := .ok ⟨some ⟨.enabled, .software, none⟩⟩
  encrypt _ req := .ok ⟨req.plaintext, some (crcValue req.plaintext), true⟩
  decrypt _ req := .ok ⟨req.ciphertext, some (crcValue req.ciphertext)⟩
  generateTokenWithAudience _ _ := .ok "token"
  establishSecureSession _ _ _ _ := .ok ()
  confidentialWrap _ _ _ _ pt := .ok pt
  confidentialUnwrap _ _ _ _ ct := .ok ct
  endSession _ _ := .ok ()
  urlParse u := .ok ⟨"https", u, u⟩
  publicKeyForRSAFingerprint _ _ := .ok []
  privateKeyForRSAFingerprint _ _ := .ok []
  encryptOAEP _ pt := .ok pt
  decryptOAEP _ ct := .ok ct
  hashShare b := b
  validateShare b h := b == h

/-- `Env.echo` with every Cloud KMS key of EXTERNAL protection, whose external key URI
is `uri`. -/
def Env.external (uri : String) : Env :=
  { Env.echo with getCryptoKey := fun _ _ => .ok ⟨some ⟨.enabled, .external, some ⟨uri⟩⟩⟩ }

variable (env : Env) (keys : AsymmetricKeys)

/-! ### `wrapShares` -/

/-- The `switch` on the protection level in `wrapShares`: the share wrapped under the key
`kmd` describes. -/
def wrapWithMetadata (kmd : KekMetadata) (share : Bytes) : Go (Sys StetClient) Bytes :=
  match kmd.protectionLevel with
  | .software | .hsm =>
      Go.wrapError "error wrapping key share: " (wrapKMSShare env share kmd.resourceName)
  | .external =>
      Go.wrapError "error wrapping with secure session: " (ekmSecureSessionWrap env share kmd)
  | pl => Go.fail ("unsupported protection level " ++ pl.name)

/-- One iteration of `wrapShares`'s loop: the wrapped share, and the key URI the loop
appends for a KEK URI. -/
def wrapShare (kek : KekInfo) (share : Bytes) : Go (Sys StetClient) (WrappedShare × Option String) :=
  match kek with
  | .rsaFingerprint _ => do
      let key ← Go.wrapError "failed to find public key for RSA fingerprint: "
        (Go.ofExcept (env.publicKeyForRSAFingerprint kek keys))
      let ct ← Go.wrapError "error wrapping key share: " (Go.ofExcept (env.encryptOAEP key share))
      pure (⟨ct, env.hashShare share⟩, none)
  | .kekUri _ => do
      Go.wrapError "error initializing KMS Client: " (initializeKMSClient env)
      deferKmsClose
      let c := (← get).client
      let kmd ← Go.wrapError "Error retrieving KEK Metadata: " (getKekURIMetadata env c.kmsClient kek)
      let ct ← wrapWithMetadata env kmd share
      pure (⟨ct, env.hashShare share⟩, some kmd.uri)
  | .unset => Go.fail "unsupported KekInfo type: <nil>"

/-- The loop of `wrapShares` from position `i`. -/
def wrapSharesLoop (kekInfos : List KekInfo) :
    Nat → List Bytes → Go (Sys StetClient) (List WrappedShare × List String)
  | _, [] => pure ([], [])
  | i, share :: rest => do
      let kek ← Go.index kekInfos i
      let (w, uri) ← wrapShare env keys kek share
      let (ws, uris) ← wrapSharesLoop kekInfos (i + 1) rest
      pure (w :: ws, uri.toList ++ uris)

/-- `wrapShares`: the wrapped shares and the key URIs of the KEK URI positions. -/
def wrapShares (unwrappedShares : List Bytes) (kekInfos : List KekInfo) :
    Go (Sys StetClient) (List WrappedShare × List String) :=
  withDeferred do
    if unwrappedShares.length ≠ kekInfos.length then
      Go.fail ("number of shares to wrap (" ++ toString unwrappedShares.length ++
        ") does not match number of KEKs (" ++ toString kekInfos.length ++ ")")
    else wrapSharesLoop env keys kekInfos 0 unwrappedShares

/-! ### `unwrapAndValidateShares` -/

/-- The `switch` on the protection level in `unwrapAndValidateShares`: the unwrapped
share, or the error the source logs before `continue`. -/
def unwrapWithMetadata (kmd : KekMetadata) (wrapped : WrappedShare) :
    Go (Sys StetClient) (Except String Bytes) :=
  match kmd.protectionLevel with
  | .software | .hsm => Go.attempt (unwrapKMSShare env wrapped.share kmd.resourceName)
  | .external => Go.attempt (ekmSecureSessionUnwrap env wrapped.share kmd)
  | pl => pure (.error ("Unsupported protection level " ++ pl.name))

/-- The `switch` of one iteration of `unwrapAndValidateShares`: the unwrapped share and
the URI of its key, or `none` where the source records a failure and continues. A failed
metadata lookup returns from the function. -/
def unwrapShare (kek : KekInfo) (wrapped : WrappedShare) :
    Go (Sys StetClient) (Option UnwrappedShare) :=
  match kek with
  | .rsaFingerprint _ =>
      match env.privateKeyForRSAFingerprint kek keys with
      | .error _ => pure none
      | .ok key =>
          match env.decryptOAEP key wrapped.share with
          | .error _ => pure none
          | .ok pt => pure (some ⟨pt, ""⟩)
  | .kekUri _ => do
      match ← Go.attempt (initializeKMSClient env) with
      | .error _ => pure none
      | .ok () => do
          deferKmsClose
          let c := (← get).client
          let kmd ← Go.wrapError "Error retrieving KEK Metadata: "
            (getKekURIMetadata env c.kmsClient kek)
          match ← unwrapWithMetadata env kmd wrapped with
          | .error _ => pure none
          | .ok pt => pure (some ⟨pt, kmd.uri⟩)
  | .unset => pure none

/-- One iteration of `unwrapAndValidateShares`'s loop: the share is kept when its hash
checks. -/
def unwrapAndValidateShare (kek : KekInfo) (wrapped : WrappedShare) :
    Go (Sys StetClient) (Option UnwrappedShare) := do
  let u ← unwrapShare env keys kek wrapped
  pure (u.filter fun u => env.validateShare u.share wrapped.hash)

/-- The loop of `unwrapAndValidateShares` from position `i`. -/
def unwrapAndValidateLoop (kekInfos : List KekInfo) :
    Nat → List WrappedShare → Go (Sys StetClient) (List UnwrappedShare)
  | _, [] => pure []
  | i, wrapped :: rest => do
      let kek ← Go.index kekInfos i
      let u ← unwrapAndValidateShare env keys kek wrapped
      let us ← unwrapAndValidateLoop kekInfos (i + 1) rest
      pure (u.toList ++ us)

/-- `unwrapAndValidateShares`. -/
def unwrapAndValidateShares (wrappedShares : List WrappedShare) (kekInfos : List KekInfo) :
    Go (Sys StetClient) (List UnwrappedShare) :=
  withDeferred do
    if wrappedShares.length ≠ kekInfos.length then
      Go.fail ("number of shares to unwrap (" ++ toString wrappedShares.length ++
        ") does not match number of KEKs (" ++ toString kekInfos.length ++ ")")
    else unwrapAndValidateLoop env keys kekInfos 0 wrappedShares

/-- Three positions at which the loop does not go on to the next share: a failed metadata
lookup returns an error, and a KEK URI after a failed client creation, or a KMS answer
without a checksum wrapper, panics. -/
theorem unwrapAndValidateShares_aborts :
    (∃ s', unwrapAndValidateShares { Env.echo with getCryptoKey := fun _ _ => .error "unavailable" }
      ⟨[], []⟩ [⟨[7], [7]⟩] [.kekUri "gcp-kms://k"] (Sys.start StetClient.new) =
        .error (.error "Error retrieving KEK Metadata: error retrieving key metadata: unavailable")
          s') ∧
    (∃ s', unwrapAndValidateShares
      { Env.echo with newKeyManagementClient := fun _ _ => .error "no credentials" }
      ⟨[], []⟩ [⟨[7], [7]⟩, ⟨[7], [7]⟩] [.kekUri "gcp-kms://k", .kekUri "gcp-kms://k"]
      (Sys.start StetClient.new) = .error (.panic nilDereference) s') ∧
    (∃ s', unwrapAndValidateShares
      { Env.echo with decrypt := fun _ req => .ok ⟨req.ciphertext, none⟩ }
      ⟨[], []⟩ [⟨[7], [7]⟩] [.kekUri "gcp-kms://k"] (Sys.start StetClient.new) =
        .error (.panic nilDereference) s') :=
  ⟨⟨_, rfl⟩, ⟨_, rfl⟩, ⟨_, rfl⟩⟩

/-- What `kek`'s backend answered for the share `pt` to be wrapped to `ct`, with the key
URI the loop appends for it. -/
inductive WrapsTo : KekInfo → Bytes → Bytes → Option String → Prop
  | rsa {fp : String} {pub pt ct : Bytes} :
      env.publicKeyForRSAFingerprint (.rsaFingerprint fp) keys = .ok pub →
      env.encryptOAEP pub pt = .ok ct → WrapsTo (.rsaFingerprint fp) pt ct none
  | kms {uri : String} {md : KekMetadata} {t t' : Nat} {pt : Bytes} {r : EncryptResponse} :
      kekMetadataAt env t uri = .ok md →
      (md.protectionLevel = .software ∨ md.protectionLevel = .hsm) →
      env.encrypt t' ⟨md.resourceName, pt, some (crcValue pt)⟩ = .ok r →
      r.verifiedPlaintextCrc32C = true → r.ciphertextCrc32C = some (crcValue r.ciphertext) →
      WrapsTo (.kekUri uri) pt r.ciphertext (some md.uri)
  | ekm {uri : String} {md : KekMetadata} {t t' : Nat} {addr kp : String} {sc : SessionClient}
      {pt ct : Bytes} :
      kekMetadataAt env t uri = .ok md → md.protectionLevel = .external →
      parseEKMKeyURI env md.uri = .ok (addr, kp) →
      env.confidentialWrap t' sc kp md.resourceName pt = .ok ct →
      env.endSession (t' + 1) sc = .ok () → WrapsTo (.kekUri uri) pt ct (some md.uri)

/-- What `kek`'s backend answered for the wrapped share `ct` to be unwrapped to `u`:
the share, and the URI reported for it, empty for an RSA key. -/
inductive UnwrapsTo : KekInfo → Bytes → UnwrappedShare → Prop
  | rsa {fp : String} {priv ct pt : Bytes} :
      env.privateKeyForRSAFingerprint (.rsaFingerprint fp) keys = .ok priv →
      env.decryptOAEP priv ct = .ok pt → UnwrapsTo (.rsaFingerprint fp) ct ⟨pt, ""⟩
  | kms {uri : String} {md : KekMetadata} {t t' : Nat} {ct : Bytes} {r : DecryptResponse} :
      kekMetadataAt env t uri = .ok md →
      (md.protectionLevel = .software ∨ md.protectionLevel = .hsm) →
      env.decrypt t' ⟨md.resourceName, ct, some (crcValue ct)⟩ = .ok r →
      r.plaintextCrc32C = some (crcValue r.plaintext) →
      UnwrapsTo (.kekUri uri) ct ⟨r.plaintext, md.uri⟩
  | ekm {uri : String} {md : KekMetadata} {t t' : Nat} {addr kp : String} {sc : SessionClient}
      {ct pt : Bytes} :
      kekMetadataAt env t uri = .ok md → md.protectionLevel = .external →
      parseEKMKeyURI env md.uri = .ok (addr, kp) →
      env.confidentialUnwrap t' sc kp md.resourceName ct = .ok pt →
      env.endSession (t' + 1) sc = .ok () → UnwrapsTo (.kekUri uri) ct ⟨pt, md.uri⟩

section Sound

variable {env keys} {s s' : Sys StetClient}

theorem wrapWithMetadata_sound {md : KekMetadata} {pt ct : Bytes} {uri : String} {t : Nat}
    (hmd : kekMetadataAt env t uri = .ok md) (h : wrapWithMetadata env md pt s = .ok ct s') :
    WrapsTo env keys (.kekUri uri) pt ct (some md.uri) := by
  unfold wrapWithMetadata at h
  cases hpl : md.protectionLevel <;>
    simp only [hpl, Go.wrapError_eq_ok, Go.fail_apply, reduceCtorEq] at h
  case external =>
    obtain ⟨addr, kp, sc, t', hp, ha, he⟩ := ekmSecureSession_sound env h
    exact .ekm hmd hpl hp ha he
  all_goals
    simp only [wrapKMSShare, Go.bind_eq_ok] at h
    obtain ⟨_, _, -, hw⟩ := h
    obtain ⟨t', r, he, hv, hc, rfl⟩ := wrapKMSShareOn_sound env hw
    exact .kms hmd (by simp [hpl]) he hv hc

theorem wrapShare_sound {kek : KekInfo} {pt : Bytes} {w : WrappedShare} {o : Option String}
    (h : wrapShare env keys kek pt s = .ok (w, o) s') :
    w.hash = env.hashShare pt ∧ WrapsTo env keys kek pt w.share o := by
  cases kek with
  | rsaFingerprint fp =>
      simp only [wrapShare, Go.bind_eq_ok, Go.wrapError_eq_ok, Go.ofExcept_eq_ok] at h
      obtain ⟨pub, s₁, ⟨hp, rfl⟩, ct, s₂, ⟨hc, rfl⟩, h₃⟩ := h
      simp only [Go.pure_eq_ok, Prod.mk.injEq] at h₃
      obtain ⟨⟨rfl, rfl⟩, rfl⟩ := h₃
      exact ⟨rfl, .rsa hp hc⟩
  | kekUri uri =>
      simp only [wrapShare, Go.bind_eq_ok, Go.wrapError_eq_ok, Go.pure_eq_ok, Prod.mk.injEq] at h
      obtain ⟨_, s₁, -, _, s₂, -, c, s₃, -, md, s₄, hm, ct, s₅, hct, ⟨rfl, rfl⟩, rfl⟩ := h
      obtain ⟨uri', hu, t, hmd⟩ := getKekURIMetadata_sound env hm
      cases hu
      exact ⟨rfl, wrapWithMetadata_sound hmd hct⟩
  | unset => cases h

theorem unwrapWithMetadata_sound {md : KekMetadata} {w : WrappedShare} {pt : Bytes}
    {uri : String} {t : Nat} (hmd : kekMetadataAt env t uri = .ok md)
    (h : unwrapWithMetadata env md w s = .ok (.ok pt) s') :
    UnwrapsTo env keys (.kekUri uri) w.share ⟨pt, md.uri⟩ := by
  unfold unwrapWithMetadata at h
  cases hpl : md.protectionLevel <;> simp only [hpl, Go.pure_eq_ok, reduceCtorEq, false_and] at h
  case external =>
    obtain ⟨addr, kp, sc, t', hp, ha, he⟩ := ekmSecureSession_sound env (Go.attempt_eq_ok h)
    exact .ekm hmd hpl hp ha he
  all_goals
    have h := Go.attempt_eq_ok h
    simp only [unwrapKMSShare, Go.bind_eq_ok] at h
    obtain ⟨_, _, -, hk⟩ := h
    obtain ⟨t', r, hd, rfl, hc⟩ := unwrapKMSShareOn_sound env hk
    exact .kms hmd (by simp [hpl]) hd hc

theorem unwrapShare_sound {kek : KekInfo} {w : WrappedShare} {u : UnwrappedShare}
    (h : unwrapShare env keys kek w s = .ok (some u) s') : UnwrapsTo env keys kek w.share u := by
  cases kek with
  | rsaFingerprint fp =>
      simp only [unwrapShare] at h
      cases hk : env.privateKeyForRSAFingerprint (.rsaFingerprint fp) keys with
      | error e => simp [hk] at h
      | ok priv =>
          cases hd : env.decryptOAEP priv w.share with
          | error e => simp [hk, hd] at h
          | ok pt =>
              simp only [hk, hd, Go.pure_eq_ok, Option.some.injEq] at h
              obtain ⟨rfl, -⟩ := h
              exact .rsa hk hd
  | kekUri uri =>
      simp only [unwrapShare, Go.bind_eq_ok] at h
      obtain ⟨r, s₁, -, h⟩ := h
      cases r with
      | error e => simp at h
      | ok _ =>
          simp only [Go.bind_eq_ok, Go.wrapError_eq_ok] at h
          obtain ⟨_, s₂, -, c, s₃, -, md, s₄, hm, r, s₅, hr, h⟩ := h
          obtain ⟨uri', hu, t, hmd⟩ := getKekURIMetadata_sound env hm
          cases hu
          cases r with
          | error e => simp at h
          | ok pt =>
              simp only [Go.pure_eq_ok, Option.some.injEq] at h
              obtain ⟨rfl, -⟩ := h
              exact unwrapWithMetadata_sound hmd hr
  | unset => simp [unwrapShare] at h

end Sound

/-! ### Exactly what a position yields -/

/-- What the protection-level switch needs from the backends, with its first call made at
time `t` and the session settings `fake` and `skipVerify`, to unwrap `ct` to `pt` under the
key `md` describes. -/
inductive UnwrapsWithAt (fake skipVerify : Bool) (md : KekMetadata) (ct : Bytes) (t : Nat) :
    Bytes → Prop
  | kms {r : DecryptResponse} : (md.protectionLevel = .software ∨ md.protectionLevel = .hsm) →
      env.decrypt t ⟨md.resourceName, ct, some (crcValue ct)⟩ = .ok r →
      r.plaintextCrc32C = some (crcValue r.plaintext) →
      UnwrapsWithAt fake skipVerify md ct t r.plaintext
  | ekm {addr kp : String} {sc : SessionClient} {t' : Nat} {pt : Bytes} :
      md.protectionLevel = .external → parseEKMKeyURI env md.uri = .ok (addr, kp) →
      SessionAt env fake skipVerify addr md t sc t' →
      env.confidentialUnwrap t' sc kp md.resourceName ct = .ok pt →
      env.endSession (t' + 1) sc = .ok () → UnwrapsWithAt fake skipVerify md ct t pt

/-- What `kek`'s backend answered, at the times a loop position that starts in `s` makes its
calls, for the wrapped share `w` to be unwrapped to `u`. -/
inductive UnwrapsAt : KekInfo → WrappedShare → Sys StetClient → UnwrappedShare → Prop
  | rsa {fp : String} {w : WrappedShare} {s : Sys StetClient} {priv pt : Bytes} :
      env.privateKeyForRSAFingerprint (.rsaFingerprint fp) keys = .ok priv →
      env.decryptOAEP priv w.share = .ok pt → UnwrapsAt (.rsaFingerprint fp) w s ⟨pt, ""⟩
  | kekUri {uri : String} {w : WrappedShare} {s : Sys StetClient} {t : Nat} {md : KekMetadata}
      {pt : Bytes} : KmsReadyAt env s t → kekMetadataAt env t uri = .ok md →
      UnwrapsWithAt env s.client.fakeSecureSessionClient s.client.insecureSkipVerify md w.share
        (t + 1) pt →
      UnwrapsAt (.kekUri uri) w s ⟨pt, md.uri⟩

section Exact

variable {env keys} {s s' : Sys StetClient}

/-- The protection-level switch, on a client its metadata lookup reached, unwraps to `pt`
exactly when the backends answered as `UnwrapsWithAt` says. -/
theorem unwrapWithMetadata_eq_ok_iff {md : KekMetadata} {w : WrappedShare}
    {r : Except String Bytes} (hreach : reaches s.log s.client.kmsClient)
    (h : unwrapWithMetadata env md w s = .ok r s') (pt : Bytes) :
    r = .ok pt ↔ UnwrapsWithAt env s.client.fakeSecureSessionClient s.client.insecureSkipVerify md
      w.share s.log.length pt := by
  unfold unwrapWithMetadata at h
  cases hpl : md.protectionLevel <;> simp only [hpl] at h
  case software | hsm =>
    rw [Go.attempt_eq_ok_iff h, unwrapKMSShare]
    simp only [Go.bind_apply, Go.get_apply]
    rw [unwrapKMSShareOn_eq_ok_iff env hreach]
    constructor
    · rintro ⟨r, hd, hc, rfl⟩
      exact .kms (by simp [hpl]) hd hc
    · intro hu
      cases hu with
      | kms _ hd hc => exact ⟨_, hd, hc, rfl⟩
      | ekm hpl' => simp [hpl] at hpl'
  case external =>
    rw [Go.attempt_eq_ok_iff h, ekmSecureSessionUnwrap, ekmSecureSession_eq_ok_iff env]
    constructor
    · rintro ⟨addr, kp, sc, t', hp, hs, ha, he⟩
      exact .ekm hpl hp hs ha he
    · intro hu
      cases hu with
      | kms hpl' => simp [hpl] at hpl'
      | ekm _ hp hs ha he => exact ⟨_, _, _, _, hp, hs, ha, he⟩
  all_goals
    obtain ⟨rfl, -⟩ := Go.pure_eq_ok.mp h
    simp only [reduceCtorEq, false_iff]
    intro hu
    cases hu <;> simp_all

/-- One position of the unwrap loop that returned yields the share `u` exactly when its
KEK's backend answered as `UnwrapsAt` says, at the times the state it started in fixes. -/
theorem unwrapShare_eq_some_iff {kek : KekInfo} {w : WrappedShare} {o : Option UnwrappedShare}
    (h : unwrapShare env keys kek w s = .ok o s') (u : UnwrappedShare) :
    o = some u ↔ UnwrapsAt env keys kek w s u := by
  cases kek with
  | rsaFingerprint fp =>
      simp only [unwrapShare] at h
      cases hk : env.privateKeyForRSAFingerprint (.rsaFingerprint fp) keys with
      | error e =>
          simp only [hk, Go.pure_eq_ok] at h
          obtain ⟨rfl, -⟩ := h
          simp only [reduceCtorEq, false_iff]
          intro hu
          cases hu
          simp_all
      | ok priv =>
          cases hd : env.decryptOAEP priv w.share with
          | error e =>
              simp only [hk, hd, Go.pure_eq_ok] at h
              obtain ⟨rfl, -⟩ := h
              simp only [reduceCtorEq, false_iff]
              intro hu
              cases hu with
              | rsa hk' hd' => simp_all
          | ok pt =>
              simp only [hk, hd, Go.pure_eq_ok] at h
              obtain ⟨rfl, -⟩ := h
              constructor
              · rintro ⟨⟩
                exact .rsa hk hd
              · intro hu
                cases hu with
                | rsa hk' hd' =>
                    rw [hk] at hk'
                    cases hk'
                    rw [hd] at hd'
                    cases hd'
                    rfl
  | kekUri uri =>
      simp only [unwrapShare, Go.bind_eq_ok] at h
      obtain ⟨r₁, s₁, h₁, h⟩ := h
      cases r₁ with
      | error e =>
          obtain ⟨rfl, -⟩ := Go.pure_eq_ok.mp h
          simp only [reduceCtorEq, false_iff]
          intro hu
          cases hu with
          | kekUri hready _ _ =>
              obtain ⟨s'', hi, -⟩ := (initializeKMSClient_eq_ok_iff env).mpr hready
              cases (Go.attempt_eq_ok_iff h₁ ()).mpr ⟨s'', hi⟩
      | ok _ =>
          have hi : initializeKMSClient env s = .ok () s₁ := Go.attempt_eq_ok h₁
          have hready := (initializeKMSClient_eq_ok_iff env).mp ⟨s₁, hi, rfl⟩
          obtain ⟨hf, hsk, -⟩ := initializeKMSClient_client env hi
          simp only [Go.bind_eq_ok, deferKmsClose_apply, Go.get_apply, Go.wrapError_eq_ok,
            EStateM.Result.ok.injEq] at h
          obtain ⟨_, _, ⟨-, rfl⟩, _, _, ⟨rfl, rfl⟩, md, s₄, hm, r, s₅, hr, h⟩ := h
          obtain ⟨hmd, hreach, rfl⟩ := getKekURIMetadata_eq_ok env hm
          have hw := unwrapWithMetadata_eq_ok_iff (reaches_append hreach (by simp)) hr
          simp only [Sys.record_client, Sys.record_log, List.length_append,
            List.length_singleton, hf, hsk] at hw
          -- a position that `UnwrapsAt` describes reads the metadata this run read
          have hat : ∀ {t md' pt}, KmsReadyAt env s t → kekMetadataAt env t uri = .ok md' →
              UnwrapsWithAt env s.client.fakeSecureSessionClient s.client.insecureSkipVerify md'
                w.share (t + 1) pt → md' = md ∧ r = .ok pt := by
            intro t md' pt hready' hmd' hu'
            obtain ⟨s'', hi', rfl⟩ := (initializeKMSClient_eq_ok_iff env).mpr hready'
            rw [hi] at hi'
            cases hi'
            rw [hmd] at hmd'
            cases hmd'
            exact ⟨rfl, (hw pt).mpr hu'⟩
          cases r with
          | error e =>
              obtain ⟨rfl, -⟩ := Go.pure_eq_ok.mp h
              simp only [reduceCtorEq, false_iff]
              intro hu
              cases hu with
              | kekUri hready' hmd' hu' => cases (hat hready' hmd' hu').2
          | ok pt =>
              obtain ⟨rfl, -⟩ := Go.pure_eq_ok.mp h
              constructor
              · rintro ⟨⟩
                exact .kekUri hready hmd ((hw pt).mp rfl)
              · intro hu
                cases hu with
                | kekUri hready' hmd' hu' =>
                    obtain ⟨rfl, hpt⟩ := hat hready' hmd' hu'
                    cases hpt
                    rfl
  | unset =>
      obtain ⟨rfl, -⟩ := Go.pure_eq_ok.mp h
      simp only [reduceCtorEq, false_iff]
      intro hu
      cases hu

end Exact

/-! ### Runs of the loops -/

/-- Position by position from `i`, what the loop of `wrapShares` did: each share wrapped
under the KEK at its position, with its hash, and the key URI appended for it. -/
inductive WrapsFrom (kekInfos : List KekInfo) :
    Nat → List Bytes → List WrappedShare → List (Option String) → Prop
  | nil {i : Nat} : WrapsFrom kekInfos i [] [] []
  | cons {i : Nat} {kek : KekInfo} {pt : Bytes} {pts : List Bytes} {w : WrappedShare}
      {ws : List WrappedShare} {o : Option String} {os : List (Option String)} :
      kekInfos[i]? = some kek → w.hash = env.hashShare pt → WrapsTo env keys kek pt w.share o →
      WrapsFrom kekInfos (i + 1) pts ws os → WrapsFrom kekInfos i (pt :: pts) (w :: ws) (o :: os)

/-- A run of the loop of `unwrapAndValidateShares` from position `i` and state `s`: what
each position yielded, which is exactly the share its KEK's backend gave at the times of
the run (`UnwrapsAt`), and the state its `switch` left for the next position. -/
inductive UnwrapRun (kekInfos : List KekInfo) :
    Nat → List WrappedShare → List (Option UnwrappedShare) → Sys StetClient → Prop
  | nil {i : Nat} {s : Sys StetClient} : UnwrapRun kekInfos i [] [] s
  | cons {i : Nat} {kek : KekInfo} {w : WrappedShare} {ws : List WrappedShare}
      {o : Option UnwrappedShare} {os : List (Option UnwrappedShare)} {s s₁ : Sys StetClient} :
      kekInfos[i]? = some kek → (∀ u, o = some u ↔ UnwrapsAt env keys kek w s u) →
      unwrapShare env keys kek w s = .ok o s₁ →
      UnwrapRun kekInfos (i + 1) ws os s₁ → UnwrapRun kekInfos i (w :: ws) (o :: os) s

/-- The shares a run keeps, in position order: each position's unwrapped share, when its
hash checks against the hash stored at that position. -/
def retained (ws : List WrappedShare) (os : List (Option UnwrappedShare)) :
    List UnwrappedShare :=
  (ws.zip os).filterMap fun p => p.2.filter fun u => env.validateShare u.share p.1.hash

theorem retained_cons (w : WrappedShare) (ws : List WrappedShare) (o : Option UnwrappedShare)
    (os : List (Option UnwrappedShare)) :
    retained env (w :: ws) (o :: os) =
      (o.filter fun u => env.validateShare u.share w.hash).toList ++ retained env ws os := by
  cases o with
  | none => rfl
  | some u => by_cases hv : env.validateShare u.share w.hash <;> simp [retained, Option.filter, hv]

section Loops

variable {env keys} {kekInfos : List KekInfo} {s s' : Sys StetClient}

theorem wrapSharesLoop_sound {i : Nat} {pts : List Bytes} {ws : List WrappedShare}
    {uris : List String} (h : wrapSharesLoop env keys kekInfos i pts s = .ok (ws, uris) s') :
    ∃ os, WrapsFrom env keys kekInfos i pts ws os ∧ uris = os.reduceOption := by
  induction pts generalizing i s s' ws uris with
  | nil =>
      simp only [wrapSharesLoop, Go.pure_eq_ok, Prod.mk.injEq] at h
      obtain ⟨⟨rfl, rfl⟩, -⟩ := h
      exact ⟨[], .nil, rfl⟩
  | cons pt pts ih =>
      simp only [wrapSharesLoop, Go.bind_eq_ok] at h
      obtain ⟨kek, s₁, hk, ⟨w, o⟩, s₂, hw, ⟨ws', uris'⟩, s₃, hl, h⟩ := h
      simp only [Go.pure_eq_ok, Prod.mk.injEq] at h
      obtain ⟨⟨rfl, rfl⟩, -⟩ := h
      obtain ⟨os, hos, rfl⟩ := ih hl
      obtain ⟨hh, hw⟩ := wrapShare_sound hw
      exact ⟨o :: os, .cons (Go.index_eq_ok hk).1 hh hw hos, by cases o <;> rfl⟩

theorem unwrapAndValidateLoop_run {i : Nat} {ws : List WrappedShare} {us : List UnwrappedShare}
    (h : unwrapAndValidateLoop env keys kekInfos i ws s = .ok us s') :
    ∃ os, UnwrapRun env keys kekInfos i ws os s ∧ us = retained env ws os := by
  induction ws generalizing i s s' us with
  | nil =>
      simp only [unwrapAndValidateLoop, Go.pure_eq_ok] at h
      exact ⟨[], .nil, h.1.symm⟩
  | cons w ws ih =>
      simp only [unwrapAndValidateLoop, unwrapAndValidateShare, Go.bind_eq_ok] at h
      obtain ⟨kek, s₁, hk, _, s₂, ⟨o, s₃, ho, rfl, rfl⟩, us', s₄, hl, rfl, -⟩ := h
      obtain ⟨hk', rfl⟩ := Go.index_eq_ok hk
      obtain ⟨os, hos, rfl⟩ := ih hl
      exact ⟨o :: os, .cons hk' (unwrapShare_eq_some_iff ho) ho hos,
        (retained_cons env w ws o os).symm⟩

/-- Every share a run unwrapped was unwrapped by the KEK at its own position. -/
theorem UnwrapRun.sound {i : Nat} {ws : List WrappedShare} {os : List (Option UnwrappedShare)}
    (h : UnwrapRun env keys kekInfos i ws os s) (j : Nat) (u : UnwrappedShare)
    (hj : os[j]? = some (some u)) :
    ∃ kek w, kekInfos[i + j]? = some kek ∧ ws[j]? = some w ∧ UnwrapsTo env keys kek w.share u := by
  induction h generalizing j with
  | nil => cases hj
  | @cons i kek w ws o os s s₁ hk _ ho _ ih =>
      cases j with
      | zero =>
          obtain rfl : o = some u := by simpa using hj
          exact ⟨kek, w, hk, by simp, unwrapShare_sound ho⟩
      | succ j =>
          obtain ⟨kek', w', hk', hw', hu⟩ := ih j (by simpa using hj)
          exact ⟨kek', w', by rwa [Nat.add_succ, ← Nat.succ_add], by simpa using hw', hu⟩

theorem wrapShares_sound {pts : List Bytes} {ws : List WrappedShare} {uris : List String}
    (h : wrapShares env keys pts kekInfos s = .ok (ws, uris) s') :
    pts.length = kekInfos.length ∧
      ∃ os, WrapsFrom env keys kekInfos 0 pts ws os ∧ uris = os.reduceOption := by
  obtain ⟨s₁, hb, -⟩ := withDeferred_eq_ok h
  split at hb
  · simp at hb
  · exact ⟨by omega, wrapSharesLoop_sound hb⟩

theorem unwrapAndValidateShares_run {ws : List WrappedShare} {us : List UnwrappedShare}
    (h : unwrapAndValidateShares env keys ws kekInfos s = .ok us s') :
    ∃ os, UnwrapRun env keys kekInfos 0 ws os { s with deferred := [] } ∧
      us = retained env ws os := by
  obtain ⟨s₁, hb, -⟩ := withDeferred_eq_ok h
  split at hb
  · simp at hb
  · exact unwrapAndValidateLoop_run hb

/-- What `unwrapAndValidateShares` returns, when it returns: a run of its loop from the
state the body starts in, in which each position yielded a share exactly when its KEK's
backends answered as `UnwrapsAt` says at the times of that position, and of those shares
the ones whose hash checks against the hash stored at their own position, in position
order. Every share yielded was unwrapped by the KEK at its own position. -/
theorem unwrapAndValidateShares_result {ws : List WrappedShare} {us : List UnwrappedShare}
    (h : unwrapAndValidateShares env keys ws kekInfos s = .ok us s') :
    ∃ os, UnwrapRun env keys kekInfos 0 ws os { s with deferred := [] } ∧
      us = retained env ws os ∧
      ∀ (i : Nat) (u : UnwrappedShare), os[i]? = some (some u) → ∃ (kek : KekInfo) (w : WrappedShare),
        kekInfos[i]? = some kek ∧ ws[i]? = some w ∧ UnwrapsTo env keys kek w.share u := by
  obtain ⟨os, hrun, rfl⟩ := unwrapAndValidateShares_run h
  exact ⟨os, hrun, rfl, fun i u hu => by simpa using hrun.sound i u hu⟩

theorem unwrapAndValidateShares_result_echo :
    ∃ os, UnwrapRun Env.echo ⟨[], []⟩ [.kekUri "gcp-kms://k"] 0 [⟨[7], [7]⟩] os
        { Sys.start StetClient.new with deferred := [] } ∧
      [⟨[7], "gcp-kms://k"⟩] = retained Env.echo [⟨[7], [7]⟩] os ∧
      ∀ (i : Nat) (u : UnwrappedShare), os[i]? = some (some u) →
        ∃ (kek : KekInfo) (w : WrappedShare), [KekInfo.kekUri "gcp-kms://k"][i]? = some kek ∧
          [(⟨[7], [7]⟩ : WrappedShare)][i]? = some w ∧ UnwrapsTo Env.echo ⟨[], []⟩ kek w.share u :=
  unwrapAndValidateShares_result (show _ = EStateM.Result.ok _ (resultState
    (unwrapAndValidateShares Env.echo ⟨[], []⟩ [⟨[7], [7]⟩] [.kekUri "gcp-kms://k"]
      (Sys.start StetClient.new))) from rfl)

end Loops

/-! ### The share layer never writes the output stream -/

section Output

theorem keepsOutput_initializeKMSClient : KeepsOutput (initializeKMSClient env) := by
  unfold initializeKMSClient initializeKMSClientAs
  refine .get_bind fun s => ?_
  dsimp only
  split
  · exact .bind (keepsOutput_newKeyManagementClient env _) fun ⟨_, err⟩ =>
      .bind (.modify fun _ => rfl) fun _ => by cases err <;> first | exact .fail _ | exact .pure _
  · exact .pure _

theorem appends_wrapWithMetadata (kmd : KekMetadata) (share : Bytes) :
    Appends (wrapWithMetadata env kmd share) := by
  unfold wrapWithMetadata
  split
  · exact .wrapError _ (.get_bind fun _ => appends_wrapKMSShareOn env _ _ _)
  · exact .wrapError _ (.get_bind fun _ => appends_wrapKMSShareOn env _ _ _)
  · exact .wrapError _ (appends_ekmSecureSession env _ _ _ _)
  · exact .fail _

theorem appends_unwrapWithMetadata (kmd : KekMetadata) (w : WrappedShare) :
    Appends (unwrapWithMetadata env kmd w) := by
  unfold unwrapWithMetadata
  split
  · exact .attempt (.get_bind fun _ => appends_unwrapKMSShareOn env _ _ _)
  · exact .attempt (.get_bind fun _ => appends_unwrapKMSShareOn env _ _ _)
  · exact .attempt (appends_ekmSecureSession env _ _ _ _)
  · exact .pure _

theorem keepsOutput_wrapShare (kek : KekInfo) (share : Bytes) :
    KeepsOutput (wrapShare env keys kek share) := by
  cases kek with
  | rsaFingerprint _ =>
      exact .bind (.wrapError _ (.ofExcept _)) fun _ =>
        .bind (.wrapError _ (.ofExcept _)) fun _ => .pure _
  | kekUri _ =>
      exact .bind (.wrapError _ (keepsOutput_initializeKMSClient env)) fun _ =>
        .bind (.modify fun _ => rfl) fun _ => .get_bind fun _ =>
          .bind (.wrapError _ (.of_appends (appends_getKekURIMetadata env _ _))) fun _ =>
            .bind (.of_appends (appends_wrapWithMetadata env _ _)) fun _ => .pure _
  | unset => exact .fail _

theorem keepsOutput_unwrapAndValidateShare (kek : KekInfo) (w : WrappedShare) :
    KeepsOutput (unwrapAndValidateShare env keys kek w) := by
  refine .bind ?_ fun _ => .pure _
  cases kek with
  | rsaFingerprint _ =>
      simp only [unwrapShare]
      split
      · exact .pure _
      · split <;> exact .pure _
  | kekUri _ =>
      refine .bind (.attempt (keepsOutput_initializeKMSClient env)) fun r => ?_
      cases r
      · exact .pure _
      · exact .bind (.modify fun _ => rfl) fun _ => .get_bind fun _ =>
          .bind (.wrapError _ (.of_appends (appends_getKekURIMetadata env _ _))) fun _ =>
            .bind (.of_appends (appends_unwrapWithMetadata env _ _)) fun r => by
              cases r <;> exact .pure _
  | unset => exact .pure _

variable {C : Type}

theorem keepsOutput_runDeferred (hs : List KmsHandle) :
    KeepsOutput (runDeferred hs : Go (Sys C) Unit) := by
  induction hs with
  | nil => exact .pure _
  | cons h hs ih => exact .bind (keepsOutput_kmsClose h) fun _ => ih

theorem keepsOutput_withDeferred {α : Type} {body : Go (Sys C) α} (hb : KeepsOutput body) :
    KeepsOutput (withDeferred body) := by
  intro s
  have hb := hb { s with deferred := [] }
  unfold withDeferred
  split <;> rename_i s₁ h <;> rw [h] at hb <;>
    have hd := keepsOutput_runDeferred s₁.deferred { s₁ with deferred := s.deferred } <;>
    split <;> rename_i heq <;> rw [heq] at hd <;> exact hd.trans hb

theorem keepsOutput_wrapSharesLoop (kekInfos : List KekInfo) (i : Nat) (pts : List Bytes) :
    KeepsOutput (wrapSharesLoop env keys kekInfos i pts) := by
  induction pts generalizing i with
  | nil => exact .pure _
  | cons pt pts ih =>
      exact .bind (.index _ _) fun _ => .bind (keepsOutput_wrapShare env keys _ _) fun _ =>
        .bind (ih _) fun _ => .pure _

theorem keepsOutput_unwrapAndValidateLoop (kekInfos : List KekInfo) (i : Nat)
    (ws : List WrappedShare) : KeepsOutput (unwrapAndValidateLoop env keys kekInfos i ws) := by
  induction ws generalizing i with
  | nil => exact .pure _
  | cons w ws ih =>
      exact .bind (.index _ _) fun _ =>
        .bind (keepsOutput_unwrapAndValidateShare env keys _ _) fun _ => .bind (ih _) fun _ => .pure _

theorem keepsOutput_wrapShares (pts : List Bytes) (kekInfos : List KekInfo) :
    KeepsOutput (wrapShares env keys pts kekInfos) := by
  refine keepsOutput_withDeferred ?_
  split
  exacts [.fail _, keepsOutput_wrapSharesLoop env keys _ _ _]

theorem keepsOutput_unwrapAndValidateShares (ws : List WrappedShare) (kekInfos : List KekInfo) :
    KeepsOutput (unwrapAndValidateShares env keys ws kekInfos) := by
  refine keepsOutput_withDeferred ?_
  split
  exacts [.fail _, keepsOutput_unwrapAndValidateLoop env keys _ _ _]

end Output

end Stet.Client
