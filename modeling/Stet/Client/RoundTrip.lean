import Stet.Client.Shares

/-!
Unwrapping undoes wrapping, position by position. `wrapShares` is sound for `WrapsFrom`:
each share it returns was wrapped under the KEK at its own position. The converse
direction runs the other loop: under backends that invert their own wraps
(`RoundTrips`), `unwrapAndValidateShares` on a `WrapsFrom` run returns every share, in
order, paired with the URI the wrapping side reported for its position.

The unwrap side is run from a state whose KMS client is nil or live (`Usable`). A client
that an earlier call closed is not one: that is the reuse `Usable` is there to rule out,
and on such a client every Cloud KMS position of the unwrap fails. Between positions the
loop keeps `Ready`: the client stays live, and every `Close` it deferred has a client to
close, so the deferred calls at the end run through.
-/

namespace Stet.Client

open Stet

/-- Backends under which every KEK unwraps what it wrapped, and a key's metadata does not
change between calls. -/
structure RoundTrips (env : Env) (keys : AsymmetricKeys) : Prop where
  /-- Building a Cloud KMS client succeeds. -/
  newClient : ∀ t ua, env.newKeyManagementClient t ua = .ok ()
  /-- A key URI's metadata is the same at every call. -/
  metadata : ∀ t t' uri, kekMetadataAt env t uri = kekMetadataAt env t' uri
  /-- The private key of a fingerprint decrypts what its public key encrypted. -/
  rsa : ∀ fp pub pt ct, env.publicKeyForRSAFingerprint (.rsaFingerprint fp) keys = .ok pub →
    env.encryptOAEP pub pt = .ok ct →
    ∃ priv, env.privateKeyForRSAFingerprint (.rsaFingerprint fp) keys = .ok priv ∧
      env.decryptOAEP priv ct = .ok pt
  /-- Cloud KMS decrypts, at any later call, what it encrypted, with a correct checksum. -/
  kms : ∀ t t' name pt r, env.encrypt t ⟨name, pt, some (crcValue pt)⟩ = .ok r →
    env.decrypt t' ⟨name, r.ciphertext, some (crcValue r.ciphertext)⟩ =
      .ok ⟨pt, some (crcValue pt)⟩
  /-- Secure sessions are set up and torn down. -/
  sessions : SessionsWork env
  /-- A key manager unwraps, on any session, what it wrapped under the same key. -/
  ekm : ∀ t sc kp rn pt ct, env.confidentialWrap t sc kp rn pt = .ok ct →
    ∀ t' sc', env.confidentialUnwrap t' sc' kp rn ct = .ok pt

variable {env : Env} {keys : AsymmetricKeys} {s : Sys StetClient}

theorem WrapsTo.metadata {uri : String} {pt ct : Bytes} {o : Option String}
    (hw : WrapsTo env keys (.kekUri uri) pt ct o) :
    ∃ t md, kekMetadataAt env t uri = .ok md ∧ o = some md.uri := by
  cases hw with
  | kms hm => exact ⟨_, _, hm, rfl⟩
  | ekm hm => exact ⟨_, _, hm, rfl⟩

/-! ### One position -/

/-- On a live client, the protection-level switch unwraps what the same key wrapped. -/
theorem unwrapWithMetadata_of_wrapsTo (hr : RoundTrips env keys) {uri : String} {pt ct : Bytes}
    {o : Option String} (hw : WrapsTo env keys (.kekUri uri) pt ct o) {md : KekMetadata}
    (hmd : ∀ t, kekMetadataAt env t uri = .ok md) (hash : Bytes)
    (hl : live s.log s.client.kmsClient) :
    ∃ s', unwrapWithMetadata env md ⟨ct, hash⟩ s = .ok (.ok pt) s' ∧ s.Extends s' := by
  cases hw with
  | @kms _ _ _ _ _ r hm hpl he =>
      obtain rfl := Except.ok.inj ((hmd _).symm.trans hm)
      have hd := unwrapKMSShareOn_of_live env hl (hr.kms _ s.log.length _ _ _ he)
      have hu : unwrapWithMetadata env md ⟨r.ciphertext, hash⟩ s = .ok (.ok pt)
          (s.record (.decrypt s.client.kmsClient
            ⟨md.resourceName, r.ciphertext, some (crcValue r.ciphertext)⟩)) := by
        rcases hpl with hpl | hpl <;>
          simpa [unwrapWithMetadata, hpl, unwrapKMSShare, Go.bind_apply] using Go.attempt_of_ok hd
      exact ⟨_, hu, .record s (by simp)⟩
  | ekm hm hpl hp ha =>
      obtain rfl := Except.ok.inj ((hmd _).symm.trans hm)
      obtain ⟨s', hs', he⟩ := @ekmSecureSession_ok env hr.sessions .unwrap
        "error unwrapping with secure session: " ct pt md _ _ hp
        (fun t sc => hr.ekm _ _ _ _ _ _ ha t sc) s
      exact ⟨s', by simpa [unwrapWithMetadata, hpl] using Go.attempt_of_ok hs', he⟩

theorem exists_client_of_live {log : List Event} {h : KmsHandle} (hl : live log h) :
    ∃ id, h = .client id := by
  cases h with
  | client id => exact ⟨id, rfl⟩
  | nil | typedNil => cases hl

/-- On a ready state, one position unwraps what its KEK wrapped, and the state stays
ready. -/
theorem unwrapShare_of_wrapsTo (hr : RoundTrips env keys) {kek : KekInfo} {pt ct : Bytes}
    {o : Option String} (hw : WrapsTo env keys kek pt ct o) (hash : Bytes) (hs : Ready s) :
    ∃ s', unwrapShare env keys kek ⟨ct, hash⟩ s = .ok (some ⟨pt, o.getD ""⟩) s' ∧ Ready s' := by
  cases kek with
  | rsaFingerprint fp =>
      cases hw with
      | rsa hp hc =>
          obtain ⟨priv, hk, hd⟩ := hr.rsa _ _ _ _ hp hc
          exact ⟨s, by simp [unwrapShare, hk, hd], hs⟩
  | kekUri uri =>
      obtain ⟨t, md, hm, rfl⟩ := hw.metadata
      have hmd : ∀ t', kekMetadataAt env t' uri = .ok md := fun t' =>
        (hr.metadata t' t uri).trans hm
      obtain ⟨s₁, hi, hl, -, hd, -⟩ := initializeKMSClientAs_live env _ hs.usable hr.newClient
      -- `defer c.kmsClient.Close()` pushes the live client
      let s₂ : Sys StetClient := { s₁ with deferred := s₁.client.kmsClient :: s₁.deferred }
      have hl₂ : live s₂.log s₂.client.kmsClient := hl
      have hm₂ := getKekURIMetadata_of_live env hl₂ (hmd s₂.log.length)
      have hx₃ : s₂.Extends (s₂.record (.getCryptoKey s₂.client.kmsClient
          (trimPrefix uri gcpKeyPrefix))) := .record s₂ (by simp)
      have hr₂ : Ready s₂ := by
        refine ⟨.inr hl, fun h hh => ?_⟩
        rcases List.mem_cons.mp hh with rfl | hh
        · exact exists_client_of_live hl
        · exact hs.deferred h (hd ▸ hh)
      have hr₃ := hr₂.extend hx₃
      obtain ⟨s₄, hu, he⟩ := unwrapWithMetadata_of_wrapsTo hr hw hmd hash (hx₃.live hl)
      refine ⟨s₄, ?_, hr₃.extend he⟩
      exact Go.bind_eq_ok.mpr ⟨.ok (), s₁, Go.attempt_of_ok hi, Go.bind_eq_ok.mpr ⟨(), s₂, rfl,
        Go.bind_eq_ok.mpr ⟨s₂, s₂, rfl, Go.bind_eq_ok.mpr ⟨md, _, Go.wrapError_of_ok hm₂,
          Go.bind_eq_ok.mpr ⟨.ok pt, s₄, hu, rfl⟩⟩⟩⟩⟩
  | unset => cases hw

/-! ### The loop and the function -/

theorem WrapsFrom.length_eq {kekInfos : List KekInfo} {i : Nat} {pts : List Bytes}
    {ws : List WrappedShare} {os : List (Option String)}
    (h : WrapsFrom env keys kekInfos i pts ws os) :
    ws.length = pts.length ∧ os.length = pts.length := by
  induction h with
  | nil => exact ⟨rfl, rfl⟩
  | cons _ _ _ _ ih => simp [ih.1, ih.2]

theorem WrapsFrom.metadata_at {kekInfos : List KekInfo} {i : Nat} {pts : List Bytes}
    {ws : List WrappedShare} {os : List (Option String)}
    (h : WrapsFrom env keys kekInfos i pts ws os) {j : Nat} (hj : j < pts.length) {uri : String}
    (hk : kekInfos[i + j]? = some (.kekUri uri)) : ∃ t md, kekMetadataAt env t uri = .ok md := by
  induction h generalizing j with
  | nil => cases hj
  | @cons i kek _ _ _ _ _ _ hk' _ hw _ ih =>
      cases j with
      | zero =>
          obtain rfl : kek = .kekUri uri := Option.some.inj (hk'.symm.trans hk)
          obtain ⟨t, md, hm, -⟩ := hw.metadata
          exact ⟨t, md, hm⟩
      | succ j =>
          exact ih (j := j) (by simpa using hj) (by rwa [Nat.add_right_comm, Nat.add_assoc])

/-- A wrap run over every position had the metadata of every KEK URI answered, and so,
where metadata does not change, at every call. -/
theorem WrapsFrom.available (hr : RoundTrips env keys) {kekInfos : List KekInfo}
    {pts : List Bytes} {ws : List WrappedShare} {os : List (Option String)}
    (h : WrapsFrom env keys kekInfos 0 pts ws os) (hl : pts.length = kekInfos.length)
    (uri : String) (hu : KekInfo.kekUri uri ∈ kekInfos) :
    ∃ md, ∀ t, kekMetadataAt env t uri = .ok md := by
  obtain ⟨j, hj, hk⟩ := List.getElem_of_mem hu
  obtain ⟨t, md, hm⟩ := h.metadata_at (j := j) (by omega)
    (show kekInfos[0 + j]? = some (.kekUri uri) by
      rw [Nat.zero_add, List.getElem?_eq_getElem hj, hk])
  exact ⟨md, fun t' => (hr.metadata t' t uri).trans hm⟩

/-- From a ready state, the unwrap loop returns every share of a `WrapsFrom` run, in
order, each with the URI the wrapping side reported for its position. -/
theorem unwrapAndValidateLoop_of_wrapsFrom (hr : RoundTrips env keys)
    (hv : ∀ b, env.validateShare b (env.hashShare b) = true) {kekInfos : List KekInfo}
    {i : Nat} {pts : List Bytes} {ws : List WrappedShare} {os : List (Option String)}
    (hw : WrapsFrom env keys kekInfos i pts ws os) (hs : Ready s) :
    ∃ s', unwrapAndValidateLoop env keys kekInfos i ws s =
      .ok (List.zipWith (fun pt o => ⟨pt, o.getD ""⟩) pts os) s' ∧ Ready s' := by
  induction hw generalizing s with
  | nil => exact ⟨s, rfl, hs⟩
  | @cons i kek pt pts w ws o os hk hh hw _ ih =>
      obtain ⟨s₁, hu, hs₁⟩ := unwrapShare_of_wrapsTo hr hw w.hash hs
      obtain ⟨s₂, hl, hs₂⟩ := ih hs₁
      have hval : env.validateShare pt w.hash = true := hh ▸ hv pt
      refine ⟨s₂, ?_, hs₂⟩
      simp only [unwrapAndValidateLoop, Go.index_of_getElem? hk, unwrapAndValidateShare]
      exact Go.bind_eq_ok.mpr ⟨kek, s, rfl, Go.bind_eq_ok.mpr ⟨some ⟨pt, o.getD ""⟩, s₁,
        Go.bind_eq_ok.mpr ⟨_, s₁, hu, by simp [hval]⟩, Go.bind_eq_ok.mpr ⟨_, s₂, hl, rfl⟩⟩⟩

theorem unwrapAndValidateShares_of_wrapsFrom (hr : RoundTrips env keys)
    (hv : ∀ b, env.validateShare b (env.hashShare b) = true) {kekInfos : List KekInfo}
    {pts : List Bytes} {ws : List WrappedShare} {os : List (Option String)}
    (hw : WrapsFrom env keys kekInfos 0 pts ws os) (hl : pts.length = kekInfos.length)
    (hu : Usable s) :
    ∃ s', unwrapAndValidateShares env keys ws kekInfos s =
      .ok (List.zipWith (fun pt o => ⟨pt, o.getD ""⟩) pts os) s' := by
  obtain ⟨s₁, hl₁, hs₁⟩ := unwrapAndValidateLoop_of_wrapsFrom hr hv hw
    (show Ready { s with deferred := [] } from ⟨hu, by simp⟩)
  obtain ⟨s', hd⟩ := runDeferred_ok hs₁.deferred { s₁ with deferred := s.deferred }
  refine ⟨s', withDeferred_of_ok ?_ hd⟩
  rwa [if_neg (by rw [hw.length_eq.1]; omega)]

/-- Unwrapping undoes wrapping: what `wrapShares` returns is each share wrapped under the
KEK at its position, with its hash, and the URIs of the KEK URI positions in order; from
a usable client, `unwrapAndValidateShares` gives the shares back in order, each with its
position's URI, empty for an RSA key. -/
theorem wrapShares_roundTrip (hr : RoundTrips env keys)
    (hv : ∀ b, env.validateShare b (env.hashShare b) = true) {pts : List Bytes}
    {kekInfos : List KekInfo} {ws : List WrappedShare} {uris : List String}
    {s' : Sys StetClient} (h : wrapShares env keys pts kekInfos s = .ok (ws, uris) s')
    {r : Sys StetClient} (hu : Usable r) :
    ∃ os : List (Option String), ws.length = pts.length ∧
      WrapsFrom env keys kekInfos 0 pts ws os ∧ uris = os.reduceOption ∧
      ∃ r', unwrapAndValidateShares env keys ws kekInfos r =
        .ok (List.zipWith (fun pt o => ⟨pt, o.getD ""⟩) pts os) r' := by
  obtain ⟨hl, os, hw, rfl⟩ := wrapShares_sound h
  exact ⟨os, hw.length_eq.1, hw, rfl, unwrapAndValidateShares_of_wrapsFrom hr hv hw hl hu⟩

/-- The echoing backend inverts its own wraps, whatever the KMS says of its keys. -/
theorem roundTrips_echo_with (ck : CryptoKey) :
    RoundTrips { Env.echo with getCryptoKey := fun _ _ => .ok ck } ⟨[], []⟩ where
  newClient _ _ := rfl
  metadata _ _ _ := rfl
  rsa _ _ _ _ _ h := by cases h; exact ⟨[], rfl, rfl⟩
  kms _ _ _ _ _ h := by cases h; rfl
  sessions := ⟨fun _ _ => ⟨_, rfl⟩, fun _ _ _ _ => rfl, fun _ _ => rfl⟩
  ekm _ _ _ _ _ _ h _ _ := by cases h; rfl

theorem roundTrips_echo : RoundTrips Env.echo ⟨[], []⟩ :=
  roundTrips_echo_with ⟨some ⟨.enabled, .software, none⟩⟩

theorem wrapShares_roundTrip_echo :
    ∃ os : List (Option String), [(⟨[7], [7]⟩ : WrappedShare), ⟨[8], [8]⟩].length = 2 ∧
      WrapsFrom Env.echo ⟨[], []⟩ [.rsaFingerprint "f", .kekUri "gcp-kms://k"] 0 [[7], [8]]
        [⟨[7], [7]⟩, ⟨[8], [8]⟩] os ∧ ["gcp-kms://k"] = os.reduceOption ∧
      ∃ r', unwrapAndValidateShares Env.echo ⟨[], []⟩ [⟨[7], [7]⟩, ⟨[8], [8]⟩]
          [.rsaFingerprint "f", .kekUri "gcp-kms://k"] (Sys.start StetClient.new) =
        .ok (List.zipWith (fun pt o => ⟨pt, o.getD ""⟩) [[7], [8]] os) r' :=
  wrapShares_roundTrip roundTrips_echo (fun b => beq_self_eq_true b)
    (show wrapShares Env.echo ⟨[], []⟩ [[7], [8]] [.rsaFingerprint "f", .kekUri "gcp-kms://k"]
        (Sys.start StetClient.new) = .ok ([⟨[7], [7]⟩, ⟨[8], [8]⟩], ["gcp-kms://k"])
          (resultState (wrapShares Env.echo ⟨[], []⟩ [[7], [8]]
            [.rsaFingerprint "f", .kekUri "gcp-kms://k"] (Sys.start StetClient.new))) from rfl)
    (Or.inl rfl)

end Stet.Client
