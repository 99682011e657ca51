import Stet.Legacy.Orchestrator
import Stet.Client.EndToEnd

/-!
The earlier client's `Decrypt` undoes its `Encrypt`, on the backends under which the
current client's does (`Client.RoundTrips`) where `url.Parse` also accepts the address
`parseEKMKeyURI` builds for a key.

The two share loops meet at the current client's `WrapsFrom`: the earlier `wrapShares`
returns only runs that wrap each share under the KEK at its own position, with the same
backend answers the current client's runs have, and the earlier `unwrapAndValidateShares`
gives back the shares of every such run. So the share layer did not change between the
versions: what either client wraps, the other unwraps (`shares_interoperate`). The one
difference on the way is the address of an EKM, which the earlier client takes on the
proxy port, and asks it for the same key path (`parseEKMKeyURI_eq`).

What is new is the cached metadata. The wrap side reads a KEK URI's metadata from the slice
the first KEK URI of the loop loaded; the unwrap side loads the slice again and needs the
metadata of every KEK URI of the configuration, not only of its own. A run of the wrap loop over every
position has had each of them answered, and a key's metadata does not change between
calls.

Unlike the current client's round trip, this one has no size condition: the earlier
client hands the metadata back as a value and writes no container. And its `Decrypt`
reports every KEK URI of every configured `KeyConfig`, whether it unwrapped a share with
it or not.
-/

namespace Stet.Legacy

open Stet Stet.Client

/-- Backends under which the earlier client's KEKs unwrap what they wrapped: those of the
current client, where `url.Parse` also accepts the address of every EKM key. -/
structure RoundTrips (env : Env) (keys : AsymmetricKeys) : Prop where
  /-- Every KEK unwraps what it wrapped, as for the current client. -/
  current : Client.RoundTrips env keys
  /-- The address `parseEKMKeyURI` builds parses. -/
  address : ∀ uri addr kp, parseEKMKeyURI env uri = .ok (addr, kp) → ∃ u, env.urlParse addr = .ok u

/-- The contracts of the earlier client's collaborators: combining the shares of a split
gives the DEK back, and the AEAD decrypts what it encrypted under the same key and AAD. -/
structure Pipeline.Inverts (p : Pipeline) : Prop where
  combine : ∀ dek n t shares, p.splitShares dek n t = .ok shares → p.combineShares shares = .ok dek
  aead : ∀ k pt aad ct, p.aeadEncrypt k pt aad = .ok ct → p.aeadDecrypt k ct aad = .ok pt

variable (env : Env) (keys : AsymmetricKeys)

/-- The earlier client dials the key manager the current client names, on the proxy port
8842, and asks it for the same key path. -/
theorem parseEKMKeyURI_eq (uri : String) :
    parseEKMKeyURI env uri =
      (Client.parseEKMKeyURI env uri).map fun (addr, kp) => (addr ++ ":8842", kp) := by
  unfold parseEKMKeyURI Client.parseEKMKeyURI
  cases env.urlParse uri <;> rfl

/-! ### The wrap side -/

section Wrap

variable {env keys} {s s' : Sys StetClient}

theorem ekmSecureSession_sound {op : SessionOp} {pre : String} {p blob : Bytes}
    {md : KekMetadata} (h : ekmSecureSession env op pre p md s = .ok blob s') :
    ∃ addr kp sc t, Client.parseEKMKeyURI env md.uri = .ok (addr, kp) ∧
      op.answer env t sc kp md.resourceName p = .ok blob ∧ env.endSession (t + 1) sc = .ok () := by
  obtain ⟨addr, kp, sc, t, hp, ha, he⟩ := ekmSecureSessionWith_sound env h
  rw [parseEKMKeyURI_eq] at hp
  cases hc : Client.parseEKMKeyURI env md.uri with
  | error e => simp [hc, Except.map] at hp
  | ok ak =>
      simp only [hc, Except.map, Except.ok.injEq, Prod.mk.injEq] at hp
      exact ⟨ak.1, kp, sc, t, hp.2 ▸ rfl, ha, he⟩

theorem wrapWithMetadata_sound {md : KekMetadata} {pt ct : Bytes} {uri : String} {t : Nat}
    (hmd : kekMetadataAt env t uri = .ok md) (h : wrapWithMetadata env md pt s = .ok ct s') :
    Client.WrapsTo env keys (.kekUri uri) pt ct (some md.uri) := by
  unfold wrapWithMetadata at h
  cases hpl : md.protectionLevel <;>
    simp only [hpl, Go.wrapError_eq_ok, Go.fail_apply, reduceCtorEq] at h
  case external =>
    obtain ⟨addr, kp, sc, t', hp, ha, he⟩ := ekmSecureSession_sound h
    exact .ekm hmd hpl hp ha he
  all_goals
    simp only [Go.bind_eq_ok, Go.get_apply, Go.wrapError_eq_ok] at h
    obtain ⟨_, _, -, hw⟩ := h
    obtain ⟨t', r, he, hv, hc, rfl⟩ := wrapKMSShareOn_sound env hw
    exact .kms hmd (by simp [hpl]) he hv hc

/-- One position of the earlier wrap loop wraps under the KEK at the position, reading
its metadata from a slice that stays aligned. -/
theorem wrapShare_sound {kekInfos : List KekInfo} {i : Nat} {kek : KekInfo} {pt : Bytes}
    {kmds kmds' : List KekMetadata} {w : WrappedShare} (hk : kekInfos[i]? = some kek)
    (hc : Aligned env kekInfos kmds)
    (h : wrapShare env keys kekInfos i kek pt kmds s = .ok (w, kmds') s') :
    w.hash = env.hashShare pt ∧ (∃ o, Client.WrapsTo env keys kek pt w.share o) ∧
      Aligned env kekInfos kmds' := by
  cases kek with
  | rsaFingerprint fp =>
      simp only [wrapShare, Go.bind_eq_ok, Go.wrapError_eq_ok, Go.ofExcept_eq_ok] at h
      obtain ⟨pub, s₁, ⟨hp, rfl⟩, ct, s₂, ⟨hct, rfl⟩, h₃⟩ := h
      simp only [Go.pure_eq_ok, Prod.mk.injEq] at h₃
      obtain ⟨⟨rfl, rfl⟩, rfl⟩ := h₃
      exact ⟨rfl, ⟨_, .rsa hp hct⟩, hc⟩
  | kekUri uri =>
      simp only [wrapShare, Go.bind_eq_ok, Go.wrapError_eq_ok, Go.pure_eq_ok, Prod.mk.injEq,
        Prod.exists] at h
      obtain ⟨_, s₁, -, _, s₂, -, md, kmds'', s₃, hfor, ct, s₅, hct, ⟨rfl, rfl⟩, rfl⟩ := h
      obtain ⟨⟨t, hm⟩, hal⟩ := (nilSafe_kekMetadataFor hk hc).returns _ _ _ hfor
      exact ⟨rfl, ⟨_, wrapWithMetadata_sound hm hct⟩, hal⟩
  | unset => cases h

theorem wrapSharesLoop_sound {kekInfos : List KekInfo} {i : Nat} {pts : List Bytes}
    {kmds : List KekMetadata} {ws : List WrappedShare} (hc : Aligned env kekInfos kmds)
    (h : wrapSharesLoop env keys kekInfos i pts kmds s = .ok ws s') :
    ∃ os, Client.WrapsFrom env keys kekInfos i pts ws os := by
  induction pts generalizing i kmds s s' ws with
  | nil =>
      simp only [wrapSharesLoop, Go.pure_eq_ok] at h
      rw [← h.1]
      exact ⟨[], .nil⟩
  | cons pt pts ih =>
      simp only [wrapSharesLoop, Go.bind_eq_ok, Go.pure_eq_ok] at h
      obtain ⟨kek, s₁, hk, ⟨w, kmds'⟩, s₂, hw, ws', s₃, hl, rfl, -⟩ := h
      obtain ⟨hk', rfl⟩ := Go.index_eq_ok hk
      obtain ⟨hh, ⟨o, hw'⟩, hc'⟩ := wrapShare_sound hk' hc hw
      obtain ⟨os, hos⟩ := ih hc' hl
      exact ⟨o :: os, .cons hk' hh hw' hos⟩

theorem wrapShares_sound {pts : List Bytes} {kekInfos : List KekInfo} {ws : List WrappedShare}
    (h : wrapShares env keys pts kekInfos s = .ok ws s') :
    pts.length = kekInfos.length ∧ ∃ os, Client.WrapsFrom env keys kekInfos 0 pts ws os := by
  obtain ⟨s₁, hb, -⟩ := withDeferred_eq_ok h
  by_cases hl : pts.length = kekInfos.length
  · rw [if_neg (not_not.mpr hl)] at hb
    exact ⟨hl, wrapSharesLoop_sound (.inl rfl) hb⟩
  · rw [if_pos hl] at hb
    cases hb

end Wrap

/-! ### The unwrap side -/

section Unwrap

variable {env keys}

theorem protectionLevelsAndUris_of_live {C : Type} {h : KmsHandle} {kekInfos : List KekInfo}
    (hm : ∀ uri, KekInfo.kekUri uri ∈ kekInfos → ∃ md, ∀ t, kekMetadataAt env t uri = .ok md)
    {s : Sys C} (hl : live s.log h) :
    ∃ kmds s', protectionLevelsAndUris env h kekInfos s = .ok kmds s' ∧ s.Extends s' := by
  induction kekInfos generalizing s with
  | nil => exact ⟨[], s, rfl, .refl s⟩
  | cons kek rest ih =>
      have hk : ∃ md s₁, kekMetadataOfInfo env h kek s = .ok md s₁ ∧ s.Extends s₁ := by
        cases kek with
        | kekUri uri =>
            obtain ⟨md, hmd⟩ := hm uri (.head _)
            exact ⟨md, _, getKekURIMetadata_of_live env hl (hmd _), .record s (by simp)⟩
        | rsaFingerprint _ | unset => exact ⟨default, s, rfl, .refl s⟩
      obtain ⟨md, s₁, h₁, hx₁⟩ := hk
      obtain ⟨kmds, s₂, h₂, hx₂⟩ := ih (fun uri hu => hm uri (.tail _ hu)) (hx₁.live hl)
      refine ⟨md :: kmds, s₂, ?_, hx₁.trans hx₂⟩
      rw [protectionLevelsAndUris]
      exact Go.bind_eq_ok.mpr ⟨md, s₁, h₁, Go.bind_eq_ok.mpr ⟨kmds, s₂, h₂, rfl⟩⟩

theorem loadKekMetadatas_of_live {kekInfos : List KekInfo} {kmds : List KekMetadata}
    (hc : Aligned env kekInfos kmds)
    (hm : ∀ uri, KekInfo.kekUri uri ∈ kekInfos → ∃ md, ∀ t, kekMetadataAt env t uri = .ok md)
    {s : Sys StetClient} (hl : live s.log s.client.kmsClient) :
    ∃ kmds' s', loadKekMetadatas env kekInfos kmds s = .ok kmds' s' ∧
      List.Forall₂ (Describes env) kekInfos kmds' ∧ s.Extends s' := by
  have hload : ∃ kmds' s', loadKekMetadatas env kekInfos kmds s = .ok kmds' s' ∧
      s.Extends s' := by
    unfold loadKekMetadatas
    split
    · obtain ⟨kmds', s', h, hx⟩ := protectionLevelsAndUris_of_live hm hl
      exact ⟨kmds', s', by simp [Go.bind_apply, Go.wrapError, h], hx⟩
    · exact ⟨kmds, s, rfl, .refl s⟩
  obtain ⟨kmds', s', h, hx⟩ := hload
  exact ⟨kmds', s', h, (nilSafe_loadKekMetadatas env hc).returns s kmds' s' h, hx⟩

theorem ekmClientFor_ok (hw : SessionsWork env) {addr : String}
    (ha : ∃ u, env.urlParse addr = .ok u) (s : Sys StetClient) :
    ∃ sc s₁, ekmClientFor env addr s = .ok sc s₁ ∧ s.Extends s₁ := by
  obtain ⟨u, hu⟩ := ha
  simp only [ekmClientFor, Go.bind_apply, Go.get_apply]
  split
  · exact ⟨_, _, rfl, .refl s⟩
  · obtain ⟨tok, ht⟩ := hw.token s.log.length (u.scheme ++ "://" ++ u.hostname)
    simp only [generateTokenFromEKMAddress, hu, removeSchemeFromURL, Go.bind_apply, Go.wrapError,
      generateTokenWithAudience, external_apply, ht, Go.ofExcept_ok, Go.pure_apply,
      establishSecureSession, hw.establish, Except.map]
    exact ⟨_, _, rfl, (Sys.Extends.record _ (by simp)).trans (.record _ (by simp))⟩

/-- On a live client, the earlier protection-level switch unwraps what the same key
wrapped. -/
theorem unwrapWithMetadata_of_wrapsTo (hr : RoundTrips env keys) {uri : String} {pt ct : Bytes}
    {o : Option String} (hw : Client.WrapsTo env keys (.kekUri uri) pt ct o) {md : KekMetadata}
    (hmd : ∀ t, kekMetadataAt env t uri = .ok md) {s : Sys StetClient}
    (hl : live s.log s.client.kmsClient) :
    ∃ s', unwrapWithMetadata env md ct s = .ok pt s' ∧ s.Extends s' := by
  cases hw with
  | @kms _ _ _ _ _ r hm hpl he =>
      obtain rfl := Except.ok.inj ((hmd _).symm.trans hm)
      have hd := unwrapKMSShareOn_of_live env hl (hr.current.kms _ s.log.length _ _ _ he)
      refine ⟨s.record (.decrypt s.client.kmsClient
        ⟨md.resourceName, r.ciphertext, some (crcValue r.ciphertext)⟩), ?_, .record s (by simp)⟩
      rcases hpl with hpl | hpl <;>
        simp [unwrapWithMetadata, hpl, Go.bind_apply, Go.wrapError, hd]
  | @ekm _ _ _ _ addr kp _ _ _ hm hpl hp ha =>
      obtain rfl := Except.ok.inj ((hmd _).symm.trans hm)
      have hp' : parseEKMKeyURI env md.uri = .ok (addr ++ ":8842", kp) := by
        rw [parseEKMKeyURI_eq, hp]
        rfl
      obtain ⟨sc, s₁, hc, hx⟩ := ekmClientFor_ok hr.current.sessions (hr.address _ _ _ hp') s
      obtain ⟨s', hs', he⟩ : ∃ s', ekmSecureSession env .unwrap
          "error unwrapping with secure session: " ct md s = .ok pt s' ∧ s.Extends s' :=
        ekmSecureSessionWith_ok env hp' hc hx (fun t sc => hr.current.ekm _ _ _ _ _ _ ha t sc)
          hr.current.sessions.endSession
      exact ⟨s', by simp [unwrapWithMetadata, hpl, Go.wrapError, hs'], he⟩

/-- On a ready state, one position of the earlier unwrap loop unwraps what its KEK
wrapped, keeps the metadata slice aligned, and leaves the state ready. -/
theorem unwrapShare_of_wrapsTo (hr : RoundTrips env keys) {kekInfos : List KekInfo} {i : Nat}
    {kek : KekInfo} (hk : kekInfos[i]? = some kek) {pt : Bytes} {w : WrappedShare}
    {o : Option String} (hw : Client.WrapsTo env keys kek pt w.share o)
    (hm : ∀ uri, KekInfo.kekUri uri ∈ kekInfos → ∃ md, ∀ t, kekMetadataAt env t uri = .ok md)
    {kmds : List KekMetadata} (hc : Aligned env kekInfos kmds) {s : Sys StetClient}
    (hs : Ready s) :
    ∃ kmds' s', unwrapShare env keys kekInfos i kek w kmds s = .ok (pt, kmds') s' ∧
      Aligned env kekInfos kmds' ∧ Ready s' := by
  cases kek with
  | rsaFingerprint fp =>
      cases hw with
      | rsa hp hct =>
          obtain ⟨priv, hk', hd⟩ := hr.current.rsa _ _ _ _ hp hct
          refine ⟨kmds, s, ?_, hc, hs⟩
          simp only [unwrapShare, hk', hd, Go.ofExcept_ok, Go.bind_apply, Go.wrapError,
            Go.pure_apply]
  | kekUri uri =>
      obtain ⟨s₁, hi, hl, -, hd, -⟩ :=
        initializeKMSClientAs_live env _ hs.usable hr.current.newClient
      -- `defer c.kmsClient.Close()` pushes the live client
      let s₂ : Sys StetClient := { s₁ with deferred := s₁.client.kmsClient :: s₁.deferred }
      have hl₂ : live s₂.log s₂.client.kmsClient := hl
      have hr₂ : Ready s₂ := by
        refine ⟨.inr hl, fun h hh => ?_⟩
        rcases List.mem_cons.mp hh with rfl | hh
        · exact exists_client_of_live hl
        · exact hs.deferred h (hd ▸ hh)
      obtain ⟨kmds', s₃, hload, hal, hx₃⟩ := loadKekMetadatas_of_live hc hm hl₂
      obtain ⟨md, hmd, t, hmt⟩ := forall₂_getElem? hal i hk
      obtain ⟨s₄, hu, hx₄⟩ := unwrapWithMetadata_of_wrapsTo hr hw
        (fun t' => (hr.current.metadata t' t uri).trans hmt)
        (by rw [hx₃.client_eq]; exact hx₃.live hl₂)
      refine ⟨kmds', s₄, ?_, .inr hal, hr₂.extend (hx₃.trans hx₄)⟩
      have hfor : kekMetadataFor env kekInfos i kmds s₂ = .ok (md, kmds') s₃ := by
        simp only [kekMetadataFor, Go.bind_apply, hload, Go.index_of_getElem? hmd]
        rfl
      exact Go.bind_eq_ok.mpr ⟨(), s₁, Go.wrapError_of_ok hi, Go.bind_eq_ok.mpr ⟨(), s₂, rfl,
        Go.bind_eq_ok.mpr ⟨(md, kmds'), s₃, hfor, Go.bind_eq_ok.mpr ⟨pt, s₄, hu, rfl⟩⟩⟩⟩
  | unset => cases hw

/-- From a ready state and an aligned slice, the earlier unwrap loop returns every share
of a `WrapsFrom` run, in order. -/
theorem unwrapAndValidateLoop_of_wrapsFrom (hr : RoundTrips env keys)
    (hv : ∀ b, env.validateShare b (env.hashShare b) = true) {kekInfos : List KekInfo}
    (hm : ∀ uri, KekInfo.kekUri uri ∈ kekInfos → ∃ md, ∀ t, kekMetadataAt env t uri = .ok md)
    {i : Nat} {pts : List Bytes} {ws : List WrappedShare} {os : List (Option String)}
    (hw : Client.WrapsFrom env keys kekInfos i pts ws os) {kmds : List KekMetadata}
    (hc : Aligned env kekInfos kmds) {s : Sys StetClient} (hs : Ready s) :
    ∃ s', unwrapAndValidateLoop env keys kekInfos i ws kmds s = .ok pts s' ∧ Ready s' := by
  induction hw generalizing s kmds with
  | nil => exact ⟨s, rfl, hs⟩
  | @cons i kek pt pts w ws o os hk hh hw _ ih =>
      obtain ⟨kmds', s₁, hu, hc', hs₁⟩ := unwrapShare_of_wrapsTo hr hk hw hm hc hs
      obtain ⟨s₂, hl, hs₂⟩ := ih hc' hs₁
      have hval : env.validateShare pt w.hash = true := hh ▸ hv pt
      refine ⟨s₂, ?_, hs₂⟩
      simp only [unwrapAndValidateLoop, Go.index_of_getElem? hk]
      exact Go.bind_eq_ok.mpr ⟨kek, s, rfl, Go.bind_eq_ok.mpr ⟨(pt, kmds'), s₁, hu,
        by simp [hval, Go.bind_apply, hl]⟩⟩

/-- From a usable client, the earlier `unwrapAndValidateShares` gives back the shares of a
`WrapsFrom` run over every KEK. -/
theorem unwrapAndValidateShares_of_wrapsFrom (hr : RoundTrips env keys)
    (hv : ∀ b, env.validateShare b (env.hashShare b) = true) {kekInfos : List KekInfo}
    {pts : List Bytes} {ws : List WrappedShare} {os : List (Option String)}
    (hw : Client.WrapsFrom env keys kekInfos 0 pts ws os) (hl : pts.length = kekInfos.length)
    {s : Sys StetClient} (hu : Usable s) :
    ∃ s', unwrapAndValidateShares env keys ws kekInfos s = .ok pts s' := by
  obtain ⟨s₁, hl₁, hs₁⟩ := unwrapAndValidateLoop_of_wrapsFrom hr hv (hw.available hr.current hl) hw
    (.inl rfl) (show Ready { s with deferred := [] } from ⟨hu, by simp⟩)
  obtain ⟨s', hd⟩ := runDeferred_ok hs₁.deferred { s₁ with deferred := s.deferred }
  refine ⟨s', withDeferred_of_ok ?_ hd⟩
  rwa [if_neg (by rw [hw.length_eq.1]; omega)]

end Unwrap

/-! ### The orchestrators -/

section RoundTrip

variable {env keys} {p : Pipeline}

/-- A successful split leaves the state alone, and the same algorithm combines its shares
back into the DEK. -/
theorem combineDEK_of_splitDEK (hp : p.Inverts) {kc : KeyConfig} {dek : DEK}
    {shares : List Bytes} {s s' : Sys StetClient} (h : splitDEK p kc dek s = .ok shares s')
    (r : Sys StetClient) : combineDEK p kc shares r = .ok dek.bytes r := by
  cases ha : kc.keySplittingAlgorithm with
  | noSplit =>
      by_cases hl : kc.kekInfos.length = 1
      · simp only [splitDEK, ha, hl, ne_eq, not_true_eq_false, if_false, Go.pure_eq_ok] at h
        obtain ⟨rfl, -⟩ := h
        simp [combineDEK, ha, Go.index]
      · simp [splitDEK, ha, hl] at h
  | shamir n t =>
      by_cases hl : (kc.kekInfos.length : Int) = n
      · simp only [splitDEK, ha, hl, ne_eq, not_true_eq_false, if_false, Go.wrapError_eq_ok,
          Go.ofExcept_eq_ok] at h
        simp [combineDEK, ha, Go.wrapError, hp.combine _ _ _ _ h.1]
      · simp [splitDEK, ha, hl] at h
  | unset => simp [splitDEK, ha] at h

/-- What a successful earlier `Encrypt` did: split the DEK, wrap the shares, and encrypt
under the AAD of the metadata it returns. -/
theorem encrypt_eq_ok {pt : Bytes} {kc : KeyConfig} {blobID : String} {data : EncryptedData}
    {s s' : Sys StetClient} (h : encrypt env p keys pt (some ⟨some kc⟩) blobID s = .ok data s') :
    ∃ shares s₀ ws s₁ aad ct, splitDEK p kc (p.newDEK s.log.length) s = .ok shares s₀ ∧
      wrapShares env keys shares kc.kekInfos s₀ = .ok ws s₁ ∧
      p.metadataToAAD (some ⟨if blobID = "" then p.newString s.log.length else blobID,
        some kc, ws⟩) = .ok aad ∧
      p.aeadEncrypt (p.newDEK s.log.length) pt aad = .ok ct ∧
      data = ⟨ct, some ⟨if blobID = "" then p.newString s.log.length else blobID, some kc,
        ws⟩⟩ := by
  simp only [encrypt, Go.bind_eq_ok, Go.get_apply, EStateM.Result.ok.injEq, Option.some_bind,
    Go.wrapError_eq_ok, Go.ofExcept_eq_ok, Go.pure_eq_ok] at h
  obtain ⟨_, _, ⟨rfl, rfl⟩, shares, s₀, hs, ws, s₁, hw, aad, _, ⟨ha, -⟩, ct, _, ⟨hc, -⟩,
    rfl, -⟩ := h
  exact ⟨shares, s₀, ws, s₁, aad, ct, hs, hw, ha, hc, rfl⟩

/-- The echoing backend whose keys are all EXTERNAL inverts the earlier client's wraps
too: every address parses. -/
theorem roundTrips_external (uri : String) : RoundTrips (Env.external uri) ⟨[], []⟩ :=
  ⟨Client.roundTrips_echo_with _, fun _ _ _ _ => ⟨_, rfl⟩⟩

theorem inverts_echo : Pipeline.echo.Inverts where
  combine dek n _ shares h := by
    simp only [Pipeline.echo] at h
    split at h
    · obtain ⟨k, hk⟩ : ∃ k, n.toNat = k + 1 := ⟨n.toNat - 1, by omega⟩
      cases h
      rw [hk]
      rfl
    · cases h
  aead _ _ _ _ h := by
    cases h
    rfl

/-- The earlier client's `Decrypt` undoes its `Encrypt`: for every plaintext, blob ID,
key configuration that the decryption configuration lists, and mix of KEKs, `Decrypt` of
what a successful `Encrypt` returned, from a client whose KMS field is nil or live,
returns the plaintext, every KEK URI of the configured key configurations, and the blob
ID `Encrypt` wrote, a fresh one when it was given none. -/
theorem decrypt_undoes_encrypt (hr : RoundTrips env keys)
    (hv : ∀ b, env.validateShare b (env.hashShare b) = true) (hp : p.Inverts) {pt : Bytes}
    {kc : KeyConfig} {blobID : String} {data : EncryptedData} {s s' : Sys StetClient}
    (he : encrypt env p keys pt (some ⟨some kc⟩) blobID s = .ok data s')
    {dcfg : DecryptConfig} (hd : kc ∈ dcfg.keyConfigs) {r : Sys StetClient} (hu : Usable r) :
    ∃ r', decrypt env p keys (some data) (some dcfg) r = .ok ⟨pt, configuredKeyURIs dcfg.keyConfigs,
      if blobID = "" then p.newString s.log.length else blobID⟩ r' := by
  obtain ⟨shares, s₀, ws, s₁, aad, ct, hs, hw, ha, hc, rfl⟩ := encrypt_eq_ok he
  obtain ⟨hl, _, hwf⟩ := wrapShares_sound hw
  obtain ⟨r₁, hu₁⟩ := unwrapAndValidateShares_of_wrapsFrom hr hv hwf hl hu
  refine ⟨r₁, ?_⟩
  simp only [decrypt, Option.map_some', Option.getD_some, Option.some_bind,
    matchingKeyConfigLoop_some, Go.pure_apply, matchingKeyConfig_of_mem hd, Go.deref_some,
    Go.bind_apply, Go.wrapError, hu₁, combineDEK_of_splitDEK hp hs r₁,
    (p.newDEK _).length_eq, dekBytes, ne_eq, not_true_eq_false, if_false, DEK.ofSlice_bytes, ha,
    Go.ofExcept_ok, Go.pure_apply, hp.aead _ _ _ _ hc]

theorem decrypt_undoes_encrypt_echo :
    ∃ r', decrypt (Env.external "https://ekm/v0/k") Pipeline.echo ⟨[], []⟩
        (some ⟨[1, 2, 3], some ⟨"00000000-0000-4000-8000-000000000000",
          some ⟨[.rsaFingerprint "f", .kekUri "gcp-kms://k"], .shamir 2 2⟩,
          [⟨List.replicate 32 0, List.replicate 32 0⟩,
            ⟨List.replicate 32 0, List.replicate 32 0⟩]⟩⟩)
        (some ⟨[⟨[.rsaFingerprint "f", .kekUri "gcp-kms://k"], .shamir 2 2⟩]⟩)
        (Sys.start ⟨.nil, false⟩) =
      .ok ⟨[1, 2, 3], ["gcp-kms://k"], "00000000-0000-4000-8000-000000000000"⟩ r' :=
  decrypt_undoes_encrypt (roundTrips_external _) (fun b => beq_self_eq_true b) inverts_echo
    (show encrypt (Env.external "https://ekm/v0/k") Pipeline.echo ⟨[], []⟩ [1, 2, 3]
        (some ⟨some ⟨[.rsaFingerprint "f", .kekUri "gcp-kms://k"], .shamir 2 2⟩⟩) ""
        (Sys.start ⟨.nil, false⟩) =
      .ok ⟨[1, 2, 3], some ⟨"00000000-0000-4000-8000-000000000000",
          some ⟨[.rsaFingerprint "f", .kekUri "gcp-kms://k"], .shamir 2 2⟩,
          [⟨List.replicate 32 0, List.replicate 32 0⟩,
            ⟨List.replicate 32 0, List.replicate 32 0⟩]⟩⟩
        (resultState (encrypt (Env.external "https://ekm/v0/k") Pipeline.echo ⟨[], []⟩ [1, 2, 3]
          (some ⟨some ⟨[.rsaFingerprint "f", .kekUri "gcp-kms://k"], .shamir 2 2⟩⟩) ""
          (Sys.start ⟨.nil, false⟩))) from rfl)
    (List.mem_singleton_self _) (Or.inl rfl)

end RoundTrip

/-! ### Across the two versions -/

section Versions

variable {env keys}

/-- The share layer is the same in both versions: under backends where both round trips
hold, the shares either client's `wrapShares` wrapped, the other client's
`unwrapAndValidateShares` gives back, in order, from any state whose KMS client is nil or
live. -/
theorem shares_interoperate (hr : RoundTrips env keys)
    (hv : ∀ b, env.validateShare b (env.hashShare b) = true) (pts : List Bytes)
    (kekInfos : List KekInfo) :
    (∀ ws uris (s s' : Sys Stet.StetClient),
      Client.wrapShares env keys pts kekInfos s = .ok (ws, uris) s' →
      ∀ r : Sys StetClient, Usable r →
        ∃ r', unwrapAndValidateShares env keys ws kekInfos r = .ok pts r') ∧
    (∀ ws (s s' : Sys StetClient), wrapShares env keys pts kekInfos s = .ok ws s' →
      ∀ r : Sys Stet.StetClient, Usable r →
        ∃ us r', Client.unwrapAndValidateShares env keys ws kekInfos r = .ok us r' ∧
          us.map UnwrappedShare.share = pts) := by
  constructor
  · intro ws uris s s' h r hu
    obtain ⟨hl, os, hwf, -⟩ := Client.wrapShares_sound h
    exact unwrapAndValidateShares_of_wrapsFrom hr hv hwf hl hu
  · intro ws s s' h r hu
    obtain ⟨hl, os, hwf⟩ := wrapShares_sound h
    obtain ⟨r', hr'⟩ := Client.unwrapAndValidateShares_of_wrapsFrom hr.current hv hwf hl hu
    exact ⟨_, r', hr', Client.map_share_zipWith hwf.length_eq.2⟩

theorem shares_interoperate_external :
    ∃ r', unwrapAndValidateShares (Env.external "https://ekm/v0/k") ⟨[], []⟩
      [⟨[7], [7]⟩, ⟨[8], [8]⟩] [.rsaFingerprint "f", .kekUri "gcp-kms://k"]
      (Sys.start ⟨.nil, false⟩) = .ok [[7], [8]] r' :=
  (shares_interoperate (roundTrips_external _) (fun b => beq_self_eq_true b) [[7], [8]]
    [.rsaFingerprint "f", .kekUri "gcp-kms://k"]).1 _ ["https://ekm/v0/k"]
    (Sys.start StetClient.new) _ rfl (Sys.start ⟨.nil, false⟩) (.inl rfl)

end Versions

end Stet.Legacy
