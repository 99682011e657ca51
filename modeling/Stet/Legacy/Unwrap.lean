import Stet.Legacy.RoundTrip

/-!
What the earlier client's `Decrypt` returns, when it returns. Its unwrap loop stops at the
first position whose share does not unwrap or does not match its stored hash, so a run
that returns has unwrapped every wrapped share of the blob, each under the KEK at its own
position and with the backend answers of the current client's `UnwrapsTo`, and checked its
hash (`UnwrapsFrom`). `Decrypt` combines exactly these shares, by the splitting algorithm
of the configured `KeyConfig` that matches the blob's, and decrypts the ciphertext under
the DEK they give (`decrypt_sound`).

So the earlier client has no k-of-n: one share that fails, or fails its hash, fails the
blob. The current client skips such a share and lets `CombineUnwrappedShares` decide.

The same soundness, with the wrap side's, closes the argument that the cached metadata is
aligned: over a whole run of either loop, every share comes out under the KEK at its own
position, with the metadata of that KEK.
-/

namespace Stet.Legacy

open Stet Stet.Client

variable (env : Env) (keys : AsymmetricKeys)

/-- Position by position from `i`, what a run of the earlier unwrap loop returned: each
wrapped share unwrapped under the KEK at its position, to a share whose hash checks. -/
inductive UnwrapsFrom (kekInfos : List KekInfo) : Nat → List WrappedShare → List Bytes → Prop
  | nil {i : Nat} : UnwrapsFrom kekInfos i [] []
  | cons {i : Nat} {kek : KekInfo} {w : WrappedShare} {ws : List WrappedShare} {pt : Bytes}
      {pts : List Bytes} {uri : String} :
      kekInfos[i]? = some kek → Client.UnwrapsTo env keys kek w.share ⟨pt, uri⟩ →
      env.validateShare pt w.hash = true → UnwrapsFrom kekInfos (i + 1) ws pts →
      UnwrapsFrom kekInfos i (w :: ws) (pt :: pts)

section Sound

variable {env keys} {s s' : Sys StetClient}

theorem UnwrapsFrom.length_eq {kekInfos : List KekInfo} {i : Nat} {ws : List WrappedShare}
    {pts : List Bytes} (h : UnwrapsFrom env keys kekInfos i ws pts) : pts.length = ws.length := by
  induction h with
  | nil => rfl
  | cons _ _ _ _ ih => simp [ih]

theorem unwrapWithMetadata_sound {md : KekMetadata} {ct pt : Bytes} {uri : String} {t : Nat}
    (hmd : kekMetadataAt env t uri = .ok md) (h : unwrapWithMetadata env md ct s = .ok pt s') :
    Client.UnwrapsTo env keys (.kekUri uri) ct ⟨pt, md.uri⟩ := by
  unfold unwrapWithMetadata at h
  cases hpl : md.protectionLevel <;>
    simp only [hpl, Go.wrapError_eq_ok, Go.fail_apply, reduceCtorEq] at h
  case external =>
    obtain ⟨addr, kp, sc, t', hp, ha, he⟩ := ekmSecureSession_sound h
    exact .ekm hmd hpl hp ha he
  all_goals
    simp only [Go.bind_eq_ok, Go.get_apply, Go.wrapError_eq_ok] at h
    obtain ⟨_, _, -, hk⟩ := h
    obtain ⟨t', r, hd, rfl, hc⟩ := unwrapKMSShareOn_sound env hk
    exact .kms hmd (by simp [hpl]) hd hc

/-- One position of the earlier unwrap loop unwraps under the KEK at the position, reading
its metadata from a slice that stays aligned. -/
theorem unwrapShare_sound {kekInfos : List KekInfo} {i : Nat} {kek : KekInfo}
    {w : WrappedShare} {kmds kmds' : List KekMetadata} {pt : Bytes}
    (hk : kekInfos[i]? = some kek) (hc : Aligned env kekInfos kmds)
    (h : unwrapShare env keys kekInfos i kek w kmds s = .ok (pt, kmds') s') :
    (∃ uri, Client.UnwrapsTo env keys kek w.share ⟨pt, uri⟩) ∧ Aligned env kekInfos kmds' := by
  cases kek with
  | rsaFingerprint fp =>
      simp only [unwrapShare, Go.bind_eq_ok, Go.wrapError_eq_ok, Go.ofExcept_eq_ok] at h
      obtain ⟨priv, s₁, ⟨hp, rfl⟩, pt', s₂, ⟨hd, rfl⟩, h₃⟩ := h
      simp only [Go.pure_eq_ok, Prod.mk.injEq] at h₃
      obtain ⟨⟨rfl, rfl⟩, rfl⟩ := h₃
      exact ⟨⟨"", .rsa hp hd⟩, hc⟩
  | kekUri uri =>
      simp only [unwrapShare, Go.bind_eq_ok, Go.wrapError_eq_ok, Go.pure_eq_ok, Prod.mk.injEq,
        Prod.exists] at h
      obtain ⟨_, s₁, -, _, s₂, -, md, kmds'', s₃, hfor, pt', s₅, hpt, ⟨rfl, rfl⟩, rfl⟩ := h
      obtain ⟨⟨t, hm⟩, hal⟩ := (nilSafe_kekMetadataFor hk hc).returns _ _ _ hfor
      exact ⟨⟨_, unwrapWithMetadata_sound hm hpt⟩, hal⟩
  | unset => cases h

theorem unwrapAndValidateLoop_sound {kekInfos : List KekInfo} {i : Nat}
    {ws : List WrappedShare} {kmds : List KekMetadata} {pts : List Bytes}
    (hc : Aligned env kekInfos kmds)
    (h : unwrapAndValidateLoop env keys kekInfos i ws kmds s = .ok pts s') :
    UnwrapsFrom env keys kekInfos i ws pts := by
  induction ws generalizing i kmds s s' pts with
  | nil =>
      simp only [unwrapAndValidateLoop, Go.pure_eq_ok] at h
      rw [← h.1]
      exact .nil
  | cons w ws ih =>
      simp only [unwrapAndValidateLoop, Go.bind_eq_ok] at h
      obtain ⟨kek, s₁, hk, ⟨pt, kmds'⟩, s₂, hu, h⟩ := h
      obtain ⟨hk', rfl⟩ := Go.index_eq_ok hk
      obtain ⟨⟨uri, hw⟩, hc'⟩ := unwrapShare_sound hk' hc hu
      by_cases hv : env.validateShare pt w.hash = true
      · simp only [hv, Bool.not_true, Bool.false_eq_true, if_false, Go.bind_eq_ok,
          Go.pure_eq_ok] at h
        obtain ⟨pts', s₃, hl, rfl, -⟩ := h
        exact .cons hk' hw hv (ih hc' hl)
      · simp [hv] at h

/-- A run of the earlier `unwrapAndValidateShares` that returns has one KEK per wrapped
share, and returns every share, each unwrapped under the KEK at its position with a hash
that checks. -/
theorem unwrapAndValidateShares_sound {ws : List WrappedShare} {kekInfos : List KekInfo}
    {pts : List Bytes} (h : unwrapAndValidateShares env keys ws kekInfos s = .ok pts s') :
    ws.length = kekInfos.length ∧ UnwrapsFrom env keys kekInfos 0 ws pts := by
  obtain ⟨s₁, hb, -⟩ := withDeferred_eq_ok h
  by_cases hl : ws.length = kekInfos.length
  · rw [if_neg (not_not.mpr hl)] at hb
    exact ⟨hl, unwrapAndValidateLoop_sound (.inl rfl) hb⟩
  · rw [if_pos hl] at hb
    cases hb

variable {p : Pipeline}

/-- The earlier `combineDEK` takes the one share when the DEK was not split, and asks
`CombineShares` otherwise. -/
theorem combineDEK_sound {kc : KeyConfig} {pts : List Bytes} {dek : Bytes}
    (h : combineDEK p kc pts s = .ok dek s') :
    (kc.keySplittingAlgorithm = .noSplit ∧ pts = [dek]) ∨
      ∃ n t, kc.keySplittingAlgorithm = .shamir n t ∧ p.combineShares pts = .ok dek := by
  cases ha : kc.keySplittingAlgorithm with
  | noSplit =>
      simp only [combineDEK, ha] at h
      by_cases hl : pts.length = 1
      · obtain ⟨pt, rfl⟩ := List.length_eq_one.mp hl
        rw [if_neg (not_not.mpr hl)] at h
        exact .inl ⟨rfl, congrArg ([·]) (Option.some.inj (Go.index_eq_ok h).1)⟩
      · rw [if_pos hl] at h
        cases h
  | shamir n t =>
      simp only [combineDEK, ha, Go.wrapError_eq_ok, Go.ofExcept_eq_ok] at h
      exact .inr ⟨n, t, rfl, h.1⟩
  | unset =>
      simp only [combineDEK, ha] at h
      cases h

end Sound

variable {env keys} {p : Pipeline} {s s' : Sys StetClient}

/-- What a successful earlier `Decrypt` returned: the AEAD decryption of the blob's
ciphertext under the DEK that every wrapped share of the blob gives, each unwrapped under
the KEK at its position of the matching `KeyConfig` with a hash that checks, combined by
that `KeyConfig`'s algorithm; the KEK URIs of every configured `KeyConfig`; and the blob's
ID. -/
theorem decrypt_sound {data : EncryptedData} {config : Option DecryptConfig}
    {out : DecryptedData} (h : decrypt env p keys (some data) config s = .ok out s') :
    ∃ kc pts dek aad,
      matchingKeyConfig ((config.map DecryptConfig.keyConfigs).getD [])
        (data.metadata.bind Metadata.keyConfig) = some kc ∧
      ((data.metadata.map Metadata.shares).getD []).length = kc.kekInfos.length ∧
      UnwrapsFrom env keys kc.kekInfos 0 ((data.metadata.map Metadata.shares).getD []) pts ∧
      ((kc.keySplittingAlgorithm = .noSplit ∧ pts = [dek]) ∨
        ∃ n t, kc.keySplittingAlgorithm = .shamir n t ∧ p.combineShares pts = .ok dek) ∧
      dek.length = dekBytes ∧ p.metadataToAAD data.metadata = .ok aad ∧
      p.aeadDecrypt (DEK.ofSlice dek) data.ciphertext aad = .ok out.plaintext ∧
      out.keyUris = configuredKeyURIs ((config.map DecryptConfig.keyConfigs).getD []) ∧
      out.blobID = (data.metadata.map Metadata.blobId).getD "" := by
  cases hm : matchingKeyConfig ((config.map DecryptConfig.keyConfigs).getD [])
    (data.metadata.bind Metadata.keyConfig) with
  | none =>
      simp only [decrypt, matchingKeyConfigLoop_some, hm, pure_bind, Go.fail_apply] at h
      cases h
  | some kc =>
      simp only [decrypt, matchingKeyConfigLoop_some, hm, pure_bind, Go.deref_some, Go.bind_eq_ok,
        Go.wrapError_eq_ok] at h
      obtain ⟨pts, s₁, hu, dek, s₂, hc, h⟩ := h
      obtain ⟨hl, hwf⟩ := unwrapAndValidateShares_sound hu
      by_cases hd : dek.length = dekBytes
      · simp only [hd, ne_eq, not_true_eq_false, if_false, Go.bind_eq_ok, Go.wrapError_eq_ok,
          Go.ofExcept_eq_ok, Go.pure_eq_ok] at h
        obtain ⟨aad, _, ⟨ha, -⟩, pt, _, ⟨hpt, -⟩, rfl, -⟩ := h
        exact ⟨kc, pts, dek, aad, rfl, hl, hwf, combineDEK_sound hc, hd, ha, hpt, rfl, rfl⟩
      · simp [hd] at h

theorem decrypt_sound_echo :
    ∃ kc pts dek aad,
      matchingKeyConfig [⟨[.rsaFingerprint "f"], .noSplit⟩]
        (some ⟨[.rsaFingerprint "f"], .noSplit⟩) = some kc ∧
      [(⟨List.replicate 32 0, List.replicate 32 0⟩ : WrappedShare)].length = kc.kekInfos.length ∧
      UnwrapsFrom Env.echo ⟨[], []⟩ kc.kekInfos 0
        [⟨List.replicate 32 0, List.replicate 32 0⟩] pts ∧
      ((kc.keySplittingAlgorithm = .noSplit ∧ pts = [dek]) ∨
        ∃ n t, kc.keySplittingAlgorithm = .shamir n t ∧ Pipeline.echo.combineShares pts = .ok dek) ∧
      dek.length = dekBytes ∧
      Pipeline.echo.metadataToAAD (some ⟨"b", some ⟨[.rsaFingerprint "f"], .noSplit⟩,
        [⟨List.replicate 32 0, List.replicate 32 0⟩]⟩) = .ok aad ∧
      Pipeline.echo.aeadDecrypt (DEK.ofSlice dek) [1, 2, 3] aad = .ok [1, 2, 3] ∧
      [] = configuredKeyURIs [⟨[.rsaFingerprint "f"], .noSplit⟩] ∧ "b" = "b" :=
  decrypt_sound (show decrypt Env.echo Pipeline.echo ⟨[], []⟩
      (some ⟨[1, 2, 3], some ⟨"b", some ⟨[.rsaFingerprint "f"], .noSplit⟩,
        [⟨List.replicate 32 0, List.replicate 32 0⟩]⟩⟩)
      (some ⟨[⟨[.rsaFingerprint "f"], .noSplit⟩]⟩) (Sys.start ⟨.nil, false⟩) =
    .ok ⟨[1, 2, 3], [], "b"⟩ (Sys.start ⟨.nil, false⟩) from rfl)

/-- The earlier client's `kekMetadatas` is aligned with `kekInfos`:
`protectionLevelsAndUris` returns, when it returns, one entry per KEK with the metadata of
that KEK, the zero value for one that is not a KEK URI; the read `kekMetadatas[i]` of a
KEK URI, from a slice that is nil or aligned, is in range and reads the metadata of
`kekInfos[i]`, leaving the slice aligned; and over whole runs of either loop, from the nil
slice, no panic is raised but a nil dereference, and every share returned was wrapped or
unwrapped under the KEK at its own position, with that KEK's metadata. -/
theorem kekMetadatas_aligned (env : Env) (keys : AsymmetricKeys) :
    (∀ (h : KmsHandle) (kekInfos : List KekInfo) (s : Sys StetClient) (kmds : List KekMetadata)
        (s' : Sys StetClient), protectionLevelsAndUris env h kekInfos s = .ok kmds s' →
      kmds.length = kekInfos.length ∧ ∀ (i : Nat) (kek : KekInfo), kekInfos[i]? = some kek →
        ∃ md, kmds[i]? = some md ∧ Describes env kek md) ∧
    (∀ kekInfos i kek kmds, Aligned env kekInfos kmds → kekInfos[i]? = some kek →
      NilSafe (kekMetadataFor env kekInfos i kmds)
        fun r => Describes env kek r.1 ∧ Aligned env kekInfos r.2) ∧
    (∀ shares kekInfos, NilSafe (wrapShares env keys shares kekInfos)
      fun ws => ∃ os, Client.WrapsFrom env keys kekInfos 0 shares ws os) ∧
    (∀ ws kekInfos, NilSafe (unwrapAndValidateShares env keys ws kekInfos)
      fun pts => UnwrapsFrom env keys kekInfos 0 ws pts) := by
  refine ⟨fun h kekInfos s kmds s' hr => ?_, fun _ _ _ _ hc hk => nilSafe_kekMetadataFor hk hc,
    fun shares kekInfos => (nilSafe_wrapShares env keys shares kekInfos).post
      fun _ _ _ hw => (wrapShares_sound hw).2,
    fun ws kekInfos => (nilSafe_unwrapAndValidateShares env keys ws kekInfos).post
      fun _ _ _ hu => (unwrapAndValidateShares_sound hu).2⟩
  have ha := protectionLevelsAndUris_sound hr
  exact ⟨ha.length_eq.symm, fun i _ hk => forall₂_getElem? ha i hk⟩

end Stet.Legacy
