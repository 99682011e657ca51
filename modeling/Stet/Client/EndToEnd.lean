import Stet.Client.Orchestrator
import Stet.Client.RoundTrip
import Mathlib.Data.List.ReduceOption

/-!
`Decrypt` undoes `Encrypt`. A successful `Encrypt` writes a header, the marshalled
metadata and the AEAD stream; when the metadata fits the 16 MiB the container format lets
a reader accept, `Decrypt` on those bytes, from a client whose KMS field is nil or live,
writes the plaintext back and returns the blob ID `Encrypt` returned. The pieces are the
round trip of the share layer (`wrapShares_sound`, `unwrapAndValidateShares_of_wrapsFrom`),
the container's `readMetadata_writeSTETHeader`, and the collaborators' contracts.

The limit is not checked on the writing side: a long enough blob ID makes `Encrypt`
write a blob that `Decrypt` refuses. And `Decrypt` reports only the non-empty URIs of the
shares it kept, where `Encrypt` reports every KEK URI position's, so an EXTERNAL key whose
external key URI is empty is in the first list and not in the second.
-/

namespace Stet.Client

open Stet

variable {env : Env} {p : Pipeline} {keys : AsymmetricKeys}

/-! ### The shares the unwrap side returns -/

theorem map_share_zipWith {pts : List Bytes} {os : List (Option String)}
    (h : os.length = pts.length) :
    (List.zipWith (fun pt o => (⟨pt, o.getD ""⟩ : UnwrappedShare)) pts os).map
      UnwrappedShare.share = pts := by
  induction pts generalizing os with
  | nil => rfl
  | cons pt pts ih =>
      cases os with
      | nil => cases h
      | cons o os => simp [ih (Nat.succ.inj h)]

theorem usedKeyURIs_zipWith {pts : List Bytes} {os : List (Option String)}
    (h : os.length = pts.length) :
    usedKeyURIs (List.zipWith (fun pt o => (⟨pt, o.getD ""⟩ : UnwrappedShare)) pts os) =
      os.reduceOption.filter (· ≠ "") := by
  induction pts generalizing os with
  | nil =>
      cases os with
      | nil => rfl
      | cons => cases h
  | cons pt pts ih =>
      cases os with
      | nil => cases h
      | cons o os =>
          have ih := ih (Nat.succ.inj h)
          unfold usedKeyURIs at ih ⊢
          cases o with
          | none =>
              simp only [List.zipWith_cons_cons, List.map_cons, Option.getD_none, List.filter_cons,
                List.reduceOption_cons_of_none, ih]
              simp
          | some u =>
              simp only [List.zipWith_cons_cons, List.map_cons, Option.getD_some, List.filter_cons,
                List.reduceOption_cons_of_some, ih]

/-- A read that fails ends `Decrypt` with the reader's error, and nothing else happens. -/
theorem decrypt_of_readMetadata_error {input : Bytes} {e : String} {cfg : DecryptConfig}
    (h : readMetadata p.unmarshal input = .error e) (s : Sys StetClient) :
    decrypt env p keys input (some cfg) s = .error (.error ("error reading metadata: " ++ e)) s := by
  simp [decrypt, Go.bind_apply, Go.wrapError, Go.ofExcept, h]

/-! ### The round trip -/

section RoundTrip

variable (hr : RoundTrips env keys) (hv : ∀ b, env.validateShare b (env.hashShare b) = true)
  (hp : p.Inverts)
include hr hv hp

/-- What `Encrypt` wrote, and what `Decrypt` does with it: the plaintext back, the blob
ID, and the non-empty key URIs `Encrypt` reported. -/
theorem decrypt_of_encrypt {input : Bytes} {kc : KeyConfig} {blobID : String}
    {md : StetMetadata} {s s' : Sys StetClient}
    (he : encrypt env p keys input (some ⟨some kc⟩) blobID s = .ok md s')
    {dcfg : DecryptConfig} (hd : kc ∈ dcfg.keyConfigs) :
    ∃ mbytes ct, s'.output = s.output ++ (writeSTETHeader mbytes.length ++ mbytes ++ ct) ∧
      (mbytes.length ≤ maxMetadataLen → ∀ r, Usable r → ∃ r',
        decrypt env p keys (writeSTETHeader mbytes.length ++ mbytes ++ ct) (some dcfg) r =
          .ok ⟨md.keyUris.filter (· ≠ ""), md.blobId⟩ r' ∧ r'.output = r.output ++ input) := by
  obtain ⟨pts, ws, s₁, aad, mbytes, ct, hc, hw, -, ha, hm, hce, rfl⟩ := encrypt_eq_ok he
  have ho : s₁.output = s.output := by
    have := keepsOutput_wrapShares env keys pts (getKekInfos (some kc)) s
    rwa [hw] at this
  refine ⟨mbytes, ct, by simp [ho], fun hl r hu => ?_⟩
  obtain ⟨hlen, os, hwf, huris⟩ := wrapShares_sound hw
  obtain ⟨r₁, hu₁⟩ := unwrapAndValidateShares_of_wrapsFrom hr hv hwf hlen hu
  have hro : r₁.output = r.output := by
    have := keepsOutput_unwrapAndValidateShares env keys ws (getKekInfos (some kc)) r
    rwa [hu₁] at this
  have hdek : p.aeadDecrypt (DEK.ofSlice (p.newDEK s.log.length).bytes) ct aad = (input, none) := by
    rw [DEK.ofSlice_bytes]
    exact hp.aead _ _ _ _ hce
  refine ⟨{ r₁ with output := r₁.output ++ input }, ?_, by simp [hro]⟩
  rw [decrypt_of_ok hp.write (readMetadata_writeSTETHeader hl (hp.proto _ _ hm) ct)
    (matchingKeyConfig_of_mem hd) hu₁
    (hp.combine _ _ _ hc _ (map_share_zipWith hwf.length_eq.2)) ha hdek,
    usedKeyURIs_zipWith hwf.length_eq.2, huris]

end RoundTrip

end Stet.Client
