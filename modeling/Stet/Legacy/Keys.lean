import Stet.Legacy.RoundTrip

/-!
The earlier client's RSA key lookups, `publicKeyForRSAFingerprint` and
`privateKeyForRSAFingerprint`. Both walk their key files in order and return the key of
the first file whose fingerprint, the base64 SHA-256 of a DER public key, is the KEK's. A
file that cannot be read, decoded or parsed ends the walk with its own error, whatever
files come after it: a broken file listed before the right one makes the lookup fail.

The two differ only in what one file gives (`publicKeyFile`, `privateKeyFile`); the walk
is `keyForFingerprint`, and its two lemmas say what it returns and what it fails with. The
file system and the PEM, X.509 and SHA-256 code are `KeyFiles`, and a key is named by its
DER encoding, as in `Env`.

`withKeyFiles` puts the two lookups in an `Env`. Over key files that hold a key pair for
every public key, with fingerprints that do not collide among the listed keys, the
lookups meet the RSA part of the round-trip contract for any OAEP that decrypts under a
private key what was encrypted under its public half; so the earlier client's round trip
holds with its own lookups in place of the `Env`'s.
-/

namespace Stet.Legacy

open Stet

/-- The block `pem.Decode` returns. -/
structure PemBlock where
  type : String
  bytes : Bytes
  deriving DecidableEq, Repr

/-- The file system and the PEM, X.509 and SHA-256 code the RSA key lookups call. -/
structure KeyFiles where
  /-- `os.ReadFile`. -/
  readFile : String → Except String Bytes
  /-- `pem.Decode`: none when the bytes hold no PEM block. -/
  pemDecode : Bytes → Option PemBlock
  /-- `x509.ParsePKIXPublicKey`, and whether the key it parsed is an RSA key. -/
  parsePKIXPublicKey : Bytes → Except String Bool
  /-- `x509.ParsePKCS1PrivateKey`. -/
  parsePKCS1PrivateKey : Bytes → Except String Unit
  /-- `x509.MarshalPKIXPublicKey` of the public half of a private key. -/
  marshalPKIXPublicKey : Bytes → Except String Bytes
  /-- `base64.StdEncoding.EncodeToString(sha256.Sum256(der))`. -/
  fingerprint : Bytes → String

/-- `kek.GetRsaFingerprint()`: empty for a KEK that is not an RSA fingerprint. -/
def getRsaFingerprint : KekInfo → String
  | .rsaFingerprint fingerprint => fingerprint
  | _ => ""

/-- The walk both lookups make over their key files: the key of the first file whose
fingerprint is `fp`, `notFound` when there is none, and the error of the first file that
fails before that. -/
def keyForFingerprint (file : String → Except String (Bytes × String)) (notFound fp : String) :
    List String → Except String Bytes
  | [] => .error notFound
  | path :: rest => do
      let (key, fingerprint) ← file path
      if fingerprint = fp then pure key else keyForFingerprint file notFound fp rest

variable (kf : KeyFiles)

/-- One file of `publicKeyForRSAFingerprint`'s loop: its RSA public key and the key's
fingerprint. The RSA check reports the `err` of the parse, nil by then. -/
def publicKeyFile (path : String) : Except String (Bytes × String) := do
  let keyBytes ← (kf.readFile path).mapError ("failed to open public key file: " ++ ·)
  match kf.pemDecode keyBytes with
  | some block =>
      if block.type ≠ "PUBLIC KEY" then .error "failed to decode PEM block containing public key"
      else do
        let isRSA ← (kf.parsePKIXPublicKey block.bytes).mapError
          ("failed to parse public key from PEM: " ++ ·)
        if !isRSA then .error "failed to parse RSA public key: <nil>"
        else pure (block.bytes, kf.fingerprint block.bytes)
  | none => .error "failed to decode PEM block containing public key"

/-- One file of `privateKeyForRSAFingerprint`'s loop: its RSA private key and the
fingerprint of the key's public half. -/
def privateKeyFile (path : String) : Except String (Bytes × String) := do
  let keyBytes ← (kf.readFile path).mapError ("failed to open private key file: " ++ ·)
  match kf.pemDecode keyBytes with
  | some block =>
      if block.type ≠ "RSA PRIVATE KEY" then
        .error "failed to decode PEM block containing RSA private key"
      else do
        (kf.parsePKCS1PrivateKey block.bytes).mapError
          ("failed to parse PKCS1 private key from PEM: " ++ ·)
        let der ← (kf.marshalPKIXPublicKey block.bytes).mapError
          ("failed to marshal public key from private key: " ++ ·)
        pure (block.bytes, kf.fingerprint der)
  | none => .error "failed to decode PEM block containing RSA private key"

/-- `publicKeyForRSAFingerprint`. -/
def publicKeyForRSAFingerprint (kek : KekInfo) (keys : AsymmetricKeys) : Except String Bytes :=
  keyForFingerprint (publicKeyFile kf)
    ("no RSA public key found for fingerprint: " ++ getRsaFingerprint kek) (getRsaFingerprint kek)
    keys.publicKeyFiles

/-- `privateKeyForRSAFingerprint`. -/
def privateKeyForRSAFingerprint (kek : KekInfo) (keys : AsymmetricKeys) : Except String Bytes :=
  keyForFingerprint (privateKeyFile kf)
    ("no RSA private key found for fingerprint: " ++ getRsaFingerprint kek) (getRsaFingerprint kek)
    keys.privateKeyFiles

/-- `env` with the earlier client's RSA key lookups over the key files `kf`. -/
def withKeyFiles (env : Env) : Env :=
  { env with
    publicKeyForRSAFingerprint := publicKeyForRSAFingerprint kf
    privateKeyForRSAFingerprint := privateKeyForRSAFingerprint kf }

/-! ### The walk -/

section Walk

variable {file : String → Except String (Bytes × String)} {notFound fp : String}

/-- A file the walk goes past: it reads and parses, to a key of another fingerprint. -/
def Passes (file : String → Except String (Bytes × String)) (fp path : String) : Prop :=
  ∃ key f, file path = .ok (key, f) ∧ f ≠ fp

theorem keyForFingerprint_cons_error {path : String} {e : String} (rest : List String)
    (h : file path = .error e) : keyForFingerprint file notFound fp (path :: rest) = .error e := by
  simp only [keyForFingerprint, h]
  rfl

theorem keyForFingerprint_cons_ok {path : String} {key : Bytes} {f : String} (rest : List String)
    (h : file path = .ok (key, f)) :
    keyForFingerprint file notFound fp (path :: rest) =
      if f = fp then .ok key else keyForFingerprint file notFound fp rest := by
  simp only [keyForFingerprint, h]
  rfl

/-- Files the walk goes past are skipped. -/
theorem keyForFingerprint_append {pre : List String} (hpre : ∀ q ∈ pre, Passes file fp q)
    (rest : List String) :
    keyForFingerprint file notFound fp (pre ++ rest) = keyForFingerprint file notFound fp rest := by
  induction pre with
  | nil => rfl
  | cons q pre ih =>
      obtain ⟨key, f, hq, hf⟩ := hpre q (.head _)
      rw [List.cons_append, keyForFingerprint_cons_ok _ hq, if_neg hf]
      exact ih fun q' hq' => hpre q' (.tail _ hq')

/-- Every list of files is passed by the walk, or has a first file the walk stops at. -/
theorem passes_or_stops (paths : List String) :
    (∀ q ∈ paths, Passes file fp q) ∨
      ∃ pre path post, paths = pre ++ path :: post ∧ (∀ q ∈ pre, Passes file fp q) ∧
        ¬Passes file fp path := by
  induction paths with
  | nil => exact .inl (by simp)
  | cons p rest ih =>
      by_cases hp : Passes file fp p
      · rcases ih with hall | ⟨pre, path, post, rfl, hpre, hn⟩
        · exact .inl (List.forall_mem_cons.mpr ⟨hp, hall⟩)
        · exact .inr ⟨p :: pre, path, post, rfl, List.forall_mem_cons.mpr ⟨hp, hpre⟩, hn⟩
      · exact .inr ⟨[], p, rest, rfl, by simp, hp⟩

/-- The walk stops at a file that fails, or at one of fingerprint `fp`. -/
theorem stops_at {path : String} (h : ¬Passes file fp path) :
    (∃ e, file path = .error e) ∨ ∃ key, file path = .ok (key, fp) := by
  cases hp : file path with
  | error e => exact .inl ⟨e, rfl⟩
  | ok r =>
      obtain ⟨key, f⟩ := r
      by_cases hf : f = fp
      · exact .inr ⟨key, hf ▸ rfl⟩
      · exact absurd ⟨key, f, hp, hf⟩ h

/-- The walk returns a key exactly from the first file of fingerprint `fp`, all files
before it going past. -/
theorem keyForFingerprint_eq_ok {paths : List String} {key : Bytes} :
    keyForFingerprint file notFound fp paths = .ok key ↔
      ∃ pre path post, paths = pre ++ path :: post ∧ (∀ q ∈ pre, Passes file fp q) ∧
        file path = .ok (key, fp) := by
  constructor
  · intro h
    rcases @passes_or_stops file fp paths with hall | ⟨pre, path, post, rfl, hpre, hn⟩
    · rw [← List.append_nil paths, keyForFingerprint_append hall] at h
      cases h
    · rw [keyForFingerprint_append hpre] at h
      rcases stops_at hn with ⟨e, he⟩ | ⟨k, hk⟩
      · rw [keyForFingerprint_cons_error _ he] at h
        cases h
      · rw [keyForFingerprint_cons_ok _ hk, if_pos rfl] at h
        cases h
        exact ⟨pre, path, post, rfl, hpre, hk⟩
  · rintro ⟨pre, path, post, rfl, hpre, hpath⟩
    rw [keyForFingerprint_append hpre, keyForFingerprint_cons_ok _ hpath, if_pos rfl]

/-- The walk fails with `notFound` when every file goes past, and otherwise with the
error of the first file that fails, all files before it going past. -/
theorem keyForFingerprint_eq_error {paths : List String} {e : String} :
    keyForFingerprint file notFound fp paths = .error e ↔
      ((∀ q ∈ paths, Passes file fp q) ∧ e = notFound) ∨
      ∃ pre path post, paths = pre ++ path :: post ∧ (∀ q ∈ pre, Passes file fp q) ∧
        file path = .error e := by
  constructor
  · intro h
    rcases @passes_or_stops file fp paths with hall | ⟨pre, path, post, rfl, hpre, hn⟩
    · rw [← List.append_nil paths, keyForFingerprint_append hall] at h
      cases h
      exact .inl ⟨hall, rfl⟩
    · rw [keyForFingerprint_append hpre] at h
      rcases stops_at hn with ⟨e', he⟩ | ⟨k, hk⟩
      · rw [keyForFingerprint_cons_error _ he] at h
        cases h
        exact .inr ⟨pre, path, post, rfl, hpre, he⟩
      · rw [keyForFingerprint_cons_ok _ hk, if_pos rfl] at h
        cases h
  · rintro (⟨hall, rfl⟩ | ⟨pre, path, post, rfl, hpre, hpath⟩)
    · rw [← List.append_nil paths, keyForFingerprint_append hall]
      rfl
    · rw [keyForFingerprint_append hpre, keyForFingerprint_cons_error _ hpath]

/-- Over files that all read and parse, a walk past a file of fingerprint `fp` returns the
key of some file of that fingerprint. -/
theorem keyForFingerprint_of_mem {paths : List String} (hvalid : ∀ q ∈ paths, ∃ r, file q = .ok r)
    {q : String} {k : Bytes} (hq : q ∈ paths) (hk : file q = .ok (k, fp)) :
    ∃ key q', q' ∈ paths ∧ file q' = .ok (key, fp) ∧
      keyForFingerprint file notFound fp paths = .ok key := by
  rcases @passes_or_stops file fp paths with hall | ⟨pre, path, post, rfl, hpre, hn⟩
  · obtain ⟨k', f, hq', hf⟩ := hall q hq
    rw [hk] at hq'
    cases hq'
    exact absurd rfl hf
  · have hmem : path ∈ pre ++ path :: post := by simp
    rcases stops_at hn with ⟨e, he⟩ | ⟨key, hpath⟩
    · obtain ⟨r, hr⟩ := hvalid path hmem
      rw [hr] at he
      cases he
    · exact ⟨key, path, hmem, hpath, keyForFingerprint_eq_ok.mpr ⟨pre, path, post, rfl, hpre, hpath⟩⟩

end Walk

/-! ### One key file -/

section Files

variable {kf} {path : String} {key : Bytes} {f : String}

theorem publicKeyFile_fingerprint (h : publicKeyFile kf path = .ok (key, f)) :
    f = kf.fingerprint key := by
  unfold publicKeyFile at h
  cases hr : kf.readFile path with
  | error e => simp [hr, Except.mapError, bind, Except.bind] at h
  | ok b =>
      simp only [hr, Except.mapError, bind, Except.bind] at h
      split at h
      · rename_i block _
        split at h
        · cases h
        · cases hp : kf.parsePKIXPublicKey block.bytes with
          | error e => simp [hp] at h
          | ok isRSA =>
              cases isRSA <;> simp [hp, pure, Except.pure] at h
              exact h.2.symm.trans (congrArg kf.fingerprint h.1)
      · cases h

theorem privateKeyFile_fingerprint (h : privateKeyFile kf path = .ok (key, f)) :
    ∃ pub, kf.marshalPKIXPublicKey key = .ok pub ∧ f = kf.fingerprint pub := by
  unfold privateKeyFile at h
  cases hr : kf.readFile path with
  | error e => simp [hr, Except.mapError, bind, Except.bind] at h
  | ok b =>
      simp only [hr, Except.mapError, bind, Except.bind] at h
      split at h
      · rename_i block _
        split at h
        · cases h
        · cases hp : kf.parsePKCS1PrivateKey block.bytes with
          | error e => simp [hp] at h
          | ok u =>
              cases hm : kf.marshalPKIXPublicKey block.bytes with
              | error e => simp [hp, hm] at h
              | ok der =>
                  simp only [hp, hm, pure, Except.pure, Except.ok.injEq, Prod.mk.injEq] at h
                  obtain ⟨rfl, rfl⟩ := h
                  exact ⟨der, hm, rfl⟩
      · cases h

end Files

/-! ### The lookups meet the RSA contract -/

/-- Bytes as the string of their code points. -/
def byteString (b : Bytes) : String := String.mk (b.map fun x => Char.ofNat x.toNat)

/-- One RSA key pair on disk: the public key `[7]` in `pub.pem`, and in `priv.pem` the
private key `[8]`, whose public half is `[7]`. -/
def KeyFiles.pair : KeyFiles where
  readFile path := if path = "pub.pem" then .ok [1] else if path = "priv.pem" then .ok [2]
    else .error "no such file or directory"
  pemDecode b := if b = [1] then some ⟨"PUBLIC KEY", [7]⟩
    else if b = [2] then some ⟨"RSA PRIVATE KEY", [8]⟩ else none
  parsePKIXPublicKey _ := .ok true
  parsePKCS1PrivateKey _ := .ok ()
  marshalPKIXPublicKey priv := if priv = [8] then .ok [7] else .error "not a private key"
  fingerprint := byteString

/-- Key files fit for the RSA round trip: a listed public key and the public half of a
listed private key do not share a fingerprint unless they are the same key, OAEP decrypts
under a private key what was encrypted under its public half, every private key file reads
and parses, and every public key has its private key among the private files. -/
structure KeyPairs (env : Env) (kf : KeyFiles) (keys : AsymmetricKeys) : Prop where
  injective : ∀ q ∈ keys.publicKeyFiles, ∀ q' ∈ keys.privateKeyFiles, ∀ pub priv pub' f f',
    publicKeyFile kf q = .ok (pub, f) → privateKeyFile kf q' = .ok (priv, f') →
    kf.marshalPKIXPublicKey priv = .ok pub' → kf.fingerprint pub = kf.fingerprint pub' →
    pub = pub'
  oaep : ∀ priv pub pt ct, kf.marshalPKIXPublicKey priv = .ok pub →
    env.encryptOAEP pub pt = .ok ct → env.decryptOAEP priv ct = .ok pt
  valid : ∀ q ∈ keys.privateKeyFiles, ∃ r, privateKeyFile kf q = .ok r
  cover : ∀ q ∈ keys.publicKeyFiles, ∀ pub f, publicKeyFile kf q = .ok (pub, f) →
    ∃ q' ∈ keys.privateKeyFiles, ∃ priv, privateKeyFile kf q' = .ok (priv, f)

/-- Over key files that hold a key pair for every public key, the earlier client's
lookups meet the RSA part of the round-trip contract: what the public key of a fingerprint
encrypted, the private key found for the same fingerprint decrypts. -/
theorem withKeyFiles_rsa {env : Env} {keys : AsymmetricKeys} (hk : KeyPairs env kf keys) :
    ∀ fp pub pt ct,
      (withKeyFiles kf env).publicKeyForRSAFingerprint (.rsaFingerprint fp) keys = .ok pub →
      (withKeyFiles kf env).encryptOAEP pub pt = .ok ct →
      ∃ priv, (withKeyFiles kf env).privateKeyForRSAFingerprint (.rsaFingerprint fp) keys =
        .ok priv ∧ (withKeyFiles kf env).decryptOAEP priv ct = .ok pt := by
  intro fp pub pt ct hpub hct
  obtain ⟨pre, path, post, hpaths, -, hfile⟩ := keyForFingerprint_eq_ok.mp hpub
  have hfp : fp = kf.fingerprint pub := publicKeyFile_fingerprint hfile
  obtain ⟨q, hq, priv₀, hpriv₀⟩ := hk.cover path (by simp [hpaths]) pub fp hfile
  obtain ⟨priv, q', hmem, hq', hpriv⟩ := @keyForFingerprint_of_mem _
    ("no RSA private key found for fingerprint: " ++ fp) _ _ hk.valid _ _ hq hpriv₀
  obtain ⟨pub', hm, hfp'⟩ := privateKeyFile_fingerprint hq'
  obtain rfl : pub = pub' :=
    hk.injective path (by simp [hpaths]) q' hmem _ _ _ _ _ hfile hq' hm (hfp.symm.trans hfp')
  exact ⟨priv, hpriv, hk.oaep _ _ _ _ hm hct⟩

/-- The earlier client's round-trip contract survives putting its own file-based key
lookups into the backend, over key files that hold a key pair for every public key. The
contract assumed of the backend may be for other key files: its RSA part is replaced. -/
theorem roundTrips_withKeyFiles {env : Env} {keys keys' : AsymmetricKeys}
    (hr : RoundTrips env keys') (hk : KeyPairs env kf keys) :
    RoundTrips (withKeyFiles kf env) keys where
  current :=
    { hr.current with
      rsa := withKeyFiles_rsa kf hk
      sessions := ⟨hr.current.sessions.token, hr.current.sessions.establish,
        hr.current.sessions.endSession⟩ }
  address := hr.address

theorem roundTrips_withKeyFiles_pair :
    RoundTrips (withKeyFiles KeyFiles.pair (Client.Env.external "https://ekm/v0/k"))
      ⟨["pub.pem"], ["priv.pem"]⟩ :=
  roundTrips_withKeyFiles KeyFiles.pair (roundTrips_external _)
    { injective := fun q hq q' hq' pub priv pub' f f' h h' hm _ => by
        rw [List.mem_singleton.mp hq,
          show publicKeyFile KeyFiles.pair "pub.pem" = .ok ([7], byteString [7]) from rfl] at h
        rw [List.mem_singleton.mp hq',
          show privateKeyFile KeyFiles.pair "priv.pem" = .ok ([8], byteString [7]) from rfl] at h'
        cases h
        cases h'
        cases hm
        rfl
      oaep := fun _ _ _ _ _ h => by
        cases h
        rfl
      valid := fun q hq => by
        rw [List.mem_singleton.mp hq]
        exact ⟨_, rfl⟩
      cover := fun q hq pub f h => by
        rw [List.mem_singleton.mp hq,
          show publicKeyFile KeyFiles.pair "pub.pem" = .ok ([7], byteString [7]) from rfl] at h
        cases h
        exact ⟨"priv.pem", .head _, [8], rfl⟩ }

end Stet.Legacy
