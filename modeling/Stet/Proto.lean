import Stet.Go

/-!
The messages the client reads and writes: STET's `configpb` configuration and metadata,
the Cloud KMS messages of `rpb`/`spb`, and the `shares` package's `DEK` and
`UnwrappedShare`.

Only the fields the client reads are here. A `oneof` is an inductive with an `unset`
case where the source has a `default:` branch for it; an optional sub-message is an
`Option`; a proto `Int64Value` wrapper is an `Option Int`, since reading `.Value` of a
nil wrapper panics and the client reads it unguarded.
-/

namespace Stet

/-! ### STET configuration and metadata -/

/-- `configpb.KekInfo`, the oneof `kek_type`. -/
inductive KekInfo where
  | rsaFingerprint (fingerprint : String)
  | kekUri (uri : String)
  | unset
  deriving DecidableEq, Repr

/-- `configpb.KeyConfig`'s oneof `key_splitting_algorithm`. -/
inductive KeySplittingAlgorithm where
  | noSplit
  | shamir (shares threshold : Int)
  | unset
  deriving DecidableEq, Repr

/-- `configpb.KeyConfig`. Go's `proto.Equal` on two of them is `=`. -/
structure KeyConfig where
  kekInfos : List KekInfo
  keySplittingAlgorithm : KeySplittingAlgorithm
  deriving DecidableEq, Repr

/-- `configpb.WrappedShare`: the share wrapped under its KEK, and the hash of the
unwrapped share. -/
structure WrappedShare where
  share : Bytes
  hash : Bytes
  deriving DecidableEq, Repr

/-- `configpb.Metadata`, the header of an encrypted blob. -/
structure Metadata where
  blobId : String
  keyConfig : Option KeyConfig
  shares : List WrappedShare
  deriving DecidableEq, Repr

/-- `configpb.EncryptConfig`. -/
structure EncryptConfig where
  keyConfig : Option KeyConfig
  deriving DecidableEq, Repr

/-- `configpb.DecryptConfig`: the key configurations a blob may have been written
under. -/
structure DecryptConfig where
  keyConfigs : List KeyConfig
  deriving DecidableEq, Repr

/-- `configpb.AsymmetricKeys`: the PEM files holding the user's RSA keys. -/
structure AsymmetricKeys where
  publicKeyFiles : List String
  privateKeyFiles : List String
  deriving DecidableEq, Repr

/-- `shares.UnwrappedShare`: an unwrapped share and the URI of the key that unwrapped
it, empty for an RSA key. -/
structure UnwrappedShare where
  share : Bytes
  uri : String
  deriving DecidableEq, Repr

/-- `client.StetMetadata`, what `Encrypt` and `Decrypt` return. -/
structure StetMetadata where
  keyUris : List String
  blobId : String
  deriving DecidableEq, Repr

/-- `shares.DEK`, a `[32]byte`. -/
structure DEK where
  bytes : Bytes
  length_eq : bytes.length = 32
  deriving DecidableEq

/-- Go's `var d DEK; copy(d[:], b)`: the first 32 bytes of `b`, zero-padded. -/
def DEK.ofSlice (b : Bytes) : DEK where
  bytes := (b ++ List.replicate 32 0).take 32
  length_eq := by
    rw [List.length_take, List.length_append, List.length_replicate]
    omega

@[simp] theorem DEK.ofSlice_bytes (d : DEK) : DEK.ofSlice d.bytes = d := by
  obtain ⟨b, hb⟩ := d
  simp only [DEK.ofSlice, DEK.mk.injEq]
  rw [List.take_append_of_le_length (by omega), List.take_of_length_le (by omega)]

/-! ### Cloud KMS -/

/-- `kms.ProtectionLevel`. -/
inductive ProtectionLevel where
  | protectionLevelUnspecified
  | software
  | hsm
  | external
  | externalVpc
  deriving DecidableEq, Repr

/-- The enum value's name, as `%v` prints it. -/
def ProtectionLevel.name : ProtectionLevel → String
  | .protectionLevelUnspecified => "PROTECTION_LEVEL_UNSPECIFIED"
  | .software => "SOFTWARE"
  | .hsm => "HSM"
  | .external => "EXTERNAL"
  | .externalVpc => "EXTERNAL_VPC"

/-- `kms.CryptoKeyVersion_CryptoKeyVersionState`. -/
inductive CryptoKeyVersionState where
  | cryptoKeyVersionStateUnspecified
  | pendingGeneration
  | enabled
  | disabled
  | destroyed
  | destroyScheduled
  deriving DecidableEq, Repr

/-- `kms.ExternalProtectionLevelOptions`. -/
structure ExternalProtectionLevelOptions where
  externalKeyUri : String
  deriving DecidableEq, Repr

/-- `kms.CryptoKeyVersion`. -/
structure CryptoKeyVersion where
  state : CryptoKeyVersionState
  protectionLevel : ProtectionLevel
  externalProtectionLevelOptions : Option ExternalProtectionLevelOptions
  deriving DecidableEq, Repr

/-- `kms.CryptoKey`; `GetPrimary()` is nil-safe. -/
structure CryptoKey where
  primary : Option CryptoKeyVersion
  deriving DecidableEq, Repr

/-- `kms.EncryptRequest`. -/
structure EncryptRequest where
  name : String
  plaintext : Bytes
  plaintextCrc32C : Option Int
  deriving DecidableEq, Repr

/-- `kms.EncryptResponse`. -/
structure EncryptResponse where
  ciphertext : Bytes
  ciphertextCrc32C : Option Int
  verifiedPlaintextCrc32C : Bool
  deriving DecidableEq, Repr

/-- `kms.DecryptRequest`. -/
structure DecryptRequest where
  name : String
  ciphertext : Bytes
  ciphertextCrc32C : Option Int
  deriving DecidableEq, Repr

/-- `kms.DecryptResponse`. -/
structure DecryptResponse where
  plaintext : Bytes
  plaintextCrc32C : Option Int
  deriving DecidableEq, Repr

end Stet
