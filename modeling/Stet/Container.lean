import Stet.Proto
import Mathlib.Algebra.Group.Nat.Basic

/-!
The container an encrypted blob is written in: a 12-byte header, the serialised metadata,
and the AEAD stream.

`WriteSTETHeader` and `ReadMetadata` are not part of `client.go`. Both are modelled from
the container format of the specification: the magic `STET`, the version `0x01`, three
reserved bytes, and the metadata length as a little-endian `uint32`, which a reader
accepts up to 16 MiB. The reader checks the magic, the version and the length in that
order, reads exactly the announced number of metadata bytes and parses them with the
proto parser it is given; it returns the input that follows, the AEAD stream.
-/

namespace Stet.Client

open Stet

/-- Modelled from the spec: the magic number, ASCII `STET`. -/
def stetMagic : Bytes := [0x53, 0x54, 0x45, 0x54]

/-- Modelled from the spec: the container version. -/
def stetVersion : UInt8 := 0x01

/-- Modelled from the spec: the largest metadata length a reader accepts, 16 MiB. -/
def maxMetadataLen : Nat := 16 * 1024 * 1024

/-- Modelled from the spec: the `uint32` of the low 32 bits of `n`, little-endian. -/
def uint32LE (n : Nat) : Bytes :=
  [UInt8.ofNat n, UInt8.ofNat (n / 2 ^ 8), UInt8.ofNat (n / 2 ^ 16), UInt8.ofNat (n / 2 ^ 24)]

/-- Modelled from the spec: the value of a little-endian `uint32`. -/
def readUint32LE (b₀ b₁ b₂ b₃ : UInt8) : Nat :=
  b₀.toNat + 2 ^ 8 * b₁.toNat + 2 ^ 16 * b₂.toNat + 2 ^ 24 * b₃.toNat

/-- Modelled from the spec: `WriteSTETHeader`, the header of a blob whose metadata is
`metadataLen` bytes long. -/
def writeSTETHeader (metadataLen : Nat) : Bytes :=
  stetMagic ++ [stetVersion, 0, 0, 0] ++ uint32LE metadataLen

/-- Modelled from the spec: `ReadMetadata`, the metadata at the head of `input` and the
input after it. -/
def readMetadata (unmarshal : Bytes → Except String Metadata) (input : Bytes) :
    Except String (Metadata × Bytes) :=
  match input with
  | m₀ :: m₁ :: m₂ :: m₃ :: v :: _ :: _ :: _ :: l₀ :: l₁ :: l₂ :: l₃ :: rest =>
      if [m₀, m₁, m₂, m₃] ≠ stetMagic then .error "BadMagic"
      else if v ≠ stetVersion then .error "UnsupportedVersion"
      else if maxMetadataLen < readUint32LE l₀ l₁ l₂ l₃ then .error "MetadataTooLarge"
      else if rest.length < readUint32LE l₀ l₁ l₂ l₃ then .error "unexpected EOF"
      else match unmarshal (rest.take (readUint32LE l₀ l₁ l₂ l₃)) with
        | .ok m => .ok (m, rest.drop (readUint32LE l₀ l₁ l₂ l₃))
        | .error e => .error ("MetadataParseError: " ++ e)
  | _ => .error "unexpected EOF"

theorem readUint32LE_uint32LE (n : Nat) :
    readUint32LE (UInt8.ofNat n) (UInt8.ofNat (n / 2 ^ 8)) (UInt8.ofNat (n / 2 ^ 16))
      (UInt8.ofNat (n / 2 ^ 24)) = n % 2 ^ 32 := by
  simp only [readUint32LE, UInt8.toNat, UInt8.ofNat, UInt8.mk_ofNat, UInt8.toBitVec_ofNat,
    BitVec.toNat_ofNat]
  omega

/-- The reader reads back the header the writer wrote, and then the length's worth of
metadata: a length the format accepts gives the parsed metadata and the rest. -/
theorem readMetadata_writeSTETHeader {unmarshal : Bytes → Except String Metadata}
    {mbytes : Bytes} {m : Metadata} (hl : mbytes.length ≤ maxMetadataLen)
    (hm : unmarshal mbytes = .ok m) (rest : Bytes) :
    readMetadata unmarshal (writeSTETHeader mbytes.length ++ mbytes ++ rest) = .ok (m, rest) := by
  have hlen : mbytes.length % 2 ^ 32 = mbytes.length := Nat.mod_eq_of_lt (by
    unfold maxMetadataLen at hl
    omega)
  simp only [writeSTETHeader, uint32LE, readMetadata, stetMagic, stetVersion, List.cons_append,
    List.nil_append, List.append_assoc, readUint32LE_uint32LE, hlen]
  simp [not_lt.mpr hl, hm]

/-- A header announcing more than 16 MiB of metadata is refused, whatever follows it. -/
theorem readMetadata_of_tooLarge (unmarshal : Bytes → Except String Metadata) {n : Nat}
    (hl : maxMetadataLen < n) (hn : n < 2 ^ 32) (rest : Bytes) :
    readMetadata unmarshal (writeSTETHeader n ++ rest) = .error "MetadataTooLarge" := by
  simp only [writeSTETHeader, uint32LE, readMetadata, stetMagic, stetVersion, List.cons_append,
    List.nil_append, List.append_assoc, readUint32LE_uint32LE, Nat.mod_eq_of_lt hn]
  simp [hl]

end Stet.Client
