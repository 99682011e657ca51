import Stet.Proto

/-!
A canonical encoding of `Metadata`: a deterministic tag-length-value encoding with the
fields in a fixed order, as the container format of the specification asks for the
metadata blob and the AAD. It is one `proto.Marshal` that meets the contracts the
orchestrators take serialisation at, so that a run of `Encrypt` and `Decrypt` can be
evaluated end to end.

Every piece is a `Codec`, a writer together with a reader that gives back, from an
encoding followed by anything, the value and the bytes after it. Lengths and tags are
LEB128 varints, so every value has an encoding, however long its strings and lists.
-/

namespace Stet

/-- A self-delimiting encoding of `α`: reading back what `write` wrote, followed by any
bytes, gives the value and leaves those bytes. -/
structure Codec (α : Type) where
  write : α → Bytes
  read : Bytes → Option (α × Bytes)
  read_write : ∀ a rest, read (write a ++ rest) = some (a, rest)

namespace Codec

variable {α β : Type}

/-! ### Varints -/

/-- The LEB128 digits of `n`; `fuel` bounds the number of digits after the first, and
`n / 128` is enough. -/
def varint : Nat → Nat → Bytes
  | 0, n => [UInt8.ofNat n]
  | fuel + 1, n =>
      if n < 128 then [UInt8.ofNat n] else UInt8.ofNat (n % 128 + 128) :: varint fuel (n / 128)

/-- Read a LEB128 varint. -/
def readVarint : Bytes → Option (Nat × Bytes)
  | [] => none
  | b :: rest =>
      if b.toNat < 128 then some (b.toNat, rest)
      else (readVarint rest).map fun (n, r) => (b.toNat - 128 + 128 * n, r)

theorem readVarint_varint {fuel n : Nat} (h : n / 128 ≤ fuel) (rest : Bytes) :
    readVarint (varint fuel n ++ rest) = some (n, rest) := by
  induction fuel generalizing n with
  | zero =>
      have hb : (UInt8.ofNat n).toNat = n := UInt8.toNat_ofNat_of_lt (show n < 256 by omega)
      simp [varint, readVarint, hb, show n < 128 by omega]
  | succ fuel ih =>
      by_cases hn : n < 128
      · have hb : (UInt8.ofNat n).toNat = n := UInt8.toNat_ofNat_of_lt (show n < 256 by omega)
        simp [varint, readVarint, hn, hb]
      · have hb : (UInt8.ofNat (n % 128 + 128)).toNat = n % 128 + 128 :=
          UInt8.toNat_ofNat_of_lt (show n % 128 + 128 < 256 by omega)
        rw [varint, if_neg hn, List.cons_append, readVarint, hb, if_neg (by omega),
          ih (by omega)]
        simp only [Option.map_some', Option.some.injEq, Prod.mk.injEq, and_true]
        omega

theorem length_varint_le (fuel n : Nat) : (varint fuel n).length ≤ fuel + 1 := by
  induction fuel generalizing n with
  | zero => simp [varint]
  | succ fuel ih =>
      unfold varint
      split
      · simp
      · simpa using ih (n / 128)

/-- Natural numbers, as LEB128 varints. -/
def nat : Codec Nat where
  write n := varint (n / 128) n
  read := readVarint
  read_write _ := readVarint_varint (Nat.le_refl _)

theorem varint_ne_nil (fuel n : Nat) : varint fuel n ≠ [] := by
  cases fuel with
  | zero => simp [varint]
  | succ fuel =>
      unfold varint
      split <;> simp

/-- A single byte, as itself. -/
def byte : Codec UInt8 where
  write b := [b]
  read
    | [] => none
    | b :: rest => some (b, rest)
  read_write _ _ := rfl

/-! ### Combinators -/

/-- Values read off another codec's. -/
def map (c : Codec α) (f : α → β) (g : β → α) (h : ∀ b, f (g b) = b) : Codec β where
  write b := c.write (g b)
  read r := (c.read r).map fun (a, r) => (f a, r)
  read_write b rest := by simp [c.read_write, h]

/-- Pairs, the first component first. -/
def prod (c : Codec α) (d : Codec β) : Codec (α × β) where
  write p := c.write p.1 ++ d.write p.2
  read r := do
    let (a, r) ← c.read r
    let (b, r) ← d.read r
    pure ((a, b), r)
  read_write p rest := by simp [c.read_write, d.read_write]

/-- `count` values one after the other. -/
def readMany (c : Codec α) : Nat → Bytes → Option (List α × Bytes)
  | 0, r => some ([], r)
  | count + 1, r => do
      let (a, r) ← c.read r
      let (as, r) ← readMany c count r
      pure (a :: as, r)

theorem readMany_write (c : Codec α) (l : List α) (rest : Bytes) :
    readMany c l.length (l.flatMap c.write ++ rest) = some (l, rest) := by
  induction l with
  | nil => rfl
  | cons a l ih => simp [readMany, c.read_write, ih]

/-- Lists, as their length and then their elements. -/
def list (c : Codec α) : Codec (List α) where
  write l := nat.write l.length ++ l.flatMap c.write
  read r := do
    let (count, r) ← nat.read r
    readMany c count r
  read_write l rest := by simp [nat.read_write, readMany_write]

/-- An optional value, as a tag 0 or a tag 1 and the value. -/
def option (c : Codec α) : Codec (Option α) where
  write
    | none => [0]
    | some a => 1 :: c.write a
  read
    | 0 :: r => some (none, r)
    | 1 :: r => (c.read r).map fun (a, r) => (some a, r)
    | _ => none
  read_write o rest := by cases o <;> simp [c.read_write]

/-! ### The fields of `Metadata` -/

/-- Characters, as their code point. -/
def char : Codec Char := nat.map Char.ofNat Char.toNat Char.ofNat_toNat

theorem length_write_char {c : Char} (hc : c.toNat < 128) : (char.write c).length = 1 := by
  show (varint (c.toNat / 128) c.toNat).length = 1
  rw [Nat.div_eq_of_lt hc]
  rfl

/-- Strings, as their list of characters. -/
def string : Codec String := (list char).map String.mk String.data fun _ => rfl

theorem length_write_string (s : String) :
    (string.write s).length =
      (varint (s.length / 128) s.length).length + (s.data.flatMap char.write).length :=
  List.length_append _ _

/-- A run of one ASCII character is encoded one byte per character. -/
theorem length_flatMap_replicate {c : Char} (hc : c.toNat < 128) (n : Nat) :
    ((List.replicate n c).flatMap char.write).length = n := by
  induction n with
  | zero => rfl
  | succ n ih => simp [List.replicate_succ, length_write_char hc, ih, Nat.add_comm]

/-- A string of `n` copies of one ASCII character takes more than `n` bytes and at most
`2 n + 1`, its length prefix included. -/
theorem length_write_string_replicate {c : Char} (hc : c.toNat < 128) (n : Nat) :
    n < (string.write (String.mk (List.replicate n c))).length ∧
      (string.write (String.mk (List.replicate n c))).length ≤ 2 * n + 1 := by
  have hs := length_write_string (String.mk (List.replicate n c))
  have hn : (String.mk (List.replicate n c)).length = n := List.length_replicate n c
  rw [hn, show ((String.mk (List.replicate n c)).data.flatMap char.write).length = n from
    length_flatMap_replicate hc n] at hs
  have h₁ := List.length_pos.mpr (varint_ne_nil (n / 128) n)
  have h₂ := length_varint_le (n / 128) n
  omega

/-- Byte strings, as their length and their bytes. -/
def bytes : Codec Bytes := list byte

/-- Integers, as a sign tag and a magnitude. -/
def int : Codec Int where
  write
    | .ofNat n => 0 :: nat.write n
    | .negSucc n => 1 :: nat.write n
  read
    | 0 :: r => (nat.read r).map fun (n, r) => (Int.ofNat n, r)
    | 1 :: r => (nat.read r).map fun (n, r) => (Int.negSucc n, r)
    | _ => none
  read_write i rest := by cases i <;> simp [nat.read_write]

/-- `KekInfo`, as the oneof's tag and its field. -/
def kekInfo : Codec KekInfo where
  write
    | .rsaFingerprint f => 0 :: string.write f
    | .kekUri u => 1 :: string.write u
    | .unset => [2]
  read
    | 0 :: r => (string.read r).map fun (f, r) => (.rsaFingerprint f, r)
    | 1 :: r => (string.read r).map fun (u, r) => (.kekUri u, r)
    | 2 :: r => some (.unset, r)
    | _ => none
  read_write k rest := by cases k <;> simp [string.read_write]

/-- `KeySplittingAlgorithm`, as the oneof's tag and its fields. -/
def keySplittingAlgorithm : Codec KeySplittingAlgorithm where
  write
    | .noSplit => [0]
    | .shamir n k => 1 :: (int.write n ++ int.write k)
    | .unset => [2]
  read
    | 0 :: r => some (.noSplit, r)
    | 1 :: r => ((prod int int).read r).map fun ((n, k), r) => (.shamir n k, r)
    | 2 :: r => some (.unset, r)
    | _ => none
  read_write a rest := by
    cases a with
    | shamir n k =>
        show ((prod int int).read ((prod int int).write (n, k) ++ rest)).map _ = _
        rw [(prod int int).read_write]
        rfl
    | noSplit | unset => rfl

/-- `KeyConfig`. -/
def keyConfig : Codec KeyConfig :=
  (prod (list kekInfo) keySplittingAlgorithm).map (fun (ks, a) => ⟨ks, a⟩)
    (fun c => (c.kekInfos, c.keySplittingAlgorithm)) fun _ => rfl

/-- `WrappedShare`. -/
def wrappedShare : Codec WrappedShare :=
  (prod bytes bytes).map (fun (s, h) => ⟨s, h⟩) (fun w => (w.share, w.hash)) fun _ => rfl

/-- Modelled from the spec: the canonical form of `Metadata`, the blob ID, the key
configuration and the wrapped shares in that order. -/
def metadata : Codec Metadata :=
  (prod string (prod (option keyConfig) (list wrappedShare))).map
    (fun (b, c, ws) => ⟨b, c, ws⟩) (fun m => (m.blobId, m.keyConfig, m.shares)) fun _ => rfl

theorem length_write_metadata (b : String) (kc : Option KeyConfig) (ws : List WrappedShare) :
    (metadata.write ⟨b, kc, ws⟩).length = (string.write b).length +
      ((prod (option keyConfig) (list wrappedShare)).write (kc, ws)).length :=
  List.length_append _ _

end Codec

end Stet
