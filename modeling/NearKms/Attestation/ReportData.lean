import NearKms.Attestation.Evidence

/-!
# Report data (`attestation/report_data.rs`)

The 64 bytes a worker binds into its quote: a version, the hash of the signer's
public key, and zeros.
-/

namespace NearKms

/-- `dst[offset .. offset + src.len()].copy_from_slice(src)`. -/
def copyFromSlice (dst : Bytes) (offset : Nat) (src : Bytes) : Bytes :=
  dst.take offset ++ src ++ dst.drop (offset + src.length)

theorem length_copyFromSlice {dst src : Bytes} {offset : Nat}
    (h : offset + src.length ≤ dst.length) :
    (copyFromSlice dst offset src).length = dst.length := by
  simp only [copyFromSlice, List.length_append, List.length_take, List.length_drop]
  omega

abbrev reportDataSize : Nat := 64

def binaryVersionOffset : Nat := 0

abbrev binaryVersionSize : Nat := 2

/-! ## Versions -/

inductive ReportDataVersion where
  | v1
deriving DecidableEq, Repr

namespace ReportDataVersion

def toU16 : ReportDataVersion → UInt16
  | .v1 => 1

/-- The version number, high byte first. -/
def toBeBytes (version : ReportDataVersion) : Bytes :=
  [(version.toU16 >>> 8).toUInt8, version.toU16.toUInt8]

/-- The version two bytes stand for. -/
def fromBeBytes (bytes : ByteArr binaryVersionSize) : Option ReportDataVersion :=
  if bytes[0].toUInt16 <<< 8 ||| bytes[1].toUInt16 = 1 then some .v1 else none

@[simp] theorem length_toBeBytes (version : ReportDataVersion) :
    version.toBeBytes.length = binaryVersionSize := rfl

end ReportDataVersion

/-! ## Version 1 -/

/-- Version 1 commits to one public key. -/
structure ReportDataV1 where
  tlsPublicKey : PublicKey

namespace ReportDataV1

def publicKeysOffset : Nat := binaryVersionOffset + binaryVersionSize

abbrev publicKeysHashSize : Nat := 48

/-- The hash of the key without its curve byte. -/
def publicKeysHash (deps : Externals) (data : ReportDataV1) : ByteArr publicKeysHashSize :=
  deps.sha3_384 (data.tlsPublicKey.asBytes.drop 1)

/-- The bytes `to_bytes` fills in, as a list. -/
def layout (deps : Externals) (data : ReportDataV1) : Bytes :=
  let reportData := List.replicate reportDataSize 0
  let reportData := copyFromSlice reportData binaryVersionOffset ReportDataVersion.v1.toBeBytes
  copyFromSlice reportData publicKeysOffset (data.publicKeysHash deps).toList

@[simp] theorem length_layout (deps : Externals) (data : ReportDataV1) :
    (data.layout deps).length = reportDataSize := by
  have hversion : (copyFromSlice (List.replicate reportDataSize 0) binaryVersionOffset
      ReportDataVersion.v1.toBeBytes).length = reportDataSize := by
    rw [length_copyFromSlice] <;> simp [binaryVersionOffset, binaryVersionSize, reportDataSize]
  rw [layout, length_copyFromSlice, hversion]
  rw [hversion, Vector.length_toList]
  decide

def toBytes (deps : Externals) (data : ReportDataV1) : ByteArr reportDataSize :=
  ⟨(data.layout deps).toArray, by simp⟩

/-- The key hash inside version 1 report data. -/
def fromBytes (bytes : ByteArr reportDataSize) : Bytes :=
  (bytes.toList.drop publicKeysOffset).take publicKeysHashSize

/-- Version, key hash, padding: the layout written out. -/
theorem toList_toBytes (deps : Externals) (data : ReportDataV1) :
    (data.toBytes deps).toList =
      [0, 1] ++ (data.publicKeysHash deps).toList ++ List.replicate 14 0 := by
  have hversion : copyFromSlice (List.replicate reportDataSize 0) binaryVersionOffset
      ReportDataVersion.v1.toBeBytes = [0, 1] ++ List.replicate 62 0 := by decide
  have hdrop : ([0, 1] ++ List.replicate 62 0 : Bytes).drop (2 + 48) = List.replicate 14 0 := by
    decide
  show data.layout deps = _
  rw [layout, hversion, copyFromSlice, Vector.length_toList]
  exact congrArg ([0, 1] ++ (data.publicKeysHash deps).toList ++ ·) hdrop

theorem fromBytes_toBytes (deps : Externals) (data : ReportDataV1) :
    fromBytes (data.toBytes deps) = (data.publicKeysHash deps).toList := by
  rw [fromBytes, toList_toBytes]
  exact List.take_left' Vector.length_toList

/-- Equal report data has equal key hashes. -/
theorem publicKeysHash_eq_of_toBytes_eq {deps : Externals} {data₁ data₂ : ReportDataV1}
    (h : data₁.toBytes deps = data₂.toBytes deps) :
    data₁.publicKeysHash deps = data₂.publicKeysHash deps := by
  apply Vector.toList_inj.1
  rw [← fromBytes_toBytes, ← fromBytes_toBytes, h]

end ReportDataV1

/-! ## All versions -/

inductive ReportData where
  | v1 (data : ReportDataV1)

namespace ReportData

def new (tlsPublicKey : PublicKey) : ReportData := .v1 ⟨tlsPublicKey⟩

def toBytes (deps : Externals) : ReportData → ByteArr reportDataSize
  | .v1 data => data.toBytes deps

end ReportData

end NearKms
