import NearKms.Host

/-!
# 32-byte hashes (`attestation/hash.rs`)

A hash is stored as 32 bytes and travels as hexadecimal text. `as_hex` writes
lower case, `try_from_hex` reads either case: one hash has many spellings.
-/

namespace NearKms

/-- The marker types of the two kinds of hash. -/
inductive Image
inductive Compose

/-- A hash that carries what it is a hash of in its type. -/
structure Hash32 (marker : Type) where
  bytes : Vector UInt8 32
deriving DecidableEq

abbrev DockerImageHash := Hash32 Image

abbrev DockerComposeHash := Hash32 Compose

inductive HexToHashError where
  | invalidHex (source : Hex.FromHexError)
  | invalidLength (providedLength : Nat)
deriving DecidableEq

namespace Hash32

variable {marker : Type}

/-- Lower-case hexadecimal text of the hash. -/
def asHex (hash : Hash32 marker) : String := Hex.encode hash.bytes.toList

/-- Reads a hash from hexadecimal text of either case. -/
def tryFromHex (hexHash : String) : Except HexToHashError (Hash32 marker) :=
  match Hex.decode hexHash with
  | .error source => .error (.invalidHex source)
  | .ok decodedHex =>
      if h : decodedHex.length = 32 then .ok ⟨⟨decodedHex.toArray, by simpa using h⟩⟩
      else .error (.invalidLength decodedHex.length)

/-- A string is accepted exactly when it decodes to 32 bytes. -/
theorem tryFromHex_eq_ok {s : String} {hash : Hash32 marker} :
    tryFromHex s = .ok hash ↔ Hex.decode s = .ok hash.bytes.toList := by
  unfold tryFromHex
  cases hdec : Hex.decode s with
  | error e => simp
  | ok bs =>
      by_cases hlen : bs.length = 32
      · simp only [dif_pos hlen, Except.ok.injEq]
        constructor
        · rintro rfl
          rfl
        · intro hbs
          cases hash with
          | mk bytes =>
              have hvec : (⟨bs.toArray, by simpa using hlen⟩ : Vector UInt8 32) = bytes := by
                apply Vector.toList_inj.1
                simpa using hbs
              rw [hvec]
      · simp only [dif_neg hlen, Except.ok.injEq, reduceCtorEq, false_iff]
        -- another length cannot decode to a hash
        intro hbs
        apply hlen
        rw [hbs, Vector.length_toList]

@[simp] theorem tryFromHex_asHex (hash : Hash32 marker) :
    tryFromHex hash.asHex = .ok hash := by
  rw [tryFromHex_eq_ok, asHex, Hex.decode_encode]

/-- The accepted strings: 64 hexadecimal characters, which spell the hash up to case. -/
theorem tryFromHex_eq_ok_iff {s : String} {hash : Hash32 marker} :
    tryFromHex s = .ok hash ↔
      s.length = 64 ∧ (∀ c ∈ s.toList, Hex.IsHexDigit c) ∧ hash.asHex = s.toLower := by
  rw [tryFromHex_eq_ok, Hex.decode_eq_ok_iff]
  constructor
  · intro h
    rcases h with ⟨hwf, htext⟩
    have hlen := Hex.length_of_encode_eq_toLower htext
    rw [Vector.length_toList] at hlen
    exact ⟨hlen, hwf.1, htext⟩
  · intro h
    rcases h with ⟨hlen, hcs, htext⟩
    exact ⟨⟨hcs, by rw [hlen]⟩, htext⟩

theorem tryFromHex_isOk_iff {s : String} :
    (∃ hash : Hash32 marker, tryFromHex s = .ok hash) ↔
      s.length = 64 ∧ ∀ c ∈ s.toList, Hex.IsHexDigit c := by
  constructor
  · rintro ⟨hash, h⟩
    rcases tryFromHex_eq_ok_iff.1 h with ⟨hlen, hcs, -⟩
    exact ⟨hlen, hcs⟩
  · rintro ⟨hlen, hcs⟩
    rcases Hex.decode_isOk_iff.2 ⟨hcs, by rw [hlen]⟩ with ⟨bs, hbs⟩
    have htwice := Hex.length_of_encode_eq_toLower (Hex.decode_eq_ok_iff.1 hbs).2
    have hbytes : bs.length = 32 := by omega
    exact ⟨⟨⟨bs.toArray, by simpa using hbytes⟩⟩, tryFromHex_eq_ok.2 hbs⟩

theorem tryFromHex_invalidHex_iff {s : String} :
    (∃ source, (tryFromHex s : Except HexToHashError (Hash32 marker)) =
        .error (.invalidHex source)) ↔ ¬ Hex.WellFormed s := by
  rw [← Hex.decode_isOk_iff]
  unfold tryFromHex
  cases hdec : Hex.decode s with
  | error source => simp
  | ok bs =>
      by_cases hlen : bs.length = 32
      · simp [hlen]
      · simp [hlen]

/-- The other strings of hexadecimal characters have the wrong length. -/
theorem tryFromHex_invalidLength_iff {s : String} {providedLength : Nat} :
    (tryFromHex s : Except HexToHashError (Hash32 marker)) =
        .error (.invalidLength providedLength) ↔
      Hex.WellFormed s ∧ s.length = 2 * providedLength ∧ providedLength ≠ 32 := by
  unfold tryFromHex
  cases hdec : Hex.decode s with
  | error source =>
      have hnot : ¬ Hex.WellFormed s := by
        rw [← Hex.decode_isOk_iff, hdec]
        simp
      simp [hnot]
  | ok bs =>
      rcases Hex.decode_eq_ok_iff.1 hdec with ⟨hwf, htext⟩
      have htwice := Hex.length_of_encode_eq_toLower htext
      by_cases hlen : bs.length = 32
      · simp only [dif_pos hlen, reduceCtorEq, false_iff]
        intro h
        rcases h with ⟨-, hprovided, hne⟩
        exact hne (by omega)
      · simp only [dif_neg hlen, Except.error.injEq, HexToHashError.invalidLength.injEq]
        constructor
        · rintro rfl
          exact ⟨hwf, htwice, hlen⟩
        · intro h
          rcases h with ⟨-, hprovided, -⟩
          omega

theorem asHex_eq_encode_iff {hash : Hash32 marker} {bs : Vector UInt8 32} :
    hash.asHex = Hex.encode bs.toList ↔ hash.bytes = bs := by
  constructor
  · intro h
    exact Vector.toList_inj.1 (Hex.encode_injective h)
  · rintro rfl
    rfl

end Hash32

end NearKms
