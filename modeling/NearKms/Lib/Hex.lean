import Mathlib.Data.List.Basic

/-!
# UTF-8 bytes and the hexadecimal codec

Strings enter hash functions and decoders as their UTF-8 bytes. The codec writes
two lower-case digits a byte and reads digits of either case, so decoding is a
left inverse of encoding but several strings decode to the same bytes: exactly
those that are the encoded text up to case (`decode_eq_ok_iff`).
-/

namespace Utf8

/-- The UTF-8 bytes of a string. -/
def asBytes (s : String) : List UInt8 := s.toByteArray.data.toList

theorem asBytes_injective {s t : String} (h : asBytes s = asBytes t) : s = t := by
  have hdata : s.toByteArray.data = t.toByteArray.data := Array.toList_inj.1 h
  exact String.toByteArray_inj.1 (ByteArray.ext hdata)

@[simp] theorem asBytes_ofList (cs : List Char) :
    asBytes (String.ofList cs) = cs.flatMap String.utf8EncodeChar := by
  simp [asBytes, List.utf8Encode, List.data_toByteArray]

theorem asBytes_eq (s : String) : asBytes s = s.toList.flatMap String.utf8EncodeChar := by
  have h := asBytes_ofList s.toList
  rwa [String.ofList_toList] at h

end Utf8

namespace Hex

open Utf8

/-- What can be wrong with a hexadecimal string. -/
inductive FromHexError where
  | invalidHexCharacter (c : Char) (index : Nat)
  | oddLength
deriving DecidableEq, Repr

/-! ## Encoding -/

/-- The two digits of a byte, high half first. -/
def byteChars (b : UInt8) : List Char :=
  [Nat.digitChar (b.toNat / 16), Nat.digitChar (b.toNat % 16)]

/-- Lower-case hexadecimal text of a byte string. -/
def encode (bs : List UInt8) : String := String.ofList (bs.flatMap byteChars)

/-! ## Decoding -/

/-- The value of the digit `c`, which stands at `index`. -/
def val (c : UInt8) (index : Nat) : Except FromHexError Nat :=
  if 65 ≤ c.toNat ∧ c.toNat ≤ 70 then .ok (c.toNat - 65 + 10)
  else if 97 ≤ c.toNat ∧ c.toNat ≤ 102 then .ok (c.toNat - 97 + 10)
  else if 48 ≤ c.toNat ∧ c.toNat ≤ 57 then .ok (c.toNat - 48)
  else .error (.invalidHexCharacter (Char.ofNat c.toNat) index)

/-- Decodes digit pairs, the first of which stands at `index`. -/
def decodePairs : Nat → List UInt8 → Except FromHexError (List UInt8)
  | index, hi :: lo :: rest => do
      let h ← val hi index
      let l ← val lo (index + 1)
      let tail ← decodePairs (index + 2) rest
      pure (UInt8.ofNat (16 * h + l) :: tail)
  | _, _ => pure []

/-- Decodes a hexadecimal string of either case. -/
def decode (s : String) : Except FromHexError (List UInt8) :=
  let bytes := asBytes s
  if bytes.length % 2 ≠ 0 then .error .oddLength else decodePairs 0 bytes

/-! ## Round trip -/

theorem val_digitChar {n : Nat} (hn : n < 16) (index : Nat) :
    val (Nat.digitChar n).val.toUInt8 index = .ok n := by
  have h : ∀ m < 16, (Nat.digitChar m).val.toUInt8.toNat = if m < 10 then 48 + m else 87 + m := by
    decide
  unfold val
  rw [h n hn]
  split <;> split <;> grind

theorem utf8EncodeChar_digitChar {n : Nat} (hn : n < 16) :
    String.utf8EncodeChar (Nat.digitChar n) = [(Nat.digitChar n).val.toUInt8] := by
  have h : ∀ m < 16, String.utf8EncodeChar (Nat.digitChar m)
      = [(Nat.digitChar m).val.toUInt8] := by decide
  exact h n hn

theorem asBytes_encode (bs : List UInt8) :
    asBytes (encode bs) = bs.flatMap fun b =>
      [(Nat.digitChar (b.toNat / 16)).val.toUInt8,
        (Nat.digitChar (b.toNat % 16)).val.toUInt8] := by
  rw [encode, asBytes_ofList]
  induction bs with
  | nil => rfl
  | cons b bs ih =>
      have hb : b.toNat < 256 := b.toNat_lt
      simp [byteChars, ih, utf8EncodeChar_digitChar (show b.toNat / 16 < 16 by omega),
        utf8EncodeChar_digitChar (show b.toNat % 16 < 16 by omega)]

theorem length_asBytes_encode (bs : List UInt8) :
    (asBytes (encode bs)).length = 2 * bs.length := by
  rw [asBytes_encode]
  induction bs with
  | nil => rfl
  | cons b bs ih => simp only [List.flatMap_cons, List.length_append, ih]; simp; omega

/-- Decoding undoes encoding. -/
@[simp] theorem decode_encode (bs : List UInt8) : decode (encode bs) = .ok bs := by
  have hpairs : ∀ index, decodePairs index (asBytes (encode bs)) = .ok bs := by
    rw [asBytes_encode]
    induction bs with
    | nil => intro index; rfl
    | cons b bs ih =>
        intro index
        have hb : b.toNat < 256 := b.toNat_lt
        have hval : 16 * (b.toNat / 16) + b.toNat % 16 = b.toNat := by omega
        simp only [List.flatMap_cons, List.cons_append, List.nil_append, decodePairs,
          val_digitChar (show b.toNat / 16 < 16 by omega),
          val_digitChar (show b.toNat % 16 < 16 by omega), ih, bind, Except.bind, pure,
          Except.pure, hval, UInt8.ofNat_toNat]
  -- the text has even length, so decoding reaches the digit pairs
  rw [decode, length_asBytes_encode, if_neg (by omega)]
  exact hpairs 0

theorem encode_injective {a b : List UInt8} (h : encode a = encode b) : a = b := by
  have ha := decode_encode a
  rw [h, decode_encode] at ha
  exact (Except.ok.inj ha).symm

/-! ## What decodes -/

/-- The codes of the hexadecimal digits: `0` to `9`, `A` to `F` and `a` to `f`. -/
def IsDigitCode (n : Nat) : Prop := (48 ≤ n ∧ n ≤ 57) ∨ (65 ≤ n ∧ n ≤ 70) ∨ (97 ≤ n ∧ n ≤ 102)

instance (n : Nat) : Decidable (IsDigitCode n) := inferInstanceAs (Decidable (_ ∨ _))

/-- A hexadecimal character of either case. -/
def IsHexDigit (c : Char) : Prop := IsDigitCode c.toNat

instance (c : Char) : Decidable (IsHexDigit c) := inferInstanceAs (Decidable (IsDigitCode _))

/-- The value of the digit with code `n`. -/
def digitVal (n : Nat) : Nat := if n ≤ 57 then n - 48 else if n ≤ 70 then n - 55 else n - 87

theorem IsDigitCode.lt {n : Nat} (h : IsDigitCode n) : n < 128 := by
  unfold IsDigitCode at h
  omega

theorem digitVal_lt {n : Nat} (h : IsDigitCode n) : digitVal n < 16 := by
  unfold IsDigitCode at h
  unfold digitVal
  split_ifs <;> omega

/-- Writing the value of a digit again puts it in lower case. -/
theorem digitChar_digitVal {c : Char} (h : IsHexDigit c) :
    Nat.digitChar (digitVal c.toNat) = c.toLower := by
  -- digits are ASCII, so there are finitely many to look at
  have hall : ∀ n < 128, IsDigitCode n → Nat.digitChar (digitVal n) = (Char.ofNat n).toLower := by
    decide +kernel
  have hc := hall c.toNat h.lt h
  rwa [Char.ofNat_toNat] at hc

theorem val_of_isDigitCode {b : UInt8} (h : IsDigitCode b.toNat) (index : Nat) :
    val b index = .ok (digitVal b.toNat) := by
  unfold val digitVal
  rcases h with h | h | h
  · rw [if_neg (by omega), if_neg (by omega), if_pos h, if_pos h.2]
  · have hnat : b.toNat - 65 + 10 = b.toNat - 55 := by omega
    rw [if_pos h, if_neg (by omega), if_pos h.2, hnat]
  · have hnat : b.toNat - 97 + 10 = b.toNat - 87 := by omega
    rw [if_neg (by omega), if_pos h, if_neg (by omega), if_neg (by omega), hnat]

theorem isDigitCode_of_val {b : UInt8} {index n : Nat} (h : val b index = .ok n) :
    IsDigitCode b.toNat := by
  unfold val at h
  unfold IsDigitCode
  split_ifs at h <;> omega

theorem utf8EncodeChar_of_lt {c : Char} (h : c.toNat < 128) :
    String.utf8EncodeChar c = [UInt8.ofNat c.toNat] := by
  have hv : c.val.toNat ≤ 127 := Nat.le_of_lt_succ h
  exact if_pos hv

/-- Beyond ASCII every character starts with a byte that is no digit. -/
theorem exists_large_byte {c : Char} (h : 128 ≤ c.toNat) :
    ∃ b ∈ String.utf8EncodeChar c, 128 ≤ b.toNat := by
  have hv : ¬ c.val.toNat ≤ 127 := by
    have hc : c.toNat = c.val.toNat := rfl
    omega
  have hbyte : ∀ n k, n < k → k ≤ 64 → 128 ≤ (UInt8.ofNat (n + (256 - 2 * k))).toNat := by
    intro n k hn hk
    rw [UInt8.toNat_ofNat_of_lt' (by show _ < 256; omega)]
    omega
  unfold String.utf8EncodeChar
  simp only [if_neg hv]
  -- two, three or four bytes, each with its own mark on the first
  split_ifs
  · exact ⟨_, List.mem_cons_self, hbyte _ 32 (Nat.mod_lt _ (by omega)) (by omega)⟩
  · exact ⟨_, List.mem_cons_self, hbyte _ 16 (Nat.mod_lt _ (by omega)) (by omega)⟩
  · exact ⟨_, List.mem_cons_self, hbyte _ 8 (Nat.mod_lt _ (by omega)) (by omega)⟩

/-- The bytes of a character are digits exactly if it is a hexadecimal character. -/
theorem forall_utf8EncodeChar_iff {c : Char} :
    (∀ b ∈ String.utf8EncodeChar c, IsDigitCode b.toNat) ↔ IsHexDigit c := by
  by_cases hlt : c.toNat < 128
  · have hbyte : (UInt8.ofNat c.toNat).toNat = c.toNat :=
      UInt8.toNat_ofNat_of_lt' (by show _ < 256; omega)
    rw [utf8EncodeChar_of_lt hlt, List.forall_mem_singleton, hbyte, IsHexDigit]
  · -- neither side holds: one byte of `c` is too large for a digit
    rcases exists_large_byte (Nat.le_of_not_lt hlt) with ⟨b, hb, hlarge⟩
    constructor
    · intro h
      have hsmall := (h b hb).lt
      omega
    · intro h
      exact absurd h.lt hlt

/-- Text of an even number of bytes decodes exactly if all of them are digits. -/
theorem decodePairs_isOk_iff (index : Nat) (bytes : List UInt8) (heven : bytes.length % 2 = 0) :
    (∃ out, decodePairs index bytes = .ok out) ↔ ∀ b ∈ bytes, IsDigitCode b.toNat := by
  induction index, bytes using decodePairs.induct with
  | case1 index hi lo rest ih =>
      have hrest : rest.length % 2 = 0 := by
        simp only [List.length_cons] at heven
        omega
      rw [List.forall_mem_cons, List.forall_mem_cons, ← ih hrest, decodePairs]
      constructor
      · rintro ⟨out, hout⟩
        -- each of the three computations must have succeeded
        cases hhi : val hi index with
        | error e => simp [hhi, bind, Except.bind] at hout
        | ok h =>
            cases hlo : val lo (index + 1) with
            | error e => simp [hhi, hlo, bind, Except.bind] at hout
            | ok l =>
                cases htail : decodePairs (index + 2) rest with
                | error e => simp [hhi, hlo, htail, bind, Except.bind] at hout
                | ok tail => exact ⟨isDigitCode_of_val hhi, isDigitCode_of_val hlo, tail, rfl⟩
      · rintro ⟨hhi, hlo, tail, htail⟩
        rw [val_of_isDigitCode hhi, val_of_isDigitCode hlo, htail]
        exact ⟨_, rfl⟩
  | case2 bytes index hshort =>
      -- an even list without two first elements is empty
      cases bytes with
      | nil =>
          constructor
          · intro _ b hb
            cases hb
          · intro _
            exact ⟨[], rfl⟩
      | cons b bytes =>
          cases bytes with
          | nil => simp at heven
          | cons b' bytes => exact absurd rfl (hshort b b' bytes)

theorem val_of_isHexDigit {c : Char} (h : IsHexDigit c) (index : Nat) :
    val (UInt8.ofNat c.toNat) index = .ok (digitVal c.toNat) := by
  have hbyte : (UInt8.ofNat c.toNat).toNat = c.toNat :=
    UInt8.toNat_ofNat_of_lt' (Nat.lt_trans h.lt (by decide))
  rw [val_of_isDigitCode (by rw [hbyte]; exact h), hbyte]

/-- The text of a byte is that of its two halves. -/
theorem byteChars_ofNat {h l : Nat} (hh : h < 16) (hl : l < 16) :
    byteChars (UInt8.ofNat (16 * h + l)) = [Nat.digitChar h, Nat.digitChar l] := by
  have hnat : (UInt8.ofNat (16 * h + l)).toNat = 16 * h + l :=
    UInt8.toNat_ofNat_of_lt' (by show _ < 256; omega)
  have hdiv : (16 * h + l) / 16 = h := by omega
  have hmod : (16 * h + l) % 16 = l := by omega
  rw [byteChars, hnat, hdiv, hmod]

/-- Digits decode, two by two, to bytes whose text is theirs in lower case. -/
theorem decodePairs_digits (cs : List Char) (hcs : ∀ c ∈ cs, IsHexDigit c)
    (heven : cs.length % 2 = 0) (index : Nat) :
    ∃ bs, decodePairs index (cs.flatMap String.utf8EncodeChar) = .ok bs ∧
      bs.flatMap byteChars = cs.map Char.toLower := by
  match cs with
  | [] => exact ⟨[], rfl, rfl⟩
  | [c] => simp at heven
  | hi :: lo :: rest =>
      rw [List.forall_mem_cons, List.forall_mem_cons] at hcs
      rcases hcs with ⟨hhi, hlo, hrest⟩
      have hlen : rest.length % 2 = 0 := by
        simp only [List.length_cons] at heven
        omega
      rcases decodePairs_digits rest hrest hlen (index + 2) with ⟨tail, htail, htext⟩
      refine ⟨UInt8.ofNat (16 * digitVal hi.toNat + digitVal lo.toNat) :: tail, ?_, ?_⟩
      · simp only [List.flatMap_cons, utf8EncodeChar_of_lt hhi.lt, utf8EncodeChar_of_lt hlo.lt,
          List.cons_append, List.nil_append, decodePairs, val_of_isHexDigit hhi,
          val_of_isHexDigit hlo, htail, bind, Except.bind, pure, Except.pure]
      · rw [List.flatMap_cons, htext, byteChars_ofNat (digitVal_lt hhi) (digitVal_lt hlo),
          digitChar_digitVal hhi, digitChar_digitVal hlo]
        rfl

/-- Hexadecimal text has one byte for each character. -/
theorem length_flatMap_utf8 {cs : List Char} (hcs : ∀ c ∈ cs, IsHexDigit c) :
    (cs.flatMap String.utf8EncodeChar).length = cs.length := by
  induction cs with
  | nil => rfl
  | cons c cs ih =>
      rw [List.forall_mem_cons] at hcs
      rw [List.flatMap_cons, List.length_append, ih hcs.2, utf8EncodeChar_of_lt hcs.1.lt,
        List.length_singleton, List.length_cons, Nat.add_comm]

/-- Text that decodes: hexadecimal characters, an even number of them. -/
def WellFormed (s : String) : Prop := (∀ c ∈ s.toList, IsHexDigit c) ∧ s.length % 2 = 0

theorem decode_isOk_iff {s : String} : (∃ bs, decode s = .ok bs) ↔ WellFormed s := by
  have hbytes : (∀ b ∈ asBytes s, IsDigitCode b.toNat) ↔ ∀ c ∈ s.toList, IsHexDigit c := by
    simp only [asBytes_eq, List.mem_flatMap, forall_exists_index, and_imp]
    constructor
    · intro h c hc
      exact forall_utf8EncodeChar_iff.1 fun b hb => h b c hc hb
    · intro h b c hc hb
      exact forall_utf8EncodeChar_iff.2 (h c hc) b hb
  unfold decode WellFormed
  rw [← hbytes]
  -- the length that is checked counts bytes, and only digits are one byte each
  by_cases heven : (asBytes s).length % 2 = 0
  · simp only [heven, ne_eq, not_true_eq_false, if_false, decodePairs_isOk_iff 0 _ heven]
    constructor
    · intro h
      refine ⟨h, ?_⟩
      rw [asBytes_eq, length_flatMap_utf8 (hbytes.1 h)] at heven
      exact heven
    · exact fun h => h.1
  · simp only [heven, ne_eq, not_false_eq_true, if_true, reduceCtorEq, exists_false, false_iff,
      not_and]
    intro h hlen
    rw [asBytes_eq, length_flatMap_utf8 (hbytes.1 h)] at heven
    exact heven hlen

theorem toList_toLower (s : String) : s.toLower.toList = s.toList.map Char.toLower := by
  have h : (s.map Char.toLower).toList = s.toList.map Char.toLower := String.toList_map
  exact h

/-- A string decodes to `bs` exactly if it is well formed and in lower case it is
what `bs` is encoded to. -/
theorem decode_eq_ok_iff {s : String} {bs : List UInt8} :
    decode s = .ok bs ↔ WellFormed s ∧ encode bs = s.toLower := by
  have hdecode : WellFormed s → ∃ bs', decode s = .ok bs' ∧ encode bs' = s.toLower := by
    rintro ⟨hcs, heven⟩
    rcases decodePairs_digits s.toList hcs heven 0 with ⟨bs', hbs', htext⟩
    refine ⟨bs', ?_, ?_⟩
    · have hlen : (asBytes s).length % 2 = 0 := by
        rw [asBytes_eq, length_flatMap_utf8 hcs]
        exact heven
      rw [decode, if_neg (by rw [hlen]; simp), asBytes_eq]
      exact hbs'
    · apply String.toList_inj.1
      rw [encode, String.toList_ofList, htext, toList_toLower]
  constructor
  · intro h
    have hwf := decode_isOk_iff.1 ⟨bs, h⟩
    rcases hdecode hwf with ⟨bs', hbs', htext⟩
    rw [h] at hbs'
    rw [Except.ok.inj hbs']
    exact ⟨hwf, htext⟩
  · rintro ⟨hwf, htext⟩
    -- it decodes to some bytes, and their text leaves no choice
    rcases hdecode hwf with ⟨bs', hbs', htext'⟩
    rw [hbs', encode_injective (htext'.trans htext.symm)]

theorem length_encode (bs : List UInt8) : (encode bs).length = 2 * bs.length := by
  rw [encode, String.length_ofList]
  induction bs with
  | nil => rfl
  | cons b bs ih =>
      rw [List.flatMap_cons, List.length_append, ih, byteChars, List.length_cons]
      simp only [List.length_cons, List.length_nil]
      omega

/-- Two characters for each byte. -/
theorem length_of_encode_eq_toLower {s : String} {bs : List UInt8} (h : encode bs = s.toLower) :
    s.length = 2 * bs.length := by
  have hlower : s.toLower.length = s.length := by
    rw [← String.length_toList, toList_toLower, List.length_map, String.length_toList]
  rw [← hlower, ← h, length_encode]

/-- Encoded text is in lower case. -/
theorem toLower_encode (bs : List UInt8) : (encode bs).toLower = encode bs :=
  (decode_eq_ok_iff.1 (decode_encode bs)).2.symm

end Hex
