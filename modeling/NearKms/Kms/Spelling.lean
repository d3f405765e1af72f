import NearKms.Kms.Allowlist

/-!
# What an entry of the allowlist means

The list stores strings, the launcher check compares text: between them a stored
string is decoded and encoded again. It stands for the one hash whose text it is up
to case, and any other string does not convert.
-/

namespace NearKms.Kms

/-- Two strings that differ at most in the case of letters. -/
def EqIgnoreAsciiCase (s t : String) : Prop := s.toLower = t.toLower

/-- The conversion of `request_kms_root_key`, for any list of stored strings. -/
def decodeStored (stored : List String) : Except Panic (List DockerComposeHash) :=
  stored.mapM fun hash => unwrapOr (Hash32.tryFromHex hash).toOption "Invalid compose hash"

/-- Where all strings convert, a hash is among them exactly if one of them spells it. -/
theorem mem_decodeStored {stored : List String} {hashes : List DockerComposeHash}
    (h : decodeStored stored = .ok hashes) (hash : DockerComposeHash) :
    hash ∈ hashes ↔ ∃ s ∈ stored, EqIgnoreAsciiCase s hash.asHex := by
  have hlower : hash.asHex.toLower = hash.asHex := Hex.toLower_encode _
  rw [mem_of_mapM_eq_ok h]
  simp only [unwrapOr_eq_ok, toOption_eq_some, EqIgnoreAsciiCase, hlower]
  constructor
  · rintro ⟨s, hs, hdec⟩
    exact ⟨s, hs, (Hash32.tryFromHex_eq_ok_iff.1 hdec).2.2.symm⟩
  · rintro ⟨s, hs, htext⟩
    refine ⟨s, hs, ?_⟩
    -- `s` converts to some hash, and its text leaves no choice which
    rcases exists_mapM_eq_ok.1 ⟨hashes, h⟩ s hs with ⟨hash', hdec⟩
    simp only [unwrapOr_eq_ok, toOption_eq_some] at hdec
    rcases Hash32.tryFromHex_eq_ok_iff.1 hdec with ⟨hlen, hcs, -⟩
    exact Hash32.tryFromHex_eq_ok_iff.2 ⟨hlen, hcs, htext.symm⟩

/-- A stored string converts exactly if it is 64 hexadecimal characters, and then the
hash is written as this string in lower case; anything else is refused for its
characters or its length. On a list that converts, the launcher check accepts
exactly a configuration whose docker compose file hashes to a stored string, up to
case. -/
theorem allowlist_entry_meaning (deps : Externals) (marker : Type) :
    (∀ hash : Hash32 marker, Hash32.tryFromHex hash.asHex = .ok hash) ∧
      (∀ s, (∃ hash : Hash32 marker, Hash32.tryFromHex s = .ok hash) ↔
        s.length = 64 ∧ ∀ c ∈ s.toList, Hex.IsHexDigit c) ∧
      (∀ s (hash : Hash32 marker), Hash32.tryFromHex s = .ok hash → hash.asHex = s.toLower) ∧
      (∀ s, (∃ source, (Hash32.tryFromHex s : Except HexToHashError (Hash32 marker)) =
          .error (.invalidHex source)) ↔
        s.length % 2 = 1 ∨ ∃ c ∈ s.toList, ¬ Hex.IsHexDigit c) ∧
      (∀ s, (∃ n, (Hash32.tryFromHex s : Except HexToHashError (Hash32 marker)) =
          .error (.invalidLength n)) ↔
        ¬ (s.length % 2 = 1 ∨ ∃ c ∈ s.toList, ¬ Hex.IsHexDigit c) ∧ s.length ≠ 64) ∧
      (∀ c : Contract,
        allowedDockerComposeHashes c = decodeStored c.kmsAllowedComposeHashes.elements) ∧
      ∀ stored hashes tcbInfo, decodeStored stored = .ok hashes →
        (Attestation.verifyLauncherComposeHash deps tcbInfo hashes = true ↔
          ∃ appCompose, deps.appComposeFromStr tcbInfo.appCompose = some appCompose ∧
            ∃ s ∈ stored, EqIgnoreAsciiCase s
              (Hex.encode (deps.sha256 (Utf8.asBytes appCompose.dockerComposeFile)).toList)) := by
  have hwf : ∀ s : String, ¬ Hex.WellFormed s ↔
      s.length % 2 = 1 ∨ ∃ c ∈ s.toList, ¬ Hex.IsHexDigit c := by
    intro s
    unfold Hex.WellFormed
    have hodd : ¬ s.length % 2 = 0 ↔ s.length % 2 = 1 := by omega
    rw [not_and_or, hodd, not_forall, or_comm]
    simp only [Classical.not_imp]
  refine ⟨Hash32.tryFromHex_asHex, fun s => Hash32.tryFromHex_isOk_iff, ?_, ?_, ?_,
    fun c => rfl, ?_⟩
  · intro s hash h
    exact (Hash32.tryFromHex_eq_ok_iff.1 h).2.2
  · intro s
    rw [Hash32.tryFromHex_invalidHex_iff, hwf]
  · intro s
    rw [← hwf, not_not]
    simp only [Hash32.tryFromHex_invalidLength_iff]
    constructor
    · rintro ⟨n, hs, hlen, hn⟩
      exact ⟨hs, by omega⟩
    · rintro ⟨hs, hne⟩
      have heven := hs.2
      exact ⟨s.length / 2, hs, by omega, by omega⟩
  · intro stored hashes tcbInfo h
    rw [Attestation.verifyLauncherComposeHash_iff]
    constructor
    · rintro ⟨appCompose, hparse, hash, hmem, hbytes⟩
      refine ⟨appCompose, hparse, ?_⟩
      rw [← hbytes]
      exact (mem_decodeStored h hash).1 hmem
    · rintro ⟨appCompose, hparse, hs⟩
      exact ⟨appCompose, hparse, ⟨deps.sha256 (Utf8.asBytes appCompose.dockerComposeFile)⟩,
        (mem_decodeStored h _).2 hs, rfl⟩

/-- A hash in capital letters on the list admits the worker it stands for. -/
theorem allowlist_entry_upper :
    ∃ hashes, decodeStored [kmsDockerHashUpper] = .ok hashes ∧
      Attestation.verifyLauncherComposeHash (externalsFor kmsWorker) (kmsWorker.tcbInfo hashing)
        hashes = true := by
  have hconvert : ∃ hashes, decodeStored [kmsDockerHashUpper] = .ok hashes := by
    apply exists_mapM_eq_ok.2
    simp only [List.forall_mem_singleton, unwrapOr_eq_ok, toOption_eq_some]
    exact decodable_kmsDockerHashUpper
  rcases hconvert with ⟨hashes, hhashes⟩
  rcases allowlist_entry_meaning (externalsFor kmsWorker) Compose with ⟨-, -, -, -, -, -, hlist⟩
  refine ⟨hashes, hhashes, (hlist _ _ _ hhashes).2 ⟨_, parse_kmsAppCompose, _,
    List.mem_singleton.2 rfl, ?_⟩⟩
  have htext := (Hex.decode_eq_ok_iff.1 decode_kmsDockerHashUpper).2
  exact htext.symm.trans (Hex.toLower_encode _).symm

end NearKms.Kms
