import NearKms.Lib.Digest
import NearKms.Attestation.Evidence

/-!
# Externals to run the contract with

The published hash functions, the account name grammar, and a quote verifier
that reads the TD report out of a quote and vouches for it: on a quote with a
valid signature chain and a current platform this is what verification returns.
The JSON parsers are tables of texts and what they parse to. Concrete runs use
these externals; no general result depends on them.
-/

namespace NearKms

/-! ## Quotes -/

/-- Splits off the first `n` bytes. -/
def takeArr (n : Nat) (bytes : Bytes) : Option (ByteArr n × Bytes) :=
  if h : n ≤ bytes.length then
    some (⟨(bytes.take n).toArray, by simpa using Nat.min_eq_left h⟩, bytes.drop n)
  else none

theorem takeArr_append {n : Nat} (value : ByteArr n) (rest : Bytes) :
    takeArr n (value.toList ++ rest) = some (value, rest) := by
  have hlen : n ≤ (value.toList ++ rest).length := by simp
  have hvalue : (value.toList ++ rest).take n = value.toList :=
    List.take_left' Vector.length_toList
  have hrest : (value.toList ++ rest).drop n = rest := List.drop_left' Vector.length_toList
  rw [takeArr, dif_pos hlen]
  congr 2
  apply Vector.toList_inj.1
  exact hvalue

/-- What a quote holds before the MRTD register: the header, and the fields of
the TD report up to that register. -/
def quotePrefixSize : Nat := 48 + 136

/-- The fields between the MRTD register and the runtime registers. -/
def configFieldsSize : Nat := 144

/-- The TD report inside a quote. -/
def tdReport (quote : Bytes) : Option TDReport10 := do
  let (mrTd, rest) ← takeArr 48 (quote.drop quotePrefixSize)
  let (rtMr0, rest) ← takeArr 48 (rest.drop configFieldsSize)
  let (rtMr1, rest) ← takeArr 48 rest
  let (rtMr2, rest) ← takeArr 48 rest
  let (rtMr3, rest) ← takeArr 48 rest
  let (reportData, _) ← takeArr 64 rest
  pure { mrTd, rtMr0, rtMr1, rtMr2, rtMr3, reportData }

/-- A quote around a TD report, with every other field zero. -/
def quoteOf (r : TDReport10) : QuoteBytes :=
  ⟨List.replicate quotePrefixSize 0 ++ (r.mrTd.toList ++ (List.replicate configFieldsSize 0 ++
    (r.rtMr0.toList ++ (r.rtMr1.toList ++ (r.rtMr2.toList ++ (r.rtMr3.toList ++
      (r.reportData.toList ++ [])))))))⟩

theorem drop_replicate_append {n : Nat} (rest : Bytes) :
    (List.replicate n 0 ++ rest).drop n = rest := List.drop_left' List.length_replicate

/-- The report of a quote is the report it was built around. -/
theorem tdReport_quoteOf (r : TDReport10) : tdReport (quoteOf r).bytes = some r := by
  simp only [tdReport, quoteOf, drop_replicate_append, takeArr_append, Option.bind_eq_bind,
    Option.bind_some, pure]

/-! ## Account names -/

/-- Letters and digits of account names. -/
def isAccountLetter (c : Char) : Bool := c.isDigit || (97 ≤ c.toNat && c.toNat ≤ 122)

/-- No separator at either end and no two in a row; `afterLetter` says whether a
separator may stand here. -/
def separatorsOk : Bool → List Char → Bool
  | afterLetter, [] => afterLetter
  | afterLetter, c :: cs =>
      if isAccountLetter c then separatorsOk true cs
      else (c == '-' || c == '_' || c == '.') && afterLetter && separatorsOk false cs

def accountNameOk (s : String) : Bool :=
  2 ≤ s.length && s.length ≤ 64 && separatorsOk false s.toList

/-- The debug text of a `ParseAccountError`. -/
def accountErrorText (kind : String) (char : Option (Nat × Char)) : String :=
  let quote := String.ofList [Char.ofNat 39]
  let place :=
    match char with
    | none => "None"
    | some (i, c) => "Some((" ++ toString i ++ ", " ++ quote ++ String.ofList [c] ++ quote ++ "))"
  "ParseAccountError \x7b kind: " ++ kind ++ ", char: " ++ place ++ " \x7d"

/-- The first character that may not stand where it does. -/
def separatorsError : Nat → Bool → Option (Nat × Char) → List Char → String
  | _, afterSeparator, last, [] =>
      if afterSeparator then accountErrorText "RedundantSeparator" last else ""
  | i, afterSeparator, _, c :: cs =>
      if isAccountLetter c then separatorsError (i + 1) false (some (i, c)) cs
      else if ¬ (c == '-' || c == '_' || c == '.') then accountErrorText "InvalidChar" (some (i, c))
      else if afterSeparator then accountErrorText "RedundantSeparator" (some (i, c))
      else separatorsError (i + 1) true (some (i, c)) cs

def accountNameError (s : String) : String :=
  if s.utf8ByteSize < 2 then accountErrorText "TooShort" none
  else if 64 < s.utf8ByteSize then accountErrorText "TooLong" none
  else separatorsError 0 true none s.toList

/-! ## Texts -/

/-- A JSON string literal. -/
def jsonString (s : String) : String :=
  let escaped := s.toList.flatMap fun c =>
    if c.toNat = 34 ∨ c.toNat = 92 then [Char.ofNat 92, c] else [c]
  "\"" ++ String.ofList escaped ++ "\""

/-- A JSON object from keys and rendered values. -/
def jsonObject (members : List (String × String)) : String :=
  "\x7b" ++ String.intercalate "," (members.map fun m => jsonString m.1 ++ ":" ++ m.2) ++ "\x7d"

def eventText (e : EventLog) : String :=
  jsonObject [("imr", toString e.imr), ("event_type", toString e.eventType),
    ("digest", jsonString e.digest), ("event", jsonString e.event),
    ("event_payload", jsonString e.eventPayload)]

/-- TCB info as a worker submits it. -/
def tcbInfoText (t : TcbInfo) : String :=
  jsonObject [("mrtd", jsonString t.mrtd), ("rtmr0", jsonString t.rtmr0),
    ("rtmr1", jsonString t.rtmr1), ("rtmr2", jsonString t.rtmr2), ("rtmr3", jsonString t.rtmr3),
    ("mr_aggregated", jsonString t.mrAggregated), ("os_image_hash", jsonString t.osImageHash),
    ("compose_hash", jsonString t.composeHash), ("device_id", jsonString t.deviceId),
    ("app_compose", jsonString t.appCompose),
    ("event_log", "[" ++ String.intercalate "," (t.eventLog.map eventText) ++ "]")]

/-- The configuration of a worker, as dstack writes it. -/
def appComposeText (name dockerComposeFile : String) : String :=
  jsonObject [("manifest_version", "2"), ("name", jsonString name),
    ("runner", jsonString "docker-compose"),
    ("docker_compose_file", jsonString dockerComposeFile), ("kms_enabled", "true"),
    ("public_logs", "true"), ("public_sysinfo", "true"), ("local_key_provider_enabled", "false"),
    ("allowed_envs", "[]"), ("no_instance_id", "false")]

/-- What that text parses to. -/
def appComposeOf (dockerComposeFile : String) : AppCompose where
  manifestVersion := 2
  runner := "docker-compose"
  dockerComposeFile := dockerComposeFile
  kmsEnabled := true
  publicLogs := true
  publicSysinfo := true
  secureTime := none

/-- The members collateral has to have. -/
def collateralKeys : List String :=
  ["tcb_info_issuer_chain", "tcb_info", "tcb_info_signature", "qe_identity_issuer_chain",
    "qe_identity", "qe_identity_signature", "pck_crl_issuer_chain", "root_ca_crl", "pck_crl"]

/-- Collateral whose members are all empty. -/
def collateralText : String := jsonObject (collateralKeys.map fun key => (key, jsonString ""))

/-- What that text parses to. -/
def collateralValue : Json := .object (collateralKeys.map fun key => (key, .string ""))

def sampleCollateral : Collateral where
  tcbInfoIssuerChain := ""
  tcbInfo := ""
  tcbInfoSignature := []
  qeIdentityIssuerChain := ""
  qeIdentity := ""
  qeIdentitySignature := []
  pckCrlIssuerChain := ""
  rootCaCrl := []
  pckCrl := []
  pckCertificateChain := none

/-! ## The externals -/

/-- Externals with the given parse tables. -/
def referenceExternals (appComposes : List (String × AppCompose))
    (tcbInfos : List (String × TcbInfo)) (values : List (String × Json)) : Externals where
  sha256 := Digest.sha256
  sha384 := Digest.sha384
  sha3_384 := Digest.sha3_384
  dcapVerify := fun quote _ _ => (tdReport quote.bytes).map fun r =>
    { status := "UpToDate", advisoryIds := [], asTd10 := some r }
  appComposeFromStr := fun s => appComposes.lookup s
  tcbInfoFromStr := fun s => tcbInfos.lookup s
  valueFromStr := fun s => values.lookup s
  accountIdOk := accountNameOk
  accountIdError := accountNameError

/-! ## A signer and two configurations

The hashes of both start with the byte of a colon, so that a compose entry with
either hash can also be read as an entry named `compose-hash:` whose payload is
one byte shorter. -/

def sampleSigner : PublicKey := PublicKey.ofBody .ed25519 (List.replicate 32 7) rfl

def kmsDockerCompose : String := "image: kms"

def rogueDockerCompose : String := "image: evil"

def kmsAppCompose : String := appComposeText "kms225" kmsDockerCompose

def rogueAppCompose : String := appComposeText "kms240" rogueDockerCompose

/-- What `kmsAppCompose` hashes to, after the leading byte. -/
def kmsHashTail : Bytes :=
  [0x92, 0xda, 0x93, 0x18, 0xf3, 0x23, 0xf5, 0xf9, 0x9b, 0x02, 0xaf, 0x75, 0x41, 0x31, 0x62, 0xda,
    0x5f, 0x53, 0x67, 0x65, 0x79, 0x20, 0x96, 0xc2, 0x03, 0x28, 0xbb, 0x78, 0xf4, 0xa6, 0xb2]

/-- What `rogueAppCompose` hashes to, after the leading byte. -/
def rogueHashTail : Bytes :=
  [0x9d, 0xf2, 0xc5, 0x7f, 0xad, 0x25, 0x3a, 0xb2, 0xf7, 0x8b, 0x68, 0xf8, 0xe1, 0xbe, 0xb9, 0x11,
    0x03, 0x9b, 0xef, 0xbd, 0x12, 0x0d, 0x50, 0x93, 0xf5, 0xf0, 0xeb, 0xa8, 0xa4, 0x19, 0x85]

theorem sha256_kmsAppCompose :
    (Digest.sha256 (Utf8.asBytes kmsAppCompose)).toList = 58 :: kmsHashTail := by
  decide +kernel

theorem sha256_rogueAppCompose :
    (Digest.sha256 (Utf8.asBytes rogueAppCompose)).toList = 58 :: rogueHashTail := by
  decide +kernel

/-- Externals that parse the two configurations. -/
def sampleExternals (tcbInfos : List (String × TcbInfo)) (values : List (String × Json)) :
    Externals :=
  referenceExternals
    [(kmsAppCompose, appComposeOf kmsDockerCompose),
      (rogueAppCompose, appComposeOf rogueDockerCompose)]
    tcbInfos values

theorem parse_kmsAppCompose {tcbInfos : List (String × TcbInfo)} {values : List (String × Json)} :
    (sampleExternals tcbInfos values).appComposeFromStr kmsAppCompose =
      some (appComposeOf kmsDockerCompose) := by
  simp [sampleExternals, referenceExternals]

theorem parse_rogueAppCompose {tcbInfos : List (String × TcbInfo)}
    {values : List (String × Json)} :
    (sampleExternals tcbInfos values).appComposeFromStr rogueAppCompose =
      some (appComposeOf rogueDockerCompose) := by
  have hne : rogueAppCompose ≠ kmsAppCompose := by decide +kernel
  have hkey : (rogueAppCompose == kmsAppCompose) = false := beq_false_of_ne hne
  simp [sampleExternals, referenceExternals, List.lookup_cons, hkey]

end NearKms
