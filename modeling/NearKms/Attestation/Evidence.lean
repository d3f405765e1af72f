import NearKms.Attestation.Hash

/-!
# What an attestation consists of

The data a worker submits (quote, collateral, TCB info), the report a verified
quote contains, the measurements the contract was built for, and the functions
of other crates that the verifier calls (`Externals`): the hashes, the quote
verifier and the JSON parsers. Everything about the verifier is proved for all
of these functions.
-/

namespace NearKms

/-- An array of `n` bytes. -/
abbrev ByteArr (n : Nat) := Vector UInt8 n

/-! ## Submitted data -/

/-- The raw quote (`attestation/quote.rs`). -/
structure QuoteBytes where
  bytes : Bytes

/-- An entry of the event log: the register it was measured into, its type, the
digest that was extended, its name and its payload. -/
structure EventLog where
  imr : UInt32
  eventType : UInt32
  digest : String
  event : String
  eventPayload : String
deriving DecidableEq, Repr

/-- The TCB info of a worker. Nothing of it is signed: what the verifier
does not tie to the quote is the worker's own claim. -/
structure TcbInfo where
  mrtd : String
  rtmr0 : String
  rtmr1 : String
  rtmr2 : String
  rtmr3 : String
  mrAggregated : String
  osImageHash : String
  composeHash : String
  deviceId : String
  appCompose : String
  eventLog : List EventLog
deriving DecidableEq, Repr

/-- The fields of `app_compose` the verifier looks at (`attestation/app_compose.rs`). -/
structure AppCompose where
  manifestVersion : UInt32
  runner : String
  dockerComposeFile : String
  kmsEnabled : Bool
  publicLogs : Bool
  publicSysinfo : Bool
  secureTime : Option Bool
deriving DecidableEq, Repr

/-- Intel's signed data about the platform (`QuoteCollateralV3`). -/
structure Collateral where
  tcbInfoIssuerChain : String
  tcbInfo : String
  tcbInfoSignature : Bytes
  qeIdentityIssuerChain : String
  qeIdentity : String
  qeIdentitySignature : Bytes
  pckCrlIssuerChain : String
  rootCaCrl : Bytes
  pckCrl : Bytes
  pckCertificateChain : Option String
deriving DecidableEq, Repr

/-- Quote, collateral and TCB info of one worker. -/
structure DstackAttestation where
  quote : QuoteBytes
  collateral : Collateral
  tcbInfo : TcbInfo

/-- A local attestation carries its verdict (for testing). -/
structure LocalAttestation where
  verificationResult : Bool

inductive Attestation where
  | dstack (attestation : DstackAttestation)
  | local (config : LocalAttestation)

/-! ## Verified reports -/

/-- The measurement registers and the report data of a TD. -/
structure TDReport10 where
  mrTd : ByteArr 48
  rtMr0 : ByteArr 48
  rtMr1 : ByteArr 48
  rtMr2 : ByteArr 48
  rtMr3 : ByteArr 48
  reportData : ByteArr 64
deriving DecidableEq

/-- The outcome of a successful quote verification; `asTd10` is the TD report
when the quote is of a TD. -/
structure VerifiedReport where
  status : String
  advisoryIds : List String
  asTd10 : Option TDReport10

/-- The functions of other crates the contract calls. -/
structure Externals where
  sha256 : Bytes → ByteArr 32
  sha384 : Bytes → ByteArr 48
  sha3_384 : Bytes → ByteArr 48
  /-- `dcap_qvl::verify::verify` at a time in seconds; `none` is an error. -/
  dcapVerify : QuoteBytes → Collateral → Nat → Option VerifiedReport
  /-- `serde_json::from_str` into `AppCompose`, `TcbInfo` and `Value`. -/
  appComposeFromStr : String → Option AppCompose
  tcbInfoFromStr : String → Option TcbInfo
  valueFromStr : String → Option Json
  /-- The grammar of account names, and the debug text of the error on any other. -/
  accountIdOk : String → Bool
  accountIdError : String → String

/-- `AccountId::from_str`: a name of the grammar, kept as it is. -/
def Externals.parseAccountId (deps : Externals) (s : String) : Option AccountId :=
  if deps.accountIdOk s then some ⟨s⟩ else none

theorem Externals.asStr_of_parseAccountId {deps : Externals} {s : String} {account : AccountId}
    (h : deps.parseAccountId s = some account) : account.asStr = s := by
  unfold Externals.parseAccountId at h
  split at h
  · exact (congrArg AccountId.asStr (Option.some.inj h)).symm
  · cases h

/-! ## Expected measurements (`attestation/measurements.rs`) -/

inductive MeasurementsError where
  | invalidHexValue
  | invalidLength
deriving DecidableEq, Repr

/-- The static measurement registers of the image the contract trusts. -/
structure Measurements where
  mrtd : ByteArr 48
  rtmr0 : ByteArr 48
  rtmr1 : ByteArr 48
  rtmr2 : ByteArr 48
deriving DecidableEq

/-- `decode_rtmr`: 48 bytes from hexadecimal text. -/
def decodeRtmr (hexValue : String) : Except MeasurementsError (ByteArr 48) :=
  match Hex.decode hexValue with
  | .error _ => .error .invalidHexValue
  | .ok decoded =>
      if h : decoded.length = 48 then .ok ⟨decoded.toArray, by simpa using h⟩
      else .error .invalidLength

/-- The registers in the embedded `assets/tcb_info.json`. -/
def embeddedMrtd : String :=
  "f06dfda6dce1cf904d4e2bab1dc370634cf95cefa2ceb2de2eee127c9382698090d7a4a13e14c536ec6c9c3c8fa87077"

def embeddedRtmr0 : String :=
  "68102e7b524af310f7b7d426ce75481e36c40f5d513a9009c046e9d37e31551f0134d954b496a3357fd61d03f07ffe96"

def embeddedRtmr1 : String :=
  "19d16ecd33220ee15965b4fb28a0661e85ec4cad0a20d920bf4028f58ad014b262af3c9b0530f283e7d032e7bdca6308"

def embeddedRtmr2 : String :=
  "05ac95f479e23db627217ce58b2587483c9ee4f374a7d8ebee3b812b8cfd8fd8fca04696369c33bd5279590d83e713c0"

/-- The measurements every quote is compared with. -/
def fromEmbeddedTcbInfo : Except MeasurementsError Measurements := do
  let rtmr0 ← decodeRtmr embeddedRtmr0
  let rtmr1 ← decodeRtmr embeddedRtmr1
  let rtmr2 ← decodeRtmr embeddedRtmr2
  let mrtd ← decodeRtmr embeddedMrtd
  pure { mrtd, rtmr0, rtmr1, rtmr2 }

end NearKms
