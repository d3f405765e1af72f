import NearKms.Attestation.Evidence

/-!
# Reading collateral (`attestation/collateral.rs`)

Collateral arrives as a JSON object of ten members: five texts, four byte strings
in hexadecimal, and an optional certificate chain.
-/

namespace NearKms

inductive CollateralError where
  | missingField (field : String)
  | hexDecode (field : String) (source : Hex.FromHexError)
  | invalidJson
deriving DecidableEq, Repr

namespace Collateral

/-- A member that has to be a string. -/
def getStr (v : Json) (key : String) : Except CollateralError String :=
  match (v.get key).bind Json.asStr with
  | some s => .ok s
  | none => .error (.missingField key)

/-- A member that has to be a hexadecimal string. -/
def getHex (v : Json) (key : String) : Except CollateralError Bytes := do
  let hexStr ← getStr v key
  match Hex.decode hexStr with
  | .ok bytes => .ok bytes
  | .error source => .error (.hexDecode key source)

def tryFromJson (v : Json) : Except CollateralError Collateral := do
  let pckCertificateChain := ((v.get "pck_certificate_chain").bind Json.asStr).filter (· ≠ "")
  let tcbInfoIssuerChain ← getStr v "tcb_info_issuer_chain"
  let tcbInfo ← getStr v "tcb_info"
  let tcbInfoSignature ← getHex v "tcb_info_signature"
  let qeIdentityIssuerChain ← getStr v "qe_identity_issuer_chain"
  let qeIdentity ← getStr v "qe_identity"
  let qeIdentitySignature ← getHex v "qe_identity_signature"
  let pckCrlIssuerChain ← getStr v "pck_crl_issuer_chain"
  let rootCaCrl ← getHex v "root_ca_crl"
  let pckCrl ← getHex v "pck_crl"
  pure { tcbInfoIssuerChain, tcbInfo, tcbInfoSignature, qeIdentityIssuerChain, qeIdentity,
         qeIdentitySignature, pckCrlIssuerChain, rootCaCrl, pckCrl, pckCertificateChain }

def fromStr (deps : Externals) (s : String) : Except CollateralError Collateral :=
  match deps.valueFromStr s with
  | none => .error .invalidJson
  | some jsonValue => tryFromJson jsonValue

end Collateral

end NearKms
