import Mathlib.Logic.Function.Basic
import NearKms.JsonText

/-!
# The mock MPC contract (`mock-mpc/src/lib.rs`)

The contract that answers root key requests on a test network. It answers every
request with the same two points, and keeps the answer under the path and the domain
that were asked for.
-/

namespace NearKms.Mpc

/-! ## Data -/

structure CkdRequestArgs where
  derivationPath : String
  appPublicKey : String
  domainId : UInt64
deriving DecidableEq

structure CkdResponse where
  bigY : String
  bigC : String
deriving DecidableEq

structure Contract where
  pendingResponses : String → Option CkdResponse

/-- A `u64`, or a newtype around one. -/
def asU64 (v : Json) : Option UInt64 := (v.asNatural UInt64.size).map UInt64.ofNat

def CkdRequestArgs.ofJson (v : Json) : Option CkdRequestArgs := do
  let derivationPath ← (v.get "derivation_path").bind Json.asStr
  let appPublicKey ← (v.get "app_public_key").bind Json.asStr
  let domainId ← (v.get "domain_id").bind asU64
  pure { derivationPath, appPublicKey, domainId }

/-- The argument of a request as the contract reads it from its input. -/
def requestOfInput (input : Json) : Option CkdRequestArgs :=
  (input.get "request").bind CkdRequestArgs.ofJson

/-! ## Methods -/

structure Outcome where
  contract : Contract
  response : Option CkdResponse

def new (ctx : Context) (s : Option Contract) : Except Panic Outcome := do
  assertPrivate ctx
  assertNoDeposit ctx
  assertUninitialized s
  pure { contract := { pendingResponses := fun _ => none }, response := none }

def mockResponse : CkdResponse where
  bigY := "a1b2c3d4e5f6789012345678901234567890abcdef1234567890abcdef" ++
    "1234567890abcdef1234567890abcdef123456"
  bigC := "f1e2d3c4b5a6789012345678901234567890abcdef1234567890abcdef" ++
    "1234567890abcdef1234567890abcdef123456"

/-- `format!("{}_{}", derivation_path, domain_id)`. -/
def requestKey (request : CkdRequestArgs) : String :=
  request.derivationPath ++ "_" ++ toString request.domainId.toNat

/-- `LookupMap::insert`. -/
def Contract.insert (c : Contract) (key : String) (response : CkdResponse) : Contract where
  pendingResponses := Function.update c.pendingResponses key (some response)

def requestAppPrivateKey (ctx : Context) (s : Option Contract) (request : CkdRequestArgs) :
    Except Panic Outcome := do
  let c ← readContract s
  assertOneYocto ctx
  let response := mockResponse
  pure { contract := c.insert (requestKey request) response, response := some response }

/-- The stored answer, or the one a request would get. -/
def Contract.getMockCkdResponse (c : Contract) (request : CkdRequestArgs) : CkdResponse :=
  match c.pendingResponses (requestKey request) with
  | some response => response
  | none => mockResponse

end NearKms.Mpc
