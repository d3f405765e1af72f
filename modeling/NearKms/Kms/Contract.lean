import Mathlib.Algebra.Group.Nat.Defs
import NearKms.Attestation.Collateral
import NearKms.Attestation.Verify

/-!
# The KMS contract (`kms/src/lib.rs`, `kms/src/app.rs`)

Every method of the contract as a function of the call context, the state and
the arguments. A method that succeeds returns the next state, the events it
emitted and the promise it returned; a method that panics leaves no trace.
-/

namespace NearKms.Kms

/-! ## Data -/

inductive Role where
  | owner
  | dao
  | pauseManager
  | unpauseManager
deriving DecidableEq, Repr

structure KmsInfo where
  k256Pubkey : Bytes
  caPubkey : Bytes
  quote : Bytes
  eventlog : Bytes
deriving DecidableEq

structure Contract where
  mpcContractId : AccountId
  mpcDomainId : UInt64
  kmsAllowedComposeHashes : IterableSet String
  registeredApps : IterableSet AccountId
  gatewayAppId : Option String
  kmsInfo : Option KmsInfo
  allowedOsImages : IterableSet String
  kmsAllowedAggregatedMrs : IterableSet String
  kmsAllowedDeviceIds : IterableSet String
deriving DecidableEq

/-- The account's storage: the contract once it is initialized, and what the
plugins keep. -/
structure State where
  contract : Option Contract
  plugins : Plugins Role

/-- The account before its contract is initialized. -/
def State.deployed : State := ⟨none, ⟨⟨[], []⟩, []⟩⟩

inductive Event where
  | appDeployed (appId : AccountId)
  | composeHashApproved (composeHash : String)
  | composeHashRemoved (composeHash : String)
  | gatewayAppIdSet (appId : String)
  | kmsInfoSet (k256Pubkey : Bytes)
  | osImageHashAdded (osImageHash : String)
  | osImageHashRemoved (osImageHash : String)
  | kmsAggregatedMrAdded (mrAggregated : String)
  | kmsAggregatedMrRemoved (mrAggregated : String)
  | kmsDeviceAdded (deviceId : String)
  | kmsDeviceRemoved (deviceId : String)
deriving DecidableEq

/-! ## Promises -/

abbrev tgas : Nat := 10 ^ 12

def gasMpcCkdRequest : Nat := 100 * tgas

def gasDeployApp : Nat := 50 * tgas

def gasDeployAppCallback : Nat := 10 * tgas

def kmsRootKeyDerivationPath : String := "kms-root-key"

structure CkdRequestArgs where
  derivationPath : String
  appPublicKey : String
  domainId : UInt64
deriving DecidableEq

/-- Create an account, transfer to it, deploy the app contract on it and call
`method` there; then call `on_app_contract_deployed` back with `callbackArg`. -/
structure Deployment where
  account : AccountId
  transfer : Nat
  method : String
  args : Json
  attachedDeposit : Nat
  gas : Nat
  callbackArg : AccountId
  callbackGas : Nat

/-- What a method hands to the chain. -/
inductive Promise where
  | requestAppPrivateKey (mpcContract : AccountId) (request : CkdRequestArgs) (deposit gas : Nat)
  | deployApp (deployment : Deployment)

structure Outcome where
  state : State
  events : List Event
  promise : Option Promise

/-! ## Initialization -/

def Contract.new (mpcContractId : AccountId) (mpcDomainId : UInt64) : Contract where
  mpcContractId := mpcContractId
  mpcDomainId := mpcDomainId
  kmsAllowedComposeHashes := .new
  registeredApps := .new
  gatewayAppId := none
  kmsInfo := none
  allowedOsImages := .new
  kmsAllowedAggregatedMrs := .new
  kmsAllowedDeviceIds := .new

/-- `new`; the owner becomes super admin and is granted `Owner`. -/
def new (ctx : Context) (s : State) (ownerId mpcContractId : AccountId) (mpcDomainId : UInt64) :
    Except Panic Outcome := do
  assertPrivate ctx
  assertNoDeposit ctx
  assertUninitialized s.contract
  let acl := { superAdmins := s.plugins.acl.superAdmins ++ [ownerId]
               grantees := s.plugins.acl.grantees ++ [(Role.owner, ownerId)] }
  pure { state := ⟨some (Contract.new mpcContractId mpcDomainId), { s.plugins with acl }⟩
         events := []
         promise := none }

/-! ## The root key -/

section RootKey

variable (deps : Externals)

/-- The stored compose hashes as bytes; one entry that is not a hash panics. -/
def allowedDockerComposeHashes (c : Contract) : Except Panic (List DockerComposeHash) :=
  c.kmsAllowedComposeHashes.elements.mapM fun hash =>
    unwrapOr (Hash32.tryFromHex hash).toOption "Invalid compose hash"

def requestKmsRootKey (ctx : Context) (s : State)
    (quoteHex collateral tcbInfo workerPublicKey : String) : Except Panic Outcome := do
  let c ← readContract s.contract
  assertNotPaused "request_kms_root_key" s.plugins
  assertOneYocto ctx
  let quoteBytes ← unwrapOr (Hex.decode quoteHex).toOption "Invalid quote hex"
  let collateralData ← unwrapOr (Collateral.fromStr deps collateral).toOption
    "Invalid collateral format"
  let tcbInfoData ← unwrapOr (deps.tcbInfoFromStr tcbInfo) "Invalid TCB info format"
  let attestation := Attestation.dstack ⟨⟨quoteBytes⟩, collateralData, tcbInfoData⟩
  -- the key that signed the transaction, whoever makes this call
  let publicKey := ctx.signerAccountPk
  let expectedReportData := ReportData.new publicKey
  let timestampS := ctx.blockTimestampMs / 1000
  -- the contract keeps no list of images
  let allowedDockerImageHashes : List DockerImageHash := []
  let composeHashes ← allowedDockerComposeHashes c
  require
    (attestation.verify deps expectedReportData timestampS allowedDockerImageHashes composeHashes
      = true)
    "Attestation verification failed"
  let request :=
    { derivationPath := kmsRootKeyDerivationPath
      appPublicKey := workerPublicKey
      domainId := c.mpcDomainId }
  pure { state := s
         events := []
         promise := some (.requestAppPrivateKey c.mpcContractId request 1 gasMpcCkdRequest) }

end RootKey

/-! ## Methods of the owner -/

/-- What all setters share: no deposit, the caller holds `Owner`, and the body
only changes the contract and emits events. -/
def ownerMethod (ctx : Context) (s : State)
    (body : Contract → Except Panic (Contract × List Event)) : Except Panic Outcome := do
  assertNoDeposit ctx
  let c ← readContract s.contract
  accessControlAny [Role.owner] ctx s.plugins
  let (c', events) ← body c
  pure { state := { s with contract := some c' }, events, promise := none }

def addKmsComposeHash (ctx : Context) (s : State) (composeHash : String) :
    Except Panic Outcome :=
  ownerMethod ctx s fun c =>
    pure ({ c with kmsAllowedComposeHashes := c.kmsAllowedComposeHashes.insert composeHash },
      [.composeHashApproved composeHash])

def removeKmsComposeHash (ctx : Context) (s : State) (composeHash : String) :
    Except Panic Outcome :=
  ownerMethod ctx s fun c =>
    pure ({ c with kmsAllowedComposeHashes := c.kmsAllowedComposeHashes.remove composeHash },
      [.composeHashRemoved composeHash])

def setGatewayAppId (ctx : Context) (s : State) (appId : String) : Except Panic Outcome :=
  ownerMethod ctx s fun c =>
    pure ({ c with gatewayAppId := some appId }, [.gatewayAppIdSet appId])

def setKmsInfo (ctx : Context) (s : State) (info : KmsInfo) : Except Panic Outcome :=
  ownerMethod ctx s fun c =>
    pure ({ c with kmsInfo := some info }, [.kmsInfoSet info.k256Pubkey])

/-- The stored info with another quote; the keys are empty until they are set. -/
def withQuote (quote : Bytes) : Option KmsInfo → KmsInfo
  | some info => { info with quote }
  | none => { k256Pubkey := [], caPubkey := [], quote, eventlog := [] }

def withEventlog (eventlog : Bytes) : Option KmsInfo → KmsInfo
  | some info => { info with eventlog }
  | none => { k256Pubkey := [], caPubkey := [], quote := [], eventlog }

def setKmsQuote (ctx : Context) (s : State) (quote : Bytes) : Except Panic Outcome :=
  ownerMethod ctx s fun c => pure ({ c with kmsInfo := some (withQuote quote c.kmsInfo) }, [])

def setKmsEventlog (ctx : Context) (s : State) (eventlog : Bytes) : Except Panic Outcome :=
  ownerMethod ctx s fun c =>
    pure ({ c with kmsInfo := some (withEventlog eventlog c.kmsInfo) }, [])

def addOsImageHash (ctx : Context) (s : State) (osImageHash : String) : Except Panic Outcome :=
  ownerMethod ctx s fun c => do
    require (osImageHash ≠ "") "OS image hash cannot be empty"
    pure ({ c with allowedOsImages := c.allowedOsImages.insert osImageHash },
      [.osImageHashAdded osImageHash])

def removeOsImageHash (ctx : Context) (s : State) (osImageHash : String) :
    Except Panic Outcome :=
  ownerMethod ctx s fun c =>
    pure ({ c with allowedOsImages := c.allowedOsImages.remove osImageHash },
      [.osImageHashRemoved osImageHash])

def addKmsAggregatedMr (ctx : Context) (s : State) (mrAggregated : String) :
    Except Panic Outcome :=
  ownerMethod ctx s fun c => do
    require (mrAggregated ≠ "") "Aggregated MR cannot be empty"
    pure ({ c with kmsAllowedAggregatedMrs := c.kmsAllowedAggregatedMrs.insert mrAggregated },
      [.kmsAggregatedMrAdded mrAggregated])

def removeKmsAggregatedMr (ctx : Context) (s : State) (mrAggregated : String) :
    Except Panic Outcome :=
  ownerMethod ctx s fun c =>
    pure ({ c with kmsAllowedAggregatedMrs := c.kmsAllowedAggregatedMrs.remove mrAggregated },
      [.kmsAggregatedMrRemoved mrAggregated])

def addKmsDevice (ctx : Context) (s : State) (deviceId : String) : Except Panic Outcome :=
  ownerMethod ctx s fun c => do
    require (deviceId ≠ "") "Device ID cannot be empty"
    pure ({ c with kmsAllowedDeviceIds := c.kmsAllowedDeviceIds.insert deviceId },
      [.kmsDeviceAdded deviceId])

def removeKmsDevice (ctx : Context) (s : State) (deviceId : String) : Except Panic Outcome :=
  ownerMethod ctx s fun c =>
    pure ({ c with kmsAllowedDeviceIds := c.kmsAllowedDeviceIds.remove deviceId },
      [.kmsDeviceRemoved deviceId])

/-! ## App registration -/

section Registration

variable (deps : Externals)

/-- The account an app is deployed to: a subaccount of the KMS account. -/
def getAppAccountId (ctx : Context) (appId : AccountId) : Except Panic AccountId :=
  let name := appId.asStr ++ "." ++ ctx.currentAccountId.asStr
  unwrapOr (deps.parseAccountId name)
    ("called `Result::unwrap()` on an `Err` value: " ++ deps.accountIdError name)

/-- What `register_app` is called with. -/
structure RegisterAppArgs where
  appId : AccountId
  ownerId : AccountId
  disableUpgrades : Bool
  allowAnyDevice : Bool
  initialDeviceId : Option String
  initialComposeHash : Option String
deriving DecidableEq

/-- An optional string in JSON. -/
def optionalString : Option String → Json
  | some s => .string s
  | none => .null

def initArgs (ctx : Context) (args : RegisterAppArgs) : Json :=
  .object
    [("owner_id", .string args.ownerId.asStr),
      ("disable_upgrades", .bool args.disableUpgrades),
      ("allow_any_device", .bool args.allowAnyDevice),
      ("initial_device_id", optionalString args.initialDeviceId),
      ("initial_compose_hash", optionalString args.initialComposeHash),
      ("kms_contract_id", .string ctx.currentAccountId.asStr)]

def registerApp (ctx : Context) (s : State) (args : RegisterAppArgs) : Except Panic Outcome := do
  let _ ← readContract s.contract
  assertNotPaused "register_app" s.plugins
  accessControlAny [Role.owner] ctx s.plugins
  require (args.appId.asStr ≠ "") "Invalid app account ID"
  require (args.ownerId.asStr ≠ "") "Invalid owner address"
  let appAccountId ← getAppAccountId deps ctx args.appId
  -- nothing is stored yet: the callback registers the account once it exists
  pure { state := s
         events := []
         promise := some (.deployApp
          { account := appAccountId
            transfer := ctx.attachedDeposit
            method := "new"
            args := initArgs ctx args
            attachedDeposit := 0
            gas := gasDeployApp
            callbackArg := appAccountId
            callbackGas := gasDeployAppCallback }) }

/-- `#[callback_result]`: the outcome of the promise that is answered. -/
def callbackResult (ctx : Context) : Except Panic Bool :=
  match ctx.promiseResults with
  | [] => throw .noPromiseResult
  | result :: _ => pure result

def onAppContractDeployed (ctx : Context) (s : State) (appId : AccountId) :
    Except Panic Outcome := do
  assertPrivate ctx
  assertNoDeposit ctx
  let callResult ← callbackResult ctx
  let c ← readContract s.contract
  -- a failed deployment panics here, so that nothing is registered
  if callResult then
    pure { state := { s with contract := some { c with
                        registeredApps := c.registeredApps.insert appId } }
           events := [.appDeployed appId]
           promise := none }
  else throw (.message "Failed to deploy app contract")

end Registration

end NearKms.Kms
