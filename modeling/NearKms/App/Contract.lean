import NearKms.Attestation.Evidence
import NearKms.Upgradable

/-!
# The app contract (`app/src/lib.rs`, `app/src/view.rs`)

The contract that the KMS deploys for each app: which compose hashes and which
devices may boot it. Its upgrade entry points come from a plugin: what the contract
adds to them is the role they are open to.
-/

namespace NearKms.App

/-! ## Data -/

inductive Role where
  | owner
deriving DecidableEq, Repr

structure Contract where
  allowedComposeHashes : IterableSet String
  allowAnyDevice : Bool
  allowedDeviceIds : IterableSet String
  upgradesDisabled : Bool
  kmsContractId : Option AccountId
deriving DecidableEq

inductive Event where
  | composeHashAdded (composeHash : String)
  | composeHashRemoved (composeHash : String)
  | deviceAdded (deviceId : String)
  | deviceRemoved (deviceId : String)
  | allowAnyDeviceSet (allowAny : Bool)
  | upgradesDisabled
deriving DecidableEq

/-- The account: its code, the contract's state once it is initialized, what the
plugins keep, and the code of the deployments whose receipts have not run yet. -/
structure State (up : Upgradable) where
  code : Bytes
  contract : Option Contract
  plugins : Plugins Role
  upgrades : up.Storage
  deployments : List Bytes

structure Outcome (up : Upgradable) where
  state : State up
  events : List Event

variable {up : Upgradable}

/-! ## The lists -/

def internalAddDevice (c : Contract) (deviceId : String) :
    Except Panic (Contract × List Event) := do
  require (deviceId ≠ "") "Device ID cannot be empty"
  pure ({ c with allowedDeviceIds := c.allowedDeviceIds.insert deviceId }, [.deviceAdded deviceId])

def internalRemoveDevice (c : Contract) (deviceId : String) : Contract × List Event :=
  ({ c with allowedDeviceIds := c.allowedDeviceIds.remove deviceId }, [.deviceRemoved deviceId])

def internalAddComposeHash (c : Contract) (composeHash : String) :
    Except Panic (Contract × List Event) := do
  require (composeHash ≠ "") "Compose hash cannot be empty"
  pure ({ c with allowedComposeHashes := c.allowedComposeHashes.insert composeHash },
    [.composeHashAdded composeHash])

def internalRemoveComposeHash (c : Contract) (composeHash : String) : Contract × List Event :=
  ({ c with allowedComposeHashes := c.allowedComposeHashes.remove composeHash },
    [.composeHashRemoved composeHash])

/-! ## Initialization -/

/-- The arguments of `new`. -/
structure NewArgs where
  ownerId : AccountId
  disableUpgrades : Bool
  allowAnyDevice : Bool
  initialDeviceId : Option String
  initialComposeHash : Option String
  kmsContractId : Option AccountId
deriving DecidableEq

/-- A member that may be missing or null; anything else has to be a string. -/
def optionalStr (v : Json) (key : String) : Option (Option String) :=
  match v.get key with
  | none => some none
  | some .null => some none
  | some value => value.asStr.map some

/-- The arguments as the contract reads them from its input. -/
def NewArgs.ofJson (deps : Externals) (v : Json) : Option NewArgs := do
  let ownerId ← ((v.get "owner_id").bind Json.asStr).bind deps.parseAccountId
  let disableUpgrades ← (v.get "disable_upgrades").bind Json.asBool
  let allowAnyDevice ← (v.get "allow_any_device").bind Json.asBool
  let initialDeviceId ← optionalStr v "initial_device_id"
  let initialComposeHash ← optionalStr v "initial_compose_hash"
  -- an account name that is present has to be a valid one
  let kmsContractId ← match ← optionalStr v "kms_contract_id" with
    | none => some none
    | some s => (deps.parseAccountId s).map some
  pure { ownerId, disableUpgrades, allowAnyDevice, initialDeviceId, initialComposeHash,
         kmsContractId }

/-- Adds an initial entry, if there is one. -/
def addInitial (add : Contract → String → Except Panic (Contract × List Event)) (c : Contract) :
    Option String → Except Panic (Contract × List Event)
  | some s => add c s
  | none => pure (c, [])

def new (ctx : Context) (s : State up) (args : NewArgs) : Except Panic (Outcome up) := do
  assertNoDeposit ctx
  assertUninitialized s.contract
  require (args.ownerId.asStr ≠ "") "Invalid owner address"
  let c :=
    { allowedComposeHashes := .new
      allowAnyDevice := args.allowAnyDevice
      allowedDeviceIds := .new
      upgradesDisabled := args.disableUpgrades
      kmsContractId := args.kmsContractId }
  let acl := { superAdmins := s.plugins.acl.superAdmins ++ [args.ownerId]
               grantees := s.plugins.acl.grantees ++ [(Role.owner, args.ownerId)] }
  -- the initial entries go through the same checks as later ones
  let (c, events) ← addInitial internalAddDevice c args.initialDeviceId
  let (c, events') ← addInitial internalAddComposeHash c args.initialComposeHash
  pure { state := { s with contract := some c, plugins := { s.plugins with acl } }
         events := events ++ events' }

/-! ## Methods of the owner -/

/-- What all setters share: no deposit, the caller holds `Owner`, and the body
only changes the contract and emits events. -/
def ownerMethod (ctx : Context) (s : State up)
    (body : Contract → Except Panic (Contract × List Event)) : Except Panic (Outcome up) := do
  assertNoDeposit ctx
  let c ← readContract s.contract
  accessControlAny [Role.owner] ctx s.plugins
  let (c', events) ← body c
  pure { state := { s with contract := some c' }, events }

def addComposeHash (ctx : Context) (s : State up) (composeHash : String) :
    Except Panic (Outcome up) :=
  ownerMethod ctx s fun c => internalAddComposeHash c composeHash

def removeComposeHash (ctx : Context) (s : State up) (composeHash : String) :
    Except Panic (Outcome up) :=
  ownerMethod ctx s fun c => pure (internalRemoveComposeHash c composeHash)

def setAllowAnyDevice (ctx : Context) (s : State up) (allowAnyDevice : Bool) :
    Except Panic (Outcome up) :=
  ownerMethod ctx s fun c => pure ({ c with allowAnyDevice }, [.allowAnyDeviceSet allowAnyDevice])

def addDevice (ctx : Context) (s : State up) (deviceId : String) : Except Panic (Outcome up) :=
  ownerMethod ctx s fun c => internalAddDevice c deviceId

def removeDevice (ctx : Context) (s : State up) (deviceId : String) : Except Panic (Outcome up) :=
  ownerMethod ctx s fun c => pure (internalRemoveDevice c deviceId)

def disableUpgrades (ctx : Context) (s : State up) : Except Panic (Outcome up) :=
  ownerMethod ctx s fun c => pure ({ c with upgradesDisabled := true }, [.upgradesDisabled])

/-! ## Upgrade entry points

The derive opens them to `Owner`. None of them looks at `upgradesDisabled`. -/

/-- What they share: no deposit, the caller holds `Owner`, and the contract stays as it
is. -/
def upgradeMethod (ctx : Context) (s : State up) (body : Except Panic (State up)) :
    Except Panic (Outcome up) := do
  assertNoDeposit ctx
  let _ ← readContract s.contract
  accessControlAny [Role.owner] ctx s.plugins
  let s' ← body
  pure { state := s', events := [] }

def upStageCode (ctx : Context) (s : State up) (code : Bytes) : Except Panic (Outcome up) :=
  upgradeMethod ctx s do
    let upgrades ← up.stageCode s.upgrades ctx code
    pure { s with upgrades }

/-- Deploying sends the staged code on its way; the call itself replaces nothing. -/
def upDeployCode (ctx : Context) (s : State up) (hash : String) : Except Panic (Outcome up) :=
  upgradeMethod ctx s do
    let code ← up.codeToDeploy s.upgrades ctx hash
    pure { s with deployments := s.deployments ++ [code] }

/-- A call of the staging-duration entry points that ends with the given storage. -/
def upDurationMethod (ctx : Context) (s : State up) (upgrades : up.Storage) :
    Except Panic (Outcome up) :=
  upgradeMethod ctx s (pure { s with upgrades })

/-- The receipt of a deployment in flight, which the account sent to itself. -/
def deployReceipt (ctx : Context) (s : State up) (i : Nat) (fault : Bool) :
    Except Panic (Outcome up) := do
  assertPrivate ctx
  match s.deployments[i]? with
  | none => throw .noReceipt
  | some staged =>
      pure { state := { s with code := up.codeAfter s.code staged fault
                               deployments := s.deployments.eraseIdx i }
             events := [] }

/-! ## Boot validation (`view.rs`) -/

/-- Whether the app may boot, and why not. Of the boot info, the compose hash and
the device are looked at; the platform is not. -/
def Contract.isAppAllowed (c : Contract) (bootInfo : AppBootInfo) : Bool × String :=
  if ¬ c.allowedComposeHashes.contains bootInfo.composeHash then
    (false, "Compose hash not allowed")
  else if ¬ c.allowAnyDevice ∧ ¬ c.allowedDeviceIds.contains bootInfo.deviceId then
    (false, "Device not allowed")
  else (true, "")

theorem isAppAllowed_iff {c : Contract} {bootInfo : AppBootInfo} :
    (c.isAppAllowed bootInfo).1 = true ↔
      bootInfo.composeHash ∈ c.allowedComposeHashes ∧
        (c.allowAnyDevice = true ∨ bootInfo.deviceId ∈ c.allowedDeviceIds) := by
  unfold Contract.isAppAllowed
  cases hany : c.allowAnyDevice <;> split_ifs <;> simp_all

end NearKms.App
