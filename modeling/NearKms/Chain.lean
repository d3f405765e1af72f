import NearKms.App.Contract
import NearKms.Kms.Step

/-!
# The chain around the KMS contract

Registering an app takes three receipts: the call of `register_app`, the batch it
issues, and the callback that answers the batch. Between them anything else may
run. A world holds the KMS account, the accounts that exist, the messages in
flight under the number of the registration they belong to, and a ledger of all
movements of tokens.

What the chain guarantees is built into the step function: a batch is atomic and
fails on an account that exists; accounts are not deleted; a failed batch refunds
its transfer to the KMS account; a callback runs at most once, after its batch,
and receives its outcome; and the contract calls itself with promise results only
in such callbacks.
-/

namespace NearKms

/-- What does not change while the chain runs: the functions of other crates, the
upgrade plugin with its fresh storage, and the app code inside the KMS. -/
structure Chain where
  deps : Externals
  up : Upgradable
  freshUpgrades : up.Storage
  appCode : Bytes

/-- Tokens that were added to an account, or taken from it, and the registration
they belong to. -/
structure Entry where
  account : AccountId
  amount : Int
  registration : Option Nat
deriving DecidableEq

/-- The part of a call's context that the caller determines. -/
structure Sender where
  account : AccountId
  signer : AccountId
  signerPk : PublicKey
  deposit : Nat
  timestampMs : Nat
  promiseResults : List Bool

structure World (ch : Chain) where
  kmsId : AccountId
  kms : Kms.State
  accounts : List AccountId
  apps : List (AccountId × App.State ch.up)
  /-- Deployment batches that have not run yet. -/
  batches : Nat → Option Kms.Deployment
  /-- Callbacks that have not run yet: the argument, and whether the batch succeeded. -/
  callbacks : Nat → Option (AccountId × Bool)
  /-- Refunds that have not arrived yet: the receiver and the amount. -/
  refunds : Nat → Option (AccountId × Nat)
  nextId : Nat
  ledger : List Entry

/-- What can happen next. `fault` makes a batch fail for a reason outside the
contracts: gas, storage stake, a name that may not be created. -/
inductive WorldLabel where
  | call (sender : Sender) (c : Kms.Call)
  | runBatch (id : Nat) (fault : Bool)
  | runCallback (id : Nat)
  | deliverRefund (id : Nat)
  | createAccount (account : AccountId)
  | transfer (source target : AccountId) (amount : Nat)

namespace World

variable {ch : Chain}

/-- A chain on which the KMS account exists and nothing happened yet. -/
def initial (kmsId : AccountId) (accounts : List AccountId) : World ch where
  kmsId := kmsId
  kms := Kms.State.deployed
  accounts := accounts
  apps := []
  batches := fun _ => none
  callbacks := fun _ => none
  refunds := fun _ => none
  nextId := 0
  ledger := []

variable (w : World ch)

/-! ## Calls of the KMS contract -/

def context (sender : Sender) : Context where
  currentAccountId := w.kmsId
  predecessorAccountId := sender.account
  signerAccountId := sender.signer
  signerAccountPk := sender.signerPk
  attachedDeposit := sender.deposit
  blockTimestampMs := sender.timestampMs
  promiseResults := sender.promiseResults

/-- The contract's own calls with promise results are its callbacks, and these
are messages in flight. -/
def Forged (sender : Sender) : Prop := sender.account = w.kmsId ∧ sender.promiseResults ≠ []

instance (sender : Sender) : Decidable (w.Forged sender) :=
  inferInstanceAs (Decidable (_ ∧ _))

/-- The attached deposit moves from the caller to the KMS account. -/
def paid (sender : Sender) (registration : Option Nat) : List Entry :=
  [⟨sender.account, -sender.deposit, registration⟩, ⟨w.kmsId, sender.deposit, registration⟩]

/-- A successful call: the state, the deposit, and the promise it returned. -/
def commit (sender : Sender) (out : Kms.Outcome) : World ch :=
  match out.promise with
  | none => { w with kms := out.state, ledger := w.ledger ++ w.paid sender none }
  | some (.requestAppPrivateKey _ _ deposit _) =>
      { w with
        kms := out.state
        ledger := w.ledger ++ (w.paid sender none ++ [⟨w.kmsId, -deposit, none⟩]) }
  | some (.deployApp deployment) =>
      { w with
        kms := out.state
        batches := Function.update w.batches w.nextId (some deployment)
        nextId := w.nextId + 1
        ledger := w.ledger ++ (w.paid sender (some w.nextId) ++
          [⟨w.kmsId, -deployment.transfer, some w.nextId⟩]) }

@[simp] theorem commit_kmsId (sender : Sender) (out : Kms.Outcome) :
    (w.commit sender out).kmsId = w.kmsId := by
  unfold commit
  split <;> rfl

@[simp] theorem commit_kms (sender : Sender) (out : Kms.Outcome) :
    (w.commit sender out).kms = out.state := by
  unfold commit
  split <;> rfl

@[simp] theorem commit_accounts (sender : Sender) (out : Kms.Outcome) :
    (w.commit sender out).accounts = w.accounts := by
  unfold commit
  split <;> rfl

def callKms (sender : Sender) (c : Kms.Call) : World ch :=
  if w.Forged sender then w
  else
    match Kms.exec ch.deps (w.context sender) w.kms c with
    | .ok out => w.commit sender out
    | .error _ => w

/-- A call that is refused or panics changes nothing. -/
theorem callKms_cases (sender : Sender) (c : Kms.Call) :
    (¬ w.Forged sender ∧ ∃ out, Kms.exec ch.deps (w.context sender) w.kms c = .ok out ∧
        w.callKms sender c = w.commit sender out) ∨ w.callKms sender c = w := by
  unfold callKms
  split_ifs with hforged
  · exact Or.inr rfl
  · cases Kms.exec ch.deps (w.context sender) w.kms c with
    | error e => exact Or.inr rfl
    | ok out => exact Or.inl ⟨hforged, out, rfl, rfl⟩

/-! ## The deployment batch -/

/-- An account on which the embedded code was just deployed. -/
def freshApp : App.State ch.up where
  code := ch.appCode
  contract := none
  plugins := ⟨⟨[], []⟩, []⟩
  upgrades := ch.freshUpgrades
  deployments := []

/-- `new` on the created account, called by the KMS. -/
def initApp (deployment : Kms.Deployment) : Option (App.State ch.up) := do
  let args ← App.NewArgs.ofJson ch.deps deployment.args
  let ctx : Context :=
    { currentAccountId := deployment.account
      predecessorAccountId := w.kmsId
      signerAccountId := w.kmsId
      signerAccountPk := PublicKey.ofBody .ed25519 (List.replicate 32 0) rfl
      attachedDeposit := deployment.attachedDeposit
      blockTimestampMs := 0
      promiseResults := [] }
  let out ← (App.new ctx freshApp args).toOption
  pure out.state

/-- The outcome of a batch: the app it deploys, or nothing. -/
def deploy (deployment : Kms.Deployment) (fault : Bool) : Option (App.State ch.up) :=
  if deployment.account ∈ w.accounts ∨ fault then none else w.initApp deployment

def runBatch (id : Nat) (fault : Bool) : World ch :=
  match w.batches id with
  | none => w
  | some deployment =>
      match w.deploy deployment fault with
      | some app =>
          { w with
            accounts := deployment.account :: w.accounts
            apps := (deployment.account, app) :: w.apps
            batches := Function.update w.batches id none
            callbacks := Function.update w.callbacks id (some (deployment.callbackArg, true))
            ledger := w.ledger ++ [⟨deployment.account, deployment.transfer, some id⟩] }
      | none =>
          -- all actions of the batch are undone; the transfer goes back to its sender
          { w with
            batches := Function.update w.batches id none
            callbacks := Function.update w.callbacks id (some (deployment.callbackArg, false))
            refunds := Function.update w.refunds id (some (w.kmsId, deployment.transfer)) }

/-! ## Callbacks and refunds -/

/-- The context of a callback that answers a batch with the given outcome. -/
def callbackContext (succeeded : Bool) : Context :=
  w.context { account := w.kmsId
              signer := w.kmsId
              signerPk := PublicKey.ofBody .ed25519 (List.replicate 32 0) rfl
              deposit := 0
              timestampMs := 0
              promiseResults := [succeeded] }

def runCallback (id : Nat) : World ch :=
  match w.callbacks id with
  | none => w
  | some (appId, succeeded) =>
      { w with
        kms := Kms.next ch.deps w.kms (w.callbackContext succeeded, .onAppContractDeployed appId)
        callbacks := Function.update w.callbacks id none }

def deliverRefund (id : Nat) : World ch :=
  match w.refunds id with
  | none => w
  | some (account, amount) =>
      { w with
        refunds := Function.update w.refunds id none
        ledger := w.ledger ++ [⟨account, amount, some id⟩] }

/-! ## The step function -/

def next : WorldLabel → World ch
  | .call sender c => w.callKms sender c
  | .runBatch id fault => w.runBatch id fault
  | .runCallback id => w.runCallback id
  | .deliverRefund id => w.deliverRefund id
  | .createAccount account => { w with accounts := account :: w.accounts }
  | .transfer source target amount =>
      { w with ledger := w.ledger ++ [⟨source, -amount, none⟩, ⟨target, amount, none⟩] }

/-- The ledger entries of one registration. -/
def entriesOf (id : Nat) : List Entry := w.ledger.filter fun e => e.registration == some id

end World

end NearKms
