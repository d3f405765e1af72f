import NearKms.Kms.RootKey
import NearKms.Lib.Mailbox
import NearKms.Mpc.Store
import NearKms.System.Machine

/-!
# The KMS and the MPC contract

A root key request ends in a call of the MPC contract, which is a receipt of its own:
between the request and the call anything else may run, and calls may overtake each
other. A network is a system with the MPC contract beside it and these calls in flight.
What the KMS writes as their arguments, the MPC contract reads.
-/

namespace NearKms

/-! ## Arguments on the wire -/

theorem Mpc.asU64_number (x : UInt64) : Mpc.asU64 (.number (toString x.toNat)) = some x := by
  rw [Mpc.asU64, Json.asNatural_number x.toNat_lt, Option.map_some, UInt64.ofNat_toNat]

def Kms.CkdRequestArgs.toJson (request : Kms.CkdRequestArgs) : Json :=
  .object
    [("derivation_path", .string request.derivationPath),
      ("app_public_key", .string request.appPublicKey),
      ("domain_id", .number (toString request.domainId.toNat))]

/-- The arguments of the call, as the KMS writes them. -/
def Kms.inputOfRequest (request : Kms.CkdRequestArgs) : Json :=
  .object [("request", request.toJson)]

/-- Both contracts declare the arguments, and mean the same by them. -/
theorem Mpc.requestOfInput_inputOfRequest (request : Kms.CkdRequestArgs) :
    Mpc.requestOfInput (Kms.inputOfRequest request) =
      some ⟨request.derivationPath, request.appPublicKey, request.domainId⟩ := by
  -- one member after the other, as it was written
  have hrequest : (Kms.inputOfRequest request).get "request" = some request.toJson := rfl
  have hpath : (request.toJson.get "derivation_path").bind Json.asStr =
      some request.derivationPath := rfl
  have hkey : (request.toJson.get "app_public_key").bind Json.asStr =
      some request.appPublicKey := rfl
  have hdomain : (request.toJson.get "domain_id").bind Mpc.asU64 = some request.domainId :=
    Mpc.asU64_number request.domainId
  unfold Mpc.requestOfInput Mpc.CkdRequestArgs.ofJson
  simp only [hrequest, hpath, hkey, hdomain, Option.bind_eq_bind, Option.bind_some]
  rfl

/-! ## The network -/

/-- A call of the MPC contract in flight. -/
structure Receipt where
  receiver : AccountId
  signer : AccountId
  signerPk : PublicKey
  args : Json
  deposit : Nat
  gas : Nat

structure Network (ch : Chain) where
  world : World ch
  mpcId : AccountId
  mpc : Option Mpc.Contract
  /-- Calls that have not run yet, in no particular order. -/
  receipts : List Receipt

/-- What can happen next. `fault` makes a receipt fail for a reason outside the
contracts. -/
inductive NetworkLabel (ch : Chain) where
  | system (L : SystemLabel ch)
  | callMpc (sender : Sender) (call : Mpc.Call)
  | runReceipt (i : Nat) (fault : Bool)

namespace Network

variable {ch : Chain}

def initial (kmsId : AccountId) (accounts : List AccountId) (mpcId : AccountId) : Network ch where
  world := World.initial kmsId accounts
  mpcId := mpcId
  mpc := none
  receipts := []

variable (n : Network ch)

/-- The receipt of a request that the KMS returned as its promise. -/
def receiptOf (sender : Sender) (mpcContract : AccountId) (request : Kms.CkdRequestArgs)
    (deposit gas : Nat) : Receipt where
  receiver := mpcContract
  signer := sender.signer
  signerPk := sender.signerPk
  args := Kms.inputOfRequest request
  deposit := deposit
  gas := gas

/-- The calls of the MPC contract that a step issues. -/
def issued : NetworkLabel ch → List Receipt
  | .system (.chain (.call sender c)) =>
      if n.world.Forged sender then []
      else
        match Kms.exec ch.deps (n.world.context sender) n.world.kms c with
        | .error _ => []
        | .ok out =>
            match out.promise with
            | some (.requestAppPrivateKey mpcContract request deposit gas) =>
                [receiptOf sender mpcContract request deposit gas]
            | _ => []
  | _ => []

def mpcContext (sender : Sender) : Context where
  currentAccountId := n.mpcId
  predecessorAccountId := sender.account
  signerAccountId := sender.signer
  signerAccountPk := sender.signerPk
  attachedDeposit := sender.deposit
  blockTimestampMs := sender.timestampMs
  promiseResults := sender.promiseResults

/-- The call that a receipt makes: its sender is the KMS. -/
def receiptContext (r : Receipt) : Context :=
  n.mpcContext { account := n.world.kmsId
                 signer := r.signer
                 signerPk := r.signerPk
                 deposit := r.deposit
                 timestampMs := 0
                 promiseResults := [] }

/-- What the call of a receipt comes to. It fails on an account without the contract. -/
def outcome (r : Receipt) (fault : Bool) : Option Mpc.Outcome :=
  if r.receiver ≠ n.mpcId ∨ fault then none
  else do
    let request ← Mpc.requestOfInput r.args
    (Mpc.requestAppPrivateKey (n.receiptContext r) n.mpc request).toOption

def runReceipt (i : Nat) (fault : Bool) : Network ch :=
  match n.receipts[i]? with
  | none => n
  | some r =>
      { n with
        receipts := n.receipts.eraseIdx i
        mpc := ((n.outcome r fault).map Mpc.Outcome.contract).or n.mpc }

def next (L : NetworkLabel ch) : Network ch :=
  match L with
  | .system L' =>
      { n with world := n.world.step L', receipts := n.receipts ++ n.issued (.system L') }
  | .callMpc sender call => { n with mpc := Mpc.next n.mpc (n.mpcContext sender, call) }
  | .runReceipt i fault => n.runReceipt i fault

/-- The receipts that a step runs, with their outcomes. -/
def received : NetworkLabel ch → List (Receipt × Option Mpc.Outcome)
  | .runReceipt i fault =>
      match n.receipts[i]? with
      | none => []
      | some r => [(r, n.outcome r fault)]
  | _ => []

/-! ## Receipts in flight -/

/-- The receipts as a mailbox: requests send, and running a receipt receives it. -/
def mailbox (ch : Chain) :
    Transition.Mailbox (next : Network ch → NetworkLabel ch → Network ch) Receipt where
  inFlight n := n.receipts
  sent n L := n.issued L
  received n L := (n.received L).map Prod.fst
  balanced := by
    intro n L
    cases L with
    | system L' => simp [next, received]
    | callMpc sender call => simp [next, received, issued]
    | runReceipt i fault =>
        cases hget : n.receipts[i]? with
        | none => simp [next, runReceipt, received, issued, hget]
        | some r =>
            rcases List.getElem?_eq_some_iff.1 hget with ⟨hi, rfl⟩
            simp only [next, runReceipt, received, issued, hget, List.append_nil, List.map_cons,
              List.map_nil]
            exact (List.getElem_cons_eraseIdx_perm hi).symm

end Network

end NearKms
