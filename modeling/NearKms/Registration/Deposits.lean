import NearKms.Registration.Safety

/-!
# Where a deposit ends up

The deposit of `register_app` travels with the batch. A batch that succeeds leaves
it on the new account. A batch that fails sends it back to the account that issued
the batch, the KMS account, and the callback that learns of the failure panics
without a promise: nothing moves the deposit on to the caller.
-/

namespace NearKms

namespace World

variable {ch : Chain}

/-! ## The three places -/

/-- A batch that has not run carries the deposit. -/
theorem Tracked.in_flight {w₀ w : World ch} {ls : List WorldLabel} (h : Tracked w₀ ls w)
    {id : Nat} {g : Registration} (hg : Happened (Registers id g) w₀ ls)
    (hsucceeds : ¬ Happened (BatchSucceeds id g.account) w₀ ls)
    (hfails : ¬ Happened (BatchFails id) w₀ ls) :
    (∃ deployment, w.batches id = some deployment ∧ deployment.account = g.account ∧
        deployment.transfer = g.deposit) ∧ w.entriesOf id = callEntries w.kmsId id g := by
  rcases h.phased id g hg with ⟨phase, hphase, hdeployed, hfailed⟩
  have hledger := hphase.ledger
  cases phase with
  | pending =>
      rcases hphase.batch with ⟨deployment, hbatch, haccount, -, htransfer⟩
      refine ⟨⟨deployment, hbatch, haccount, htransfer⟩, ?_⟩
      simpa [finalEntries] using hledger
  | deployed => exact absurd (hdeployed.1 rfl) hsucceeds
  | refunding => exact absurd (hfailed.1 (Or.inl rfl)) hfails
  | refunded => exact absurd (hfailed.1 (Or.inr rfl)) hfails

/-- A batch that succeeded has left it on the new account. -/
theorem Tracked.deposited {w₀ w : World ch} {ls : List WorldLabel} (h : Tracked w₀ ls w)
    {id : Nat} {g : Registration} (hg : Happened (Registers id g) w₀ ls)
    (hsucceeds : Happened (BatchSucceeds id g.account) w₀ ls) :
    w.entriesOf id = callEntries w.kmsId id g ++ [⟨g.account, g.deposit, some id⟩] := by
  rcases h.phased id g hg with ⟨phase, hphase, hdeployed, -⟩
  obtain rfl : phase = .deployed := hdeployed.2 hsucceeds
  exact hphase.ledger

/-- After a failure it is on its way to the KMS account, or there. -/
theorem Tracked.refund_due {w₀ w : World ch} {ls : List WorldLabel} (h : Tracked w₀ ls w)
    {id : Nat} {g : Registration} (hg : Happened (Registers id g) w₀ ls)
    (hfails : Happened (BatchFails id) w₀ ls) :
    (w.refunds id = some (w.kmsId, g.deposit) ∧ w.entriesOf id = callEntries w.kmsId id g) ∨
      (w.refunds id = none ∧
        w.entriesOf id = callEntries w.kmsId id g ++ [⟨w.kmsId, g.deposit, some id⟩]) := by
  rcases h.phased id g hg with ⟨phase, hphase, -, hfailed⟩
  rcases hfailed.2 hfails with rfl | rfl
  · refine Or.inl ⟨hphase.refund, ?_⟩
    simpa [finalEntries] using hphase.ledger
  · exact Or.inr ⟨hphase.refund, hphase.ledger⟩

/-- Once the refund has arrived, it is there. -/
theorem Tracked.refunded {w₀ w : World ch} {ls : List WorldLabel} (h : Tracked w₀ ls w)
    {id : Nat} {g : Registration} (hg : Happened (Registers id g) w₀ ls)
    (hfails : Happened (BatchFails id) w₀ ls) :
    (w.deliverRefund id).entriesOf id =
      callEntries w.kmsId id g ++ [⟨w.kmsId, g.deposit, some id⟩] := by
  rcases h.phased id g hg with ⟨phase, hphase, -, hfailed⟩
  have hphase' := inPhase_deliverRefund hphase
  rw [(hfailed.2 hfails).delivered_eq] at hphase'
  have hledger := hphase'.ledger
  rw [show (w.deliverRefund id).kmsId = w.kmsId from kmsId_next w (.deliverRefund id)] at hledger
  exact hledger

/-- A callback moves no tokens. -/
theorem ledger_runCallback (w : World ch) (id : Nat) : (w.runCallback id).ledger = w.ledger := by
  unfold runCallback
  split <;> rfl

/-! ## Two registrations of one app

The owner registers an app and, after that succeeded, registers it again. -/

def sampleChain : Chain where
  deps := Kms.hashing
  up := samplePlugin
  freshUpgrades := ⟨none, none, 0⟩
  appCode := emptyModule

def sampleWorld : World sampleChain := initial Kms.kmsAccount [Kms.kmsAccount, Kms.ownerAccount]

/-- A direct call with a deposit. -/
def senderOf (account : AccountId) (deposit : Nat) : Sender where
  account := account
  signer := account
  signerPk := sampleSigner
  deposit := deposit
  timestampMs := 1757462400000
  promiseResults := []

def initKms : WorldLabel :=
  .call (senderOf Kms.kmsAccount 0) (.new Kms.ownerAccount ⟨"mpc.near"⟩ 2)

/-- Five NEAR. -/
def sampleDeposit : Nat := 5000000000000000000000000

def sampleArgs : Kms.RegisterAppArgs where
  appId := ⟨"app"⟩
  ownerId := Kms.ownerAccount
  disableUpgrades := false
  allowAnyDevice := true
  initialDeviceId := none
  initialComposeHash := none

def registerSample : WorldLabel :=
  .call (senderOf Kms.ownerAccount sampleDeposit) (.registerApp sampleArgs)

def sampleAccount : AccountId := ⟨"app.kms.near"⟩

def sampleRegistration : Registration :=
  ⟨Kms.ownerAccount, sampleDeposit, sampleArgs.appId, sampleAccount⟩

/-- The first registration, until its callback has run. -/
def deployedRun : List WorldLabel := [initKms, registerSample, .runBatch 0 false, .runCallback 0]

/-- The second one, until its callback has run. -/
def lateRun : List WorldLabel :=
  deployedRun ++ [registerSample, .runBatch 1 false, .runCallback 1]

/-- Where the call is accepted, it is a registration of the app. -/
theorem registers_sample {w : World sampleChain} (hkms : w.kmsId = Kms.kmsAccount)
    (hok : (Kms.registerApp sampleChain.deps (w.context (senderOf Kms.ownerAccount sampleDeposit))
      w.kms sampleArgs).toOption.isSome = true) :
    Registers w.nextId sampleRegistration w registerSample := by
  rcases Option.isSome_iff_exists.1 hok with ⟨out, hout⟩
  have hforged : ¬ w.Forged (senderOf Kms.ownerAccount sampleDeposit) := fun h => h.2 rfl
  rcases registers_of_ok hforged (Kms.toOption_eq_some.1 hout) with ⟨account, hregisters⟩
  have haccount : sampleChain.deps.parseAccountId
      (sampleArgs.appId.asStr ++ "." ++ Kms.kmsAccount.asStr) = some sampleAccount := by
    decide +kernel
  have hparse := hregisters.account
  rw [hkms, haccount] at hparse
  obtain rfl : sampleAccount = account := Option.some.inj hparse
  exact hregisters

theorem registers_first : Registers 0 sampleRegistration (after sampleWorld [initKms])
    registerSample := by
  have hnumber : (after sampleWorld [initKms]).nextId = 0 := by decide +kernel
  rw [← hnumber]
  exact registers_sample (kmsId_after _ _) (by decide +kernel)

theorem registers_again : Registers 1 sampleRegistration (after sampleWorld deployedRun)
    registerSample := by
  have hnumber : (after sampleWorld deployedRun).nextId = 1 := by decide +kernel
  rw [← hnumber]
  exact registers_sample (kmsId_after _ _) (by decide +kernel)

theorem tracked_sample (ls : List WorldLabel) :
    Tracked sampleWorld ls (after sampleWorld ls) :=
  tracked_after Kms.kmsAccount [Kms.kmsAccount, Kms.ownerAccount] ls

/-- A registration whose batch is in flight. -/
theorem inPhase_registerSample {ls : List WorldLabel} {id : Nat}
    (h : Registers id sampleRegistration (after sampleWorld ls) registerSample) :
    InPhase ((after sampleWorld ls).next registerSample) id sampleRegistration .pending := by
  have hfresh := (tracked_sample ls).fresh id (Nat.le_of_eq h.number.symm)
  exact (inPhase_of_registers h hfresh.1).1

/-- The first batch succeeds. -/
theorem batchSucceeds_first :
    BatchSucceeds 0 sampleAccount (after sampleWorld [initKms, registerSample])
      (.runBatch 0 false) := by
  rcases inPhase_runBatch false (inPhase_registerSample registers_first) with ⟨h, -⟩ | ⟨h, -⟩
  · exact h
  · rcases h with ⟨deployment, fault, hl, hbatch, hnone⟩
    cases hl
    -- the account is new and `new` accepts its arguments
    have hdeploy : (((after sampleWorld [initKms, registerSample]).batches 0).bind fun d =>
        (after sampleWorld [initKms, registerSample]).deploy d false).isSome = true := by
      decide +kernel
    have hbatch' : (after sampleWorld [initKms, registerSample]).batches 0 = some deployment :=
      hbatch
    have hnone' : (after sampleWorld [initKms, registerSample]).deploy deployment false = none :=
      hnone
    rw [hbatch', Option.bind_some, hnone'] at hdeploy
    cases hdeploy

/-- The second batch fails, since its account exists. -/
theorem batchFails_again :
    BatchFails 1 ((after sampleWorld deployedRun).next registerSample) (.runBatch 1 false) := by
  rcases inPhase_runBatch false (inPhase_registerSample registers_again) with ⟨h, -⟩ | ⟨h, -⟩
  · have hexists : sampleAccount ∈ (after sampleWorld deployedRun).accounts := by decide +kernel
    exact absurd (accounts_next registerSample hexists) h.accounts.1
  · exact h

theorem happened_first : Happened (Registers 0 sampleRegistration) sampleWorld lateRun ∧
    Happened (BatchSucceeds 0 sampleAccount) sampleWorld lateRun :=
  ⟨⟨[initKms], registerSample, _, rfl, registers_first⟩,
    [initKms, registerSample], .runBatch 0 false, _, rfl, batchSucceeds_first⟩

theorem happened_again (ms : List WorldLabel) :
    Happened (Registers 1 sampleRegistration) sampleWorld (lateRun ++ ms) ∧
      Happened (BatchFails 1) sampleWorld (lateRun ++ ms) := by
  refine ⟨⟨deployedRun, registerSample, _, rfl, registers_again⟩,
    deployedRun ++ [registerSample], .runBatch 1 false, _, rfl, ?_⟩
  rw [Transition.run_append]
  exact batchFails_again

/-! ## The deposits of a run -/

/-- Over every interleaving, the whole deposit of a registration is

* with the batch, as long as that has not run;
* on the new account, if the batch succeeded;
* after a failure, on its way to the KMS account or there, and there once the
  refund has arrived; the callback moves nothing. -/
theorem deposit_conservation (kmsId : AccountId) (accounts : List AccountId)
    (ls : List WorldLabel) (id : Nat) (g : Registration)
    (hg : Happened (Registers id g) (initial kmsId accounts : World ch) ls) :
    let w₀ : World ch := initial kmsId accounts
    let w := after w₀ ls
    (¬ Happened (BatchSucceeds id g.account) w₀ ls → ¬ Happened (BatchFails id) w₀ ls →
        (∃ deployment, w.batches id = some deployment ∧ deployment.account = g.account ∧
          deployment.transfer = g.deposit) ∧ w.entriesOf id = callEntries kmsId id g) ∧
      (Happened (BatchSucceeds id g.account) w₀ ls →
        w.entriesOf id = callEntries kmsId id g ++ [⟨g.account, g.deposit, some id⟩]) ∧
      (Happened (BatchFails id) w₀ ls →
        ((w.refunds id = some (kmsId, g.deposit) ∧ w.entriesOf id = callEntries kmsId id g) ∨
          (w.refunds id = none ∧
            w.entriesOf id = callEntries kmsId id g ++ [⟨kmsId, g.deposit, some id⟩])) ∧
        (w.deliverRefund id).entriesOf id =
          callEntries kmsId id g ++ [⟨kmsId, g.deposit, some id⟩]) ∧
      (w.runCallback id).ledger = w.ledger := by
  intro w₀ w
  have htracked : Tracked w₀ ls w := tracked_after kmsId accounts ls
  have hkms : w.kmsId = kmsId := kmsId_after w₀ ls
  refine ⟨fun hs hf => ?_, fun hs => ?_, fun hf => ⟨?_, ?_⟩, ledger_runCallback w id⟩
  · rw [← hkms]
    exact htracked.in_flight hg hs hf
  · rw [← hkms]
    exact htracked.deposited hg hs
  · rw [← hkms]
    exact htracked.refund_due hg hf
  · rw [← hkms]
    exact htracked.refunded hg hf

/-- Both registrations of the sample: one deposit is on the app, the other one
with the KMS. -/
theorem deposit_conservation_lateRun :
    (after sampleWorld lateRun).entriesOf 0 =
        callEntries Kms.kmsAccount 0 sampleRegistration ++
          [⟨sampleAccount, sampleDeposit, some 0⟩] ∧
      ((after sampleWorld lateRun).deliverRefund 1).entriesOf 1 =
        callEntries Kms.kmsAccount 1 sampleRegistration ++
          [⟨Kms.kmsAccount, sampleDeposit, some 1⟩] := by
  constructor
  · exact (deposit_conservation Kms.kmsAccount [Kms.kmsAccount, Kms.ownerAccount] lateRun 0
      sampleRegistration happened_first.1).2.1 happened_first.2
  · have h := happened_again []
    rw [List.append_nil] at h
    exact ((deposit_conservation Kms.kmsAccount [Kms.kmsAccount, Kms.ownerAccount] lateRun 1
      sampleRegistration h.1).2.2.1 h.2).2

/-- The deposit of the second registration: whatever happens after its batch
failed, once the refund has arrived the KMS account has it, and the owner has
received nothing. -/
theorem late_deposit_stays_with_kms :
    Happened (Registers 1 sampleRegistration) sampleWorld lateRun ∧
      Happened (BatchFails 1) sampleWorld lateRun ∧
      ∀ ms, ((after sampleWorld (lateRun ++ ms)).deliverRefund 1).entriesOf 1 =
        [⟨Kms.ownerAccount, -sampleDeposit, some 1⟩, ⟨Kms.kmsAccount, sampleDeposit, some 1⟩,
          ⟨Kms.kmsAccount, -sampleDeposit, some 1⟩, ⟨Kms.kmsAccount, sampleDeposit, some 1⟩] := by
  have h := happened_again []
  rw [List.append_nil] at h
  refine ⟨h.1, h.2, ?_⟩
  intro ms
  rcases happened_again ms with ⟨hregisters, hfails⟩
  rw [(tracked_sample (lateRun ++ ms)).refunded hregisters hfails, kmsId_after]
  rfl

end World

end NearKms
