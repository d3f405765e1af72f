import NearKms.Kms.RootKey

/-!
# Whom the root key is delivered to

The attested key is read from the transaction, the key the answer is encrypted to is
an argument of the call. A transaction may pass through other contracts before it
reaches the KMS: the first stays the same on the way, the second is whatever the last
of them says.
-/

namespace NearKms.Kms

variable {deps : Externals}

/-! ## Call chains -/

/-- A transaction on its way to the KMS: who signed it with which key, and the
contracts it passed through, in order. -/
structure CallChain where
  signer : AccountId
  signerPk : PublicKey
  via : List AccountId

namespace CallChain

/-- The account that calls the KMS, and chooses the arguments. -/
def caller (chain : CallChain) : AccountId := chain.via.getLastD chain.signer

/-- The context of the call at the end of the chain; block and deposit are those
of `ctx`. -/
def context (chain : CallChain) (ctx : Context) : Context :=
  { ctx with
    predecessorAccountId := chain.caller
    signerAccountId := chain.signer
    signerAccountPk := chain.signerPk }

theorem caller_eq_signer_iff {chain : CallChain} :
    chain.caller = chain.signer ↔
      chain.via = [] ∨ chain.via.getLast? = some chain.signer := by
  unfold caller
  rw [List.getLastD_eq_getLast?]
  cases hlast : chain.via.getLast? with
  | none => simp [List.getLast?_eq_none_iff.1 hlast]
  | some account =>
      have hne : chain.via ≠ [] := by
        intro hnil
        rw [hnil] at hlast
        cases hlast
      simp [hne]

end CallChain

/-! ## What is delivered -/

/-- The call ends in a request to the MPC contract for a key encrypted to `key`. -/
def Delivers (deps : Externals) (ctx : Context) (s : State) (req : Request) (key : String) :
    Prop :=
  ∃ out mpcContract args deposit gas,
    requestKmsRootKey deps ctx s req.quoteHex req.collateral req.tcbInfo req.workerPublicKey =
      .ok out ∧
    out.promise = some (.requestAppPrivateKey mpcContract args deposit gas) ∧
    args.appPublicKey = key

/-- The request asks for encryption to the key the caller names. -/
theorem appPublicKey_of_request {ctx : Context} {s : State} {out : Outcome}
    {quoteHex collateral tcbInfo workerPublicKey : String} {mpcContract : AccountId}
    {args : CkdRequestArgs} {deposit gas : Nat}
    (h : requestKmsRootKey deps ctx s quoteHex collateral tcbInfo workerPublicKey = .ok out)
    (hpromise : out.promise = some (.requestAppPrivateKey mpcContract args deposit gas)) :
    args.appPublicKey = workerPublicKey := by
  rcases requestKmsRootKey_eq_ok h with ⟨c, _, rfl⟩
  cases hpromise
  rfl

theorem delivers_iff {ctx : Context} {s : State} {req : Request} {key : String} :
    Delivers deps ctx s req key ↔ Issues deps ctx s req ∧ key = req.workerPublicKey := by
  constructor
  · intro h
    rcases h with ⟨out, mpcContract, args, deposit, gas, hok, hpromise, hkey⟩
    have harg := appPublicKey_of_request hok hpromise
    exact ⟨⟨out, mpcContract, args, deposit, gas, hok, hpromise⟩, hkey.symm.trans harg⟩
  · intro h
    rcases h with ⟨⟨out, mpcContract, args, deposit, gas, hok, hpromise⟩, hkey⟩
    have harg := appPublicKey_of_request hok hpromise
    exact ⟨out, mpcContract, args, deposit, gas, hok, hpromise, harg.trans hkey.symm⟩

/-- Neither the caller nor the key it names is checked. -/
theorem Issues.via {chain : CallChain} {ctx : Context} {s : State} {req : Request}
    (h : Issues deps (chain.context ctx) s req) (via : List AccountId) (key : String) :
    Issues deps ({ chain with via }.context ctx) s { req with workerPublicKey := key } := by
  rcases issues_iff.1 h with ⟨c, a, v, r, b, hc, hpaused, hdeposit, hsub, hatt, husable, hb, happ⟩
  -- the submission is the same: the named key is no part of it
  have hsub' : Submitted deps { req with workerPublicKey := key } a :=
    ⟨hsub.quote, hsub.collateral, hsub.tcbInfo⟩
  exact issues_iff.2 ⟨c, a, v, r, b, hc, hpaused, hdeposit, hsub', hatt, husable, hb, happ⟩

/-- Whatever key is requested, it is one that the attested account itself named: the
caller is the signer, and the report data are those of the signer's key. -/
def DeliversToAttested (deps : Externals) (chain : CallChain) (ctx : Context) (s : State)
    (req : Request) : Prop :=
  ∀ key, Delivers deps (chain.context ctx) s req key →
    key = req.workerPublicKey ∧ chain.caller = chain.signer ∧
      ∃ a v r, Submitted deps req a ∧
        Attestation.Attested deps a (ReportData.new chain.signerPk) (ctx.blockTimestampMs / 1000)
          v r

/-- Of an issued request: the key is delivered to the attested account exactly if no
contract of another account stands last on the way. And every contract that the
signer calls can take its place there and name a key of its own. -/
theorem delivers_to_attested_iff {chain : CallChain} {ctx : Context} {s : State} {req : Request}
    (h : Issues deps (chain.context ctx) s req) :
    (DeliversToAttested deps chain ctx s req ↔
        chain.via = [] ∨ chain.via.getLast? = some chain.signer) ∧
      ∀ via key, Delivers deps ({ chain with via }.context ctx) s
        { req with workerPublicKey := key } key := by
  constructor
  · constructor
    · intro hattested
      rcases hattested req.workerPublicKey (delivers_iff.2 ⟨h, rfl⟩) with ⟨-, hcaller, -⟩
      exact CallChain.caller_eq_signer_iff.1 hcaller
    · intro hdirect key hdelivers
      have hcaller := CallChain.caller_eq_signer_iff.2 hdirect
      rcases delivers_iff.1 hdelivers with ⟨hissues, hkey⟩
      rcases issues_iff.1 hissues with ⟨c, a, v, r, b, -, -, -, hsub, hatt, -⟩
      exact ⟨hkey, hcaller, a, v, r, hsub, hatt⟩
  · intro via key
    exact delivers_iff.2 ⟨h.via via key, rfl⟩

/-- The worker calls the KMS itself. -/
def directChain : CallChain := ⟨ownerAccount, sampleSigner, []⟩

/-- The worker calls another contract, and that one calls the KMS. -/
def relayedChain : CallChain := ⟨ownerAccount, sampleSigner, [⟨"relay.near"⟩]⟩

/-- A worker that calls the KMS itself gets the key. -/
theorem delivers_to_attested_direct :
    DeliversToAttested (externalsFor kmsWorker) directChain (callBy ownerAccount 1)
      (stateWith (IterableSet.new.insert kmsDockerHash)) (submission kmsWorker) := by
  have hissues : Issues (externalsFor kmsWorker) (directChain.context (callBy ownerAccount 1))
      (stateWith (IterableSet.new.insert kmsDockerHash)) (submission kmsWorker) :=
    issues_kmsWorker_approved
  exact (delivers_to_attested_iff hissues).1.2 (Or.inl rfl)

/-- A contract that an attested worker calls has the key encrypted to its own key. -/
theorem relay_takes_key :
    Reachable (externalsFor kmsWorker) (stateWith (IterableSet.new.insert kmsDockerHash)) ∧
      Delivers (externalsFor kmsWorker) (relayedChain.context (callBy ownerAccount 1))
        (stateWith (IterableSet.new.insert kmsDockerHash))
        { submission kmsWorker with workerPublicKey := "bls12381g1:relay" } "bls12381g1:relay" ∧
      relayedChain.caller ≠ relayedChain.signer ∧
      ¬ DeliversToAttested (externalsFor kmsWorker) relayedChain (callBy ownerAccount 1)
        (stateWith (IterableSet.new.insert kmsDockerHash))
        { submission kmsWorker with workerPublicKey := "bls12381g1:relay" } := by
  have hdirect : Issues (externalsFor kmsWorker) (directChain.context (callBy ownerAccount 1))
      (stateWith (IterableSet.new.insert kmsDockerHash)) (submission kmsWorker) :=
    issues_kmsWorker_approved
  have hrelayed := delivers_iff.2 ⟨hdirect.via [⟨"relay.near"⟩] "bls12381g1:relay", rfl⟩
  have hcaller : relayedChain.caller ≠ relayedChain.signer := by decide
  refine ⟨reachable_insert kmsDockerHash reachable_empty, hrelayed, hcaller, ?_⟩
  intro hattested
  exact hcaller (hattested _ hrelayed).2.1

end NearKms.Kms
