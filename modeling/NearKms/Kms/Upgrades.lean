import NearKms.Kms.RootKey
import NearKms.Lib.Mailbox
import NearKms.Upgradable

/-!
# The account of the KMS contract

The derives of the KMS contract open the upgrade plugin's entry points to `Owner`, as
those of the app contract do. The receipts of deployments run in any order and whatever
code the account has; calls may come in between, and are this contract's as long as the
account has its code. What other code does there is not part of the run. On its account
the contract runs as it does without the plugin, until a receipt brings other code: what
is proved of runs of the contract holds of the account up to there.
-/

namespace NearKms.Kms

variable {up : Upgradable} {deps : Externals}

/-! ## The entry points of the plugin -/

/-- The account: its code, the contract, what the upgrade plugin stores, and the code of
the deployments whose receipts have not run yet. -/
structure Account (up : Upgradable) where
  code : Bytes
  kms : State
  upgrades : up.Storage
  deployments : List Bytes

/-- What the entry points share: no deposit, and the caller holds `Owner`. -/
def upgradeMethod (ctx : Context) (a : Account up) (body : Except Panic (Account up)) :
    Except Panic (Account up) := do
  assertNoDeposit ctx
  let _ ← readContract a.kms.contract
  accessControlAny [Role.owner] ctx a.kms.plugins
  body

def upStageCode (ctx : Context) (a : Account up) (code : Bytes) : Except Panic (Account up) :=
  upgradeMethod ctx a do
    let upgrades ← up.stageCode a.upgrades ctx code
    pure { a with upgrades }

/-- Deploying sends the staged code on its way; the call itself replaces nothing. -/
def upDeployCode (ctx : Context) (a : Account up) (hash : String) : Except Panic (Account up) :=
  upgradeMethod ctx a do
    let code ← up.codeToDeploy a.upgrades ctx hash
    pure { a with deployments := a.deployments ++ [code] }

/-- A call of the staging-duration entry points that ends with the given storage. -/
def upDurationMethod (ctx : Context) (a : Account up) (upgrades : up.Storage) :
    Except Panic (Account up) :=
  upgradeMethod ctx a (pure { a with upgrades })

/-! ## Runs of the account -/

inductive AccountCall (up : Upgradable) where
  | contract (call : Call)
  | upStageCode (code : Bytes)
  | upDeployCode (hash : String)
  | upDuration (upgrades : up.Storage)

/-- A call on the account, or the receipt of one of its deployments. -/
inductive AccountLabel (up : Upgradable) where
  | call (ctx : Context) (call : AccountCall up)
  | deploy (i : Nat) (fault : Bool)

namespace Account

def exec (deps : Externals) (ctx : Context) (a : Account up) :
    AccountCall up → Except Panic (Account up)
  | .contract call => do
      let out ← Kms.exec deps ctx a.kms call
      pure { a with kms := out.state }
  | .upStageCode code => Kms.upStageCode ctx a code
  | .upDeployCode hash => Kms.upDeployCode ctx a hash
  | .upDuration upgrades => Kms.upDurationMethod ctx a upgrades

/-- The receipt of a deployment; an account without it stays as it is. -/
def deploy (a : Account up) (i : Nat) (fault : Bool) : Account up :=
  match a.deployments[i]? with
  | some staged =>
      { a with code := up.codeAfter a.code staged fault
               deployments := a.deployments.eraseIdx i }
  | none => a

/-- A step of the account; `kmsCode` is the code of this contract. -/
def next (deps : Externals) (kmsCode : Bytes) (a : Account up) : AccountLabel up → Account up
  | .call ctx call =>
      if a.code = kmsCode then
        match a.exec deps ctx call with
        | .ok a' => a'
        | .error _ => a
      else a
  | .deploy i fault => a.deploy i fault

/-- The call is an owner's, and sends `code` to the account: it attaches no deposit, and
passes the plugin's own checks. -/
def Deploys (kmsCode code : Bytes) (a : Account up) (l : AccountLabel up) : Prop :=
  a.code = kmsCode ∧ (∃ c, a.kms.contract = some c) ∧
    ∃ ctx hash, l = .call ctx (.upDeployCode hash) ∧ ctx.attachedDeposit = 0 ∧
      a.kms.plugins.acl.hasAnyRole [Role.owner] ctx.predecessorAccountId = true ∧
      up.mayDeploy a.upgrades ctx hash = true ∧ up.stagedCode a.upgrades = some code

/-- The receipt of a deployment of `code` runs, whatever comes of it. -/
def Receives (code : Bytes) (a : Account up) (l : AccountLabel up) : Prop :=
  ∃ i fault, l = .deploy i fault ∧ a.deployments[i]? = some code

/-- The receipt of a deployment goes through with code that the account does not have
yet. -/
def ReplacesCode (a : Account up) (l : AccountLabel up) : Prop :=
  ∃ i code, l = .deploy i false ∧ a.deployments[i]? = some code ∧
    up.verifiesState code = true ∧ code ≠ a.code

/-- The calls of the contract among the steps of the account. -/
def contractCalls (ls : List (AccountLabel up)) : List Label :=
  ls.filterMap fun
    | .call ctx (.contract call) => some (ctx, call)
    | _ => none

/-! ## What a step does -/

theorem upgradeMethod_eq_ok {ctx : Context} {a a' : Account up}
    {body : Except Panic (Account up)} :
    upgradeMethod ctx a body = .ok a' ↔
      (ctx.attachedDeposit = 0 ∧ (∃ c, a.kms.contract = some c) ∧
        a.kms.plugins.acl.hasAnyRole [Role.owner] ctx.predecessorAccountId = true) ∧
      body = .ok a' := by
  unfold upgradeMethod
  simp only [bind_eq_ok, assertNoDeposit_eq_ok, readContract_eq_ok, accessControlAny_eq_ok]
  constructor
  · rintro ⟨-, hdeposit, c, hc, -, hrole, hbody⟩
    exact ⟨⟨hdeposit, ⟨c, hc⟩, hrole⟩, hbody⟩
  · rintro ⟨⟨hdeposit, ⟨c, hc⟩, hrole⟩, hbody⟩
    exact ⟨(), hdeposit, c, hc, (), hrole, hbody⟩

/-- What a successful `up_deploy_code` does, and who may make it. -/
theorem upDeployCode_eq_ok {ctx : Context} {a a' : Account up} {hash : String}
    {kmsCode : Bytes} (hcode : a.code = kmsCode) :
    Kms.upDeployCode ctx a hash = .ok a' ↔
      ∃ code, Deploys kmsCode code a (.call ctx (.upDeployCode hash)) ∧
        a' = { a with deployments := a.deployments ++ [code] } := by
  rw [Kms.upDeployCode, upgradeMethod_eq_ok]
  simp only [bind_eq_ok, Upgradable.codeToDeploy_eq_ok, pure_eq_ok]
  constructor
  · rintro ⟨⟨hdeposit, hc, hrole⟩, code, ⟨hmay, hstaged⟩, rfl⟩
    exact ⟨code, ⟨hcode, hc, ctx, hash, rfl, hdeposit, hrole, hmay, hstaged⟩, rfl⟩
  · rintro ⟨code, ⟨-, hc, ctx', hash', hcall, hdeposit, hrole, hmay, hstaged⟩, rfl⟩
    obtain ⟨rfl, hdeploy⟩ := AccountLabel.call.inj hcall
    obtain rfl := AccountCall.upDeployCode.inj hdeploy
    exact ⟨⟨hdeposit, hc, hrole⟩, code, ⟨hmay, hstaged⟩, rfl⟩

theorem next_of_ok {kmsCode : Bytes} {ctx : Context} {a a' : Account up} {call : AccountCall up}
    (hcode : a.code = kmsCode) (h : a.exec deps ctx call = .ok a') :
    a.next deps kmsCode (.call ctx call) = a' := by
  rw [next, if_pos hcode, h]

theorem next_of_error {kmsCode : Bytes} {ctx : Context} {a : Account up} {call : AccountCall up}
    {panic : Panic} (h : a.exec deps ctx call = .error panic) :
    a.next deps kmsCode (.call ctx call) = a := by
  rw [next, h]
  exact ite_self a

/-- A call of the contract is one of its steps. -/
theorem next_contract {kmsCode : Bytes} {a : Account up} (hcode : a.code = kmsCode)
    (ctx : Context) (c : Call) :
    a.next deps kmsCode (.call ctx (.contract c)) =
      { a with kms := Kms.next deps a.kms (ctx, c) } := by
  cases hout : Kms.exec deps ctx a.kms c with
  | error panic =>
      have hexec : a.exec deps ctx (.contract c) = .error panic := by
        rw [exec, hout, error_bind]
      rw [next_of_error hexec, Kms.next, hout]
  | ok out =>
      have hexec : a.exec deps ctx (.contract c) = .ok { a with kms := out.state } := by
        rw [exec, hout, ok_bind]
        rfl
      rw [next_of_ok hcode hexec, Kms.next, hout]

/-- A call of `up_deploy_code` sends a deployment, or does nothing. -/
theorem next_upDeployCode {kmsCode : Bytes} {a : Account up} (hcode : a.code = kmsCode)
    (ctx : Context) (hash : String) :
    (∃ code, Deploys kmsCode code a (.call ctx (.upDeployCode hash)) ∧
        a.next deps kmsCode (.call ctx (.upDeployCode hash)) =
          { a with deployments := a.deployments ++ [code] }) ∨
      ((∀ code, ¬ Deploys kmsCode code a (.call ctx (.upDeployCode hash))) ∧
        a.next deps kmsCode (.call ctx (.upDeployCode hash)) = a) := by
  cases hexec : a.exec deps ctx (.upDeployCode hash) with
  | ok a' =>
      rcases (upDeployCode_eq_ok hcode).1 hexec with ⟨code, hdeploys, rfl⟩
      exact Or.inl ⟨code, hdeploys, next_of_ok hcode hexec⟩
  | error panic =>
      refine Or.inr ⟨?_, next_of_error hexec⟩
      intro code hdeploys
      have hok : a.exec deps ctx (.upDeployCode hash) = .ok _ :=
        (upDeployCode_eq_ok hcode).2 ⟨code, hdeploys, rfl⟩
      rw [hexec] at hok
      cases hok

/-- Staging and the durations write nothing but what the plugin stores. -/
theorem exec_upgrades {ctx : Context} {a a' : Account up} {call : AccountCall up}
    (hcontract : ∀ c, call ≠ .contract c) (hdeploy : ∀ hash, call ≠ .upDeployCode hash)
    (h : a.exec deps ctx call = .ok a') : ∃ upgrades, a' = { a with upgrades } := by
  cases call with
  | contract c => exact absurd rfl (hcontract c)
  | upDeployCode hash => exact absurd rfl (hdeploy hash)
  | upStageCode code =>
      rcases upgradeMethod_eq_ok.1 h with ⟨-, hbody⟩
      rcases bind_eq_ok.1 hbody with ⟨upgrades, -, hpure⟩
      exact ⟨upgrades, (pure_eq_ok.1 hpure).symm⟩
  | upDuration upgrades =>
      rcases upgradeMethod_eq_ok.1 h with ⟨-, hpure⟩
      exact ⟨upgrades, (pure_eq_ok.1 hpure).symm⟩

/-- All a call can do: one of the contract's, a change of what the plugin stores, a
deployment sent on its way, or nothing. -/
theorem call_cases (deps : Externals) (kmsCode : Bytes) (a : Account up) (ctx : Context)
    (call : AccountCall up) :
    (∃ c, call = .contract c ∧ a.code = kmsCode ∧
        a.next deps kmsCode (.call ctx call) = { a with kms := Kms.next deps a.kms (ctx, c) }) ∨
      (∃ code, Deploys kmsCode code a (.call ctx call) ∧
        a.next deps kmsCode (.call ctx call) =
          { a with deployments := a.deployments ++ [code] }) ∨
      ((∀ code, ¬ Deploys kmsCode code a (.call ctx call)) ∧
        (∀ c, call = .contract c → a.code ≠ kmsCode) ∧
        ∃ upgrades, a.next deps kmsCode (.call ctx call) = { a with upgrades }) := by
  by_cases hcode : a.code = kmsCode
  · by_cases hcontract : ∃ c, call = .contract c
    · rcases hcontract with ⟨c, rfl⟩
      exact Or.inl ⟨c, rfl, hcode, next_contract hcode ctx c⟩
    · have hnone : ∀ c, call = .contract c → a.code ≠ kmsCode :=
        fun c hc => absurd ⟨c, hc⟩ hcontract
      by_cases hdeploy : ∃ hash, call = .upDeployCode hash
      · rcases hdeploy with ⟨hash, rfl⟩
        rcases next_upDeployCode hcode ctx hash with hsent | ⟨hnot, hnext⟩
        · exact Or.inr (Or.inl hsent)
        · exact Or.inr (Or.inr ⟨hnot, hnone, a.upgrades, hnext⟩)
      · refine Or.inr (Or.inr ⟨?_, hnone, ?_⟩)
        · rintro _ ⟨-, -, _, hash, hcall, -⟩
          exact hdeploy ⟨hash, (AccountLabel.call.inj hcall).2⟩
        · cases hexec : a.exec deps ctx call with
          | ok a' =>
              rw [next_of_ok hcode hexec]
              exact exec_upgrades (not_exists.1 hcontract) (not_exists.1 hdeploy) hexec
          | error panic => exact ⟨a.upgrades, next_of_error hexec⟩
  · refine Or.inr (Or.inr ⟨fun _ hdeploys => hcode hdeploys.1, fun _ _ => hcode, a.upgrades, ?_⟩)
    exact if_neg hcode

/-! ## Deployments -/

theorem not_deploys_contract {kmsCode code : Bytes} {a : Account up} {ctx : Context}
    {call : Call} : ¬ Deploys kmsCode code a (.call ctx (.contract call)) := by
  rintro ⟨-, -, _, _, hcall, -⟩
  cases hcall

/-- The deployments that a step sends on their way: what a call leaves behind those that
are in flight. -/
def sent (deps : Externals) (kmsCode : Bytes) (a : Account up) : AccountLabel up → List Bytes
  | .call ctx call => (a.next deps kmsCode (.call ctx call)).deployments.drop a.deployments.length
  | .deploy _ _ => []

/-- The deployment whose receipt a step runs. -/
def received (a : Account up) : AccountLabel up → List Bytes
  | .call _ _ => []
  | .deploy i _ => a.deployments[i]?.toList

/-- What a call sends is what an owner deploys by it. -/
theorem mem_sent_iff {kmsCode code : Bytes} {a : Account up} {l : AccountLabel up} :
    code ∈ a.sent deps kmsCode l ↔ Deploys kmsCode code a l := by
  cases l with
  | call ctx call =>
      rw [sent]
      rcases call_cases deps kmsCode a ctx call with ⟨c, rfl, -, hnext⟩ |
        ⟨staged, hdeploys, hnext⟩ | ⟨hnot, -, upgrades, hnext⟩
      · rw [hnext, List.drop_length]
        exact iff_of_false List.not_mem_nil not_deploys_contract
      · rw [hnext, List.drop_left, List.mem_singleton]
        constructor
        · rintro rfl
          exact hdeploys
        · rintro ⟨-, -, _, _, -, -, -, -, hcode⟩
          rcases hdeploys with ⟨-, -, _, _, -, -, -, -, hstaged⟩
          exact Option.some.inj (hcode.symm.trans hstaged)
      · rw [hnext, List.drop_length]
        exact iff_of_false List.not_mem_nil (hnot code)
  | deploy i fault =>
      refine iff_of_false List.not_mem_nil ?_
      rintro ⟨-, -, _, _, hcall, -⟩
      cases hcall

theorem mem_received_iff {code : Bytes} {a : Account up} {l : AccountLabel up} :
    code ∈ a.received l ↔ Receives code a l := by
  cases l with
  | call ctx call =>
      refine iff_of_false List.not_mem_nil ?_
      rintro ⟨_, _, hcall, -⟩
      cases hcall
  | deploy i fault =>
      rw [received, Option.mem_toList]
      constructor
      · intro hcode
        exact ⟨i, fault, rfl, hcode⟩
      · rintro ⟨_, _, hcall, hcode⟩
        obtain ⟨rfl, rfl⟩ := AccountLabel.deploy.inj hcall
        exact hcode

theorem deployments_deploy (a : Account up) (i : Nat) (fault : Bool) :
    (a.deploy i fault).deployments = a.deployments.eraseIdx i := by
  unfold deploy
  cases hi : a.deployments[i]? with
  | none => exact (List.eraseIdx_of_length_le (List.getElem?_eq_none_iff.1 hi)).symm
  | some staged => rfl

/-- The deployments as messages: calls of `up_deploy_code` send them, their receipts take
them. -/
def deploymentBox (deps : Externals) (up : Upgradable) (kmsCode : Bytes) :
    Transition.Mailbox (next deps kmsCode : Account up → AccountLabel up → Account up) Bytes where
  inFlight := deployments
  sent := sent deps kmsCode
  received := received
  balanced := by
    intro a l
    cases l with
    | call ctx call =>
        rw [sent, received, List.nil_append]
        rcases call_cases deps kmsCode a ctx call with ⟨_, _, _, hnext⟩ | ⟨_, _, hnext⟩ |
          ⟨_, _, _, hnext⟩
        · rw [hnext, List.drop_length, List.append_nil]
        · rw [hnext, List.drop_left]
        · rw [hnext, List.drop_length, List.append_nil]
    | deploy i fault =>
        rw [sent, received, next, deployments_deploy, List.append_nil]
        exact (Transition.perm_take_eraseIdx a.deployments i).symm

/-! ## The code -/

/-- A step changes the code exactly if it replaces it. -/
theorem code_next_iff {kmsCode : Bytes} {a : Account up} {l : AccountLabel up} :
    (a.next deps kmsCode l).code = a.code ↔ ¬ ReplacesCode a l := by
  cases l with
  | call ctx call =>
      have hcode : (a.next deps kmsCode (.call ctx call)).code = a.code := by
        rcases call_cases deps kmsCode a ctx call with ⟨_, _, _, hnext⟩ | ⟨_, _, hnext⟩ |
          ⟨_, _, _, hnext⟩ <;> rw [hnext]
      refine iff_of_true hcode ?_
      rintro ⟨_, _, hcall, -⟩
      cases hcall
  | deploy i fault =>
      rw [next, deploy, ← not_iff_not, not_not]
      cases hi : a.deployments[i]? with
      | none =>
          refine iff_of_false (fun hne => hne rfl) ?_
          rintro ⟨j, code, hcall, hcode, -⟩
          obtain ⟨rfl, -⟩ := AccountLabel.deploy.inj hcall
          rw [hi] at hcode
          cases hcode
      | some staged =>
          show up.codeAfter a.code staged fault ≠ a.code ↔ _
          rw [Upgradable.codeAfter_ne_iff]
          constructor
          · rintro ⟨rfl, hverifies, hne⟩
            exact ⟨i, staged, rfl, hi, hverifies, hne⟩
          · rintro ⟨j, code, hcall, hcode, hverifies, hne⟩
            obtain ⟨rfl, rfl⟩ := AccountLabel.deploy.inj hcall
            obtain rfl : staged = code := Option.some.inj (hi.symm.trans hcode)
            exact ⟨rfl, hverifies, hne⟩

/-! ## What the contract sees of it -/

theorem deploy_kms (a : Account up) (i : Nat) (fault : Bool) : (a.deploy i fault).kms = a.kms := by
  unfold deploy
  split <;> rfl

/-- The contract takes the steps that are its own calls. -/
theorem next_kms {kmsCode : Bytes} {a : Account up} (hcode : a.code = kmsCode)
    (l : AccountLabel up) :
    (a.next deps kmsCode l).kms = Transition.run (Kms.next deps) a.kms (contractCalls [l]) := by
  cases l with
  | deploy i fault => exact deploy_kms a i fault
  | call ctx call =>
      rcases call_cases deps kmsCode a ctx call with ⟨c, rfl, -, hnext⟩ | ⟨code, hdeploys, hnext⟩ |
        ⟨-, hcontract, upgrades, hnext⟩
      · rw [hnext]
        rfl
      · rcases hdeploys with ⟨-, -, _, _, hcall, -⟩
        rw [hnext, (AccountLabel.call.inj hcall).2]
        rfl
      · rw [hnext]
        cases call with
        | contract c => exact absurd hcode (hcontract c rfl)
        | _ => rfl

/-! ## Runs -/

/-- The account on which the contract was just deployed. -/
def fresh (kmsCode : Bytes) (upgrades : up.Storage) : Account up :=
  ⟨kmsCode, State.deployed, upgrades, []⟩

/-- A run of the account from its deployment. -/
abbrev after (deps : Externals) (kmsCode : Bytes) (upgrades : up.Storage)
    (ls : List (AccountLabel up)) : Account up :=
  Transition.run (next deps kmsCode) (fresh kmsCode upgrades) ls

/-- The account has had the code of this contract all along. -/
def KeptCode (deps : Externals) (kmsCode : Bytes) (upgrades : up.Storage)
    (ls : List (AccountLabel up)) : Prop :=
  ∀ pre, pre <+: ls → (after deps kmsCode upgrades pre).code = kmsCode

theorem keptCode_iff (deps : Externals) (kmsCode : Bytes) (upgrades : up.Storage)
    (ls : List (AccountLabel up)) :
    KeptCode deps kmsCode upgrades ls ↔
      Transition.AllSteps (next deps kmsCode) (fun a l => ¬ ReplacesCode a l)
        (fresh kmsCode upgrades) ls := by
  have hstep : ∀ (a : Account up) l, a.code = kmsCode →
      ((a.next deps kmsCode l).code = kmsCode ↔ ¬ ReplacesCode a l) := by
    intro a l hcode
    have hiff : (a.next deps kmsCode l).code = a.code ↔ ¬ ReplacesCode a l := code_next_iff
    rwa [hcode] at hiff
  exact Transition.forall_prefix_iff_allSteps hstep rfl ls

/-- As long as the account keeps the code of this contract, the contract is what its own
calls make of it. -/
theorem kms_after (deps : Externals) (kmsCode : Bytes) (upgrades : up.Storage)
    (ls : List (AccountLabel up)) :
    KeptCode deps kmsCode upgrades ls →
      (after deps kmsCode upgrades ls).kms =
        Transition.run (Kms.next deps) State.deployed (contractCalls ls) := by
  let Follows (ls : List (AccountLabel up)) (a : Account up) : Prop :=
    KeptCode deps kmsCode upgrades ls →
      a.kms = Transition.run (Kms.next deps) State.deployed (contractCalls ls)
  have hnil : Follows [] (fresh kmsCode upgrades) := fun _ => rfl
  refine Transition.run_history hnil ?_ ls
  intro ls l h hkept
  have hbefore : KeptCode deps kmsCode upgrades ls := fun pre hpre =>
    hkept pre (hpre.trans (List.prefix_append ls [l]))
  have hcode : (after deps kmsCode upgrades ls).code = kmsCode :=
    hkept ls (List.prefix_append ls [l])
  have hcalls : contractCalls (ls ++ [l]) = contractCalls ls ++ contractCalls [l] :=
    List.filterMap_append
  rw [hcalls, Transition.run_append, ← h hbefore]
  exact next_kms hcode l

/-- In every run of the account, with the receipts of deployments run in any order, with
either outcome, and any calls in between. The account has had no other code than this
contract's exactly if no receipt so far has gone through with other code. The deployments
whose receipts have run, and those in flight, are the ones that owners sent. And as long
as the account has had no other code, the contract is what its own calls make of it,
whatever was staged, deployed or undone in between. -/
theorem runs_until_replaced (deps : Externals) (kmsCode : Bytes) (upgrades : up.Storage)
    (ls : List (AccountLabel up)) :
    (KeptCode deps kmsCode upgrades ls ↔
        Transition.AllSteps (next deps kmsCode) (fun a l => ¬ ReplacesCode a l)
          (fresh kmsCode upgrades) ls) ∧
      (∀ code,
        Transition.Occurs (next deps kmsCode) (Receives code) (fresh kmsCode upgrades) ls ∨
            code ∈ (after deps kmsCode upgrades ls).deployments ↔
          Transition.Occurs (next deps kmsCode) (Deploys kmsCode code) (fresh kmsCode upgrades)
            ls) ∧
      (KeptCode deps kmsCode upgrades ls →
        (after deps kmsCode upgrades ls).kms =
          Transition.run (Kms.next deps) State.deployed (contractCalls ls)) := by
  refine ⟨keptCode_iff deps kmsCode upgrades ls, ?_, kms_after deps kmsCode upgrades ls⟩
  intro code
  have hmem := (deploymentBox deps up kmsCode).run_mem_iff code (fresh kmsCode upgrades) ls
  simp only [deploymentBox, mem_sent_iff, mem_received_iff] at hmem
  rw [← hmem]
  exact or_iff_right List.not_mem_nil

/-! ## Two deployments -/

/-- Nothing is staged, and staging takes no time. -/
def nothingStaged : samplePlugin.Storage := Staging.mk none none 0

/-- The contract is initialized, its owner stages code and deploys it, and the receipt of
the deployment runs. -/
def upgradeSteps (code : Bytes) : List (AccountLabel samplePlugin) :=
  [.call initCall.1 (.contract initCall.2), .call (callBy ownerAccount 0) (.upStageCode code),
    .call (callBy ownerAccount 0) (.upDeployCode (sampleHashText code)), .deploy 0 false]

/-- Before the receipt runs, the deployment is in flight. -/
theorem deployments_upgradeSteps {code : Bytes}
    (hcode : code = emptyModule ∨ code = verifyingModule) :
    (after hashing [1] nothingStaged ((upgradeSteps code).take 3)).deployments = [code] := by
  rcases hcode with rfl | rfl <;> decide

/-- A module without `up_verify_state` is undone, and the contract is what its own call
made of it; another module stays. -/
theorem runs_until_replaced_sample :
    (after hashing [1] nothingStaged (upgradeSteps emptyModule)).kms =
        Transition.run (Kms.next hashing) State.deployed [initCall] ∧
      ¬ KeptCode hashing [1] nothingStaged (upgradeSteps verifyingModule) := by
  have hcall : ∀ (a : Account samplePlugin) ctx call, ¬ ReplacesCode a (.call ctx call) := by
    rintro a ctx call ⟨_, _, hl, -⟩
    cases hl
  constructor
  · rcases runs_until_replaced hashing [1] nothingStaged (upgradeSteps emptyModule) with
      ⟨hkept, -, hkms⟩
    refine hkms (hkept.2 ⟨hcall _ _ _, hcall _ _ _, hcall _ _ _, ?_, trivial⟩)
    rintro ⟨i, code, hl, hcode, hverifies, -⟩
    cases hl
    have hdeployments := deployments_upgradeSteps (Or.inl (rfl : emptyModule = emptyModule))
    have hempty : some emptyModule = some code := by
      rw [← hcode]
      exact (congrArg (·[0]?) hdeployments).symm
    obtain rfl := Option.some.inj hempty
    exact absurd hverifies (by decide)
  · intro hkept
    rcases ((runs_until_replaced hashing [1] nothingStaged
      (upgradeSteps verifyingModule)).1.1 hkept) with ⟨-, -, -, hlast, -⟩
    refine hlast ⟨0, verifyingModule, rfl, ?_, by decide, by decide⟩
    exact congrArg (·[0]?) (deployments_upgradeSteps (Or.inr rfl))

end Account

end NearKms.Kms
