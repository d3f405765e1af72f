import NearKms.App.Step
import NearKms.Attestation.Reference
import NearKms.Lib.Mailbox

/-!
# The upgrade promise of the app contract

`upgradesDisabled` is set by `new` and by `disable_upgrades`, and never taken back. But
no entry point of the upgrade plugin reads it: what keeps the code is that no receipt of
a deployment replaces it.
-/

namespace NearKms.App

variable {up : Upgradable}

/-! ## The flag -/

/-- Upgrades are disabled. -/
def Disabled (s : State up) : Prop := ∃ c, s.contract = some c ∧ c.upgradesDisabled = true

/-- A successful `new` that disables upgrades, or a successful `disable_upgrades`. -/
def Disables (appCode : Bytes) (s : State up) (l : Label up) : Prop :=
  Succeeds appCode s l ∧
    ((∃ args, l.2 = .new args ∧ args.disableUpgrades = true) ∨ l.2 = .disableUpgrades)

theorem disabled_iff {s : State up} {c : Contract} (hc : s.contract = some c) :
    Disabled s ↔ c.upgradesDisabled = true := by
  rw [Disabled, hc]
  simp

theorem effect_upgradesDisabled_iff {call : Call up} {c : Contract} :
    (call.effect c).upgradesDisabled = true ↔
      c.upgradesDisabled = true ∨ call = .disableUpgrades := by
  cases call <;> simp [Call.effect]

/-- The flag is set by these calls, and nothing takes it back. -/
theorem disabled_next_iff {appCode : Bytes} {s : State up} {l : Label up} :
    Disabled (next appCode s l) ↔ Disabled s ∨ Disables appCode s l := by
  rcases next_cases appCode s l with ⟨c, hc, hsucc, hnew, heffect⟩ |
    ⟨args, hc, hsucc, hnew, hinit⟩ | ⟨hquiet, hsame⟩
  · rw [disabled_iff heffect, disabled_iff hc, effect_upgradesDisabled_iff]
    refine or_congr_right ⟨fun hcall => ⟨hsucc, Or.inr hcall⟩, ?_⟩
    rintro ⟨-, ⟨args, hargs, -⟩ | hcall⟩
    · exact absurd hargs (hnew args)
    · exact hcall
  · have hbefore : ¬ Disabled s := by
      rintro ⟨c, hc', -⟩
      rw [hc] at hc'
      cases hc'
    rw [disabled_iff hinit, or_iff_right hbefore]
    constructor
    · intro hflag
      exact ⟨hsucc, Or.inl ⟨args, hnew, hflag⟩⟩
    · rintro ⟨-, ⟨args', hargs', hflag⟩ | hcall⟩
      · obtain rfl : args = args' := Call.new.inj (hnew.symm.trans hargs')
        exact hflag
      · rw [hnew] at hcall
        cases hcall
  · have hnot : ¬ Disables appCode s l := by
      rintro ⟨hsucc, hcall⟩
      rcases hquiet with hfails | hreceipt
      · exact hfails hsucc
      · rcases Call.isReceipt_iff.1 hreceipt with ⟨i, fault, hl⟩
        rw [hl] at hcall
        rcases hcall with ⟨args, hcall, -⟩ | hcall <;> cases hcall
    rw [or_iff_left hnot, Disabled, hsame, Disabled]

/-- Upgrades are disabled in a run exactly if one of these calls was made. -/
theorem disabled_run_iff (appCode : Bytes) (s₀ : State up) (ls : List (Label up)) :
    Disabled (Transition.run (next appCode) s₀ ls) ↔
      Disabled s₀ ∨ Transition.Occurs (next appCode) (Disables appCode) s₀ ls := by
  induction ls using List.reverseRecOn with
  | nil => simp [Transition.not_occurs_nil]
  | append_singleton ls l ih =>
      rw [Transition.run_append, Transition.run_cons, Transition.run_nil, disabled_next_iff, ih,
        Transition.occurs_concat_iff, or_assoc]

/-! ## Deployments -/

/-- The call is an owner's, and sends `code` to the account: it attaches no deposit, and
passes the plugin's own checks. -/
def Deploys (appCode code : Bytes) (s : State up) (l : Label up) : Prop :=
  s.code = appCode ∧ MayUpgrade l.1 s ∧ ∃ hash, l.2 = .upDeployCode hash ∧
    up.mayDeploy s.upgrades l.1 hash = true ∧ up.stagedCode s.upgrades = some code

/-- The receipt of a deployment of `code` runs, whatever comes of it. -/
def Receives (code : Bytes) (s : State up) (l : Label up) : Prop :=
  l.1.predecessorAccountId = l.1.currentAccountId ∧
    ∃ i fault, l.2 = .deployReceipt i fault ∧ s.deployments[i]? = some code

/-- The receipt of a deployment goes through with code that the account does not have
yet. -/
def ReplacesCode (s : State up) (l : Label up) : Prop :=
  l.1.predecessorAccountId = l.1.currentAccountId ∧
    ∃ i code, l.2 = .deployReceipt i false ∧ s.deployments[i]? = some code ∧
      up.verifiesState code = true ∧ code ≠ s.code

/-- The deployment that a step sends on its way. -/
def sent (appCode : Bytes) (s : State up) (l : Label up) : List Bytes :=
  match l.2 with
  | .upDeployCode hash =>
      if s.code = appCode ∧ (upDeployCode l.1 s hash).toOption.isSome = true then
        (up.stagedCode s.upgrades).toList
      else []
  | _ => []

/-- The deployment whose receipt a step runs. -/
def received (s : State up) (l : Label up) : List Bytes :=
  match l.2 with
  | .deployReceipt i _ =>
      if l.1.predecessorAccountId = l.1.currentAccountId then s.deployments[i]?.toList else []
  | _ => []

theorem toOption_isSome_iff {ε α : Type} {x : Except ε α} :
    x.toOption.isSome = true ↔ ∃ a, x = .ok a := by
  cases x <;> simp [Except.toOption]

theorem mem_sent_iff {appCode code : Bytes} {s : State up} {l : Label up} :
    code ∈ sent appCode s l ↔ Deploys appCode code s l := by
  rcases l with ⟨ctx, call⟩
  cases call with
  | upDeployCode hash =>
      simp only [sent]
      constructor
      · intro hmem
        split at hmem
        · rename_i hok
          rcases toOption_isSome_iff.1 hok.2 with ⟨out, hout⟩
          rcases upDeployCode_eq_ok.1 hout with ⟨hmay, staged, hdeploy, -, -⟩
          exact ⟨hok.1, hmay, hash, rfl, hdeploy, Option.mem_toList.1 hmem⟩
        · cases hmem
      · rintro ⟨hcode, hmay, hash', hcall, hdeploy, hstaged⟩
        obtain rfl := Call.upDeployCode.inj hcall
        have hok := upDeployCode_eq_ok.2 ⟨hmay, code, hdeploy, hstaged, rfl⟩
        rw [if_pos ⟨hcode, toOption_isSome_iff.2 ⟨_, hok⟩⟩]
        exact Option.mem_toList.2 hstaged
  | _ =>
      refine iff_of_false List.not_mem_nil ?_
      rintro ⟨-, -, _, hcall, -⟩
      cases hcall

theorem mem_received_iff {code : Bytes} {s : State up} {l : Label up} :
    code ∈ received s l ↔ Receives code s l := by
  rcases l with ⟨ctx, call⟩
  cases call with
  | deployReceipt i fault =>
      simp only [received]
      constructor
      · intro hmem
        split at hmem
        · rename_i hself
          exact ⟨hself, i, fault, rfl, Option.mem_toList.1 hmem⟩
        · cases hmem
      · rintro ⟨hself, j, fault', hcall, hcode⟩
        obtain ⟨rfl, -⟩ := Call.deployReceipt.inj hcall
        rw [if_pos hself]
        exact Option.mem_toList.2 hcode
  | _ =>
      refine iff_of_false List.not_mem_nil ?_
      rintro ⟨-, _, _, hcall, -⟩
      cases hcall

/-- A call that sends a deployment goes through, and so does a receipt that runs. -/
theorem Deploys.succeeds {appCode code : Bytes} {s : State up} {l : Label up}
    (h : Deploys appCode code s l) : Succeeds appCode s l := by
  rcases l with ⟨ctx, call⟩
  rcases h with ⟨hcode, hmay, hash, rfl, hdeploy, hstaged⟩
  exact ⟨Or.inl hcode, _, upDeployCode_eq_ok.2 ⟨hmay, code, hdeploy, hstaged, rfl⟩⟩

theorem Receives.succeeds {code : Bytes} {s : State up} {l : Label up} (h : Receives code s l)
    (appCode : Bytes) : Succeeds appCode s l := by
  rcases l with ⟨ctx, call⟩
  rcases h with ⟨hself, i, fault, rfl, hcode⟩
  exact ⟨Or.inr rfl, _, deployReceipt_eq_ok.2 ⟨hself, code, hcode, rfl⟩⟩

/-- What a step does to the deployments in flight. -/
theorem deployments_balanced (appCode : Bytes) (s : State up) (l : Label up) :
    (s.deployments ++ sent appCode s l).Perm
      (received s l ++ (next appCode s l).deployments) := by
  by_cases hsucc : Succeeds appCode s l
  · rcases l with ⟨ctx, call⟩
    rcases hsucc with ⟨hhandles, out, hout⟩
    rw [next_of_ok hhandles hout]
    cases call with
    | upDeployCode hash =>
        have hok : upDeployCode ctx s hash = .ok out := hout
        have hcode : s.code = appCode := hhandles.resolve_right Bool.false_ne_true
        have hsome := toOption_isSome_iff.2 ⟨out, hok⟩
        rcases upDeployCode_eq_ok.1 hok with ⟨-, code, -, hstaged, rfl⟩
        simp only [sent, received, if_pos (And.intro hcode hsome), hstaged, Option.toList_some,
          List.nil_append]
        exact .refl _
    | deployReceipt i fault =>
        rcases deployReceipt_eq_ok.1 hout with ⟨hself, staged, -, rfl⟩
        simp only [sent, received, if_pos hself, List.append_nil]
        exact (Transition.perm_take_eraseIdx s.deployments i).symm
    | _ =>
        have hkept : out.state.deployments = s.deployments :=
          (exec_frame hout rfl).2 (fun hash hcall => by cases hcall)
        rw [hkept]
        exact .of_eq (List.append_nil _)
  · have hsent : sent appCode s l = [] :=
      List.eq_nil_iff_forall_not_mem.2 fun code hmem => hsucc (mem_sent_iff.1 hmem).succeeds
    have hreceived : received s l = [] :=
      List.eq_nil_iff_forall_not_mem.2 fun code hmem =>
        hsucc ((mem_received_iff.1 hmem).succeeds appCode)
    rw [next_of_not_succeeds hsucc, hsent, hreceived, List.append_nil, List.nil_append]

/-- The deployments as messages: calls of `up_deploy_code` send them, their receipts take
them. -/
def deploymentBox (up : Upgradable) (appCode : Bytes) :
    Transition.Mailbox (next appCode : State up → Label up → State up) Bytes where
  inFlight := State.deployments
  sent := sent appCode
  received := received
  balanced := deployments_balanced appCode

/-- The deployments in flight and those whose receipts have run are those that were in
flight before and those that owners sent. -/
theorem deployments_run_iff (appCode code : Bytes) (s₀ : State up) (ls : List (Label up)) :
    code ∈ s₀.deployments ∨ Transition.Occurs (next appCode) (Deploys appCode code) s₀ ls ↔
      Transition.Occurs (next appCode) (Receives code) s₀ ls ∨
        code ∈ (Transition.run (next appCode) s₀ ls).deployments := by
  have h := (deploymentBox up appCode).run_mem_iff code s₀ ls
  simp only [deploymentBox, mem_sent_iff, mem_received_iff] at h
  exact h

/-! ## The code -/

/-- A step changes the code exactly if it replaces it. -/
theorem code_next_iff {appCode : Bytes} {s : State up} {l : Label up} :
    (next appCode s l).code = s.code ↔ ¬ ReplacesCode s l := by
  rcases l with ⟨ctx, call⟩
  by_cases hsucc : Succeeds appCode s (ctx, call)
  · rcases hsucc with ⟨hhandles, out, hout⟩
    rw [next_of_ok hhandles hout]
    cases call with
    | deployReceipt i fault =>
        rcases deployReceipt_eq_ok.1 hout with ⟨hself, staged, hstaged, rfl⟩
        rw [← not_iff_not, not_not]
        show up.codeAfter s.code staged fault ≠ s.code ↔ _
        rw [Upgradable.codeAfter_ne_iff]
        constructor
        · rintro ⟨rfl, hverifies, hne⟩
          exact ⟨hself, i, staged, rfl, hstaged, hverifies, hne⟩
        · rintro ⟨-, j, code, hcall, hcode, hverifies, hne⟩
          obtain ⟨rfl, rfl⟩ := Call.deployReceipt.inj hcall
          obtain rfl : staged = code := Option.some.inj (hstaged.symm.trans hcode)
          exact ⟨rfl, hverifies, hne⟩
    | _ =>
        refine iff_of_true (exec_frame hout rfl).1 ?_
        rintro ⟨-, _, _, hcall, -⟩
        cases hcall
  · rw [next_of_not_succeeds hsucc]
    refine iff_of_true rfl ?_
    rintro ⟨hself, i, code, rfl, hcode, -⟩
    exact hsucc ⟨Or.inr rfl, _, deployReceipt_eq_ok.2 ⟨hself, code, hcode, rfl⟩⟩

/-- Upgrades are disabled and the account has `code`. -/
def DisabledOn (code : Bytes) (s : State up) : Prop := Disabled s ∧ s.code = code

/-- A step that replaces no code keeps both. -/
theorem disabledOn_next {appCode code : Bytes} {s : State up} {l : Label up}
    (hl : Disabled s → ¬ ReplacesCode s l) (h : DisabledOn code s) :
    DisabledOn code (next appCode s l) := by
  rcases h with ⟨hdisabled, rfl⟩
  exact ⟨disabled_next_iff.2 (Or.inl hdisabled), code_next_iff.2 (hl hdisabled)⟩

/-! ## A disabled upgrade -/

def appOwner : AccountId := ⟨"owner.near"⟩

def appAccount : AccountId := ⟨"app.kms.near"⟩

/-- A call of the app contract by an account. -/
def callOfApp (account : AccountId) : Context where
  currentAccountId := appAccount
  predecessorAccountId := account
  signerAccountId := appOwner
  signerAccountPk := sampleSigner
  attachedDeposit := 0
  blockTimestampMs := 1757462400000
  promiseResults := []

/-- A call of the app contract by its owner. -/
def ownerCall : Context := callOfApp appOwner

/-- A freshly deployed app account. -/
def deployed (appCode : Bytes) : State samplePlugin where
  code := appCode
  contract := none
  plugins := ⟨⟨[], []⟩, []⟩
  upgrades := ⟨none, none, 0⟩
  deployments := []

/-- Initialization with upgrades disabled. -/
def disabledInit : Label samplePlugin :=
  (ownerCall, .new { ownerId := appOwner, disableUpgrades := true, allowAnyDevice := false,
                     initialDeviceId := none, initialComposeHash := none, kmsContractId := none })

/-- The owner stages other code and deploys it, and the receipt of the deployment runs. -/
def upgradeCalls (code : Bytes) : List (Label samplePlugin) :=
  [(ownerCall, .upStageCode code), (ownerCall, .upDeployCode (sampleHashText code)),
    (callOfApp appAccount, .deployReceipt 0 false)]

/-- A module without `up_verify_state` does not stay. -/
example : (Transition.run (next [1]) (deployed [1]) (disabledInit :: upgradeCalls emptyModule)).code
    = [1] := by decide

/-! ## The promise -/

/-- In every run, whatever is in flight when it starts: upgrades are disabled once `new`
or `disable_upgrades` disables them. A deployment whose receipt runs was in flight
before, or an owner sent it. And from each state with upgrades disabled on, the flag and
the code stay as they are exactly if no receipt that runs then replaces the code. -/
theorem upgrades_stay_disabled_iff (appCode : Bytes) (s₀ : State up) (ls : List (Label up)) :
    (Disabled (Transition.run (next appCode) s₀ ls) ↔
        Disabled s₀ ∨ Transition.Occurs (next appCode) (Disables appCode) s₀ ls) ∧
      (∀ code, code ∈ s₀.deployments ∨
          Transition.Occurs (next appCode) (Deploys appCode code) s₀ ls ↔
        Transition.Occurs (next appCode) (Receives code) s₀ ls ∨
          code ∈ (Transition.run (next appCode) s₀ ls).deployments) ∧
      ((∀ pre mid, pre ++ mid <+: ls → Disabled (Transition.run (next appCode) s₀ pre) →
          Disabled (Transition.run (next appCode) s₀ (pre ++ mid)) ∧
            (Transition.run (next appCode) s₀ (pre ++ mid)).code =
              (Transition.run (next appCode) s₀ pre).code) ↔
        Transition.AllSteps (next appCode) (fun s l => Disabled s → ¬ ReplacesCode s l) s₀ ls) := by
  refine ⟨disabled_run_iff appCode s₀ ls, fun code => deployments_run_iff appCode code s₀ ls, ?_⟩
  constructor
  · intro h
    refine Transition.allSteps_iff.2 ?_
    intro pre l post hls hdisabled
    -- the promise for the one step `l`
    have hstep := (h pre [l] ⟨post, by simp [hls]⟩ hdisabled).2
    rw [Transition.run_append, Transition.run_cons, Transition.run_nil] at hstep
    exact code_next_iff.1 hstep
  · rintro hall pre mid ⟨post, rfl⟩ hdisabled
    have hmid : Transition.AllSteps (next appCode) (fun s l => Disabled s → ¬ ReplacesCode s l)
        (Transition.run (next appCode) s₀ pre) mid := by
      rw [List.append_assoc] at hall
      exact (Transition.allSteps_append.1 (Transition.allSteps_append.1 hall).2).1
    have hinv : DisabledOn (Transition.run (next appCode) s₀ pre).code
        (Transition.run (next appCode) (Transition.run (next appCode) s₀ pre) mid) :=
      Transition.run_invariant_of_steps (fun s l => disabledOn_next) hmid ⟨hdisabled, rfl⟩
    rw [Transition.run_append]
    exact hinv

/-- An app that was initialized with upgrades disabled, and whose owner stages and
deploys other code: the deployment goes through. -/
theorem disabled_upgrade_goes_through :
    Disabled (Transition.run (next [1]) (deployed [1]) [disabledInit]) ∧
      (Transition.run (next [1]) (deployed [1]) [disabledInit]).code = [1] ∧
      (Transition.run (next [1]) (deployed [1])
        (disabledInit :: upgradeCalls verifyingModule)).code = verifyingModule := by
  refine ⟨⟨_, rfl, rfl⟩, rfl, ?_⟩
  decide

end NearKms.App
