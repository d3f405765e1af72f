import NearKms.App.Upgrades
import NearKms.Registration.Completion
import NearKms.Registration.Factory
import NearKms.System.Machine

/-!
# Every app runs alone

Among all that goes on in the system, an app is what the arguments it was registered
with, the calls addressed to it and the receipts of its own deployments make of a fresh
account. So whatever is proved about runs of the app contract holds of every app that was
deployed, as long as its account has the app's code.
-/

namespace NearKms

namespace World

variable {ch : Chain}

/-! ## Where an app comes from -/

/-- The step is an owner's successful `register_app` with these arguments, for the account. -/
def Asks (args : Kms.RegisterAppArgs) (account : AccountId) (w : World ch)
    (L : SystemLabel ch) : Prop :=
  ∃ sender, L = .chain (.call sender (.registerApp args)) ∧
    Registers w.nextId ⟨sender.account, sender.deposit, args.appId, account⟩ w
      (.call sender (.registerApp args))

/-- A batch in flight was in flight before, or the step is the call that issues it. -/
theorem batches_next {w : World ch} {l : WorldLabel} {id : Nat} {deployment : Kms.Deployment}
    (h : (w.next l).batches id = some deployment) :
    w.batches id = some deployment ∨ ∃ sender args,
      Asks args deployment.account w (.chain l) ∧
        deployment = Kms.deploymentOn (w.context sender) args deployment.account ∧
        args.ownerId.asStr ≠ "" := by
  cases l with
  | call sender c =>
      rcases w.callKms_cases sender c with ⟨hforged, out, hexec, hcall⟩ | hcall
      · rw [next, hcall] at h
        unfold commit at h
        split at h
        · exact Or.inl h
        · exact Or.inl h
        · rename_i issued hpromise
          by_cases hid : id = w.nextId
          · subst hid
            obtain rfl : issued = deployment := by simpa using h
            rcases Kms.exec_deployApp hexec hpromise with ⟨args, rfl⟩
            have hok : Kms.registerApp ch.deps (w.context sender) w.kms args = .ok out := hexec
            rcases Kms.registerApp_eq_ok hok with ⟨_, account, _, hrole, howner, haccount, rfl⟩
            cases hpromise
            exact Or.inr ⟨sender, args, ⟨sender, rfl, rfl, ⟨sender, args, _, _, rfl, hforged, hok,
              rfl, rfl⟩, hrole, haccount⟩, rfl, howner⟩
          · simp only [Function.update_of_ne hid] at h
            exact Or.inl h
      · rw [next, hcall] at h
        exact Or.inl h
  | runBatch j fault =>
      left
      by_cases hid : id = j
      · subst hid
        rw [next, batches_runBatch] at h
        cases h
      · rw [← (sameAt_runBatch hid).batches]
        exact h
  | runCallback j =>
      rw [next, (runCallback_slots w j).1] at h
      exact Or.inl h
  | deliverRefund j =>
      rw [next, (deliverRefund_slots w j).1] at h
      exact Or.inl h
  | createAccount account => exact Or.inl h
  | transfer source target amount => exact Or.inl h

/-- Where the app can read its arguments, the account names among them are valid. -/
theorem namesParse_of_ofJson {deps : Externals} {ctx : Context} {args : Kms.RegisterAppArgs}
    {newArgs : App.NewArgs} (h : App.NewArgs.ofJson deps (Kms.initArgs ctx args) = some newArgs) :
    NamesParse deps args ctx.currentAccountId := by
  have hparse : ∀ {a b : AccountId}, deps.parseAccountId a.asStr = some b →
      deps.parseAccountId a.asStr = some a := by
    intro a b hab
    rw [hab, AccountId.asStr_injective (Externals.asStr_of_parseAccountId hab)]
  have hkms : App.optionalStr (Kms.initArgs ctx args) "kms_contract_id" =
      some (some ctx.currentAccountId.asStr) := rfl
  have howner : ((Kms.initArgs ctx args).get "owner_id").bind Json.asStr =
      some args.ownerId.asStr := rfl
  unfold App.NewArgs.ofJson at h
  rw [howner, hkms] at h
  simp only [Option.bind_eq_bind, Option.bind_some, Option.bind_eq_some_iff,
    Option.map_eq_some_iff] at h
  rcases h with ⟨ownerId, hownerId, _, _, _, _, _, _, _, _, kmsId, ⟨_, hkmsId, _⟩, _⟩
  exact ⟨hparse hownerId, hparse hkmsId⟩

theorem length_receiptKey : (List.replicate 32 (0 : UInt8)).length = CurveType.ed25519.dataLen :=
  rfl

/-- The context in which a batch calls `new`. -/
def deployContext (kmsId account : AccountId) : Context where
  currentAccountId := account
  predecessorAccountId := kmsId
  signerAccountId := kmsId
  signerAccountPk := PublicKey.ofBody .ed25519 (List.replicate 32 0) length_receiptKey
  attachedDeposit := 0
  blockTimestampMs := 0
  promiseResults := []

/-- The first call of an app: `new` with the arguments of `register_app`. -/
def firstCall (kmsId account : AccountId) (args : Kms.RegisterAppArgs) : App.Label ch.up :=
  (deployContext kmsId account, .new (newArgsOf args kmsId))

/-- The call goes through on a fresh account. -/
def FirstCallSucceeds (ch : Chain) (kmsId account : AccountId) (args : Kms.RegisterAppArgs) :
    Prop :=
  App.Succeeds ch.appCode (freshApp : App.State ch.up) (firstCall kmsId account args)

/-- The app that a batch deploys is what this call makes of the fresh account. -/
theorem initApp_eq_some {w : World ch} {ctx : Context} {args : Kms.RegisterAppArgs}
    {account : AccountId} {s : App.State ch.up} (hctx : ctx.currentAccountId = w.kmsId)
    (h : w.initApp (Kms.deploymentOn ctx args account) = some s) :
    FirstCallSucceeds ch w.kmsId account args ∧
      s = App.next ch.appCode freshApp (firstCall w.kmsId account args) := by
  unfold initApp at h
  simp only [Option.bind_eq_bind, Option.bind_eq_some_iff] at h
  rcases h with ⟨newArgs, hnewArgs, out, hout, hs⟩
  have hargs : App.NewArgs.ofJson ch.deps (Kms.initArgs ctx args) =
      some (newArgsOf args ctx.currentAccountId) := ofJson_initArgs (namesParse_of_ofJson hnewArgs)
  obtain rfl : newArgs = newArgsOf args ctx.currentAccountId :=
    Option.some.inj (hnewArgs.symm.trans hargs)
  have hok : App.exec (deployContext w.kmsId account) (freshApp : App.State ch.up)
      (.new (newArgsOf args w.kmsId)) = .ok out := by
    rw [← hctx]
    exact Kms.toOption_eq_some.1 hout
  have hnext : App.next ch.appCode freshApp (firstCall w.kmsId account args) = out.state :=
    App.next_of_ok (Or.inl rfl) hok
  refine ⟨⟨Or.inl rfl, out, hok⟩, ?_⟩
  rw [hnext, ← Option.some.inj hs]

/-! ## Every app runs alone -/

/-- The calls that a run addresses to the app on an account. -/
def callsTo (account : AccountId) (Ls : List (SystemLabel ch)) : List (App.Label ch.up) :=
  Ls.filterMap fun
    | .app a sender call =>
        if a = account ∧ sender.deposit = 0 then some (appContext a sender, call) else none
    | .chain _ => none

theorem callsTo_append (account : AccountId) (Ls Ms : List (SystemLabel ch)) :
    callsTo account (Ls ++ Ms) = callsTo account Ls ++ callsTo account Ms :=
  List.filterMap_append

/-- The step deploys an app on the account. -/
def Creates (account : AccountId) (w : World ch) (L : SystemLabel ch) : Prop :=
  ∃ l s, L = .chain l ∧ (account, s) ∈ w.created l

/-- The app goes back to an owner's `register_app` and the batch that deployed it; its
state is what its own first call and the calls addressed to it since make of a fresh
account. -/
def RunsAlone (w₀ : World ch) (Ls : List (SystemLabel ch)) (kmsId account : AccountId)
    (s : App.State ch.up) : Prop :=
  ∃ args pre L post, Ls = pre ++ L :: post ∧ Creates account (afterAll w₀ pre) L ∧
    Transition.Occurs step (Asks args account) w₀ pre ∧
    FirstCallSucceeds ch kmsId account args ∧
    s = Transition.run (App.next ch.appCode) freshApp
      (firstCall kmsId account args :: callsTo account post)

/-- What a run of the system says about its batches and its apps. -/
structure Founded (w₀ : World ch) (Ls : List (SystemLabel ch)) (w : World ch) : Prop where
  batches : ∀ id deployment, w.batches id = some deployment → ∃ args ctx,
    Transition.Occurs step (Asks args deployment.account) w₀ Ls ∧
      deployment = Kms.deploymentOn ctx args deployment.account ∧ ctx.currentAccountId = w.kmsId
  apps : ∀ account s, (account, s) ∈ w.apps → RunsAlone w₀ Ls w.kmsId account s
  nodup : (w.apps.map Prod.fst).Nodup
  exist : ∀ account, account ∈ w.apps.map Prod.fst → account ∈ w.accounts

theorem founded_initial (kmsId : AccountId) (accounts : List AccountId) :
    Founded (initial kmsId accounts : World ch) [] (initial kmsId accounts) where
  batches := fun _ _ h => by cases h
  apps := fun _ _ h => by cases h
  nodup := List.nodup_nil
  exist := fun _ h => by cases h

/-- One more step that is no call of the app. -/
theorem RunsAlone.concat_of_not_called {w₀ : World ch} {Ls : List (SystemLabel ch)}
    {kmsId account : AccountId} {s : App.State ch.up} (h : RunsAlone w₀ Ls kmsId account s)
    {L : SystemLabel ch} (hL : callsTo account [L] = []) :
    RunsAlone w₀ (Ls ++ [L]) kmsId account s := by
  rcases h with ⟨args, pre, M, post, rfl, hcreates, hasks, hfirst, rfl⟩
  refine ⟨args, pre, M, post ++ [L], by simp, hcreates, hasks, hfirst, ?_⟩
  rw [callsTo_append, hL, List.append_nil]

/-- One more call of the app. -/
theorem RunsAlone.concat_of_called {w₀ : World ch} {Ls : List (SystemLabel ch)}
    {kmsId account : AccountId} {s : App.State ch.up} (h : RunsAlone w₀ Ls kmsId account s)
    {sender : Sender} (hdeposit : sender.deposit = 0) (call : App.Call ch.up) :
    RunsAlone w₀ (Ls ++ [.app account sender call]) kmsId account
      (App.next ch.appCode s (appContext account sender, call)) := by
  rcases h with ⟨args, pre, M, post, rfl, hcreates, hasks, hfirst, rfl⟩
  refine ⟨args, pre, M, post ++ [.app account sender call], by simp, hcreates, hasks, hfirst, ?_⟩
  have hcalls : callsTo account [SystemLabel.app account sender call] =
      [(appContext account sender, call)] := by
    simp [callsTo, hdeposit]
  rw [callsTo_append, hcalls, ← List.cons_append, Transition.run_append]
  rfl

/-- A step deploys nothing, or one app on an account that did not exist. -/
theorem created_cases (w : World ch) (l : WorldLabel) :
    w.created l = [] ∨ ∃ id deployment s, w.created l = [(deployment.account, s)] ∧
      w.batches id = some deployment ∧ deployment.account ∉ w.accounts ∧
      deployment.account ∈ (w.next l).accounts ∧ w.initApp deployment = some s := by
  cases l with
  | runBatch id fault =>
      cases hbatch : w.batches id with
      | none =>
          left
          simp only [created, hbatch]
      | some deployment =>
          cases hdeploy : w.deploy deployment fault with
          | none =>
              left
              simp only [created, hbatch, hdeploy]
          | some s =>
              have hsucceeds : BatchSucceeds id deployment.account w (.runBatch id fault) :=
                ⟨deployment, fault, s, rfl, hbatch, rfl, hdeploy⟩
              rcases hsucceeds.accounts with ⟨hnew, hexists⟩
              refine Or.inr ⟨id, deployment, s, ?_, hbatch, hnew, hexists, ?_⟩
              · simp only [created, hbatch, hdeploy]
              · unfold deploy at hdeploy
                split at hdeploy
                · cases hdeploy
                · exact hdeploy
  | _ => exact Or.inl rfl

/-- The invariant: a step of the chain. -/
theorem Founded.next {w₀ w : World ch} {Ls : List (SystemLabel ch)} (h : Founded w₀ Ls w)
    (hw : afterAll w₀ Ls = w) (l : WorldLabel) :
    Founded w₀ (Ls ++ [.chain l]) (w.step (.chain l)) := by
  subst hw
  have hkms : ((afterAll w₀ Ls).step (.chain l)).kmsId = (afterAll w₀ Ls).kmsId := kmsId_next _ l
  have happs : ((afterAll w₀ Ls).step (.chain l)).apps =
      (afterAll w₀ Ls).created l ++ (afterAll w₀ Ls).apps := apps_next _ l
  constructor
  · intro id deployment hbatch
    rw [hkms]
    rcases batches_next hbatch with hbefore | ⟨sender, args, hasks, hdeployment, _⟩
    · rcases h.batches id deployment hbefore with ⟨args, ctx, hasks, hdeployment, hctx⟩
      exact ⟨args, ctx, hasks.concat _, hdeployment, hctx⟩
    · exact ⟨args, _, Transition.occurs_last hasks, hdeployment, rfl⟩
  · intro account s hs
    rw [happs] at hs
    rw [hkms]
    rcases List.mem_append.1 hs with hcreated | hbefore
    · rcases created_cases (afterAll w₀ Ls) l with hnone | ⟨id, deployment, app, hone, hbatch, -, -,
        hinit⟩
      · rw [hnone] at hcreated
        cases hcreated
      · rw [hone] at hcreated
        obtain ⟨rfl, rfl⟩ := Prod.mk.inj (List.mem_singleton.1 hcreated)
        rcases h.batches id deployment hbatch with ⟨args, ctx, hasks, hdeployment, hctx⟩
        rw [hdeployment] at hinit
        rcases initApp_eq_some hctx hinit with ⟨hfirst, hs⟩
        refine ⟨args, Ls, .chain l, [], rfl, ⟨l, s, rfl, ?_⟩, hasks, hfirst, hs⟩
        rw [hone]
        exact List.mem_singleton_self _
    · exact (h.apps account s hbefore).concat_of_not_called rfl
  · rw [happs]
    rcases created_cases (afterAll w₀ Ls) l with hnone | ⟨_, deployment, app, hone, _, hnew, _⟩
    · rw [hnone]
      exact h.nodup
    · rw [hone]
      exact List.nodup_cons.2 ⟨fun hmem => hnew (h.exist _ hmem), h.nodup⟩
  · intro account hmem
    rw [happs, List.map_append] at hmem
    rcases List.mem_append.1 hmem with hcreated | hbefore
    · rcases created_cases (afterAll w₀ Ls) l with hnone | ⟨_, deployment, app, hone, _, _,
        hexists, _⟩
      · rw [hnone] at hcreated
        cases hcreated
      · rw [hone] at hcreated
        obtain rfl : account = deployment.account := List.mem_singleton.1 hcreated
        exact hexists
    · exact accounts_next l (h.exist account hbefore)

/-- The invariant: a call of an app. -/
theorem Founded.callApp {w₀ w : World ch} {Ls : List (SystemLabel ch)} (h : Founded w₀ Ls w)
    (account : AccountId) (sender : Sender) (call : App.Call ch.up) :
    Founded w₀ (Ls ++ [.app account sender call]) (w.step (.app account sender call)) := by
  have hbatches : ∀ id deployment, w.batches id = some deployment → ∃ args ctx,
      Transition.Occurs step (Asks args deployment.account) w₀ (Ls ++ [.app account sender call]) ∧
        deployment = Kms.deploymentOn ctx args deployment.account ∧
        ctx.currentAccountId = w.kmsId := by
    intro id deployment hbatch
    rcases h.batches id deployment hbatch with ⟨args, ctx, hasks, hdeployment, hctx⟩
    exact ⟨args, ctx, hasks.concat _, hdeployment, hctx⟩
  rw [step, World.callApp]
  split
  · rename_i hdeposit
    constructor
    · exact hbatches
    · intro a s hs
      rcases List.mem_map.1 hs with ⟨⟨b, s'⟩, hmem, heq⟩
      have hbefore := h.apps b s' hmem
      unfold runApp at heq
      split at heq
      · rename_i hb
        obtain ⟨rfl, rfl⟩ := Prod.mk.inj heq
        obtain rfl : b = account := hb
        exact hbefore.concat_of_called hdeposit call
      · rename_i hb
        obtain ⟨rfl, rfl⟩ := Prod.mk.inj heq
        refine hbefore.concat_of_not_called ?_
        have hne : account ≠ b := fun he => hb he.symm
        simp [callsTo, hne]
    · show ((w.apps.map (runApp account sender call)).map Prod.fst).Nodup
      rw [map_fst_runApp]
      exact h.nodup
    · intro a ha
      have ha' : a ∈ (w.apps.map (runApp account sender call)).map Prod.fst := ha
      rw [map_fst_runApp] at ha'
      exact h.exist a ha'
  · rename_i hdeposit
    refine ⟨hbatches, ?_, h.nodup, h.exist⟩
    intro a s hs
    refine (h.apps a s hs).concat_of_not_called ?_
    simp [callsTo, hdeposit]

theorem founded_afterAll (kmsId : AccountId) (accounts : List AccountId)
    (Ls : List (SystemLabel ch)) :
    Founded (initial kmsId accounts) Ls (afterAll (initial kmsId accounts) Ls) := by
  refine Transition.run_history (founded_initial kmsId accounts) ?_ Ls
  intro Ls L h
  cases L with
  | chain l => exact h.next rfl l
  | app account sender call => exact h.callApp account sender call

/-! ## Registered apps -/

/-- The accounts that host an app stay, and a batch that succeeds adds its own. -/
theorem hosted_next {w : World ch} {l : WorldLabel} {account : AccountId}
    (h : account ∈ w.apps.map Prod.fst) : account ∈ (w.next l).apps.map Prod.fst := by
  rw [apps_next, List.map_append]
  exact List.mem_append_right _ h

theorem hosted_of_batchSucceeds {w : World ch} {l : WorldLabel} {id : Nat} {account : AccountId}
    (h : BatchSucceeds id account w l) : account ∈ (w.next l).apps.map Prod.fst := by
  rcases h with ⟨deployment, fault, s, rfl, hbatch, rfl, hdeploy⟩
  rw [apps_next, created, hbatch]
  simp only [hdeploy]
  exact List.mem_cons_self

theorem hosted_of_happened {w₀ : World ch} {ls : List WorldLabel} {id : Nat}
    {account : AccountId} (h : Happened (BatchSucceeds id account) w₀ ls) :
    account ∈ (after w₀ ls).apps.map Prod.fst := by
  rcases h with ⟨pre, l, post, rfl, hsucceeds⟩
  have hstep : ∀ (w : World ch) l, account ∈ w.apps.map Prod.fst →
      account ∈ (w.next l).apps.map Prod.fst := fun _ _ => hosted_next
  rw [after, Transition.run_append, Transition.run_cons]
  exact Transition.run_invariant hstep _ post (hosted_of_batchSucceeds hsucceeds)

/-- A registered account hosts an app, in the system as among the registrations. -/
theorem hosted_of_registered (kmsId : AccountId) (accounts : List AccountId)
    (Ls : List (SystemLabel ch)) {account : AccountId}
    (h : account ∈ Kms.registeredApps (afterAll (initial kmsId accounts) Ls).kms) :
    account ∈ (afterAll (initial kmsId accounts : World ch) Ls).apps.map Prod.fst := by
  have hsame : SameChain (afterAll (initial kmsId accounts : World ch) Ls)
      (after (initial kmsId accounts) (chainOf Ls)) := sameChain_afterAll ⟨rfl, rfl⟩ Ls
  have hkms : (after (initial kmsId accounts : World ch) (chainOf Ls)).kms =
      (afterAll (initial kmsId accounts) Ls).kms := by
    rw [hsame.rest]
    rfl
  rw [← hkms] at h
  rcases (complete_after kmsId accounts (chainOf Ls)).sound account h with
    ⟨id, g, rfl, -, hsucceeds, -⟩
  rw [← hsame.accounts]
  exact hosted_of_happened hsucceeds

theorem kmsId_afterAll (w₀ : World ch) (Ls : List (SystemLabel ch)) :
    (afterAll w₀ Ls).kmsId = w₀.kmsId := by
  have hstep : ∀ (w : World ch) L, w.kmsId = w₀.kmsId → (step w L).kmsId = w₀.kmsId := by
    intro w L h
    cases L with
    | chain l => rw [step, kmsId_next, h]
    | app account sender call =>
        rw [step, callApp]
        split <;> exact h
  exact Transition.run_invariant hstep w₀ Ls rfl

/-- In every run of the system each registered account hosts one app. And each app goes
back to an owner's `register_app` and the batch that deployed it: its state is that of
a run of the app contract alone, over `new` with the arguments of `register_app` and
the calls addressed to this app since, receipts of its own deployments included, as long
as the account has the app's code. Nothing else in the system has a part in it. -/
theorem every_app_runs_alone (kmsId : AccountId) (accounts : List AccountId)
    (Ls : List (SystemLabel ch)) :
    let w₀ : World ch := initial kmsId accounts
    let w := afterAll w₀ Ls
    (∀ account, account ∈ Kms.registeredApps w.kms → ∃! s, (account, s) ∈ w.apps) ∧
      ∀ account s, (account, s) ∈ w.apps → ∃ args pre L post, Ls = pre ++ L :: post ∧
        Transition.Occurs step (Asks args account) w₀ pre ∧ Creates account (afterAll w₀ pre) L ∧
        s = Transition.run (App.next ch.appCode) freshApp
          (firstCall kmsId account args :: callsTo account post) := by
  intro w₀ w
  have hfounded : Founded w₀ Ls w := founded_afterAll kmsId accounts Ls
  constructor
  · intro account h
    rcases List.mem_map.1 (hosted_of_registered kmsId accounts Ls h) with ⟨⟨a, s⟩, hmem, rfl⟩
    refine ⟨s, hmem, ?_⟩
    intro s' hmem'
    exact (Prod.mk.inj (List.inj_on_of_nodup_map hfounded.nodup hmem' hmem rfl)).2
  · intro account s hmem
    rcases hfounded.apps account s hmem with ⟨args, pre, L, post, hLs, hcreates, hasks, _, hs⟩
    rw [kmsId_afterAll] at hs
    exact ⟨args, pre, L, post, hLs, hasks, hcreates, hs⟩

/-! ## Who can change an app -/

/-- The app is initialized, and says that this is its KMS. -/
def BelongsTo (kmsId : AccountId) (s : App.State ch.up) : Prop :=
  ∃ c, s.contract = some c ∧ c.kmsContractId = some kmsId

theorem belongsTo_next {kmsId : AccountId} {s : App.State ch.up} (l : App.Label ch.up)
    (h : BelongsTo kmsId s) : BelongsTo kmsId (App.next ch.appCode s l) := by
  rcases h with ⟨c, hc, hkms⟩
  rcases App.next_cases ch.appCode s l with ⟨c', hc', _, _, heffect⟩ | ⟨_, hnone, _⟩ | ⟨_, hsame⟩
  · obtain rfl : c = c' := Option.some.inj (hc.symm.trans hc')
    have hkeep : App.Field.Same c (l.2.effect c) .kmsContractId :=
      App.same_effect (by cases l.2 <;> simp [App.Call.manages]) c
    exact ⟨_, heffect, hkeep.trans hkms⟩
  · rw [hc] at hnone
    cases hnone
  · rw [BelongsTo, hsame]
    exact ⟨c, hc, hkms⟩

theorem belongsTo_first {kmsId account : AccountId} {args : Kms.RegisterAppArgs}
    (h : FirstCallSucceeds ch kmsId account args) :
    BelongsTo kmsId (App.next ch.appCode (freshApp : App.State ch.up)
      (firstCall kmsId account args)) := by
  rcases App.next_cases ch.appCode (freshApp : App.State ch.up) (firstCall kmsId account args) with
    ⟨c, hc, _⟩ | ⟨newArgs, _, _, hcall, hinit⟩ | ⟨hfails | hreceipt, _⟩
  · cases hc
  · obtain rfl : newArgsOf args kmsId = newArgs := App.Call.new.inj hcall
    exact ⟨_, hinit, rfl⟩
  · exact absurd h hfails
  · cases hreceipt

theorem RunsAlone.belongsTo {w₀ : World ch} {Ls : List (SystemLabel ch)}
    {kmsId account : AccountId} {s : App.State ch.up} (h : RunsAlone w₀ Ls kmsId account s) :
    BelongsTo kmsId s := by
  rcases h with ⟨args, _, _, post, _, _, _, hfirst, rfl⟩
  have hstep : ∀ (s : App.State ch.up) l, BelongsTo kmsId s →
      BelongsTo kmsId (App.next ch.appCode s l) := fun _ l => belongsTo_next l
  rw [Transition.run_cons]
  exact Transition.run_invariant hstep _ _ (belongsTo_first hfirst)

/-- The owner of the sample calls the app that was deployed for it. -/
def calledRun : List (SystemLabel sampleChain) :=
  deployedRun.map .chain ++
    [.app sampleAccount (senderOf Kms.ownerAccount 0) (.addComposeHash "hash")]

theorem hosted_calledRun : ∃ s, (sampleAccount, s) ∈ (afterAll sampleWorld calledRun).apps := by
  have hhosted : ((afterAll sampleWorld calledRun).apps.map Prod.fst) = [sampleAccount] := by
    decide +kernel
  have hmem : sampleAccount ∈ (afterAll sampleWorld calledRun).apps.map Prod.fst := by
    rw [hhosted]
    exact List.mem_singleton_self _
  rcases List.mem_map.1 hmem with ⟨⟨a, s⟩, hs, ha⟩
  obtain rfl : a = sampleAccount := ha
  exact ⟨s, hs⟩

end World

end NearKms
