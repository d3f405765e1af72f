import NearKms.App.Administration
import NearKms.Chain

/-!
# The KMS and the apps it has deployed

A world with calls of the deployed apps in it: each app is a contract of its own, and
all of them run interleaved with the registrations. The system projects to the world
of registrations, which does not depend on what the apps do.
-/

namespace NearKms

/-- What can happen next, calls of deployed apps included, and the receipts that they send
to themselves. -/
inductive SystemLabel (ch : Chain) where
  | chain (l : WorldLabel)
  | app (account : AccountId) (sender : Sender) (call : App.Call ch.up)

namespace World

variable {ch : Chain}

/-! ## Calls of apps -/

def appContext (account : AccountId) (sender : Sender) : Context where
  currentAccountId := account
  predecessorAccountId := sender.account
  signerAccountId := sender.signer
  signerAccountPk := sender.signerPk
  attachedDeposit := sender.deposit
  blockTimestampMs := sender.timestampMs
  promiseResults := sender.promiseResults

/-- What the call makes of one account: only the one it is addressed to runs it. -/
def runApp (account : AccountId) (sender : Sender) (call : App.Call ch.up)
    (e : AccountId × App.State ch.up) : AccountId × App.State ch.up :=
  if e.1 = account then
    (e.1, App.next ch.appCode e.2 (appContext account sender, call))
  else e

variable (w : World ch)

/-- A call of the app on an account, or a receipt of its own. None of its methods takes a
deposit. -/
def callApp (account : AccountId) (sender : Sender) (call : App.Call ch.up) : World ch :=
  if sender.deposit = 0 then { w with apps := w.apps.map (runApp account sender call) } else w

def step : SystemLabel ch → World ch
  | .chain l => w.next l
  | .app account sender call => w.callApp account sender call

/-- The world after a run of the whole system. -/
abbrev afterAll (w₀ : World ch) (Ls : List (SystemLabel ch)) : World ch :=
  Transition.run step w₀ Ls

/-! ## The apps do not show in the registrations -/

def withApps (apps : List (AccountId × App.State ch.up)) : World ch := { w with apps }

/-- The apps that a step deploys. -/
def created : WorldLabel → List (AccountId × App.State ch.up)
  | .runBatch id fault =>
      match w.batches id with
      | some deployment =>
          match w.deploy deployment fault with
          | some app => [(deployment.account, app)]
          | none => []
      | none => []
  | _ => []

theorem callKms_withApps (apps : List (AccountId × App.State ch.up)) (sender : Sender)
    (c : Kms.Call) : (w.withApps apps).callKms sender c = (w.callKms sender c).withApps apps := by
  have hcontext : (w.withApps apps).context sender = w.context sender := rfl
  by_cases hforged : w.Forged sender
  · have hforged' : (w.withApps apps).Forged sender := hforged
    rw [callKms, callKms, if_pos hforged, if_pos hforged']
  · have hforged' : ¬ (w.withApps apps).Forged sender := hforged
    rw [callKms, callKms, if_neg hforged, if_neg hforged', hcontext]
    cases hexec : Kms.exec ch.deps (w.context sender) w.kms c with
    | error e =>
        have hexec' : Kms.exec ch.deps (w.context sender) (w.withApps apps).kms c = .error e :=
          hexec
        rw [hexec']
    | ok out =>
        have hexec' : Kms.exec ch.deps (w.context sender) (w.withApps apps).kms c = .ok out := hexec
        rw [hexec']
        simp only [commit]
        cases out.promise with
        | none => rfl
        | some promise => cases promise <;> rfl

/-- A step of the chain adds the apps it deploys, and looks at none of the others. -/
theorem next_withApps (apps : List (AccountId × App.State ch.up)) (l : WorldLabel) :
    (w.withApps apps).next l = (w.next l).withApps (w.created l ++ apps) := by
  cases l with
  | call sender c => exact callKms_withApps w apps sender c
  | runBatch id fault =>
      have hdeploy : ∀ deployment, (w.withApps apps).deploy deployment fault =
          w.deploy deployment fault := fun _ => rfl
      have hbatches : (w.withApps apps).batches = w.batches := rfl
      simp only [next, runBatch, created, hbatches, hdeploy]
      cases w.batches id with
      | none => rfl
      | some deployment =>
          simp only
          cases w.deploy deployment fault <;> rfl
  | runCallback id =>
      have hcallbacks : (w.withApps apps).callbacks = w.callbacks := rfl
      simp only [next, runCallback, hcallbacks]
      cases w.callbacks id <;> rfl
  | deliverRefund id =>
      have hrefunds : (w.withApps apps).refunds = w.refunds := rfl
      simp only [next, deliverRefund, hrefunds]
      cases w.refunds id <;> rfl
  | createAccount account => rfl
  | transfer source target amount => rfl

theorem apps_next (l : WorldLabel) : (w.next l).apps = w.created l ++ w.apps :=
  congrArg World.apps (next_withApps w w.apps l)

/-- The steps of the chain in a run of the system. -/
def chainOf (Ls : List (SystemLabel ch)) : List WorldLabel :=
  Ls.filterMap fun
    | .chain l => some l
    | .app .. => none

variable {w}

/-- The same world, up to the states of the apps. -/
structure SameChain (w w' : World ch) : Prop where
  rest : w' = w.withApps w'.apps
  accounts : w'.apps.map Prod.fst = w.apps.map Prod.fst

theorem map_fst_runApp (account : AccountId) (sender : Sender) (call : App.Call ch.up)
    (apps : List (AccountId × App.State ch.up)) :
    (apps.map (runApp account sender call)).map Prod.fst = apps.map Prod.fst := by
  rw [List.map_map]
  refine List.map_congr_left ?_
  intro e _
  simp only [Function.comp_apply, runApp]
  split <;> rfl

theorem created_congr {w w' : World ch} (h : SameChain w w') (l : WorldLabel) :
    w'.created l = w.created l := by
  rw [h.rest]
  rfl

theorem sameChain_chain {w w' : World ch} (h : SameChain w w') (l : WorldLabel) :
    SameChain (w.next l) (w'.next l) where
  rest := by
    rw [apps_next w' l, created_congr h l, h.rest]
    exact next_withApps w _ l
  accounts := by
    rw [apps_next, apps_next, created_congr h l, List.map_append, List.map_append, h.accounts]

theorem sameChain_app {w w' : World ch} (h : SameChain w w') (account : AccountId)
    (sender : Sender) (call : App.Call ch.up) : SameChain (w.callApp account sender call) w' := by
  unfold callApp
  split
  · exact ⟨h.rest, h.accounts.trans (map_fst_runApp account sender call w.apps).symm⟩
  · exact h

/-- A run of the system is a run of the registrations, up to the states of the apps. -/
theorem sameChain_afterAll {w w' : World ch} (h : SameChain w w') (Ls : List (SystemLabel ch)) :
    SameChain (afterAll w Ls) (Transition.run next w' (chainOf Ls)) := by
  induction Ls generalizing w w' with
  | nil => exact h
  | cons L Ls ih =>
      cases L with
      | chain l => exact ih (sameChain_chain h l)
      | app account sender call => exact ih (sameChain_app h account sender call)

end World

end NearKms
