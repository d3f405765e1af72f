import NearKms.System.Apps

/-!
# Which apps may boot

Whether a deployed app may boot goes back to two things: the arguments that the owner of
the KMS passed to `register_app`, and what the owner of the app has called since. A list
says of a string what the last call that named it said, or else the arguments.
-/

namespace NearKms

variable {ch : Chain}

namespace App

variable {up : Upgradable}

/-- The string is on the list by the calls `ls`, or by the argument if none names it. -/
def AddedSince (appCode : Bytes) (list : AllowList) (initial : Option String) (x : String)
    (s : State up) (ls : List (Label up)) : Prop :=
  LastAdded appCode list x s ls ∨
    (initial = some x ∧
      Transition.AllSteps (next appCode) (fun s l => ¬ Names appCode list x s l) s ls)

/-- Any device is allowed by the calls `ls`, or by the argument if none sets the flag. -/
def AnyDeviceSince (appCode : Bytes) (initial : Bool) (s : State up) (ls : List (Label up)) :
    Prop :=
  LastAllowsAnyDevice appCode s ls ∨
    (initial = true ∧
      Transition.AllSteps (next appCode) (fun s l => ¬ SetsFlag appCode s l) s ls)

/-- App admission after calls of an app that `new` has just initialized. -/
theorem isAppAllowed_since (appCode : Bytes) {s : State up} {args : NewArgs}
    (hs : s.contract = some args.contract) (ls : List (Label up)) {c : Contract}
    (hc : (Transition.run (next appCode) s ls).contract = some c) (bootInfo : AppBootInfo) :
    (c.isAppAllowed bootInfo).1 = true ↔
      AddedSince appCode .composeHashes args.initialComposeHash bootInfo.composeHash s ls ∧
        (AnyDeviceSince appCode args.allowAnyDevice s ls ∨
          AddedSince appCode .deviceIds args.initialDeviceId bootInfo.deviceId s ls) := by
  have hlisted : ∀ (list : AllowList) x, x ∈ list.entries c ↔
      AddedSince appCode list (list.initial args) x s ls := by
    intro list x
    have hinitial : Listed list x s ↔ list.initial args = some x := by
      rw [listed_iff hs, AllowList.mem_entries_contract]
    have hrun : Listed list x (Transition.run (next appCode) s ls) ↔
        LastAdded appCode list x s ls ∨ (Listed list x s ∧
          Transition.AllSteps (next appCode) (fun s l => ¬ Names appCode list x s l) s ls) :=
      Transition.iff_lastHas_or (fun _ _ => listed_next_of_names)
        (fun _ _ => listed_next_of_not_names) s ls
    rw [← listed_iff hc, hrun, hinitial, AddedSince]
  have hany : c.allowAnyDevice = true ↔
      AnyDeviceSince appCode args.allowAnyDevice s ls := by
    have hinitial : AnyDevice s ↔ args.allowAnyDevice = true := anyDevice_iff hs
    have hrun : AnyDevice (Transition.run (next appCode) s ls) ↔
        LastAllowsAnyDevice appCode s ls ∨ (AnyDevice s ∧
          Transition.AllSteps (next appCode) (fun s l => ¬ SetsFlag appCode s l) s ls) :=
      Transition.iff_lastHas_or (fun _ _ => anyDevice_next_of_setsFlag)
        (fun _ _ => anyDevice_next_of_not_setsFlag) s ls
    rw [← anyDevice_iff hc, hrun, hinitial, AnyDeviceSince]
  rw [isAppAllowed_iff, hany]
  exact and_congr (hlisted .composeHashes bootInfo.composeHash)
    (or_congr_right (hlisted .deviceIds bootInfo.deviceId))

end App

namespace World

theorem contract_firstCall {kmsId account : AccountId} {args : Kms.RegisterAppArgs}
    (h : FirstCallSucceeds ch kmsId account args) :
    (App.next ch.appCode (freshApp : App.State ch.up) (firstCall kmsId account args)).contract =
      some (newArgsOf args kmsId).contract := by
  rcases App.next_cases ch.appCode (freshApp : App.State ch.up) (firstCall kmsId account args) with
    ⟨c, hc, _⟩ | ⟨newArgs, _, _, hcall, hinit⟩ | ⟨hfails | hreceipt, _⟩
  · cases hc
  · obtain rfl : newArgsOf args kmsId = newArgs := App.Call.new.inj hcall
    exact hinit
  · exact absurd h hfails
  · cases hreceipt

/-- In every run of the system a deployed app goes back to an owner's `register_app`, and
as long as its account has the app's code it may boot exactly if its compose hash, and its
device or the device flag, are allowed by the calls addressed to this app since its
deployment, or by the arguments of `register_app` where no call has named them. -/
theorem apps_boot_by_their_own_history (kmsId : AccountId) (accounts : List AccountId)
    (Ls : List (SystemLabel ch)) (account : AccountId) (s : App.State ch.up)
    (hmem : (account, s) ∈ (afterAll (initial kmsId accounts : World ch) Ls).apps) :
    ∃ args pre L post c, Ls = pre ++ L :: post ∧
      Transition.Occurs step (Asks args account) (initial kmsId accounts) pre ∧
      Creates account (afterAll (initial kmsId accounts) pre) L ∧ s.contract = some c ∧
      ∀ bootInfo, (c.isAppAllowed bootInfo).1 = true ↔
        let s₁ : App.State ch.up := App.next ch.appCode freshApp (firstCall kmsId account args)
        App.AddedSince ch.appCode .composeHashes args.initialComposeHash bootInfo.composeHash s₁
            (callsTo account post) ∧
          (App.AnyDeviceSince ch.appCode args.allowAnyDevice s₁ (callsTo account post) ∨
            App.AddedSince ch.appCode .deviceIds args.initialDeviceId bootInfo.deviceId s₁
              (callsTo account post)) := by
  have halone := (founded_afterAll kmsId accounts Ls).apps account s hmem
  rw [kmsId_afterAll] at halone
  rcases halone.belongsTo with ⟨c, hc, -⟩
  rcases halone with ⟨args, pre, L, post, hLs, hcreates, hasks, hfirst, rfl⟩
  refine ⟨args, pre, L, post, c, hLs, hasks, hcreates, hc, ?_⟩
  intro bootInfo
  exact App.isAppAllowed_since ch.appCode (contract_firstCall hfirst) _ hc bootInfo

/-- The app of the sample, after its owner has called it. -/
theorem apps_boot_by_their_own_history_sample :
    ∃ s c args, ∃ post : List (SystemLabel sampleChain),
      (sampleAccount, s) ∈ (afterAll sampleWorld calledRun).apps ∧ s.contract = some c ∧
        ∀ bootInfo, (c.isAppAllowed bootInfo).1 = true →
          App.AddedSince sampleChain.appCode .composeHashes args.initialComposeHash
            bootInfo.composeHash (App.next sampleChain.appCode freshApp
              (firstCall Kms.kmsAccount sampleAccount args)) (callsTo sampleAccount post) := by
  rcases hosted_calledRun with ⟨s, hs⟩
  rcases apps_boot_by_their_own_history Kms.kmsAccount [Kms.kmsAccount, Kms.ownerAccount] calledRun
    sampleAccount s hs with ⟨args, pre, L, post, c, -, -, -, hc, hboot⟩
  refine ⟨s, c, args, post, hs, hc, ?_⟩
  intro bootInfo hallowed
  exact ((hboot bootInfo).1 hallowed).1

end World

end NearKms
