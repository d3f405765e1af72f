import NearKms.App.Events
import NearKms.Kms.Events
import NearKms.Registration.Safety

/-!
# The administration of both contracts

Three views of what the owners do over whole runs: who may change what, which boot
requests the changes admit, and what an indexer can tell from the events alone.
-/

namespace NearKms

variable {ch : Chain} {up : Upgradable}

/-! ## Authority -/

namespace World

/-- A step of the world between two initialized states of the KMS contract, in a run
from `w₀` whose steps so far were `ls`: what the owner administers is changed by a
call of an account that holds `Owner`; the registered apps are changed by the callback
of such an account's registration; nothing else is ever changed; and a call changes at
most the one field it manages. -/
structure Authorized (w₀ : World ch) (ls : List WorldLabel) (w : World ch) (l : WorldLabel)
    (c c' : Kms.Contract) : Prop where
  administered : ∀ f : Kms.Field, f.Administered → ¬ f.Same c c' →
    ∃ sender call, l = .call sender call ∧
      w.kms.plugins.acl.hasAnyRole [Kms.Role.owner] sender.account = true
  registeredApps : c'.registeredApps ≠ c.registeredApps →
    ∃ id g, l = .runCallback id ∧ Happened (Registers id g) w₀ ls ∧
      c'.registeredApps = c.registeredApps.insert g.account
  mpcContractId : c'.mpcContractId = c.mpcContractId
  mpcDomainId : c'.mpcDomainId = c.mpcDomainId
  frame : ∀ sender call, l = .call sender call →
    ∀ f : Kms.Field, call.manages ≠ some f → f.Same c c'

/-- A step that leaves the contract alone is authorized. -/
theorem Authorized.refl {w₀ w : World ch} {ls : List WorldLabel} {l : WorldLabel}
    (c : Kms.Contract) : Authorized w₀ ls w l c c where
  administered := by
    intro f _ hchange
    exact absurd (Kms.Field.same_refl c f) hchange
  registeredApps := by
    intro hchange
    exact absurd rfl hchange
  mpcContractId := rfl
  mpcDomainId := rfl
  frame := by
    intro _ _ _ f _
    exact Kms.Field.same_refl c f

theorem authorized_call {w₀ w : World ch} {ls : List WorldLabel} {sender : Sender}
    {call : Kms.Call} {c : Kms.Contract} (hforged : ¬ w.Forged sender)
    (hsucc : Kms.Succeeds ch.deps w.kms (w.context sender, call)) :
    Authorized w₀ ls w (.call sender call) c (call.effect c) where
  administered := by
    intro f hadmin hchange
    refine ⟨sender, call, rfl, ?_⟩
    by_cases hf : call.manages = some f
    · exact Kms.owner_of_manages hsucc hf hadmin
    · exact absurd (Kms.same_effect hf c) hchange
  registeredApps := by
    intro hchange
    -- only the callback method writes them, and called directly it panics
    by_cases hf : call.manages = some .registeredApps
    · cases call with
      | onAppContractDeployed appId => exact absurd hsucc (not_succeeds_direct hforged)
      | _ => cases hf
    · exact absurd (Kms.same_effect hf c) hchange
  mpcContractId := by
    cases call <;> rfl
  mpcDomainId := by
    cases call <;> rfl
  frame := by
    intro sender' call' hl f hf
    cases hl
    exact Kms.same_effect hf c

theorem authorized_callback {w₀ w : World ch} {ls : List WorldLabel}
    (htracked : Tracked w₀ ls w) {id : Nat} {appId : AccountId} {succeeded : Bool}
    (hcallback : w.callbacks id = some (appId, succeeded)) {c : Kms.Contract}
    (hsucc : Kms.Succeeds ch.deps w.kms
      (w.callbackContext succeeded, .onAppContractDeployed appId)) :
    Authorized w₀ ls w (.runCallback id) c (Kms.Call.effect (.onAppContractDeployed appId) c) where
  administered := by
    intro f hadmin hchange
    have hf : (Kms.Call.onAppContractDeployed appId).manages ≠ some f := by
      intro hf
      exact hadmin.2.2 (Option.some.inj hf).symm
    exact absurd (Kms.same_effect hf c) hchange
  registeredApps := by
    intro _
    -- it can only succeed after its batch did, and then it answers a registration
    cases succeeded with
    | false => exact absurd hsucc not_succeeds_callback
    | true =>
        rcases htracked.callback_succeeded hcallback with ⟨g, hg, rfl, -⟩
        exact ⟨id, g, rfl, hg, rfl⟩
  mpcContractId := rfl
  mpcDomainId := rfl
  frame := by
    intro _ _ hl
    cases hl

/-- Every step of every run is authorized, in the contract it leaves behind. -/
theorem authorized_next {w₀ w : World ch} {ls : List WorldLabel} (htracked : Tracked w₀ ls w)
    (l : WorldLabel) {c : Kms.Contract} (hc : w.kms.contract = some c) :
    ∃ c', (w.next l).kms.contract = some c' ∧ Authorized w₀ ls w l c c' := by
  cases l with
  | call sender call =>
      by_cases hforged : w.Forged sender
      · refine ⟨c, ?_, Authorized.refl c⟩
        simpa only [next, callKms, if_pos hforged] using hc
      · rw [next, kms_callKms hforged]
        rcases Kms.next_cases ch.deps w.kms (w.context sender, call) with
          ⟨c₀, hc₀, hsucc, heffect⟩ | ⟨_, _, _, hnone, _⟩ | ⟨-, hsame⟩
        · rw [← Option.some.inj (hc.symm.trans hc₀)] at heffect
          exact ⟨_, heffect, authorized_call hforged hsucc⟩
        · rw [hc] at hnone
          cases hnone
        · exact ⟨c, by rw [hsame, hc], Authorized.refl c⟩
  | runBatch id fault => exact ⟨c, by rw [next, kms_runBatch, hc], Authorized.refl c⟩
  | runCallback id =>
      cases hcallback : w.callbacks id with
      | none =>
          refine ⟨c, ?_, Authorized.refl c⟩
          rw [next, runCallback, hcallback]
          exact hc
      | some message =>
          rcases message with ⟨appId, succeeded⟩
          have hkms : (w.next (.runCallback id)).kms = Kms.next ch.deps w.kms
              (w.callbackContext succeeded, .onAppContractDeployed appId) := by
            rw [next, runCallback, hcallback]
          rw [hkms]
          rcases Kms.next_cases ch.deps w.kms
              (w.callbackContext succeeded, .onAppContractDeployed appId) with
            ⟨c₀, hc₀, hsucc, heffect⟩ | ⟨_, _, _, hnone, _⟩ | ⟨-, hsame⟩
          · rw [← Option.some.inj (hc.symm.trans hc₀)] at heffect
            exact ⟨_, heffect, authorized_callback htracked hcallback hsucc⟩
          · rw [hc] at hnone
            cases hnone
          · exact ⟨c, by rw [hsame, hc], Authorized.refl c⟩
  | deliverRefund id =>
      refine ⟨c, ?_, Authorized.refl c⟩
      rw [next, deliverRefund]
      cases w.refunds id <;> exact hc
  | createAccount account => exact ⟨c, hc, Authorized.refl c⟩
  | transfer source target amount => exact ⟨c, hc, Authorized.refl c⟩

end World

namespace App

/-- The same for a call of an app contract, which has no callbacks. -/
structure Authorized (s : State up) (l : Label up) (c c' : Contract) : Prop where
  administered : ∀ f : Field, ¬ f.Same c c' →
    s.plugins.acl.hasAnyRole [Role.owner] l.1.predecessorAccountId = true
  kmsContractId : c'.kmsContractId = c.kmsContractId
  frame : ∀ f : Field, l.2.manages ≠ some f → f.Same c c'

theorem authorized_next (appCode : Bytes) {s : State up} (l : Label up) {c : Contract}
    (hc : s.contract = some c) :
    ∃ c', (next appCode s l).contract = some c' ∧ Authorized s l c c' := by
  rcases next_cases appCode s l with ⟨c₀, hc₀, hsucc, -, heffect⟩ | ⟨_, hnone, _⟩ | ⟨-, hsame⟩
  · rw [← Option.some.inj (hc.symm.trans hc₀)] at heffect
    refine ⟨_, heffect, ?_, ?_, ?_⟩
    · intro f hchange
      by_cases hf : l.2.manages = some f
      · exact owner_of_manages hsucc hf
      · exact absurd (same_effect hf c) hchange
    · cases l.2 <;> rfl
    · intro f hf
      exact same_effect hf c
  · rw [hc] at hnone
    cases hnone
  · refine ⟨c, by rw [hsame, hc], ?_, rfl, ?_⟩
    · intro f hchange
      exact absurd (Field.same_refl c f) hchange
    · intro f _
      exact Field.same_refl c f

end App

/-- In every run, every step of either contract is authorized. -/
theorem administration_authorized (kmsId : AccountId) (accounts : List AccountId)
    (ls : List WorldLabel) (appCode : Bytes) (s : App.State up)
    (ks : List (App.Label up)) :
    (∀ pre l post, ls = pre ++ l :: post →
      let w₀ : World ch := World.initial kmsId accounts
      Kms.Holds (fun c => ∃ c', (World.next (World.after w₀ pre) l).kms.contract = some c' ∧
        World.Authorized w₀ pre (World.after w₀ pre) l c c') (World.after w₀ pre).kms) ∧
      Transition.AllSteps (App.next appCode) (fun s l => App.Holds (fun c => ∃ c',
        (App.next appCode s l).contract = some c' ∧ App.Authorized s l c c') s) s ks := by
  constructor
  · intro pre l post _ w₀ c hc
    exact World.authorized_next (World.tracked_after kmsId accounts pre) l hc
  · refine Transition.allSteps_iff.2 ?_
    intro pre l post _ c hc
    exact App.authorized_next appCode l hc

/-! ## Admission -/

/-- Without an entry of the lists it asks for, the KMS refuses a boot. -/
theorem isKmsAllowed_empty (deps : Externals) (ls : List Kms.Label) {bootInfo : AppBootInfo}
    (h : bootInfo.osImageHash = "" ∨ bootInfo.mrAggregated = "" ∨ bootInfo.deviceId = "") :
    Kms.Holds (fun c => (c.isKmsAllowed bootInfo).1 = false)
      (Transition.run (Kms.next deps) Kms.State.deployed ls) := by
  intro c hc
  have hnot : ∀ list : Kms.AllowList, list ≠ .composeHashes → "" ∉ list.entries c := by
    intro list hlist hmem
    have hlast := (Kms.listed_iff_lastAdded list "" ls).1 ((Kms.listed_iff hc).2 hmem)
    exact Kms.not_lastAdded_empty hlist ls hlast
  rw [Bool.eq_false_iff, ne_eq, Kms.Contract.isKmsAllowed_iff]
  rintro ⟨-, hos, hmr, hdevice⟩
  rcases h with h | h | h
  · rw [h] at hos
    exact hnot .osImages (by decide) hos
  · rw [h] at hmr
    exact hnot .aggregatedMrs (by decide) hmr
  · rw [h] at hdevice
    exact hnot .deviceIds (by decide) hdevice

theorem isAppAllowed_empty (appCode : Bytes) (s : App.State up)
    (ks : List (App.Label up)) {bootInfo : AppBootInfo} (h : bootInfo.composeHash = "") :
    App.Holds (fun c => (c.isAppAllowed bootInfo).1 = false)
      (Transition.run (App.next appCode) (App.uninitialized s) ks) := by
  intro c hc
  rw [Bool.eq_false_iff, ne_eq]
  intro hallowed
  rcases (App.isAppAllowed_run appCode s ks bootInfo c hc).1 hallowed with ⟨hlast, -⟩
  rw [h] at hlast
  exact App.not_lastAdded_empty ks hlast

/-- In every state of every run, either contract admits a boot exactly if the calls so
far say so: each string it looks up was added, by an owner or by `new`, and not removed
since, or the device flag was last set. Empty strings are never admitted. -/
theorem admission_is_history (deps : Externals) (ls : List Kms.Label) (appCode : Bytes)
    (s : App.State up) (ks : List (App.Label up)) (bootInfo : AppBootInfo) :
    let kms := Transition.run (Kms.next deps) Kms.State.deployed ls
    let app := Transition.run (App.next appCode) (App.uninitialized s) ks
    Kms.Holds (fun c => c.isKmsAllowed bootInfo = (true, "") ↔
        bootInfo.tcbStatus = "UpToDate" ∧
          Kms.LastAdded deps .osImages bootInfo.osImageHash ls ∧
          Kms.LastAdded deps .aggregatedMrs bootInfo.mrAggregated ls ∧
          Kms.LastAdded deps .deviceIds bootInfo.deviceId ls) kms ∧
      App.Holds (fun c => (c.isAppAllowed bootInfo).1 = true ↔
        App.LastAdded appCode .composeHashes bootInfo.composeHash (App.uninitialized s) ks ∧
          (App.LastAllowsAnyDevice appCode (App.uninitialized s) ks ∨
            App.LastAdded appCode .deviceIds bootInfo.deviceId (App.uninitialized s) ks)) app ∧
      (bootInfo.osImageHash = "" ∨ bootInfo.mrAggregated = "" ∨ bootInfo.deviceId = "" →
        Kms.Holds (fun c => (c.isKmsAllowed bootInfo).1 = false) kms) ∧
      (bootInfo.composeHash = "" →
        App.Holds (fun c => (c.isAppAllowed bootInfo).1 = false) app) := by
  intro kms app
  exact ⟨Kms.isKmsAllowed_run deps ls bootInfo, App.isAppAllowed_run appCode s ks bootInfo,
    isKmsAllowed_empty deps ls, isAppAllowed_empty appCode s ks⟩

/-! ## Events -/

/-- Folding the events of the successful calls from nothing gives exactly the lists,
the gateway app and the registered apps of the KMS contract, and the lists of an app
contract, `new` included: entry by entry and in the same order. -/
theorem events_reconstruct (deps : Externals) (ls : List Kms.Label) (appCode : Bytes)
    (s : App.State up) (ks : List (App.Label up)) :
    Kms.Holds (fun c =>
        (Transition.trace (Kms.next deps) (Kms.emitted deps) Kms.State.deployed ls).foldl
          Kms.Index.apply Kms.Index.empty = Kms.Index.ofContract c)
        (Transition.run (Kms.next deps) Kms.State.deployed ls) ∧
      App.Holds (fun c =>
        (Transition.trace (App.next appCode) (App.emitted appCode) (App.uninitialized s) ks).foldl
          App.Index.apply App.Index.empty = App.Index.ofContract c)
        (Transition.run (App.next appCode) (App.uninitialized s) ks) := by
  constructor
  · intro c hc
    rw [Kms.replay_run, Kms.Index.ofState, hc]
  · intro c hc
    rw [App.replay_run, App.Index.ofState, hc]

end NearKms
