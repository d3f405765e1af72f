import NearKms.App.Upgrades
import NearKms.Kms.RootKey

/-!
# The TCB policy of the three admission paths

The quote verifier admits only an up-to-date platform without advisories. The KMS
contract compares the status and never reads the advisories; the app contract
reads neither.
-/

namespace NearKms

/-- What `verify_tcb_status` requires of a platform, for the one in a boot info. -/
def TcbPolicy (info : AppBootInfo) : Prop :=
  Attestation.verifyTcbStatus ⟨info.tcbStatus, info.advisoryIds, none⟩ = true

theorem tcbPolicy_iff {info : AppBootInfo} :
    TcbPolicy info ↔ info.tcbStatus = "UpToDate" ∧ info.advisoryIds = [] :=
  Attestation.verifyTcbStatus_iff

/-- Some platform is on each of the three lists of the KMS contract. -/
def AdmitsSomeKms (c : Kms.Contract) : Prop :=
  c.allowedOsImages.elements ≠ [] ∧ c.kmsAllowedAggregatedMrs.elements ≠ [] ∧
    c.kmsAllowedDeviceIds.elements ≠ []

/-- Some compose hash and some device are allowed by the app contract. -/
def AdmitsSomeApp (d : App.Contract) : Prop :=
  d.allowedComposeHashes.elements ≠ [] ∧
    (d.allowAnyDevice = true ∨ d.allowedDeviceIds.elements ≠ [])

/-- A platform that is up to date but has an advisory, with the given strings. -/
def advisedPlatform (osImageHash mrAggregated composeHash deviceId : String) : AppBootInfo where
  appId := ⟨"app.kms.near"⟩
  composeHash := composeHash
  instanceId := ⟨"instance.near"⟩
  deviceId := deviceId
  mrAggregated := mrAggregated
  mrSystem := ""
  osImageHash := osImageHash
  tcbStatus := "UpToDate"
  advisoryIds := ["INTEL-SA-00837"]

theorem not_tcbPolicy_advisedPlatform {osImageHash mrAggregated composeHash deviceId : String} :
    ¬ TcbPolicy (advisedPlatform osImageHash mrAggregated composeHash deviceId) := by
  rw [tcbPolicy_iff]
  intro h
  rcases h with ⟨-, hadvisories⟩
  cases hadvisories

/-- A list with an element has a first one. -/
theorem exists_mem_of_ne_nil {s : IterableSet String} (h : s.elements ≠ []) : ∃ x, x ∈ s := by
  rcases List.exists_mem_of_ne_nil s.elements h with ⟨x, hx⟩
  exact ⟨x, hx⟩

theorem elements_ne_nil_of_mem {s : IterableSet String} {x : String} (h : x ∈ s) :
    s.elements ≠ [] := List.ne_nil_of_mem h

/-- The KMS contract applies the policy to every boot info exactly if it admits none. -/
theorem kms_policy_iff {c : Kms.Contract} :
    (∀ info, (c.isKmsAllowed info).1 = true → TcbPolicy info) ↔ ¬ AdmitsSomeKms c := by
  constructor
  · rintro h ⟨hos, hmr, hdevice⟩
    rcases exists_mem_of_ne_nil hos with ⟨os, hos⟩
    rcases exists_mem_of_ne_nil hmr with ⟨mr, hmr⟩
    rcases exists_mem_of_ne_nil hdevice with ⟨device, hdevice⟩
    exact not_tcbPolicy_advisedPlatform (h (advisedPlatform os mr "" device)
      (Kms.Contract.isKmsAllowed_iff.2 ⟨rfl, hos, hmr, hdevice⟩))
  · intro hnone info hallowed
    rcases Kms.Contract.isKmsAllowed_iff.1 hallowed with ⟨-, hos, hmr, hdevice⟩
    exact absurd ⟨elements_ne_nil_of_mem hos, elements_ne_nil_of_mem hmr,
      elements_ne_nil_of_mem hdevice⟩ hnone

/-- So does the app contract. -/
theorem app_policy_iff {d : App.Contract} :
    (∀ info, (d.isAppAllowed info).1 = true → TcbPolicy info) ↔ ¬ AdmitsSomeApp d := by
  constructor
  · rintro h ⟨hcompose, hdevice⟩
    rcases exists_mem_of_ne_nil hcompose with ⟨compose, hcompose⟩
    -- where any device is allowed, the empty name will do
    have hadmitted : ∃ device, d.allowAnyDevice = true ∨ device ∈ d.allowedDeviceIds := by
      rcases hdevice with hany | hdevice
      · exact ⟨"", Or.inl hany⟩
      · rcases exists_mem_of_ne_nil hdevice with ⟨device, hdevice⟩
        exact ⟨device, Or.inr hdevice⟩
    rcases hadmitted with ⟨device, hdevice⟩
    exact not_tcbPolicy_advisedPlatform (h (advisedPlatform "" "" compose device)
      (App.isAppAllowed_iff.2 ⟨hcompose, hdevice⟩))
  · intro hnone info hallowed
    rcases App.isAppAllowed_iff.1 hallowed with ⟨hcompose, hdevice⟩
    exact absurd ⟨elements_ne_nil_of_mem hcompose, hdevice.imp id elements_ne_nil_of_mem⟩ hnone

/-! ## Two filled contracts -/

/-- The owner fills the three lists of the KMS contract. -/
def kmsListCalls : List Kms.Label :=
  [Kms.initCall, (Kms.callBy Kms.ownerAccount 0, .addOsImageHash "os"),
    (Kms.callBy Kms.ownerAccount 0, .addKmsAggregatedMr "mr"),
    (Kms.callBy Kms.ownerAccount 0, .addKmsDevice "device")]

/-- An app with one compose hash that may boot on any device. -/
def appInit : App.Label samplePlugin :=
  (App.ownerCall, .new { ownerId := App.appOwner, disableUpgrades := false, allowAnyDevice := true,
                         initialDeviceId := none, initialComposeHash := some "compose",
                         kmsContractId := some Kms.kmsAccount })

/-! ## The policy on admission -/

/-- In every state of the two contracts. For one boot info: admission implies the
policy exactly if the KMS contract refuses it or it has no advisories, and the
app contract refuses it or its platform is up to date without advisories. For all
boot infos at once: exactly if neither contract admits anything. -/
theorem tcb_policy_on_admission_iff (c : Kms.Contract) (d : App.Contract) :
    (∀ info, ((c.isKmsAllowed info).1 = true ∨ (d.isAppAllowed info).1 = true → TcbPolicy info) ↔
        (info.tcbStatus ≠ "UpToDate" ∨ info.osImageHash ∉ c.allowedOsImages ∨
          info.mrAggregated ∉ c.kmsAllowedAggregatedMrs ∨ info.deviceId ∉ c.kmsAllowedDeviceIds ∨
          info.advisoryIds = []) ∧
        (info.composeHash ∉ d.allowedComposeHashes ∨
          (d.allowAnyDevice = false ∧ info.deviceId ∉ d.allowedDeviceIds) ∨
          (info.tcbStatus = "UpToDate" ∧ info.advisoryIds = []))) ∧
      ((∀ info, (c.isKmsAllowed info).1 = true ∨ (d.isAppAllowed info).1 = true →
          TcbPolicy info) ↔ ¬ AdmitsSomeKms c ∧ ¬ AdmitsSomeApp d) := by
  constructor
  · intro info
    rw [Kms.Contract.isKmsAllowed_iff, App.isAppAllowed_iff, tcbPolicy_iff]
    cases d.allowAnyDevice <;> simp <;> tauto
  · rw [← kms_policy_iff, ← app_policy_iff]
    constructor
    · intro h
      exact ⟨fun info hk => h info (Or.inl hk), fun info ha => h info (Or.inr ha)⟩
    · rintro ⟨hkms, happ⟩ info (hk | ha)
      · exact hkms info hk
      · exact happ info ha

/-- In reachable states of both contracts, a platform with an advisory is admitted
by both, and one that is not even up to date by the app contract. -/
theorem advised_platform_admitted :
    (∃ c, (Transition.run (Kms.next Kms.hashing) Kms.State.deployed kmsListCalls).contract =
        some c ∧ (c.isKmsAllowed (advisedPlatform "os" "mr" "compose" "device")).1 = true) ∧
      (∃ d, (Transition.run (App.next [1]) (App.deployed [1]) [appInit]).contract = some d ∧
        (d.isAppAllowed (advisedPlatform "os" "mr" "compose" "device")).1 = true ∧
        (d.isAppAllowed { advisedPlatform "os" "mr" "compose" "device" with
          tcbStatus := "OutOfDate" }).1 = true) ∧
      ¬ TcbPolicy (advisedPlatform "os" "mr" "compose" "device") := by
  refine ⟨⟨_, rfl, ?_⟩, ⟨_, rfl, ?_, ?_⟩, not_tcbPolicy_advisedPlatform⟩
  · decide
  · decide
  · decide

end NearKms
