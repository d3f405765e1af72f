import NearKms.Kms.Contract

/-!
# View methods of the KMS contract (`kms/src/view.rs`)
-/

namespace NearKms.Kms

namespace Contract

variable (c : Contract)

def isAppRegistered (appId : AccountId) : Bool := c.registeredApps.contains appId

/-- A page of the registered apps. -/
def getRegisteredApps (offset limit : UInt32) : List AccountId :=
  (c.registeredApps.elements.drop offset.toNat).take limit.toNat

def getGatewayAppId : Option String := c.gatewayAppId

def getKmsInfo : Option KmsInfo := c.kmsInfo

def getAllowedOsImages : List String := c.allowedOsImages.elements

def getKmsAllowedAggregatedMrs : List String := c.kmsAllowedAggregatedMrs.elements

def getKmsAllowedDeviceIds : List String := c.kmsAllowedDeviceIds.elements

def getKmsAllowedComposeHashes : List String := c.kmsAllowedComposeHashes.elements

def isOsImageAllowed (osImageHash : String) : Bool := c.allowedOsImages.contains osImageHash

def isKmsAggregatedMrAllowed (mrAggregated : String) : Bool :=
  c.kmsAllowedAggregatedMrs.contains mrAggregated

def isKmsDeviceAllowed (deviceId : String) : Bool := c.kmsAllowedDeviceIds.contains deviceId

def isKmsComposeHashAllowed (composeHash : String) : Bool :=
  c.kmsAllowedComposeHashes.contains composeHash

/-- Whether a KMS may boot, and why not. Of the boot info, the status and three
strings are looked at; the advisories are not. -/
def isKmsAllowed (bootInfo : AppBootInfo) : Bool × String :=
  if bootInfo.tcbStatus ≠ "UpToDate" then (false, "TCB status is not up to date")
  else if ¬ c.allowedOsImages.contains bootInfo.osImageHash then
    (false, "OS image is not allowed")
  else if ¬ c.kmsAllowedAggregatedMrs.contains bootInfo.mrAggregated then
    (false, "Aggregated MR not allowed")
  else if ¬ c.kmsAllowedDeviceIds.contains bootInfo.deviceId then
    (false, "KMS is not allowed to boot on this device")
  else (true, "")

theorem isKmsAllowed_iff {c : Contract} {bootInfo : AppBootInfo} :
    (c.isKmsAllowed bootInfo).1 = true ↔
      bootInfo.tcbStatus = "UpToDate" ∧ bootInfo.osImageHash ∈ c.allowedOsImages ∧
        bootInfo.mrAggregated ∈ c.kmsAllowedAggregatedMrs ∧
        bootInfo.deviceId ∈ c.kmsAllowedDeviceIds := by
  unfold isKmsAllowed
  split_ifs <;> simp_all

/-- A refusal always says why, and an admission never does. -/
theorem isKmsAllowed_message {c : Contract} {bootInfo : AppBootInfo} :
    (c.isKmsAllowed bootInfo).2 = "" ↔ (c.isKmsAllowed bootInfo).1 = true := by
  unfold isKmsAllowed
  split_ifs <;> simp

end Contract

end NearKms.Kms
