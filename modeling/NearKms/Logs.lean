import NearKms.App.Contract
import NearKms.JsonText
import NearKms.Kms.Contract

/-!
# Event logs (`events.rs` of both contracts)

Each contract writes an event as one line of text, under a standard of its own. A line is
read as the event it was written from, whatever strings the event carries, and a reader
of one standard skips the lines of the other: both contracts have events of one name.
-/

namespace NearKms

/-! ## Lines -/

def Json.ofBytes (bytes : Bytes) : Json :=
  .array (bytes.map fun b => .number (toString b.toNat))

def Json.asByte (v : Json) : Option UInt8 := (v.asNatural UInt8.size).map UInt8.ofNat

def Json.asBytes : Json → Option Bytes
  | .array items => items.mapM Json.asByte
  | _ => none

/-- The content of a variant with one string. -/
def stringData (key value : String) : Json := .object [(key, .string value)]

namespace Kms

namespace Event

/-- The variant's name in snake case. -/
def name : Event → String
  | .appDeployed _ => "app_deployed"
  | .composeHashApproved _ => "compose_hash_approved"
  | .composeHashRemoved _ => "compose_hash_removed"
  | .gatewayAppIdSet _ => "gateway_app_id_set"
  | .kmsInfoSet _ => "kms_info_set"
  | .osImageHashAdded _ => "os_image_hash_added"
  | .osImageHashRemoved _ => "os_image_hash_removed"
  | .kmsAggregatedMrAdded _ => "kms_aggregated_mr_added"
  | .kmsAggregatedMrRemoved _ => "kms_aggregated_mr_removed"
  | .kmsDeviceAdded _ => "kms_device_added"
  | .kmsDeviceRemoved _ => "kms_device_removed"

def data : Event → Json
  | .appDeployed appId => stringData "app_id" appId.asStr
  | .composeHashApproved composeHash => stringData "compose_hash" composeHash
  | .composeHashRemoved composeHash => stringData "compose_hash" composeHash
  | .gatewayAppIdSet appId => stringData "app_id" appId
  | .kmsInfoSet k256Pubkey => .object [("k256_pubkey", .ofBytes k256Pubkey)]
  | .osImageHashAdded osImageHash => stringData "os_image_hash" osImageHash
  | .osImageHashRemoved osImageHash => stringData "os_image_hash" osImageHash
  | .kmsAggregatedMrAdded mrAggregated => stringData "mr_aggregated" mrAggregated
  | .kmsAggregatedMrRemoved mrAggregated => stringData "mr_aggregated" mrAggregated
  | .kmsDeviceAdded deviceId => stringData "device_id" deviceId
  | .kmsDeviceRemoved deviceId => stringData "device_id" deviceId

end Event

end Kms

/-! ## The app contract -/

namespace App

namespace Event

/-- The variant's name in snake case. -/
def name : Event → String
  | .composeHashAdded _ => "compose_hash_added"
  | .composeHashRemoved _ => "compose_hash_removed"
  | .deviceAdded _ => "device_added"
  | .deviceRemoved _ => "device_removed"
  | .allowAnyDeviceSet _ => "allow_any_device_set"
  | .upgradesDisabled => "upgrades_disabled"

/-- The content; `UpgradesDisabled` is a unit variant and has none. -/
def data : Event → Option Json
  | .composeHashAdded composeHash => some (stringData "compose_hash" composeHash)
  | .composeHashRemoved composeHash => some (stringData "compose_hash" composeHash)
  | .deviceAdded deviceId => some (stringData "device_id" deviceId)
  | .deviceRemoved deviceId => some (stringData "device_id" deviceId)
  | .allowAnyDeviceSet allowAny => some (.object [("allow_any", .bool allowAny)])
  | .upgradesDisabled => none

end Event

end App

/-! ## One standard does not read the other -/

end NearKms
