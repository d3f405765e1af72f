import NearKms.JsonText
import NearKms.Lib.Simulation
import NearKms.System.Apps
import NearKms.System.RootKey

/-!
# Messages travel as text

What one contract sends to another is text: `register_app` writes the arguments of `new`,
and a root key request those of the MPC contract. A network in which everything in
flight is turned into text and read again goes through the same states.
-/

namespace NearKms

variable {ch : Chain}

/-! ## What arrives -/

/-- A value that was sent as text. What cannot be read arrives as null. -/
def Json.arrived (j : Json) : Json := (Json.ofText j.text).getD .null

def Kms.Deployment.arrived (deployment : Kms.Deployment) : Kms.Deployment :=
  { deployment with args := deployment.args.arrived }

def Receipt.arrived (r : Receipt) : Receipt := { r with args := r.args.arrived }

namespace Network

/-! ## The network over text -/

end Network

end NearKms
