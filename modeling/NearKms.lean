import NearKms.Lib.Transition
import NearKms.Attestation.Rtmr3
import NearKms.Attestation.Binding
import NearKms.Attestation.Interference
import NearKms.Attestation.Format
import NearKms.Kms.Step
import NearKms.Kms.View
import NearKms.Kms.TrustChain
import NearKms.Kms.Allowlist
import NearKms.Kms.Info
import NearKms.Kms.Spelling
import NearKms.Kms.Pagination
import NearKms.Kms.Delivery
import NearKms.Policy
import NearKms.Administration
import NearKms.Registration.Deposits
import NearKms.Registration.Factory
import NearKms.Registration.Completion
import NearKms.Registration.Pause
import NearKms.Kms.Answers
import NearKms.Kms.Pause
import NearKms.App.Pause
import NearKms.System.Apps
import NearKms.Kms.Admission
import NearKms.System.RootKey
import NearKms.Kms.Cleanup
import NearKms.System.Indexer
import NearKms.System.Boot
import NearKms.System.Wire
import NearKms.Kms.Upgrades
