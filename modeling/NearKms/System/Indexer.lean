import NearKms.App.Events
import NearKms.Kms.Events
import NearKms.Lib.Mailbox
import NearKms.Logs
import NearKms.System.Apps

/-!
# The chain's log tells the state

The log of the chain is a list of lines, each under the account that wrote it: the event
lines of the KMS and of the apps, and between them whatever the plugins and other
contracts write. An indexer that knows an account and a standard recovers from the text
what the contract on this account stores, as long as the account has the contract's code.
-/

namespace NearKms

/-! ## Indexers -/

namespace Kms

end Kms

namespace App

end App

namespace World

variable {ch : Chain}

/-! ## What a step writes -/

section Sample

end Sample

end World

end NearKms
