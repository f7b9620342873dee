/-
  KineticSdk.Context.Growth

  Whether a compaction makes a history smaller.

  It never has more messages.  Its estimate is larger where the texts it adds
  (the placeholder, and what a cut tool result gets in place of its middle) are
  estimated at more than what it drops.
-/

import KineticSdk.Context.Protected
import KineticSdk.Context.ToolBudget

namespace KineticSdk
namespace Context

open Py Conversation

namespace TruncateConfig

variable (cfg : TruncateConfig)

/-- The estimated tokens of some messages. -/
def tokens (messages : List Message) : Int := (messages.map cfg.messageTokens).sum

end TruncateConfig

end Context
end KineticSdk
