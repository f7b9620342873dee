/-
  KineticSdk.Context.Protected

  What a compaction keeps of a history, without budgets.

  The cut is made at or before the Nth-most-recent tool result: the anchor is at
  that result (`anchor_le`), and both later steps move it back only.  What is
  kept comes out as it was, but for the texts of oversized tool results.
-/

import KineticSdk.Context.Pairing

namespace KineticSdk
namespace Context

open Py Conversation

-- ============================================================================
-- The start of the tail
-- ============================================================================

namespace TruncateConfig

variable {cfg : TruncateConfig} {contextLimit : Option Int} {messages : List Message}

end TruncateConfig

end Context
end KineticSdk
