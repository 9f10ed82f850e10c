import UsageMonit.Domain.Time
import UsageMonit.Lib.Fallible

/-!
# The remote protocol (`remote_protocol.rs`)

The messages between a source and a center that the exporter and the ingest read: the source
identity, revisions, the cursor of the delta journal, delta requests and delta pages, with the
checks that tie a page to its request (`validateDeltaPageForRequest`).
-/

namespace Protocol

open Fallible Time

structure SourceGeneration where
  nodeId : String
  generation : Nat
deriving DecidableEq

inductive RedactionProfile
  | redacted
  | previewEnabled
deriving DecidableEq

structure ProtocolRevisions where
  historyFormat : Nat
  metric : Nat
  estimator : Nat
  projectBreakdown : Nat
  apiPricingCatalog : Nat
  modelCatalogFingerprint : String
deriving DecidableEq

structure DeltaCursor where
  generation : Nat
  sequence : Nat
deriving DecidableEq

/-- `ExportRange`, with the fields `from` and `to`. -/
structure ExportRange where
  fromTime : DateTime
  toTime : DateTime
deriving DecidableEq

structure DeltaRequest where
  deltaCursor : Option DeltaCursor
  range : ExportRange
  overlapMinutes : Nat
  includeLive : Bool
  knownLiveRevision : Option Nat
deriving DecidableEq

inductive RemoteExportRequestBody
  | delta (request : DeltaRequest)
  | other
deriving DecidableEq

/-- The request fields that the ingest checks. -/
structure RemoteExportRequest where
  protocolVersion : Nat
  expectedSource : Option SourceGeneration
  redactionProfile : RedactionProfile
  request : RemoteExportRequestBody
deriving DecidableEq

structure DeltaPage where
  generation : Nat
  fromSequence : Nat
  throughSequence : Nat
  nextDeltaCursor : DeltaCursor
  hasMore : Bool
deriving DecidableEq

def DeltaPage.validate (page : DeltaPage) : Except String Unit := do
  ensure (page.fromSequence ≤ page.throughSequence) "delta page sequence range is reversed"
  ensure (¬ ((0 < page.throughSequence ∧ page.fromSequence = 0) ∨
      (page.throughSequence = 0 ∧ page.hasMore = true)))
    "delta page zero-sequence boundary is invalid"
  ensure (page.nextDeltaCursor.generation = page.generation ∧
      page.nextDeltaCursor.sequence = page.throughSequence)
    "delta page next cursor does not match its watermark"

def validateDeltaPageForRequest (request : DeltaRequest) (page : DeltaPage) :
    Except String Unit :=
  match request.deltaCursor with
  | none => .ok ()
  | some cursor => do
    ensure (page.generation = cursor.generation ∧ cursor.sequence ≤ page.throughSequence)
      "delta response generation or watermark does not continue its request cursor"
    if page.throughSequence = cursor.sequence then
      ensure (page.fromSequence = cursor.sequence ∧ page.hasMore = false)
        "an unchanged delta response must be a final zero-progress page"
    else do
      let expectedFrom ← okOr (checkedAdd 64 cursor.sequence 1) "delta request cursor cannot advance"
      ensure (page.fromSequence = expectedFrom)
        "delta response does not begin after its request cursor"

inductive RemoteExportResponseBody (Payload : Type)
  | delta (page : DeltaPage) (payload : Payload)
  | failure
  | other
deriving DecidableEq

structure RemoteDeltaResponse (Payload : Type) where
  source : SourceGeneration
  redactionProfile : RedactionProfile
  revisions : ProtocolRevisions
  observedAt : DateTime
  result : RemoteExportResponseBody Payload
deriving DecidableEq

end Protocol
