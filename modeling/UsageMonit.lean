import UsageMonit.Attribution.Proof.Shares
import UsageMonit.Bandwidth.Proof.Resume
import UsageMonit.Deletion.Proof.Safety
import UsageMonit.Export.Proof.FastPath
import UsageMonit.Export.Proof.Paging
import UsageMonit.Export.Proof.Preflight
import UsageMonit.FactExport.Proof.Whole
import UsageMonit.Facts.Proof.Retention
import UsageMonit.Generations.Proof.Refinement
import UsageMonit.History.Proof.Conserved
import UsageMonit.History.Proof.QuotaMerge
import UsageMonit.Ingest.Proof.Progress
import UsageMonit.Journal.Proof.Page
import UsageMonit.Pricing.Proof.Config
import UsageMonit.Pricing.Proof.Fingerprint
import UsageMonit.Replica.Proof.DigestRecords
import UsageMonit.Replica.Proof.Exact
import UsageMonit.Replica.Proof.Ranges
import UsageMonit.Replica.Proof.Tombstones
import UsageMonit.Rollout.Proof.Books
import UsageMonit.Rollout.Proof.Collect
import UsageMonit.Rollout.Proof.Nested
import UsageMonit.Rollout.Proof.RateOnly
import UsageMonit.Rollout.Proof.Tail
import UsageMonit.Scheduler.Proof.Wake
import UsageMonit.SourceExport.Proof.Coverage
import UsageMonit.SourceExport.Proof.Facts
import UsageMonit.Summary.Proof.Books
import UsageMonit.Summary.Proof.Order
import UsageMonit.Weekly.Proof.Cursor
