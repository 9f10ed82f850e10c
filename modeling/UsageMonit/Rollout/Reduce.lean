import UsageMonit.Rollout.Plan

/-!
# Reduction of the cached files (`rollout.rs`)

The files of a scan are replayed in order into one set of threads, calls and observations, with
the warnings and resets of each file beside them. `reduceCachedFiles` starts from nothing;
`incrementallyReduceCachedFiles` keeps the threads that did not change and replays the others.
-/

namespace Rollout

open Fallible Time Usage

structure ReducedRollouts where
  threads : Map ThreadBuilder
  dataset : RolloutDataset
  replayWarnings : PathMap (List String)
  ambiguousTokenResets : PathMap Nat
  replayOrderWarnings : PathMap (List String)
  ambiguousReplayOrders : PathMap Nat
  incompleteCounterThreads : TextSet
  suppressedWarnings : Nat
  replayOrderSuppressedWarnings : Nat

def saturatingTotal (values : List Nat) : Nat := values.foldl (saturatingAdd 64) 0

/-- The number of replay warnings that were kept. -/
def ReducedRollouts.retainedWarnings (reduced : ReducedRollouts) : Nat :=
  (reduced.replayWarnings.values.map List.length).sum

def replayFileIntoReduced (env : ReplayEnv) (reduced : ReducedRollouts) (file : RolloutFile)
    (parsed : ParsedFile) (config : CollectConfig) (asOf : Option DateTime) : ReducedRollouts :=
  let incompleteCounterBoundary := parsed.ownerThreadId.any fun threadId =>
    reduced.incompleteCounterThreads.contains threadId
  let (threads, replay) := replayRolloutFile env file.path parsed config reduced.threads default
    asOf incompleteCounterBoundary
  let warnings := replay.warnings.take (rolloutMaxWarnings - 1 - reduced.retainedWarnings)
  let resets := replay.stats.ambiguousTokenResets
  { reduced with
    threads := threads
    dataset := { reduced.dataset with
      calls := reduced.dataset.calls ++ replay.calls
      rateObservations := reduced.dataset.rateObservations ++ replay.rateObservations }
    replayWarnings :=
      if warnings.isEmpty then reduced.replayWarnings
      else reduced.replayWarnings.insert file.path warnings
    ambiguousTokenResets :=
      if resets > 0 then reduced.ambiguousTokenResets.insert file.path resets
      else reduced.ambiguousTokenResets }

/-! ## Metadata -/

/-- Warnings with the number of those that were left out. -/
structure BoundedWarnings where
  retained : List String
  suppressed : Nat
deriving DecidableEq

def BoundedWarnings.push (warnings : BoundedWarnings) (warning : String) : BoundedWarnings :=
  if warnings.retained.length < rolloutMaxWarnings - 1 then
    { warnings with retained := warnings.retained ++ [warning] }
  else { warnings with suppressed := saturatingAdd 64 warnings.suppressed 1 }

def BoundedWarnings.append (warnings : BoundedWarnings) (more : List String) : BoundedWarnings :=
  more.foldl push warnings

/-- What a file adds to the statistics and warnings. -/
def addFileMetadata (reduced : ReducedRollouts) (cache : FileCache)
    (state : CollectionStats × BoundedWarnings) (file : RolloutFile) :
    CollectionStats × BoundedWarnings :=
  let stats := { state.1 with scannedFiles := state.1.scannedFiles + 1 }
  match cache[file.path]? with
  | none => (stats, state.2)
  | some cached =>
    let parsed := cached.parsed
    let warnings :=
      { state.2 with suppressed := saturatingAdd 64 state.2.suppressed parsed.suppressedWarnings }
    ({ stats with
        parsedLines := stats.parsedLines + parsed.parsedLines
        skippedLines := stats.skippedLines + parsed.skippedLines
        unreadableFiles := stats.unreadableFiles + parsed.unreadableFiles
        ambiguousTokenResets := stats.ambiguousTokenResets +
          reduced.ambiguousTokenResets[file.path]?.getD 0 +
          reduced.ambiguousReplayOrders[file.path]?.getD 0 },
      ((warnings.append parsed.warnings).append (reduced.replayWarnings[file.path]?.getD [])).append
        (reduced.replayOrderWarnings[file.path]?.getD []))

def rebuildReducedMetadata (reduced : ReducedRollouts) (files : List RolloutFile)
    (cache : FileCache) : ReducedRollouts :=
  let totalReplayWarnings := saturatingTotal reduced.ambiguousTokenResets.values
  let retainedReplayWarnings := saturatingTotal (reduced.replayWarnings.values.map List.length)
  let suppressed := saturatingAdd 64 reduced.replayOrderSuppressedWarnings
    (totalReplayWarnings - retainedReplayWarnings)
  let (stats, warnings) := files.foldl (addFileMetadata reduced cache) (default, ⟨[], suppressed⟩)
  { reduced with
    dataset := { reduced.dataset with stats := stats, warnings := warnings.retained }
    suppressedWarnings := warnings.suppressed }

/-! ## From nothing -/

def ReducedRollouts.new (plan : ReplayPlan) : ReducedRollouts where
  threads := ∅
  dataset := default
  replayWarnings := ∅
  ambiguousTokenResets := ∅
  replayOrderWarnings := plan.replayOrderWarnings
  ambiguousReplayOrders := plan.ambiguousReplayOrders
  incompleteCounterThreads := plan.incompleteCounterThreads
  suppressedWarnings := 0
  replayOrderSuppressedWarnings := plan.suppressedWarnings

def reduceFile (env : ReplayEnv) (files : List RolloutFile) (cache : FileCache)
    (config : CollectConfig) (asOf : Option DateTime) (reduced : ReducedRollouts)
    (file : RolloutFile) : ReducedRollouts :=
  match cache[file.path]? with
  | none => reduced
  | some cached =>
    if archivedRolloutIsSubsumedByActiveAsOf file cached.parsed files cache config asOf then reduced
    else replayFileIntoReduced env reduced file cached.parsed config asOf

def reduceCachedFilesInner (env : ReplayEnv) (files : List RolloutFile) (cache : FileCache)
    (config : CollectConfig) (plan : ReplayPlan) (asOf : Option DateTime) : ReducedRollouts :=
  rebuildReducedMetadata (files.foldl (reduceFile env files cache config asOf) (.new plan)) files
    cache

def reduceCachedFiles (env : ReplayEnv) (files : List RolloutFile) (cache : FileCache)
    (config : CollectConfig) (plan : ReplayPlan) : ReducedRollouts :=
  reduceCachedFilesInner env files cache config plan none

def reduceCachedFilesAsOf (env : ReplayEnv) (files : List RolloutFile) (cache : FileCache)
    (config : CollectConfig) (plan : ReplayPlan) (asOf : DateTime) : ReducedRollouts :=
  reduceCachedFilesInner env files cache config plan (some asOf)

/-! ## Incrementally -/

def replayWarningsAreTruncated (reduced : ReducedRollouts) : Bool :=
  saturatingTotal reduced.ambiguousTokenResets.values >
    saturatingTotal (reduced.replayWarnings.values.map List.length)

structure SelectedFile where
  path : Path
  fingerprint : FileFingerprint
deriving DecidableEq

def ownerOf (cache : FileCache) (path : Path) : Option String :=
  cache[path]?.bind fun cached => cached.parsed.ownerThreadId

def pathsByThread (cache : FileCache) (selected : List SelectedFile) : Map (List Path) :=
  selected.foldl (fun paths file =>
    match ownerOf cache file.path with
    | none => paths
    | some threadId => paths.insert threadId (paths[threadId]?.getD [] ++ [file.path])) ∅

/-- The threads whose files are others or in another order. -/
def threadsWithChangedFileOrder (previous current : List SelectedFile) (cache : FileCache) :
    List String :=
  let previousPaths := pathsByThread cache previous
  let currentPaths := pathsByThread cache current
  (previousPaths.keys ++ currentPaths.keys).filter fun threadId =>
    previousPaths[threadId]? ≠ currentPaths[threadId]?

/-- Whether a file's own evidence can be kept: it is still selected and nothing about it changed. -/
def keepsEvidence (changedThreadIds : TextSet) (changedPaths : List Path)
    (files : List RolloutFile) (cache : FileCache) (path : Path) : Bool :=
  !changedPaths.contains path && (files.map RolloutFile.path).contains path &&
    (ownerOf cache path).all fun threadId => !changedThreadIds.contains threadId

/-- What is left of a reduction when the changed threads and files are taken out. -/
def ReducedRollouts.withoutChanged (reduced : ReducedRollouts) (changedThreadIds : TextSet)
    (changedPaths : List Path) (files : List RolloutFile) (cache : FileCache)
    (plan : ReplayPlan) : ReducedRollouts :=
  { reduced with
    threads := reduced.threads.filter fun threadId _ => !changedThreadIds.contains threadId
    dataset := { reduced.dataset with
      calls := reduced.dataset.calls.filter fun call => !changedThreadIds.contains call.threadId
      rateObservations := reduced.dataset.rateObservations.filter fun observation =>
        !changedThreadIds.contains observation.threadId }
    replayWarnings := reduced.replayWarnings.filter fun path _ =>
      keepsEvidence changedThreadIds changedPaths files cache path
    ambiguousTokenResets := reduced.ambiguousTokenResets.filter fun path _ =>
      keepsEvidence changedThreadIds changedPaths files cache path
    incompleteCounterThreads := plan.incompleteCounterThreads
    replayOrderWarnings := plan.replayOrderWarnings
    ambiguousReplayOrders := plan.ambiguousReplayOrders
    replayOrderSuppressedWarnings := plan.suppressedWarnings }

def reduceChangedFile (env : ReplayEnv) (changedThreadIds : TextSet) (changedPaths : List Path)
    (files : List RolloutFile) (cache : FileCache) (config : CollectConfig)
    (reduced : ReducedRollouts) (file : RolloutFile) : ReducedRollouts :=
  match cache[file.path]? with
  | none => reduced
  | some cached =>
    let ownerChanged := cached.parsed.ownerThreadId.any fun threadId =>
      changedThreadIds.contains threadId
    if (!changedPaths.contains file.path && !ownerChanged) ||
        archivedRolloutIsSubsumedByActive file cached.parsed files cache config then reduced
    else replayFileIntoReduced env reduced file cached.parsed config none

def incrementallyReduceCachedFiles (env : ReplayEnv) (reduced : ReducedRollouts)
    (changedThreadIds : TextSet) (changedPaths : List Path) (files : List RolloutFile)
    (cache : FileCache) (config : CollectConfig) (plan : ReplayPlan) : ReducedRollouts :=
  let kept := reduced.withoutChanged changedThreadIds changedPaths files cache plan
  rebuildReducedMetadata
    (files.foldl (reduceChangedFile env changedThreadIds changedPaths files cache config) kept)
    files cache

end Rollout
