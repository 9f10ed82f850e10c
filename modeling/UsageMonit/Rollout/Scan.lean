import UsageMonit.Deletion.Overlay
import UsageMonit.Rollout.Materialize

/-!
# Scans (`RolloutCache`, `rollout.rs`)

A scan refreshes the parsed files that changed, reduces them, and returns a dataset when something
that can be seen has changed. `refreshFiles` is the parse loop, `reduceScan` the detection of
changes with the reduction, and `scanInner` the whole scan with its decision whether to
materialise.

A scan is a function of the cache and of what it finds outside: the selected files, the entries of
the persistent cache, the results of parsing, the session index and the ledger. A scan that fails
keeps what it had changed in the cache before it failed.
-/

namespace Rollout

open Time Usage

/-! ## The cache -/

structure CacheKey where
  codexHome : Path
  redactContent : Bool
deriving DecidableEq

def CollectConfig.key (config : CollectConfig) : CacheKey := ⟨config.codexHome, config.redactContent⟩

inductive SessionTitleState
  | unknown
  | missing
  | loaded (fingerprint : FileFingerprint)
deriving DecidableEq

structure SessionTitleCache where
  state : SessionTitleState
  titles : Map String
  materializedAt : Option DateTime
  nextUpdateAt : Option DateTime

def SessionTitleCache.new : SessionTitleCache := ⟨.unknown, ∅, none, none⟩

structure RolloutCache where
  key : Option CacheKey
  files : FileCache
  selected : List SelectedFile
  reduced : Option ReducedRollouts
  sessionTitles : SessionTitleCache
  lastMaterializedAt : Option DateTime
  lastMaterializedActiveGrace : Option Duration
  nextFreshnessDeadline : Option DateTime
  nextAsOfEvidenceBoundary : Option DateTime
  asOfReduced : Option ReducedRollouts
  lastExternalMaterializedAt : Option DateTime
  nextExternalEvidenceBoundary : Option DateTime
  lastDiscovery : Option DiscoveryState
  discoveryCache : Option DiscoveryCache
  omittedOwnerProbes : PathMap CachedOwnerProbe
  localCoverageStartedAt : Option DateTime
  localCoverageLastCompleteAt : Option DateTime
  materializationPending : Bool
  deletedLedgerFingerprint : Option String

def RolloutCache.new : RolloutCache where
  key := none
  files := ∅
  selected := []
  reduced := none
  sessionTitles := .new
  lastMaterializedAt := none
  lastMaterializedActiveGrace := none
  nextFreshnessDeadline := none
  nextAsOfEvidenceBoundary := none
  asOfReduced := none
  lastExternalMaterializedAt := none
  nextExternalEvidenceBoundary := none
  lastDiscovery := none
  discoveryCache := none
  omittedOwnerProbes := ∅
  localCoverageStartedAt := none
  localCoverageLastCompleteAt := none
  materializationPending := false
  deletedLedgerFingerprint := none

/-- The parsed files of a cache, for a scan of another selection. -/
def forkForHistoryScan (cache : RolloutCache) : RolloutCache :=
  { RolloutCache.new with key := cache.key, files := cache.files }

def invalidateAfterSessionMutation (cache : RolloutCache) : RolloutCache :=
  { cache with
    discoveryCache := none
    lastDiscovery := none
    lastMaterializedAt := none
    materializationPending := true }

def setExternalBoundary (cache : RolloutCache) (now : DateTime)
    (nextExternalBoundary : Option DateTime) : RolloutCache :=
  { cache with
    lastExternalMaterializedAt := some now
    nextExternalEvidenceBoundary := nextExternalBoundary }

/-- `chrono::Duration::try_days` of a lookback. -/
def lookback (lookbackDays : Int) : Option Duration :=
  if max lookbackDays 0 ≤ 106751991167 then some (days (max lookbackDays 0)) else none

def coverageIsContinuous (cache : RolloutCache) (discovery : DiscoveryCache) (now : DateTime) :
    Bool :=
  cache.localCoverageLastCompleteAt.any fun lastCompleteAt =>
    lastCompleteAt ≤ now &&
      (lookback discovery.lookbackDays).all fun lookback => now - lastCompleteAt ≤ lookback

def updateLocalCoverage (cache : RolloutCache) (now : DateTime) (complete : Bool) : RolloutCache :=
  match cache.discoveryCache.filter fun discovery => complete && discovery.complete with
  | none => { cache with localCoverageStartedAt := none, localCoverageLastCompleteAt := none }
  | some discovery =>
    { cache with
      localCoverageStartedAt :=
        if coverageIsContinuous cache discovery now then cache.localCoverageStartedAt else some now
      localCoverageLastCompleteAt := some now }

/-! ## What a scan finds -/

structure LoadedThreadTitles where
  titles : Map String
  nextUpdateAt : Option DateTime

inductive TitleIndex
  | missing
  | uninspectable (error : String)
  | unfingerprintable (error : String)
  | found (fingerprint : FileFingerprint) (loaded : Except String LoadedThreadTitles)

structure ScanInput where
  config : CollectConfig
  now : DateTime
  forceMaterialize : Bool
  coalesceMaterialization : Bool
  nextExternalBoundary : Option DateTime
  /-- The selected files by path; they come from an inventory with one entry for each path. -/
  files : List RolloutFile
  files_nodup : (files.map RolloutFile.path).Nodup
  discovery : DiscoveryState
  discoveryCache : DiscoveryCache
  titleIndex : TitleIndex
  /-- The entry of the persistent cache that fits a file, or its beginning. -/
  loadPersistentFile : RolloutFile → Option CachedFile
  /-- The parse of a file, which may continue a previous one. -/
  refreshStableRolloutFile : RolloutFile → Option CachedFile → CachedFile
  probeOwner : RolloutFile → OwnerProbe
  ledgerFingerprint : Except String (Option String)
  deletedSessions : Except String (List Deletion.DeletedSessionRecord)

/-- What a scan takes from other crates. -/
structure ScanEnv where
  replay : ReplayEnv
  ledger : Deletion.LedgerEnv

/-! ## Session titles -/

def sessionIndexPath (config : CollectConfig) : Path := config.codexHome.join "session_index.jsonl"

def pushDiscoveryWarning (discovery : DiscoveryState) (warning : String) : DiscoveryState :=
  let warnings := BoundedWarnings.push ⟨discovery.warnings, discovery.suppressedWarnings⟩ warning
  { discovery with warnings := warnings.retained, suppressedWarnings := warnings.suppressed }

def timelineChanged (titles : SessionTitleCache) (now : DateTime) : Bool :=
  (titles.materializedAt.all fun materializedAt => materializedAt > now) ||
    titles.nextUpdateAt.any fun boundary =>
      titles.materializedAt.any fun materializedAt => materializedAt < boundary && boundary ≤ now

/-- The titles, what the index adds to the discovery, and whether the titles were reused. -/
structure RefreshedTitles where
  titles : SessionTitleCache
  discovery : DiscoveryState
  reused : Bool

def refreshSessionTitles (titles : SessionTitleCache) (input : ScanInput) : RefreshedTitles :=
  let unavailable (warning : String) : RefreshedTitles :=
    ⟨.new, pushDiscoveryWarning input.discovery ("session title index unavailable: " ++ warning),
      false⟩
  let path := (sessionIndexPath input.config).display
  if input.config.redactContent then ⟨.new, input.discovery, false⟩
  else
    match input.titleIndex with
    | .missing =>
      ⟨{ (if titles.state = .missing then titles
          else { titles with state := .missing, titles := ∅, nextUpdateAt := none }) with
          materializedAt := some input.now },
        input.discovery, titles.state = .missing⟩
    | .uninspectable error => unavailable ("could not inspect " ++ path ++ ": " ++ error)
    | .unfingerprintable error => unavailable ("could not fingerprint " ++ path ++ ": " ++ error)
    | .found fingerprint loaded =>
      if !timelineChanged titles input.now && titles.state = .loaded fingerprint then
        ⟨titles, input.discovery, true⟩
      else
        match loaded with
        | .error error => unavailable error
        | .ok loaded =>
          ⟨⟨.loaded fingerprint, loaded.titles, some input.now, loaded.nextUpdateAt⟩,
            input.discovery, false⟩

/-! ## The parse loop -/

def loadFile (input : ScanInput) (files : FileCache) (file : RolloutFile) : FileCache :=
  if files.contains file.path then files
  else
    match input.loadPersistentFile file with
    | some cached => files.insert file.path cached
    | none => files

/-- The files in the loop, with the threads and paths that changed. -/
structure RefreshedFiles where
  files : FileCache
  changedThreadIds : TextSet
  changedPaths : List Path
  reparsedFiles : Nat

def isReusable (files : FileCache) (file : RolloutFile) : Bool :=
  files[file.path]?.any fun cached => cached.fingerprint = file.fingerprint && cached.parsed.complete

def insertOwner (threadIds : TextSet) (owner : Option String) : TextSet :=
  match owner with
  | some threadId => threadIds.insert threadId
  | none => threadIds

def refreshFile (input : ScanInput) (state : RefreshedFiles) (file : RolloutFile) :
    RefreshedFiles :=
  if isReusable state.files file then state
  else
    let previous := state.files[file.path]?
    let cached := input.refreshStableRolloutFile file previous
    { files := state.files.insert file.path cached
      changedThreadIds := insertOwner
        (insertOwner state.changedThreadIds (previous.bind fun cached => cached.parsed.ownerThreadId))
        cached.parsed.ownerThreadId
      changedPaths := state.changedPaths ++ [file.path]
      reparsedFiles := state.reparsedFiles + 1 }

def refreshFiles (files : FileCache) (input : ScanInput) : RefreshedFiles :=
  input.files.foldl (refreshFile input) ⟨input.files.foldl (loadFile input) files, ∅, [], 0⟩

/-! ## Detection of changes -/

def selectFiles (files : List RolloutFile) (cache : FileCache) : List SelectedFile :=
  files.filterMap fun file => cache[file.path]?.map fun cached => ⟨file.path, cached.fingerprint⟩

/-- Whether a file is not among others, or with another fingerprint. -/
def differsFrom (others : List SelectedFile) (file : SelectedFile) : Bool :=
  (others.find? fun other => other.path = file.path).all fun other =>
    other.fingerprint ≠ file.fingerprint

/-- The files whose selection changed: the previous ones, then the current ones. -/
def changedSelection (previous current : List SelectedFile) : List Path :=
  ((previous.filter (differsFrom current)) ++ (current.filter (differsFrom previous))).map
    SelectedFile.path

def insertOwners (threadIds : TextSet) (cache : FileCache) (paths : List Path) : TextSet :=
  paths.foldl (fun threadIds path => insertOwner threadIds (ownerOf cache path)) threadIds

def replayPlanChanged (reduced : ReducedRollouts) (plan : ReplayPlan) : Bool :=
  reduced.incompleteCounterThreads ≠ plan.incompleteCounterThreads ||
    reduced.replayOrderWarnings ≠ plan.replayOrderWarnings ||
    reduced.ambiguousReplayOrders ≠ plan.ambiguousReplayOrders ||
    reduced.replayOrderSuppressedWarnings ≠ plan.suppressedWarnings

def symmetricDifference (a b : TextSet) : List String :=
  (a.toList.filter fun x => !b.contains x) ++ b.toList.filter fun x => !a.contains x

/-- The threads that a change of the plan concerns. -/
def insertPlanChanges (threadIds : TextSet) (cache : FileCache) (reduced : ReducedRollouts)
    (plan : ReplayPlan) : TextSet :=
  if replayPlanChanged reduced plan then
    insertOwners
      (threadIds.insertMany
        (symmetricDifference reduced.incompleteCounterThreads plan.incompleteCounterThreads))
      cache (reduced.replayOrderWarnings.keys ++ plan.replayOrderWarnings.keys)
  else threadIds

/-- A reduction of the files of a scan, with what it was made from. -/
structure Reduction where
  /-- The files in replay order. -/
  files : List RolloutFile
  cache : FileCache
  plan : ReplayPlan
  ownerProbes : PathMap CachedOwnerProbe
  selected : List SelectedFile
  reduced : ReducedRollouts
  rebuilt : Bool

/-- The threads whose reduction does not stand any more. -/
def changedThreads (cache : RolloutCache) (refreshed : RefreshedFiles)
    (selected : List SelectedFile) (plan : ReplayPlan) (reduced : ReducedRollouts) : TextSet :=
  let selection := changedSelection cache.selected selected
  let threadIds := insertOwners refreshed.changedThreadIds refreshed.files selection
  let threadIds := threadIds.insertMany
    (threadsWithChangedFileOrder cache.selected selected refreshed.files)
  insertPlanChanges threadIds refreshed.files reduced plan

/-- The reduction of changed files, from nothing when its warnings are truncated. -/
def reduceIncrementally (env : ScanEnv) (cache : RolloutCache) (refreshed : RefreshedFiles)
    (files : List RolloutFile) (selected : List SelectedFile) (config : CollectConfig)
    (plan : ReplayPlan) (reduced : ReducedRollouts) : ReducedRollouts :=
  let incremental := incrementallyReduceCachedFiles env.replay reduced
    (changedThreads cache refreshed selected plan reduced)
    (refreshed.changedPaths ++ changedSelection cache.selected selected) files refreshed.files
    config plan
  if replayWarningsAreTruncated incremental then
    reduceCachedFiles env.replay files refreshed.files config plan
  else incremental

/-- The scan up to its reduction. -/
def reduceScan (env : ScanEnv) (cache : RolloutCache) (input : ScanInput) : Reduction :=
  let refreshed := refreshFiles cache.files input
  let files := sortRolloutFilesForReplay input.files refreshed.files
  let (plan, ownerProbes) := buildReplayPlan input.probeOwner files refreshed.files
    (some input.discoveryCache) cache.omittedOwnerProbes input.config none
  let selected := selectFiles files refreshed.files
  let (reduced, rebuilt) :=
    match cache.reduced with
    | none => (reduceCachedFiles env.replay files refreshed.files input.config plan, true)
    | some reduced =>
      if selected ≠ cache.selected || refreshed.reparsedFiles > 0 || replayPlanChanged reduced plan
      then
        (reduceIncrementally env cache refreshed files selected input.config plan reduced, true)
      else (reduced, false)
  ⟨files, refreshed.files, plan, ownerProbes, selected, reduced, rebuilt⟩

/-! ## The scan -/

/-- Another Codex home, or another choice to redact, starts over. -/
def resetForKey (cache : RolloutCache) (config : CollectConfig) : RolloutCache :=
  if cache.key = some config.key then cache
  else { RolloutCache.new with key := some config.key }

def externalBoundaryChanged (cache : RolloutCache) (now : DateTime) : Bool :=
  (cache.lastExternalMaterializedAt.any fun last => last > now) ||
    cache.nextExternalEvidenceBoundary.any fun boundary =>
      cache.lastExternalMaterializedAt.any fun last => last < boundary && boundary ≤ now

def freshnessChanged (cache : RolloutCache) (config : CollectConfig) (now : DateTime) : Bool :=
  (cache.lastMaterializedAt.any fun last => last > now) ||
    cache.lastMaterializedActiveGrace ≠ some config.activeGrace ||
    (cache.localCoverageStartedAt.isSome &&
      cache.lastMaterializedAt.any fun last => crossedLocalCoverageBucket last now) ||
    (cache.nextFreshnessDeadline.any fun deadline => deadline < now) ||
    cache.nextAsOfEvidenceBoundary.any fun boundary =>
      cache.lastMaterializedAt.any fun last => last < boundary && boundary ≤ now

def snapshotMaterializeCoalesceInterval : Duration := seconds 10

def coalesceDue (cache : RolloutCache) (input : ScanInput) : Bool :=
  !input.coalesceMaterialization || cache.lastMaterializedAt.all fun last =>
    input.now < last || input.now - last ≥ snapshotMaterializeCoalesceInterval

/-- The cache once the files of a scan are reduced, before it looks at the ledger. -/
def adoptReduction (cache : RolloutCache) (titles : SessionTitleCache) (input : ScanInput)
    (reduction : Reduction) : RolloutCache :=
  { cache with
    files := reduction.cache.filter fun path _ =>
      (reduction.files.map RolloutFile.path).contains path
    selected := reduction.selected
    reduced := some reduction.reduced
    sessionTitles := titles
    lastExternalMaterializedAt := some input.now
    nextExternalEvidenceBoundary := input.nextExternalBoundary
    discoveryCache := some input.discoveryCache
    omittedOwnerProbes := reduction.ownerProbes.filter fun path _ =>
      input.discoveryCache.inventory.contains path }

def reuseAsOfReduced (cache : RolloutCache) (rebuilt : Bool) (now : DateTime) : Bool :=
  !rebuilt && cache.asOfReduced.isSome &&
    (cache.lastMaterializedAt.any fun materializedAt => materializedAt ≤ now) &&
    cache.nextAsOfEvidenceBoundary.any fun boundary => now < boundary

/-- The reduction as of now, when some evidence lies in the future. -/
def refreshAsOf (env : ScanEnv) (cache : RolloutCache) (input : ScanInput)
    (reduction : Reduction) (boundary : Option DateTime) : RolloutCache :=
  match boundary with
  | none => { cache with asOfReduced := none }
  | some _ =>
    if reuseAsOfReduced cache reduction.rebuilt input.now then cache
    else
      let asOfFiles := sortRolloutFilesForReplayAsOf reduction.files cache.files (some input.now)
      let (plan, ownerProbes) := buildReplayPlan input.probeOwner asOfFiles cache.files
        cache.discoveryCache cache.omittedOwnerProbes input.config (some input.now)
      { cache with
        asOfReduced := some
          (reduceCachedFilesAsOf env.replay asOfFiles cache.files input.config plan input.now)
        omittedOwnerProbes := ownerProbes }

/-- What a scan shows: the reduction as of now, or the plain one. -/
def RolloutCache.materializedReduced (cache : RolloutCache) (reduction : Reduction) :
    ReducedRollouts :=
  cache.asOfReduced.getD reduction.reduced

/-- The dataset of a scan that materialises. -/
def materializeScan (env : ScanEnv) (cache : RolloutCache) (input : ScanInput)
    (reduction : Reduction) (discovery : DiscoveryState) (ledgerFingerprint : Option String) :
    RolloutCache × Except String (Option RolloutDataset) :=
  let boundary :=
    if reuseAsOfReduced cache reduction.rebuilt input.now then cache.nextAsOfEvidenceBoundary
    else nextAsOfEvidenceBoundary reduction.files cache.files input.now
  let cache := refreshAsOf env cache input reduction boundary
  let shown := cache.materializedReduced reduction
  match input.deletedSessions with
  | .error error => (cache, .error error)
  | .ok deleted =>
    ({ cache with
        deletedLedgerFingerprint := ledgerFingerprint
        lastMaterializedAt := some input.now
        materializationPending := false
        lastMaterializedActiveGrace := some input.config.activeGrace
        nextFreshnessDeadline := nextFreshnessDeadline shown input.now input.config.activeGrace
        nextAsOfEvidenceBoundary := boundary },
      .ok (some (Deletion.overlayDeletedSessions env.ledger
        (materializeDataset shown discovery input.config input.now cache.sessionTitles.titles)
        deleted input.now)))

def scanInner (env : ScanEnv) (cache : RolloutCache) (input : ScanInput) :
    RolloutCache × Except String (Option RolloutDataset) :=
  let cache := resetForKey cache input.config
  let externalChanged := externalBoundaryChanged cache input.now
  let refreshed := refreshSessionTitles cache.sessionTitles input
  let reduction := reduceScan env cache input
  let cache := adoptReduction cache refreshed.titles input reduction
  let discoveryChanged := cache.lastDiscovery ≠ some refreshed.discovery
  let titleChanged := !input.config.redactContent && !refreshed.reused
  match input.ledgerFingerprint with
  | .error error => (cache, .error error)
  | .ok ledgerFingerprint =>
    let ledgerChanged : Bool := cache.deletedLedgerFingerprint ≠ ledgerFingerprint
    let projectionChanged := reduction.rebuilt || discoveryChanged || titleChanged || ledgerChanged
    let pending := cache.materializationPending || projectionChanged
    let shouldMaterialize := input.forceMaterialize || ledgerChanged ||
      cache.lastMaterializedAt.isNone || externalChanged ||
      freshnessChanged cache input.config input.now || (pending && coalesceDue cache input)
    let cache := { cache with
      asOfReduced := if projectionChanged then none else cache.asOfReduced
      materializationPending := pending
      lastDiscovery := some refreshed.discovery }
    if shouldMaterialize then
      materializeScan env cache input reduction refreshed.discovery ledgerFingerprint
    else (cache, .ok none)

end Rollout
