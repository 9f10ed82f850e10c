import Mathlib.Data.List.Sort
import Std.Data.ExtTreeSet
import UsageMonit.Rollout.Replay

/-!
# Order and plan of a replay (`rollout.rs`)

The files of a scan in replay order, the archived files that an active file repeats, and the plan:
the threads whose first counter may not start at zero and the warnings about ambiguous orders.
Reading the head of an omitted file to find its owner is a parameter.
-/

namespace Rollout

open Fallible Text Time

abbrev PathMap (α : Type) := Std.ExtTreeMap Path α

abbrev TextSet := Std.ExtTreeSet String

/-- The unix metadata that identifies the contents of a file. -/
structure FileFingerprint where
  len : Nat
  modified : Int
  dev : Nat
  ino : Nat
  ctime : Int
  ctimeNsec : Int
deriving DecidableEq

structure RolloutFile where
  path : Path
  modifiedAt : DateTime
  fingerprint : FileFingerprint
deriving DecidableEq

structure CachedFile where
  fingerprint : FileFingerprint
  parsed : ParsedFile
deriving DecidableEq

abbrev FileCache := PathMap CachedFile

structure ReplayRange where
  startedAt : Option DateTime
  updatedAt : Option DateTime
  timestampsComplete : Bool
deriving DecidableEq

def isForeignBaseline (event : ParsedEvent) : Bool :=
  match event with
  | .foreignCounterBaseline _ _ => true
  | .foreignThreadSettingsBaseline _ _ _ => true
  | _ => false

/-- The range of the events seen so far, and whether there was one. -/
def extendRange (asOf : DateTime) (state : ReplayRange × Bool) (event : ParsedEvent) :
    ReplayRange × Bool :=
  if isForeignBaseline event then state
  else
    match parsedEventAvailableAt event with
    | some timestamp =>
      if timestamp ≤ asOf then
        ({ state.1 with
            startedAt := setMinTimestamp state.1.startedAt timestamp
            updatedAt := setMaxTimestamp state.1.updatedAt timestamp }, true)
      else state
    | none => ({ state.1 with timestampsComplete := false }, true)

def replayRange (parsed : ParsedFile) (asOf : Option DateTime) : Option ReplayRange :=
  match asOf with
  | none => some ⟨parsed.replayStartedAt, parsed.replayUpdatedAt, parsed.replayTimestampsComplete⟩
  | some asOf =>
    let (range, visible) := parsed.events.foldl (extendRange asOf)
      (⟨none, none, parsed.replayTimestampsComplete⟩, false)
    if visible then some range else none

/-! ## Replay order -/

/-- The start that orders a file: its content bound, or its first visible event. -/
def replayStart (cache : FileCache) (asOf : Option DateTime) (path : Path) : Option DateTime :=
  cache[path]?.bind fun cached =>
    match asOf with
    | none => cached.parsed.replayStartedAt
    | some asOf => (replayRange cached.parsed (some asOf)).bind ReplayRange.startedAt

def pathLe (a b : Path) : Bool := (compare a b).isLE

/-- Whether a file comes before another one: by start, files without one last, then by path. -/
def replayBefore (cache : FileCache) (asOf : Option DateTime) (a b : RolloutFile) : Bool :=
  match replayStart cache asOf a.path, replayStart cache asOf b.path with
  | some x, some y => x < y || (x = y && pathLe a.path b.path)
  | some _, none => true
  | none, some _ => false
  | none, none => pathLe a.path b.path

def sortRolloutFilesForReplayAsOf (files : List RolloutFile) (cache : FileCache)
    (asOf : Option DateTime) : List RolloutFile :=
  files.insertionSort fun a b => replayBefore cache asOf a b

def sortRolloutFilesForReplay (files : List RolloutFile) (cache : FileCache) : List RolloutFile :=
  sortRolloutFilesForReplayAsOf files cache none

/-! ## Archived files -/

/-- Whether `candidate` is an active file of the owner that starts with the events of `parsed`. -/
def subsumes (cache : FileCache) (config : CollectConfig) (asOf : Option DateTime)
    (ownerThreadId : String) (parsed : ParsedFile) (candidate : RolloutFile) : Bool :=
  Path.startsWith candidate.path (config.codexHome.join "sessions") &&
    cache[candidate.path]?.any fun candidate =>
      candidate.parsed.complete && candidate.parsed.ownerThreadId = some ownerThreadId &&
        (replayRange candidate.parsed asOf).isSome &&
        parsed.events.isPrefixOf candidate.parsed.events

def archivedRolloutIsSubsumedByActiveAsOf (file : RolloutFile) (parsed : ParsedFile)
    (files : List RolloutFile) (cache : FileCache) (config : CollectConfig)
    (asOf : Option DateTime) : Bool :=
  if !parsed.complete || !isArchived config file.path then false
  else
    match parsed.ownerThreadId with
    | none => false
    | some ownerThreadId => files.any (subsumes cache config asOf ownerThreadId parsed)

def archivedRolloutIsSubsumedByActive (file : RolloutFile) (parsed : ParsedFile)
    (files : List RolloutFile) (cache : FileCache) (config : CollectConfig) : Bool :=
  archivedRolloutIsSubsumedByActiveAsOf file parsed files cache config none

/-! ## The plan -/

structure ReplayPlan where
  incompleteCounterThreads : TextSet
  replayOrderWarnings : PathMap (List String)
  ambiguousReplayOrders : PathMap Nat
  suppressedWarnings : Nat

def ReplayPlan.new : ReplayPlan where
  incompleteCounterThreads := ∅
  replayOrderWarnings := ∅
  ambiguousReplayOrders := ∅
  suppressedWarnings := 0

inductive OwnerProbe
  | found (threadId : String)
  | noOwner
  | uncertain
deriving DecidableEq

structure CachedOwnerProbe where
  fingerprint : FileFingerprint
  result : OwnerProbe
deriving DecidableEq

structure DiscoveryOwnerIndex where
  omittedFilenameThreads : TextSet
  omittedAmbiguousCandidates : List Path
  omittedCanonicalCandidates : List Path

/-- What the plan and the coverage read of the inventory. -/
structure DiscoveryCache where
  lookbackDays : Int
  inventory : PathMap RolloutFile
  ownerIndex : DiscoveryOwnerIndex
  unreadableFiles : Nat
  complete : Bool

def rolloutMaxWarnings : Nat := 128

def ownerProbeMaxFilesPerScan : Nat := 64

/-- The shape of a UUID: 36 ASCII characters with dashes at their places. -/
def uuidText (candidate : String) : Bool :=
  candidate.toList.length = 36 && candidate.toList.zipIdx.all fun (c, index) =>
    if index ∈ [8, 13, 18, 23] then c = '-' else isAsciiHexdigit c

/-- The name of a file without its last extension. -/
def fileStem (path : Path) : Option String :=
  path.getLast?.map fun name =>
    let reversed := name.toList.reverse
    let extension := reversed.takeWhile (· ≠ '.')
    let rest := (reversed.dropWhile (· ≠ '.')).drop 1
    -- a leading dot starts a name, not an extension
    if extension.length = name.toList.length || rest.isEmpty then name
    else String.ofList rest.reverse

/-- The thread a canonical file name ends in; a copy's name, with another UUID, has none. -/
def rolloutFilenameThreadId (path : Path) : Option String := do
  let stem ← fileStem path
  let chars := stem.toList
  if chars.length < 36 then none
  else
    let start := chars.length - 36
    let candidate := String.ofList (chars.drop start)
    if start > 0 && chars[start - 1]? = some '_' then none
    else if uuidText candidate then some candidate
    else none

structure PlannedFiles where
  filesByThread : Map (List (RolloutFile × ReplayRange))
  incompleteCounterThreads : TextSet
  ownerUncertain : Bool

def PlannedFiles.add (cache : FileCache) (config : CollectConfig) (asOf : Option DateTime)
    (files : List RolloutFile) (planned : PlannedFiles) (file : RolloutFile) : PlannedFiles :=
  match cache[file.path]? with
  | none => { planned with ownerUncertain := true }
  | some cached =>
    let parsed := cached.parsed
    if archivedRolloutIsSubsumedByActiveAsOf file parsed files cache config asOf then planned
    else
      match parsed.ownerThreadId with
      | none => { planned with ownerUncertain := true }
      | some threadId =>
        match replayRange parsed asOf with
        | none => planned
        | some range =>
          { planned with
            filesByThread := planned.filesByThread.insert threadId
              (planned.filesByThread[threadId]?.getD [] ++ [(file, range)])
            incompleteCounterThreads :=
              if !parsed.complete || parsed.skippedLines > 0 || parsed.unreadableFiles > 0 then
                planned.incompleteCounterThreads.insert threadId
              else planned.incompleteCounterThreads }

/-- Whether the ranges do not follow each other. -/
def orderIsAmbiguous (previousEnd : Option DateTime) : List ReplayRange → Bool
  | [] => false
  | range :: rest =>
    if !range.timestampsComplete then true
    else
      match range.startedAt, range.updatedAt with
      | some startedAt, some updatedAt =>
        if previousEnd.any fun previousEnd => previousEnd ≥ startedAt then true
        else orderIsAmbiguous (some updatedAt) rest
      | _, _ => true

def ambiguousOrderWarning (threadId : String) : String :=
  "could not establish a non-overlapping content timestamp order for thread " ++ threadId ++
    "; replayed its rollout files in a stable fallback order"

def ReplayPlan.addThread (plan : ReplayPlan)
    (entry : String × List (RolloutFile × ReplayRange)) : ReplayPlan :=
  match entry.2 with
  | first :: _ :: _ =>
    if orderIsAmbiguous none (entry.2.map Prod.snd) then
      let path := first.1.path
      let warned :=
        if plan.replayOrderWarnings.size < rolloutMaxWarnings - 1 then
          { plan with replayOrderWarnings :=
              plan.replayOrderWarnings.insert path [ambiguousOrderWarning entry.1] }
        else { plan with suppressedWarnings := saturatingAdd 64 plan.suppressedWarnings 1 }
      { warned with
        incompleteCounterThreads := plan.incompleteCounterThreads.insert entry.1
        ambiguousReplayOrders := plan.ambiguousReplayOrders.insert path 1 }
    else plan
  | _ => plan

def ReplayPlan.markIncomplete (plan : ReplayPlan) (threads : List String) : ReplayPlan :=
  { plan with incompleteCounterThreads := plan.incompleteCounterThreads.insertMany threads }

/-- The probes of omitted files: the plan, the remembered probes, the reads and whether an owner
stayed unknown. -/
structure ProbeState where
  plan : ReplayPlan
  ownerProbes : PathMap CachedOwnerProbe
  reads : Nat
  uncertain : Bool

def ProbeState.note (state : ProbeState) (selectedThreads : List String) (probe : OwnerProbe) :
    ProbeState :=
  match probe with
  | .found threadId =>
    if selectedThreads.contains threadId then
      { state with plan := state.plan.markIncomplete [threadId] }
    else state
  | .uncertain => { state with uncertain := true }
  | .noOwner => state

def probeOmitted (probe : RolloutFile → OwnerProbe) (selectedThreads : List String)
    (state : ProbeState) : List RolloutFile → ProbeState
  | [] => state
  | omitted :: rest =>
    if state.plan.incompleteCounterThreads.size = selectedThreads.length then state
    else
      match state.ownerProbes[omitted.path]?.filter
          fun cached => cached.fingerprint = omitted.fingerprint with
      | some cached =>
        probeOmitted probe selectedThreads (state.note selectedThreads cached.result) rest
      | none =>
        if state.reads ≥ ownerProbeMaxFilesPerScan then { state with uncertain := true }
        else
          let result := probe omitted
          let probed : ProbeState := { state with
            reads := state.reads + 1
            ownerProbes := state.ownerProbes.insert omitted.path ⟨omitted.fingerprint, result⟩ }
          probeOmitted probe selectedThreads (probed.note selectedThreads result) rest

def uncertainOwnerWarning : String :=
  "rollout owner evidence is incomplete: an omitted file could not be identified within the " ++
    "bounded owner probe; initial cumulative counters are not assumed to start at zero"

def selectedFilenamesAreTrustworthy (planned : PlannedFiles) : Bool :=
  !planned.filesByThread.isEmpty &&
    planned.filesByThread.toList.all fun (threadId, threadFiles) =>
      uuidText threadId && threadFiles.all fun (file, _) =>
        (rolloutFilenameThreadId file.path).all fun owner => owner = threadId

/-- The omitted files to probe, the newest first, and whether there are too many or one is gone. -/
def omittedFiles (discovery : DiscoveryCache) (trustworthy : Bool) : List RolloutFile × Bool :=
  let candidates :=
    if trustworthy then discovery.ownerIndex.omittedAmbiguousCandidates
    else discovery.ownerIndex.omittedAmbiguousCandidates ++
      discovery.ownerIndex.omittedCanonicalCandidates
  let paths := candidates.take (ownerProbeMaxFilesPerScan + 1)
  let (files, uncertain) :=
    if paths.length > ownerProbeMaxFilesPerScan then ([], true)
    else
      let known := paths.takeWhile fun path => discovery.inventory.contains path
      (known.filterMap fun path => discovery.inventory[path]?, known.length < paths.length)
  (files.insertionSort fun a b =>
    a.modifiedAt > b.modifiedAt || (a.modifiedAt = b.modifiedAt && pathLe a.path b.path), uncertain)

/-- What the inventory adds to the plan of the selected files. -/
def planDiscovery (probe : RolloutFile → OwnerProbe) (files : List RolloutFile)
    (planned : PlannedFiles) (plan : ReplayPlan) (discovery : DiscoveryCache)
    (ownerProbes : PathMap CachedOwnerProbe) : ReplayPlan × PathMap CachedOwnerProbe :=
  let selectedThreads := planned.filesByThread.keys
  let plan :=
    if !discovery.complete || discovery.unreadableFiles > 0 then plan.markIncomplete selectedThreads
    else plan
  let plan := plan.markIncomplete (selectedThreads.filter fun threadId =>
    discovery.ownerIndex.omittedFilenameThreads.contains threadId)
  let (omitted, missing) := omittedFiles discovery (selectedFilenamesAreTrustworthy planned)
  let state := probeOmitted probe selectedThreads ⟨plan, ownerProbes, 0, missing⟩ omitted
  if state.uncertain then
    let plan := state.plan.markIncomplete selectedThreads
    match files with
    | [] => (plan, state.ownerProbes)
    | first :: _ =>
      let warnings := plan.replayOrderWarnings[first.path]?.getD [] ++ [uncertainOwnerWarning]
      ({ plan with replayOrderWarnings := plan.replayOrderWarnings.insert first.path warnings },
        state.ownerProbes)
  else (state.plan, state.ownerProbes)

def buildReplayPlan (probe : RolloutFile → OwnerProbe) (files : List RolloutFile)
    (cache : FileCache) (discovery : Option DiscoveryCache)
    (ownerProbes : PathMap CachedOwnerProbe) (config : CollectConfig) (asOf : Option DateTime) :
    ReplayPlan × PathMap CachedOwnerProbe :=
  let planned := files.foldl (PlannedFiles.add cache config asOf files) ⟨∅, ∅, false⟩
  let plan := planned.filesByThread.toList.foldl ReplayPlan.addThread
    { ReplayPlan.new with incompleteCounterThreads := planned.incompleteCounterThreads }
  let plan :=
    if planned.ownerUncertain then plan.markIncomplete planned.filesByThread.keys else plan
  match discovery with
  | none => (plan, ownerProbes)
  | some discovery => planDiscovery probe files planned plan discovery ownerProbes

end Rollout
