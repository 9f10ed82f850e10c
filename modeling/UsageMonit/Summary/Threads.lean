import Mathlib.Data.List.Sort
import UsageMonit.Lib.MemoWalk
import UsageMonit.Lib.Tally
import UsageMonit.Summary.Sample

/-!
# Threads of a summary (`summary.rs`)

What the samples say about a thread is merged in the order of their instants (`mergeMetadata`).
Missing working directories, project keys, project labels and session threads are inherited along
the parents by four memoised walks, each with its own value where it comes back to a thread that it
is still visiting. The walks are made in the order in which the hash map of the threads is
iterated, a parameter.
-/

namespace Summary

open Time MemoWalk Tally

structure ThreadMetadata (Path : Type) where
  parentThreadId : Option String := none
  projectKey : Option String := none
  projectLabel : Option String := none
  projectLabelAt : Option DateTime := none
  cwd : Option Path := none
  title : Option String := none
  source : Option String := none
deriving DecidableEq

abbrev Metadata (Path : Type) := List (String × ThreadMetadata Path)

section
variable {Path : Type}

def nonEmpty (text : Option String) : Option String := text.filter fun value => value ≠ ""

/-- The parent that a sample names, other than its own thread. -/
def claimedParent (sample : SummarySample Path) : Option String :=
  sample.parentThreadId.filter fun parent => parent ≠ sample.threadId

/-- `merge_metadata`, on the entry of the sample's thread. -/
def mergeMetadata (entry : ThreadMetadata Path) (sample : SummarySample Path) :
    ThreadMetadata Path :=
  let entry := match claimedParent sample with
    | some parent => { entry with parentThreadId := some parent }
    | none => entry
  let entry := match nonEmpty sample.projectKey with
    | some key =>
      let entry := if entry.projectKey ≠ some key
        then { entry with projectLabel := none, projectLabelAt := none, cwd := none }
        else entry
      { entry with projectKey := some key }
    | none => entry
  let entry := match nonEmpty sample.projectLabel with
    | some label =>
      { entry with projectLabel := some label, projectLabelAt := some sample.timestamp }
    | none => entry
  { entry with
    cwd := sample.cwd <|> entry.cwd
    title := nonEmpty sample.title <|> entry.title
    source := nonEmpty sample.source <|> entry.source }

/-- The samples in the order of their instants. -/
def metadataSamples (samples : List (SummarySample Path)) : List (SummarySample Path) :=
  samples.insertionSort fun a b => a.timestamp ≤ b.timestamp

def threadMetadata (samples : List (SummarySample Path)) : Metadata Path :=
  tally {} SummarySample.threadId mergeMetadata [] (metadataSamples samples)

def Metadata.threads (metadata : Metadata Path) : List String := metadata.map Prod.fst

/-! ## Walks along the parents -/

def Metadata.parent (metadata : Metadata Path) (threadId : String) : Option String :=
  (valueOf threadId metadata).bind (·.parentThreadId)

/-- `resolve_thread_cwd`: the own directory, or the one of the parent. -/
def resolveThreadCwd (metadata : Metadata Path) : Rules String (Option Path) where
  next threadId := (valueOf threadId metadata).bind fun thread =>
    if thread.cwd.isSome then none else thread.parentThreadId
  finish threadId answer := (valueOf threadId metadata).bind fun thread =>
    thread.cwd <|> answer.join
  cut _ := none

/-- The directory that a walk has found for a thread. -/
def cachedCwd (cwds : List (String × Option Path)) (threadId : String) : Option Path :=
  (cwds.lookup threadId).join

variable [PathText Path]

def projectKey (cwd : Option Path) : String :=
  (nonEmpty (cwd.map PathText.toStringLossy)).getD unknownProjectKey

def projectLabel (cwd : Option Path) : String :=
  (nonEmpty (cwd.bind PathText.fileName)).getD unknownProjectLabel

/-- `resolve_thread_project_key`: the own key, the one of the parent unless it is unknown, or the
one of the directory. -/
def resolveThreadProjectKey (metadata : Metadata Path) (cwds : List (String × Option Path)) :
    Rules String String where
  next threadId := (valueOf threadId metadata).bind fun thread =>
    if thread.projectKey.isSome then none else thread.parentThreadId
  finish threadId answer :=
    (((valueOf threadId metadata).bind (·.projectKey)) <|>
      answer.filter fun key => key ≠ unknownProjectKey).getD (projectKey (cachedCwd cwds threadId))
  cut threadId := projectKey (cachedCwd cwds threadId)

/-- The label that a thread has itself, and since when. -/
def ThreadMetadata.label (thread : ThreadMetadata Path) : Option (DateTime × String) :=
  thread.projectLabelAt.bind fun labelAt => thread.projectLabel.map fun label => (labelAt, label)

/-- `resolve_thread_project_label`: the own label, the one of the parent, or the one of the
directory. -/
def resolveThreadProjectLabel (metadata : Metadata Path) (cwds : List (String × Option Path)) :
    Rules String (Option (DateTime × String)) where
  next threadId := (valueOf threadId metadata).bind fun thread =>
    if thread.label.isSome then none else thread.parentThreadId
  finish threadId answer :=
    (valueOf threadId metadata).bind (·.label) <|> answer.join <|>
      (cachedCwd cwds threadId).map fun cwd => (0, projectLabel (some cwd))
  cut _ := none

/-- `resolve_session_thread`: the last of the parents. -/
def resolveSessionThread (metadata : Metadata Path) : Rules String String where
  next threadId := (metadata.parent threadId).filter fun parent => parent ≠ threadId
  finish threadId answer := answer.getD threadId
  cut threadId := threadId

/-- What the walks find. -/
structure Resolved (Path : Type) where
  cwds : List (String × Option Path)
  projectKeys : List (String × String)
  projectLabels : List (String × Option (DateTime × String))
  sessionThreads : List (String × String)
deriving DecidableEq

/-- The walks from all threads, in the order of the hash map. No walk visits more threads than there
are, which bounds its depth. -/
def resolveThreads (metadata : Metadata Path) (order : List String) : Resolved Path :=
  let depth := metadata.threads.length + 1
  let cwds := walkAll (resolveThreadCwd metadata) depth [] order
  { cwds
    projectKeys := walkAll (resolveThreadProjectKey metadata cwds) depth [] order
    projectLabels := walkAll (resolveThreadProjectLabel metadata cwds) depth [] order
    sessionThreads := walkAll (resolveSessionThread metadata) depth [] order }

end

end Summary
