import UsageMonit.Rollout.Parse
import UsageMonit.Rollout.Plan

/-!
# Refreshing a parsed file (`rollout.rs`)

A file that has grown since it was parsed is parsed on from its old length, if the old parse was
complete, ended a line and still fits: the last bytes of what was parsed are kept as a guard, with
their hash. Otherwise the whole file is parsed again.

A refresh inspects the file again after it was read, and reads it a second time if it changed.
What the system shows meanwhile is an `Attempt`; a file that cannot be opened, read or sought in is
an error there.
-/

namespace Rollout

/-! ## Guards -/

def tailGuardBytes : Nat := 256

structure TailGuard where
  len : Nat
  hash : UInt64
deriving DecidableEq

/-- `TailGuard::default`. -/
def TailGuard.new : TailGuard := ⟨0, 0⟩

def fnvOffset : UInt64 := 0xcbf29ce484222325

def fnvPrime : UInt64 := 0x100000001b3

def hashByte (hash : UInt64) (byte : UInt8) : UInt64 := (hash ^^^ byte.toUInt64) * fnvPrime

def stableHash (parts : List (List UInt8)) : UInt64 :=
  parts.foldl (fun hash part => hashByte (part.foldl hashByte hash) 0xff) fnvOffset

/-- The `len` bytes before an offset. -/
def bytesBefore (bytes : List UInt8) (offset len : Nat) : List UInt8 :=
  (bytes.drop (offset - len)).take len

/-! ## Files -/

/-- A `RolloutFile`, whose time is in the date range. -/
structure InspectedFile extends RolloutSource where
  fingerprint : FileFingerprint

/-- A `ParsedFile` with what tells whether it can be continued. -/
structure GuardedRollout extends ParsedRollout where
  endsWithNewline : Bool
  tailGuard : TailGuard

structure CachedRollout where
  fingerprint : FileFingerprint
  parsed : GuardedRollout

/-- `ParsedFile::default` with complete timestamps. -/
def GuardedRollout.new : GuardedRollout where
  toParsedRollout := .new
  endsWithNewline := false
  tailGuard := .new

/-- What the system shows while a file is read once. -/
structure Attempt where
  tailOpened : Option Reader
  opened : Except String Reader
  after : Except String InspectedFile
  guardOpened : Except String Reader
  final : Option InspectedFile

def FileFingerprint.sameSourceIdentity (fingerprint other : FileFingerprint) : Bool :=
  fingerprint.dev = other.dev && fingerprint.ino = other.ino

def canTailParse (file : InspectedFile) (previous : CachedRollout) : Bool :=
  previous.parsed.complete && previous.parsed.endsWithNewline &&
    previous.fingerprint.len < file.fingerprint.len &&
    previous.fingerprint.sameSourceIdentity file.fingerprint &&
    (previous.fingerprint.len = 0 || previous.parsed.tailGuard.len > 0)

/-! ## Parsing -/

def unopened (file : InspectedFile) (error : String) : GuardedRollout :=
  { GuardedRollout.new with
    replayTimestampsComplete := false
    unreadableFiles := 1
    warnings := ["could not open " ++ file.path.display ++ ": " ++ error] }

/-- Goes on with a parse; the guard is that of the bytes before. -/
def GuardedRollout.parse (env : ParseEnv) (file : InspectedFile) (config : CollectConfig)
    (parsed : GuardedRollout) (reader : Reader) : Except Panic GuardedRollout := do
  let rollout ← parseRolloutReader env file.toRolloutSource config parsed.toParsedRollout reader
  pure { parsed with toParsedRollout := rollout }

def parseRolloutFile (env : ParseEnv) (file : InspectedFile) (config : CollectConfig)
    (opened : Except String Reader) : Except Panic GuardedRollout :=
  match opened with
  | .error error => .ok (unopened file error)
  | .ok reader => GuardedRollout.new.parse env file config reader

def tailGuardMatches (reader : Reader) (prefixLen : Nat) (expected : TailGuard) : Bool :=
  if prefixLen = 0 then expected.len = 0
  else if expected.len = 0 ∨ expected.len > prefixLen then false
  else if reader.bytes.length < prefixLen then false
  else stableHash [bytesBefore reader.bytes prefixLen expected.len] = expected.hash

def parseRolloutTail (env : ParseEnv) (file : InspectedFile) (config : CollectConfig)
    (previous : CachedRollout) (opened : Option Reader) : Except Panic (Option GuardedRollout) :=
  let prefixLen := previous.fingerprint.len
  match opened.filter (tailGuardMatches · prefixLen previous.parsed.tailGuard) with
  | none => .ok none
  | some reader => do
    let parsed ← { previous.parsed with complete := false }.parse env file config
      { reader with bytes := reader.bytes.drop prefixLen }
    pure (some parsed)

def parseRolloutCandidate (env : ParseEnv) (file : InspectedFile) (config : CollectConfig)
    (previous : Option CachedRollout) (attempt : Attempt) : Except Panic GuardedRollout :=
  match previous.filter (canTailParse file) with
  | none => parseRolloutFile env file config attempt.opened
  | some previous => do
    let tail ← parseRolloutTail env file config previous attempt.tailOpened
    match tail with
    | some parsed => pure parsed
    | none => parseRolloutFile env file config attempt.opened

/-! ## Refreshing -/

/-- The guard of the bytes that were parsed. -/
def updateTailGuard (parsed : GuardedRollout) (fileLen : Nat) (opened : Except String Reader) :
    Except String GuardedRollout :=
  if fileLen = 0 then .ok { parsed with endsWithNewline := false, tailGuard := .new }
  else
    let guardLen := min fileLen tailGuardBytes
    match opened with
    | .error error => .error error
    | .ok reader =>
      if reader.bytes.length < fileLen then
        .error (reader.failure.getD "failed to fill whole buffer")
      else
        let bytes := bytesBefore reader.bytes fileLen guardLen
        .ok { parsed with
          endsWithNewline := bytes.getLast? = some newline
          tailGuard := ⟨guardLen, stableHash [bytes]⟩ }

/-- A parse that cannot be relied on. -/
def GuardedRollout.spoil (parsed : GuardedRollout) (warning : String) : GuardedRollout :=
  { parsed with
    toParsedRollout := { parsed.toParsedRollout with
      complete := false
      unreadableFiles := parsed.unreadableFiles + 1 }.pushWarning warning }

/-- A complete parse gets the guard of the file. -/
def guardTail (file : InspectedFile) (parsed : GuardedRollout) (fileLen : Nat)
    (opened : Except String Reader) : GuardedRollout :=
  if parsed.complete then
    match updateTailGuard parsed fileLen opened with
    | .ok parsed => parsed
    | .error error => parsed.spoil
        ("could not fingerprint parsed tail for " ++ file.path.display ++ ": " ++ error)
  else parsed

/-- What an attempt ends with: a result, or a changed file. -/
inductive Attempted
  | stable (cached : CachedRollout)
  | changed (candidate : InspectedFile) (after : FileFingerprint) (parsed : GuardedRollout)

def attemptParse (env : ParseEnv) (config : CollectConfig) (candidate : InspectedFile)
    (previous : Option CachedRollout) (attempt : Attempt) : Except Panic Attempted := do
  let parsed ← parseRolloutCandidate env candidate config previous attempt
  match attempt.after with
  | .error error =>
    pure (.stable ⟨candidate.fingerprint, parsed.spoil
      ("could not inspect " ++ candidate.path.display ++ " after reading: " ++ error)⟩)
  | .ok after =>
    if after.fingerprint = candidate.fingerprint then
      let parsed := guardTail candidate parsed after.fingerprint.len attempt.guardOpened
      let final := attempt.final.getD after
      if final.fingerprint = after.fingerprint then pure (.stable ⟨after.fingerprint, parsed⟩)
      else pure (.changed final after.fingerprint parsed)
    else pure (.changed after after.fingerprint parsed)

def refreshStableRolloutFile (env : ParseEnv) (config : CollectConfig) (file : InspectedFile)
    (previous : Option CachedRollout) (first second : Attempt) : Except Panic CachedRollout := do
  let attempted ← attemptParse env config file previous first
  match attempted with
  | .stable cached => pure cached
  | .changed candidate _ _ => do
    let attempted ← attemptParse env config candidate none second
    match attempted with
    | .stable cached => pure cached
    | .changed _ after parsed =>
      pure ⟨after, parsed.spoil (candidate.path.display ++
        " changed repeatedly while being read; the snapshot contains a stable parsed prefix")⟩

/-- A scan of the file: what it found, and what is shown if the file has to be read. -/
structure FileScan where
  file : InspectedFile
  first : Attempt
  second : Attempt

/-- A complete parse of the same file is reused. -/
def scanFile (env : ParseEnv) (config : CollectConfig) (cached : Option CachedRollout)
    (scan : FileScan) : Except Panic (Option CachedRollout) :=
  match cached.filter fun cached =>
      cached.fingerprint = scan.file.fingerprint && cached.parsed.complete with
  | some cached => .ok (some cached)
  | none => do
    let cached ← refreshStableRolloutFile env config scan.file cached scan.first scan.second
    pure (some cached)

end Rollout
