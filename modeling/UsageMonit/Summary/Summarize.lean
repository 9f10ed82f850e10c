import Mathlib.Order.ConditionallyCompleteLattice.Basic
import UsageMonit.Summary.Threads

/-!
# Summaries (`summary.rs`)

One pass over the samples with usage in the window feeds the books: the totals, the days and the
hours of the window and, for each project, its totals, days, hours and sessions with their turns.
They are then listed: the window lists the days it met beside the dates between its two ends, a
project only these dates.
-/

namespace Summary

open Time Tally
open Text (trim)

/-! ## Attribution -/

/-- What the samples say about explicit projects: their newest labels and directories. -/
structure ProjectNames (Path : Type) where
  labels : List (String × (DateTime × String)) := []
  cwds : List (String × Path) := []

/-- Where a sample with usage is counted. -/
structure Contribution (Path : Type) where
  sample : SummarySample Path
  date : NaiveDate
  hour : Option NaiveDateTime
  cwd : Option Path
  key : String
  label : Option (DateTime × String)
  sessionThreadId : String
  turnKey : SummaryTurnKey

section
variable {Path : Type}

def nameProject (names : ProjectNames Path) (sample : SummarySample Path) : ProjectNames Path :=
  match sample.explicitProjectKey with
  | none => names
  | some key => {
    labels := match nonEmpty sample.projectLabel with
      | some label => (key, (sample.timestamp, label)) :: names.labels
      | none => names.labels
    cwds := match sample.cwd with
      | some cwd => (key, cwd) :: names.cwds
      | none => names.cwds }

def projectNames (samples : List (SummarySample Path)) : ProjectNames Path :=
  (metadataSamples samples).foldl nameProject {}

/-- A turn id that is not blank. -/
def namedTurn (turnId : Option String) : Option String := turnId.filter fun turnId => trim turnId ≠ ""

def sessionThreadOf (resolved : Resolved Path) (sample : SummarySample Path) : String :=
  (nonEmpty sample.sessionThreadId <|>
    resolved.sessionThreads.lookup sample.threadId).getD sample.threadId

def turnKeyOf (sessionThreadId : String) (sample : SummarySample Path) : SummaryTurnKey :=
  match namedTurn sample.sessionTurnId <|>
      (if sessionThreadId = sample.threadId then namedTurn sample.turnId else none) with
  | some turnId => .exact turnId
  | none =>
    if sessionThreadId = sample.threadId then .unassignedSession else .unassignedDelegated

variable [PathText Path]

def contributionOf (resolved : Resolved Path) (names : ProjectNames Path)
    (localDate : DateTime → NaiveDate) (localHour : DateTime → Option NaiveDateTime)
    (sample : SummarySample Path) : Contribution Path :=
  let explicit := sample.explicitProjectKey
  let cwd := match explicit with
    | some key => sample.cwd <|> names.cwds.lookup key
    | none => cachedCwd resolved.cwds sample.threadId <|> sample.cwd
  let key := (explicit <|> resolved.projectKeys.lookup sample.threadId).getD (projectKey cwd)
  let sessionThreadId := sessionThreadOf resolved sample
  { sample
    date := localDate sample.timestamp
    hour := localHour sample.timestamp
    cwd
    key
    label := names.labels.lookup key <|>
      (if explicit = none then (resolved.projectLabels.lookup sample.threadId).join else none)
    sessionThreadId
    turnKey := turnKeyOf sessionThreadId sample }

end

/-! ## Books -/

structure TurnAccumulator where
  totals : SummaryMetrics := {}
  messagePreview : Option String := none
  startedAt : Option DateTime := none

structure SessionAccumulator where
  totals : SummaryMetrics := {}
  turns : List (SummaryTurnKey × TurnAccumulator) := []

structure ProjectAccumulator (Path : Type) where
  totals : SummaryMetrics := {}
  days : List (NaiveDate × SummaryMetrics) := []
  hours : List (NaiveDateTime × SummaryMetrics) := []
  label : Option (DateTime × String) := none
  cwd : Option Path := none
  sessions : List (String × SessionAccumulator) := []

structure Books (Path : Type) where
  totals : SummaryMetrics := {}
  days : List (NaiveDate × SummaryMetrics) := []
  hours : List (NaiveDateTime × SummaryMetrics) := []
  projects : List (String × ProjectAccumulator Path) := []

section
variable {Path : Type}

/-- `entry(key).or_default().add_assign(metrics)`. -/
def addTo {κ : Type} [LinearOrder κ] (key : κ) (metrics : SummaryMetrics)
    (book : List (κ × SummaryMetrics)) : List (κ × SummaryMetrics) :=
  entry {} key (·.addAssign metrics) book

/-- The hours, if the contribution has one. -/
def addToHour (c : Contribution Path) (hours : List (NaiveDateTime × SummaryMetrics)) :
    List (NaiveDateTime × SummaryMetrics) :=
  match c.hour with
  | some hour => addTo hour c.sample.metrics hours
  | none => hours

def TurnAccumulator.add (turn : TurnAccumulator) (c : Contribution Path) : TurnAccumulator where
  totals := turn.totals.addAssign c.sample.metrics
  messagePreview :=
    if c.sample.messagePreview.any fun message => trim message ≠ "" then c.sample.messagePreview
    else turn.messagePreview
  startedAt := match c.sample.turnStartedAt with
    | some startedAt => some ((turn.startedAt.map (min · startedAt)).getD startedAt)
    | none => turn.startedAt

def SessionAccumulator.add (session : SessionAccumulator) (c : Contribution Path) :
    SessionAccumulator where
  totals := session.totals.addAssign c.sample.metrics
  turns := entry {} c.turnKey (·.add c) session.turns

/-- The newer of two labels; the incoming one where they are as old. -/
def newerLabel (current label : Option (DateTime × String)) : Option (DateTime × String) :=
  match label with
  | some (labelAt, text) =>
    if current.all fun current => current.1 ≤ labelAt then some (labelAt, text) else current
  | none => current

def ProjectAccumulator.add (project : ProjectAccumulator Path) (c : Contribution Path) :
    ProjectAccumulator Path where
  totals := project.totals.addAssign c.sample.metrics
  days := addTo c.date c.sample.metrics project.days
  hours := addToHour c project.hours
  label := newerLabel project.label c.label
  cwd := project.cwd <|> c.cwd
  sessions := entry {} c.sessionThreadId (·.add c) project.sessions

def Books.add (books : Books Path) (c : Contribution Path) : Books Path where
  totals := books.totals.addAssign c.sample.metrics
  days := addTo c.date c.sample.metrics books.days
  hours := addToHour c books.hours
  projects := entry {} c.key (·.add c) books.projects

end

/-! ## Listing -/

structure DailySummary where
  date : NaiveDate
  totals : SummaryMetrics
deriving DecidableEq

structure HourlySummary where
  startsAt : NaiveDateTime
  totals : SummaryMetrics
deriving DecidableEq

structure TurnSummary where
  key : SummaryTurnKey
  messagePreview : Option String
  startedAt : Option DateTime
  totals : SummaryMetrics
deriving DecidableEq

structure SessionSummary (Path : Type) where
  threadId : String
  title : Option String
  source : Option String
  cwd : Option Path
  totals : SummaryMetrics
  turns : List TurnSummary
deriving DecidableEq

structure ProjectSummary (Path : Type) where
  key : String
  label : String
  cwd : Option Path
  totals : SummaryMetrics
  days : List DailySummary
  hours : List HourlySummary
  sessions : List (SessionSummary Path)
deriving DecidableEq

structure UsageSummary (Path : Type) where
  window : SummaryWindow
  totals : SummaryMetrics
  days : List DailySummary
  hours : List HourlySummary
  projects : List (ProjectSummary Path)
deriving DecidableEq

/-- The loop of `dates_in_window`. -/
def datesFrom (last : NaiveDate) : ℕ → NaiveDate → List NaiveDate
  | 0, date => [date]
  | steps + 1, date =>
    if last ≤ date then [date]
    else match succOpt date with
      | none => [date]
      | some next => date :: datesFrom last steps next

/-- The dates between the local dates of the ends of the window. -/
def datesInWindow (window : SummaryWindow) (localDate : DateTime → NaiveDate) : List NaiveDate :=
  if window.endsAt ≤ window.startsAt then []
  else
    let first := localDate window.startsAt
    let last := localDate (window.endsAt - 1)
    datesFrom last (last - first).toNat first

/-- The order of the lists: most tokens first, then most units, then the key. -/
def usageOrder (totals : SummaryMetrics) (key : String) : ℕᵒᵈ ×ₗ ℕᵒᵈ ×ₗ String :=
  toLex (OrderDual.toDual totals.tokenUsage.totalTokens,
    toLex (OrderDual.toDual totals.estimatedCostUnits, key))

/-- The order of the turns: the latest start first, turns without one last, then the key. -/
def turnOrder (turn : TurnSummary) : (WithBot ℤ)ᵒᵈ ×ₗ SummaryTurnKey :=
  toLex (OrderDual.toDual (turn.startedAt : WithBot ℤ), turn.key)

section
variable {Path : Type}

def listTurns (turns : List (SummaryTurnKey × TurnAccumulator)) : List TurnSummary :=
  (turns.map fun entry =>
    ⟨entry.1, entry.2.messagePreview, entry.2.startedAt, entry.2.totals⟩).insertionSort
      fun left right => turnOrder left ≤ turnOrder right

def buildProjectSessions (sessions : List (String × SessionAccumulator)) (metadata : Metadata Path)
    (cwds : List (String × Option Path)) : List (SessionSummary Path) :=
  (sessions.map fun entry =>
    let thread := (valueOf entry.1 metadata).getD {}
    { threadId := entry.1, title := thread.title, source := thread.source
      cwd := cachedCwd cwds entry.1, totals := entry.2.totals
      turns := listTurns entry.2.turns : SessionSummary Path }).insertionSort
      fun left right => usageOrder left.totals left.threadId ≤ usageOrder right.totals right.threadId

def listHours (hours : List (NaiveDateTime × SummaryMetrics)) : List HourlySummary :=
  hours.map fun entry => ⟨entry.1, entry.2⟩

variable [PathText Path]

def listProject (dates : List NaiveDate) (metadata : Metadata Path)
    (cwds : List (String × Option Path)) (entry : String × ProjectAccumulator Path) :
    ProjectSummary Path where
  key := entry.1
  label := (entry.2.label.map Prod.snd).getD (projectLabel entry.2.cwd)
  cwd := entry.2.cwd
  totals := entry.2.totals
  days := dates.map fun date => ⟨date, (valueOf date entry.2.days).getD {}⟩
  hours := listHours entry.2.hours
  sessions := buildProjectSessions entry.2.sessions metadata cwds

def counted (samples : List (SummarySample Path)) (window : SummaryWindow) :
    List (SummarySample Path) :=
  samples.filter fun sample => sample.hasUsage && window.contains sample.timestamp

/-- The contributions of a summary, whose hash map of threads is iterated in an order. -/
def contributions (samples : List (SummarySample Path)) (window : SummaryWindow)
    (localDate : DateTime → NaiveDate) (localHour : DateTime → Option NaiveDateTime)
    (order : List String) : List (Contribution Path) :=
  (counted samples window).map
    (contributionOf (resolveThreads (threadMetadata samples) order) (projectNames samples) localDate
      localHour)

def summarizeSamplesWithLocalMapping (samples : List (SummarySample Path)) (window : SummaryWindow)
    (localDate : DateTime → NaiveDate) (localHour : DateTime → Option NaiveDateTime)
    (order : List String) : UsageSummary Path :=
  let metadata := threadMetadata samples
  let resolved := resolveThreads metadata order
  let dates := datesInWindow window localDate
  let books := (contributions samples window localDate localHour order).foldl Books.add
    { days := dates.map fun date => (date, {}) }
  { window
    totals := books.totals
    days := books.days.map fun entry => ⟨entry.1, entry.2⟩
    hours := listHours books.hours
    projects := (books.projects.map (listProject dates metadata resolved.cwds)).insertionSort
      fun left right => usageOrder left.totals left.key ≤ usageOrder right.totals right.key }

def summarizeSamplesWithLocalTime (samples : List (SummarySample Path)) (window : SummaryWindow)
    (localTime : DateTime → NaiveDateTime) (order : List String) : UsageSummary Path :=
  summarizeSamplesWithLocalMapping samples window (fun timestamp => dateOf (localTime timestamp))
    (fun timestamp => some (localHourStart (localTime timestamp))) order

end

end Summary
