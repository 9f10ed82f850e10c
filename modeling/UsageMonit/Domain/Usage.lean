import Mathlib.Data.List.Perm.Basic
import UsageMonit.Domain.Time
import UsageMonit.Lib.Fallible

/-!
# Local usage data (`domain.rs`)

Token usages with their saturating sums, the calls, tasks, turns and agent interactions of a
`RolloutDataset`. The window and quota estimates of tasks and turns, which later passes fill in,
are left out.

* `TokenUsage.addAssign_right_comm`, `TokenUsage.sum_perm`: a saturating sum does not depend on
  the order of its calls
* `TokenUsage.addAssign_of_valid`, `TokenUsage.deltaFrom_addAssign`: without overflow a sum of
  valid usages adds their fields, and the increase of a counter is the usage that was added
-/

namespace Usage

open Fallible Time

structure TokenUsage where
  inputTokens : Nat
  cachedInputTokens : Nat
  cacheWriteInputTokens : Nat
  outputTokens : Nat
  reasoningOutputTokens : Nat
  unclassifiedTokens : Nat
  totalTokens : Nat
deriving DecidableEq

namespace TokenUsage

def zero : TokenUsage := ⟨0, 0, 0, 0, 0, 0, 0⟩

instance : Inhabited TokenUsage := ⟨zero⟩

/-- Tokens without input or output detail; a usage that reports only a total is all of it. -/
def unclassified (u : TokenUsage) : Nat :=
  if u.inputTokens = 0 ∧ u.outputTokens = 0 ∧ u.unclassifiedTokens = 0 then u.totalTokens
  else u.unclassifiedTokens

def hasValidBreakdown (u : TokenUsage) : Prop :=
  u.cachedInputTokens ≤ u.inputTokens ∧ u.cacheWriteInputTokens ≤ u.inputTokens ∧
    u.reasoningOutputTokens ≤ u.outputTokens ∧
    (checkedAdd 64 u.inputTokens u.outputTokens).bind
      (fun known => checkedAdd 64 known u.unclassified) = some u.totalTokens

instance (u : TokenUsage) : Decidable u.hasValidBreakdown :=
  inferInstanceAs (Decidable (_ ∧ _ ∧ _ ∧ _))

def addAssign (u other : TokenUsage) : TokenUsage where
  unclassifiedTokens := saturatingAdd 64 u.unclassified other.unclassified
  inputTokens := saturatingAdd 64 u.inputTokens other.inputTokens
  cachedInputTokens := saturatingAdd 64 u.cachedInputTokens other.cachedInputTokens
  cacheWriteInputTokens := saturatingAdd 64 u.cacheWriteInputTokens other.cacheWriteInputTokens
  outputTokens := saturatingAdd 64 u.outputTokens other.outputTokens
  reasoningOutputTokens := saturatingAdd 64 u.reasoningOutputTokens other.reasoningOutputTokens
  totalTokens := saturatingAdd 64 u.totalTokens other.totalTokens

def isZero (u : TokenUsage) : Prop :=
  u.totalTokens = 0 ∧ u.inputTokens = 0 ∧ u.cachedInputTokens = 0 ∧
    u.cacheWriteInputTokens = 0 ∧ u.outputTokens = 0 ∧ u.reasoningOutputTokens = 0 ∧
    u.unclassifiedTokens = 0

instance (u : TokenUsage) : Decidable u.isZero := inferInstanceAs (Decidable (_ ∧ _))

def deltaFrom (u previous : TokenUsage) : Option TokenUsage :=
  if u.inputTokens < previous.inputTokens ∨ u.cachedInputTokens < previous.cachedInputTokens ∨
      u.cacheWriteInputTokens < previous.cacheWriteInputTokens ∨
      u.outputTokens < previous.outputTokens ∨
      u.reasoningOutputTokens < previous.reasoningOutputTokens ∨
      u.totalTokens < previous.totalTokens ∨ u.unclassified < previous.unclassified then
    none
  else
    some {
      inputTokens := u.inputTokens - previous.inputTokens
      cachedInputTokens := u.cachedInputTokens - previous.cachedInputTokens
      cacheWriteInputTokens := u.cacheWriteInputTokens - previous.cacheWriteInputTokens
      outputTokens := u.outputTokens - previous.outputTokens
      reasoningOutputTokens := u.reasoningOutputTokens - previous.reasoningOutputTokens
      totalTokens := u.totalTokens - previous.totalTokens
      unclassifiedTokens := u.unclassified - previous.unclassified }

/-- The running `add_assign` total of a list of usages, from the default. -/
def sum (usages : List TokenUsage) : TokenUsage := usages.foldl addAssign default

end TokenUsage

structure UsageCall where
  timestamp : DateTime
  threadId : String
  turnId : Option String
  usageEventId : Option String
  usageEventIdentityExact : Bool
  model : Option String
  serviceTier : Option String
  tokens : TokenUsage
  requestUsageExact : Bool
deriving DecidableEq

inductive TaskStatus
  | running
  | waitingApproval
  | waitingInput
  | idle
  | completed
  | interrupted
  | failed
  | stale
  | unknown
deriving DecidableEq

inductive TurnStatus
  | inProgress
  | completed
  | interrupted
  | failed
  | stale
  | unknown
deriving DecidableEq

inductive Confidence
  | high
  | medium
  | low
  | unknown
deriving DecidableEq

inductive Provenance
  | live
  | serverSnapshot
  | localExact
  | inferred
  | estimated
  | stale
  | unknown
deriving DecidableEq

structure TaskRecord where
  threadId : String
  parentThreadId : Option String
  archived : Bool
  title : String
  cwd : Option String
  source : Option String
  createdAt : Option DateTime
  updatedAt : Option DateTime
  status : TaskStatus
  statusProvenance : Provenance
  statusConfidence : Confidence
  tokenUsage : TokenUsage
  turnCount : Nat
deriving DecidableEq

structure TurnRecord where
  threadId : String
  turnId : String
  model : Option String
  reasoningEffort : Option String
  serviceTier : Option String
  messagePreview : Option String
  startedAt : Option DateTime
  completedAt : Option DateTime
  durationMs : Option Nat
  status : TurnStatus
  tokenUsage : TokenUsage
deriving DecidableEq

inductive AgentInteractionKind
  | unknown
  | spawnStarted
  | interacted
deriving DecidableEq

structure AgentInteraction where
  kind : AgentInteractionKind
  parentThreadId : String
  parentTurnId : String
  childThreadId : String
  callId : String
  requestedAt : Option DateTime
  occurredAt : Option DateTime
  provenance : Provenance
deriving DecidableEq

structure CollectionStats where
  discoveredFiles : Nat
  scannedFiles : Nat
  truncatedFiles : Nat
  unreadableFiles : Nat
  parsedLines : Nat
  skippedLines : Nat
  ambiguousTokenResets : Nat
deriving DecidableEq

instance : Inhabited CollectionStats := ⟨⟨0, 0, 0, 0, 0, 0, 0⟩⟩

/-- `LimitWindow`, with its percentages as the bits of a double: nothing here computes with
them. -/
structure LimitWindow where
  usedPercent : UInt64
  remainingPercent : UInt64
  windowDurationMins : Option Int
  resetsAt : Option DateTime
deriving DecidableEq

structure RateObservation where
  timestamp : DateTime
  threadId : String
  turnId : Option String
  limitId : String
  primary : Option LimitWindow
  secondary : Option LimitWindow
  provenance : Provenance
deriving DecidableEq

structure RolloutDataset where
  tasks : List TaskRecord
  turns : List TurnRecord
  agentInteractions : List AgentInteraction
  calls : List UsageCall
  rateObservations : List RateObservation
  stats : CollectionStats
  warnings : List String
deriving DecidableEq

instance : Inhabited RolloutDataset := ⟨⟨[], [], [], [], [], default, []⟩⟩

/-! ## Sums -/

namespace TokenUsage

theorem saturatingAdd_right_comm (w a b c : Nat) :
    saturatingAdd w (saturatingAdd w a b) c = saturatingAdd w (saturatingAdd w a c) b := by
  unfold saturatingAdd
  omega

theorem addAssign_unclassified (u v : TokenUsage) :
    (u.addAssign v).unclassified = saturatingAdd 64 u.unclassified v.unclassified := by
  unfold unclassified addAssign saturatingAdd
  dsimp only
  unfold unclassified
  repeat' split
  all_goals omega

theorem addAssign_right_comm (z u v : TokenUsage) :
    (z.addAssign u).addAssign v = (z.addAssign v).addAssign u := by
  have step : ∀ x y : TokenUsage, x.addAssign y =
      ⟨saturatingAdd 64 x.inputTokens y.inputTokens,
        saturatingAdd 64 x.cachedInputTokens y.cachedInputTokens,
        saturatingAdd 64 x.cacheWriteInputTokens y.cacheWriteInputTokens,
        saturatingAdd 64 x.outputTokens y.outputTokens,
        saturatingAdd 64 x.reasoningOutputTokens y.reasoningOutputTokens,
        saturatingAdd 64 x.unclassified y.unclassified,
        saturatingAdd 64 x.totalTokens y.totalTokens⟩ := fun _ _ => rfl
  rw [step (z.addAssign u), step (z.addAssign v), addAssign_unclassified, addAssign_unclassified]
  simp only [addAssign, mk.injEq]
  exact ⟨saturatingAdd_right_comm .., saturatingAdd_right_comm .., saturatingAdd_right_comm ..,
    saturatingAdd_right_comm .., saturatingAdd_right_comm .., saturatingAdd_right_comm ..,
    saturatingAdd_right_comm ..⟩

theorem sum_perm {us vs : List TokenUsage} (h : us.Perm vs) : sum us = sum vs := by
  have : RightCommutative addAssign := ⟨addAssign_right_comm⟩
  exact h.foldl_eq default

/-! ### Valid usages -/

theorem hasValidBreakdown_iff (u : TokenUsage) : u.hasValidBreakdown ↔
    u.cachedInputTokens ≤ u.inputTokens ∧ u.cacheWriteInputTokens ≤ u.inputTokens ∧
      u.reasoningOutputTokens ≤ u.outputTokens ∧
      u.inputTokens + u.outputTokens + u.unclassified = u.totalTokens ∧
      u.totalTokens < 2 ^ 64 := by
  unfold hasValidBreakdown checkedAdd
  constructor
  · rintro ⟨h1, h2, h3, h4⟩
    refine ⟨h1, h2, h3, ?_⟩
    split at h4
    · rw [Option.bind_some] at h4
      split at h4
      · have htotal := Option.some.inj h4
        omega
      · cases h4
    · cases h4
  · rintro ⟨h1, h2, h3, h4, h5⟩
    refine ⟨h1, h2, h3, ?_⟩
    rw [if_pos (by omega), Option.bind_some, if_pos (by omega), h4]

theorem addAssign_of_valid {u v : TokenUsage} (hu : u.hasValidBreakdown)
    (hv : v.hasValidBreakdown) (hfit : u.totalTokens + v.totalTokens < 2 ^ 64) :
    u.addAssign v = ⟨u.inputTokens + v.inputTokens, u.cachedInputTokens + v.cachedInputTokens,
      u.cacheWriteInputTokens + v.cacheWriteInputTokens, u.outputTokens + v.outputTokens,
      u.reasoningOutputTokens + v.reasoningOutputTokens, u.unclassified + v.unclassified,
      u.totalTokens + v.totalTokens⟩ := by
  rw [hasValidBreakdown_iff] at hu hv
  have hsat : ∀ a b : Nat, a + b < 2 ^ 64 → saturatingAdd 64 a b = a + b := by
    intro a b h
    unfold saturatingAdd
    omega
  unfold addAssign
  rw [hsat _ _ (by omega), hsat _ _ (by omega), hsat _ _ (by omega), hsat _ _ (by omega),
    hsat _ _ (by omega), hsat _ _ (by omega), hsat _ _ (by omega)]

theorem valid_addAssign {u v : TokenUsage} (hu : u.hasValidBreakdown)
    (hv : v.hasValidBreakdown) (hfit : u.totalTokens + v.totalTokens < 2 ^ 64) :
    (u.addAssign v).hasValidBreakdown := by
  have hun := addAssign_unclassified u v
  rw [addAssign_of_valid hu hv hfit] at hun ⊢
  rw [hasValidBreakdown_iff] at hu hv ⊢
  rw [hun]
  unfold saturatingAdd
  dsimp only
  omega

/-- Two usages that count the same: they may write the unclassified part differently. -/
def Same (u v : TokenUsage) : Prop :=
  u.inputTokens = v.inputTokens ∧ u.cachedInputTokens = v.cachedInputTokens ∧
    u.cacheWriteInputTokens = v.cacheWriteInputTokens ∧ u.outputTokens = v.outputTokens ∧
    u.reasoningOutputTokens = v.reasoningOutputTokens ∧ u.unclassified = v.unclassified ∧
    u.totalTokens = v.totalTokens

theorem Same.refl (u : TokenUsage) : u.Same u := ⟨rfl, rfl, rfl, rfl, rfl, rfl, rfl⟩

theorem addAssign_same (z : TokenUsage) {u v : TokenUsage} (h : u.Same v) :
    z.addAssign u = z.addAssign v := by
  obtain ⟨h1, h2, h3, h4, h5, h6, h7⟩ := h
  unfold addAssign
  rw [h1, h2, h3, h4, h5, h6, h7]

theorem deltaFrom_addAssign {u v : TokenUsage} (hu : u.hasValidBreakdown)
    (hv : v.hasValidBreakdown) (hfit : u.totalTokens + v.totalTokens < 2 ^ 64) :
    ∃ delta, (u.addAssign v).deltaFrom u = some delta ∧ delta.Same v := by
  have hun : (u.addAssign v).unclassified = u.unclassified + v.unclassified := by
    rw [addAssign_unclassified]
    rw [hasValidBreakdown_iff] at hu hv
    unfold saturatingAdd
    omega
  have hfields := addAssign_of_valid hu hv hfit
  rw [hasValidBreakdown_iff] at hv
  refine ⟨⟨v.inputTokens, v.cachedInputTokens, v.cacheWriteInputTokens, v.outputTokens,
    v.reasoningOutputTokens, v.unclassified, v.totalTokens⟩, ?_, ?_⟩
  · unfold deltaFrom
    rw [hun, hfields]
    dsimp only
    rw [if_neg (by omega)]
    simp only [Nat.add_sub_cancel_left]
  · refine ⟨rfl, rfl, rfl, rfl, rfl, ?_, rfl⟩
    rw [unclassified]
    dsimp only
    split <;> omega

theorem default_valid : (default : TokenUsage).hasValidBreakdown := by decide

theorem default_addAssign {v : TokenUsage} (hv : v.hasValidBreakdown) :
    ((default : TokenUsage).addAssign v).Same v := by
  have hfit : (default : TokenUsage).totalTokens + v.totalTokens < 2 ^ 64 := by
    rw [hasValidBreakdown_iff] at hv
    show 0 + _ < _
    omega
  have hun := addAssign_unclassified default v
  rw [hasValidBreakdown_iff] at hv
  rw [addAssign_of_valid default_valid ((hasValidBreakdown_iff v).2 hv) hfit] at hun ⊢
  refine ⟨Nat.zero_add _, Nat.zero_add _, Nat.zero_add _, Nat.zero_add _, Nat.zero_add _, ?_,
    Nat.zero_add _⟩
  rw [hun]
  show saturatingAdd 64 0 _ = _
  unfold saturatingAdd
  omega

theorem addAssign_empty {u v : TokenUsage} (hu : u.hasValidBreakdown) (hv : v.hasValidBreakdown)
    (hnorm : u.unclassifiedTokens = u.unclassified) (hzero : v.totalTokens = 0) :
    u.addAssign v = u := by
  have hfields := addAssign_of_valid hu hv (by rw [hasValidBreakdown_iff] at hu; omega)
  rw [hasValidBreakdown_iff] at hv
  rw [hfields]
  obtain ⟨a, b, c, d, e, f, g⟩ := u
  simp only [mk.injEq] at *
  omega

end TokenUsage

end Usage
