import UsageMonit.Rollout.Scan

/-!
# Collections with one cache

A snapshot collects with a cache that lives on: what the scans show, and since when all of the local
usage has been seen. Two things hold of every run, whatever the scans find and whether they fail.
What is called covered was seen by a complete scan. And while the ledger can be read, a scan that
shows nothing has nothing new or keeps the change pending.
-/

namespace Rollout

open Fallible Time Usage

def rolloutDatasetComplete (dataset : RolloutDataset) : Bool :=
  dataset.stats.truncatedFiles = 0 && dataset.stats.unreadableFiles = 0 &&
    dataset.stats.skippedLines = 0 && dataset.stats.ambiguousTokenResets = 0

/-- A scan for a snapshot (`snapshot.rs`), which keeps account of what is covered. -/
def collectLocalSource (env : ScanEnv) (cache : RolloutCache) (input : ScanInput) :
    RolloutCache × Except String (Option RolloutDataset) :=
  match scanInner env cache input with
  | (cache, .ok (some dataset)) =>
    (updateLocalCoverage cache input.now (rolloutDatasetComplete dataset), .ok (some dataset))
  | (cache, .ok none) => (cache, .ok none)
  | (cache, .error error) => (updateLocalCoverage cache input.now false, .error error)

/-! ## Runs -/

/-- What a dataset is made from, apart from the time. -/
structure Evidence where
  reduced : Option ReducedRollouts
  discovery : Option DiscoveryState
  titles : Map String
  ledgerFingerprint : Option String

def RolloutCache.evidence (cache : RolloutCache) : Evidence :=
  ⟨cache.reduced, cache.lastDiscovery, cache.sessionTitles.titles, cache.deletedLedgerFingerprint⟩

def shownAfter (last : Option Evidence) (cache : RolloutCache) :
    Except String (Option RolloutDataset) → Option Evidence
  | .ok (some _) => some cache.evidence
  | _ => last

def completeScan (input : ScanInput) : Except String (Option RolloutDataset) → List ScanInput
  | .ok (some dataset) =>
    if rolloutDatasetComplete dataset && input.discoveryCache.complete then [input] else []
  | _ => []

/-- What the last dataset was made from, the complete scans, and whether every scan could read the
ledger. -/
structure Past where
  last : Option Evidence
  complete : List ScanInput
  ledger : Bool

def Past.collect (past : Past) (cache : RolloutCache) (input : ScanInput)
    (result : Except String (Option RolloutDataset)) : Past :=
  ⟨shownAfter past.last cache result, completeScan input result ++ past.complete,
    past.ledger && input.ledgerFingerprint.isOk⟩

/-- A cache in use. -/
inductive Collections (env : ScanEnv) : RolloutCache → Past → Prop
  | new : Collections env .new ⟨none, [], true⟩
  | forked {cache : RolloutCache} {past : Past} :
      Collections env cache past → Collections env (forkForHistoryScan cache) ⟨none, [], true⟩
  | collect {cache cache' : RolloutCache} {past : Past} {input : ScanInput}
      {result : Except String (Option RolloutDataset)} :
      Collections env cache past → collectLocalSource env cache input = (cache', result) →
      Collections env cache' (past.collect cache' input result)
  | invalidated {cache : RolloutCache} {past : Past} :
      Collections env cache past → Collections env (invalidateAfterSessionMutation cache) past
  | boundary {cache : RolloutCache} {past : Past} (now : DateTime) (next : Option DateTime) :
      Collections env cache past → Collections env (setExternalBoundary cache now next) past

variable {env : ScanEnv} {cache cache' start : RolloutCache} {past : Past} {input : ScanInput}
  {scans : List ScanInput} {last : Option Evidence} {fingerprint : Option String}
  {result : Except String (Option RolloutDataset)}

namespace Sample

def rollout : RolloutFile :=
  ⟨["", "home", "codex", "sessions", "rollout.jsonl"], seconds 2, ⟨120, 2, 1, 7, 2, 0⟩⟩

def home : ScanInput where
  config := ⟨["", "home", "codex"], false, minutes 5⟩
  now := seconds 3
  forceMaterialize := false
  coalesceMaterialization := false
  nextExternalBoundary := none
  files := [rollout]
  files_nodup := List.nodup_singleton _
  discovery := ⟨default, [], 0⟩
  discoveryCache := ⟨1, ∅, ⟨∅, [], []⟩, 0, true⟩
  titleIndex := .found ⟨40, 1, 1, 8, 1, 0⟩ (.ok ⟨(∅ : Map String).insert "thread" "title", none⟩)
  loadPersistentFile _ := none
  refreshStableRolloutFile file _ := ⟨file.fingerprint, {
    ownerThreadId := some "thread"
    activityUpdatedAt := some (seconds 2)
    events := [.taskStarted (seconds 1) "turn" none,
      .requestUsage ⟨seconds 2, "turn", "response", ⟨100, 0, 0, 10, 0, 0, 110⟩, none⟩]
    parsedLines := 2
    skippedLines := 0
    unreadableFiles := 0
    warnings := []
    suppressedWarnings := 0
    complete := true
    replayStartedAt := some (seconds 1)
    replayUpdatedAt := some (seconds 2)
    replayTimestampsComplete := true }⟩
  probeOwner _ := .noOwner
  ledgerFingerprint := .ok (some "ledger")
  deletedSessions := .ok []

def scanEnv : ScanEnv where
  replay := ⟨fun _ => [], fun _ => none⟩
  ledger := ⟨fun _ => [], fun _ => "", fun _ => 0, fun _ calls => calls, fun _ _ => .refl _⟩

def shown : RolloutCache × Except String (Option RolloutDataset) :=
  collectLocalSource scanEnv .new home

def later : ScanInput := { home with now := hours 2, forceMaterialize := true }

theorem collected : Collections scanEnv shown.1
    (Past.collect ⟨none, [], true⟩ shown.1 home shown.2) :=
  Collections.new.collect rfl

end Sample

theorem refreshAsOf_eq (env : ScanEnv) (cache : RolloutCache) (input : ScanInput)
    (reduction : Reduction) (boundary : Option DateTime) :
    ∃ asOf probes, refreshAsOf env cache input reduction boundary =
      { cache with asOfReduced := asOf, omittedOwnerProbes := probes } := by
  unfold refreshAsOf
  split
  · exact ⟨_, _, rfl⟩
  · split <;> exact ⟨_, _, rfl⟩

/-! ## Coverage -/

/-- The key of a cache, and what it covers. -/
def RolloutCache.coverage (cache : RolloutCache) :
    Option CacheKey × Option DateTime × Option DateTime :=
  (cache.key, cache.localCoverageStartedAt, cache.localCoverageLastCompleteAt)

/-- Each moment that is covered was seen: some scan since then looked back to it. -/
def Covered (scans : List ScanInput) :
    Option CacheKey × Option DateTime × Option DateTime → Prop
  | (key, startedAt, lastCompleteAt) =>
    ∀ last ∈ lastCompleteAt, ∃ start ∈ startedAt, start ≤ last ∧ ∀ t, start ≤ t → t ≤ last →
      ∃ scan ∈ scans, key = some scan.config.key ∧ t ≤ scan.now ∧
        ∀ d ∈ lookback scan.discoveryCache.lookbackDays, scan.now - t ≤ d

theorem covered_none {key : Option CacheKey} : Covered scans (key, none, none) := by
  intro last hlast
  cases hlast

theorem materializeScan_coverage {reduction : Reduction} {discovery : DiscoveryState} :
    (materializeScan env cache input reduction discovery fingerprint).1.coverage = cache.coverage ∧
      (materializeScan env cache input reduction discovery fingerprint).1.discoveryCache =
        cache.discoveryCache := by
  unfold materializeScan
  dsimp only
  obtain ⟨asOf, probes, hrefresh⟩ := refreshAsOf_eq env cache input reduction _
  split <;> rw [hrefresh] <;> exact ⟨rfl, rfl⟩

theorem resetForKey_key (config : CollectConfig) :
    (resetForKey cache config).key = some config.key := by
  unfold resetForKey
  split
  · assumption
  · rfl

theorem scanInner_covered (h : Covered scans cache.coverage)
    (hscan : scanInner env cache input = (cache', result)) :
    Covered scans cache'.coverage ∧ cache'.key = some input.config.key ∧
      cache'.discoveryCache = some input.discoveryCache := by
  have hreset : Covered scans (resetForKey cache input.config).coverage := by
    unfold resetForKey
    split
    · exact h
    · exact covered_none
  have hkey := @resetForKey_key cache input.config
  have hcoverage : cache'.coverage = (resetForKey cache input.config).coverage ∧
      cache'.discoveryCache = some input.discoveryCache := by
    obtain rfl : (scanInner env cache input).1 = cache' := congrArg Prod.fst hscan
    unfold scanInner
    dsimp only
    split
    · exact ⟨rfl, rfl⟩
    · split
      · exact materializeScan_coverage
      · exact ⟨rfl, rfl⟩
  exact ⟨hcoverage.1 ▸ hreset, (congrArg Prod.fst hcoverage.1).trans hkey, hcoverage.2⟩

/-- **A complete scan** extends what is covered if it looks back to the last one. -/
theorem updateLocalCoverage_covered (h : Covered scans cache.coverage)
    (hkey : cache.key = some input.config.key)
    (hdiscovery : cache.discoveryCache = some input.discoveryCache) {complete : Bool} :
    Covered ((if complete && input.discoveryCache.complete then [input] else []) ++ scans)
      (updateLocalCoverage cache input.now complete).coverage := by
  unfold updateLocalCoverage
  rw [hdiscovery, Option.filter_some]
  split_ifs with hcomplete
  · intro last hlast
    cases hlast
    by_cases hcontinuous : coverageIsContinuous cache input.discoveryCache input.now
    · obtain ⟨last, hlast, hgap⟩ := (Option.any_eq_true _ _).1 hcontinuous
      simp only [Bool.and_eq_true, decide_eq_true_eq] at hgap
      obtain ⟨start, hstart, hle, hseen⟩ := h last hlast
      refine ⟨start, (if_pos hcontinuous).trans hstart, hle.trans hgap.1, fun t ht hnow => ?_⟩
      rcases le_total t last with hold | hnew
      · obtain ⟨scan, hscan, hback⟩ := hseen t ht hold
        exact ⟨scan, List.mem_append_right _ hscan, hback⟩
      · refine ⟨input, List.mem_append_left _ (List.mem_singleton_self _), hkey, hnow,
          fun d hd => ?_⟩
        have hreach := (Option.all_eq_true _ _).1 hgap.2 d hd
        exact (sub_le_sub_left hnew _).trans (of_decide_eq_true hreach)
    · refine ⟨_, if_neg hcontinuous, le_refl _, fun t ht hnow => ?_⟩
      obtain rfl := le_antisymm ht hnow
      refine ⟨input, List.mem_append_left _ (List.mem_singleton_self _), hkey, hnow,
        fun d hd => ?_⟩
      unfold lookback at hd
      split at hd
      · cases hd
        rw [sub_self]
        exact Int.mul_nonneg (Int.mul_nonneg (Int.le_max_right _ _) (by decide)) (by decide)
      · cases hd
  · exact covered_none

theorem Covered.collect (h : Covered scans cache.coverage)
    (hcollect : collectLocalSource env cache input = (cache', result)) :
    Covered (completeScan input result ++ scans) cache'.coverage := by
  unfold collectLocalSource at hcollect
  split at hcollect <;> next hscan =>
    obtain ⟨hcovered, hkey, hdiscovery⟩ := scanInner_covered h hscan
    cases hcollect
    first
    | exact hcovered
    | exact updateLocalCoverage_covered hcovered hkey hdiscovery

/-- **Local coverage is honest**: each moment from its start to the last complete scan was within
reach of a complete scan that came after it, whatever failed or was incomplete in between. -/
theorem coverage_seen (h : Collections env cache past) :
    Covered past.complete cache.coverage := by
  induction h with
  | new => exact covered_none
  | forked => exact covered_none
  | collect _ hcollect ih => exact ih.collect hcollect
  | invalidated _ ih => exact ih
  | boundary _ _ _ ih => exact ih

/-- The second of two complete scans extends what is covered. -/
theorem coverage_seen_extended :
    (collectLocalSource Sample.scanEnv Sample.shown.1 Sample.later).1.coverage =
        (some Sample.home.config.key, some (seconds 3), some (hours 2)) ∧
      Covered (completeScan Sample.later (collectLocalSource Sample.scanEnv Sample.shown.1
          Sample.later).2 ++ completeScan Sample.home Sample.shown.2)
        (some Sample.home.config.key, some (seconds 3), some (hours 2)) := by
  have hcoverage : (collectLocalSource Sample.scanEnv Sample.shown.1 Sample.later).1.coverage =
      (some Sample.home.config.key, some (seconds 3), some (hours 2)) := by decide +kernel
  refine ⟨hcoverage, ?_⟩
  rw [← hcoverage, ← List.append_nil (completeScan Sample.home _)]
  exact coverage_seen (Sample.collected.collect rfl)

/-! ## What a scan shows -/

/-- The last dataset has all there is, or something is pending. -/
structure UpToDate (cache : RolloutCache) (last : Option Evidence) : Prop where
  shown : cache.materializationPending = false → cache.lastMaterializedAt.isSome →
    last = some cache.evidence
  redacted : cache.key.any CacheKey.redactContent → cache.sessionTitles.titles = ∅

theorem UpToDate.reset (h : UpToDate cache last) (config : CollectConfig) :
    UpToDate (resetForKey cache config) last := by
  unfold resetForKey
  split
  · exact h
  · refine ⟨fun _ hsome => ?_, fun _ => rfl⟩
    cases hsome

theorem refreshSessionTitles_reused {titles : SessionTitleCache}
    (h : (refreshSessionTitles titles input).reused) :
    (refreshSessionTitles titles input).titles.titles = titles.titles := by
  unfold refreshSessionTitles at h ⊢
  dsimp only at h ⊢
  split at h
  · cases h
  · rw [if_neg ‹_›]
    cases hindex : input.titleIndex with
    | missing =>
      rw [hindex] at h
      simp [of_decide_eq_true h]
    | found fingerprint loaded =>
      rw [hindex] at h
      dsimp only at h ⊢
      split at h
      · rw [if_pos ‹_›]
      · cases loaded <;> cases h
    | _ =>
      rw [hindex] at h
      cases h

theorem reduceScan_reused (h : (reduceScan env cache input).rebuilt = false) :
    cache.reduced = some (reduceScan env cache input).reduced := by
  unfold reduceScan at h ⊢
  dsimp only at h ⊢
  cases hreduced : cache.reduced with
  | none => simp [hreduced] at h
  | some reduced =>
    simp only [hreduced] at h ⊢
    split_ifs at h ⊢
    rfl

/-- **What a scan notices** is pending. -/
theorem UpToDate.notice {titles : RefreshedTitles} {reduction : Reduction} (h : UpToDate start last)
    (htitles : refreshSessionTitles start.sessionTitles input = titles)
    (hreduction : reduceScan env start input = reduction)
    (hkey : start.key = some input.config.key ∧ cache.key = start.key)
    (hevidence : cache.evidence = ⟨some reduction.reduced, some titles.discovery,
      titles.titles.titles, start.deletedLedgerFingerprint⟩)
    (hpending : cache.materializationPending = (start.materializationPending ||
      (reduction.rebuilt || decide (start.lastDiscovery ≠ some titles.discovery) ||
        (!input.config.redactContent && !titles.reused) ||
        decide (start.deletedLedgerFingerprint ≠ fingerprint))))
    (hlast : cache.lastMaterializedAt = start.lastMaterializedAt) : UpToDate cache last := by
  subst htitles hreduction
  obtain ⟨hstart, hsame⟩ := hkey
  have hnone : input.config.redactContent →
      (refreshSessionTitles start.sessionTitles input).titles.titles = ∅ := by
    intro hredact
    rw [refreshSessionTitles, if_pos hredact]
    rfl
  refine ⟨fun hquiet hsome => ?_, fun hredact => ?_⟩
  · simp only [hpending, Bool.or_eq_false_iff, Bool.and_eq_false_iff, Bool.not_eq_false',
      decide_eq_false_iff_not, not_not] at hquiet
    obtain ⟨hquiet, ⟨⟨hrebuilt, hdiscovery⟩, hreused⟩, -⟩ := hquiet
    have htitles : (refreshSessionTitles start.sessionTitles input).titles.titles =
        start.sessionTitles.titles := by
      rcases hreused with hredact | hreused
      · rw [hnone hredact, h.redacted (by rwa [hstart])]
      · exact refreshSessionTitles_reused hreused
    rw [h.shown hquiet (hlast ▸ hsome), hevidence, htitles, ← reduceScan_reused hrebuilt,
      ← hdiscovery]
    rfl
  · rw [hsame, hstart] at hredact
    exact (congrArg Evidence.titles hevidence).trans (hnone hredact)

theorem UpToDate.materialize {reduction : Reduction} {discovery : DiscoveryState}
    (hscan : materializeScan env cache input reduction discovery fingerprint = (cache', result))
    (h : UpToDate cache last) :
    UpToDate cache' (shownAfter last cache' result) ∧ result ≠ .ok none := by
  unfold materializeScan at hscan
  dsimp only at hscan
  obtain ⟨asOf, probes, hrefresh⟩ := refreshAsOf_eq env cache input reduction _
  rw [hrefresh] at hscan
  split at hscan <;> cases hscan <;> refine ⟨?_, fun hnone => by cases hnone⟩
  · exact ⟨h.shown, h.redacted⟩
  · exact ⟨fun _ _ => rfl, h.redacted⟩

/-- **A scan** that reads the ledger keeps a cache up to date. -/
theorem UpToDate.scan (h : UpToDate cache last)
    (hledger : input.ledgerFingerprint = .ok fingerprint)
    (hscan : scanInner env cache input = (cache', result)) :
    UpToDate cache' (shownAfter last cache' result) ∧ (result = .ok none →
      cache'.deletedLedgerFingerprint = fingerprint ∧ cache'.lastMaterializedAt.isSome ∧
        (cache'.materializationPending && coalesceDue cache' input) = false) := by
  have hstart := h.reset input.config
  have hkey := @resetForKey_key cache input.config
  unfold scanInner at hscan
  dsimp only at hscan
  rw [hledger] at hscan
  dsimp only at hscan
  split at hscan
  · obtain ⟨hnext, hne⟩ :=
      UpToDate.materialize hscan (hstart.notice rfl rfl ⟨hkey, rfl⟩ rfl rfl rfl)
    exact ⟨hnext, fun hnone => absurd hnone hne⟩
  · next hshow =>
    cases hscan
    simp only [Bool.not_eq_true, Bool.or_eq_false_iff] at hshow
    refine ⟨hstart.notice rfl rfl ⟨hkey, rfl⟩ rfl rfl rfl,
      fun _ => ⟨not_not.1 (of_decide_eq_false hshow.1.1.1.1.2), ?_, hshow.2⟩⟩
    rw [← Option.not_isNone, hshow.1.1.1.2]
    rfl

theorem updateLocalCoverage_eq (cache : RolloutCache) (now : DateTime) (complete : Bool) :
    ∃ startedAt lastCompleteAt, updateLocalCoverage cache now complete =
      { cache with
        localCoverageStartedAt := startedAt
        localCoverageLastCompleteAt := lastCompleteAt } := by
  unfold updateLocalCoverage
  split <;> exact ⟨_, _, rfl⟩

theorem UpToDate.collect (h : UpToDate cache last)
    (hledger : input.ledgerFingerprint = .ok fingerprint)
    (hcollect : collectLocalSource env cache input = (cache', result)) :
    UpToDate cache' (shownAfter last cache' result) := by
  unfold collectLocalSource at hcollect
  split at hcollect <;> next hscan =>
    have hup := (h.scan hledger hscan).1
    cases hcollect
    first
    | exact hup
    | obtain ⟨_, _, hcoverage⟩ := updateLocalCoverage_eq ..
      rw [hcoverage]
      exact ⟨hup.shown, hup.redacted⟩

theorem Collections.upToDate (h : Collections env cache past) (hledger : past.ledger) :
    UpToDate cache past.last := by
  induction h with
  | new => exact ⟨fun _ hsome => (nomatch hsome), fun _ => rfl⟩
  | forked => exact ⟨fun _ hsome => (nomatch hsome), fun _ => rfl⟩
  | @collect _ _ _ input _ _ hcollect ih =>
    obtain ⟨hpast, hinput⟩ := Bool.and_eq_true_iff.1 hledger
    cases hread : input.ledgerFingerprint with
    | error => rw [hread] at hinput; cases hinput
    | ok => exact (ih hpast).collect hread hcollect
  | invalidated _ ih => exact ⟨fun hquiet => (nomatch hquiet), (ih hledger).redacted⟩
  | boundary _ _ _ ih => exact ⟨(ih hledger).shown, (ih hledger).redacted⟩

/-- **A scan that shows nothing** has nothing new, unless it waits for the end of an interval after
the last dataset. -/
theorem scan_unchanged (h : Collections env cache past) (hpast : past.ledger)
    (hledger : input.ledgerFingerprint = .ok fingerprint)
    (hscan : scanInner env cache input = (cache', .ok none)) :
    cache'.deletedLedgerFingerprint = fingerprint ∧ (past.last = some cache'.evidence ∨
      (input.coalesceMaterialization ∧ ∃ shownAt ∈ cache'.lastMaterializedAt,
        shownAt ≤ input.now ∧ input.now - shownAt < snapshotMaterializeCoalesceInterval)) := by
  obtain ⟨hup, hquiet⟩ := (h.upToDate hpast).scan hledger hscan
  obtain ⟨hread, hsome, hwait⟩ := hquiet rfl
  refine ⟨hread, ?_⟩
  rcases Bool.and_eq_false_iff.1 hwait with hquiet | hwait
  · exact .inl (hup.shown hquiet hsome)
  · obtain ⟨shownAt, hshown⟩ := Option.isSome_iff_exists.1 hsome
    simp only [coalesceDue, hshown, Option.all_some, Bool.or_eq_false_iff, Bool.not_eq_false',
      decide_eq_false_iff_not, not_lt, ge_iff_le, not_le] at hwait
    exact .inr ⟨hwait.1, shownAt, hshown, hwait.2⟩

/-- A home is shown once, its titles and its ledger included. -/
theorem scan_unchanged_home :
    (scanInner Sample.scanEnv Sample.shown.1 Sample.home).1.deletedLedgerFingerprint =
        some "ledger" ∧
      (scanInner Sample.scanEnv Sample.shown.1 Sample.home).1.evidence =
        Sample.shown.1.evidence := by
  have hquiet : (scanInner Sample.scanEnv Sample.shown.1 Sample.home).2 = .ok none := by
    have hnone : (scanInner Sample.scanEnv Sample.shown.1 Sample.home).2.toOption.map
        Option.isNone = some true := by decide +kernel
    generalize (scanInner Sample.scanEnv Sample.shown.1 Sample.home).2 = scan at hnone
    cases scan with
    | error error => cases hnone
    | ok scan => exact congrArg _ (Option.isNone_iff_eq_none.1 (Option.some.inj hnone))
  obtain ⟨hledger, hsame⟩ := scan_unchanged Sample.collected rfl rfl (Prod.ext rfl hquiet)
  refine ⟨hledger, ?_⟩
  rcases hsame with hsame | hwaits
  · exact (Option.some.inj hsame).symm
  · cases hwaits.1

end Rollout
