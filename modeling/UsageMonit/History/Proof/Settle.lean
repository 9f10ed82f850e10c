import UsageMonit.History.Proof.Ascends
import UsageMonit.History.Weekly

/-!
# Writers that keep re-observing

A schedule upserts versions of one bucket again and again. As long as no version takes the stored
bucket back (`Backslides`), it changes finitely often (`buckets_settle`), and so do the points of a
weekly slot (`points_settle`): every change raises a rank, of which there are finitely many. Without
that condition three versions can go round for ever (`Sample.bucket_never_settles`).
-/

namespace History

open Time Settling

/-! ## Buckets -/

section
variable (current : Revisions) (buckets : List LocalHalfHourBucket)
  (schedule : ℕ → LocalHalfHourBucket)

/-- The stored buckets after the first versions of a schedule. -/
def bucketsAfter : ℕ → List LocalHalfHourBucket
  | 0 => buckets
  | n + 1 => (upsertHalfHourBucket current (bucketsAfter n) (schedule n)).1

end

section
variable {current : Revisions} {incoming : LocalHalfHourBucket}

theorem upsertSlot_cases (buckets : List LocalHalfHourBucket) :
    ((∀ bucket ∈ buckets, bucket.startsAt ≠ incoming.startsAt) ∧
        (upsertSlot current incoming buckets).1 = buckets ++ [incoming]) ∨
      ∃ pre existing post, buckets = pre ++ existing :: post ∧
        existing.startsAt = incoming.startsAt ∧ (upsertSlot current incoming buckets).1 =
          pre ++ (mergeVersion current existing incoming).1 :: post := by
  induction buckets with
  | nil => exact .inl ⟨by simp, rfl⟩
  | cons bucket buckets ih =>
    by_cases hstart : bucket.startsAt = incoming.startsAt
    · exact .inr ⟨[], bucket, buckets, rfl, hstart, by simp [upsertSlot, hstart]⟩
    · rcases ih with ⟨hnone, heq⟩ | ⟨pre, existing, post, hsplit, hexisting, heq⟩
      · exact .inl ⟨by simpa [hstart] using hnone, by simp [upsertSlot, hstart, heq]⟩
      · exact .inr ⟨bucket :: pre, existing, post, by simp [hsplit], hexisting,
          by simp [upsertSlot, hstart, heq]⟩

/-- Whether the bucket of a start still has to be appended. -/
def awaited (start : DateTime) (buckets : List LocalHalfHourBucket) : ℕ :=
  if ∃ bucket ∈ buckets, bucket.startsAt = start then 0 else 1

theorem mergeVersion_startsAt {existing : LocalHalfHourBucket}
    (hstart : existing.startsAt = incoming.startsAt) :
    (mergeVersion current existing incoming).1.startsAt = existing.startsAt := by
  rcases (@mergeVersion_parts current existing incoming).start with h | h
  · exact h
  · exact h.trans hstart.symm

theorem DrawnFrom.upsert {sources buckets : List LocalHalfHourBucket}
    (hbuckets : ∀ bucket ∈ buckets, DrawnFrom sources bucket)
    (hincoming : DrawnFrom sources incoming) :
    ∀ bucket ∈ (upsertHalfHourBucket current buckets incoming).1, DrawnFrom sources bucket := by
  unfold upsertHalfHourBucket
  split_ifs
  swap
  · exact hbuckets
  rcases @upsertSlot_cases current incoming buckets with
    ⟨-, heq⟩ | ⟨pre, existing, post, hsplit, -, heq⟩
  · simpa [heq, or_imp, forall_and] using ⟨hbuckets, hincoming⟩
  · subst hsplit
    rw [heq]
    intro bucket hmem
    rcases List.mem_append.1 hmem with h | h
    · exact hbuckets bucket (by simp [h])
    · rcases List.mem_cons.1 h with rfl | h
      · exact .merge (hbuckets existing (by simp)) hincoming
      · exact hbuckets bucket (by simp [h])

theorem upsertHalfHourBucket_step {sources buckets : List LocalHalfHourBucket} {start : DateTime}
    (hbuckets : ∀ bucket ∈ buckets, DrawnFrom sources bucket)
    (hincoming : DrawnFrom sources incoming) (hstart : incoming.startsAt = start)
    (hback : ∀ existing ∈ buckets, existing.startsAt = start →
      ¬ Backslides current existing incoming) :
    (upsertHalfHourBucket current buckets incoming).1 = buckets ∨
      awaited start (upsertHalfHourBucket current buckets incoming).1 < awaited start buckets ∨
      (awaited start (upsertHalfHourBucket current buckets incoming).1 ≤ awaited start buckets ∧
        Raised (rank current.estimator)
          {x | ∃ bucket, DrawnFrom sources bucket ∧ rank current.estimator bucket = x} buckets
          (upsertHalfHourBucket current buckets incoming).1) := by
  unfold upsertHalfHourBucket
  split_ifs
  swap
  · exact .inl rfl
  rcases @upsertSlot_cases current incoming buckets with
    ⟨hnone, heq⟩ | ⟨pre, existing, post, hsplit, hexisting, heq⟩
  · refine .inr (.inl ?_)
    have hbefore : ¬ ∃ bucket ∈ buckets, bucket.startsAt = start := by
      rintro ⟨bucket, hmem, h⟩
      exact hnone bucket hmem (h.trans hstart.symm)
    have hafter : ∃ bucket ∈ buckets ++ [incoming], bucket.startsAt = start :=
      ⟨incoming, by simp, hstart⟩
    rw [heq, awaited, awaited, if_pos hafter, if_neg hbefore]
    exact Nat.zero_lt_one
  · subst hsplit
    rw [heq]
    rcases mergeVersion_ascends (hback existing (by simp) (hexisting.trans hstart)) with h | h
    · exact .inl (by rw [h])
    · refine .inr (.inr ⟨?_, pre, existing, _, post, rfl, rfl, h, _,
        .merge (hbuckets existing (by simp)) hincoming, rfl⟩)
      have hafter : ∃ bucket ∈ pre ++ (mergeVersion current existing incoming).1 :: post,
          bucket.startsAt = start :=
        ⟨(mergeVersion current existing incoming).1, by simp,
          (mergeVersion_startsAt hexisting).trans (hexisting.trans hstart)⟩
      rw [awaited, if_pos hafter]
      exact Nat.zero_le _

end

/-- Buckets settle under a schedule whose versions never take the stored bucket back. -/
theorem buckets_settle {current : Revisions} {buckets versions : List LocalHalfHourBucket}
    {schedule : ℕ → LocalHalfHourBucket} {start : DateTime}
    (hschedule : ∀ n, schedule n ∈ versions)
    (hstart : ∀ version ∈ versions, version.startsAt = start)
    (hback : ∀ n, ∀ existing ∈ bucketsAfter current buckets schedule n,
      existing.startsAt = start → ¬ Backslides current existing (schedule n)) :
    ∃ N, ∀ n, N ≤ n → bucketsAfter current buckets schedule n =
      bucketsAfter current buckets schedule N := by
  have hversion (n : ℕ) : DrawnFrom (buckets ++ versions) (schedule n) :=
    .of_mem (by simp [hschedule n])
  have hdrawn (n : ℕ) : ∀ bucket ∈ bucketsAfter current buckets schedule n,
      DrawnFrom (buckets ++ versions) bucket := by
    induction n with
    | zero => exact fun bucket hmem => .of_mem (by simp [show bucket ∈ buckets from hmem])
    | succ n ih => exact DrawnFrom.upsert ih (hversion n)
  refine lists_settle (rank current.estimator)
    (ranks_finite current.estimator (buckets ++ versions)) (awaited start) fun n => ?_
  exact upsertHalfHourBucket_step (hdrawn n) (hversion n) (hstart _ (hschedule n)) (hback n)

/-! ## Weekly points -/

/-- The ways in which a point may take a stored one back. -/
inductive WeeklyBackslides (estimator : Nat) (existing incoming : WeeklyLocalPoint) : Prop
  /-- Neither point counts all of the other, and the incoming one wins by its quality, its time or
  its key. -/
  | sideways (same : incoming.estimatorRevision = existing.estimatorRevision)
      (less : weeklyEvidenceDominates incoming existing = false)
      (more : weeklyEvidenceDominates existing incoming = false)
      (wins : shouldReplaceWeeklyLocalPoint estimator incoming existing = true)
  /-- An earlier point of the same counters wins because it has fewer issues. -/
  | earlier (same : incoming.estimatorRevision = existing.estimatorRevision)
      (evidence : weeklyEvidenceDominates incoming existing = true ∧
        weeklyEvidenceDominates existing incoming = true)
      (fewer : collectionIssueCount incoming.partialReasons <
        collectionIssueCount existing.partialReasons)
      (before : incoming.observedAt < existing.observedAt)
      (other : ¬ (weeklyLocalPointEvidenceEq incoming existing = true ∧
        coverageIssueStateDiffers incoming.partialReasons existing.partialReasons = true))

def WeeklyLocalPoint.evidence (point : WeeklyLocalPoint) : Evidence :=
  evidenceOf point.callCount point.tokenUsage point.estimatedCostUnits

theorem weeklyEvidenceDominates_iff {a b : WeeklyLocalPoint} :
    weeklyEvidenceDominates a b = true ↔ b.evidence ≤ a.evidence :=
  unweighted_and_units_iff

abbrev WeeklyRank := WithTop ℕ ×ₗ Evidence ×ₗ ℤ ×ₗ ℕᵒᵈ

def weeklyRank (estimator : Nat) (point : WeeklyLocalPoint) : WeeklyRank :=
  toLex (estimatorRank estimator point.estimatorRevision, toLex (point.evidence,
    toLex (point.observedAt, OrderDual.toDual (collectionIssueCount point.partialReasons))))

section
variable {estimator : Nat} {a b existing incoming : WeeklyLocalPoint}

theorem weeklyRank_lt (hestimator : a.estimatorRevision = b.estimatorRevision)
    (hevidence : a.evidence = b.evidence)
    (h : a.observedAt < b.observedAt ∨ a.observedAt = b.observedAt ∧
      collectionIssueCount b.partialReasons < collectionIssueCount a.partialReasons) :
    weeklyRank estimator a < weeklyRank estimator b := by
  refine Prod.Lex.toLex_lt_toLex.2 (.inr ⟨congrArg (estimatorRank estimator) hestimator,
    Prod.Lex.toLex_lt_toLex.2 (.inr ⟨hevidence, ?_⟩)⟩)
  simpa only [Prod.Lex.toLex_lt_toLex, OrderDual.toDual_lt_toDual] using h

theorem weeklyEvidenceKey_eq (h : a.evidence = b.evidence) :
    weeklyEvidenceKey a = weeklyEvidenceKey b := by
  simp only [WeeklyLocalPoint.evidence, evidenceOf, Prod.mk.injEq] at h
  obtain ⟨hcalls, hinput, hcached, hwrite, houtput, hreasoning, htotal, hunits⟩ := h
  simp [weeklyEvidenceKey, hcalls, hinput, hcached, hwrite, houtput, hreasoning, htotal, hunits]

theorem weeklyEvidenceEq_evidence (h : weeklyLocalPointEvidenceEq a b = true) :
    a.estimatorRevision = b.estimatorRevision ∧ a.evidence = b.evidence := by
  simp only [weeklyLocalPointEvidenceEq, decide_eq_true_eq] at h
  obtain ⟨-, htokens, hunits, -, -, hestimator, hcalls⟩ := h
  exact ⟨hestimator, by simp [WeeklyLocalPoint.evidence, htokens, hunits, hcalls]⟩

/-- A point that replaces the stored one has a higher rank. -/
theorem weekly_replace_ascends (hback : ¬ WeeklyBackslides estimator existing incoming)
    (h : shouldReplaceWeeklyLocalPoint estimator incoming existing = true) :
    weeklyRank estimator existing < weeklyRank estimator incoming := by
  by_cases hestimator : incoming.estimatorRevision = existing.estimatorRevision
  swap
  · have hne : weeklyLocalPointEvidenceEq incoming existing = false := by
      rw [← Bool.not_eq_true]
      exact fun he => hestimator (weeklyEvidenceEq_evidence he).1
    simp only [shouldReplaceWeeklyLocalPoint, hne, Bool.false_and, Bool.false_eq_true, if_false,
      if_pos hestimator, Bool.and_eq_true] at h
    exact Prod.Lex.toLex_lt_toLex.2 (.inl (estimatorRank_lt h.1.1.1))
  rcases Bool.eq_false_or_eq_true (weeklyEvidenceDominates incoming existing) with hmore | hmore <;>
    rcases Bool.eq_false_or_eq_true (weeklyEvidenceDominates existing incoming) with hless | hless
  · have hevidence : incoming.evidence = existing.evidence :=
      le_antisymm (weeklyEvidenceDominates_iff.1 hless) (weeklyEvidenceDominates_iff.1 hmore)
    refine weeklyRank_lt hestimator.symm hevidence.symm ?_
    unfold shouldReplaceWeeklyLocalPoint at h
    rw [weeklyEvidenceKey_eq hevidence] at h
    split_ifs at h with hguard hest hdom hissues hobserved
    · exact .inl (by simpa using h)
    · exact absurd hestimator hest
    · simp [hmore, hless] at hdom
    · have hfewer : collectionIssueCount incoming.partialReasons <
          collectionIssueCount existing.partialReasons := by simpa using h
      by_cases hobserved : incoming.observedAt = existing.observedAt
      · exact .inr ⟨hobserved.symm, hfewer⟩
      · refine .inl (lt_of_le_of_ne (not_lt.1 fun hbefore => ?_) (Ne.symm hobserved))
        exact hback (.earlier hestimator ⟨hmore, hless⟩ hfewer hbefore fun hboth =>
          hguard (by simp [hboth, hobserved]))
    · exact .inl (by simpa using h)
    · simp at h
  · refine Prod.Lex.toLex_lt_toLex.2 (.inr ⟨congrArg (estimatorRank estimator) hestimator.symm,
      Prod.Lex.toLex_lt_toLex.2 (.inl (lt_of_le_not_ge ?_ fun hge => ?_))⟩)
    · exact weeklyEvidenceDominates_iff.1 hmore
    · simp [weeklyEvidenceDominates_iff.2 hge] at hless
  · have hne : weeklyLocalPointEvidenceEq incoming existing = false := by
      rw [← Bool.not_eq_true]
      intro he
      simp [weeklyEvidenceDominates_iff.2 (weeklyEvidenceEq_evidence he).2.ge] at hmore
    simp [shouldReplaceWeeklyLocalPoint, hne, hestimator, hmore, hless] at h
  · exact absurd (.sideways hestimator hmore hless h) hback

theorem mergeWeeklyPoint_ascends (hback : ¬ WeeklyBackslides estimator existing incoming) :
    (mergeWeeklyPoint estimator existing incoming).1 = existing ∨
      weeklyRank estimator existing <
        weeklyRank estimator (mergeWeeklyPoint estimator existing incoming).1 := by
  unfold mergeWeeklyPoint
  split_ifs with hpayload hgap hreplace
  · exact .inl rfl
  · simp only [weeklyRevealsCoverageGap, Bool.and_eq_true, decide_eq_true_eq] at hgap
    exact .inr (weeklyRank_lt rfl rfl (.inl hgap.1.1.2))
  · exact .inr (weekly_replace_ascends hback hreplace)
  · exact .inl rfl

/-- The reasons that occur in some points. -/
def weeklyReasons (sources : List WeeklyLocalPoint) : List String :=
  sources.flatMap (·.partialReasons)

/-- What the rank of a point reads is taken from the sources. -/
structure WeeklyDrawnFrom (sources : List WeeklyLocalPoint) (point : WeeklyLocalPoint) : Prop where
  estimator : ∃ source ∈ sources, source.estimatorRevision = point.estimatorRevision
  evidence : ∃ source ∈ sources, source.evidence = point.evidence
  observedAt : ∃ source ∈ sources, source.observedAt = point.observedAt
  reasons : ∀ reason ∈ point.partialReasons, reason ∈ weeklyReasons sources
  issues : point.partialReasons.length ≤ (weeklyReasons sources).length

section
variable {sources points : List WeeklyLocalPoint}

theorem WeeklyDrawnFrom.of_mem (h : incoming ∈ sources) : WeeklyDrawnFrom sources incoming :=
  ⟨⟨_, h, rfl⟩, ⟨_, h, rfl⟩, ⟨_, h, rfl⟩, fun _ hreason => List.mem_flatMap.2 ⟨_, h, hreason⟩,
    (List.sublist_flatten_of_mem (List.mem_map_of_mem h)).length_le⟩

theorem WeeklyDrawnFrom.gap (hexisting : WeeklyDrawnFrom sources existing)
    (hincoming : WeeklyDrawnFrom sources incoming) :
    WeeklyDrawnFrom sources (mergeWeeklyGap existing incoming) := by
  have hfrom : ∀ reason ∈ (mergeWeeklyGap existing incoming).partialReasons,
      reason ∈ weeklyReasons sources := by
    intro reason hreason
    simp only [mergeWeeklyGap, mergeCoverageIssues, sortReasons, List.mem_dedup,
      List.mem_insertionSort, List.mem_append, List.mem_filter] at hreason
    exact hreason.elim (hexisting.reasons reason) fun h => hincoming.reasons reason h.1
  exact ⟨hexisting.estimator, hexisting.evidence, hincoming.observedAt, hfrom,
    (List.subperm_of_subset (List.nodup_dedup _) hfrom).length_le⟩

theorem WeeklyDrawnFrom.merge (hexisting : WeeklyDrawnFrom sources existing)
    (hincoming : WeeklyDrawnFrom sources incoming) :
    WeeklyDrawnFrom sources (mergeWeeklyPoint estimator existing incoming).1 := by
  unfold mergeWeeklyPoint
  split_ifs
  · exact hexisting
  · exact hexisting.gap hincoming
  · exact hincoming
  · exact hexisting

theorem weeklyRanks_finite (estimator : Nat) (sources : List WeeklyLocalPoint) :
    {x | ∃ point, WeeklyDrawnFrom sources point ∧ weeklyRank estimator point = x}.Finite := by
  have hsources := List.finite_toSet sources
  refine Set.Finite.subset (((hsources.image (·.estimatorRevision)).prod
    ((hsources.image (·.evidence)).prod ((hsources.image (·.observedAt)).prod
      (Set.finite_le_nat (weeklyReasons sources).length)))).image
    fun values => (toLex (estimatorRank estimator values.1, toLex (values.2.1,
      toLex (values.2.2.1, OrderDual.toDual values.2.2.2))) : WeeklyRank)) ?_
  rintro x ⟨point, h, rfl⟩
  exact ⟨(point.estimatorRevision, point.evidence, point.observedAt,
    collectionIssueCount point.partialReasons),
    ⟨h.estimator, h.evidence, h.observedAt, List.countP_le_length.trans h.issues⟩, rfl⟩

/-! The list of points. -/

theorem mergeIntoSlot_cases (points : List WeeklyLocalPoint) :
    (mergeIntoSlot estimator incoming points = none ∧
        ∀ point ∈ points, sameSlot incoming point = false) ∨
      ∃ pre point post changed, points = pre ++ point :: post ∧ sameSlot incoming point = true ∧
        mergeIntoSlot estimator incoming points =
          some (pre ++ (mergeWeeklyPoint estimator point incoming).1 :: post, changed) := by
  induction points with
  | nil => exact .inl ⟨rfl, by simp⟩
  | cons point points ih =>
    by_cases hslot : sameSlot incoming point = true
    · exact .inr ⟨[], point, points, _, rfl, hslot, by simp [mergeIntoSlot, hslot]; rfl⟩
    · rcases ih with ⟨hnone, hall⟩ | ⟨pre, existing, post, changed, hsplit, hexisting, heq⟩
      · exact .inl ⟨by simp [mergeIntoSlot, hslot, hnone], by simpa [hslot] using hall⟩
      · exact .inr ⟨point :: pre, existing, post, changed, by simp [hsplit], hexisting,
          by simp [mergeIntoSlot, hslot, heq]⟩

theorem latest_fold {start : Option WeeklyLocalPoint} {latest : WeeklyLocalPoint}
    (h : points.foldl (fun latest point =>
      if latest.all fun latest => latest.observedAt ≤ point.observedAt then some point else latest)
      start = some latest) : latest ∈ points ∨ start = some latest := by
  induction points generalizing start with
  | nil => exact .inr h
  | cons point points ih =>
    rw [List.foldl_cons] at h
    rcases ih h with hmem | heq
    · exact .inl (by simp [hmem])
    · split_ifs at heq
      · exact .inl (by simp [Option.some.inj heq])
      · exact .inr heq

theorem latestPoint_mem {latest : WeeklyLocalPoint} (h : latestPoint points = some latest) :
    latest ∈ points :=
  (latest_fold h).resolve_right (by simp)

theorem latest_of_cycle {points : List WeeklyLocalPoint} {latest : WeeklyLocalPoint}
    (h : latestPoint (points.filter (sameCycle incoming)) = some latest) :
    latest ∈ points ∧ sameCycle incoming latest = true :=
  List.mem_filter.1 (latestPoint_mem h)

/-- A point of a new slot is dropped, appended, or appended as its predecessor with a gap. -/
theorem appendWeeklyPoint_cases (points : List WeeklyLocalPoint) :
    (appendWeeklyPoint estimator points incoming).1 = points ∨
      (appendWeeklyPoint estimator points incoming).1 = points ++ [incoming] ∨
      ∃ latest, latestPoint (points.filter (sameCycle incoming)) = some latest ∧
        weeklyRevealsCoverageGap latest incoming = true ∧
        (appendWeeklyPoint estimator points incoming).1 =
          points ++ [mergeWeeklyGap latest incoming] := by
  unfold appendWeeklyPoint
  cases hlatest : latestPoint (points.filter (sameCycle incoming)) with
  | none => exact .inr (.inl rfl)
  | some latest =>
    dsimp only
    split_ifs
    · exact .inr (.inl rfl)
    · exact .inl rfl
    · exact .inr (.inr ⟨latest, rfl, ‹_›, rfl⟩)
    · exact .inl rfl
    · exact .inr (.inl rfl)

end

end

section
variable (estimator : Nat) (points : List WeeklyLocalPoint) (schedule : ℕ → WeeklyLocalPoint)

/-- The stored points after the first points of a schedule. -/
def pointsAfter : ℕ → List WeeklyLocalPoint
  | 0 => points
  | n + 1 => (upsertWeeklyLocalPoint estimator (pointsAfter n) (schedule n)).1

end

/-- The points of one slot: each is in the slot of every other. -/
def OneSlot (versions : List WeeklyLocalPoint) : Prop :=
  ∀ a ∈ versions, ∀ b ∈ versions, sameSlot a b = true

/-- How many versions have no stored point of their slot yet. -/
def unslotted (versions points : List WeeklyLocalPoint) : ℕ :=
  versions.countP fun version => !points.any (sameSlot version)

section
variable {estimator : Nat} {versions sources points points' : List WeeklyLocalPoint}
  {existing incoming : WeeklyLocalPoint}

theorem unslotted_le (h : ∀ version ∈ versions, (points.any (sameSlot version)) = true →
    (points'.any (sameSlot version)) = true) :
    unslotted versions points' ≤ unslotted versions points := by
  refine List.countP_mono_left fun version hmem hnot => ?_
  rw [Bool.not_eq_true'] at hnot ⊢
  rw [← Bool.not_eq_true] at hnot ⊢
  exact fun hany => hnot (h version hmem hany)

theorem unslotted_lt (hmem : incoming ∈ versions) (h : ∀ version ∈ versions,
      (points.any (sameSlot version)) = true → (points'.any (sameSlot version)) = true)
    (hbefore : points.any (sameSlot incoming) = false)
    (hafter : points'.any (sameSlot incoming) = true) :
    unslotted versions points' < unslotted versions points := by
  obtain ⟨pre, post, rfl⟩ := List.append_of_mem hmem
  have hpre := @unslotted_le pre points points' fun version hv => h version (by simp [hv])
  have hpost := @unslotted_le post points points' fun version hv => h version (by simp [hv])
  simp only [unslotted, List.countP_append, List.countP_cons, hbefore, hafter] at hpre hpost ⊢
  simp
  omega

theorem sameSlot_iff : sameSlot incoming existing = true ↔ sameCycle incoming existing = true ∧
    timestampSecs existing.observedAt / quotaSampleSecs =
      timestampSecs incoming.observedAt / quotaSampleSecs ∧
    isExactWeeklySampleBoundary existing.observedAt =
      isExactWeeklySampleBoundary incoming.observedAt := by
  simp [sameSlot, and_assoc]

theorem sameSlot_gap {version : WeeklyLocalPoint} (hcycle : sameCycle version existing = true)
    (hslot : sameSlot version incoming = true) :
    sameSlot version (mergeWeeklyGap existing incoming) = true := by
  rw [sameSlot_iff] at hslot ⊢
  exact ⟨hcycle, hslot.2⟩

theorem sameSlot_merge {version : WeeklyLocalPoint} (hslot : sameSlot version incoming = true)
    (h : sameSlot version existing = true) :
    sameSlot version (mergeWeeklyPoint estimator existing incoming).1 = true := by
  unfold mergeWeeklyPoint
  split_ifs
  · exact h
  · exact sameSlot_gap (sameSlot_iff.1 h).1 hslot
  · exact hslot
  · exact h

theorem upsertWeeklyLocalPoint_step (honeSlot : OneSlot versions)
    (hversion : incoming ∈ versions)
    (hpoints : ∀ point ∈ points, WeeklyDrawnFrom sources point)
    (hincoming : WeeklyDrawnFrom sources incoming)
    (hback : ∀ existing ∈ points, sameSlot incoming existing = true →
      ¬ WeeklyBackslides estimator existing incoming) :
    (upsertWeeklyLocalPoint estimator points incoming).1 = points ∨
      unslotted versions (upsertWeeklyLocalPoint estimator points incoming).1 <
        unslotted versions points ∨
      (unslotted versions (upsertWeeklyLocalPoint estimator points incoming).1 ≤
          unslotted versions points ∧
        Raised (weeklyRank estimator)
          {x | ∃ point, WeeklyDrawnFrom sources point ∧ weeklyRank estimator point = x} points
          (upsertWeeklyLocalPoint estimator points incoming).1) := by
  unfold upsertWeeklyLocalPoint
  rcases @mergeIntoSlot_cases estimator incoming points with
    ⟨hnone, hall⟩ | ⟨pre, existing, post, changed, hsplit, hslot, heq⟩
  · rw [hnone, Option.getD_none]
    have hbefore : points.any (sameSlot incoming) = false := by
      simpa only [List.any_eq_false, Bool.not_eq_true] using hall
    have hpush (point : WeeklyLocalPoint) (hpoint : sameSlot incoming point = true) :
        unslotted versions (points ++ [point]) < unslotted versions points :=
      unslotted_lt hversion (fun version _ hany => by simp [hany]) hbefore (by simp [hpoint])
    have hself : sameSlot incoming incoming = true := honeSlot _ hversion _ hversion
    rcases @appendWeeklyPoint_cases estimator incoming points with h | h | ⟨latest, hlatest, -, h⟩
    · exact .inl h
    · exact .inr (.inl (h ▸ hpush incoming hself))
    · exact .inr (.inl (h ▸ hpush _ (sameSlot_gap (latest_of_cycle hlatest).2 hself)))
  · subst hsplit
    rw [heq, Option.getD_some]
    rcases mergeWeeklyPoint_ascends (hback existing (by simp) hslot) with h | h
    · exact .inl (by rw [h])
    · refine .inr (.inr ⟨unslotted_le fun version hv hany => ?_, pre, existing, _, post, rfl, rfl,
        h, _, .merge (hpoints existing (by simp)) hincoming, rfl⟩)
      rw [List.any_append, List.any_cons, Bool.or_eq_true, Bool.or_eq_true] at hany ⊢
      refine hany.imp id (Or.imp (fun hexisting => ?_) id)
      exact sameSlot_merge (honeSlot _ hv _ hversion) hexisting

theorem WeeklyDrawnFrom.upsert (hpoints : ∀ point ∈ points, WeeklyDrawnFrom sources point)
    (hincoming : WeeklyDrawnFrom sources incoming) :
    ∀ point ∈ (upsertWeeklyLocalPoint estimator points incoming).1,
      WeeklyDrawnFrom sources point := by
  unfold upsertWeeklyLocalPoint
  rcases @mergeIntoSlot_cases estimator incoming points with
    ⟨hnone, -⟩ | ⟨pre, existing, post, changed, hsplit, -, heq⟩
  · rw [hnone, Option.getD_none]
    rcases @appendWeeklyPoint_cases estimator incoming points with h | h | ⟨latest, hlatest, -, h⟩
    · rwa [h]
    · simpa [h, or_imp, forall_and] using ⟨hpoints, hincoming⟩
    · simpa [h, or_imp, forall_and] using ⟨hpoints,
        (hpoints latest (latest_of_cycle hlatest).1).gap hincoming⟩
  · subst hsplit
    rw [heq, Option.getD_some]
    intro point hmem
    rcases List.mem_append.1 hmem with h | h
    · exact hpoints point (by simp [h])
    · rcases List.mem_cons.1 h with rfl | h
      · exact .merge (hpoints existing (by simp)) hincoming
      · exact hpoints point (by simp [h])

end

theorem points_settle {estimator : Nat} {points versions : List WeeklyLocalPoint}
    {schedule : ℕ → WeeklyLocalPoint} (hschedule : ∀ n, schedule n ∈ versions)
    (honeSlot : OneSlot versions)
    (hback : ∀ n, ∀ existing ∈ pointsAfter estimator points schedule n,
      sameSlot (schedule n) existing = true →
        ¬ WeeklyBackslides estimator existing (schedule n)) :
    ∃ N, ∀ n, N ≤ n → pointsAfter estimator points schedule n =
      pointsAfter estimator points schedule N := by
  have hversion (n : ℕ) : WeeklyDrawnFrom (points ++ versions) (schedule n) :=
    .of_mem (by simp [hschedule n])
  have hdrawn (n : ℕ) : ∀ point ∈ pointsAfter estimator points schedule n,
      WeeklyDrawnFrom (points ++ versions) point := by
    induction n with
    | zero => exact fun point hmem => .of_mem (by simp [show point ∈ points from hmem])
    | succ n ih => exact WeeklyDrawnFrom.upsert ih (hversion n)
  refine lists_settle (weeklyRank estimator) (weeklyRanks_finite estimator (points ++ versions))
    (unslotted versions) fun n => ?_
  exact upsertWeeklyLocalPoint_step honeSlot (hschedule n) (hdrawn n) (hversion n) (hback n)

/-! ## Both -/

/-- **Upserts settle.** Under a schedule of versions of one bucket, or of points of one slot, that
never take a stored one back, the stored buckets and the stored points change finitely often. -/
theorem upserts_settle (current : Revisions) (estimator : Nat) :
    (∀ (buckets versions : List LocalHalfHourBucket)
      (schedule : ℕ → LocalHalfHourBucket) (start : DateTime), (∀ n, schedule n ∈ versions) →
      (∀ version ∈ versions, version.startsAt = start) →
      (∀ n, ∀ existing ∈ bucketsAfter current buckets schedule n,
        existing.startsAt = start → ¬ Backslides current existing (schedule n)) →
      ∃ N, ∀ n, N ≤ n → bucketsAfter current buckets schedule n =
        bucketsAfter current buckets schedule N) ∧
    (∀ (points versions : List WeeklyLocalPoint)
      (schedule : ℕ → WeeklyLocalPoint), (∀ n, schedule n ∈ versions) → OneSlot versions →
      (∀ n, ∀ existing ∈ pointsAfter estimator points schedule n,
        sameSlot (schedule n) existing = true →
          ¬ WeeklyBackslides estimator existing (schedule n)) →
      ∃ N, ∀ n, N ≤ n → pointsAfter estimator points schedule n =
        pointsAfter estimator points schedule N) :=
  ⟨fun _ _ _ _ hschedule hstart hback => buckets_settle hschedule hstart hback,
    fun _ _ _ hschedule honeSlot hback => points_settle hschedule honeSlot hback⟩

instance (versions : List WeeklyLocalPoint) : Decidable (OneSlot versions) :=
  inferInstanceAs (Decidable (∀ a ∈ versions, ∀ b ∈ versions, _))

instance (a b : LocalHalfHourBucket) : Decidable (Overtakes a b) :=
  inferInstanceAs (Decidable ((_ ∨ _ ∧ _) ∨ (_ ∧ _) ∧ _))

instance (current : Revisions) (a b : LocalHalfHourBucket) : Decidable (Backslides current a b) :=
  decidable_of_iff ((b.estimatorRevision = a.estimatorRevision ∧
      bucketEvidenceDominates b a = false ∧ bucketEvidenceDominates a b = false ∧
      shouldReplaceHalfHourBucket current.estimator b a = true) ∨
    (b.estimatorRevision = a.estimatorRevision ∧
      (bucketEvidenceDominates b a = true ∧ bucketEvidenceDominates a b = true) ∧
      bucketCollectionIssueCount b < bucketCollectionIssueCount a ∧ b.sampledAt < a.sampledAt ∧
      ¬ (halfHourBucketEvidenceEq b a = true ∧
        coverageIssueStateDiffers b.partialReasons a.partialReasons = true)) ∨
    (projectBreakdownCanUpgradeWithoutReplacing current b a = true ∧ b.sampledAt ≤ a.sampledAt ∧
      (bucketCollectionIssueCount a < bucketCollectionIssueCount b ∨
        bucketCollectionIssueCount b = bucketCollectionIssueCount a ∧
          bucketEvidenceKey b < bucketEvidenceKey a)) ∨
    (modelGroupApiCostCanRepriceWithoutReplacing current b a = true ∧
      b.projectBreakdownRevision < a.projectBreakdownRevision ∧ ¬ Overtakes b a)) (by
    constructor
    · rintro (⟨h₁, h₂, h₃, h₄⟩ | ⟨h₁, h₂, h₃, h₄, h₅⟩ | ⟨h₁, h₂, h₃⟩ | ⟨h₁, h₂, h₃⟩)
      · exact .sideways h₁ h₂ h₃ h₄
      · exact .earlier h₁ h₂ h₃ h₄ h₅
      · exact .grafted h₁ h₂ h₃
      · exact .repriced h₁ h₂ h₃
    · rintro (⟨h₁, h₂, h₃, h₄⟩ | ⟨h₁, h₂, h₃, h₄, h₅⟩ | ⟨h₁, h₂, h₃⟩ | ⟨h₁, h₂, h₃⟩)
      · exact .inl ⟨h₁, h₂, h₃, h₄⟩
      · exact .inr (.inl ⟨h₁, h₂, h₃, h₄, h₅⟩)
      · exact .inr (.inr (.inl ⟨h₁, h₂, h₃⟩))
      · exact .inr (.inr (.inr ⟨h₁, h₂, h₃⟩)))

instance (estimator : Nat) (a b : WeeklyLocalPoint) : Decidable (WeeklyBackslides estimator a b) :=
  decidable_of_iff ((b.estimatorRevision = a.estimatorRevision ∧
      weeklyEvidenceDominates b a = false ∧ weeklyEvidenceDominates a b = false ∧
      shouldReplaceWeeklyLocalPoint estimator b a = true) ∨
    (b.estimatorRevision = a.estimatorRevision ∧
      (weeklyEvidenceDominates b a = true ∧ weeklyEvidenceDominates a b = true) ∧
      collectionIssueCount b.partialReasons < collectionIssueCount a.partialReasons ∧
      b.observedAt < a.observedAt ∧ ¬ (weeklyLocalPointEvidenceEq b a = true ∧
        coverageIssueStateDiffers b.partialReasons a.partialReasons = true))) (by
    constructor
    · rintro (⟨h₁, h₂, h₃, h₄⟩ | ⟨h₁, h₂, h₃, h₄, h₅⟩)
      · exact .sideways h₁ h₂ h₃ h₄
      · exact .earlier h₁ h₂ h₃ h₄ h₅
    · rintro (⟨h₁, h₂, h₃, h₄⟩ | ⟨h₁, h₂, h₃, h₄, h₅⟩)
      · exact .inl ⟨h₁, h₂, h₃, h₄⟩
      · exact .inr ⟨h₁, h₂, h₃, h₄, h₅⟩)

namespace Sample

/-- The open bucket of some calls, with its reasons, sampled some seconds after its start. -/
def sampledBucket (calls sampled : Nat) (partialReasons : List String) : LocalHalfHourBucket where
  startsAt := 0
  endsAt := seconds 900
  sampledAt := seconds sampled
  estimatorRevision := 1
  callCount := calls
  partialReasons := partialReasons

def sampledPoint (calls observed : Nat) : WeeklyLocalPoint where
  observedAt := seconds observed
  resetsAt := seconds 600000
  estimatorRevision := 1
  callCount := calls

def inTurn {α : Type} (a b : α) (n : ℕ) : α := if n % 2 = 0 then a else b

theorem inTurn_cases {α : Type} (a b : α) (n : ℕ) : inTurn a b n = a ∨ inTurn a b n = b := by
  unfold inTurn
  split_ifs
  · exact .inl rfl
  · exact .inr rfl

theorem buckets_in_turn (n : ℕ) :
    bucketsAfter ⟨1, 2⟩ [sampledBucket 1 60 []]
        (inTurn (sampledBucket 1 60 []) (sampledBucket 2 120 [])) n ∈
      [[sampledBucket 1 60 []], [sampledBucket 2 120 []]] := by
  induction n with
  | zero => exact List.mem_cons_self
  | succ n ih =>
    simp only [List.mem_cons, List.not_mem_nil, or_false] at ih
    rcases inTurn_cases (sampledBucket 1 60 []) (sampledBucket 2 120 []) n with h | h <;>
      rcases ih with ih | ih <;> rw [bucketsAfter, ih, h] <;> decide +kernel

theorem points_in_turn (n : ℕ) :
    pointsAfter 1 [sampledPoint 1 60] (inTurn (sampledPoint 1 60) (sampledPoint 2 120)) n ∈
      [[sampledPoint 1 60], [sampledPoint 2 120]] := by
  induction n with
  | zero => exact List.mem_cons_self
  | succ n ih =>
    simp only [List.mem_cons, List.not_mem_nil, or_false] at ih
    rcases inTurn_cases (sampledPoint 1 60) (sampledPoint 2 120) n with h | h <;>
      rcases ih with ih | ih <;> rw [pointsAfter, ih, h] <;> decide +kernel

/-- Two writers of which one saw more: its version replaces the other's and stays. -/
theorem upserts_settle_in_turn :
    bucketsAfter ⟨1, 2⟩ [sampledBucket 1 60 []]
        (inTurn (sampledBucket 1 60 []) (sampledBucket 2 120 [])) 2 = [sampledBucket 2 120 []] ∧
    (∃ N, ∀ n, N ≤ n → bucketsAfter ⟨1, 2⟩ [sampledBucket 1 60 []]
        (inTurn (sampledBucket 1 60 []) (sampledBucket 2 120 [])) n =
      bucketsAfter ⟨1, 2⟩ [sampledBucket 1 60 []]
        (inTurn (sampledBucket 1 60 []) (sampledBucket 2 120 [])) N) ∧
    pointsAfter 1 [sampledPoint 1 60] (inTurn (sampledPoint 1 60) (sampledPoint 2 120)) 2 =
      [sampledPoint 2 120] ∧
    ∃ N, ∀ n, N ≤ n →
      pointsAfter 1 [sampledPoint 1 60] (inTurn (sampledPoint 1 60) (sampledPoint 2 120)) n =
      pointsAfter 1 [sampledPoint 1 60] (inTurn (sampledPoint 1 60) (sampledPoint 2 120)) N := by
  refine ⟨by decide +kernel, (upserts_settle ⟨1, 2⟩ 1).1 [sampledBucket 1 60 []]
      [sampledBucket 1 60 [], sampledBucket 2 120 []] _ 0 (fun n => ?_) (by decide +kernel)
      fun n existing hmem _ => ?_, by decide +kernel,
    (upserts_settle ⟨1, 2⟩ 1).2 [sampledPoint 1 60] [sampledPoint 1 60, sampledPoint 2 120] _
      (fun n => ?_) (by decide +kernel) fun n existing hmem _ => ?_⟩
  · simpa using inTurn_cases _ _ n
  · have hstored := buckets_in_turn n
    simp only [List.mem_cons, List.not_mem_nil, or_false] at hstored
    rcases inTurn_cases (sampledBucket 1 60 []) (sampledBucket 2 120 []) n with h | h <;>
      rcases hstored with hs | hs <;> rw [hs, List.mem_singleton] at hmem <;> subst hmem <;>
      rw [h] <;> decide +kernel
  · simpa using inTurn_cases _ _ n
  · have hstored := points_in_turn n
    simp only [List.mem_cons, List.not_mem_nil, or_false] at hstored
    rcases inTurn_cases (sampledPoint 1 60) (sampledPoint 2 120) n with h | h <;>
      rcases hstored with hs | hs <;> rw [hs, List.mem_singleton] at hmem <;> subst hmem <;>
      rw [h] <;> decide +kernel

/-- An exact sample, a later one that revealed a gap, and one after that without the local scan. -/
def exactSample : LocalHalfHourBucket := sampledBucket 1 60 []

def gapSample : LocalHalfHourBucket := sampledBucket 1 120 ["coverage_starts_within_local_bucket"]

def disabledSample : LocalHalfHourBucket := sampledBucket 1 180 ["local_scan_disabled"]

def goRound (n : ℕ) : LocalHalfHourBucket :=
  if n % 3 = 0 then gapSample else if n % 3 = 1 then disabledSample else exactSample

theorem buckets_go_round (n : ℕ) : bucketsAfter ⟨1, 2⟩ [exactSample] goRound n =
    if n % 3 = 0 then [exactSample] else if n % 3 = 1 then [gapSample] else [disabledSample] := by
  induction n with
  | zero => rfl
  | succ n ih =>
    rw [bucketsAfter, ih, goRound]
    obtain h | h | h : n % 3 = 0 ∨ n % 3 = 1 ∨ n % 3 = 2 := by omega
    · simp only [h, show (n + 1) % 3 = 1 by omega]
      decide +kernel
    · simp only [h, show (n + 1) % 3 = 2 by omega]
      decide +kernel
    · simp only [h, show (n + 1) % 3 = 0 by omega]
      decide +kernel

/-- The exact sample gives way to the gap, the gap to the later sample without a scan, and this one
to the older exact sample again. -/
theorem bucket_never_settles :
    (∀ n, goRound n ∈ [exactSample, gapSample, disabledSample]) ∧
      (∀ version ∈ [exactSample, gapSample, disabledSample], version.startsAt = 0) ∧
      ¬ ∃ N, ∀ n, N ≤ n → bucketsAfter ⟨1, 2⟩ [exactSample] goRound n =
        bucketsAfter ⟨1, 2⟩ [exactSample] goRound N := by
  refine ⟨fun n => ?_, by decide +kernel, fun ⟨N, h⟩ => ?_⟩
  · unfold goRound
    split_ifs <;> simp
  · have hnext := h (N + 1) (by omega)
    rw [buckets_go_round, buckets_go_round] at hnext
    obtain h | h | h : N % 3 = 0 ∨ N % 3 = 1 ∨ N % 3 = 2 := by omega
    · simp only [h, show (N + 1) % 3 = 1 by omega] at hnext
      exact absurd hnext (by decide +kernel)
    · simp only [h, show (N + 1) % 3 = 2 by omega] at hnext
      exact absurd hnext (by decide +kernel)
    · simp only [h, show (N + 1) % 3 = 0 by omega] at hnext
      exact absurd hnext (by decide +kernel)

end Sample

end History
