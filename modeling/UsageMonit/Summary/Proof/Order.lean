import UsageMonit.Summary.Proof.Listed

/-!
# The order of the threads and of the samples

Where no thread leads back to itself along the newest parents that the samples name, a summary sees
neither the order in which the hash map of the threads is iterated nor, if the instants differ, the
order of the samples. On a cycle it sees the first of these: the thread of the cycle that is walked
first becomes the session of the others (`order_blind_iff`).
-/

namespace Summary

open Time Usage MemoWalk Tally

section
variable {Path : Type} {samples : List (SummarySample Path)} {cwds' : List (String × Option Path)}
  {samples' : List (SummarySample Path)} {cwds : List (String × Option Path)}

/-! ## Parents -/

/-- The newest parent that the samples of a thread name, other than the thread itself. -/
def newestParent (samples : List (SummarySample Path)) (threadId : String) : Option String :=
  ((itemsOf SummarySample.threadId threadId (metadataSamples samples)).filterMap
    claimedParent).getLast?

/-- No thread leads back to itself. -/
def Acyclic (samples : List (SummarySample Path)) : Prop :=
  ∀ threadId, ¬ Relation.TransGen (fun a b => newestParent samples a = some b) threadId threadId

theorem parent_mergeMetadata (entry : ThreadMetadata Path) (sample : SummarySample Path) :
    (mergeMetadata entry sample).parentThreadId =
      (claimedParent sample <|> entry.parentThreadId) := by
  unfold mergeMetadata
  cases claimedParent sample <;> cases nonEmpty sample.projectKey <;>
    cases nonEmpty sample.projectLabel <;> simp <;> split_ifs <;> rfl

theorem parent_foldl (entry : ThreadMetadata Path) (items : List (SummarySample Path)) :
    (items.foldl mergeMetadata entry).parentThreadId =
      ((items.filterMap claimedParent).getLast? <|> entry.parentThreadId) := by
  induction items generalizing entry with
  | nil => rfl
  | cons sample items ih =>
    rw [List.foldl_cons, ih, parent_mergeMetadata]
    cases hparent : claimedParent sample with
    | none => simp [hparent]
    | some parent =>
      rw [List.filterMap_cons_some hparent, List.getLast?_cons]
      cases (items.filterMap claimedParent).getLast? <;> rfl

theorem parent_threadMetadata (threadId : String) :
    (threadMetadata samples).parent threadId = newestParent samples threadId := by
  unfold Metadata.parent threadMetadata newestParent
  rw [Keyed.valueOf_tally .nil, valueOf_nil, Option.getD_none]
  split_ifs with hnil
  · rw [hnil]
    rfl
  · rw [Option.bind_some, parent_foldl]
    simp

theorem newestParent_ne {a b : String} (h : newestParent samples a = some b) : b ≠ a := by
  obtain ⟨sample, hsample, hparent⟩ := List.mem_filterMap.1 (List.mem_of_getLast? h)
  obtain ⟨-, hne⟩ := Option.filter_eq_some_iff.1 hparent
  rw [(mem_itemsOf.1 hsample).2] at hne
  simpa using hne

/-! ## Walks along the parents -/

/-- The walk goes to parents only. -/
def Follows {V : Type} (r : Rules String V) (metadata : Metadata Path) : Prop :=
  ∀ a b, r.Leads a b → metadata.parent a = some b

section
variable {V : Type} {r : Rules String V} {metadata : Metadata Path}

theorem Follows.within (h : Follows r metadata) : Within r metadata.threads := by
  intro a b hleads
  obtain ⟨thread, hthread, -⟩ := Option.bind_eq_some_iff.1 (h a b hleads)
  exact mem_keys_of_valueOf hthread

theorem Follows.acyclic (h : Follows r (threadMetadata samples)) (hacyclic : Acyclic samples) :
    ∀ t, ¬ Relation.TransGen r.Leads t t := fun t hcycle =>
  hacyclic t (Relation.TransGen.mono
    (fun a b hleads => (parent_threadMetadata a).symm.trans (h a b hleads)) _ _ hcycle)

theorem follows_of_stops {stops : ThreadMetadata Path → Bool}
    (h : ∀ t, r.next t = (valueOf t metadata).bind fun thread =>
      if stops thread then none else thread.parentThreadId) : Follows r metadata := by
  intro a b hleads
  obtain ⟨thread, hthread, hnext⟩ := Option.bind_eq_some_iff.1 ((h a).symm.trans hleads)
  refine Option.bind_eq_some_iff.2 ⟨thread, hthread, ?_⟩
  split_ifs at hnext
  exact hnext

theorem follows_cwd : Follows (resolveThreadCwd metadata) metadata :=
  follows_of_stops fun _ => rfl

theorem follows_sessionThread : Follows (resolveSessionThread metadata) metadata := fun _ _ hleads =>
  (Option.filter_eq_some_iff.1 hleads).1

theorem ne_of_leads {a b : String} (h : (resolveSessionThread metadata).Leads a b) : b ≠ a := by
  simpa using (Option.filter_eq_some_iff.1 h).2

variable [PathText Path]

theorem follows_projectKey : Follows (resolveThreadProjectKey metadata cwds) metadata :=
  follows_of_stops fun _ => rfl

theorem follows_projectLabel : Follows (resolveThreadProjectLabel metadata cwds) metadata :=
  follows_of_stops fun _ => rfl

end

/-! ## The same walks -/

/-- Two orders in which walks are made find the same for some threads. -/
structure Agree (threads : List String) (r r' : Resolved Path) : Prop where
  cwd : ∀ t ∈ threads, r.cwds.lookup t = r'.cwds.lookup t
  projectKey : ∀ t ∈ threads, r.projectKeys.lookup t = r'.projectKeys.lookup t
  projectLabel : ∀ t ∈ threads, r.projectLabels.lookup t = r'.projectLabels.lookup t
  sessionThread : ∀ t ∈ threads, r.sessionThreads.lookup t = r'.sessionThreads.lookup t

section
variable {metadata : Metadata Path} {order order' : List String}

theorem Follows.agree {V : Type} {r : Rules String V} (h : Follows r (threadMetadata samples))
    (hacyclic : Acyclic samples) (horder : order.Perm (threadMetadata samples).threads)
    (horder' : order'.Perm (threadMetadata samples).threads) {t : String}
    (ht : t ∈ (threadMetadata samples).threads) :
    (walkAll r ((threadMetadata samples).threads.length + 1) [] order).lookup t =
      (walkAll r ((threadMetadata samples).threads.length + 1) [] order').lookup t :=
  walkAll_agree (h.acyclic hacyclic) h.within (horder.mem_iff.2 ht) (horder'.mem_iff.2 ht)

theorem cachedCwd_of_not_mem (hacyclic : Acyclic samples) {t : String}
    (ht : t ∉ (threadMetadata samples).threads) :
    cachedCwd (walkAll (resolveThreadCwd (threadMetadata samples))
      ((threadMetadata samples).threads.length + 1) [] order) t = none := by
  have hnone : valueOf t (threadMetadata samples) = none := by
    by_contra hsome
    obtain ⟨thread, hthread⟩ := Option.ne_none_iff_exists'.1 hsome
    exact ht (mem_keys_of_valueOf hthread)
  unfold cachedCwd
  cases hlook : (walkAll (resolveThreadCwd (threadMetadata samples))
      ((threadMetadata samples).threads.length + 1) [] order).lookup t with
  | none => rfl
  | some cwd =>
    have hvalue := (walkAll_value (follows_cwd.acyclic hacyclic) follows_cwd.within sound_nil
      order).1 t cwd hlook
    cases hvalue with
    | own => simp [resolveThreadCwd, hnone]
    | ofNext hnext => exact absurd (follows_cwd.within _ _ hnext) ht

theorem cachedCwd_agree (hacyclic : Acyclic samples)
    (horder : order.Perm (threadMetadata samples).threads)
    (horder' : order'.Perm (threadMetadata samples).threads) :
    cachedCwd (walkAll (resolveThreadCwd (threadMetadata samples))
        ((threadMetadata samples).threads.length + 1) [] order) =
      cachedCwd (walkAll (resolveThreadCwd (threadMetadata samples))
        ((threadMetadata samples).threads.length + 1) [] order') := by
  funext t
  by_cases ht : t ∈ (threadMetadata samples).threads
  · exact congrArg Option.join (follows_cwd.agree hacyclic horder horder' ht)
  · rw [cachedCwd_of_not_mem hacyclic ht, cachedCwd_of_not_mem hacyclic ht]

theorem threadId_mem_threads {sample : SummarySample Path} (h : sample ∈ samples) :
    sample.threadId ∈ (threadMetadata samples).threads :=
  mem_keys_tally.2 (.inr ⟨sample, (List.perm_insertionSort _ _).mem_iff.2 h, rfl⟩)

theorem buildProjectSessions_congr (h : cachedCwd cwds = cachedCwd cwds')
    (sessions : List (String × SessionAccumulator)) :
    buildProjectSessions sessions metadata cwds = buildProjectSessions sessions metadata cwds' := by
  unfold buildProjectSessions
  rw [h]

variable [PathText Path]

theorem resolveThreadProjectKey_congr (h : cachedCwd cwds = cachedCwd cwds') :
    resolveThreadProjectKey metadata cwds = resolveThreadProjectKey metadata cwds' := by
  unfold resolveThreadProjectKey
  rw [h]

theorem resolveThreadProjectLabel_congr (h : cachedCwd cwds = cachedCwd cwds') :
    resolveThreadProjectLabel metadata cwds = resolveThreadProjectLabel metadata cwds' := by
  unfold resolveThreadProjectLabel
  rw [h]

/-- **Without cycles** the walks in all orders of the threads find the same. -/
theorem resolveThreads_agree (hacyclic : Acyclic samples)
    (horder : order.Perm (threadMetadata samples).threads)
    (horder' : order'.Perm (threadMetadata samples).threads) :
    Agree (threadMetadata samples).threads (resolveThreads (threadMetadata samples) order)
        (resolveThreads (threadMetadata samples) order') ∧
      cachedCwd (resolveThreads (threadMetadata samples) order).cwds =
        cachedCwd (resolveThreads (threadMetadata samples) order').cwds := by
  have hcwds := cachedCwd_agree hacyclic horder horder'
  refine ⟨⟨fun t ht => ?_, fun t ht => ?_, fun t ht => ?_, fun t ht => ?_⟩, hcwds⟩
  · exact follows_cwd.agree hacyclic horder horder' ht
  · unfold resolveThreads
    dsimp only
    rw [resolveThreadProjectKey_congr hcwds]
    exact follows_projectKey.agree hacyclic horder horder' ht
  · unfold resolveThreads
    dsimp only
    rw [resolveThreadProjectLabel_congr hcwds]
    exact follows_projectLabel.agree hacyclic horder horder' ht
  · exact follows_sessionThread.agree hacyclic horder horder' ht

/-! ## The same summary -/

theorem contributionOf_congr {r r' : Resolved Path} {sample : SummarySample Path}
    (hagree : Agree (threadMetadata samples).threads r r')
    (h : sample.threadId ∈ (threadMetadata samples).threads) (names : ProjectNames Path)
    (localDate : DateTime → NaiveDate) (localHour : DateTime → Option NaiveDateTime) :
    contributionOf r names localDate localHour sample =
      contributionOf r' names localDate localHour sample := by
  unfold contributionOf sessionThreadOf cachedCwd
  rw [hagree.cwd _ h, hagree.projectKey _ h, hagree.projectLabel _ h, hagree.sessionThread _ h]

theorem listProject_congr (h : cachedCwd cwds = cachedCwd cwds') (dates : List NaiveDate) :
    listProject dates metadata cwds = listProject dates metadata cwds' := by
  funext entry
  unfold listProject
  rw [buildProjectSessions_congr h]

variable (window : SummaryWindow) (localDate : DateTime → NaiveDate)
  (localHour : DateTime → Option NaiveDateTime)

theorem contributions_agree (hacyclic : Acyclic samples)
    (horder : order.Perm (threadMetadata samples).threads)
    (horder' : order'.Perm (threadMetadata samples).threads) :
    contributions samples window localDate localHour order =
      contributions samples window localDate localHour order' :=
  List.map_congr_left fun _ hsample =>
    contributionOf_congr (resolveThreads_agree hacyclic horder horder').1
      (threadId_mem_threads (List.mem_filter.1 hsample).1) _ _ _

/-- **Without cycles** the summaries of all orders of the threads are the same. -/
theorem summary_agree (hacyclic : Acyclic samples)
    (horder : order.Perm (threadMetadata samples).threads)
    (horder' : order'.Perm (threadMetadata samples).threads) :
    summarizeSamplesWithLocalMapping samples window localDate localHour order =
      summarizeSamplesWithLocalMapping samples window localDate localHour order' := by
  unfold summarizeSamplesWithLocalMapping
  dsimp only
  rw [contributions_agree window localDate localHour hacyclic horder horder',
    listProject_congr (resolveThreads_agree hacyclic horder horder').2]

end

/-! ## The same totals -/

theorem SummaryMetrics.addAssign_right_comm (m a b : SummaryMetrics) :
    (m.addAssign a).addAssign b = (m.addAssign b).addAssign a := by
  unfold SummaryMetrics.addAssign History.ApiCostAmount.addAssign
  simp only [TokenUsage.addAssign_right_comm, TokenUsage.saturatingAdd_right_comm]

/-- The total of some contributions, if there are any. -/
def totalsOf (items : List (Contribution Path)) : Option SummaryMetrics :=
  if items = [] then none else some (totalOf {} items)

theorem totalsOf_perm {items items' : List (Contribution Path)} (h : items.Perm items') :
    totalsOf items = totalsOf items' := by
  have hcomm : RightCommutative fun (m : SummaryMetrics) (c : Contribution Path) =>
      m.addAssign c.sample.metrics := ⟨fun _ _ _ => SummaryMetrics.addAssign_right_comm _ _ _⟩
  unfold totalsOf totalOf
  rw [h.foldl_eq]
  simp only [← List.length_eq_zero_iff, h.length_eq]

theorem itemsOf_perm {κ σ : Type} [LinearOrder κ] {items items' : List σ} (h : items.Perm items')
    (key : σ → κ) (k : κ) : (itemsOf key k items).Perm (itemsOf key k items') := h.filter _

def projectTotals (s : UsageSummary Path) (key : String) : Option SummaryMetrics :=
  (s.projects.find? fun project => project.key = key).map ProjectSummary.totals

def sessionTotals (s : UsageSummary Path) (key threadId : String) : Option SummaryMetrics :=
  (s.projects.find? fun project => project.key = key).bind fun project =>
    (project.sessions.find? fun session => session.threadId = threadId).map SessionSummary.totals

def turnTotals (s : UsageSummary Path) (key threadId : String) (turnKey : SummaryTurnKey) :
    Option SummaryMetrics :=
  (s.projects.find? fun project => project.key = key).bind fun project =>
    (project.sessions.find? fun session => session.threadId = threadId).bind fun session =>
      (session.turns.find? fun turn => turn.key = turnKey).map TurnSummary.totals

/-- The same totals for each project key, session and turn key. -/
structure SameTotals (s s' : UsageSummary Path) : Prop where
  project : ∀ key, projectTotals s key = projectTotals s' key
  session : ∀ key threadId, sessionTotals s key threadId = sessionTotals s' key threadId
  turn : ∀ key threadId turnKey,
    turnTotals s key threadId turnKey = turnTotals s' key threadId turnKey

theorem totals_find_turn (items : List (Contribution Path)) (turnKey : SummaryTurnKey) :
    ((listTurns (items.foldl SessionAccumulator.add {}).turns).find? fun turn =>
      turn.key = turnKey).map TurnSummary.totals =
        totalsOf (itemsOf Contribution.turnKey turnKey items) := by
  unfold totalsOf
  rw [find_listed (turns_perm items) (fun _ => rfl) fun _ => decide_eq_true_iff]
  split_ifs
  · rfl
  · exact congrArg some (totals_turn _ _)

theorem totals_find_session (items : List (Contribution Path)) (metadata : Metadata Path)
    (cwds : List (String × Option Path)) (threadId : String) :
    ((buildProjectSessions (items.foldl ProjectAccumulator.add {}).sessions metadata cwds).find?
      fun session => session.threadId = threadId).map SessionSummary.totals =
        totalsOf (itemsOf Contribution.sessionThreadId threadId items) := by
  unfold totalsOf
  rw [find_listed (sessions_perm items metadata cwds) (fun _ => rfl) fun _ => decide_eq_true_iff]
  split_ifs
  · rfl
  · exact congrArg some (totals_session _ _)

section
variable [PathText Path] {window : SummaryWindow} {localDate : DateTime → NaiveDate}
  {localHour : DateTime → Option NaiveDateTime} {order : List String}

theorem projectTotals_summary (key : String) :
    projectTotals (summarizeSamplesWithLocalMapping samples window localDate localHour order) key =
      totalsOf (itemsOf Contribution.key key
        (contributions samples window localDate localHour order)) := by
  unfold projectTotals totalsOf
  rw [find_listed (projects_perm _ _ _ _ _) (fun _ => rfl) fun _ => decide_eq_true_iff]
  split_ifs
  · rfl
  · exact congrArg some (projectHolds _).totals

theorem sessionTotals_summary (key threadId : String) :
    sessionTotals (summarizeSamplesWithLocalMapping samples window localDate localHour order) key
        threadId =
      totalsOf (itemsOf Contribution.sessionThreadId threadId (itemsOf Contribution.key key
        (contributions samples window localDate localHour order))) := by
  unfold sessionTotals
  rw [find_listed_bind (projects_perm _ _ _ _ _) (fun _ => rfl) (fun _ => decide_eq_true_iff) rfl]
  exact totals_find_session _ _ _ _

theorem turnTotals_summary (key threadId : String) (turnKey : SummaryTurnKey) :
    turnTotals (summarizeSamplesWithLocalMapping samples window localDate localHour order) key
        threadId turnKey =
      totalsOf (itemsOf Contribution.turnKey turnKey
        (itemsOf Contribution.sessionThreadId threadId (itemsOf Contribution.key key
          (contributions samples window localDate localHour order)))) := by
  unfold turnTotals
  rw [find_listed_bind (projects_perm _ _ _ _ _) (fun _ => rfl) (fun _ => decide_eq_true_iff) rfl]
  unfold listProject
  rw [find_listed_bind (sessions_perm _ _ _) (fun _ => rfl) (fun _ => decide_eq_true_iff) rfl]
  exact totals_find_turn _ _

/-- **The totals do not depend on the order** of the contributions. -/
theorem sameTotals_of_perm {order' : List String}
    (h : (contributions samples window localDate localHour order).Perm
      (contributions samples' window localDate localHour order')) :
    SameTotals (summarizeSamplesWithLocalMapping samples window localDate localHour order)
      (summarizeSamplesWithLocalMapping samples' window localDate localHour order') := by
  refine ⟨fun key => ?_, fun key threadId => ?_, fun key threadId turnKey => ?_⟩
  · rw [projectTotals_summary, projectTotals_summary]
    exact totalsOf_perm (itemsOf_perm h _ _)
  · rw [sessionTotals_summary, sessionTotals_summary]
    exact totalsOf_perm (itemsOf_perm (itemsOf_perm h _ _) _ _)
  · rw [turnTotals_summary, turnTotals_summary]
    exact totalsOf_perm (itemsOf_perm (itemsOf_perm (itemsOf_perm h _ _) _ _) _ _)

end

/-! ## The order of the samples -/

theorem metadataSamples_perm (h : samples.Perm samples')
    (hdistinct : (samples.map SummarySample.timestamp).Nodup) :
    metadataSamples samples = metadataSamples samples' := by
  have hperm : (metadataSamples samples).Perm (metadataSamples samples') :=
    (List.perm_insertionSort _ _).trans (h.trans (List.perm_insertionSort _ _).symm)
  refine List.Perm.eq_of_pairwise (fun a b ha hb hab hba => ?_) (List.pairwise_insertionSort _ _)
    (List.pairwise_insertionSort _ _) hperm
  have hb' : b ∈ metadataSamples samples := hperm.mem_iff.2 hb
  exact List.inj_on_of_nodup_map hdistinct ((List.perm_insertionSort _ _).mem_iff.1 ha)
    ((List.perm_insertionSort _ _).mem_iff.1 hb') (le_antisymm hab hba)

section
variable [PathText Path]

/-- A summary sees neither the order of the threads nor, at different instants, that of the
samples. -/
structure OrderBlind (samples : List (SummarySample Path)) : Prop where
  threads : ∀ order order' : List String, order.Perm (threadMetadata samples).threads →
    order'.Perm (threadMetadata samples).threads →
    Agree (threadMetadata samples).threads (resolveThreads (threadMetadata samples) order)
        (resolveThreads (threadMetadata samples) order') ∧
      ∀ window localDate localHour,
        summarizeSamplesWithLocalMapping samples window localDate localHour order =
          summarizeSamplesWithLocalMapping samples window localDate localHour order'
  samples : (samples.map SummarySample.timestamp).Nodup →
    ∀ samples' : List (SummarySample Path), samples.Perm samples' →
    ∀ order order' : List String, order.Perm (threadMetadata samples).threads →
    order'.Perm (threadMetadata samples').threads → ∀ window localDate localHour,
      SameTotals (summarizeSamplesWithLocalMapping samples window localDate localHour order)
        (summarizeSamplesWithLocalMapping samples' window localDate localHour order')

theorem contributions_perm {order order' : List String} (hacyclic : Acyclic samples)
    (h : samples.Perm samples') (hdistinct : (samples.map SummarySample.timestamp).Nodup)
    (horder : order.Perm (threadMetadata samples).threads)
    (horder' : order'.Perm (threadMetadata samples').threads) (window : SummaryWindow)
    (localDate : DateTime → NaiveDate) (localHour : DateTime → Option NaiveDateTime) :
    (contributions samples window localDate localHour order).Perm
      (contributions samples' window localDate localHour order') := by
  have hmetadata : threadMetadata samples = threadMetadata samples' := by
    unfold threadMetadata
    rw [metadataSamples_perm h hdistinct]
  have hnames : projectNames samples = projectNames samples' := by
    unfold projectNames
    rw [metadataSamples_perm h hdistinct]
  rw [← hmetadata] at horder'
  rw [contributions_agree window localDate localHour hacyclic horder horder']
  unfold contributions counted
  rw [hmetadata, hnames]
  exact (h.filter _).map _

theorem not_agree_of_cycle {threadId : String}
    (h : Relation.TransGen (fun a b => newestParent samples a = some b) threadId threadId) :
    ∃ order order' : List String, order.Perm (threadMetadata samples).threads ∧
      order'.Perm (threadMetadata samples).threads ∧
      ¬ Agree (threadMetadata samples).threads (resolveThreads (threadMetadata samples) order)
        (resolveThreads (threadMetadata samples) order') := by
  have hleads : ∀ a b, newestParent samples a = some b →
      (resolveSessionThread (threadMetadata samples)).Leads a b := fun a b hab =>
    Option.filter_eq_some_iff.2
      ⟨(parent_threadMetadata a).trans hab, by simpa using newestParent_ne hab⟩
  have hcycle : Relation.TransGen (resolveSessionThread (threadMetadata samples)).Leads threadId
      threadId := Relation.TransGen.mono hleads _ _ h
  obtain ⟨parent, hparent, hback⟩ := Relation.TransGen.head'_iff.1 hcycle
  have hcycle' : Relation.TransGen (resolveSessionThread (threadMetadata samples)).Leads parent
      parent := Relation.TransGen.tail' hback hparent
  obtain ⟨grandparent, hgrandparent, -⟩ := Relation.TransGen.head'_iff.1 hcycle'
  have hwithin : Within (resolveSessionThread (threadMetadata samples))
      (threadMetadata samples).threads := follows_sessionThread.within
  have hpass : ∀ t v, (resolveSessionThread (threadMetadata samples)).finish t (some v) = v :=
    fun _ _ => rfl
  refine ⟨_, _, (List.perm_cons_erase (hwithin _ _ hparent)).symm,
    (List.perm_cons_erase (hwithin _ _ hgrandparent)).symm, fun hagree => ?_⟩
  -- the session of the parent is the thread that the walks begin with
  have hsession := hagree.sessionThread _ (hwithin _ _ hgrandparent)
  have hfirst := (walkAll_cycle hpass hwithin hcycle hparent (ne_of_leads hparent)
    ((threadMetadata samples).threads.erase threadId)).2
  have hsecond := (walkAll_cycle hpass hwithin hcycle' hgrandparent (ne_of_leads hgrandparent)
    ((threadMetadata samples).threads.erase parent)).1
  exact ne_of_leads hparent
    (Option.some.inj (hfirst.symm.trans (hsession.trans hsecond))).symm

/-- **The orders are not seen** exactly when no thread leads back to itself. -/
theorem order_blind_iff (samples : List (SummarySample Path)) :
    OrderBlind samples ↔ Acyclic samples := by
  constructor
  · intro hblind threadId hcycle
    obtain ⟨order, order', horder, horder', hagree⟩ := not_agree_of_cycle hcycle
    exact hagree (hblind.threads order order' horder horder').1
  · intro hacyclic
    refine ⟨fun order order' horder horder' => ⟨?_, fun window localDate localHour => ?_⟩, ?_⟩
    · exact (resolveThreads_agree hacyclic horder horder').1
    · exact summary_agree window localDate localHour hacyclic horder horder'
    · intro hdistinct samples' hperm order order' horder horder' window localDate localHour
      exact sameTotals_of_perm
        (contributions_perm hacyclic hperm hdistinct horder horder' window localDate localHour)

end

end

/-! ## Two threads that name each other -/

def mutualParents : List (SummarySample String) := [
  { timestamp := 0, threadId := "a", parentThreadId := some "b", callCount := 1 },
  { timestamp := 1, threadId := "b", parentThreadId := some "a", callCount := 1 }]

/-- Both belong to the session of the one that is walked first. -/
theorem mutual_parents_see_order : ¬ ∀ samples : List (SummarySample String), OrderBlind samples := by
  intro h
  have hthreads := (h mutualParents).threads ["a", "b"] ["b", "a"] (by decide +kernel)
    (by decide +kernel)
  have hsession := hthreads.1.sessionThread "b" (by decide +kernel)
  revert hsession
  decide +kernel

end Summary
