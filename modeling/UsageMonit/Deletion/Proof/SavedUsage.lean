import UsageMonit.Deletion.Proof.Overlay

/-!
# Saved usage is neither lost nor counted twice

`saved_usage_kept`: over every run of the ledger's transactions the saved calls of a thread only
grow and outcomes agree with records; the overlay of any dataset has one call for each event, sums
as totals, and is its own overlay up to repeated conflict reports. `overlay_limits` has what the
overlay leaves out: records captured after `asOf`, totals of other threads, and the reports.
-/

namespace Deletion

open Time Usage

theorem saved_usage_kept (env : LedgerEnv) (budget : LedgerReadBudget) :
    (∀ (calls later : List (LedgerCall × Bool)) (t : String),
      let before := Ledger.empty.run env budget calls
      let after := before.run env budget later
      (∀ saved ∈ before.savedCalls t, saved ∈ after.savedCalls t ∧
        ∀ other ∈ after.savedCalls t, other.key env = saved.key env → other = saved) ∧
      (∀ row, after.sessions.lookup t = some row →
        after.outcomes.lookup (row.operationId, t) = some row.record.status) ∧
      ∀ call : LedgerCall × Bool,
        (∃ e, call.1.transaction env budget after = .error e) ∨ call.2 = false →
          after.step env budget call = after) ∧
    ∀ (dataset : RolloutDataset) (records : List DeletedSessionRecord) (asOf : DateTime),
      (dataset.calls.map (callIdentity env)).Nodup →
      let overlaid := overlayDeletedSessions env dataset records asOf
      let reported := conflictReports env overlaid records asOf
      OneCallPerEvent env dataset records asOf overlaid ∧
      RebuiltTotals dataset records asOf overlaid ∧
      overlaid.warnings = dataset.warnings ++ reported ∧
      overlayDeletedSessions env overlaid records asOf =
        { overlaid with
          stats := skipLines overlaid.stats reported
          warnings := overlaid.warnings ++ reported } := by
  refine ⟨?_, ?_⟩
  · intro calls later t before after
    have hbefore : Consistent env before := Consistent.empty.run calls
    have hafter : Consistent env after := hbefore.run later
    refine ⟨?_, fun row h => hafter.outcome t row h, ?_⟩
    · intro saved hsaved
      have hkept : saved ∈ after.savedCalls t := run_savedCalls t later hbefore hsaved
      refine ⟨hkept, ?_⟩
      intro other hother hkey
      exact List.inj_on_of_nodup_map (hafter.distinct t) hother hkept hkey
    · intro call hfails
      unfold Ledger.step
      rcases hfails with ⟨e, he⟩ | hstorage
      · rw [he]
      · rw [hstorage]
        cases call.1.transaction env budget after <;> rfl
  · intro dataset records asOf hnodup overlaid reported
    exact ⟨overlay_events hnodup, overlay_totals dataset, overlay_overlay hnodup⟩

namespace Sample

def env : LedgerEnv where
  graphemes text := text.toList.map String.singleton
  observationDigest _ := ""
  encodedLength record := 400 + 300 * record.calls.length
  intoValues _ calls := calls
  intoValues_perm _ _ := List.Perm.refl _

def tokens (n : Nat) : TokenUsage := ⟨n, 0, 0, 0, 0, 0, n⟩

def call (threadId event : String) (n : Nat) : UsageCall :=
  ⟨seconds 10, threadId, none, some event, true, none, none, tokens n, true⟩

def record (threadId : String) (capturedAt : DateTime) (saved : UsageCall) :
    DeletedSessionRecord :=
  ⟨threadId, "t", none, none, none, none, none, capturedAt, none, .pending,
    [DeletedUsageCall.from saved], [], []⟩

def task (threadId : String) (usage : TokenUsage) : TaskRecord :=
  ⟨threadId, none, false, "t", none, none, none, none, .idle, .localExact, .high, usage, 0⟩

def dataset (tasks : List TaskRecord) (calls : List UsageCall) : RolloutDataset :=
  ⟨tasks, [], [], calls, [], default, []⟩

/-- The records of thread `a` captured at second 20 with one call of event `e`. -/
def records (n : Nat) : List DeletedSessionRecord := [record "a" (seconds 20) (call "a" "e" n)]

/-- As of second 15, after the call and before its capture. -/
def early : RolloutDataset :=
  overlayDeletedSessions env (dataset [] []) (records 7) (seconds 15)

def unrecorded : RolloutDataset :=
  overlayDeletedSessions env (dataset [task "b" default] [call "b" "e" 7]) (records 7) (seconds 30)

/-- The live call of the event has other tokens than the saved one. -/
def conflicting : RolloutDataset :=
  overlayDeletedSessions env (dataset [] [call "a" "e" 8]) (records 7) (seconds 30)

end Sample

open Sample in
theorem saved_usage_kept_sample :
    let live := dataset [task "a" default] [call "a" "e1" 5]
    (live.calls.map (callIdentity env)).Nodup ∧
      OneCallPerEvent env live (records 7) (seconds 30)
        (overlayDeletedSessions env live (records 7) (seconds 30)) := by
  have hnodup : ((dataset [task "a" default] [call "a" "e1" 5]).calls.map
      (callIdentity env)).Nodup := by decide
  exact ⟨hnodup, ((saved_usage_kept env ledgerReadBudget).2 _ _ _ hnodup).1⟩

/-- A record captured after `asOf` is not overlaid, whatever the times of its calls; a task without
a record keeps the total it had; a conflict is reported by every overlay. -/
theorem overlay_limits :
    (seconds 10 ≤ seconds 15 ∧
      callIdentity Sample.env (Sample.call "a" "e" 7) ∉
        Sample.early.calls.map (callIdentity Sample.env)) ∧
    (∃ task ∈ Sample.unrecorded.tasks,
      task.tokenUsage ≠ threadUsage Sample.unrecorded.calls task.threadId) ∧
    overlayDeletedSessions Sample.env Sample.conflicting (Sample.records 7) (seconds 30) ≠
      Sample.conflicting := by
  refine ⟨⟨by decide, ?_⟩, ?_, ?_⟩
  · rw [Sample.early, ((overlay_calls_perm _).map _).mem_iff]
    decide +kernel
  · refine ⟨Sample.task "b" default, by decide +kernel, ?_⟩
    rw [Sample.unrecorded, threadUsage_perm (overlay_calls_perm _)]
    decide +kernel
  · intro heq
    have hnodup : ((Sample.dataset [] [Sample.call "a" "e" 8]).calls.map
      (callIdentity Sample.env)).Nodup := by decide
    have hreport : Sample.conflicting.warnings ≠ [] := by decide +kernel
    obtain ⟨hreported, hagain⟩ := overlay_overlay hnodup
    have hwarnings := congrArg RolloutDataset.warnings (heq.symm.trans hagain)
    exact hreport (hreported.trans (List.self_eq_append_right.1 hwarnings))

end Deletion
