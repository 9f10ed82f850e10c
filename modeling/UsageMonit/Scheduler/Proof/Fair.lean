import UsageMonit.Scheduler.Proof.Select

/-!
# Fairness

While the allowlist stays the same, the round robin lets no host overtake one that is due: from the
last host on, a due host stays nearer than the hosts behind it until it is attempted (`tick_before`,
`run_fair`).
-/

namespace Scheduler

open RoundRobin

section
variable {s : RemoteSyncScheduler} {input : TickInput} {row host a b : RemoteHostConfig}
  {pauses : Option (String → Option Bool)} {rows : List RemoteHostConfig}

/-! ## Ready ticks -/

theorem ReconciledRow.unique {schedule schedule' : HostSchedule}
    (h : ReconciledRow s input row schedule) (h' : ReconciledRow s input row schedule') :
    schedule = schedule' := by
  obtain ⟨pauses, hp, h⟩ := h
  obtain ⟨pauses', hp', h'⟩ := h'
  rw [hp] at hp'
  cases hp'
  rw [h] at h'
  exact Except.ok.inj h'

theorem ready_row (hp : input.processContainmentPausedHosts = .ok pauses)
    (hok : (reconciled s input pauses).2 = .ok ()) (hrow : row ∈ input.config.automaticHosts) :
    ∃ schedule, ReconciledRow s input row schedule ∧
      (ready s input pauses).hosts row.id = some schedule := by
  rcases reconciled_row (s := s) hp hrow with h | ⟨⟨e, he⟩, -⟩
  · exact h
  · rw [hok] at he
    cases he

theorem ready_last (hp : input.processContainmentPausedHosts = .ok pauses)
    (hok : (reconciled s input pauses).2 = .ok ()) (hrow : row ∈ input.config.automaticHosts)
    (hlast : s.lastDispatchedHost = some row.id) :
    (ready s input pauses).lastDispatchedHost = some row.id := by
  obtain ⟨schedule, -, hs⟩ := ready_row hp hok hrow
  unfold ready reconciled reconcileHosts at hs ⊢
  unfold reconciled reconcileHosts at hok
  dsimp only at hs hok ⊢
  split at hok
  · cases hok
  next hloop =>
    simp only [hloop] at hs
    have hsome := Option.isSome_of_eq_some hs
    simpa [monotonicNow, hlast] using hsome

theorem selectedHost_index (h : selectedHost s input pauses = some host) :
    ∃ k, input.config.automaticHosts[k]? = some host ∧
      pick input.config.automaticHosts.length
        (startIndex (ready s input pauses) input.config.automaticHosts)
        (dueIndex (ready s input pauses) input.config.automaticHosts input.config
          (max s.lastObservedNow input.clock)) = some k := by
  obtain ⟨k, hk, hhost⟩ := Option.bind_eq_some_iff.1 h
  rw [nextDueHostIndex_eq] at hk
  split at hk
  · cases hk
  · exact ⟨k, hhost, hk⟩

theorem dispatchHost_last (s : RemoteSyncScheduler) (now : Duration)
    (h : host ∈ input.config.automaticHosts) :
    ∃ d, (dispatchHost s input input.config.automaticHosts now host).calls = [d] ∧ d.host = host ∧
      (dispatchHost s input input.config.automaticHosts now host).scheduler.lastDispatchedHost =
        some host.id := by
  unfold dispatchHost
  rw [captureForAutomatic_ok h]
  exact ⟨_, rfl, rfl, rfl⟩

/-! ## Turns -/

/-- The record of a row is due when a tick selects. -/
def RowDue (s : RemoteSyncScheduler) (input : TickInput) (row : RemoteHostConfig) : Prop :=
  ∃ schedule due, ReconciledRow s input row schedule ∧ schedule.dueAt input.config = some due ∧
    due ≤ max s.lastObservedNow input.clock

/-- A row is due at every attempt of some ticks, until it is attempted itself. -/
def StaysDue (s : RemoteSyncScheduler) (row : RemoteHostConfig) : List TickInput → Prop
  | [] => True
  | input :: rest => ((tick s input).calls ≠ [] → RowDue s input row) ∧
      ((∀ d ∈ (tick s input).calls, d.host ≠ row) → StaysDue (tick s input).scheduler row rest)

/-- Behind the last host, the turn of `b` comes before the turn of `a`. -/
def Before (s : RemoteSyncScheduler) (rows : List RemoteHostConfig) (b a : RemoteHostConfig) :
    Prop :=
  ∃ l i j last, rows[l]? = some last ∧ rows[i]? = some b ∧ rows[j]? = some a ∧
    s.lastDispatchedHost = some last.id ∧
    distance rows.length (next rows.length l) i < distance rows.length (next rows.length l) j

theorem getElem?_lt {α : Type} {l : List α} {i : Nat} {x : α} (h : l[i]? = some x) :
    i < l.length := (List.getElem?_eq_some_iff.1 h).1

theorem index_unique (hnd : (rows.map (·.id)).Nodup) {i j : Nat} (hi : rows[i]? = some row)
    (hj : rows[j]? = some row) : i = j :=
  (List.getElem?_inj (getElem?_lt hi) (List.Nodup.of_map _ hnd)).1 (hi.trans hj.symm)

/-- **One tick does not overtake**: it does not attempt `a`, and unless it attempts `b`, the turn of
`b` still comes first. -/
theorem tick_before (hbefore : Before s input.config.automaticHosts b a)
    (hdue : (tick s input).calls ≠ [] → RowDue s input b) :
    (∀ d ∈ (tick s input).calls, d.host ≠ a) ∧
      ((∀ d ∈ (tick s input).calls, d.host ≠ b) →
        Before (tick s input).scheduler input.config.automaticHosts b a) := by
  have hnd := automaticHosts_nodup input.config
  obtain ⟨l, i, j, last, hl, hi, hj, hlast, hnear⟩ := hbefore
  have hlrow := List.mem_of_getElem? hl
  have hne : input.config.automaticHosts ≠ [] := List.ne_nil_of_mem hlrow
  rcases tick_failed_or_ready s input hne with ⟨-, hcalls, hsame⟩ | ⟨pauses, hp, hok⟩
  · refine ⟨by simp [hcalls], fun _ => ?_⟩
    exact ⟨l, i, j, last, hl, hi, hj, hsame.trans hlast, hnear⟩
  have hready := ready_last hp hok hlrow hlast
  rw [tick_ready hne hp hok] at hdue ⊢
  cases hsel : selectedHost s input pauses with
  | none => exact ⟨by simp, fun _ => ⟨l, i, j, last, hl, hi, hj, hready, hnear⟩⟩
  | some host =>
    obtain ⟨k, hk, hpick⟩ := selectedHost_index hsel
    obtain ⟨d, hcalls, hhost, hdispatched⟩ := dispatchHost_last
      (ready s input pauses) (max s.lastObservedNow input.clock) (List.mem_of_getElem? hk)
    simp only [hsel, hcalls] at hdue ⊢
    simp only [List.mem_singleton, forall_eq, hhost]
    rw [startIndex_of_row hnd hl hready] at hpick
    -- the record that makes `b` due is the one that the selection reads
    have hb : dueIndex (ready s input pauses) input.config.automaticHosts input.config
        (max s.lastObservedNow input.clock) i = true := by
      obtain ⟨schedule, due, hrec, hat, hle⟩ := hdue (by simp)
      obtain ⟨schedule', hrec', hs⟩ := ready_row hp hok (List.mem_of_getElem? hi)
      obtain rfl := hrec.unique hrec'
      exact dueIndex_iff.2 ⟨b, due, hi, by simp [hs, hat], hle⟩
    obtain ⟨hka, hkb⟩ := pick_before (next_lt (getElem?_lt hl)) (getElem?_lt hj) (getElem?_lt hi)
      hnear hb hpick
    refine ⟨?_, fun hnb => ?_⟩
    · rintro rfl
      exact hka (index_unique hnd hk hj)
    · rcases hkb with rfl | hnear'
      · exact absurd (Option.some.inj (hk.symm.trans hi)) hnb
      · exact ⟨k, i, j, host, hk, hi, hj, hdispatched, hnear'⟩

/-- Behind an attempt of `a`, the turn of every other host comes first. -/
theorem before_of_attempt {d : Dispatch} (hd : d ∈ (tick s input).calls) (ha : d.host = a)
    (hb : b ∈ input.config.automaticHosts) (hne : b ≠ a) :
    Before (tick s input).scheduler input.config.automaticHosts b a := by
  have hrows : input.config.automaticHosts ≠ [] := List.ne_nil_of_mem hb
  rcases tick_failed_or_ready s input hrows with ⟨-, hcalls, -⟩ | ⟨pauses, hp, hok⟩
  · simp [hcalls] at hd
  rw [tick_ready hrows hp hok] at hd ⊢
  cases hsel : selectedHost s input pauses with
  | none => simp [hsel] at hd
  | some host =>
    obtain ⟨k, hk, -⟩ := selectedHost_index hsel
    obtain ⟨d', hcalls, hhost, hdispatched⟩ := dispatchHost_last
      (ready s input pauses) (max s.lastObservedNow input.clock) (List.mem_of_getElem? hk)
    simp only [hsel, hcalls, List.mem_singleton] at hd
    obtain rfl : host = a := by rw [← hhost, ← hd, ha]
    obtain ⟨i, hi⟩ := List.mem_iff_getElem?.1 hb
    refine ⟨k, i, k, host, hk, hi, hk, hdispatched, ?_⟩
    refine behind_itself (getElem?_lt hi) (getElem?_lt hk) ?_
    rintro rfl
    exact hne (Option.some.inj (hi.symm.trans hk))

/-- **Fair runs.** A host whose turn comes first and that stays due is attempted first. -/
theorem run_fair {mid : List TickInput} {last : TickInput}
    (hrows : ∀ input ∈ mid ++ [last], input.config.automaticHosts = rows)
    (hbefore : Before s rows b a) (hdue : StaysDue s b (mid ++ [last]))
    (hagain : ∃ d ∈ (tick (after s mid) last).calls, d.host = a) :
    ∃ d ∈ calls s mid, d.host = b := by
  induction mid generalizing s with
  | nil =>
    obtain ⟨d, hd, hhost⟩ := hagain
    have hsame := hrows last (by simp)
    exact absurd hhost ((tick_before (hsame ▸ hbefore) hdue.1).1 d hd)
  | cons input rest ih =>
    obtain ⟨hsame, hrest⟩ := List.forall_mem_cons.1 hrows
    by_cases hb : ∃ d ∈ (tick s input).calls, d.host = b
    · obtain ⟨d, hd, hhost⟩ := hb
      exact ⟨d, List.mem_append_left _ hd, hhost⟩
    · have hnb : ∀ d ∈ (tick s input).calls, d.host ≠ b := by
        intro d hd hhost
        exact hb ⟨d, hd, hhost⟩
      have hstep := (tick_before (hsame ▸ hbefore) hdue.1).2 hnb
      obtain ⟨d, hd, hhost⟩ := ih hrest (hsame ▸ hstep) (hdue.2 hnb) hagain
      exact ⟨d, List.mem_append_right _ hd, hhost⟩

end

end Scheduler
