import UsageMonit.Ingest.Run

/-!
# What a valid ingest state says

Facts that the proofs about runs take from `validate`: the bootstrap is not the active generation
(`generation_ne`), a retired generation is not live (`not_commits_of_retired`), and the pending
page continues the committed cursor of the generation it targets (`pending_continues`).
-/

namespace Ingest

open Fallible Protocol

variable {π ρ δ : Type} {env : IngestEnv π ρ δ} {s : StoredRemoteDeltaIngestState π}
  {b : RemoteDeltaIngestBinding}

/-- The state refers to a generation, whose committed cursor is `c`. -/
def Commits (s : StoredRemoteDeltaIngestState π) (g : RemoteHistoryGenerationId)
    (c : Option DeltaCursor) : Prop :=
  (∃ a, s.active = some a ∧ a.generation = g ∧ c = some a.cursor) ∨
    ∃ x, s.bootstrap = some x ∧ x.generation = g ∧ c = x.cursor

theorem Commits.live {g : RemoteHistoryGenerationId} {c : Option DeltaCursor} (h : Commits s g c) :
    g ∈ s.liveGenerations := by
  unfold StoredRemoteDeltaIngestState.liveGenerations
  rcases h with ⟨a, ha, rfl, -⟩ | ⟨x, hx, rfl, -⟩
  · simp [ha]
  · simp [hx]

theorem validate_parts (h : s.validate env b = .ok ()) :
    s.validateBootstrap = .ok () ∧ s.validatePending env b = .ok () ∧
      StoredRemoteDeltaIngestState.validateRetired s.liveGenerations s.retiredGenerations [] =
        .ok () := by
  iterate 3 obtain ⟨_, -, h⟩ := bind_ok h
  obtain ⟨_, hb, h⟩ := bind_ok h
  obtain ⟨_, hp, h⟩ := bind_ok h
  exact ⟨hb, hp, h⟩

theorem validateRetired_ok {live : List RemoteHistoryGenerationId} :
    ∀ {gs seen : List RemoteHistoryGenerationId},
      StoredRemoteDeltaIngestState.validateRetired live gs seen = .ok () → ∀ g ∈ gs, g ∉ live
  | [], _, _, _, hg => by cases hg
  | g' :: gs, seen, h, g, hg => by
    obtain ⟨_, -, h⟩ := bind_ok h
    obtain ⟨_, -, h⟩ := bind_ok h
    obtain ⟨_, hlive, h⟩ := bind_ok h
    cases hg with
    | head => exact ensure_ok.1 hlive
    | tail _ hg => exact validateRetired_ok h g hg

theorem not_commits_of_retired (h : s.validate env b = .ok ()) {g : RemoteHistoryGenerationId}
    (hg : g ∈ s.retiredGenerations) (c : Option DeltaCursor) : ¬ Commits s g c := by
  intro hc
  exact validateRetired_ok (validate_parts h).2.2 g hg hc.live

theorem generation_ne (h : s.validate env b = .ok ()) {a : StoredActiveGeneration}
    {x : StoredBootstrap} (ha : s.active = some a) (hx : s.bootstrap = some x) :
    a.generation ≠ x.generation := by
  have hb := checkSome_ok (validate_parts h).1 hx
  obtain ⟨_, hxv, hb⟩ := bind_ok hb
  obtain ⟨_, -, hb⟩ := bind_ok hb
  have hb := checkSome_ok hb ha
  obtain ⟨ref, href, hb⟩ := bind_ok hb
  have hsame := (ensure_ok.1 hb).1
  -- the bootstrap expects the active generation and differs from what it expects
  obtain ⟨_, -, hxv⟩ := bind_ok hxv
  obtain ⟨_, hexp, -⟩ := bind_ok hxv
  have hexp := checkSome_ok hexp (okOr_ok.1 href)
  obtain ⟨_, -, hexp⟩ := bind_ok hexp
  rw [← hsame]
  exact ensure_ok.1 hexp

theorem validateExchange_ok {request : RemoteExportRequest} {response : RemoteDeltaResponse π}
    {delta : DeltaRequest} {page : DeltaPage} {payload : π}
    (h : b.validateExchange env request response = .ok ()) (hd : deltaRequest request = .ok delta)
    (hp : deltaResponsePage response = .ok (page, payload)) :
    page.validate = .ok () ∧ validateDeltaPageForRequest delta page = .ok () := by
  have hreq : request.request = .delta delta := by
    unfold deltaRequest at hd
    split at hd
    · cases hd
      assumption
    · cases hd
  have hres : response.result = .delta page payload := by
    unfold deltaResponsePage at hp
    split at hp
    · cases hp
      assumption
    · cases hp
    · cases hp
  obtain ⟨_, h, -⟩ := bind_ok h
  obtain ⟨_, -, h⟩ := bind_ok h
  obtain ⟨_, hresp, h⟩ := bind_ok h
  obtain ⟨_, -, hresp⟩ := bind_ok hresp
  rw [hres] at hresp h
  refine ⟨hresp, ?_⟩
  iterate 3 obtain ⟨_, -, h⟩ := bind_ok h
  rw [hreq] at h
  obtain ⟨_, hpage, -⟩ := bind_ok h
  exact hpage

/-- **The pending page continues the generation it targets**: its request carries that
generation's committed cursor, and the page continues the request. -/
theorem pending_continues (h : s.validate env b = .ok ()) {p : StoredPendingPage π}
    {delta : DeltaRequest} {page : DeltaPage} {payload : π} (hp : s.pending = some p)
    (hd : deltaRequest p.request = .ok delta)
    (hpage : deltaResponsePage p.response = .ok (page, payload)) :
    page.validate = .ok () ∧ validateDeltaPageForRequest delta page = .ok () ∧
      Commits s p.target.resultingGeneration delta.deltaCursor ∧
      ∀ g, p.target = .active g → s.bootstrap = none := by
  have hv := checkSome_ok (validate_parts h).2.1 hp
  obtain ⟨_, hpv, hv⟩ := bind_ok hv
  obtain ⟨_, -, hpv⟩ := bind_ok hpv
  obtain ⟨_, -, hpv⟩ := bind_ok hpv
  obtain ⟨_, hex, -⟩ := bind_ok hpv
  obtain ⟨hok, hreq⟩ := validateExchange_ok hex hd hpage
  refine ⟨hok, hreq, ?_⟩
  have hcont : ∀ {c : Option DeltaCursor} {r : Option ExportRange},
      validatePendingContinuation p c r = .ok () → delta.deltaCursor = c := by
    intro c r hc
    obtain ⟨d, hd', hc⟩ := bind_ok hc
    rw [hd] at hd'
    cases hd'
    obtain ⟨_, hc, -⟩ := bind_ok hc
    exact ensure_ok.1 hc
  cases ht : p.target with
  | active g =>
    rw [ht] at hv
    obtain ⟨a, ha, hv⟩ := bind_ok hv
    obtain ⟨_, hg, hv⟩ := bind_ok hv
    obtain ⟨hg, hnone⟩ := ensure_ok.1 hg
    refine ⟨.inl ⟨a, okOr_ok.1 ha, hg, hcont hv⟩, ?_⟩
    intro _ _
    exact hnone
  | staging g =>
    rw [ht] at hv
    obtain ⟨x, hx, hv⟩ := bind_ok hv
    obtain ⟨_, hg, hv⟩ := bind_ok hv
    obtain ⟨range, -, hv⟩ := bind_ok hv
    refine ⟨.inr ⟨x, okOr_ok.1 hx, (ensure_ok.1 hg).1, hcont hv⟩, ?_⟩
    intro _ h'
    cases h'

end Ingest
