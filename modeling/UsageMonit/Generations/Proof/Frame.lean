import UsageMonit.Generations.Store

/-!
# What the operations write

Row names of different generations and families never coincide (`bucketsNamespace_inj` and its
like, `ne_of_suffix`), so that `WritesIn`, the names an operation writes, says what it leaves
alone: a page writes the rows of its generation (`writePage_writes`), a collection those of the
generation it deletes (`gc_writes`).
-/

namespace Generations

open Fallible Ingest HistoryTables

/-! ## Names -/

variable {key : String}

theorem ne_of_suffix {a b s t : String} (hlen : s.toList.length = t.toList.length)
    (hne : s.toList ≠ t.toList) : a ++ s ≠ b ++ t := by
  intro h
  have hlist := congrArg String.toList h
  rw [String.toList_append, String.toList_append] at hlist
  exact hne (List.append_inj_right' hlist hlen)

/-- The same for texts of different lengths, by the ends that differ. -/
theorem ne_of_endings {a b s t : String} (s₁ s₂ t₁ t₂ : String) (hs : s = s₁ ++ s₂)
    (ht : t = t₁ ++ t₂) (hlen : s₂.toList.length = t₂.toList.length)
    (hne : s₂.toList ≠ t₂.toList) : a ++ s ≠ b ++ t := by
  rw [hs, ht, ← String.append_assoc, ← String.append_assoc]
  exact ne_of_suffix hlen hne

theorem append_right_inj {a b s : String} (h : a ++ s = b ++ s) : a = b := by
  have hlist := congrArg String.toList h
  rw [String.toList_append, String.toList_append] at hlist
  exact String.toList_injective (List.append_cancel_right hlist)

theorem append_left_inj {a s t : String} (h : a ++ s = a ++ t) : s = t := by
  have hlist := congrArg String.toList h
  rw [String.toList_append, String.toList_append] at hlist
  exact String.toList_injective (List.append_cancel_left hlist)

section
variable (scope : HistoryScope) {g g' : RemoteHistoryGenerationId}

theorem generationDirectory_inj (h : scope.generationDirectory g = scope.generationDirectory g') :
    g = g' := append_left_inj h

theorem bucketsNamespace_inj (h : scope.bucketsNamespace g = scope.bucketsNamespace g') : g = g' :=
  generationDirectory_inj scope (append_right_inj h)

theorem digestsNamespace_inj (h : scope.digestsNamespace g = scope.digestsNamespace g') : g = g' :=
  generationDirectory_inj scope (append_right_inj h)

theorem generationKey_inj (h : scope.generationKey g = scope.generationKey g') : g = g' :=
  generationDirectory_inj scope (append_right_inj h)

theorem quotaKey_inj (h : scope.quotaKey g = scope.quotaKey g') : g = g' :=
  generationDirectory_inj scope (append_right_inj h)

theorem buckets_ne_digests : scope.bucketsNamespace g ≠ scope.digestsNamespace g' :=
  ne_of_suffix (by decide) (by decide)

theorem buckets_ne_quota : scope.bucketsNamespace g ≠ scope.quotaKey g' :=
  ne_of_endings "/bucket" "s" "/quota.jso" "n" rfl rfl (by decide) (by decide)

theorem digests_ne_quota : scope.digestsNamespace g ≠ scope.quotaKey g' :=
  ne_of_endings "/digest" "s" "/quota.jso" "n" rfl rfl (by decide) (by decide)

theorem active_ne_quota : scope.activeKey ≠ scope.quotaKey g :=
  ne_of_endings "/activ" "e.json" "/quot" "a.json" rfl rfl (by decide) (by decide)

theorem active_ne_generation : scope.activeKey ≠ scope.generationKey g :=
  ne_of_endings "/activ" "e.json" "/generatio" "n.json" rfl rfl (by decide) (by decide)

theorem active_ne_revision : scope.activeKey ≠ scope.publicationRevisionKey :=
  ne_of_endings "/activ" "e.json" "/remote-publication-revisio" "n.json" rfl rfl (by decide)
    (by decide)

theorem generation_ne_quota : scope.generationKey g ≠ scope.quotaKey g' :=
  ne_of_endings "/generatio" "n.json" "/quot" "a.json" rfl rfl (by decide) (by decide)

theorem quota_ne_revision : scope.quotaKey g ≠ scope.publicationRevisionKey :=
  ne_of_endings "/quot" "a.json" "/remote-publication-revisio" "n.json" rfl rfl (by decide)
    (by decide)

theorem generation_ne_revision : scope.generationKey g ≠ scope.publicationRevisionKey :=
  ne_of_endings "/genera" "tion.json" "/remote-publication-revi" "sion.json" rfl rfl (by decide)
    (by decide)

end

/-! ## Tables outside of the rows that are written -/

variable {ρ : Type}

/-- Nothing but rows of `history_state` under `keys` and records in `namespaces` was written. -/
structure WritesIn (keys namespaces : List String) (t t' : HistoryTables ρ) : Prop where
  states : ∀ key, key ∉ keys → t'.states.lookup key = t.states.lookup key
  records : ∀ ns, ns ∉ namespaces → t'.record ns = t.record ns

namespace WritesIn
variable {keys namespaces : List String} {t t' t'' : HistoryTables ρ}

theorem refl : WritesIn keys namespaces t t := ⟨fun _ _ => rfl, fun _ _ => rfl⟩

theorem trans (h : WritesIn keys namespaces t t') (h' : WritesIn keys namespaces t' t'') :
    WritesIn keys namespaces t t'' where
  states key hk := (h'.states key hk).trans (h.states key hk)
  records ns hns := (h'.records ns hns).trans (h.records ns hns)

theorem mono {keys' namespaces' : List String} (h : WritesIn keys namespaces t t')
    (hk : keys ⊆ keys') (hn : namespaces ⊆ namespaces') : WritesIn keys' namespaces' t t' where
  states key hkey := h.states key fun hmem => hkey (hk hmem)
  records ns hns := h.records ns fun hmem => hns (hn hmem)

end WritesIn

section
variable {keys namespaces : List String} (t : HistoryTables ρ)

theorem setState_writes (value : StateValue ρ) (h : key ∈ keys) :
    WritesIn keys namespaces t (t.setState key value) where
  states k hk := by
    refine AList.lookup_insert_ne ?_
    rintro rfl
    exact hk h
  records _ _ := rfl

theorem deleteState_writes (h : key ∈ keys) :
    WritesIn keys namespaces t (t.deleteState key) where
  states k hk := by
    refine AList.lookup_erase_ne ?_
    rintro rfl
    exact hk h
  records _ _ := rfl

theorem putRecord_writes {ns : String} (value : ρ) (h : ns ∈ namespaces) :
    WritesIn keys namespaces t (t.putRecord ns key value) where
  states _ _ := rfl
  records ns' hns := by
    funext k
    refine AList.lookup_insert_ne ?_
    intro heq
    exact hns ((Prod.mk.inj heq).1 ▸ h)

theorem deleteRecord_writes {ns : String} (h : ns ∈ namespaces) :
    WritesIn keys namespaces t (t.deleteRecord ns key) where
  states _ _ := rfl
  records ns' hns := by
    funext k
    refine AList.lookup_erase_ne ?_
    intro heq
    exact hns ((Prod.mk.inj heq).1 ▸ h)

theorem deleteNamespace_writes {ns : String} (h : ns ∈ namespaces) :
    WritesIn keys namespaces t (t.deleteNamespace ns) where
  states _ _ := rfl
  records ns' hns := by
    funext k
    refine (lookup_eraseAll _ t.records _).trans (if_neg fun hmem => ?_)
    have heq : ns' = ns := by simpa using (List.mem_filter.1 hmem).2
    exact hns (heq ▸ h)

end

/-! ## The families -/

theorem recordChange_writes {writer : FamilyWriter ρ} {ns : String} {acc acc' : HistoryTables ρ × Bool}
    {incoming : ρ} (h : recordChange writer ns acc incoming = .ok acc') :
    WritesIn [] [ns] acc.1 acc'.1 := by
  obtain ⟨key, -, h⟩ := bind_ok h
  obtain ⟨merged, -, h⟩ := bind_ok h
  cases merged with
  | none =>
    cases h
    exact .refl
  | some value =>
    cases h
    exact putRecord_writes _ value List.mem_cons_self

theorem recordLoop_writes {writer : FamilyWriter ρ} {ns : String} :
    ∀ {additions : List ρ} {acc acc' : HistoryTables ρ × Bool},
      additions.foldlM (recordChange writer ns) acc = .ok acc' → WritesIn [] [ns] acc.1 acc'.1
  | [], _, _, h => by
    cases h
    exact .refl
  | incoming :: rest, acc, acc', h => by
    rw [List.foldlM_cons] at h
    obtain ⟨acc₁, h₁, h⟩ := bind_ok h
    exact (recordChange_writes h₁).trans (recordLoop_writes h)

theorem recordChanges_writes {writer : FamilyWriter ρ} {t t' : HistoryTables ρ} {ns : String}
    {records : List ρ} {written : Bool} (h : recordChanges writer t ns records = .ok (t', written)) :
    WritesIn [] [ns] t t' := by
  obtain ⟨additions, -, h⟩ := bind_ok h
  exact recordLoop_writes h

section
variable [DecidableEq ρ]

theorem quotaChange_writes {writer : QuotaWriter ρ} {acc acc' : QuotaLoop ρ}
    {change : RemoteQuotaChange ρ} (h : quotaChange writer key acc change = .ok acc') :
    WritesIn [] [key] acc.tables acc'.tables := by
  unfold quotaChange at h
  split at h
  · cases h
    exact .refl
  · split at h
    · cases h
      exact deleteRecord_writes _ List.mem_cons_self
    · obtain ⟨_, -, h⟩ := bind_ok h
      cases h
      exact putRecord_writes _ _ List.mem_cons_self

theorem quotaLoop_writes {writer : QuotaWriter ρ} :
    ∀ {changes : List (RemoteQuotaChange ρ)} {acc acc' : QuotaLoop ρ},
      changes.foldlM (quotaChange writer key) acc = .ok acc' →
      WritesIn [] [key] acc.tables acc'.tables
  | [], _, _, h => by
    cases h
    exact .refl
  | change :: rest, acc, acc', h => by
    rw [List.foldlM_cons] at h
    obtain ⟨acc₁, h₁, h⟩ := bind_ok h
    exact (quotaChange_writes h₁).trans (quotaLoop_writes h)

theorem applyRemoteQuota_writes {writer : QuotaWriter ρ} {scope : HistoryScope}
    {t t' : HistoryTables ρ} {changes : List (RemoteQuotaChange ρ)} {changed : Bool}
    (h : applyRemoteQuota writer scope t key changes = .ok (t', changed)) :
    WritesIn [key] [key] t t' := by
  unfold applyRemoteQuota at h
  split at h
  · cases h
    exact .refl
  · obtain ⟨_, -, h⟩ := bind_ok h
    obtain ⟨_, -, h⟩ := bind_ok h
    obtain ⟨stored, -, h⟩ := bind_ok h
    obtain ⟨_, -, h⟩ := bind_ok h
    obtain ⟨present, -, h⟩ := bind_ok h
    obtain ⟨acc, hloop, h⟩ := bind_ok h
    obtain ⟨_, -, h⟩ := bind_ok h
    obtain ⟨_, -, h⟩ := bind_ok h
    cases h
    have hrows := (quotaLoop_writes hloop).mono (List.nil_subset [key]) (List.Subset.refl _)
    exact hrows.trans (setState_writes _ _ List.mem_cons_self)

def generationKeys (scope : HistoryScope) (g : RemoteHistoryGenerationId) : List String :=
  [scope.generationKey g, scope.quotaKey g]

def familyNamespaces (scope : HistoryScope) (g : RemoteHistoryGenerationId) : List String :=
  [scope.bucketsNamespace g, scope.digestsNamespace g, scope.quotaKey g]

theorem generationKeys_disjoint {scope : HistoryScope} {g g' : RemoteHistoryGenerationId}
    (h : g ≠ g') {key : String} (hkey : key ∈ generationKeys scope g) :
    key ∉ generationKeys scope g' := by
  simp only [generationKeys, List.mem_cons, List.not_mem_nil, or_false] at hkey ⊢
  rcases hkey with rfl | rfl
  · exact not_or.2 ⟨fun heq => h (generationKey_inj scope heq), generation_ne_quota scope⟩
  · exact not_or.2 ⟨(generation_ne_quota scope).symm, fun heq => h (quotaKey_inj scope heq)⟩

theorem familyNamespaces_disjoint {scope : HistoryScope} {g g' : RemoteHistoryGenerationId}
    (h : g ≠ g') {ns : String} (hns : ns ∈ familyNamespaces scope g) :
    ns ∉ familyNamespaces scope g' := by
  simp only [familyNamespaces, List.mem_cons, List.not_mem_nil, or_false, not_or] at hns ⊢
  rcases hns with rfl | rfl | rfl
  · exact ⟨fun heq => h (bucketsNamespace_inj scope heq), buckets_ne_digests scope,
      buckets_ne_quota scope⟩
  · exact ⟨(buckets_ne_digests scope).symm, fun heq => h (digestsNamespace_inj scope heq),
      digests_ne_quota scope⟩
  · exact ⟨(buckets_ne_quota scope).symm, (digests_ne_quota scope).symm,
      fun heq => h (quotaKey_inj scope heq)⟩

/-- **A page writes the rows of its generation.** -/
theorem writePage_writes {env : GenerationEnv ρ} {scope : HistoryScope} {t t' : HistoryTables ρ}
    {g : RemoteHistoryGenerationId} {page : HistoryPage ρ} {changed : Bool}
    (h : writePage env scope t g page = .ok (t', changed)) :
    WritesIn [scope.quotaKey g] (familyNamespaces scope g) t t' := by
  obtain ⟨⟨t₁, written⟩, h₁, h⟩ := bind_ok h
  obtain ⟨⟨t₂, written'⟩, h₂, h⟩ := bind_ok h
  obtain ⟨⟨t₃, written''⟩, h₃, h⟩ := bind_ok h
  cases h
  have hb := (recordChanges_writes h₁).mono (List.nil_subset [scope.quotaKey g])
    (show [scope.bucketsNamespace g] ⊆ familyNamespaces scope g by simp [familyNamespaces])
  have hd := (recordChanges_writes h₂).mono (List.nil_subset [scope.quotaKey g])
    (show [scope.digestsNamespace g] ⊆ familyNamespaces scope g by simp [familyNamespaces])
  have hq := (applyRemoteQuota_writes h₃).mono (List.Subset.refl _)
    (show [scope.quotaKey g] ⊆ familyNamespaces scope g by simp [familyNamespaces])
  exact (hb.trans hd).trans hq

end

/-! ## Rows read back -/

section
variable {env : GenerationEnv ρ} {scope : HistoryScope} {t t' : HistoryTables ρ}

theorem readState_congr {α : Type} {decode : StateValue ρ → Option α}
    (h : t'.states.lookup key = t.states.lookup key) :
    t'.readState key decode = t.readState key decode := by
  unfold readState
  rw [h]

theorem remoteGeneration_congr {g : RemoteHistoryGenerationId}
    (h : t'.states.lookup (scope.generationKey g) = t.states.lookup (scope.generationKey g)) :
    remoteGeneration env scope t' g = remoteGeneration env scope t g := by
  unfold remoteGeneration generationState
  rw [readState_congr h]

theorem remoteGeneration_ok {g : RemoteHistoryGenerationId} {value : RemoteGenerationMetadata}
    (h : remoteGeneration env scope t g = .ok value) : value.generation = g := by
  obtain ⟨stored, -, h⟩ := bind_ok h
  obtain ⟨metadata, -, h⟩ := bind_ok h
  obtain ⟨_, hvalid, h⟩ := bind_ok h
  obtain ⟨_, -, h⟩ := bind_ok h
  cases h
  obtain ⟨_, -, hvalid⟩ := bind_ok hvalid
  obtain ⟨_, -, hvalid⟩ := bind_ok hvalid
  exact (ensure_ok.1 hvalid).2.2.2.2

/-- The manifest row of a source. -/
def manifest (scope : HistoryScope) (t : HistoryTables ρ) : Option RemoteActiveManifest :=
  match t.states.lookup scope.activeKey with
  | some (.active m) => some m
  | _ => none

theorem manifest_congr (h : t'.states.lookup scope.activeKey = t.states.lookup scope.activeKey) :
    manifest scope t' = manifest scope t := by
  unfold manifest
  rw [h]

/-- The manifest that an operation reads is the stored one, and it selects a stored generation. -/
theorem remoteActive_ok {active : Option RemoteActiveManifest}
    (h : remoteActive env scope t = .ok active) :
    active = manifest scope t ∧ ∀ m, active = some m → checkActive env scope t m = .ok () := by
  unfold remoteActive activeState readState at h
  obtain ⟨stored, hread, h⟩ := bind_ok h
  obtain ⟨_, hcheck, h⟩ := bind_ok h
  cases h
  refine ⟨?_, fun m hm => checkSome_ok hcheck hm⟩
  unfold manifest
  cases hrow : t.states.lookup scope.activeKey with
  | none =>
    rw [hrow] at hread
    cases hread
    rfl
  | some value =>
    rw [hrow] at hread
    obtain ⟨decoded, hdecode, hread⟩ := bind_ok hread
    cases hread
    have hdecode := okOr_ok.1 hdecode
    cases value <;> cases hdecode
    rfl

end

end Generations
