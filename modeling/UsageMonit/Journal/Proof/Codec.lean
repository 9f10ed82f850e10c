import Mathlib.Logic.Encodable.Pi
import Mathlib.Tactic.DeriveEncodable
import UsageMonit.FactExport.Proof.Freeze
import UsageMonit.Journal.Codec

/-!
# The journal codec and its inverse

* `canonicalize_ok`, `canonicalize_of`: canonical descriptors are those given, strictly ordered by key
* `encode_ok`, `decode_ok`: what the encoder and the decoder accept
* `journal_codec_roundtrip`: what is encoded is decoded to the same record, and what is decoded is
  encoded to the same change unless it is a record that needs version 1 under version 2
-/

namespace Journal

open Fallible Export KeyedMerge FactExport

/-! ## Canonical descriptors -/

variable {descriptors : List RemoteProjectDescriptor}

/-- The descriptors without repetition, strictly ordered by key. -/
structure IsCanonical (descriptors canonical : List RemoteProjectDescriptor) : Prop where
  ordered : Ordered RemoteProjectDescriptor.observedProjectKey canonical
  mem : ∀ d, d ∈ canonical ↔ d ∈ descriptors

/-- No two descriptors of one key differ. -/
def Consistent (descriptors : List RemoteProjectDescriptor) : Prop :=
  ∀ d ∈ descriptors, ∀ d' ∈ descriptors, d.observedProjectKey = d'.observedProjectKey → d = d'

theorem IsCanonical.unique {l l' : List RemoteProjectDescriptor} (h : IsCanonical descriptors l)
    (h' : IsCanonical descriptors l') : l = l' :=
  h.ordered.ext h'.ordered fun d => (h.mem d).trans (h'.mem d).symm

theorem IsCanonical.self {l : List RemoteProjectDescriptor} (h : IsCanonical descriptors l) :
    IsCanonical l l := ⟨h.ordered, fun _ => Iff.rfl⟩

section
variable {subject : String} {d : RemoteProjectDescriptor} {l l' : List RemoteProjectDescriptor}

theorem insertDescriptor_ok (hl : Ordered RemoteProjectDescriptor.observedProjectKey l)
    (h : insertDescriptor subject l d = .ok l') :
    validateDescriptorShape d subject = .ok () ∧
      Ordered RemoteProjectDescriptor.observedProjectKey l' ∧ ∀ x, x ∈ l' ↔ x ∈ l ∨ x = d := by
  obtain ⟨_, hshape, h⟩ := bind_ok h
  refine ⟨hshape, ?_⟩
  split at h
  · rename_i existing hexisting
    obtain ⟨_, hsame, h⟩ := bind_ok h
    obtain rfl : l = l' := Except.ok.inj h
    obtain rfl := ensure_ok.1 hsame
    refine ⟨hl, fun x => ⟨.inl, ?_⟩⟩
    rintro (hx | rfl)
    · exact hx
    · exact (valueAt_key hexisting).1
  · rename_i hnone
    obtain rfl := Except.ok.inj h
    refine ⟨hl.upsert fun _ _ _ => rfl, fun x => ?_⟩
    rw [mem_upsert_of_new (valueAt_eq_none.1 hnone), or_comm]

theorem insertDescriptor_of (hshape : validateDescriptorShape d subject = .ok ())
    (hd : ∀ x ∈ l, x.observedProjectKey = d.observedProjectKey → x = d) :
    ∃ l', insertDescriptor subject l d = .ok l' := by
  unfold insertDescriptor
  rw [hshape, ok_bind]
  split
  · rename_i existing hexisting
    obtain ⟨hmem, hkey⟩ := valueAt_key hexisting
    rw [ensure_of (hd existing hmem hkey), ok_bind]
    exact ⟨l, rfl⟩
  · exact ⟨_, rfl⟩

theorem insertDescriptors_ok (hl : Ordered RemoteProjectDescriptor.observedProjectKey l)
    (h : descriptors.foldlM (insertDescriptor subject) l = .ok l') :
    (∀ d ∈ descriptors, validateDescriptorShape d subject = .ok ()) ∧
      Ordered RemoteProjectDescriptor.observedProjectKey l' ∧
      ∀ x, x ∈ l' ↔ x ∈ l ∨ x ∈ descriptors := by
  induction descriptors generalizing l with
  | nil =>
    obtain rfl : l = l' := Except.ok.inj h
    exact ⟨fun d hd => absurd hd List.not_mem_nil, hl, by simp⟩
  | cons d descriptors ih =>
    rw [List.foldlM_cons] at h
    obtain ⟨m, hm, h⟩ := bind_ok h
    obtain ⟨hshape, hordered, hmem⟩ := insertDescriptor_ok hl hm
    obtain ⟨hshapes, hordered', hmem'⟩ := ih hordered h
    refine ⟨List.forall_mem_cons.2 ⟨hshape, hshapes⟩, hordered', fun x => ?_⟩
    rw [hmem', hmem, List.mem_cons, or_assoc]

theorem insertDescriptors_of (hl : Ordered RemoteProjectDescriptor.observedProjectKey l)
    (hshapes : ∀ d ∈ descriptors, validateDescriptorShape d subject = .ok ())
    (hconsistent : Consistent (l ++ descriptors)) :
    ∃ l', descriptors.foldlM (insertDescriptor subject) l = .ok l' := by
  induction descriptors generalizing l with
  | nil => exact ⟨l, rfl⟩
  | cons d descriptors ih =>
    obtain ⟨m, hm⟩ := insertDescriptor_of (hshapes d List.mem_cons_self)
      fun x hx => hconsistent x (List.mem_append_left _ hx) d (by simp)
    obtain ⟨-, hordered, hmem⟩ := insertDescriptor_ok hl hm
    have hsub : ∀ x ∈ m ++ descriptors, x ∈ l ++ d :: descriptors := by
      intro x hx
      rcases List.mem_append.1 hx with hx | hx
      · rcases (hmem x).1 hx with hx | rfl <;> simp [*]
      · simp [hx]
    rw [List.foldlM_cons, hm, ok_bind]
    exact ih hordered (fun e he => hshapes e (List.mem_cons_of_mem d he))
      fun x hx y hy => hconsistent x (hsub x hx) y (hsub y hy)

end

section
variable {canonical : List RemoteProjectDescriptor} {maximum : Nat} {subject : String}

theorem canonicalize_ok (h : canonicalizeDescriptors descriptors maximum subject = .ok canonical) :
    descriptors.length ≤ maximum ∧
      (∀ d ∈ descriptors, validateDescriptorShape d subject = .ok ()) ∧
      IsCanonical descriptors canonical := by
  obtain ⟨_, hlength, h⟩ := bind_ok h
  obtain ⟨hshapes, hordered, hmem⟩ := insertDescriptors_ok .nil h
  exact ⟨ensure_ok.1 hlength, hshapes, hordered, fun d => by simp [hmem]⟩

theorem IsCanonical.consistent (h : IsCanonical descriptors canonical) : Consistent descriptors := by
  intro d hd d' hd' hkey
  have hself := h.ordered.valueAt_self ((h.mem d).2 hd)
  have hself' := h.ordered.valueAt_self ((h.mem d').2 hd')
  rw [hkey, hself'] at hself
  exact (Option.some.inj hself).symm

theorem canonicalize_of (hlength : descriptors.length ≤ maximum)
    (hshapes : ∀ d ∈ descriptors, validateDescriptorShape d subject = .ok ())
    (hconsistent : Consistent descriptors) :
    ∃ canonical, canonicalizeDescriptors descriptors maximum subject = .ok canonical := by
  unfold canonicalizeDescriptors
  rw [ensure_of hlength, ok_bind]
  exact insertDescriptors_of .nil hshapes hconsistent

theorem IsCanonical.length_le (h : IsCanonical descriptors canonical) :
    canonical.length ≤ descriptors.length := by
  have hnodup : canonical.Nodup :=
    List.Pairwise.imp (fun hlt => ne_of_apply_ne _ (ne_of_lt hlt)) h.ordered
  exact (hnodup.subperm fun d hd => (h.mem d).1 hd).length_le

end

/-! ## The identifier of a change -/

theorem isPathSafe_ofList {cs : List Char} {maximum : Nat} (hne : cs ≠ [])
    (hlength : cs.length ≤ maximum) (hchars : ∀ c ∈ cs, c.utf8Size = 1 ∧
      (c.isAlphanum || c == '-' || c == '_' || c == '.' || c == ':') = true) :
    isPathSafe (String.ofList cs) maximum := by
  refine ⟨fun hempty => hne ?_, ?_, ?_⟩
  · rw [← String.toList_ofList (l := cs), hempty]
    rfl
  · rw [utf8ByteSize_ofList fun c hc => (hchars c hc).1]
    exact hlength
  · rw [String.toList_ofList, List.all_eq_true]
    exact fun c hc => (hchars c hc).2

theorem hexDigits_safe {byte : UInt8} : ∀ c ∈ hexDigits byte, c.utf8Size = 1 ∧
    (c.isAlphanum || c == '-' || c == '_' || c == '.' || c == ':') = true := by
  have hbyte : byte.toNat < 256 := UInt8.toNat_lt_size byte
  have hdigit : ∀ d, d < 16 → (Nat.digitChar d).utf8Size = 1 ∧ ((Nat.digitChar d).isAlphanum ||
      Nat.digitChar d == '-' || Nat.digitChar d == '_' || Nat.digitChar d == '.' ||
      Nat.digitChar d == ':') = true := by
    intro d hd
    exact ⟨utf8Size_digitChar hd, by simp [isAlphanum_digitChar hd]⟩
  intro c hc
  rcases List.mem_cons.1 hc with rfl | hc
  · exact hdigit _ (by omega)
  · rw [List.mem_singleton.1 hc]
    exact hdigit _ (by omega)

theorem changeId_valid {γ π : Type} (env : JournalEnv γ π) (payload : List UInt8) :
    validateChangeId (contentDerivedChangeId env payload) = .ok () := by
  have hall : "delta-journal-sha256-v1-".toList.all (fun c => decide (c.utf8Size = 1 ∧
      (c.isAlphanum || c == '-' || c == '_' || c == '.' || c == ':') = true)) = true := by
    decide
  have hhead : ∀ c ∈ "delta-journal-sha256-v1-".toList, c.utf8Size = 1 ∧
      (c.isAlphanum || c == '-' || c == '_' || c == '.' || c == ':') = true := by
    intro c hc
    exact of_decide_eq_true (List.all_eq_true.1 hall c hc)
  have hlength : ("delta-journal-sha256-v1-".toList ++
      (List.ofFn (env.sha256 payload)).flatMap hexDigits).length = 88 := by
    simp [hexDigits]
  apply ensure_of
  apply isPathSafe_ofList
  · exact List.ne_nil_of_length_pos (by omega)
  · rw [hlength]
    decide
  · intro c hc
    rcases List.mem_append.1 hc with hc | hc
    · exact hhead c hc
    · obtain ⟨byte, -, hc⟩ := List.mem_flatMap.1 hc
      exact hexDigits_safe c hc

/-! ## What is accepted -/

section
variable {γ π : Type} {env : JournalEnv γ π} {record : RemoteDeltaJournalRecord γ π}
  {canonical : List RemoteProjectDescriptor} {change : RemoteExportChange}

/-- The change of an entry under a version tag. -/
def changeOf (env : JournalEnv γ π) (value : VersionedRemoteDeltaJournalRecord γ π) :
    RemoteExportChange :=
  ⟨contentDerivedChangeId env (env.serialize value), env.serialize value⟩

/-- The descriptors are well formed and cover the references of a record exactly. -/
structure ExactlyCovers (record : RemoteDeltaJournalRecord γ π)
    (descriptors : List RemoteProjectDescriptor) : Prop where
  shaped : ∀ d ∈ descriptors, validateDescriptorShape d "remote delta journal record" = .ok ()
  consistent : Consistent descriptors
  keys : recordProjectKeys record = (descriptors.map (·.observedProjectKey)).toFinset

theorem IsCanonical.keys (h : IsCanonical descriptors canonical) :
    (canonical.map (·.observedProjectKey)).toFinset =
      (descriptors.map (·.observedProjectKey)).toFinset := by
  ext key
  simp [h.mem]

/-- **What the encoder accepts**, and the change it makes. -/
theorem encode_ok : encodeRemoteDeltaJournalRecord env record descriptors = .ok change ↔
    ∃ canonical, IsCanonical descriptors canonical ∧ validateRecordShape env record = .ok () ∧
      ExactlyCovers record descriptors ∧ descriptors.length ≤ maxDescriptorsPerRecord ∧
      (env.serialize (versioned ⟨record, canonical⟩)).length ≤ maxJournalRecordBytes ∧
      change = changeOf env (versioned ⟨record, canonical⟩) := by
  unfold encodeRemoteDeltaJournalRecord
  constructor
  · intro h
    obtain ⟨_, hshape, h⟩ := bind_ok h
    obtain ⟨canonical, hcanonical, h⟩ := bind_ok h
    obtain ⟨_, hkeys, h⟩ := bind_ok h
    obtain ⟨payload, hpayload, h⟩ := bind_ok h
    obtain ⟨_, hbytes, hpayload⟩ := bind_ok hpayload
    obtain rfl := Except.ok.inj hpayload
    obtain ⟨hlength, hshapes, hiscanonical⟩ := canonicalize_ok hcanonical
    refine ⟨canonical, hiscanonical, hshape, ⟨hshapes, hiscanonical.consistent, ?_⟩, hlength,
      ensure_ok.1 hbytes, (checked_ok h).1⟩
    rw [ensure_ok.1 hkeys, hiscanonical.keys]
  · rintro ⟨canonical, hiscanonical, hshape, hcovers, hlength, hbytes, rfl⟩
    obtain ⟨again, hagain⟩ := canonicalize_of hlength hcovers.shaped hcovers.consistent
    obtain rfl := (canonicalize_ok hagain).2.2.unique hiscanonical
    rw [hshape, ok_bind, hagain, ok_bind, validateExactDescriptorReferences,
      ensure_of (hcovers.keys.trans hiscanonical.keys.symm), ok_bind, encodeCanonicalBounded,
      ensure_of hbytes]
    simp only [ok_bind, pure, Except.pure, RemoteExportChange.checked, RemoteExportChange.validate,
      changeId_valid, ensure_of (show _ ≤ maxChangePayloadBytes from hbytes), changeOf]

/-- **What the decoder accepts.** -/
theorem decode_ok {entry : RemoteDeltaJournalRecordV1 γ π} :
    decodeRemoteDeltaJournalChange env change = .ok entry ↔
      ∃ value, env.parse change.payload = .ok value ∧ change = changeOf env value ∧
        unversioned value = .ok entry ∧ (env.serialize value).length ≤ maxJournalRecordBytes ∧
        validateRecordShape env entry.record = .ok () ∧
        ExactlyCovers entry.record entry.projectDescriptors ∧
        entry.projectDescriptors.length ≤ maxDescriptorsPerRecord ∧
        IsCanonical entry.projectDescriptors entry.projectDescriptors := by
  unfold decodeRemoteDeltaJournalChange
  constructor
  · intro h
    obtain ⟨_, -, h⟩ := bind_ok h
    obtain ⟨_, hid, h⟩ := bind_ok h
    obtain ⟨value, hvalue, h⟩ := bind_ok h
    obtain ⟨payload, hpayload, h⟩ := bind_ok h
    obtain ⟨_, hbytes, hpayload⟩ := bind_ok hpayload
    obtain rfl := Except.ok.inj hpayload
    obtain ⟨_, hsame, h⟩ := bind_ok h
    obtain ⟨decoded, hdecoded, h⟩ := bind_ok h
    obtain ⟨_, hshape, h⟩ := bind_ok h
    obtain ⟨_, hlength, h⟩ := bind_ok h
    obtain ⟨canonical, hcanonical, h⟩ := bind_ok h
    obtain ⟨_, heq, h⟩ := bind_ok h
    obtain ⟨_, hkeys, h⟩ := bind_ok h
    obtain rfl := Except.ok.inj h
    obtain rfl := ensure_ok.1 heq
    obtain ⟨-, hshapes, hiscanonical⟩ := canonicalize_ok hcanonical
    have hparse : env.parse change.payload = .ok value := by
      cases hparsed : env.parse change.payload with
      | error e =>
        rw [hparsed] at hvalue
        cases hvalue
      | ok parsed =>
        rw [hparsed] at hvalue
        exact hvalue
    have hchange : change = changeOf env value := by
      rw [changeOf, ensure_ok.1 hsame, ← ensure_ok.1 hid]
    exact ⟨value, hparse, hchange, hdecoded, ensure_ok.1 hbytes, hshape,
      ⟨hshapes, hiscanonical.consistent, ensure_ok.1 hkeys⟩, ensure_ok.1 hlength, hiscanonical⟩
  · rintro ⟨value, hparse, rfl, hentry, hbytes, hshape, hcovers, hlength, hcanonical⟩
    obtain ⟨again, hagain⟩ := canonicalize_of hlength hcovers.shaped hcovers.consistent
    obtain rfl := (canonicalize_ok hagain).2.2.unique hcanonical
    have hid : (changeOf env value).changeId =
      contentDerivedChangeId env (changeOf env value).payload := rfl
    have hpayload : (changeOf env value).payload = env.serialize value := rfl
    have hsize : (changeOf env value).payload.length ≤ maxJournalRecordBytes := hbytes
    rw [ensure_of hsize, ok_bind, ensure_of hid, ok_bind, hparse]
    simp only [Except.mapError, ok_bind, encodeCanonicalBounded, ensure_of hbytes, pure,
      Except.pure, ensure_of hpayload.symm, hentry, hshape, ensure_of hlength, hagain,
      ensure_of trivial,
      validateExactDescriptorReferences, ensure_of hcovers.keys]

/-! ## Both directions -/

theorem serialize_injective (hserde : env.Canonical) {value value' : VersionedRemoteDeltaJournalRecord γ π}
    (h : env.serialize value = env.serialize value') : value = value' := by
  have hvalue := hserde value
  rw [h, hserde value'] at hvalue
  exact (Except.ok.inj hvalue).symm

theorem unversioned_versioned (entry : RemoteDeltaJournalRecordV1 γ π) :
    unversioned (versioned entry) = .ok entry := by
  unfold versioned
  split
  · rfl
  · rename_i hquota
    simp only [unversioned, Bool.not_eq_true] at hquota ⊢
    rw [ensure_of hquota]
    rfl

/-- **What is encoded is decoded to the same record.** -/
theorem decode_encode (hserde : env.Canonical)
    (h : encodeRemoteDeltaJournalRecord env record descriptors = .ok change) :
    ∃ canonical, IsCanonical descriptors canonical ∧
      decodeRemoteDeltaJournalChange env change = .ok ⟨record, canonical⟩ := by
  obtain ⟨canonical, hcanonical, hshape, hcovers, hlength, hbytes, rfl⟩ := encode_ok.1 h
  refine ⟨canonical, hcanonical, decode_ok.2 ⟨versioned ⟨record, canonical⟩, hserde _, rfl,
    unversioned_versioned _, hbytes, hshape, ⟨?_, hcanonical.self.consistent, ?_⟩,
    hcanonical.length_le.trans hlength, hcanonical.self⟩⟩
  · exact fun d hd => hcovers.shaped d ((hcanonical.mem d).1 hd)
  · exact hcovers.keys.trans hcanonical.keys.symm

/-- The payload of a change is a record under version 2 that is no quota record. -/
def MisversionedPayload (env : JournalEnv γ π) (payload : List UInt8) : Prop :=
  ∃ entry, payload = env.serialize (.v2 entry) ∧ entry.record.isQuota = false

/-- **A decoded change is encoded again** under the version tag of its record. -/
theorem encode_decode (hserde : env.Canonical) {entry : RemoteDeltaJournalRecordV1 γ π}
    (h : decodeRemoteDeltaJournalChange env change = .ok entry) :
    encodeRemoteDeltaJournalRecord env entry.record entry.projectDescriptors = .ok change ↔
      ¬ MisversionedPayload env change.payload := by
  obtain ⟨value, -, rfl, hentry, hbytes, hshape, hcovers, hlength, hcanonical⟩ := decode_ok.1 h
  have hencode : encodeRemoteDeltaJournalRecord env entry.record entry.projectDescriptors =
      .ok (changeOf env value) ↔ value = versioned entry := by
    rw [encode_ok]
    constructor
    · rintro ⟨canonical, hiscanonical, -, -, -, -, hchange⟩
      obtain rfl := hcanonical.unique hiscanonical
      exact serialize_injective hserde (congrArg RemoteExportChange.payload hchange)
    · rintro rfl
      exact ⟨_, hcanonical, hshape, hcovers, hlength, hbytes, rfl⟩
  rw [hencode]
  constructor
  · rintro hversion ⟨entry', hpayload, hquota⟩
    obtain rfl : value = .v2 entry' := serialize_injective hserde hpayload
    obtain rfl : entry' = entry := Except.ok.inj hentry
    rw [versioned, if_neg (by simp [hquota])] at hversion
    cases hversion
  · intro hpayload
    cases value with
    | v1 entry' =>
      obtain ⟨_, hquota, hsame⟩ := bind_ok hentry
      obtain rfl := Except.ok.inj hsame
      rw [versioned, if_neg (by simp [ensure_ok.1 hquota])]
    | v2 entry' =>
      obtain rfl : entry' = entry := Except.ok.inj hentry
      cases hquota : entry'.record.isQuota with
      | true => rw [versioned, if_pos hquota]
      | false => exact absurd ⟨entry', rfl, hquota⟩ hpayload

/-- **The journal codec**: the encoder accepts the valid records with descriptors that cover them
exactly and fit; what it writes is read back with the canonical descriptors; and what the decoder
accepts is written back as the same change exactly when it is not a record of another kind under the
version of quota records. -/
theorem journal_codec_roundtrip (hserde : env.Canonical) :
    (∀ record descriptors, (∃ change,
        encodeRemoteDeltaJournalRecord env record descriptors = .ok change) ↔
      ∃ canonical, IsCanonical descriptors canonical ∧ validateRecordShape env record = .ok () ∧
        ExactlyCovers record descriptors ∧ descriptors.length ≤ maxDescriptorsPerRecord ∧
        (env.serialize (versioned ⟨record, canonical⟩)).length ≤ maxJournalRecordBytes) ∧
    (∀ record descriptors change,
      encodeRemoteDeltaJournalRecord env record descriptors = .ok change →
      ∃ canonical, IsCanonical descriptors canonical ∧
        decodeRemoteDeltaJournalChange env change = .ok ⟨record, canonical⟩) ∧
    ∀ change entry, decodeRemoteDeltaJournalChange env change = .ok entry →
      (encodeRemoteDeltaJournalRecord env entry.record entry.projectDescriptors = .ok change ↔
        ¬ MisversionedPayload env change.payload) := by
  refine ⟨fun record descriptors => ⟨?_, ?_⟩, fun record descriptors change => decode_encode hserde,
    fun change entry => encode_decode hserde⟩
  · rintro ⟨change, h⟩
    obtain ⟨canonical, hcanonical, hshape, hcovers, hlength, hbytes, -⟩ := encode_ok.1 h
    exact ⟨canonical, hcanonical, hshape, hcovers, hlength, hbytes⟩
  · rintro ⟨canonical, hcanonical, hshape, hcovers, hlength, hbytes⟩
    exact ⟨_, encode_ok.2 ⟨canonical, hcanonical, hshape, hcovers, hlength, hbytes, rfl⟩⟩

end

namespace Sample

instance encodableString : Encodable String :=
  Encodable.ofLeftInjection (fun s => s.toList.map Char.toNat)
    (fun codes => some (String.ofList (codes.map Char.ofNat))) fun s => by
      simp [Function.comp_def, Char.ofNat_toNat]

deriving instance Encodable for Provenance, RemoteQuotaPoint, RemoteQuotaDay,
  RemoteProjectUsageGroup, RemoteUsageBucket, RemoteUsageBucketMutation, RemoteSessionDigest,
  RemoteSessionDigestMutation, RemoteDeltaJournalRecord, RemoteGitRepositoryEvidence,
  RemoteProjectDescriptor, RemoteDeltaJournalRecordV1, VersionedRemoteDeltaJournalRecord

/-- The tombstone of a bucket. -/
def entry : RemoteDeltaJournalRecordV1 Unit Unit := ⟨.usageBucket 0 .tombstone, []⟩

def key : String :=
  "opk-hmac-sha256-v1-0123456789abcdef0123456789abcdef0123456789abcdef0123456789abcdef"

def descriptor : RemoteProjectDescriptor := ⟨key, "monit", .unavailable⟩

def upserted : RemoteDeltaJournalRecordV1 Unit Unit :=
  ⟨.usageBucket 0 (.upsert ⟨0, [⟨some key, ()⟩], ()⟩), [descriptor]⟩

def quoted (text : String) : List Char := '"' :: text.toList ++ ['"']

def object (fields : List (String × List Char)) : List Char :=
  ['\x7b'] ++ [','].intercalate (fields.map fun field => quoted field.1 ++ ':' :: field.2) ++
    ['\x7d']

def digits (digit : Char) (names : List String) : List (String × List Char) :=
  names.map fun name => (name, [digit])

def epoch : List Char := quoted "1970-01-01T00:00:00Z"

def payload (version : String) (mutation : List Char) (descriptors : List (String × List Char)) :
    List UInt8 :=
  (object [("journalVersion", quoted version), ("journalEntry", object (("record", object [
    ("recordKind", quoted "usageBucket"),
    ("record", object [("starts_at", epoch), ("mutation", mutation)])]) :: descriptors))]
  ).map fun c => UInt8.ofNat c.toNat

def bytes (version : String) : List UInt8 :=
  payload version (object [("changeKind", quoted "tombstone")]) []

/-- The metrics of a bucket and of its groups, with what comes between the units and the price. -/
def metrics (between : List (String × List Char)) : List (String × List Char) :=
  [("tokenUsage", object (digits '0' ["inputTokens", "cachedInputTokens", "cacheWriteInputTokens",
      "outputTokens", "reasoningOutputTokens", "unclassifiedTokens", "totalTokens"])),
    ("estimatedCostUnits", quoted "0")] ++ between ++
  [("apiEquivalentCost", object ([("minimumPicoUsd", quoted "0"), ("maximumPicoUsd", quoted "0")] ++
      digits '0' ["observedSamples", "pricedSamples", "observedTokens", "pricedTokens"])),
    ("callCount", ['0'])]

def upsertBytes : List UInt8 :=
  let group := object ([("observedProjectKey", quoted key), ("emittingThreadId", quoted "thread")] ++
    metrics [])
  let bucket := object ([("startsAt", epoch), ("endsAt", quoted "1970-01-01T00:15:00Z"),
      ("sampledAt", epoch)] ++ metrics [("longContextUsageUnknown", "false".toList)] ++
    digits '1' ["metricRevision", "estimatorRevision", "projectBreakdownRevision",
      "apiPricingCatalogRevision"] ++ [("projectGroups", '[' :: group ++ [']'])])
  payload "v1" (object [("changeKind", quoted "upsert"), ("value", bucket)])
    [("projectDescriptors", '[' :: object [("observedProjectKey", quoted key),
      ("displayLabel", quoted "monit"),
      ("gitEvidence", object [("status", quoted "unavailable")])] ++ [']'])]

/-- Some serializations; other values are numbered. -/
def written : List (VersionedRemoteDeltaJournalRecord Unit Unit × List UInt8) :=
  [(.v1 entry, bytes "v1"), (.v2 entry, bytes "v2"), (.v1 upserted, upsertBytes)]

def serialize (value : VersionedRemoteDeltaJournalRecord Unit Unit) : List UInt8 :=
  match written.find? fun w => w.1 = value with
  | some w => w.2
  | none => List.replicate (Encodable.encode value) 0

def parse (payload : List UInt8) : Except String (VersionedRemoteDeltaJournalRecord Unit Unit) :=
  match written.find? fun w => w.2 = payload with
  | some w => .ok w.1
  | none => okOr (Encodable.decode payload.length) "expected value at line 1 column 1"

/-- The digests of these serializations. -/
def digest (payload : List UInt8) : List UInt8 :=
  if payload = bytes "v1" then
    [168, 104, 67, 155, 183, 194, 141, 233, 50, 32, 154, 37, 191, 4, 245, 88, 132, 56, 139, 42, 143,
      80, 249, 182, 160, 222, 4, 29, 132, 9, 13, 117]
  else if payload = bytes "v2" then
    [254, 98, 184, 206, 71, 13, 134, 221, 14, 213, 22, 188, 102, 69, 251, 216, 235, 243, 56, 54, 46,
      67, 127, 218, 202, 47, 225, 112, 199, 9, 11, 180]
  else
    [218, 141, 245, 132, 132, 123, 30, 130, 231, 50, 11, 106, 161, 99, 219, 5, 183, 247, 152, 194,
      99, 80, 191, 92, 6, 116, 83, 239, 94, 145, 19, 145]

def env : JournalEnv Unit Unit where
  serialize := serialize
  parse := parse
  sha256 := fun payload i => (digest payload).getD i 0
  complementary := fun _ _ => true

theorem env_canonical : env.Canonical := by
  intro value
  have hfind : ∀ w ∈ written, written.find? (fun x => x.2 = w.2) = some w := by decide +kernel
  have hhead : ∀ w ∈ written, 123 ∈ w.2 := by decide +kernel
  change parse (serialize value) = .ok value
  unfold serialize
  cases hvalue : written.find? fun w => w.1 = value with
  | some w =>
    dsimp only
    rw [parse, hfind w (List.mem_of_find?_eq_some hvalue)]
    exact congrArg Except.ok (by simpa using List.find?_some hvalue)
  | none =>
    have hnone : written.find? (fun x => x.2 = List.replicate (Encodable.encode value) 0) = none := by
      refine List.find?_eq_none.2 fun w hw heq => ?_
      have hmem := hhead w hw
      rw [of_decide_eq_true heq] at hmem
      exact absurd (List.eq_of_mem_replicate hmem) (by decide)
    dsimp only
    rw [parse, hnone, List.length_replicate, Encodable.encodek]
    rfl

def change : RemoteExportChange := changeOf env (.v2 entry)

end Sample

/-- The upsert round trips, with its descriptors given twice. -/
theorem journal_codec_sample :
    (∃ canonical, IsCanonical [Sample.descriptor, Sample.descriptor] canonical ∧
      decodeRemoteDeltaJournalChange Sample.env (changeOf Sample.env (.v1 Sample.upserted)) =
        .ok ⟨Sample.upserted.record, canonical⟩) ∧
    ¬ MisversionedPayload Sample.env (changeOf Sample.env (.v1 Sample.upserted)).payload := by
  have hencode : encodeRemoteDeltaJournalRecord Sample.env Sample.upserted.record
      [Sample.descriptor, Sample.descriptor] =
        .ok (changeOf Sample.env (.v1 Sample.upserted)) := by
    decide +kernel
  have hencode' : encodeRemoteDeltaJournalRecord Sample.env Sample.upserted.record
      Sample.upserted.projectDescriptors = .ok (changeOf Sample.env (.v1 Sample.upserted)) := by
    decide +kernel
  have hdecode : decodeRemoteDeltaJournalChange Sample.env
      (changeOf Sample.env (.v1 Sample.upserted)) = .ok Sample.upserted := by
    decide +kernel
  obtain ⟨-, hforth, hback⟩ := journal_codec_roundtrip Sample.env_canonical
  exact ⟨hforth _ _ _ hencode, (hback _ _ hdecode).1 hencode'⟩

/-- The decoder accepts the tombstone under the version of quota records; it is encoded again as
another change, with another identifier. -/
theorem misversioned_change_reencoded :
    decodeRemoteDeltaJournalChange Sample.env Sample.change = .ok Sample.entry ∧
      ∃ again, encodeRemoteDeltaJournalRecord Sample.env Sample.entry.record
          Sample.entry.projectDescriptors = .ok again ∧
        again ≠ Sample.change ∧ again.changeId ≠ Sample.change.changeId := by
  refine ⟨by decide +kernel, changeOf Sample.env (.v1 Sample.entry), by decide +kernel, ?_, ?_⟩
  · decide +kernel
  · decide +kernel

end Journal
