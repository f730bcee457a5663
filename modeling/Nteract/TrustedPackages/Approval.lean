import Nteract.Lib.Transition
import Nteract.TrustedPackages.Specs

namespace Nteract.TrustedPackages

open Lib Lib.Transition
open List hiding after

section Fields

inductive SpecField
  | Uv
  | Conda
  | Pixi
  | PixiPypi
deriving DecidableEq

inductive ChannelField
  | Conda
  | Pixi
deriving DecidableEq

def SpecField.source : SpecField → SpecSource
  | .Uv => .Pypi
  | .Conda => .Conda .CondaChannel
  | .Pixi => .Conda .PixiChannel
  | .PixiPypi => .Pypi

variable (info : TrustInfo)

def SpecField.listed : SpecField → List Text
  | .Uv => info.uvDependencies
  | .Conda => info.condaDependencies
  | .Pixi => info.pixiDependencies
  | .PixiPypi => info.pixiPypiDependencies

def SpecField.approved : SpecField → List Text
  | .Uv => info.approvedUvDependencies
  | .Conda => info.approvedCondaDependencies
  | .Pixi => info.approvedPixiDependencies
  | .PixiPypi => info.approvedPixiPypiDependencies

def ChannelField.ecosystem : ChannelField → Ecosystem
  | .Conda => .CondaChannel
  | .Pixi => .PixiChannel

def ChannelField.listed : ChannelField → List Text
  | .Conda => info.condaChannels
  | .Pixi => info.pixiChannels

def ChannelField.approved : ChannelField → List Text
  | .Conda => info.approvedCondaChannels
  | .Pixi => info.approvedPixiChannels

def TrustInfo.ListsDependency : Prop :=
  ∃ field spec, spec ∈ SpecField.listed info field

-- The status of a fresh info says whether there is anything to install.
def TrustInfo.Labelled : Prop :=
  info.status = .NoDependencies ↔ ¬ info.ListsDependency

def TrustInfo.Worded : Prop :=
  (∀ field, ∀ spec ∈ SpecField.listed info field, Text.trim spec ≠ []) ∧
    ∀ field, ∀ channel ∈ ChannelField.listed info field, Text.trim channel ≠ []

theorem listsDependency_iff :
    info.ListsDependency ↔ info.uvDependencies ≠ [] ∨ info.condaDependencies ≠ [] ∨
      info.pixiDependencies ≠ [] ∨ info.pixiPypiDependencies ≠ [] := by
  constructor
  · rintro ⟨field, _, hs⟩
    have hne := ne_nil_of_mem hs
    cases field with
    | Uv => exact Or.inl hne
    | Conda => exact Or.inr (Or.inl hne)
    | Pixi => exact Or.inr (Or.inr (Or.inl hne))
    | PixiPypi => exact Or.inr (Or.inr (Or.inr hne))
  · rintro (hne | hne | hne | hne)
    · exact ⟨.Uv, exists_mem_of_ne_nil _ hne⟩
    · exact ⟨.Conda, exists_mem_of_ne_nil _ hne⟩
    · exact ⟨.Pixi, exists_mem_of_ne_nil _ hne⟩
    · exact ⟨.PixiPypi, exists_mem_of_ne_nil _ hne⟩

theorem extractTrustInfo_labelled (uv conda condaChannels pixi pixiPypi pixiChannels : List Text) :
    (extractTrustInfo uv conda condaChannels pixi pixiPypi pixiChannels).Labelled := by
  unfold TrustInfo.Labelled
  rw [listsDependency_iff]
  simp [extractTrustInfo]

theorem includePep723Dependencies_labelled (dependencies : List Text) (hl : info.Labelled) :
    (includePep723Dependencies info dependencies).Labelled := by
  unfold TrustInfo.Labelled at hl ⊢
  rw [listsDependency_iff] at hl ⊢
  have hkept : ∀ listed : List Text, listed ≠ [] → dependencies.foldl
      (fun listed dependency => if dependency ∈ listed then listed else listed ++ [dependency])
      listed ≠ [] := by
    induction dependencies with
    | nil => exact fun _ hne => hne
    | cons dependency _ ih =>
      intro listed hne
      refine ih _ ?_
      by_cases hm : dependency ∈ listed <;> simp [hm, hne]
  have hu := hkept info.uvDependencies
  simp only [includePep723Dependencies]
  split <;> grind

end Fields

section Identities

variable (parse : MatchSpecParser)

theorem classifyCondaSpec_eq_none (raw : Text) :
    classifyCondaSpec parse raw = none ↔ Text.trim raw = [] := by
  unfold classifyCondaSpec
  dsimp only
  repeat' split
  all_goals simp_all

theorem classifySpec_eq_none (source : SpecSource) (raw : Text) :
    classifySpec parse source raw = none ↔ Text.trim raw = [] := by
  cases source with
  | Pypi => exact classifyPypiSpec_eq_none raw
  | Conda => exact classifyCondaSpec_eq_none parse raw

theorem identitiesForSpec_eq_nil (source : SpecSource) (raw : Text) :
    identitiesForSpec parse source raw = [] ↔ Text.trim raw = [] := by
  rw [← classifySpec_eq_none parse source raw]
  unfold identitiesForSpec
  split <;> simp_all

theorem normalizeChannelSource_eq_some (hn : normalizeChannelSource channel = some name) :
    name = Text.trim channel ∧ Text.trim channel ≠ [] := by
  unfold normalizeChannelSource at hn
  dsimp only at hn
  split at hn
  · cases hn
  · exact ⟨(Option.some.inj hn).symm, ‹_›⟩

theorem mem_identitiesFromTrustInfo (info : TrustInfo) (identity : PackageIdentity) :
    identity ∈ identitiesFromTrustInfo parse info ↔ (∃ field, ∃ spec ∈ SpecField.listed info field,
        identity ∈ identitiesForSpec parse field.source spec) ∨
      ∃ field, ∃ channel ∈ ChannelField.listed info field, ∃ name,
        normalizeChannelSource channel = some name ∧
          ⟨ChannelField.ecosystem field, channel, name⟩ = identity := by
  unfold identitiesFromTrustInfo
  simp only [mem_append, identitiesForChannels, mem_filterMap, Option.map_eq_some_iff,
    identitiesForSpecs, mem_flatMap]
  constructor
  · rintro (((((h | h) | h) | h) | h) | h)
    · exact Or.inl ⟨.Uv, h⟩
    · exact Or.inl ⟨.Conda, h⟩
    · exact Or.inr ⟨.Conda, h⟩
    · exact Or.inl ⟨.Pixi, h⟩
    · exact Or.inl ⟨.PixiPypi, h⟩
    · exact Or.inr ⟨.Pixi, h⟩
  · rintro (⟨field, h⟩ | ⟨field, h⟩)
    · cases field with
      | Uv => exact Or.inl (Or.inl (Or.inl (Or.inl (Or.inl h))))
      | Conda => exact Or.inl (Or.inl (Or.inl (Or.inl (Or.inr h))))
      | Pixi => exact Or.inl (Or.inl (Or.inr h))
      | PixiPypi => exact Or.inl (Or.inr h)
    · cases field with
      | Conda => exact Or.inl (Or.inl (Or.inl (Or.inr h)))
      | Pixi => exact Or.inr h

end Identities

section Queries

variable (parse : MatchSpecParser) (store : Store)

def SpecApproved (source : SpecSource) (spec : Text) : Prop :=
  ∀ identity ∈ identitiesForSpec parse source spec,
    store.has identity.ecosystem identity.normalizedName = true

theorem mem_approved_spec (info : TrustInfo) (field : SpecField) (spec : Text) :
    spec ∈ SpecField.approved (enrichInfo parse store info) field ↔
      spec ∈ SpecField.listed info field ∧ Text.trim spec ≠ [] ∧
        SpecApproved parse store field.source spec := by
  have hc : ∀ source specs, spec ∈ approvedRawSpecs parse store source specs ↔
      spec ∈ specs ∧ Text.trim spec ≠ [] ∧ SpecApproved parse store source spec := by
    intro source specs
    simp [approvedRawSpecs, SpecApproved, identitiesForSpec_eq_nil parse source spec]
  cases field <;> exact hc _ _

theorem mem_approved_channel (info : TrustInfo) (field : ChannelField) (channel : Text) :
    channel ∈ ChannelField.approved (enrichInfo parse store info) field ↔
      channel ∈ ChannelField.listed info field ∧ Text.trim channel ≠ [] ∧
        store.has field.ecosystem (Text.trim channel) = true := by
  have hc : ∀ ecosystem channels, channel ∈ approvedRawChannels store ecosystem channels ↔
      channel ∈ channels ∧ Text.trim channel ≠ [] ∧
        store.has ecosystem (Text.trim channel) = true := by
    intro ecosystem channels
    simp only [approvedRawChannels, normalizeChannelSource]
    by_cases hb : Text.trim channel = [] <;> simp [hb]
  cases field <;> exact hc _ _

def AllReported (info : TrustInfo) : Prop :=
  (∀ field, ∀ spec ∈ SpecField.listed info field,
    spec ∈ SpecField.approved (enrichInfo parse store info) field) ∧
  ∀ field, ∀ channel ∈ ChannelField.listed info field,
    channel ∈ ChannelField.approved (enrichInfo parse store info) field

theorem allDependenciesApproved_iff (info : TrustInfo) :
    allDependenciesApproved parse store info = true ↔ identitiesFromTrustInfo parse info ≠ [] ∧
        (∀ field, ∀ spec ∈ SpecField.listed info field,
          SpecApproved parse store field.source spec) ∧
        ∀ field, ∀ channel ∈ ChannelField.listed info field, Text.trim channel ≠ [] →
          store.has field.ecosystem (Text.trim channel) = true := by
  simp only [allDependenciesApproved, Bool.and_eq_true, Bool.not_eq_true',
    isEmpty_eq_false_iff, all_eq_true]
  refine and_congr_right fun _ => ?_
  constructor
  · intro ha
    constructor
    · intro field spec hs identity hi
      exact ha identity
        ((mem_identitiesFromTrustInfo parse info identity).mpr (Or.inl ⟨field, spec, hs, hi⟩))
    · intro field channel hc hw
      have hn : normalizeChannelSource channel = some (Text.trim channel) := by
        simp [normalizeChannelSource, hw]
      exact ha ⟨field.ecosystem, channel, Text.trim channel⟩
        ((mem_identitiesFromTrustInfo parse info _).mpr (Or.inr ⟨field, channel, hc, _, hn, rfl⟩))
  · rintro ⟨hspecs, hchannels⟩ identity hi
    rcases (mem_identitiesFromTrustInfo parse info identity).mp hi with
      ⟨field, spec, hs, hin⟩ | ⟨field, channel, hc, name, hn, rfl⟩
    · exact hspecs field spec hs identity hin
    · obtain ⟨rfl, hw⟩ := normalizeChannelSource_eq_some hn
      exact hchannels field channel hc hw

theorem identities_ne_nil (hw : info.Worded) (hl : info.ListsDependency) :
    identitiesFromTrustInfo parse info ≠ [] := by
  obtain ⟨field, spec, hs⟩ := hl
  have hsome := mt (identitiesForSpec_eq_nil parse field.source spec).mp (hw.1 field spec hs)
  obtain ⟨identity, hi⟩ := exists_mem_of_ne_nil _ hsome
  exact ne_nil_of_mem
    ((mem_identitiesFromTrustInfo parse info identity).mpr (Or.inl ⟨field, spec, hs, hi⟩))

-- The two queries agree on infos without blank entries.
theorem allDependenciesApproved_iff_reported (hw : info.Worded) (hl : info.ListsDependency) :
    allDependenciesApproved parse store info = true ↔ AllReported parse store info := by
  rw [allDependenciesApproved_iff, and_iff_right (identities_ne_nil parse hw hl)]
  unfold AllReported
  simp only [mem_approved_spec, mem_approved_channel]
  constructor
  · rintro ⟨hspecs, hchannels⟩
    refine ⟨fun field spec hs => ?_, fun field channel hc => ?_⟩
    · exact ⟨hs, hw.1 field spec hs, hspecs field spec hs⟩
    · have hsome := hw.2 field channel hc
      exact ⟨hc, hsome, hchannels field channel hc hsome⟩
  · rintro ⟨hspecs, hchannels⟩
    refine ⟨fun field spec hs => ?_, fun field channel hc _ => ?_⟩
    · exact (hspecs field spec hs).2.2
    · exact (hchannels field channel hc).2.2

theorem finalizeTrustStatus_eq_trusted (hw : info.Worded) (hlabelled : info.Labelled) :
    finalizeTrustStatus parse store info = .Trusted ↔
      info.ListsDependency ∧ AllReported parse store info := by
  unfold finalizeTrustStatus
  by_cases hl : info.ListsDependency
  · have hs : info.status ≠ .NoDependencies := fun hn => hlabelled.mp hn hl
    rw [if_neg hs, ← allDependenciesApproved_iff_reported parse store hw hl]
    simp [hl]
  · rw [if_pos (hlabelled.mpr hl)]
    simp [hl]

end Queries

section Calls

variable (parse : MatchSpecParser)

inductive Call
  | AddFromInfo (info : TrustInfo) (source : String)
  | SeedDefaults (ecosystem : Ecosystem) (specs : List Text)
  | SeedDefaultChannels (channels : List Text)

-- A call at a time; a transaction that does not commit leaves no row behind.
structure Event where
  now : Nat
  commits : Bool
  call : Call

def Store.perform (store : Store) (event : Event) : Store :=
  if event.commits then
    match event.call with
    | .AddFromInfo info source =>
      match addFromInfo parse event.now store info source with
      | .ok store => store
      | .error _ => store
    | .SeedDefaults ecosystem specs => seedDefaults parse event.now store ecosystem specs
    | .SeedDefaultChannels channels => seedDefaultChannels event.now store channels
  else
    store

abbrev Performs (before : Store) (event : Event) (after : Store) : Prop :=
  before.perform parse event = after

-- The call contains an entry with this identity: a dependency, a channel, or a seed.
inductive Contains : Call → Ecosystem → Text → Prop
  | Package {field : SpecField} (hlisted : spec ∈ field.listed info)
      (hclass : classifySpec parse field.source spec = some (.Registry name)) :
      Contains (.AddFromInfo info source) field.source.packageEcosystem name
  | QualifiedPackage {field : SpecField} (hlisted : spec ∈ field.listed info)
      (hclass : classifySpec parse field.source spec = some (.ChannelRegistry channel name)) :
      Contains (.AddFromInfo info source) field.source.packageEcosystem name
  | QualifiedChannel {field : SpecField} (hlisted : spec ∈ field.listed info)
      (hconda : field.source = .Conda channelEcosystem)
      (hclass : classifySpec parse field.source spec = some (.ChannelRegistry channel name)) :
      Contains (.AddFromInfo info source) channelEcosystem channel
  | Exact {field : SpecField} (hlisted : spec ∈ field.listed info)
      (hclass : classifySpec parse field.source spec = some (.Exact text)) :
      Contains (.AddFromInfo info source) field.source.exactEcosystem text
  | Channel {field : ChannelField}
      (hlisted : channel ∈ field.listed info) (hworded : Text.trim channel ≠ []) :
      Contains (.AddFromInfo info source) field.ecosystem (Text.trim channel)
  | Seed (hlisted : spec ∈ specs)
      (hclass : classifySpec parse (.forPackageEcosystem ecosystem) spec = some (.Registry name)) :
      Contains (.SeedDefaults ecosystem specs) ecosystem name
  | SeedChannel {field : ChannelField}
      (hlisted : channel ∈ channels) (hworded : Text.trim channel ≠ []) :
      Contains (.SeedDefaultChannels channels) field.ecosystem (Text.trim channel)

theorem isSome_upsertAll (row : Row) (rows : Table (Ecosystem × Text) Row)
    (identities : List PackageIdentity) (key : Ecosystem × Text) :
    ((upsertAll row rows identities).find key).isSome = true ↔ (rows.find key).isSome = true ∨
        ∃ identity ∈ identities, (identity.ecosystem, identity.normalizedName) = key := by
  unfold upsertAll
  induction identities generalizing rows with
  | nil => simp
  | cons identity _ ih =>
    rw [foldl_cons, ih, Table.find_set]
    by_cases hk : key = (identity.ecosystem, identity.normalizedName)
    · simp [hk]
    · simp [hk, Ne.symm hk]

theorem isSome_insertAll (row : Row) (rows : Table (Ecosystem × Text) Row)
    (keys : List (Ecosystem × Text)) (key : Ecosystem × Text) :
    ((insertAll row rows keys).find key).isSome = true ↔
      (rows.find key).isSome = true ∨ key ∈ keys := by
  unfold insertAll
  induction keys generalizing rows with
  | nil => simp
  | cons first _ ih =>
    rw [foldl_cons, ih, Table.find_add]
    by_cases hk : key = first <;> simp [hk]

theorem contains_of_mem_identitiesForSpec (source : String) {field : SpecField}
    (hl : spec ∈ field.listed info)
    (hi : identity ∈ identitiesForSpec parse field.source spec) :
    Contains parse (.AddFromInfo info source) identity.ecosystem identity.normalizedName := by
  unfold identitiesForSpec at hi
  split at hi
  · cases hi
  · rename_i hc
    obtain rfl := mem_singleton.mp hi
    exact .Package hl hc
  · rename_i hc
    obtain rfl := mem_singleton.mp hi
    exact .Exact hl hc
  · rename_i hc hs
    rcases mem_pair.mp hi with rfl | rfl
    · exact .QualifiedPackage hl hc
    · exact .QualifiedChannel hl hs hc
  · rename_i hc hs
    rw [hs] at hc
    rcases classifyPypiSpec_cases hc with he | ⟨_, hr⟩
    · cases he
    · cases hr

theorem contains_of_mem_identitiesFromTrustInfo (source : String) {identity : PackageIdentity}
    (hi : identity ∈ identitiesFromTrustInfo parse info) :
    Contains parse (.AddFromInfo info source) identity.ecosystem identity.normalizedName := by
  rcases (mem_identitiesFromTrustInfo parse info identity).mp hi with
    ⟨field, spec, hs, hin⟩ | ⟨field, channel, hc, name, hn, rfl⟩
  · exact contains_of_mem_identitiesForSpec parse source hs hin
  · obtain ⟨rfl, hw⟩ := normalizeChannelSource_eq_some hn
    exact .Channel hc hw

theorem contains_of_mem_seedNames (hk : key ∈ seedNames parse ecosystem specs) :
    Contains parse (.SeedDefaults ecosystem specs) key.1 key.2 := by
  obtain ⟨_, hspec, hs⟩ := mem_filterMap.mp hk
  split at hs
  · rename_i name hc
    cases hs
    exact .Seed hspec hc
  · cases hs

theorem contains_of_mem_seedChannels (hk : key ∈ seedChannels channels) :
    Contains parse (.SeedDefaultChannels channels) key.1 key.2 := by
  obtain ⟨_, he, hk⟩ := mem_flatMap.mp hk
  obtain ⟨_, hn, rfl⟩ := mem_map.mp hk
  obtain ⟨_, hc, hn⟩ := mem_filterMap.mp hn
  obtain ⟨rfl, hw⟩ := normalizeChannelSource_eq_some hn
  rcases mem_pair.mp he with rfl | rfl
  · exact @Contains.SeedChannel parse _ _ .Conda hc hw
  · exact @Contains.SeedChannel parse _ _ .Pixi hc hw

theorem addFromInfo_cases (ha : addFromInfo parse now before info source = .ok after) :
    identitiesFromTrustInfo parse info = [] ∧ after = before ∨ ∃ rows, before = .Sqlite rows ∧
        after = .Sqlite (upsertAll ⟨now, source⟩ rows (identitiesFromTrustInfo parse info)) := by
  unfold addFromInfo at ha
  dsimp only at ha
  split at ha
  · rename_i he
    cases ha
    exact Or.inl ⟨he, rfl⟩
  · cases before with
    | Sqlite rows =>
      cases ha
      exact Or.inr ⟨rows, rfl, rfl⟩
    | Unavailable => cases ha

theorem has_addFromInfo (ha : addFromInfo parse now before info source = .ok after)
    (ecosystem : Ecosystem) (name : Text) :
    after.has ecosystem name = true ↔ before.has ecosystem name = true ∨
      ∃ identity ∈ identitiesFromTrustInfo parse info,
        (identity.ecosystem, identity.normalizedName) = (ecosystem, name) := by
  rcases addFromInfo_cases parse ha with ⟨he, rfl⟩ | ⟨_, rfl, rfl⟩
  · simp [he]
  · exact isSome_upsertAll ..

theorem has_perform {store : Store} (hh : (store.perform parse event).has ecosystem name = true) :
    store.has ecosystem name = true ∨ Contains parse event.call ecosystem name := by
  obtain ⟨now, commits, call⟩ := event
  cases commits with
  | false => exact Or.inl hh
  | true =>
    cases call with
    | AddFromInfo info source =>
      cases ha : addFromInfo parse now store info source with
      | error =>
        simp only [Store.perform, ha] at hh
        exact Or.inl hh
      | ok =>
        simp only [Store.perform, ha] at hh
        rcases (has_addFromInfo parse ha ecosystem name).mp hh with
          ho | ⟨identity, hi, hk⟩
        · exact Or.inl ho
        · cases hk
          exact Or.inr (contains_of_mem_identitiesFromTrustInfo parse source hi)
    | SeedDefaults =>
      cases store with
      | Unavailable => exact Or.inl hh
      | Sqlite =>
        rcases (isSome_insertAll ..).mp hh with ho | hk
        · exact Or.inl ho
        · exact Or.inr (contains_of_mem_seedNames parse hk)
    | SeedDefaultChannels =>
      cases store with
      | Unavailable => exact Or.inl hh
      | Sqlite =>
        rcases (isSome_insertAll ..).mp hh with ho | hk
        · exact Or.inl ho
        · exact Or.inr (contains_of_mem_seedChannels parse hk)

def Earlier (events : List Event) (ecosystem : Ecosystem) (name : Text) : Prop :=
  ∃ event ∈ events, Contains parse event.call ecosystem name

theorem has_run {start store : Store} (hstart : ∀ ecosystem name, start.has ecosystem name = false)
    (hrun : Run (Performs parse) start events store) (hhas : store.has ecosystem name = true) :
    Earlier parse events ecosystem name := by
  refine hrun.history (fun past store => ∀ ecosystem name, store.has ecosystem name = true →
    Earlier parse past ecosystem name) ?_ ?_ ecosystem name hhas
  · rintro _ _ event _ - hinv rfl ecosystem name hhas
    rcases has_perform parse hhas with hold | hnew
    · obtain ⟨earlier, hearlier, hcontains⟩ := hinv ecosystem name hold
      exact ⟨earlier, mem_append_left _ hearlier, hcontains⟩
    · exact ⟨event, by simp, hnew⟩
  · intro ecosystem name hhas
    rw [hstart] at hhas
    cases hhas

def SpecGrounded (events : List Event) (source : SpecSource) (spec : Text) : Prop :=
  match classifySpec parse source spec with
  | some (.Registry name) => Earlier parse events source.packageEcosystem name
  | some (.ChannelRegistry channel name) =>
    Earlier parse events source.packageEcosystem name ∧
      ∃ channelEcosystem, source = .Conda channelEcosystem ∧
        Earlier parse events channelEcosystem channel
  | some (.Exact text) => text = Text.trim spec ∧ Earlier parse events source.exactEcosystem text
  | none => False

theorem specGrounded_of_approved {start store : Store}
    (hs : ∀ ecosystem name, start.has ecosystem name = false)
    (hrun : Run (Performs parse) start events store) (hw : Text.trim spec ≠ [])
    (ha : SpecApproved parse store source spec) :
    SpecGrounded parse events source spec := by
  have he : ∀ identity ∈ identitiesForSpec parse source spec,
      Earlier parse events identity.ecosystem identity.normalizedName :=
    fun identity hin => has_run parse hs hrun (ha identity hin)
  unfold SpecGrounded
  unfold identitiesForSpec at he
  split
  · rename_i name hc
    rw [hc] at he
    exact he _ (mem_singleton_self _)
  · rename_i channel name hc
    cases source with
    | Pypi =>
      rcases classifyPypiSpec_cases hc with hexact | ⟨_, hr⟩
      · cases hexact
      · cases hr
    | Conda channelEcosystem =>
      rw [hc] at he
      refine ⟨he ⟨.Conda, spec, name⟩ (by simp [SpecSource.packageEcosystem]),
        channelEcosystem, rfl, ?_⟩
      exact he ⟨channelEcosystem, spec, channel⟩ (by simp)
  · rename_i text hc
    rw [hc] at he
    refine ⟨?_, he _ (mem_singleton_self _)⟩
    cases source with
    | Pypi =>
      rcases classifyPypiSpec_cases hc with hexact | ⟨_, hr⟩
      · exact SpecIdentity.Exact.inj hexact
      · cases hr
    | Conda =>
      cases classifyCondaSpec_reading hc
      rfl
  · rename_i hc
    exact hw ((classifySpec_eq_none parse source spec).mp hc)

theorem finalizeTrustStatus_addFromInfo (hw : info.Worded) (hl : info.Labelled)
    (hlists : info.ListsDependency) (hadd : addFromInfo parse now before info source = .ok after) :
    finalizeTrustStatus parse after info = .Trusted := by
  have hs : info.status ≠ .NoDependencies := fun hn => hl.mp hn hlists
  have ha : allDependenciesApproved parse after info = true := by
    simp only [allDependenciesApproved, Bool.and_eq_true, Bool.not_eq_true',
      isEmpty_eq_false_iff, all_eq_true]
    refine ⟨identities_ne_nil parse hw hlists, fun identity hi => ?_⟩
    exact (has_addFromInfo parse hadd _ _).mpr (Or.inr ⟨identity, hi, rfl⟩)
  simp [finalizeTrustStatus, hs, ha]

end Calls

-- A verdict is the report's, an approval takes effect, reports rest on calls.
theorem trust_decided_by_approvals (parse : MatchSpecParser) {start store : Store}
    {events : List Event} (hstart : ∀ ecosystem name, start.has ecosystem name = false)
    (hrun : Run (Performs parse) start events store) (info : TrustInfo) :
    (info.Worded → info.Labelled →
      (finalizeTrustStatus parse store info = .Trusted ↔
        info.ListsDependency ∧ AllReported parse store info)) ∧
    (info.Worded → info.Labelled → info.ListsDependency → ∀ now source after,
      addFromInfo parse now store info source = .ok after →
        finalizeTrustStatus parse after info = .Trusted) ∧
    (∀ field spec, spec ∈ SpecField.approved (enrichInfo parse store info) field →
      SpecGrounded parse events field.source spec) ∧
    (∀ field channel, channel ∈ ChannelField.approved (enrichInfo parse store info) field →
      Earlier parse events field.ecosystem (Text.trim channel)) := by
  refine ⟨finalizeTrustStatus_eq_trusted parse store, ?_, ?_, ?_⟩
  · intro hw hl hlists now source after hadd
    exact finalizeTrustStatus_addFromInfo parse hw hl hlists hadd
  · intro field spec hspec
    obtain ⟨-, hw, ha⟩ := (mem_approved_spec parse store info field spec).mp hspec
    exact specGrounded_of_approved parse hstart hrun hw ha
  · intro field channel hc
    obtain ⟨-, -, hh⟩ := (mem_approved_channel parse store info field channel).mp hc
    exact has_run parse hstart hrun hh

def plainParser : MatchSpecParser := fun text => some ⟨none, none, some text⟩

def uvInfo (specs : List Text) : TrustInfo := extractTrustInfo specs [] [] [] [] []

def freshStore : Store := .Sqlite .empty

def approval (info : TrustInfo) : Event := ⟨1, true, .AddFromInfo info "user"⟩

theorem numpy_approved :
    finalizeTrustStatus plainParser freshStore (uvInfo ["numpy>=2".toList]) = .Untrusted ∧
      AllReported plainParser
        (freshStore.perform plainParser (approval (uvInfo ["numpy".toList])))
        (uvInfo ["numpy>=2".toList]) := by
  have hw : (uvInfo ["numpy>=2".toList]).Worded := by
    constructor <;> intro field <;> cases field <;> decide +kernel
  have hl : (uvInfo ["numpy>=2".toList]).Labelled := extractTrustInfo_labelled ..
  have hr : Run (Performs plainParser) freshStore [approval (uvInfo ["numpy".toList])]
      (freshStore.perform plainParser (approval (uvInfo ["numpy".toList]))) := .single rfl
  have ht := (trust_decided_by_approvals plainParser (fun _ _ => rfl) hr
    (uvInfo ["numpy>=2".toList])).1 hw hl
  exact ⟨by decide +kernel, (ht.mp (by decide +kernel)).2⟩

-- Approving a blank entry changes nothing; beside an approved one it is trusted.
theorem blank_entries_disagree :
    (finalizeTrustStatus plainParser
        (freshStore.perform plainParser (approval (uvInfo [" ".toList]))) (uvInfo [" ".toList]) =
      .Untrusted) ∧
    (finalizeTrustStatus plainParser
        (freshStore.perform plainParser (approval (uvInfo ["numpy".toList, " ".toList])))
        (uvInfo ["numpy".toList, " ".toList]) = .Trusted ∧
      " ".toList ∉ (enrichInfo plainParser
        (freshStore.perform plainParser (approval (uvInfo ["numpy".toList, " ".toList])))
        (uvInfo ["numpy".toList, " ".toList])).approvedUvDependencies) := by
  decide +kernel

end Nteract.TrustedPackages
