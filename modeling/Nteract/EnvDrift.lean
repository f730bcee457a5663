import Nteract.Guarded

namespace Nteract.EnvDrift

open Option

open Nteract.Guarded (RuntMetadata DenoMetadata)

variable {ν : Type}

-- Packages from the notebook's metadata: inline, or captured by a launch.
inductive EnvSource
  | UvInline
  | CondaInline
  | PixiInline
  | UvPrewarmed
  | CondaPrewarmed
deriving DecidableEq

inductive CapturedEnv
  | Uv (dependencies : List String)
  | Conda (dependencies channels : List String)

structure DenoLaunchedConfig where
  permissions : List String
  importMap : Option String
  config : Option String
  flexibleNpmImports : Bool
deriving DecidableEq

structure LaunchedEnvConfig where
  uvDeps : Option (List String) := none
  condaDeps : Option (List String) := none
  condaChannels : Option (List String) := none
  pixiDeps : Option (List String) := none
  denoConfig : Option DenoLaunchedConfig := none

structure EnvSyncDiff where
  added : List String
  removed : List String
  channelsChanged : Bool
  denoChanged : Bool
deriving DecidableEq

section Metadata

variable (runt : RuntMetadata ν)

def uvDependencies : List String := (runt.uv.map (·.dependencies)).getD []

def condaDependencies : List String := (runt.conda.map (·.dependencies)).getD []

def condaChannels : List String := (runt.conda.map (·.channels)).getD []

def pixiDependencies : List String := (runt.pixi.map (·.dependencies)).getD []

def nonEmpty (deps : List String) : Option (List String) := if deps = [] then none else some deps

def getInlineCondaChannels : List String :=
  if condaChannels runt = [] then ["conda-forge"] else condaChannels runt

end Metadata

-- The normalised `extract_conda_package_name` of a specifier.
variable (bareName : String → Option String)

def hasDepNamed (deps : List String) (name : String) : Bool :=
  deps.any fun dep => bareName dep = some name

def REQUIRED_PACKAGES : List (String × String) :=
  [("nbformat", "nbformat"), ("pyarrow", "pyarrow>=14"), ("pip", "pip")]

def pushRequired (deps : List String) (required : String × String) : List String :=
  if hasDepNamed bareName deps required.1 then deps else deps ++ [required.2]

def inlineDepsWithCondaRequiredPackages (deps : List String) : List String :=
  REQUIRED_PACKAGES.foldl (pushRequired bareName) deps

def inlineDeps (runt : RuntMetadata ν) : EnvSource → Option (List String)
  | .UvInline => nonEmpty (uvDependencies runt)
  | .CondaInline => nonEmpty (condaDependencies runt)
  | .PixiInline =>
    nonEmpty (inlineDepsWithCondaRequiredPackages bareName (pixiDependencies runt))
  | _ => none

-- `captured_env_for_runtime`, with `onDisk` for the state of the environment it finds.
def capturedEnv (onDisk : CapturedEnv → Bool) (runt : RuntMetadata ν) (source : EnvSource) :
    Option CapturedEnv :=
  let found := match source with
    | .UvPrewarmed => runt.envId.map fun _ => CapturedEnv.Uv (uvDependencies runt)
    | .CondaPrewarmed => runt.envId.map fun _ =>
      CapturedEnv.Conda (condaDependencies runt) (getInlineCondaChannels runt)
    | _ => none
  found.filter onDisk

def denoLaunched (deno : DenoMetadata) : DenoLaunchedConfig :=
  ⟨deno.permissions, deno.importMap, deno.config, deno.flexibleNpmImports.getD true⟩

def buildLaunchedConfig (isDeno : Bool) (source : EnvSource) (inlineDeps : Option (List String))
    (runt : RuntMetadata ν) (captured : Option CapturedEnv) : LaunchedEnvConfig :=
  let config : LaunchedEnvConfig := match source with
    | .UvInline => { uvDeps := inlineDeps }
    | .CondaInline =>
      { condaDeps := inlineDeps, condaChannels := some (getInlineCondaChannels runt) }
    | .PixiInline => { pixiDeps := inlineDeps }
    | .UvPrewarmed =>
      match captured with
      | some (.Uv dependencies) => { uvDeps := some dependencies }
      | _ => {}
    | .CondaPrewarmed =>
      match captured with
      | some (.Conda dependencies channels) =>
        { condaDeps := some dependencies, condaChannels := some channels }
      | _ => {}
  if isDeno then { config with denoConfig := runt.deno.map denoLaunched } else config

section Diff

variable (launched : LaunchedEnvConfig) (current : RuntMetadata ν)

-- The launched and the current lists that are compared.
def tracked : List (List String × List String) :=
  (launched.uvDeps.map (·, uvDependencies current)).toList ++
    (launched.condaDeps.map (·, condaDependencies current)).toList ++
    (launched.pixiDeps.map (·, pixiDependencies current)).toList

def channelsChanged : Bool :=
  match launched.condaDeps, launched.condaChannels with
  | some _, some channels => channels ≠ condaChannels current
  | _, _ => false

def denoChanged : Bool :=
  match launched.denoConfig with
  | some config => current.deno.map denoLaunched ≠ some config
  | none => false

def computeEnvSyncDiff : Option EnvSyncDiff :=
  let diff : EnvSyncDiff :=
    { added := (tracked launched current).flatMap fun pair => pair.2.filter (· ∉ pair.1)
      removed := (tracked launched current).flatMap fun pair => pair.1.filter (· ∉ pair.2)
      channelsChanged := channelsChanged launched current
      denoChanged := denoChanged launched current }
  if diff.added.isEmpty && diff.removed.isEmpty && !diff.channelsChanged && !diff.denoChanged then
    none
  else
    some diff

end Diff

theorem computeEnvSyncDiff_none {launched : LaunchedEnvConfig} {current : RuntMetadata ν} :
    computeEnvSyncDiff launched current = none ↔
      (∀ pair ∈ tracked launched current, ∀ dep, dep ∈ pair.1 ↔ dep ∈ pair.2) ∧
        channelsChanged launched current = false ∧ denoChanged launched current = false := by
  simp only [computeEnvSyncDiff, ite_eq_left_iff, reduceCtorEq, imp_false, not_not,
    Bool.and_eq_true, Bool.not_eq_true', List.isEmpty_iff, List.flatMap_eq_nil_iff,
    List.filter_eq_nil_iff, decide_eq_true_eq]
  constructor
  · rintro ⟨⟨⟨ha, hr⟩, hc⟩, hd⟩
    exact ⟨fun pair hm dep => ⟨hr pair hm dep, ha pair hm dep⟩, hc, hd⟩
  · rintro ⟨hs, hc, hd⟩
    exact ⟨⟨⟨fun pair hm dep => (hs pair hm dep).mpr, fun pair hm dep => (hs pair hm dep).mp⟩,
      hc⟩, hd⟩

def launch (onDisk : CapturedEnv → Bool) (isDeno : Bool) (source : EnvSource)
    (runt : RuntMetadata ν) : LaunchedEnvConfig :=
  buildLaunchedConfig isDeno source (inlineDeps bareName runt source) runt
    (capturedEnv onDisk runt source)

def dependencies (runt : RuntMetadata ν) : EnvSource → List String
  | .UvInline | .UvPrewarmed => uvDependencies runt
  | .CondaInline | .CondaPrewarmed => condaDependencies runt
  | .PixiInline => pixiDependencies runt

def isConda : EnvSource → Bool
  | .CondaInline | .CondaPrewarmed => true
  | _ => false

-- Whether the launch takes a dependency list from the metadata.
def isTracked (onDisk : CapturedEnv → Bool) (runt : RuntMetadata ν) (source : EnvSource) : Bool :=
  match source with
  | .UvInline | .CondaInline => dependencies runt source ≠ []
  | .PixiInline => true
  | .UvPrewarmed | .CondaPrewarmed => (capturedEnv onDisk runt source).isSome

-- What the launch fills in is already in the metadata.
structure FilledIn (onDisk : CapturedEnv → Bool) (isDeno : Bool) (source : EnvSource)
    (runt : RuntMetadata ν) : Prop where
  channels : isConda source → isTracked onDisk runt source → condaChannels runt ≠ []
  packages : source = .PixiInline →
    ∀ required ∈ REQUIRED_PACKAGES, hasDepNamed bareName (pixiDependencies runt) required.1
  deno : isDeno → runt.deno.isSome

def launchedDependencies (runt : RuntMetadata ν) (source : EnvSource) : List String :=
  if source = .PixiInline then inlineDepsWithCondaRequiredPackages bareName (pixiDependencies runt)
  else dependencies runt source

theorem pushRequired_ne_nil (hd : deps ≠ []) : pushRequired bareName deps required ≠ [] := by
  unfold pushRequired
  split
  · exact hd
  · exact List.append_ne_nil_of_left_ne_nil hd _

theorem inlineDepsWithCondaRequiredPackages_ne_nil (deps : List String) :
    inlineDepsWithCondaRequiredPackages bareName deps ≠ [] := by
  unfold inlineDepsWithCondaRequiredPackages REQUIRED_PACKAGES
  simp only [List.foldl_cons, List.foldl_nil]
  refine pushRequired_ne_nil bareName (pushRequired_ne_nil bareName ?_)
  cases deps with
  | nil => simp [pushRequired, hasDepNamed]
  | cons => exact pushRequired_ne_nil bareName (List.cons_ne_nil _ _)

theorem mem_pushRequired_of_mem (hd : dep ∈ deps) : dep ∈ pushRequired bareName deps required := by
  unfold pushRequired
  split
  · exact hd
  · exact List.mem_append_left _ hd

theorem mem_foldl_pushRequired (packages : List (String × String)) (hd : dep ∈ deps) :
    dep ∈ packages.foldl (pushRequired bareName) deps := by
  induction packages generalizing deps with
  | nil => exact hd
  | cons required packages ih => exact ih (mem_pushRequired_of_mem bareName hd)

theorem foldl_pushRequired_subset (packages : List (String × String))
    (hb : ∀ required ∈ packages, bareName required.2 = some required.1) :
    (∀ dep ∈ packages.foldl (pushRequired bareName) deps, dep ∈ deps) ↔
      ∀ required ∈ packages, hasDepNamed bareName deps required.1 := by
  induction packages with
  | nil => simp
  | cons required packages ih =>
    rw [List.foldl_cons, List.forall_mem_cons, ← ih fun other ho => hb other (.tail _ ho)]
    cases hd : hasDepNamed bareName deps required.1 with
    | true => simp [pushRequired, hd]
    | false =>
      -- The specifier that is pushed names its package, so it was not in the list.
      refine iff_of_false (fun hs => ?_) (fun hs => Bool.false_ne_true hs.1)
      have hp : required.2 ∈ pushRequired bareName deps required := by simp [pushRequired, hd]
      have hm := hs _ (mem_foldl_pushRequired bareName packages hp)
      have ht : hasDepNamed bareName deps required.1 = true :=
        List.any_eq_true.mpr ⟨_, hm, by simp [hb required (.head _)]⟩
      rw [ht] at hd
      cases hd

-- What the launch records, in terms of the metadata that it is launched from.
structure Records (onDisk : CapturedEnv → Bool) (isDeno : Bool) (source : EnvSource)
    (runt : RuntMetadata ν) (launched : LaunchedEnvConfig) : Prop where
  tracked (current : RuntMetadata ν) : tracked launched current =
    if isTracked onDisk runt source then
      [(launchedDependencies bareName runt source, dependencies current source)]
    else []
  channels (current : RuntMetadata ν) : channelsChanged launched current =
    (isConda source && isTracked onDisk runt source &&
      getInlineCondaChannels runt ≠ condaChannels current)
  deno : launched.denoConfig = if isDeno then runt.deno.map denoLaunched else none

theorem launch_records (onDisk : CapturedEnv → Bool) (isDeno : Bool) (source : EnvSource)
    (runt : RuntMetadata ν) :
    Records bareName onDisk isDeno source runt (launch bareName onDisk isDeno source runt) := by
  have hp := inlineDepsWithCondaRequiredPackages_ne_nil bareName (pixiDependencies runt)
  unfold launch buildLaunchedConfig
  cases source with
  | UvInline | CondaInline | PixiInline =>
    cases isDeno <;> constructor <;>
      simp only [EnvDrift.tracked, channelsChanged, inlineDeps, nonEmpty, isTracked, isConda,
        launchedDependencies, dependencies] <;> split_ifs <;> simp_all
  | UvPrewarmed =>
    cases hc : capturedEnv onDisk runt .UvPrewarmed with
    | none =>
      cases isDeno <;> constructor <;>
        simp [EnvDrift.tracked, channelsChanged, isTracked, isConda, hc]
    | some captured =>
      obtain rfl : captured = .Uv (uvDependencies runt) := by
        simp only [capturedEnv, filter_eq_some_iff, map_eq_some_iff] at hc
        obtain ⟨⟨_, _, rfl⟩, _⟩ := hc
        rfl
      cases isDeno <;> constructor <;>
        simp [EnvDrift.tracked, channelsChanged, isTracked, isConda, launchedDependencies,
          dependencies, hc]
  | CondaPrewarmed =>
    cases hc : capturedEnv onDisk runt .CondaPrewarmed with
    | none =>
      cases isDeno <;> constructor <;>
        simp [EnvDrift.tracked, channelsChanged, isTracked, isConda, hc]
    | some captured =>
      obtain rfl : captured = .Conda (condaDependencies runt) (getInlineCondaChannels runt) := by
        simp only [capturedEnv, filter_eq_some_iff, map_eq_some_iff] at hc
        obtain ⟨⟨_, _, rfl⟩, _⟩ := hc
        rfl
      cases isDeno <;> constructor <;>
        simp [EnvDrift.tracked, channelsChanged, isTracked, isConda, launchedDependencies,
          dependencies, hc]

theorem launchedDependencies_same {runt : RuntMetadata ν}
    (hb : ∀ required ∈ REQUIRED_PACKAGES, bareName required.2 = some required.1) :
    (∀ dep, dep ∈ launchedDependencies bareName runt source ↔ dep ∈ dependencies runt source) ↔
      (source = .PixiInline →
        ∀ required ∈ REQUIRED_PACKAGES,
          hasDepNamed bareName (pixiDependencies runt) required.1) := by
  by_cases hs : source = .PixiInline
  · subst hs
    rw [← foldl_pushRequired_subset bareName REQUIRED_PACKAGES hb]
    simp only [launchedDependencies, dependencies, if_true, forall_const]
    exact ⟨fun h dep => (h dep).mp, fun h dep =>
      ⟨h dep, mem_foldl_pushRequired bareName REQUIRED_PACKAGES⟩⟩
  · simp [launchedDependencies, hs]

theorem Records.in_sync {runt : RuntMetadata ν}
    (hr : Records bareName onDisk isDeno source runt launched) (current : RuntMetadata ν) :
    computeEnvSyncDiff launched current = none ↔
      (isTracked onDisk runt source → ∀ dep,
        dep ∈ launchedDependencies bareName runt source ↔ dep ∈ dependencies current source) ∧
      (isConda source → isTracked onDisk runt source →
        getInlineCondaChannels runt = condaChannels current) ∧
      (isDeno → runt.deno.isSome →
        current.deno.map denoLaunched = runt.deno.map denoLaunched) := by
  rw [computeEnvSyncDiff_none, hr.tracked, hr.channels, denoChanged, hr.deno]
  refine and_congr ?_ (and_congr ?_ ?_)
  · cases isTracked onDisk runt source <;> simp
  · cases isConda source <;> cases isTracked onDisk runt source <;> simp
  · cases isDeno <;> cases runt.deno <;> simp

theorem Records.differences {runt current : RuntMetadata ν}
    (hr : Records bareName onDisk isDeno source runt launched)
    (hd : computeEnvSyncDiff launched current = some diff) (dep : String) :
    (dep ∈ diff.added ↔ isTracked onDisk runt source ∧
      dep ∈ dependencies current source ∧ dep ∉ launchedDependencies bareName runt source) ∧
    (dep ∈ diff.removed ↔ isTracked onDisk runt source ∧
      dep ∈ launchedDependencies bareName runt source ∧ dep ∉ dependencies current source) := by
  simp only [computeEnvSyncDiff] at hd
  split at hd
  · cases hd
  · obtain rfl := some.inj hd
    rw [hr.tracked]
    cases isTracked onDisk runt source <;> simp

theorem env_drift_exact (bareName : String → Option String)
    (hb : ∀ required ∈ REQUIRED_PACKAGES, bareName required.2 = some required.1)
    (onDisk : CapturedEnv → Bool) (isDeno : Bool) (source : EnvSource) (runt : RuntMetadata ν) :
    (computeEnvSyncDiff (launch bareName onDisk isDeno source runt) runt = none ∧
      ∀ current : RuntMetadata ν,
        let launched := launch bareName onDisk isDeno source runt
        let isTracked := isTracked onDisk runt source
        (∀ diff, computeEnvSyncDiff launched current = some diff → ∀ dep,
          (dep ∈ diff.added ↔
            isTracked ∧ dep ∈ dependencies current source ∧ dep ∉ dependencies runt source) ∧
          (dep ∈ diff.removed ↔
            isTracked ∧ dep ∈ dependencies runt source ∧ dep ∉ dependencies current source)) ∧
        (computeEnvSyncDiff launched current = none →
          (isTracked →
            ∀ dep, dep ∈ dependencies current source ↔ dep ∈ dependencies runt source) ∧
          (isConda source → isTracked →
            getInlineCondaChannels current = getInlineCondaChannels runt) ∧
          (isDeno → current.deno.map denoLaunched = runt.deno.map denoLaunched))) ↔
      FilledIn bareName onDisk isDeno source runt := by
  have hr := launch_records bareName onDisk isDeno source runt
  constructor
  · intro he
    obtain ⟨hs, hc, -⟩ := (hr.in_sync bareName runt).mp he.1
    refine ⟨fun hconda ht hn => ?_, fun hp => ?_, fun hdeno => ?_⟩
    · have hg := hc hconda ht
      rw [getInlineCondaChannels, if_pos hn, hn] at hg
      cases hg
    · subst hp
      exact (launchedDependencies_same bareName hb).mp (hs rfl) rfl
    · by_contra hn
      -- Without a section at launch, one that is added later is not reported.
      let added : RuntMetadata ν := { runt with deno := some ⟨[], none, none, none⟩ }
      have hi : computeEnvSyncDiff (launch bareName onDisk isDeno source runt) added = none := by
        refine (hr.in_sync bareName added).mpr ⟨?_, hc, fun _ hsome => absurd hsome hn⟩
        cases source <;> exact hs
      have hd := ((he.2 added).2 hi).2.2 hdeno
      rw [not_isSome_iff_eq_none.mp hn] at hd
      cases hd
  · intro hf
    have hl := (launchedDependencies_same bareName hb).mpr hf.packages
    refine ⟨(hr.in_sync bareName runt).mpr ⟨fun _ => hl, fun hconda ht => ?_, fun _ _ => rfl⟩,
      fun current => ⟨fun diff hd dep => ?_, fun hi => ?_⟩⟩
    · rw [getInlineCondaChannels, if_neg (hf.channels hconda ht)]
    · rw [← hl dep]
      exact hr.differences bareName hd dep
    · obtain ⟨hs, hc, hd⟩ := (hr.in_sync bareName current).mp hi
      refine ⟨fun ht dep => ?_, fun hconda ht => ?_, fun hdeno => hd hdeno (hf.deno hdeno)⟩
      · rw [← hs ht dep, hl dep]
      · have hg := hc hconda ht
        have hne : condaChannels current ≠ [] := by
          rw [← hg, getInlineCondaChannels, if_neg (hf.channels hconda ht)]
          exact hf.channels hconda ht
        rw [hg, getInlineCondaChannels, if_neg hne]

def numpyFrom (channels : List String) : RuntMetadata Empty :=
  { Guarded.RuntMetadata.default with conda := some ⟨["numpy"], channels, none⟩ }

def numpyPixi : RuntMetadata Empty :=
  { Guarded.RuntMetadata.default with pixi := some ⟨["numpy"], [], [], none⟩ }

def specifierName (dep : String) : Option String :=
  if dep = "pyarrow>=14" then "pyarrow" else dep

def launchSample (source : EnvSource) (runt : RuntMetadata Empty) : LaunchedEnvConfig :=
  launch specifierName (fun _ => true) false source runt

theorem named_channel_in_sync :
    computeEnvSyncDiff (launchSample .CondaInline (numpyFrom ["conda-forge"]))
      (numpyFrom ["conda-forge"]) = none :=
  ((env_drift_exact specifierName (by decide) _ false .CondaInline (numpyFrom ["conda-forge"])).mpr
    ⟨fun _ _ => List.cons_ne_nil _ _, (fun hp => by cases hp), (fun hd => by cases hd)⟩).1

-- An empty list of channels is launched as the default one and compared as empty, and the packages
-- that pixi adds count as removed.
theorem launched_defaults_drift :
    computeEnvSyncDiff (launchSample .CondaInline (numpyFrom [])) (numpyFrom []) =
        some ⟨[], [], true, false⟩ ∧
      computeEnvSyncDiff (launchSample .PixiInline numpyPixi) numpyPixi =
        some ⟨[], ["nbformat", "pyarrow>=14", "pip"], false, false⟩ := by
  decide

end Nteract.EnvDrift
