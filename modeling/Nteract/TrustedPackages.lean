import Nteract.Lib.Table
import Nteract.Lib.Text

namespace Nteract.TrustedPackages

open Lib

-- Registry ecosystems and exact ecosystems are separate namespaces of the allowlist.
inductive Ecosystem
  | Pypi
  | Conda
  | CondaChannel
  | PixiChannel
  | PypiExact
  | CondaExact
deriving DecidableEq

-- Which installer grammar a dependency spec is written in.
inductive SpecSource
  | Pypi
  | Conda (channelEcosystem : Ecosystem)
deriving DecidableEq

def SpecSource.packageEcosystem : SpecSource → Ecosystem
  | .Pypi => .Pypi
  | .Conda _ => .Conda

def SpecSource.exactEcosystem : SpecSource → Ecosystem
  | .Pypi => .PypiExact
  | .Conda _ => .CondaExact

def SpecSource.forPackageEcosystem (ecosystem : Ecosystem) : SpecSource :=
  if ecosystem = .Conda then .Conda .CondaChannel else .Pypi

inductive SpecIdentity
  | Registry (name : Text)
  | ChannelRegistry (channel name : Text)
  | Exact (spec : Text)
deriving DecidableEq

def isRegistryNameChar (c : Char) : Bool := c.isAlphanum || c = '-' || c = '_' || c = '.'

-- The separators a normalized name writes as one hyphen.
def isNameSeparator (c : Char) : Bool := c = '-' || c = '_' || c = '.'

def isVersionClauseChar (c : Char) : Bool :=
  c.isAlphanum ||
    c ∈ ['<', '>', '=', '!', '~', ',', '.', '*', '+', '(', ')', ' ', '\t']

-- The loop of `normalize_registry_name`, from its flag `last_was_separator`.
def normalizeFrom (lastWasSeparator : Bool) : Text → Text
  | [] => []
  | c :: rest =>
    if isNameSeparator c then
      if lastWasSeparator then normalizeFrom true rest else '-' :: normalizeFrom true rest
    else
      c.toLower :: normalizeFrom false rest

def normalizeRegistryName (name : Text) : Option Text := do
  let first ← name.head?
  let last ← name.getLast?
  if !first.isAlphanum || !last.isAlphanum || !name.all isRegistryNameChar then
    none
  else
    some (normalizeFrom false name)

def ARCHIVE_SUFFIXES : List Text :=
  [".whl".toList, ".zip".toList, ".tar".toList, ".tar.gz".toList, ".tar.bz2".toList,
    ".tar.xz".toList, ".tar.zst".toList, ".tgz".toList, ".tar.lz".toList, ".tar.lzma".toList,
    ".tbz".toList, ".txz".toList, ".tlz".toList]

def requirementText (spec : Text) : Text := Text.trimEnd (spec.takeWhile (· ≠ ';'))

def rawName (requirement : Text) : Text := requirement.takeWhile isRegistryNameChar

def archivePath (requirement : Text) : Text :=
  match (Text.stripSuffix ']' requirement).bind (Text.rsplitOnce '[') with
  | some (path, _) => path
  | none => requirement

def namesArchive (requirement : Text) : Bool :=
  ARCHIVE_SUFFIXES.any fun suffix =>
    suffix.isSuffixOf ((Text.trimEnd (archivePath requirement)).map Char.toLower)

def isExtrasChar (c : Char) : Bool := isRegistryNameChar c || c = ',' || c = ' ' || c = '\t'

-- What follows the name and its extras; `none` when they do not read.
def afterExtras (rest : Text) : Option Text :=
  match rest with
  | '[' :: afterOpen =>
    match Text.splitOnce [']'] afterOpen with
    | none => none
    | some (extras, afterClose) => if extras.all isExtrasChar then some afterClose else none
  | rest => some rest

def startsVersionClause (c : Char) : Bool := c ∈ ['(', '<', '>', '=', '!', '~']

def isVersionClause (rest : Text) : Bool :=
  rest.head?.all startsVersionClause && rest.all isVersionClauseChar

def classifyPypiSpec (raw : Text) : Option SpecIdentity :=
  let spec := Text.trim raw
  if spec = [] then
    none
  else if '@' ∈ spec then
    some (.Exact spec)
  else
    let requirement := requirementText spec
    if namesArchive requirement then
      some (.Exact spec)
    else
      match normalizeRegistryName (rawName requirement) with
      | none => some (.Exact spec)
      | some name =>
        match afterExtras (Text.trimStart (requirement.dropWhile isRegistryNameChar)) with
        | none => some (.Exact spec)
        | some rest =>
          if isVersionClause (Text.trimStart rest) then
            some (.Registry name)
          else
            some (.Exact spec)

-- A parsed match spec: `exactName` is the normalized name when the name is not a pattern.
structure MatchSpec where
  channel : Option Text
  url : Option Text
  exactName : Option Text
deriving DecidableEq

-- `MatchSpec::from_str` in strict mode.
abbrev MatchSpecParser := Text → Option MatchSpec

-- The channel qualifier and the spec of the package itself.
def splitChannel (spec : Text) : Option Text × Text :=
  match Text.splitOnce [':', ':'] spec with
  | some (channel, packageSpec) => (some (Text.trim channel), Text.trim packageSpec)
  | none => (none, spec)

variable (parse : MatchSpecParser)

-- The registry name of a match spec that does not choose its own source.
def registryName (packageSpec : Text) : Option Text := do
  let parsed ← parse packageSpec
  if parsed.channel.isSome || parsed.url.isSome then
    none
  else
    let name ← parsed.exactName
    normalizeRegistryName name

def classifyCondaSpec (raw : Text) : Option SpecIdentity :=
  let spec := Text.trim raw
  if spec = [] then
    none
  else if '#' ∈ spec then
    some (.Exact spec)
  else
    let split := splitChannel spec
    if split.1 = some [] ∨ split.1 = some "defaults".toList then
      some (.Exact spec)
    else
      match registryName parse split.2 with
      | none => some (.Exact spec)
      | some name =>
        match split.1 with
        | some channel => some (.ChannelRegistry channel name)
        | none => some (.Registry name)

def classifySpec (source : SpecSource) (spec : Text) : Option SpecIdentity :=
  match source with
  | .Pypi => classifyPypiSpec spec
  | .Conda _ => classifyCondaSpec parse spec

structure PackageIdentity where
  ecosystem : Ecosystem
  rawSpec : Text
  normalizedName : Text
deriving DecidableEq

def identitiesForSpec (source : SpecSource) (rawSpec : Text) : List PackageIdentity :=
  match classifySpec parse source rawSpec, source with
  | none, _ => []
  | some (.Registry name), _ => [⟨source.packageEcosystem, rawSpec, name⟩]
  | some (.Exact spec), _ => [⟨source.exactEcosystem, rawSpec, spec⟩]
  | some (.ChannelRegistry channel name), .Conda channelEcosystem =>
    [⟨source.packageEcosystem, rawSpec, name⟩, ⟨channelEcosystem, rawSpec, channel⟩]
  | some (.ChannelRegistry _ _), .Pypi => [⟨source.exactEcosystem, rawSpec, Text.trim rawSpec⟩]

def normalizeChannelSource (source : Text) : Option Text :=
  let source := Text.trim source
  if source = [] then none else some source

def identitiesForSpecs (source : SpecSource) (specs : List Text) : List PackageIdentity :=
  specs.flatMap (identitiesForSpec parse source)

def identitiesForChannels (ecosystem : Ecosystem) (channels : List Text) : List PackageIdentity :=
  channels.filterMap fun channel =>
    (normalizeChannelSource channel).map fun normalizedName => ⟨ecosystem, channel, normalizedName⟩

inductive TrustStatus
  | Trusted
  | Untrusted
  | NoDependencies
deriving DecidableEq

structure TrustInfo where
  status : TrustStatus
  uvDependencies : List Text
  approvedUvDependencies : List Text
  condaDependencies : List Text
  approvedCondaDependencies : List Text
  condaChannels : List Text
  approvedCondaChannels : List Text
  pixiDependencies : List Text
  approvedPixiDependencies : List Text
  pixiPypiDependencies : List Text
  approvedPixiPypiDependencies : List Text
  pixiChannels : List Text
  approvedPixiChannels : List Text
deriving DecidableEq

def identitiesFromTrustInfo (info : TrustInfo) : List PackageIdentity :=
  identitiesForSpecs parse .Pypi info.uvDependencies ++
    identitiesForSpecs parse (.Conda .CondaChannel) info.condaDependencies ++
    identitiesForChannels .CondaChannel info.condaChannels ++
    identitiesForSpecs parse (.Conda .PixiChannel) info.pixiDependencies ++
    identitiesForSpecs parse .Pypi info.pixiPypiDependencies ++
    identitiesForChannels .PixiChannel info.pixiChannels

structure Row where
  approvedAt : Nat
  source : String
deriving DecidableEq

-- The table `trusted_packages`, or the reason why its file could not be opened.
inductive Store
  | Sqlite (rows : Table (Ecosystem × Text) Row)
  | Unavailable (reason : String)

def Store.has (store : Store) (ecosystem : Ecosystem) (name : Text) : Bool :=
  match store with
  | .Sqlite rows => (rows.find (ecosystem, name)).isSome
  | .Unavailable _ => false

def upsertAll (row : Row) (rows : Table (Ecosystem × Text) Row) (identities : List PackageIdentity) :
    Table (Ecosystem × Text) Row :=
  identities.foldl
    (fun rows identity => rows.set (identity.ecosystem, identity.normalizedName) row) rows

def insertAll (row : Row) (rows : Table (Ecosystem × Text) Row) (keys : List (Ecosystem × Text)) :
    Table (Ecosystem × Text) Row :=
  keys.foldl (fun rows key => rows.add key row) rows

def addFromInfo (now : Nat) (store : Store) (info : TrustInfo) (source : String) :
    Except String Store :=
  let identities := identitiesFromTrustInfo parse info
  if identities = [] then
    .ok store
  else
    match store with
    | .Sqlite rows => .ok (.Sqlite (upsertAll ⟨now, source⟩ rows identities))
    | .Unavailable reason => .error s!"trusted package store unavailable: {reason}"

def seedNames (ecosystem : Ecosystem) (specs : List Text) : List (Ecosystem × Text) :=
  specs.filterMap fun spec =>
    match classifySpec parse (.forPackageEcosystem ecosystem) spec with
    | some (.Registry name) => some (ecosystem, name)
    | _ => none

def seedDefaults (now : Nat) (store : Store) (ecosystem : Ecosystem) (specs : List Text) : Store :=
  match store with
  | .Sqlite rows => .Sqlite (insertAll ⟨now, "daemon-default"⟩ rows (seedNames parse ecosystem specs))
  | .Unavailable reason => .Unavailable reason

def seedChannels (channels : List Text) : List (Ecosystem × Text) :=
  [Ecosystem.CondaChannel, .PixiChannel].flatMap fun ecosystem =>
    (channels.filterMap normalizeChannelSource).map fun source => (ecosystem, source)

def seedDefaultChannels (now : Nat) (store : Store) (channels : List Text) : Store :=
  match store with
  | .Sqlite rows => .Sqlite (insertAll ⟨now, "daemon-default"⟩ rows (seedChannels channels))
  | .Unavailable reason => .Unavailable reason

variable (store : Store) (info : TrustInfo)

-- The loop gives up on the first identity that has no row.
def allDependenciesApproved : Bool :=
  let identities := identitiesFromTrustInfo parse info
  !identities.isEmpty &&
    identities.all fun identity => store.has identity.ecosystem identity.normalizedName

def approvedRawSpecs (source : SpecSource) (specs : List Text) : List Text :=
  specs.filter fun spec =>
    let identities := identitiesForSpec parse source spec
    !identities.isEmpty &&
      identities.all fun identity => store.has identity.ecosystem identity.normalizedName

def approvedRawChannels (ecosystem : Ecosystem) (channels : List Text) : List Text :=
  channels.filter fun channel =>
    match normalizeChannelSource channel with
    | some normalized => store.has ecosystem normalized
    | none => false

def enrichInfo : TrustInfo :=
  { info with
    approvedUvDependencies := approvedRawSpecs parse store .Pypi info.uvDependencies
    approvedCondaDependencies :=
      approvedRawSpecs parse store (.Conda .CondaChannel) info.condaDependencies
    approvedCondaChannels := approvedRawChannels store .CondaChannel info.condaChannels
    approvedPixiDependencies :=
      approvedRawSpecs parse store (.Conda .PixiChannel) info.pixiDependencies
    approvedPixiPypiDependencies := approvedRawSpecs parse store .Pypi info.pixiPypiDependencies
    approvedPixiChannels := approvedRawChannels store .PixiChannel info.pixiChannels }

def finalizeTrustStatus : TrustStatus :=
  if info.status = .NoDependencies then
    .NoDependencies
  else if allDependenciesApproved parse store info then
    .Trusted
  else
    .Untrusted

-- The info that `extract_trust_info` builds from the lists it reads.
def extractTrustInfo (uv conda condaChannels pixi pixiPypi pixiChannels : List Text) : TrustInfo where
  status :=
    if uv.isEmpty && conda.isEmpty && pixi.isEmpty && pixiPypi.isEmpty then
      .NoDependencies
    else
      .Untrusted
  uvDependencies := uv
  approvedUvDependencies := []
  condaDependencies := conda
  approvedCondaDependencies := []
  condaChannels := condaChannels
  approvedCondaChannels := []
  pixiDependencies := pixi
  approvedPixiDependencies := []
  pixiPypiDependencies := pixiPypi
  approvedPixiPypiDependencies := []
  pixiChannels := pixiChannels
  approvedPixiChannels := []

-- Dependencies of a script block are installed as Python packages.
def includePep723Dependencies (info : TrustInfo) (dependencies : List Text) : TrustInfo :=
  let uv := dependencies.foldl
    (fun listed dependency => if dependency ∈ listed then listed else listed ++ [dependency])
    info.uvDependencies
  { info with
    uvDependencies := uv
    status :=
      if uv ≠ [] ∧ info.status = .NoDependencies then .Untrusted else info.status }

end Nteract.TrustedPackages
