import Mathlib.Data.Finmap
import Apokryphos.ServerConfig

/-!
The two sources of the configuration. A key comes from its environment variable,
else from the file. Both sources are partial configurations, one leaf for every
key, and collecting and merging them work leaf by leaf; the tables that the
leaves lie in are of no consequence. Numbers and lists have another form in the
environment, which the validator reads as the same value.
-/
namespace ConfigSources
open Outcomes ServerConfig Texts

abbrev Env := AList fun _ : String => String

def emptyAuth : PartialAuth := ⟨none, none, none, none, none, none, none⟩

def collectStorage (env : Env) : Option PartialStorage :=
  (env.lookup "APOK_STORAGE_LOCAL_FS_ROOT").map fun v => ⟨some ⟨some v⟩⟩

/-- A table is there as soon as one of its keys is. -/
def collectOidc (env : Env) (issuerKey audienceKey : String) : Option PartialOidc :=
  let o : PartialOidc := ⟨env.lookup issuerKey, env.lookup audienceKey⟩
  if o.issuerUrl.isSome || o.audience.isSome then some o else none

def collectVault (env : Env) : Option PartialOidc :=
  collectOidc env "APOK_VAULT_OIDC_ISSUER_URL" "APOK_VAULT_OIDC_AUDIENCE"

def collectAdmin (env : Env) : Option PartialOidc :=
  collectOidc env "APOK_ADMIN_OIDC_ISSUER_URL" "APOK_ADMIN_OIDC_AUDIENCE"

def tomlString (env : Env) (key : String) : Option TomlValue := (env.lookup key).map .string

def authKeys : List String :=
  ["APOK_AUTH_CLOCK_SKEW_SECS", "APOK_AUTH_DPOP_FRESHNESS_SECS", "APOK_AUTH_JWKS_REFRESH_SECS",
    "APOK_AUTH_DISCOVERY_REFRESH_SECS", "APOK_AUTH_ON_DEMAND_REFRESH_MIN_INTERVAL_SECS",
    "APOK_AUTH_JTI_REPLAY_WINDOW_SECS", "APOK_AUTH_MAX_REPLAY_ENTRIES"]

def authFields (env : Env) : PartialAuth where
  clockSkewSecs := tomlString env "APOK_AUTH_CLOCK_SKEW_SECS"
  dpopFreshnessSecs := tomlString env "APOK_AUTH_DPOP_FRESHNESS_SECS"
  jwksRefreshSecs := tomlString env "APOK_AUTH_JWKS_REFRESH_SECS"
  discoveryRefreshSecs := tomlString env "APOK_AUTH_DISCOVERY_REFRESH_SECS"
  onDemandRefreshMinIntervalSecs := tomlString env "APOK_AUTH_ON_DEMAND_REFRESH_MIN_INTERVAL_SECS"
  jtiReplayWindowSecs := tomlString env "APOK_AUTH_JTI_REPLAY_WINDOW_SECS"
  maxReplayEntries := tomlString env "APOK_AUTH_MAX_REPLAY_ENTRIES"

def collectAuth (env : Env) : Option PartialAuth :=
  let anyAuthField := authKeys.any fun key => (env.lookup key).isSome
  if anyAuthField then some (authFields env) else none

def collectEnv (env : Env) : PartialConfig where
  bindAddress := env.lookup "APOK_BIND_ADDRESS"
  blockSizeBytes := tomlString env "APOK_BLOCK_SIZE_BYTES"
  storageBackend := env.lookup "APOK_STORAGE_BACKEND"
  storage := collectStorage env
  trustedProxies := (env.lookup "APOK_TRUSTED_PROXIES").map .csv
  drainTimeoutSecs := tomlString env "APOK_DRAIN_TIMEOUT_SECS"
  vaultOidc := collectVault env
  adminOidc := collectAdmin env
  auth := collectAuth env

/-- A table that only one source has is taken as it is. -/
def mergeTable {T : Type} (merge : T → T → T) : Option T → Option T → Option T
  | some e, some f => some (merge e f)
  | some e, none => some e
  | none, some f => some f
  | none, none => none

def mergeLocalFs : Option PartialStorageLocalFs → Option PartialStorageLocalFs →
    Option PartialStorageLocalFs :=
  mergeTable fun e f => ⟨e.root.or f.root⟩

def mergeStorage : Option PartialStorage → Option PartialStorage → Option PartialStorage :=
  mergeTable fun e f => ⟨mergeLocalFs e.localFs f.localFs⟩

def mergeOidc : Option PartialOidc → Option PartialOidc → Option PartialOidc :=
  mergeTable fun e f => ⟨e.issuerUrl.or f.issuerUrl, e.audience.or f.audience⟩

def mergeAuth : Option PartialAuth → Option PartialAuth → Option PartialAuth :=
  mergeTable fun e f => {
    clockSkewSecs := e.clockSkewSecs.or f.clockSkewSecs
    dpopFreshnessSecs := e.dpopFreshnessSecs.or f.dpopFreshnessSecs
    jwksRefreshSecs := e.jwksRefreshSecs.or f.jwksRefreshSecs
    discoveryRefreshSecs := e.discoveryRefreshSecs.or f.discoveryRefreshSecs
    onDemandRefreshMinIntervalSecs :=
      e.onDemandRefreshMinIntervalSecs.or f.onDemandRefreshMinIntervalSecs
    jtiReplayWindowSecs := e.jtiReplayWindowSecs.or f.jtiReplayWindowSecs
    maxReplayEntries := e.maxReplayEntries.or f.maxReplayEntries }

def envOverridesFile (env file : PartialConfig) : PartialConfig where
  bindAddress := env.bindAddress.or file.bindAddress
  blockSizeBytes := env.blockSizeBytes.or file.blockSizeBytes
  storageBackend := env.storageBackend.or file.storageBackend
  storage := mergeStorage env.storage file.storage
  trustedProxies := env.trustedProxies.or file.trustedProxies
  drainTimeoutSecs := env.drainTimeoutSecs.or file.drainTimeoutSecs
  vaultOidc := mergeOidc env.vaultOidc file.vaultOidc
  adminOidc := mergeOidc env.adminOidc file.adminOidc
  auth := mergeAuth env.auth file.auth

def loadFrom (parsers : Parsers) (usizeMax : Nat) (env : Env) (file : PartialConfig) :
    Except ConfigError Config :=
  validate parsers usizeMax (envOverridesFile (collectEnv env) file)

inductive Leaf where
  | bindAddress
  | blockSizeBytes
  | storageBackend
  | storageLocalFsRoot
  | trustedProxies
  | drainTimeoutSecs
  | oidc (tag : AudienceTag) (field : OidcField)
  | clockSkewSecs
  | dpopFreshnessSecs
  | jwksRefreshSecs
  | discoveryRefreshSecs
  | onDemandRefreshMinIntervalSecs
  | jtiReplayWindowSecs
  | maxReplayEntries

def Leaf.key : Leaf → String
  | .bindAddress => "bind_address"
  | .blockSizeBytes => "block_size_bytes"
  | .storageBackend => "storage_backend"
  | .storageLocalFsRoot => "storage.local_fs.root"
  | .trustedProxies => "trusted_proxies"
  | .drainTimeoutSecs => "drain_timeout_secs"
  | .oidc tag field => oidcMissingKey tag field
  | .clockSkewSecs => "auth.clock_skew_secs"
  | .dpopFreshnessSecs => "auth.dpop_freshness_secs"
  | .jwksRefreshSecs => "auth.jwks_refresh_secs"
  | .discoveryRefreshSecs => "auth.discovery_refresh_secs"
  | .onDemandRefreshMinIntervalSecs => "auth.on_demand_refresh_min_interval_secs"
  | .jtiReplayWindowSecs => "auth.jti_replay_window_secs"
  | .maxReplayEntries => "auth.max_replay_entries"

def Leaf.envKey : Leaf → String
  | .bindAddress => "APOK_BIND_ADDRESS"
  | .blockSizeBytes => "APOK_BLOCK_SIZE_BYTES"
  | .storageBackend => "APOK_STORAGE_BACKEND"
  | .storageLocalFsRoot => "APOK_STORAGE_LOCAL_FS_ROOT"
  | .trustedProxies => "APOK_TRUSTED_PROXIES"
  | .drainTimeoutSecs => "APOK_DRAIN_TIMEOUT_SECS"
  | .oidc .vault .issuerUrl => "APOK_VAULT_OIDC_ISSUER_URL"
  | .oidc .vault .audience => "APOK_VAULT_OIDC_AUDIENCE"
  | .oidc .admin .issuerUrl => "APOK_ADMIN_OIDC_ISSUER_URL"
  | .oidc .admin .audience => "APOK_ADMIN_OIDC_AUDIENCE"
  | .clockSkewSecs => "APOK_AUTH_CLOCK_SKEW_SECS"
  | .dpopFreshnessSecs => "APOK_AUTH_DPOP_FRESHNESS_SECS"
  | .jwksRefreshSecs => "APOK_AUTH_JWKS_REFRESH_SECS"
  | .discoveryRefreshSecs => "APOK_AUTH_DISCOVERY_REFRESH_SECS"
  | .onDemandRefreshMinIntervalSecs => "APOK_AUTH_ON_DEMAND_REFRESH_MIN_INTERVAL_SECS"
  | .jtiReplayWindowSecs => "APOK_AUTH_JTI_REPLAY_WINDOW_SECS"
  | .maxReplayEntries => "APOK_AUTH_MAX_REPLAY_ENTRIES"

def allLeaves : List Leaf :=
  [.bindAddress, .blockSizeBytes, .storageBackend, .storageLocalFsRoot, .trustedProxies,
    .drainTimeoutSecs, .oidc .vault .issuerUrl, .oidc .vault .audience, .oidc .admin .issuerUrl,
    .oidc .admin .audience, .clockSkewSecs, .dpopFreshnessSecs, .jwksRefreshSecs,
    .discoveryRefreshSecs, .onDemandRefreshMinIntervalSecs, .jtiReplayWindowSecs, .maxReplayEntries]

theorem forall_leaves {holds : Leaf → Prop} (each : ∀ leaf ∈ allLeaves, holds leaf) (leaf : Leaf) :
    holds leaf := by
  apply each
  cases leaf with
  | oidc tag field => cases tag <;> cases field <;> simp [allLeaves]
  | _ => simp [allLeaves]

inductive LeafValue where
  | text (s : String)
  | toml (v : TomlValue)
  | proxies (source : TrustedProxiesSource)
  deriving DecidableEq

section Leaves
variable (p : PartialConfig)

def storageRoot (storage : Option PartialStorage) : Option String :=
  (storage.bind (·.localFs)).bind (·.root)

def oidcTable : AudienceTag → Option PartialOidc
  | .vault => p.vaultOidc
  | .admin => p.adminOidc

def oidcText (table : Option PartialOidc) : OidcField → Option String
  | .issuerUrl => table.bind (·.issuerUrl)
  | .audience => table.bind (·.audience)

/-- The table with the defaults' gaps, where the source has none. -/
def authTable (table : Option PartialAuth) : PartialAuth := table.getD emptyAuth

def leafOf : Leaf → Option LeafValue
  | .bindAddress => p.bindAddress.map .text
  | .blockSizeBytes => p.blockSizeBytes.map .toml
  | .storageBackend => p.storageBackend.map .text
  | .storageLocalFsRoot => (storageRoot p.storage).map .text
  | .trustedProxies => p.trustedProxies.map .proxies
  | .drainTimeoutSecs => p.drainTimeoutSecs.map .toml
  | .oidc tag field => (oidcText (oidcTable p tag) field).map .text
  | .clockSkewSecs => (authTable p.auth).clockSkewSecs.map .toml
  | .dpopFreshnessSecs => (authTable p.auth).dpopFreshnessSecs.map .toml
  | .jwksRefreshSecs => (authTable p.auth).jwksRefreshSecs.map .toml
  | .discoveryRefreshSecs => (authTable p.auth).discoveryRefreshSecs.map .toml
  | .onDemandRefreshMinIntervalSecs =>
    (authTable p.auth).onDemandRefreshMinIntervalSecs.map .toml
  | .jtiReplayWindowSecs => (authTable p.auth).jtiReplayWindowSecs.map .toml
  | .maxReplayEntries => (authTable p.auth).maxReplayEntries.map .toml

end Leaves

def Leaf.fromEnv (leaf : Leaf) (s : String) : LeafValue :=
  match leaf with
  | .bindAddress | .storageBackend | .storageLocalFsRoot | .oidc _ _ => .text s
  | .trustedProxies => .proxies (.csv s)
  | .blockSizeBytes | .drainTimeoutSecs | .clockSkewSecs | .dpopFreshnessSecs | .jwksRefreshSecs
  | .discoveryRefreshSecs | .onDemandRefreshMinIntervalSecs | .jtiReplayWindowSecs
  | .maxReplayEntries => .toml (.string s)

theorem mergeAuth_table (env file : Option PartialAuth) (field : PartialAuth → Option TomlValue)
    (each : ∀ e f : PartialAuth, field (authTable (mergeAuth (some e) (some f))) = (field e).or (field f))
    (absent : field emptyAuth = none) :
    field (authTable (mergeAuth env file)) = (field (authTable env)).or (field (authTable file)) := by
  cases env with
  | none => cases file <;> simp [mergeAuth, mergeTable, authTable, absent]
  | some e =>
    cases file with
    | none => simp [mergeAuth, mergeTable, authTable, absent]
    | some f => exact each e f

theorem mergeOidc_text (env file : Option PartialOidc) (field : OidcField) :
    oidcText (mergeOidc env file) field = (oidcText env field).or (oidcText file field) := by
  cases env <;> cases file <;> cases field <;> simp [mergeOidc, mergeTable, oidcText]

theorem mergeStorage_root (env file : Option PartialStorage) :
    storageRoot (mergeStorage env file) = (storageRoot env).or (storageRoot file) := by
  cases env with
  | none => cases file <;> simp [mergeStorage, mergeTable, storageRoot]
  | some e =>
    cases file with
    | none => simp [mergeStorage, mergeTable, storageRoot]
    | some f =>
      cases found : e.localFs <;> cases other : f.localFs <;>
        simp [mergeStorage, mergeLocalFs, mergeTable, storageRoot, found, other]

theorem envOverridesFile_leaf (env file : PartialConfig) (leaf : Leaf) :
    leafOf (envOverridesFile env file) leaf = (leafOf env leaf).or (leafOf file leaf) := by
  have auth (field : PartialAuth → Option TomlValue)
      (each : ∀ e f : PartialAuth, field (authTable (mergeAuth (some e) (some f))) = (field e).or (field f))
      (absent : field emptyAuth = none) :
      (field (authTable (envOverridesFile env file).auth)).map LeafValue.toml =
        ((field (authTable env.auth)).map LeafValue.toml).or
          ((field (authTable file.auth)).map LeafValue.toml) := by
    rw [← Option.map_or, ← mergeAuth_table env.auth file.auth field each absent]
    rfl
  cases leaf with
  | oidc tag field =>
    cases tag <;> simp only [leafOf, oidcTable, envOverridesFile, mergeOidc_text, Option.map_or]
  | storageLocalFsRoot => simp only [leafOf, envOverridesFile, mergeStorage_root, Option.map_or]
  | bindAddress | blockSizeBytes | storageBackend | trustedProxies | drainTimeoutSecs =>
    simp only [leafOf, envOverridesFile, Option.map_or]
  | clockSkewSecs => exact auth (·.clockSkewSecs) (fun _ _ => rfl) rfl
  | dpopFreshnessSecs => exact auth (·.dpopFreshnessSecs) (fun _ _ => rfl) rfl
  | jwksRefreshSecs => exact auth (·.jwksRefreshSecs) (fun _ _ => rfl) rfl
  | discoveryRefreshSecs => exact auth (·.discoveryRefreshSecs) (fun _ _ => rfl) rfl
  | onDemandRefreshMinIntervalSecs => exact auth (·.onDemandRefreshMinIntervalSecs) (fun _ _ => rfl) rfl
  | jtiReplayWindowSecs => exact auth (·.jtiReplayWindowSecs) (fun _ _ => rfl) rfl
  | maxReplayEntries => exact auth (·.maxReplayEntries) (fun _ _ => rfl) rfl

theorem collectOidc_text (env : Env) (issuerKey audienceKey : String) (field : OidcField) :
    oidcText (collectOidc env issuerKey audienceKey) field =
      match field with
      | .issuerUrl => env.lookup issuerKey
      | .audience => env.lookup audienceKey := by
  unfold collectOidc
  cases issuer : env.lookup issuerKey <;> cases audience : env.lookup audienceKey <;>
    cases field <;> simp [oidcText]

theorem collectAuth_table (env : Env) (field : PartialAuth → Option TomlValue) {key : String}
    (known : key ∈ authKeys) (absent : field emptyAuth = none)
    (set : field (authFields env) = tomlString env key) :
    field (authTable (collectAuth env)) = tomlString env key := by
  unfold collectAuth
  by_cases any : (authKeys.any fun key => (env.lookup key).isSome) = true
  · simp only [any, if_true]
    exact set
  · have missing : env.lookup key = none := by
      cases found : env.lookup key with
      | none => rfl
      | some v =>
        have listed : ∃ key ∈ authKeys, (env.lookup key).isSome := ⟨key,known,by rw [found]; rfl⟩
        exact absurd (List.any_eq_true.mpr listed) any
    simp [any, authTable, absent, tomlString, missing]

theorem collectEnv_leaf (env : Env) (leaf : Leaf) :
    leafOf (collectEnv env) leaf = (env.lookup leaf.envKey).map leaf.fromEnv := by
  have auth (field : PartialAuth → Option TomlValue) {key : String} (known : key ∈ authKeys)
      (absent : field emptyAuth = none) (set : field (authFields env) = tomlString env key) :
      (field (authTable (collectEnv env).auth)).map LeafValue.toml =
        (env.lookup key).map fun s => .toml (.string s) := by
    rw [show (collectEnv env).auth = collectAuth env from rfl,
      collectAuth_table env field known absent set, tomlString, Option.map_map]
    rfl
  cases leaf with
  | bindAddress | storageBackend => rfl
  | blockSizeBytes | drainTimeoutSecs | trustedProxies =>
    simp only [leafOf, collectEnv, tomlString, Option.map_map]
    rfl
  | storageLocalFsRoot =>
    simp only [leafOf, collectEnv, collectStorage, storageRoot, Leaf.envKey]
    cases env.lookup "APOK_STORAGE_LOCAL_FS_ROOT" <;> rfl
  | oidc tag field =>
    cases tag <;> cases field <;>
      simp only [leafOf, oidcTable, collectEnv, collectVault, collectAdmin, collectOidc_text] <;> rfl
  | clockSkewSecs => exact auth (·.clockSkewSecs) (by decide) rfl rfl
  | dpopFreshnessSecs => exact auth (·.dpopFreshnessSecs) (by decide) rfl rfl
  | jwksRefreshSecs => exact auth (·.jwksRefreshSecs) (by decide) rfl rfl
  | discoveryRefreshSecs => exact auth (·.discoveryRefreshSecs) (by decide) rfl rfl
  | onDemandRefreshMinIntervalSecs =>
    exact auth (·.onDemandRefreshMinIntervalSecs) (by decide) rfl rfl
  | jtiReplayWindowSecs => exact auth (·.jtiReplayWindowSecs) (by decide) rfl rfl
  | maxReplayEntries => exact auth (·.maxReplayEntries) (by decide) rfl rfl

def tomlText : TomlValue → String
  | .string s => s
  | .integer n => toString n.toInt
  | .other text => text

def proxiesText : TrustedProxiesSource → String
  | .list entries => ",".intercalate entries
  | .csv s => s

def LeafValue.envText : LeafValue → String
  | .text s => s
  | .toml v => tomlText v
  | .proxies source => proxiesText source

/-- What the network library says about texts: it takes no comma and no white space
    at the ends. -/
structure PlainNets (parsers : Parsers) : Prop where
  comma : ∀ {entry net}, parsers.ipNet entry = .ok net → ',' ∉ entry.toList
  trimmed : ∀ {entry net}, parsers.ipNet entry = .ok net → trimList entry.toList = entry.toList

section Validators
variable {parsers : Parsers} {usizeMax : Nat}

theorem decimal_word {n : Int64} (positive : 0 < n.toInt) :
    parseU64 (toString n.toInt) = some (UInt64.ofNat n.toInt.toNat) := by
  have bound := n.toInt_lt
  have whole : n.toInt = (n.toInt.toNat : Int) := by omega
  have written : toString n.toInt = toString n.toInt.toNat := by
    rw [whole]
    rfl
  rw [written]
  exact parseU64_decimal (by omega)

theorem int64_word {n : Int64} (positive : 0 < n.toInt) :
    (UInt64.ofNat n.toInt.toNat).toNat = n.toInt.toNat := by
  have bound := n.toInt_lt
  rw [UInt64.toNat_ofNat']
  omega

theorem decimal_filtered {n : Int64} (positive : 0 < n.toInt) {keep : UInt64 → Bool}
    (kept : keep (UInt64.ofNat n.toInt.toNat) = true) :
    (parseU64 (toString n.toInt)).filter keep = some (UInt64.ofNat n.toInt.toNat) := by
  rw [decimal_word positive, Option.filter_some, if_pos kept]

inductive Rewritten : Option TomlValue → Option TomlValue → Prop where
  | same (v : Option TomlValue) : Rewritten v v
  | text (v : TomlValue) : Rewritten (some v) (some (.string (tomlText v)))

theorem parsePositiveU64_rewritten {value other : Option TomlValue} {invalid : String → ConfigError}
    {found : Option UInt64} (rewritten : Rewritten value other)
    (parsed : parsePositiveU64 value invalid = .ok found) :
    parsePositiveU64 other invalid = .ok found := by
  cases rewritten with
  | same => exact parsed
  | text v =>
    cases v with
    | string s => exact parsed
    | other text => cases parsed
    | integer n =>
      simp only [parsePositiveU64] at parsed
      split at parsed
      · rename_i positive
        cases parsed
        have kept : decide (0 < (UInt64.ofNat n.toInt.toNat).toNat) = true := by
          rw [int64_word positive]
          exact decide_eq_true (by omega)
        simp only [parsePositiveU64, tomlText]
        rw [decimal_filtered positive kept]
        rfl
      · cases parsed

theorem checkReplayEntries_rewritten {v : TomlValue} {n : UInt64}
    (checked : checkReplayEntries v = .ok n) :
    checkReplayEntries (.string (tomlText v)) = .ok n := by
  cases v with
  | string s => exact checked
  | other text => cases checked
  | integer m =>
    simp only [checkReplayEntries] at checked
    split at checked
    · rename_i large
      cases checked
      have positive : 0 < m.toInt := by
        simp only [minReplayEntries] at large
        omega
      have kept : decide (minReplayEntries ≤ (UInt64.ofNat m.toInt.toNat).toNat) = true := by
        rw [int64_word positive]
        exact decide_eq_true (by omega)
      simp only [checkReplayEntries, tomlText]
      rw [decimal_filtered positive kept]
      rfl
    · cases checked

theorem parseMaxReplayEntries_rewritten {value other : Option TomlValue} {found : Option Nat}
    (rewritten : Rewritten value other)
    (parsed : parseMaxReplayEntries usizeMax value = .ok found) :
    parseMaxReplayEntries usizeMax other = .ok found := by
  cases rewritten with
  | same => exact parsed
  | text v =>
    simp only [parseMaxReplayEntries, bind_ok_iff] at parsed ⊢
    obtain ⟨n,checked,rest⟩ := parsed
    exact ⟨n,checkReplayEntries_rewritten checked,rest⟩

theorem parseAuth_table (usizeMax : Nat) (table : Option PartialAuth) :
    parseAuth usizeMax table = parsePresentAuth usizeMax (authTable table) := by
  cases table <;> rfl

structure RewrittenAuth (p q : PartialAuth) : Prop where
  clockSkewSecs : Rewritten p.clockSkewSecs q.clockSkewSecs
  dpopFreshnessSecs : Rewritten p.dpopFreshnessSecs q.dpopFreshnessSecs
  jwksRefreshSecs : Rewritten p.jwksRefreshSecs q.jwksRefreshSecs
  discoveryRefreshSecs : Rewritten p.discoveryRefreshSecs q.discoveryRefreshSecs
  onDemandRefreshMinIntervalSecs :
    Rewritten p.onDemandRefreshMinIntervalSecs q.onDemandRefreshMinIntervalSecs
  jtiReplayWindowSecs : Rewritten p.jtiReplayWindowSecs q.jtiReplayWindowSecs
  maxReplayEntries : Rewritten p.maxReplayEntries q.maxReplayEntries

theorem parsePresentAuth_rewritten {p q : PartialAuth} {cfg : AuthConfig}
    (rewritten : RewrittenAuth p q) (parsed : parsePresentAuth usizeMax p = .ok cfg) :
    parsePresentAuth usizeMax q = .ok cfg := by
  simp only [parsePresentAuth, bind_ok_iff, okOr_ok_iff, rejectIf_ok_iff, pure_ok_iff] at parsed ⊢
  obtain ⟨skew,hskew,fresh,hfresh,jwks,hjwks,disc,hdisc,interval,hinterval,required,sum,window,
    hwindow,entries,hentries,covers⟩ := parsed
  exact ⟨skew,parsePositiveU64_rewritten rewritten.clockSkewSecs hskew,
    fresh,parsePositiveU64_rewritten rewritten.dpopFreshnessSecs hfresh,
    jwks,parsePositiveU64_rewritten rewritten.jwksRefreshSecs hjwks,
    disc,parsePositiveU64_rewritten rewritten.discoveryRefreshSecs hdisc,
    interval,parsePositiveU64_rewritten rewritten.onDemandRefreshMinIntervalSecs hinterval,
    required,sum,
    window,parsePositiveU64_rewritten rewritten.jtiReplayWindowSecs hwindow,
    entries,parseMaxReplayEntries_rewritten rewritten.maxReplayEntries hentries,covers⟩

theorem parseOidc_ok_iff {tag : AudienceTag} {table : Option PartialOidc} {cfg : OidcAudienceConfig} :
    parseOidc parsers tag table = .ok cfg ↔ ∃ issuer audience,
      oidcText table .issuerUrl = some issuer ∧ oidcText table .audience = some audience ∧
        OidcAudienceConfig.new parsers tag issuer audience = .ok cfg := by
  simp only [parseOidc, bind_ok_iff, okOr_ok_iff, oidcText, Option.bind_eq_some_iff]
  constructor
  · rintro ⟨o,found,issuer,url,audience,name,made⟩
    exact ⟨issuer,audience,⟨o,found,url⟩,⟨o,found,name⟩,made⟩
  · rintro ⟨issuer,audience,⟨o,found,url⟩,⟨other,again,name⟩,made⟩
    cases found.symm.trans again
    exact ⟨o,found,issuer,url,audience,name,made⟩

theorem parseOidc_congr {tag : AudienceTag} {table other : Option PartialOidc}
    {cfg : OidcAudienceConfig} (same : ∀ field, oidcText other field = oidcText table field)
    (parsed : parseOidc parsers tag table = .ok cfg) : parseOidc parsers tag other = .ok cfg := by
  rw [parseOidc_ok_iff] at parsed ⊢
  rwa [same, same]

theorem parseStorageBackend_congr {discriminator : Option String} {storage other : Option PartialStorage}
    (same : storageRoot other = storageRoot storage) :
    parseStorageBackend discriminator other = parseStorageBackend discriminator storage := by
  unfold storageRoot at same
  simp only [parseStorageBackend, same]

theorem parseNets_accepted {position : Nat} {entries : List String} {nets : List IpNet}
    (parsed : parseNets parsers position entries = .ok nets) :
    ∀ entry ∈ entries, entry ≠ "" ∧ ∃ net, parsers.ipNet entry = .ok net := by
  induction entries generalizing position nets with
  | nil => simp
  | cons entry rest ih =>
    simp only [parseNets] at parsed
    split at parsed
    · cases parsed
    · rename_i written
      cases found : parsers.ipNet entry with
      | error source =>
        rw [found] at parsed
        cases parsed
      | ok net =>
        simp only [found, bind_ok_iff] at parsed
        obtain ⟨others,later,_⟩ := parsed
        exact List.forall_mem_cons.mpr ⟨⟨by simpa using written,net,found⟩,ih later⟩

theorem proxyEntries_joined (plain : PlainNets parsers) {entries : List String}
    (accepted : ∀ entry ∈ entries, entry ≠ "" ∧ ∃ net, parsers.ipNet entry = .ok net) :
    proxyEntries (.csv (",".intercalate entries)) = entries := by
  cases entries with
  | nil => rfl
  | cons entry rest =>
    have absent : ∀ part ∈ (entry :: rest).map String.toList, ',' ∉ part := by
      intro part member
      obtain ⟨e,listed,rfl⟩ := List.mem_map.mp member
      obtain ⟨_,net,parsed⟩ := accepted e listed
      exact plain.comma parsed
    have split : splitOn ',' (",".intercalate (entry :: rest)).toList =
        (entry :: rest).map String.toList := by
      rw [String.toList_intercalate]
      exact splitOn_intercalate (by simp) absent
    have written : (",".intercalate (entry :: rest)).isEmpty = false := by
      -- the empty text would be one empty entry
      by_contra empty
      have nothing : ",".intercalate (entry :: rest) = "" := by simpa using empty
      rw [nothing] at split
      have first := congrArg List.head? split
      exact (accepted entry List.mem_cons_self).1 (String.toList_injective (by simpa [splitOn] using first.symm))
    have trimmed : ∀ e ∈ entry :: rest, String.ofList (trimList e.toList) = e := by
      intro e listed
      obtain ⟨_,net,parsed⟩ := accepted e listed
      rw [plain.trimmed parsed, String.ofList_toList]
    simp only [proxyEntries, written, split, List.map_map]
    exact (List.map_congr_left trimmed).trans (List.map_id _)

theorem parseTrustedProxies_text (plain : PlainNets parsers) {source : TrustedProxiesSource}
    {nets : List IpNet} (parsed : parseTrustedProxies parsers (some source) = .ok nets) :
    parseTrustedProxies parsers (some (.csv (proxiesText source))) = .ok nets := by
  cases source with
  | csv s => exact parsed
  | list entries =>
    have read : parseNets parsers 0 entries = .ok nets := parsed
    change parseNets parsers 0 (proxyEntries (.csv (",".intercalate entries))) = .ok nets
    rw [proxyEntries_joined plain (parseNets_accepted read)]
    exact read

end Validators

def SameLeaf (leaf : Leaf) (value other : Option LeafValue) : Prop :=
  other = value ∨ ∃ v, value = some v ∧ other = some (leaf.fromEnv v.envText)

section SameLeaves
variable {leaf : Leaf}

theorem map_text {value other : Option String}
    (same : other.map LeafValue.text = value.map LeafValue.text) : other = value :=
  Option.map_injective (fun _ _ equal => LeafValue.text.inj equal) same

theorem sameLeaf_text {value other : Option String} (reads : ∀ s, leaf.fromEnv s = .text s)
    (same : SameLeaf leaf (value.map .text) (other.map .text)) : other = value := by
  rcases same with kept | ⟨v,set,given⟩
  · exact map_text kept
  · obtain ⟨s,rfl,rfl⟩ := Option.map_eq_some_iff.mp set
    rw [reads] at given
    exact map_text given

theorem sameLeaf_toml {value other : Option TomlValue} (reads : ∀ s, leaf.fromEnv s = .toml (.string s))
    (same : SameLeaf leaf (value.map .toml) (other.map .toml)) : Rewritten value other := by
  have toml_map {a b : Option TomlValue} (equal : a.map LeafValue.toml = b.map LeafValue.toml) : a = b :=
    Option.map_injective (fun _ _ inside => LeafValue.toml.inj inside) equal
  rcases same with kept | ⟨v,set,given⟩
  · cases toml_map kept
    exact .same value
  · obtain ⟨n,rfl,rfl⟩ := Option.map_eq_some_iff.mp set
    rw [reads] at given
    cases toml_map (b := some (.string (tomlText n))) given
    exact .text n

theorem sameLeaf_proxies {value other : Option TrustedProxiesSource}
    (reads : ∀ s, leaf.fromEnv s = .proxies (.csv s))
    (same : SameLeaf leaf (value.map .proxies) (other.map .proxies)) :
    other = value ∨ ∃ source, value = some source ∧ other = some (.csv (proxiesText source)) := by
  have proxies_map {a b : Option TrustedProxiesSource}
      (equal : a.map LeafValue.proxies = b.map LeafValue.proxies) : a = b :=
    Option.map_injective (fun _ _ inside => LeafValue.proxies.inj inside) equal
  rcases same with kept | ⟨v,set,given⟩
  · exact Or.inl (proxies_map kept)
  · obtain ⟨source,rfl,rfl⟩ := Option.map_eq_some_iff.mp set
    rw [reads] at given
    exact Or.inr ⟨source,rfl,proxies_map (b := some (.csv (proxiesText source))) given⟩

end SameLeaves

theorem validate_rewritten {parsers : Parsers} (plain : PlainNets parsers) {usizeMax : Nat}
    {p q : PartialConfig} {cfg : Config} (same : ∀ leaf, SameLeaf leaf (leafOf p leaf) (leafOf q leaf))
    (valid : validate parsers usizeMax p = .ok cfg) : validate parsers usizeMax q = .ok cfg := by
  have bound : q.bindAddress = p.bindAddress := sameLeaf_text (fun _ => rfl) (same .bindAddress)
  have backend : q.storageBackend = p.storageBackend :=
    sameLeaf_text (fun _ => rfl) (same .storageBackend)
  have root : storageRoot q.storage = storageRoot p.storage :=
    sameLeaf_text (fun _ => rfl) (same .storageLocalFsRoot)
  have size : Rewritten p.blockSizeBytes q.blockSizeBytes :=
    sameLeaf_toml (fun _ => rfl) (same .blockSizeBytes)
  have drain : Rewritten p.drainTimeoutSecs q.drainTimeoutSecs :=
    sameLeaf_toml (fun _ => rfl) (same .drainTimeoutSecs)
  have vault (field : OidcField) : oidcText q.vaultOidc field = oidcText p.vaultOidc field :=
    sameLeaf_text (fun _ => rfl) (same (.oidc .vault field))
  have admin (field : OidcField) : oidcText q.adminOidc field = oidcText p.adminOidc field :=
    sameLeaf_text (fun _ => rfl) (same (.oidc .admin field))
  have auth : RewrittenAuth (authTable p.auth) (authTable q.auth) := {
    clockSkewSecs := sameLeaf_toml (fun _ => rfl) (same .clockSkewSecs)
    dpopFreshnessSecs := sameLeaf_toml (fun _ => rfl) (same .dpopFreshnessSecs)
    jwksRefreshSecs := sameLeaf_toml (fun _ => rfl) (same .jwksRefreshSecs)
    discoveryRefreshSecs := sameLeaf_toml (fun _ => rfl) (same .discoveryRefreshSecs)
    onDemandRefreshMinIntervalSecs :=
      sameLeaf_toml (fun _ => rfl) (same .onDemandRefreshMinIntervalSecs)
    jtiReplayWindowSecs := sameLeaf_toml (fun _ => rfl) (same .jtiReplayWindowSecs)
    maxReplayEntries := sameLeaf_toml (fun _ => rfl) (same .maxReplayEntries) }
  have proxies : ∀ {nets}, parseTrustedProxies parsers p.trustedProxies = .ok nets →
      parseTrustedProxies parsers q.trustedProxies = .ok nets := by
    intro nets parsed
    rcases sameLeaf_proxies (fun _ => rfl) (same .trustedProxies) with kept | ⟨source,set,given⟩
    · rwa [kept]
    · rw [set] at parsed
      rw [given]
      exact parseTrustedProxies_text plain parsed
  simp only [validate, bind_ok_iff] at valid ⊢
  obtain ⟨address,haddress,number,hnumber,block,hblock,storage,hstorage,nets,hnets,timeout,htimeout,
    vaultCfg,hvault,adminCfg,hadmin,checked,distinct,authCfg,hauth,result⟩ := valid
  refine ⟨address,by rwa [bound],number,parsePositiveU64_rewritten size hnumber,block,hblock,storage,?_,
    nets,proxies hnets,timeout,?_,vaultCfg,parseOidc_congr vault hvault,adminCfg,
    parseOidc_congr admin hadmin,checked,distinct,authCfg,?_,result⟩
  · rwa [backend, parseStorageBackend_congr root]
  · simp only [parseDrainTimeout, bind_ok_iff] at htimeout ⊢
    obtain ⟨found,parsed,given⟩ := htimeout
    exact ⟨found,parsePositiveU64_rewritten drain parsed,given⟩
  · rw [parseAuth_table] at hauth ⊢
    exact parsePresentAuth_rewritten auth hauth

/-- Any keys of a valid configuration may be given by their environment variables,
    whatever the file says about these keys. -/
theorem env_and_file_interchangeable {parsers : Parsers} (plain : PlainNets parsers) {usizeMax : Nat}
    {p : PartialConfig} {cfg : Config} (valid : validate parsers usizeMax p = .ok cfg)
    (moved : Leaf → Prop) (set : ∀ leaf, moved leaf → (leafOf p leaf).isSome)
    {file : PartialConfig} (rest : ∀ leaf, ¬ moved leaf → leafOf file leaf = leafOf p leaf)
    {env : Env} (given : ∀ leaf, moved leaf →
      env.lookup leaf.envKey = (leafOf p leaf).map LeafValue.envText)
    (others : ∀ leaf, ¬ moved leaf → env.lookup leaf.envKey = none) :
    loadFrom parsers usizeMax env file = .ok cfg := by
  refine validate_rewritten plain (fun leaf => ?_) valid
  rw [envOverridesFile_leaf, collectEnv_leaf]
  by_cases chosen : moved leaf
  · obtain ⟨v,found⟩ := Option.isSome_iff_exists.mp (set leaf chosen)
    rw [given leaf chosen, found]
    exact Or.inr ⟨v,rfl,rfl⟩
  · rw [others leaf chosen, rest leaf chosen]
    exact Or.inl rfl

def tenNetText : String := "10.0.0.0/8"

def officeNetText : String := "192.168.1.0/24"

def twoNetParsers : Parsers where
  url := UrlTexts.plainParser
  socketAddr := fun _ => .ok ⟨.v4 0x7f000001, 8443⟩
  ipNet := fun s =>
    if s = tenNetText then .ok ⟨.v4 0x0a000000, 8⟩
    else if s = officeNetText then .ok ⟨.v4 0xc0a80100, 24⟩
    else .error "invalid IP address syntax"

theorem twoNetParsers_cases {entry : String} {net : IpNet}
    (parsed : twoNetParsers.ipNet entry = .ok net) : entry = tenNetText ∨ entry = officeNetText := by
  simp only [twoNetParsers] at parsed
  split at parsed
  · exact Or.inl ‹_›
  · split at parsed
    · exact Or.inr ‹_›
    · cases parsed

theorem twoNetParsers_plain : PlainNets twoNetParsers where
  comma := by
    intro entry net parsed
    rcases twoNetParsers_cases parsed with rfl | rfl <;> decide
  trimmed := by
    intro entry net parsed
    rcases twoNetParsers_cases parsed with rfl | rfl <;> decide

def wholePartial : PartialConfig where
  bindAddress := some "127.0.0.1:8443"
  blockSizeBytes := some (.integer 4096)
  storageBackend := some "local_fs"
  storage := some ⟨some ⟨some "/var/lib/blocks"⟩⟩
  trustedProxies := some (.list [tenNetText, officeNetText])
  drainTimeoutSecs := none
  vaultOidc := some ⟨some "https://vault.test", some "vault"⟩
  adminOidc := some ⟨some "https://admin.test", some "admin"⟩
  auth := some ⟨none, none, none, none, some (.integer 5), none, some (.string "2048")⟩

def movedLeaves : Leaf → Bool
  | .blockSizeBytes | .storageLocalFsRoot | .trustedProxies | .oidc .vault .audience
  | .onDemandRefreshMinIntervalSecs => true
  | _ => false

def movedEnv : Env :=
  (((((∅ : Env).insert "APOK_BLOCK_SIZE_BYTES" "4096").insert "APOK_STORAGE_LOCAL_FS_ROOT"
    "/var/lib/blocks").insert "APOK_TRUSTED_PROXIES" "10.0.0.0/8,192.168.1.0/24").insert
    "APOK_VAULT_OIDC_AUDIENCE" "vault").insert "APOK_AUTH_ON_DEMAND_REFRESH_MIN_INTERVAL_SECS" "5"

/-- What the file says about these keys does not count: it would not be valid. -/
def movedFile : PartialConfig :=
  { wholePartial with
    blockSizeBytes := some (.other "true")
    storage := none
    trustedProxies := some (.csv "nowhere")
    vaultOidc := some ⟨some "https://vault.test", some "admin"⟩
    auth := some ⟨none, none, none, none, some (.integer (-1)), none, some (.string "2048")⟩ }

theorem five_keys_interchanged :
    (validate twoNetParsers (2 ^ 64 - 1) wholePartial).toOption.isSome ∧
      loadFrom twoNetParsers (2 ^ 64 - 1) movedEnv movedFile =
        validate twoNetParsers (2 ^ 64 - 1) wholePartial := by
  have accepted : (validate twoNetParsers (2 ^ 64 - 1) wholePartial).toOption.isSome := by decide
  refine ⟨accepted,?_⟩
  obtain ⟨cfg,found⟩ := Option.isSome_iff_exists.mp accepted
  have valid := toOption_some_iff.mp found
  rw [valid]
  refine env_and_file_interchangeable twoNetParsers_plain valid (fun leaf => movedLeaves leaf = true)
    ?_ ?_ ?_ ?_
  · exact forall_leaves (by decide)
  · exact forall_leaves (by decide)
  · exact forall_leaves (by decide)
  · exact forall_leaves (by decide)

end ConfigSources
