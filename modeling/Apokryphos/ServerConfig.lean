import Apokryphos.MachineWords
import Apokryphos.Outcomes
import Apokryphos.Texts
import Apokryphos.UrlTexts

/-!
The configuration that the server starts from: the partial form collected from
the environment and the TOML file, and `validate`, which turns it into a
`ServerConfig` or names the offending key. Parsing of URLs, socket addresses and
CIDR networks is left to the libraries the source calls, as parameters. The
width of `usize` is a parameter too.
-/
namespace ServerConfig
open MachineWords Outcomes Texts UrlTexts

inductive AudienceTag where
  | vault
  | admin
  deriving DecidableEq, Repr

def AudienceTag.name : AudienceTag → String
  | .vault => "vault"
  | .admin => "admin"

def AudienceTag.asJtiKeyByte : AudienceTag → UInt8
  | .vault => 0x01
  | .admin => 0x02

def AudienceTag.counterpart : AudienceTag → AudienceTag
  | .vault => .admin
  | .admin => .vault

/-- A TOML scalar. `other` stands for the kinds no field accepts, by its text. -/
inductive TomlValue where
  | string (s : String)
  | integer (n : Int64)
  | other (text : String)
  deriving DecidableEq, Repr

inductive IpAddr where
  | v4 (bits : UInt32)
  | v6 (bits : BitVec 128)
  deriving DecidableEq, Repr

structure SocketAddr where
  ip : IpAddr
  port : UInt16
  deriving DecidableEq, Repr

structure IpNet where
  addr : IpAddr
  maskBits : Nat
  deriving DecidableEq, Repr

structure PartialOidc where
  issuerUrl : Option String
  audience : Option String
  deriving DecidableEq, Repr

structure PartialStorageLocalFs where
  root : Option String
  deriving DecidableEq, Repr

structure PartialStorage where
  localFs : Option PartialStorageLocalFs
  deriving DecidableEq, Repr

structure PartialAuth where
  clockSkewSecs : Option TomlValue
  dpopFreshnessSecs : Option TomlValue
  jwksRefreshSecs : Option TomlValue
  discoveryRefreshSecs : Option TomlValue
  onDemandRefreshMinIntervalSecs : Option TomlValue
  jtiReplayWindowSecs : Option TomlValue
  maxReplayEntries : Option TomlValue
  deriving DecidableEq, Repr

inductive TrustedProxiesSource where
  | list (entries : List String)
  | csv (s : String)
  deriving DecidableEq, Repr

structure PartialConfig where
  bindAddress : Option String
  blockSizeBytes : Option TomlValue
  storageBackend : Option String
  storage : Option PartialStorage
  trustedProxies : Option TrustedProxiesSource
  drainTimeoutSecs : Option TomlValue
  vaultOidc : Option PartialOidc
  adminOidc : Option PartialOidc
  auth : Option PartialAuth
  deriving DecidableEq, Repr

structure AuthConfig where
  clockSkewSecs : UInt64
  dpopFreshnessSecs : UInt64
  jwksRefreshSecs : UInt64
  discoveryRefreshSecs : UInt64
  onDemandRefreshMinIntervalSecs : UInt64
  jtiReplayWindowSecs : UInt64
  maxReplayEntries : Nat
  deriving DecidableEq, Repr

def AuthConfig.default : AuthConfig where
  clockSkewSecs := 60
  dpopFreshnessSecs := 30
  jwksRefreshSecs := 3600
  discoveryRefreshSecs := 86400
  onDemandRefreshMinIntervalSecs := 30
  jtiReplayWindowSecs := 30 + 60
  maxReplayEntries := 100000

inductive StorageBackend where
  | none
  | localFs (root : String)
  deriving DecidableEq, Repr

structure OidcAudienceConfig where
  issuerUrl : Url
  audience : String
  deriving DecidableEq, Repr

structure Config where
  bindAddress : SocketAddr
  blockSizeBytes : UInt64
  storageBackend : StorageBackend
  trustedProxies : List IpNet
  vaultOidc : OidcAudienceConfig
  adminOidc : OidcAudienceConfig
  drainTimeoutSecs : UInt64
  auth : AuthConfig
  deriving DecidableEq, Repr

inductive ConfigError where
  | missing (key : String)
  | invalidBindAddress (value source : String)
  | invalidBlockSize (value : String)
  | invalidStorageBackend (value : String)
  | localFsRootMissing
  | localFsRootNotAbsolute (value : String)
  | invalidCidr (entry : String) (position : Nat) (source : String)
  | invalidIssuerUrl (audience value source : String)
  | invalidIssuerUrlScheme (audience value scheme : String)
  | issuerUrlHasComponent (audience value component : String)
  | emptyAudience (audience : String)
  | duplicateAudience (value : String)
  | invalidDrainTimeout (value : String)
  | invalidAuthDurationSecs (key value : String)
  | invalidAuthMaxReplayEntries (value : String)
  | authReplayWindowTooSmall (window freshness skew required : UInt64)
  deriving DecidableEq, Repr

structure Parsers where
  url : UrlParser
  socketAddr : String → Except String SocketAddr
  ipNet : String → Except String IpNet

def defaultDrainTimeoutSecs : UInt64 := 30
def minReplayEntries : Nat := 1024

def parsePositiveU64 (value : Option TomlValue) (invalid : String → ConfigError) :
    Except ConfigError (Option UInt64) :=
  match value with
  | none => .ok none
  | some (.integer n) =>
    if 0 < n.toInt then .ok (some (UInt64.ofNat n.toInt.toNat))
    else .error (invalid (toString n.toInt))
  | some (.string s) =>
    (okOr ((parseU64 s).filter fun n => decide (0 < n.toNat)) (invalid s)).map some
  | some (.other text) => .error (invalid text)

def parseAuthPositiveU64 (key : String) (value : Option TomlValue) :
    Except ConfigError (Option UInt64) :=
  parsePositiveU64 value (.invalidAuthDurationSecs key)

def checkReplayEntries (value : TomlValue) : Except ConfigError UInt64 :=
  match value with
  | .integer n =>
    if (minReplayEntries : Int) ≤ n.toInt then .ok (UInt64.ofNat n.toInt.toNat)
    else .error (.invalidAuthMaxReplayEntries (toString n.toInt))
  | .string s =>
    okOr ((parseU64 s).filter fun n => decide (minReplayEntries ≤ n.toNat))
      (.invalidAuthMaxReplayEntries s)
  | .other text => .error (.invalidAuthMaxReplayEntries text)

/-- The conversion to `usize` is checked: on a 32-bit target a large value is
    refused, not truncated. -/
def parseMaxReplayEntries (usizeMax : Nat) (value : Option TomlValue) :
    Except ConfigError (Option Nat) :=
  match value with
  | none => .ok none
  | some v => do
    let parsed ← checkReplayEntries v
    rejectIf (usizeMax < parsed.toNat) (.invalidAuthMaxReplayEntries (toString parsed))
    return some parsed.toNat

def parsePresentAuth (usizeMax : Nat) (p : PartialAuth) : Except ConfigError AuthConfig := do
  let defaults := AuthConfig.default
  let clockSkewSecs := (← parseAuthPositiveU64 "clock_skew_secs" p.clockSkewSecs).getD
    defaults.clockSkewSecs
  let dpopFreshnessSecs := (← parseAuthPositiveU64 "dpop_freshness_secs" p.dpopFreshnessSecs).getD
    defaults.dpopFreshnessSecs
  let jwksRefreshSecs := (← parseAuthPositiveU64 "jwks_refresh_secs" p.jwksRefreshSecs).getD
    defaults.jwksRefreshSecs
  let discoveryRefreshSecs :=
    (← parseAuthPositiveU64 "discovery_refresh_secs" p.discoveryRefreshSecs).getD
      defaults.discoveryRefreshSecs
  let onDemandRefreshMinIntervalSecs :=
    (← parseAuthPositiveU64 "on_demand_refresh_min_interval_secs"
      p.onDemandRefreshMinIntervalSecs).getD defaults.onDemandRefreshMinIntervalSecs
  let required ← okOr (checkedAdd dpopFreshnessSecs clockSkewSecs)
    (.authReplayWindowTooSmall 0 dpopFreshnessSecs clockSkewSecs u64Max)
  let jtiReplayWindowSecs :=
    (← parseAuthPositiveU64 "jti_replay_window_secs" p.jtiReplayWindowSecs).getD required
  let maxReplayEntries := (← parseMaxReplayEntries usizeMax p.maxReplayEntries).getD
    defaults.maxReplayEntries
  rejectIf (jtiReplayWindowSecs < required)
    (.authReplayWindowTooSmall jtiReplayWindowSecs dpopFreshnessSecs clockSkewSecs required)
  return { clockSkewSecs, dpopFreshnessSecs, jwksRefreshSecs, discoveryRefreshSecs,
           onDemandRefreshMinIntervalSecs, jtiReplayWindowSecs, maxReplayEntries }

def parseAuth (usizeMax : Nat) : Option PartialAuth → Except ConfigError AuthConfig
  | none => .ok AuthConfig.default
  | some p => parsePresentAuth usizeMax p

def parseBindAddress (parsers : Parsers) (value : Option String) :
    Except ConfigError SocketAddr := do
  let v ← okOr value (.missing "bind_address")
  match parsers.socketAddr v with
  | .ok addr => return addr
  | .error source => .error (.invalidBindAddress v source)

def parseStorageBackend (discriminator : Option String) (storageBlock : Option PartialStorage) :
    Except ConfigError StorageBackend := do
  let v ← okOr discriminator (.missing "storage_backend")
  if v = "none" then return .none
  else if v = "local_fs" then
    let root ← okOr ((storageBlock.bind (·.localFs)).bind (·.root)) .localFsRootMissing
    rejectIf (root.toList.head? ≠ some '/') (.localFsRootNotAbsolute root)
    return .localFs root
  else .error (.invalidStorageBackend v)

def proxyEntries : TrustedProxiesSource → List String
  | .list entries => entries
  | .csv s =>
    if s.isEmpty then []
    else (splitOn ',' s.toList).map fun entry => String.ofList (trimList entry)

/-- What the library says about the empty text. The source unwraps an error here. -/
def emptyNetError (parsers : Parsers) : String :=
  match parsers.ipNet "" with
  | .error source => source
  | .ok _ => ""

def parseNets (parsers : Parsers) : Nat → List String → Except ConfigError (List IpNet)
  | _, [] => .ok []
  | position, entry :: rest =>
    if entry.isEmpty then .error (.invalidCidr entry position (emptyNetError parsers))
    else
      match parsers.ipNet entry with
      | .error source => .error (.invalidCidr entry position source)
      | .ok net => do
        let nets ← parseNets parsers (position + 1) rest
        return net :: nets

def parseTrustedProxies (parsers : Parsers) (value : Option TrustedProxiesSource) :
    Except ConfigError (List IpNet) := do
  let source ← okOr value (.missing "trusted_proxies")
  parseNets parsers 0 (proxyEntries source)

def parseDrainTimeout (value : Option TomlValue) : Except ConfigError UInt64 := do
  return (← parsePositiveU64 value .invalidDrainTimeout).getD defaultDrainTimeoutSecs

inductive OidcField where
  | issuerUrl
  | audience

def oidcMissingKey : AudienceTag → OidcField → String
  | .vault, .issuerUrl => "vault_oidc.issuer_url"
  | .vault, .audience => "vault_oidc.audience"
  | .admin, .issuerUrl => "admin_oidc.issuer_url"
  | .admin, .audience => "admin_oidc.audience"

def OidcAudienceConfig.new (parsers : Parsers) (tag : AudienceTag) (issuerUrl audience : String) :
    Except ConfigError OidcAudienceConfig := do
  let parsed ← match parsers.url issuerUrl with
    | .ok url => pure url
    | .error source => .error (.invalidIssuerUrl tag.name issuerUrl source)
  rejectIf (parsed.scheme ≠ "https") (.invalidIssuerUrlScheme tag.name issuerUrl parsed.scheme)
  rejectIf (parsed.query.isSome) (.issuerUrlHasComponent tag.name issuerUrl "query")
  rejectIf (parsed.fragment.isSome) (.issuerUrlHasComponent tag.name issuerUrl "fragment")
  rejectIf (audience = "") (.emptyAudience tag.name)
  return { issuerUrl := parsed, audience }

def parseOidc (parsers : Parsers) (tag : AudienceTag) (value : Option PartialOidc) :
    Except ConfigError OidcAudienceConfig := do
  let o ← okOr value (.missing (oidcMissingKey tag .issuerUrl))
  let issuer ← okOr o.issuerUrl (.missing (oidcMissingKey tag .issuerUrl))
  let audience ← okOr o.audience (.missing (oidcMissingKey tag .audience))
  OidcAudienceConfig.new parsers tag issuer audience

def validate (parsers : Parsers) (usizeMax : Nat) (p : PartialConfig) :
    Except ConfigError Config := do
  let bindAddress ← parseBindAddress parsers p.bindAddress
  let blockSizeBytes ← okOr (← parsePositiveU64 p.blockSizeBytes .invalidBlockSize)
    (.missing "block_size_bytes")
  let storageBackend ← parseStorageBackend p.storageBackend p.storage
  let trustedProxies ← parseTrustedProxies parsers p.trustedProxies
  let drainTimeoutSecs ← parseDrainTimeout p.drainTimeoutSecs
  let vaultOidc ← parseOidc parsers .vault p.vaultOidc
  let adminOidc ← parseOidc parsers .admin p.adminOidc
  rejectIf (vaultOidc.audience = adminOidc.audience) (.duplicateAudience vaultOidc.audience)
  let auth ← parseAuth usizeMax p.auth
  return { bindAddress, blockSizeBytes, storageBackend, trustedProxies, vaultOidc, adminOidc,
           drainTimeoutSecs, auth }

structure Accepted (cfg : AuthConfig) : Prop where
  skew_pos : 0 < cfg.clockSkewSecs.toNat
  freshness_pos : 0 < cfg.dpopFreshnessSecs.toNat
  jwks_pos : 0 < cfg.jwksRefreshSecs.toNat
  discovery_pos : 0 < cfg.discoveryRefreshSecs.toNat
  interval_pos : 0 < cfg.onDemandRefreshMinIntervalSecs.toNat
  window_covers : cfg.dpopFreshnessSecs.toNat + cfg.clockSkewSecs.toNat ≤
    cfg.jtiReplayWindowSecs.toNat
  entries_min : minReplayEntries ≤ cfg.maxReplayEntries

theorem default_accepted : Accepted AuthConfig.default := by
  constructor <;> decide

theorem parsePositiveU64_pos {value : Option TomlValue} {invalid : String → ConfigError}
    {found : Option UInt64} (parsed : parsePositiveU64 value invalid = .ok found)
    {fallback : UInt64} (positive : 0 < fallback.toNat) :
    0 < (found.getD fallback).toNat := by
  cases value with
  | none =>
    cases parsed
    exact positive
  | some v =>
    cases v with
    | string s =>
      simp only [parsePositiveU64] at parsed
      cases read : (parseU64 s).filter fun n => decide (0 < n.toNat) with
      | none => simp [read, okOr, Except.map] at parsed
      | some n =>
        simp only [read, okOr, Except.map, Except.ok.injEq] at parsed
        subst parsed
        simpa using (Option.filter_eq_some_iff.mp read).2
    | integer n =>
      simp only [parsePositiveU64] at parsed
      split at parsed
      · rename_i above
        cases parsed
        have bound := n.toInt_lt
        simp only [Option.getD_some, UInt64.toNat_ofNat']
        omega
      · cases parsed
    | other text => cases parsed

theorem parseAuthPositiveU64_pos {key : String} {value : Option TomlValue}
    {found : Option UInt64} (parsed : parseAuthPositiveU64 key value = .ok found)
    {fallback : UInt64} (positive : 0 < fallback.toNat) :
    0 < (found.getD fallback).toNat :=
  parsePositiveU64_pos parsed positive

theorem checkReplayEntries_min {value : TomlValue} {n : UInt64}
    (parsed : checkReplayEntries value = .ok n) : minReplayEntries ≤ n.toNat := by
  cases value with
  | string s =>
    simp only [checkReplayEntries, okOr_ok_iff] at parsed
    simpa using (Option.filter_eq_some_iff.mp parsed).2
  | integer m =>
    simp only [checkReplayEntries] at parsed
    split at parsed
    · rename_i above
      cases parsed
      have bound := m.toInt_lt
      simp only [minReplayEntries, UInt64.toNat_ofNat'] at above ⊢
      omega
    · cases parsed
  | other text => cases parsed

theorem parseMaxReplayEntries_min {usizeMax : Nat} {value : Option TomlValue} {found : Option Nat}
    (parsed : parseMaxReplayEntries usizeMax value = .ok found) :
    minReplayEntries ≤ found.getD AuthConfig.default.maxReplayEntries := by
  cases value with
  | none =>
    cases parsed
    decide
  | some v =>
    simp only [parseMaxReplayEntries, bind_ok_iff, rejectIf_ok_iff, pure_ok_iff] at parsed
    obtain ⟨n,checked,_,_,rfl⟩ := parsed
    exact checkReplayEntries_min checked

theorem parsePresentAuth_accepted {usizeMax : Nat} {p : PartialAuth} {cfg : AuthConfig}
    (parsed : parsePresentAuth usizeMax p = .ok cfg) : Accepted cfg := by
  simp only [parsePresentAuth, bind_ok_iff, okOr_ok_iff, rejectIf_ok_iff, pure_ok_iff] at parsed
  obtain ⟨skew,hskew,fresh,hfresh,jwks,hjwks,disc,hdisc,interval,hinterval,required,sum,window,
    hwindow,entries,hentries,_,covers,rfl⟩ := parsed
  have total := checkedAdd_some sum
  have covered : required.toNat ≤ (window.getD required).toNat := by
    rw [UInt64.lt_iff_toNat_lt] at covers
    omega
  exact {
    skew_pos := parseAuthPositiveU64_pos hskew (by decide)
    freshness_pos := parseAuthPositiveU64_pos hfresh (by decide)
    jwks_pos := parseAuthPositiveU64_pos hjwks (by decide)
    discovery_pos := parseAuthPositiveU64_pos hdisc (by decide)
    interval_pos := parseAuthPositiveU64_pos hinterval (by decide)
    window_covers := by rw [← total]; exact covered
    entries_min := parseMaxReplayEntries_min hentries }

theorem parseAuth_accepted {usizeMax : Nat} {part : Option PartialAuth} {cfg : AuthConfig}
    (parsed : parseAuth usizeMax part = .ok cfg) : Accepted cfg := by
  cases part with
  | none =>
    cases parsed
    exact default_accepted
  | some p => exact parsePresentAuth_accepted parsed

theorem Accepted.sum_toNat {cfg : AuthConfig} (accepted : Accepted cfg) :
    (cfg.dpopFreshnessSecs + cfg.clockSkewSecs).toNat =
      cfg.dpopFreshnessSecs.toNat + cfg.clockSkewSecs.toNat := by
  apply add_toNat
  have covers := accepted.window_covers
  have bound := word_lt cfg.jtiReplayWindowSecs
  omega

theorem validate_ok {parsers : Parsers} {usizeMax : Nat} {p : PartialConfig} {cfg : Config}
    (valid : validate parsers usizeMax p = .ok cfg) :
    parseAuth usizeMax p.auth = .ok cfg.auth ∧
      cfg.vaultOidc.audience ≠ cfg.adminOidc.audience := by
  simp only [validate, bind_ok_iff, okOr_ok_iff, rejectIf_ok_iff, pure_ok_iff] at valid
  obtain ⟨_,_,_,_,_,_,_,_,_,_,_,_,_,_,_,_,_,distinct,_,auth,rfl⟩ := valid
  exact ⟨auth,distinct⟩

theorem validate_accepted {parsers : Parsers} {usizeMax : Nat} {p : PartialConfig} {cfg : Config}
    (valid : validate parsers usizeMax p = .ok cfg) : Accepted cfg.auth :=
  parseAuth_accepted (validate_ok valid).1

end ServerConfig
