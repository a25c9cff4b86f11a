import Apokryphos.ConfigSources
import Apokryphos.Digests

/-!
How the configuration is read when the process starts: the environment as the
operating system hands it over, the optional file, and the optional certificate.
Texts of the system need not be UTF-8. Reading a file and parsing TOML are left to
the system and the library.
-/
namespace ConfigLoading
open ConfigSources Digests Outcomes ServerConfig

/-- A text of the operating system. The bytes of `other` are not UTF-8. -/
inductive OsString where
  | utf8 (text : String)
  | other (bytes : Bytes)
  deriving DecidableEq

def OsString.isEmpty : OsString → Bool
  | .utf8 text => text.isEmpty
  | .other _ => false

abbrev Vars := List (OsString × OsString)

inductive LoadError where
  | invalid (source : ConfigError)
  | fileRead (path source : String)
  | tomlParse (source : String)
  | nonUnicodeEnv (key : String)
  deriving DecidableEq

structure ConfigFiles where
  readToString : String → Except String String
  read : OsString → Except String Bytes
  fromToml : String → Except String PartialConfig

/-- A key that is not UTF-8 cannot have the prefix. -/
def apokKey : OsString → Option String
  | .utf8 key => if "APOK_".toList.isPrefixOf key.toList then some key else none
  | .other _ => none

def collectFrom : Env → Vars → Except LoadError Env
  | map, [] => .ok map
  | map, (keyOs, valOs) :: rest =>
    match apokKey keyOs with
    | none => collectFrom map rest
    | some key =>
      match valOs with
      | .utf8 value => collectFrom (map.insert key value) rest
      | .other _ => .error (.nonUnicodeEnv key)

def collectApokEnv (vars : Vars) : Except LoadError Env := collectFrom ∅ vars

def emptyPartial : PartialConfig := ⟨none, none, none, none, none, none, none, none, none⟩

def loadOptionalFile (files : ConfigFiles) : Option String → Except LoadError PartialConfig
  | none => .ok emptyPartial
  | some path =>
    match files.readToString path with
    | .error source => .error (.fileRead path source)
    | .ok content => (files.fromToml content).mapError .tomlParse

def configPath (env : Env) : Option String :=
  (env.lookup "APOK_CONFIG_PATH").filter fun s => !s.isEmpty

section Load
variable (files : ConfigFiles) (parsers : Parsers) (usizeMax : Nat)

def loadEnv (env : Env) : Except LoadError Config := do
  let filePartial ← loadOptionalFile files (configPath env)
  (loadFrom parsers usizeMax env filePartial).mapError .invalid

def load (vars : Vars) : Except LoadError Config := do
  let envMap ← collectApokEnv vars
  loadEnv files parsers usizeMax envMap

end Load

/-- The system looks for the first entry of the name. -/
def varOs (vars : Vars) (name : String) : Option OsString :=
  (vars.find? fun entry => entry.1 = .utf8 name).map Prod.snd

structure ExtraCaError where
  path : OsString
  source : String
  deriving DecidableEq

def loadOptionalPem (files : ConfigFiles) (vars : Vars) : Except ExtraCaError (Option (OsString × Bytes)) :=
  match varOs vars "APOK_EXTRA_CA_CERT_FILE" with
  | none => .ok none
  | some value =>
    if value.isEmpty then .ok none
    else match files.read value with
      | .error source => .error ⟨value, source⟩
      | .ok bytes => .ok (some (value, bytes))

def settings (vars : Vars) : List (String × OsString) :=
  vars.filterMap fun entry => (apokKey entry.1).map fun key => (key, entry.2)

/-- Where a key is set twice, the last entry counts. -/
def lastSetting (vars : Vars) (key : String) : Option String :=
  ((settings vars).reverse.find? fun setting => setting.1 = key).bind fun setting =>
    match setting.2 with
    | .utf8 text => some text
    | .other _ => none

def Readable (vars : Vars) : Prop := ∀ setting ∈ settings vars, ∃ text, setting.2 = .utf8 text

section Collecting
variable {map env : Env} {vars rest : Vars} {key : String}

theorem settings_other {keyOs value : OsString} (foreign : apokKey keyOs = none) :
    settings ((keyOs, value) :: rest) = settings rest := by
  simp only [settings, List.filterMap_cons, foreign, Option.map_none]

theorem settings_own {keyOs value : OsString} (own : apokKey keyOs = some key) :
    settings ((keyOs, value) :: rest) = (key, value) :: settings rest := by
  simp only [settings, List.filterMap_cons, own, Option.map_some]

theorem lastSetting_own {keyOs : OsString} {text : String} (own : apokKey keyOs = some key)
    (readable : Readable rest) (name : String) :
    lastSetting ((keyOs, .utf8 text) :: rest) name =
      (lastSetting rest name).or (if name = key then some text else none) := by
  unfold lastSetting
  rw [settings_own own, List.reverse_cons, List.find?_append]
  cases found : (settings rest).reverse.find? fun setting => setting.1 = name with
  | some setting =>
    have member := List.mem_reverse.mp (List.mem_of_find?_eq_some found)
    obtain ⟨value,same⟩ := readable setting member
    simp [same]
  | none =>
    by_cases named : name = key
    · simp [named]
    · simp [named, Ne.symm named]

theorem collectFrom_ok (collected : collectFrom map vars = .ok env) :
    Readable vars ∧ ∀ name, env.lookup name = (lastSetting vars name).or (map.lookup name) := by
  induction vars generalizing map with
  | nil =>
    cases collected
    exact ⟨nofun,fun _ => rfl⟩
  | cons entry rest ih =>
    obtain ⟨keyOs,valOs⟩ := entry
    simp only [collectFrom] at collected
    cases own : apokKey keyOs with
    | none =>
      rw [own] at collected
      have inside := ih collected
      unfold Readable lastSetting
      rw [settings_other own]
      exact inside
    | some key =>
      rw [own] at collected
      cases valOs with
      | other bytes => cases collected
      | utf8 text =>
        obtain ⟨readable,known⟩ := ih collected
        refine ⟨?_,fun name => ?_⟩
        · unfold Readable
          rw [settings_own own]
          exact List.forall_mem_cons.mpr ⟨⟨text,rfl⟩,readable⟩
        · rw [known name, lastSetting_own own readable, Option.or_assoc]
          congr 1
          by_cases named : name = key
          · subst named
            rw [AList.lookup_insert, if_pos rfl, Option.some_or]
          · rw [AList.lookup_insert_ne named, if_neg named, Option.none_or]

theorem collectFrom_error {failure : LoadError} (failed : collectFrom map vars = .error failure) :
    ∃ key bytes, (key, .other bytes) ∈ settings vars ∧ failure = .nonUnicodeEnv key := by
  induction vars generalizing map with
  | nil => cases failed
  | cons entry rest ih =>
    obtain ⟨keyOs,valOs⟩ := entry
    simp only [collectFrom] at failed
    cases own : apokKey keyOs with
    | none =>
      rw [own] at failed
      rw [settings_other own]
      exact ih failed
    | some key =>
      rw [own] at failed
      rw [settings_own own]
      cases valOs with
      | other bytes =>
        cases failed
        exact ⟨key,bytes,List.mem_cons_self,rfl⟩
      | utf8 text =>
        obtain ⟨name,bytes,member,same⟩ := ih failed
        exact ⟨name,bytes,List.mem_cons_of_mem _ member,same⟩

end Collecting

def consulted : List String := "APOK_CONFIG_PATH" :: allLeaves.map Leaf.envKey

theorem collectEnv_congr {env other : Env}
    (same : ∀ name ∈ consulted, other.lookup name = env.lookup name) :
    collectEnv other = collectEnv env := by
  have fields : authFields other = authFields env := by
    simp (disch := decide) only [authFields, tomlString, same]
  have known : authKeys.any (fun key => (other.lookup key).isSome) =
      authKeys.any fun key => (env.lookup key).isSome := by
    simp (disch := decide) only [authKeys, List.any_cons, List.any_nil, same]
  have auth : collectAuth other = collectAuth env := by
    simp only [collectAuth, known, fields]
  simp (disch := decide) only [collectEnv, collectStorage, collectVault, collectAdmin, collectOidc, tomlString,
    auth, same]

section Determined
variable (files : ConfigFiles) (parsers : Parsers) (usizeMax : Nat)

theorem loadEnv_congr {env other : Env} (same : ∀ name ∈ consulted, other.lookup name = env.lookup name) :
    loadEnv files parsers usizeMax other = loadEnv files parsers usizeMax env := by
  have path : configPath other = configPath env := by
    simp only [configPath, same _ List.mem_cons_self]
  simp only [loadEnv, loadFrom, path, collectEnv_congr same]

/-- What a start reads. A setting that is not UTF-8 is refused, whatever its key, and
    the error names a key that has one. Otherwise only the last setting of every
    consulted variable counts: neither the order of the keys nor any other variable
    does, be it with the prefix of the server or not UTF-8 at all. -/
theorem load_determined (vars : Vars) :
    (∃ key bytes, (key, .other bytes) ∈ settings vars ∧
      load files parsers usizeMax vars = .error (.nonUnicodeEnv key)) ∨
    (Readable vars ∧ (∃ env : Env, ∀ name, env.lookup name = lastSetting vars name) ∧
      ∀ env : Env, (∀ name ∈ consulted, env.lookup name = lastSetting vars name) →
        load files parsers usizeMax vars = loadEnv files parsers usizeMax env) := by
  cases collected : collectApokEnv vars with
  | error failure =>
    obtain ⟨key,bytes,member,rfl⟩ := collectFrom_error collected
    refine .inl ⟨key,bytes,member,?_⟩
    simp only [load, collected]
    rfl
  | ok known =>
    obtain ⟨readable,last⟩ := collectFrom_ok collected
    have every (name : String) : known.lookup name = lastSetting vars name := by
      rw [last name, AList.lookup_empty, Option.or_none]
    refine .inr ⟨readable,⟨known,every⟩,fun env given => ?_⟩
    have loaded : load files parsers usizeMax vars = loadEnv files parsers usizeMax known := by
      simp only [load, collected]
      rfl
    rw [loaded]
    exact loadEnv_congr files parsers usizeMax fun name member => (every name).trans (given name member).symm

end Determined

end ConfigLoading
