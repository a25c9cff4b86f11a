import Apokryphos.ProofValidation

/-!
One proof, presented any number of times to one audience of a running process.
The process takes validations and maintenance ticks one after another, at
instants that never go back, and both of its clocks advance together. A proof
that was accepted is kept in the store for the replay window, counted from its
acceptance. It stays fresh for up to the freshness and twice the skew, because
it may be dated the skew ahead when it is accepted, and the window that the
configuration asks for covers the skew only once.
-/
namespace ProofReplay
open Digests MachineWords OidcContexts Outcomes ProofValidation ReplayStore ServerConfig SigningKeys StepRuns
open TokenValidation UrlTexts

structure Presentation where
  rawProof : String
  requestMethod : String
  effectiveUri : Url
  accessToken : AccessToken
  rawToken : String
  tag : AudienceTag
  deriving DecidableEq

/-- The libraries, and the wall-clock second at which the monotonic clock was
    zero. -/
structure Environment where
  jose : Jose
  parseUrl : UrlParser
  epoch : Nat

structure Process where
  time : Instant
  store : JtiReplayStore

inductive Call where
  | present (p : Presentation) (ctx : OidcContext) (instant : Instant)
  | tick (now : Instant)

def Call.time : Call → Instant
  | .present _ _ instant => instant
  | .tick now => now

def wallSecs (env : Environment) (instant : Instant) : UInt64 :=
  UInt64.ofNat (env.epoch + instant / nanosPerSec)

/-- Time does not go back, and both clocks can still show it. -/
def Timely (env : Environment) (s : Process) (c : Call) : Prop :=
  s.time ≤ c.time ∧ env.epoch * nanosPerSec + c.time < endOfTime

def Addressed (s : Process) : Call → Prop
  | .present p ctx _ => ctx.tag = p.tag ∧ ctx.authConfig = s.store.config
  | .tick _ => True

instance (env : Environment) (s : Process) (c : Call) : Decidable (Timely env s c) :=
  inferInstanceAs (Decidable (_ ∧ _))

instance (s : Process) : (c : Call) → Decidable (Addressed s c)
  | .present _ _ _ => inferInstanceAs (Decidable (_ ∧ _))
  | .tick _ => isTrue trivial

def attempt (env : Environment) (p : Presentation) (ctx : OidcContext) (instant : Instant)
    (store : JtiReplayStore) : Except AuthFailure DpopProof × JtiReplayStore :=
  validateProof env.jose env.parseUrl p.rawProof p.requestMethod p.effectiveUri p.accessToken
    p.rawToken ctx (wallSecs env instant) instant store

def perform (env : Environment) (store : JtiReplayStore) : Call → JtiReplayStore
  | .present p ctx instant => (attempt env p ctx instant store).2
  | .tick now => maintenanceTick store now

def step (env : Environment) (s : Process) (c : Call) : Option Process :=
  if Timely env s c ∧ Addressed s c then some ⟨c.time, perform env s.store c⟩ else none

def acceptance (env : Environment) (p : Presentation) (s : Process) : Call → Option Instant
  | .present q ctx instant =>
    if q = p ∧ (attempt env q ctx instant s.store).1.toOption.isSome then some instant else none
  | .tick _ => none

def AtMostOnce (cfg : AuthConfig) : Prop :=
  ∀ (env : Environment) (start : Instant) (calls : List Call) (s : Process),
    run (step env) ⟨start, JtiReplayStore.new cfg⟩ calls = some s → ∀ p : Presentation,
      (events (step env) (acceptance env p) ⟨start, JtiReplayStore.new cfg⟩ calls).length ≤ 1

theorem step_some {env : Environment} {s t : Process} {c : Call} (taken : step env s c = some t) :
    Timely env s c ∧ Addressed s c ∧ t = ⟨c.time, perform env s.store c⟩ := by
  unfold step at taken
  split at taken
  · rename_i allowed
    cases taken
    exact ⟨allowed.1,allowed.2,rfl⟩
  · cases taken

theorem acceptance_some {env : Environment} {p : Presentation} {s : Process} {c : Call}
    {instant : Instant} (accepted : acceptance env p s c = some instant) :
    ∃ ctx proof store, c = .present p ctx instant ∧
      attempt env p ctx instant s.store = (.ok proof, store) := by
  cases c with
  | tick now => cases accepted
  | present q ctx at_ =>
    simp only [acceptance] at accepted
    split at accepted
    · rename_i both
      obtain ⟨rfl,succeeds⟩ := both
      cases accepted
      cases outcome : attempt env q ctx instant s.store with
      | mk result store =>
        rw [outcome] at succeeds
        cases result with
        | error failure => cases succeeds
        | ok proof => exact ⟨ctx,proof,store,rfl,outcome⟩
    · cases accepted

theorem wallSecs_toNat {env : Environment} {instant : Instant}
    (shown : env.epoch * nanosPerSec + instant < endOfTime) :
    (wallSecs env instant).toNat = env.epoch + instant / nanosPerSec := by
  unfold wallSecs
  rw [UInt64.toNat_ofNat']
  apply Nat.mod_eq_of_lt
  simp only [endOfTime, nanosPerSec] at shown ⊢
  omega

theorem attempt_store (env : Environment) (p : Presentation) (ctx : OidcContext) (instant : Instant)
    (store : JtiReplayStore) :
    (attempt env p ctx instant store).2 = store ∨
      ∃ key deadline outcome,
        tryInsert store key deadline = (outcome, (attempt env p ctx instant store).2) := by
  cases outcome : attempt env p ctx instant store with
  | mk result store' => exact validateProof_store outcome

theorem perform_sound {env : Environment} {store : JtiReplayStore} (sound : Sound store) (c : Call) :
    Sound (perform env store c) := by
  cases c with
  | tick now => exact maintenanceTick_sound sound now
  | present p ctx instant =>
    simp only [perform]
    rcases attempt_store env p ctx instant store with same | ⟨key,deadline,outcome,inserted⟩
    · rwa [same]
    · exact tryInsert_sound sound inserted

theorem perform_config (env : Environment) (store : JtiReplayStore) (c : Call) :
    (perform env store c).config = store.config := by
  cases c with
  | tick now => exact maintenanceTick_config store now
  | present p ctx instant =>
    simp only [perform]
    rcases attempt_store env p ctx instant store with same | ⟨key,deadline,outcome,inserted⟩
    · rw [same]
    · exact tryInsert_config inserted

theorem perform_keeps {env : Environment} {store : JtiReplayStore} (sound : Sound store) {c : Call}
    {key : JtiKey} {deadline : Instant} (present : store.entries.lookup key = some deadline) :
    (perform env store c).entries.lookup key = some deadline ∨ deadline ≤ c.time := by
  cases c with
  | tick now => exact maintenanceTick_keeps sound present
  | present p ctx instant =>
    left
    simp only [perform]
    rcases attempt_store env p ctx instant store with same | ⟨other,d,outcome,inserted⟩
    · rwa [same]
    · exact tryInsert_keeps inserted present

/-- The presentation was accepted at `instant`: its key is held until the
    deadline counted from there, and its date is at most the skew ahead of it. -/
def Spent (env : Environment) (cfg : AuthConfig) (p : Presentation) (instant : Instant)
    (s : Process) : Prop :=
  ∃ (proof : DpopProof) (jwk : RawJwk), Carries env.jose p.rawProof proof.alg jwk proof.claims ∧
    proof.iat.toNat ≤ env.epoch + instant / nanosPerSec + cfg.clockSkewSecs.toNat ∧
    (s.store.entries.lookup (JtiKey.new p.tag.asJtiKeyByte proof.jti) =
        some (instant + cfg.jtiReplayWindowSecs.toNat * nanosPerSec) ∨
      instant + cfg.jtiReplayWindowSecs.toNat * nanosPerSec ≤ s.time)

structure Once (env : Environment) (cfg : AuthConfig) (p : Presentation) (accepted : List Instant)
    (s : Process) : Prop where
  sound : Sound s.store
  config : s.store.config = cfg
  history : accepted = [] ∨ ∃ instant, accepted = [instant] ∧ Spent env cfg p instant s

theorem spent_kept {env : Environment} {cfg : AuthConfig} {p : Presentation} {instant : Instant}
    {s t : Process} {c : Call} (sound : Sound s.store) (spent : Spent env cfg p instant s)
    (taken : step env s c = some t) : Spent env cfg p instant t := by
  obtain ⟨proof,jwk,carries,dated,held⟩ := spent
  obtain ⟨⟨later,_⟩,_,rfl⟩ := step_some taken
  refine ⟨proof,jwk,carries,dated,?_⟩
  rcases held with present | past
  · exact perform_keeps sound present
  · exact Or.inr (Nat.le_trans past later)

theorem accepted_facts {env : Environment} {p : Presentation} {s t : Process} {c : Call}
    {instant : Instant} (valid : Accepted s.store.config)
    (accepted : acceptance env p s c = some instant) (taken : step env s c = some t) :
    ∃ (proof : DpopProof) (jwk : RawJwk), Carries env.jose p.rawProof proof.alg jwk proof.claims ∧
      s.time ≤ instant ∧
      proof.iat.toNat ≤ env.epoch + instant / nanosPerSec + s.store.config.clockSkewSecs.toNat ∧
      env.epoch + instant / nanosPerSec ≤ proof.iat.toNat +
        s.store.config.dpopFreshnessSecs.toNat + s.store.config.clockSkewSecs.toNat ∧
      instant + s.store.config.jtiReplayWindowSecs.toNat * nanosPerSec < endOfTime ∧
      tryInsert s.store (JtiKey.new p.tag.asJtiKeyByte proof.jti)
        (instant + s.store.config.jtiReplayWindowSecs.toNat * nanosPerSec) = (.ok (), t.store) := by
  obtain ⟨ctx,proof,store,rfl,outcome⟩ := acceptance_some accepted
  obtain ⟨⟨later,shown⟩,⟨tag,config⟩,rfl⟩ := step_some taken
  obtain ⟨facts,deadline,fits,inserted⟩ := validateProof_ok outcome
  obtain ⟨jwk,_,carries⟩ := facts.carries
  obtain ⟨same,bound⟩ := checkedAddSecs_some fits
  have fresh := facts.fresh
  rw [config, inWindow_iff valid, @wallSecs_toNat env instant shown] at fresh
  rw [config] at same
  subst same
  have stored : (perform env s.store (.present p ctx instant)) = store := by
    simp only [perform, outcome]
  refine ⟨proof,jwk,carries,later,fresh.1,fresh.2,bound,?_⟩
  dsimp only
  rw [stored, ← tag]
  exact inserted

theorem spent_at_acceptance {env : Environment} {p : Presentation} {s t : Process} {c : Call}
    {instant : Instant} (valid : Accepted s.store.config)
    (accepted : acceptance env p s c = some instant) (taken : step env s c = some t) :
    Spent env s.store.config p instant t := by
  obtain ⟨proof,jwk,carries,_,dated,_,_,inserted⟩ := accepted_facts valid accepted taken
  exact ⟨proof,jwk,carries,dated,Or.inl (tryInsert_lookup inserted)⟩

theorem window_bounds {epoch first second iat skew freshness window : Nat}
    (dated : iat ≤ epoch + first / nanosPerSec + skew)
    (fresh : epoch + second / nanosPerSec ≤ iat + freshness + skew)
    (past : first + window * nanosPerSec ≤ second)
    (fits : second + window * nanosPerSec < endOfTime) :
    window ≤ freshness + 2 * skew ∧ window < 2 ^ 62 := by
  change second + window * nanosPerSec < 2 ^ 63 * nanosPerSec at fits
  simp only [nanosPerSec] at dated fresh past fits
  omega

/-- A second acceptance needs a configuration whose window ends while the proof
    is fresh, and time enough for a second window. -/
theorem accepted_again {env : Environment} {p : Presentation} {s t : Process} {c : Call}
    {first second : Instant} (valid : Accepted s.store.config)
    (spent : Spent env s.store.config p first s) (accepted : acceptance env p s c = some second)
    (taken : step env s c = some t) :
    s.store.config.jtiReplayWindowSecs.toNat ≤
        s.store.config.dpopFreshnessSecs.toNat + 2 * s.store.config.clockSkewSecs.toNat ∧
      s.store.config.jtiReplayWindowSecs.toNat < 2 ^ 62 := by
  obtain ⟨proof,jwk,carries,later,_,fresh,fits,inserted⟩ := accepted_facts valid accepted taken
  obtain ⟨earlier,jwk',carries',dated,held⟩ := spent
  have same := carries_unique carries carries'
  simp only [DpopProof.claims, DpopClaims.mk.injEq, Option.some.injEq] at same
  obtain ⟨_,_,iat,jti,_⟩ := same
  have absent := (tryInsert_ok_iff.mp inserted).1
  have past : first + s.store.config.jtiReplayWindowSecs.toNat * nanosPerSec ≤ s.time := by
    rcases held with present | past
    · rw [← jti, AList.lookup_eq_none.mpr absent] at present
      cases present
    · exact past
  rw [← iat] at dated
  exact window_bounds dated fresh (Nat.le_trans past later) fits

/-- The window outlives the freshness of every proof, or is so long that the
    clock ends before a second one. -/
def Covers (cfg : AuthConfig) : Prop :=
  cfg.dpopFreshnessSecs.toNat + 2 * cfg.clockSkewSecs.toNat < cfg.jtiReplayWindowSecs.toNat ∨
    2 ^ 62 ≤ cfg.jtiReplayWindowSecs.toNat

instance (cfg : AuthConfig) : Decidable (Covers cfg) := inferInstanceAs (Decidable (_ ∨ _))

theorem step_once {env : Environment} {cfg : AuthConfig} {p : Presentation}
    {accepted : List Instant} {s t : Process} {c : Call} (valid : Accepted cfg)
    (covers : Covers cfg) (once : Once env cfg p accepted s) (taken : step env s c = some t) :
    Once env cfg p (accepted ++ (acceptance env p s c).toList) t := by
  obtain ⟨sound,rfl,history⟩ := once
  obtain ⟨_,_,same⟩ := step_some taken
  have config : t.store.config = s.store.config := by
    rw [same]
    exact perform_config env s.store c
  refine ⟨by rw [same]; exact perform_sound sound c,config,?_⟩
  cases outcome : acceptance env p s c with
  | none =>
    rcases history with never | ⟨instant,once,spent⟩
    · exact Or.inl (by simp [never])
    · exact Or.inr ⟨instant,by simp [once],spent_kept sound spent taken⟩
  | some second =>
    rcases history with never | ⟨first,once,spent⟩
    · exact Or.inr ⟨second,by simp [never],spent_at_acceptance valid outcome taken⟩
    · have again := accepted_again valid spent outcome taken
      unfold Covers at covers
      omega

theorem run_once {env : Environment} {cfg : AuthConfig} {start : Instant} {calls : List Call}
    {s : Process} (valid : Accepted cfg) (covers : Covers cfg)
    (taken : run (step env) ⟨start, JtiReplayStore.new cfg⟩ calls = some s) (p : Presentation) :
    Once env cfg p
      (events (step env) (acceptance env p) ⟨start, JtiReplayStore.new cfg⟩ calls) s := by
  refine history_invariant (fun front s => Once env cfg p
    (events (step env) (acceptance env p) ⟨start, JtiReplayStore.new cfg⟩ front) s) ?_ ?_ taken
  · exact ⟨new_sound cfg,rfl,Or.inl rfl⟩
  · intro front s c t before once next
    rw [events_snoc before next]
    exact step_once valid covers once next

theorem covered_once {cfg : AuthConfig} (valid : Accepted cfg) (covers : Covers cfg) :
    AtMostOnce cfg := by
  intro env start calls s taken p
  rcases (run_once valid covers taken p).history with never | ⟨instant,once,_⟩
  · simp [never]
  · simp [once]

theorem accepted_step {env : Environment} {p : Presentation} {ctx : OidcContext} {s : Process}
    {instant : Instant} {proof : DpopProof} {store : JtiReplayStore}
    (timely : Timely env s (.present p ctx instant))
    (addressed : Addressed s (.present p ctx instant))
    (outcome : attempt env p ctx instant s.store = (.ok proof, store)) :
    step env s (.present p ctx instant) = some ⟨instant, store⟩ ∧
      acceptance env p s (.present p ctx instant) = some instant := by
  constructor
  · simp only [step, timely, addressed, perform, outcome, and_self, if_true, Call.time]
  · simp only [acceptance, outcome, Except.toOption, Option.isSome_some, and_self, if_true]

def edgeEnvironment (iat : UInt64) : Environment where
  jose := soloJose ⟨none, none, none, none, none, none, none⟩
    (soloProof "https://vault.test/" iat).claims
  parseUrl := plainParser
  epoch := 0

def edgePresentation : Presentation where
  rawProof := "proof"
  requestMethod := "GET"
  effectiveUri := soloUrl
  accessToken := soloToken
  rawToken := "token"
  tag := .vault

def edgeCalls (cfg : AuthConfig) : List Call :=
  let past := cfg.jtiReplayWindowSecs.toNat * nanosPerSec
  [.present edgePresentation (soloContext cfg) 0, .tick past,
    .present edgePresentation (soloContext cfg) past]

theorem edge_attempt {cfg : AuthConfig} {iat : UInt64} {instant deadline : Instant}
    {store : JtiReplayStore}
    (fresh : inWindow iat (wallSecs (edgeEnvironment iat) instant) cfg = true)
    (fits : checkedAddSecs instant cfg.jtiReplayWindowSecs = some deadline)
    (inserted : tryInsert (JtiReplayStore.new cfg) (JtiKey.new 1 "id") deadline = (.ok (), store)) :
    attempt (edgeEnvironment iat) edgePresentation (soloContext cfg) instant
      (JtiReplayStore.new cfg) = (.ok (soloProof "https://vault.test/" iat), store) := by
  have parsed : plainParser "https://vault.test/" = .ok soloUrl := by decide
  exact validateProof_accepts (solo_inspected parsed rfl rfl rfl fresh) fits inserted

theorem edge_bounds {cfg : AuthConfig} (narrow : ¬ Covers cfg) :
    cfg.jtiReplayWindowSecs.toNat ≤
        cfg.dpopFreshnessSecs.toNat + 2 * cfg.clockSkewSecs.toNat ∧
      cfg.jtiReplayWindowSecs.toNat < 2 ^ 62 := by
  unfold Covers at narrow
  omega

theorem edge_shown {iat : UInt64} {secs : Nat} (soon : secs < 2 ^ 62) :
    (edgeEnvironment iat).epoch * nanosPerSec + secs * nanosPerSec < endOfTime := by
  simp only [edgeEnvironment, endOfTime, nanosPerSec]
  omega

theorem edge_fresh {cfg : AuthConfig} (valid : Accepted cfg) {secs : Nat}
    (inside : secs ≤ cfg.dpopFreshnessSecs.toNat + 2 * cfg.clockSkewSecs.toNat)
    (short : secs < 2 ^ 62) :
    inWindow cfg.clockSkewSecs (wallSecs (edgeEnvironment cfg.clockSkewSecs) (secs * nanosPerSec))
      cfg = true := by
  rw [inWindow_iff valid, wallSecs_toNat (edge_shown short)]
  simp only [edgeEnvironment, nanosPerSec]
  omega

theorem edge_call {cfg : AuthConfig} (valid : Accepted cfg) {secs : Nat} {earlier : Instant}
    (inside : secs ≤ cfg.dpopFreshnessSecs.toNat + 2 * cfg.clockSkewSecs.toNat)
    (soon : secs < 2 ^ 62) (short : cfg.jtiReplayWindowSecs.toNat < 2 ^ 62)
    (later : earlier ≤ secs * nanosPerSec) {store : JtiReplayStore}
    (inserted : tryInsert (JtiReplayStore.new cfg) (JtiKey.new 1 "id")
      (secs * nanosPerSec + cfg.jtiReplayWindowSecs.toNat * nanosPerSec) = (.ok (), store)) :
    step (edgeEnvironment cfg.clockSkewSecs) ⟨earlier, JtiReplayStore.new cfg⟩
        (.present edgePresentation (soloContext cfg) (secs * nanosPerSec)) =
          some ⟨secs * nanosPerSec, store⟩ ∧
      acceptance (edgeEnvironment cfg.clockSkewSecs) edgePresentation
        ⟨earlier, JtiReplayStore.new cfg⟩
        (.present edgePresentation (soloContext cfg) (secs * nanosPerSec)) =
          some (secs * nanosPerSec) := by
  have fits : secs * nanosPerSec + cfg.jtiReplayWindowSecs.toNat * nanosPerSec < endOfTime := by
    simp only [endOfTime, nanosPerSec]
    omega
  apply accepted_step
  · exact ⟨later,edge_shown soon⟩
  · exact ⟨rfl,rfl⟩
  · exact edge_attempt (edge_fresh valid inside soon) (checkedAddSecs_fits fits) inserted

theorem edge_accepted_twice {cfg : AuthConfig} (valid : Accepted cfg) (narrow : ¬ Covers cfg) :
    ∃ s, run (step (edgeEnvironment cfg.clockSkewSecs)) ⟨0, JtiReplayStore.new cfg⟩
        (edgeCalls cfg) = some s ∧
      events (step (edgeEnvironment cfg.clockSkewSecs))
        (acceptance (edgeEnvironment cfg.clockSkewSecs) edgePresentation)
        ⟨0, JtiReplayStore.new cfg⟩ (edgeCalls cfg) =
          [0, cfg.jtiReplayWindowSecs.toNat * nanosPerSec] := by
  obtain ⟨late,short⟩ := edge_bounds narrow
  have room : 0 < cfg.maxReplayEntries := Nat.lt_of_lt_of_le (by decide) valid.entries_min
  obtain ⟨held,insert₁⟩ := new_tryInsert room (JtiKey.new 1 "id")
    (0 * nanosPerSec + cfg.jtiReplayWindowSecs.toNat * nanosPerSec)
  obtain ⟨again,insert₂⟩ := new_tryInsert room (JtiKey.new 1 "id")
    (cfg.jtiReplayWindowSecs.toNat * nanosPerSec + cfg.jtiReplayWindowSecs.toNat * nanosPerSec)
  have first := edge_call valid (Nat.zero_le _) (by decide) short (Nat.zero_le _) insert₁
  have second := edge_call valid late short short (Nat.le_refl _) insert₂
  rw [Nat.zero_mul] at first
  rw [Nat.zero_mul, Nat.zero_add] at insert₁
  have ticked : step (edgeEnvironment cfg.clockSkewSecs) ⟨0, held⟩
      (.tick (cfg.jtiReplayWindowSecs.toNat * nanosPerSec)) =
        some ⟨cfg.jtiReplayWindowSecs.toNat * nanosPerSec, JtiReplayStore.new cfg⟩ := by
    simp only [step, perform, lone_entry_expires insert₁, Call.time]
    rw [if_pos]
    exact ⟨⟨Nat.zero_le _,edge_shown short⟩,trivial⟩
  refine ⟨⟨cfg.jtiReplayWindowSecs.toNat * nanosPerSec, again⟩,?_,?_⟩
  · unfold edgeCalls
    rw [run_cons first.1, run_cons ticked, run_cons second.1]
    rfl
  · unfold edgeCalls
    rw [events_cons first.1, events_cons ticked, events_cons second.1, first.2, second.2]
    rfl

theorem narrow_accepts_twice {cfg : AuthConfig} (valid : Accepted cfg) (narrow : ¬ Covers cfg) :
    ¬ AtMostOnce cfg := by
  intro once
  obtain ⟨s,taken,twice⟩ := edge_accepted_twice valid narrow
  have bound := once _ _ _ _ taken edgePresentation
  rw [twice] at bound
  simp at bound

/-- Exactly these configurations accept every proof at most once. -/
theorem proof_accepted_once_iff {usizeMax : Nat} {part : Option PartialAuth} {cfg : AuthConfig}
    (parsed : parseAuth usizeMax part = .ok cfg) :
    AtMostOnce cfg ↔
      cfg.dpopFreshnessSecs.toNat + 2 * cfg.clockSkewSecs.toNat < cfg.jtiReplayWindowSecs.toNat ∨
        2 ^ 62 ≤ cfg.jtiReplayWindowSecs.toNat := by
  have valid := parseAuth_accepted parsed
  constructor
  · intro once
    by_contra narrow
    exact narrow_accepts_twice valid narrow once
  · exact covered_once valid

def wideAuth : PartialAuth where
  clockSkewSecs := none
  dpopFreshnessSecs := none
  jwksRefreshSecs := none
  discoveryRefreshSecs := none
  onDemandRefreshMinIntervalSecs := none
  jtiReplayWindowSecs := some (.integer 151)
  maxReplayEntries := none

theorem wide_window_accepts_once :
    ∃ cfg, parseAuth (2 ^ 64 - 1) (some wideAuth) = .ok cfg ∧ AtMostOnce cfg := by
  have parsed : parseAuth (2 ^ 64 - 1) (some wideAuth) =
      .ok { AuthConfig.default with jtiReplayWindowSecs := 151 } := by decide
  exact ⟨_,parsed,(proof_accepted_once_iff parsed).mpr (by decide)⟩

/-- With every default, a proof dated 60 seconds ahead is accepted at 0 and at
    90 seconds. -/
theorem default_window_accepts_twice :
    parseAuth (2 ^ 64 - 1) none = .ok AuthConfig.default ∧
      (∃ s, run (step (edgeEnvironment 60)) ⟨0, JtiReplayStore.new AuthConfig.default⟩
          (edgeCalls AuthConfig.default) = some s ∧
        events (step (edgeEnvironment 60)) (acceptance (edgeEnvironment 60) edgePresentation)
          ⟨0, JtiReplayStore.new AuthConfig.default⟩ (edgeCalls AuthConfig.default) =
            [0, 90 * nanosPerSec]) ∧
      ¬ AtMostOnce AuthConfig.default := by
  have narrow : ¬ Covers AuthConfig.default := by decide
  have skew : AuthConfig.default.clockSkewSecs = 60 := rfl
  have window : AuthConfig.default.jtiReplayWindowSecs.toNat = 90 := rfl
  have twice := edge_accepted_twice default_accepted narrow
  rw [skew, window] at twice
  exact ⟨rfl,twice,narrow_accepts_twice default_accepted narrow⟩

end ProofReplay
