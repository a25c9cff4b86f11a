import Apokryphos.AudienceIsolation

/-!
A validation of a token while no other call runs. If no cached key verifies the
token and the last refresh is long enough ago, the keys are fetched once; they
are installed unless the other audience has one of them, and the token is tried
again with what was installed. The call is written here as the source has it,
from beginning to end, and it is what the machine of interleaved accesses does
when only this call and its refresh move.
-/
namespace KeyRotation
open AudienceIsolation (PayloadDetermined)
open GuardedRequests MachineWords OidcContexts Outcomes RequestGuards ServerConfig SigningKeys
open TokenValidation UrlTexts
open StepRuns (run run_append run_cons run_within)

abbrev Contexts := AudienceTag → OidcContext

structure Answers where
  refreshNow : UInt64
  claimsNow : UInt64
  fetch : Url → HttpOutcome JwkSet

/-- What the call leaves behind. There is no value if it panics. -/
structure Returned (α : Type) where
  value : Option α
  contexts : Contexts
  fetched : List Url

def Contexts.set (contexts : Contexts) (tag : AudienceTag) (ctx : OidcContext) : Contexts :=
  Function.update contexts tag ctx

def installRefreshedJwks (contexts : Contexts) (tag : AudienceTag) (new : Jwks) : Bool × Contexts :=
  let ctx := contexts tag
  match ctx.other with
  | none => (false, contexts)
  | some otherTag =>
    match checkDisjointJwks (contexts otherTag).jwks new ctx.tag with
    | .ok _ => (true, contexts.set tag { ctx with jwks := new })
    | .error _ => (false, contexts)

/-- Nobody else completes a refresh, so that the wait times out. -/
def waitForCompletion (ctx : OidcContext) (prev : UInt64) : Bool :=
  if prev ≤ ctx.lastRefreshCompleted then true else decide (prev ≤ ctx.lastRefreshCompleted)

def complete (contexts : Contexts) (tag : AudienceTag) (now : UInt64) : Contexts :=
  contexts.set tag { contexts tag with
    lastRefreshCompleted := now, refreshNotify := (contexts tag).refreshNotify + 1 }

def onDemandRefresh (contexts : Contexts) (tag : AudienceTag) (answers : Answers) : Returned Bool :=
  let ctx := contexts tag
  let now := answers.refreshNow
  let prev := ctx.lastOnDemandRefresh
  let cutoff := saturatingAdd prev ctx.authConfig.onDemandRefreshMinIntervalSecs
  if now < cutoff then ⟨some (waitForCompletion ctx prev), contexts, []⟩
  else
    -- The exchange succeeds: nobody else moves the claim.
    let claimed := contexts.set tag { ctx with lastOnDemandRefresh := now }
    let uri := ctx.discovery.jwksUri
    match fetchJwks (answers.fetch uri) with
    | .error .panicked => ⟨none, claimed, [uri]⟩
    | .error (.error _) => ⟨some false, complete claimed tag now, [uri]⟩
    | .ok new =>
      let done := installRefreshedJwks claimed tag new
      ⟨some done.1, complete done.2 tag now, [uri]⟩

def validateToken (jose : Jose) (rawJws : String) (contexts : Contexts) (tag : AudienceTag)
    (answers : Answers) : Returned (Except AuthFailure AccessToken) :=
  match readHeader jose rawJws with
  | .error failure => ⟨some (.error failure), contexts, []⟩
  | .ok (header, alg) =>
    let attempt := fun ctx : OidcContext =>
      tryDecodeWithCurrentJwks jose rawJws header (tokenSettings alg ctx.authConfig) ctx.jwks
    match attempt (contexts tag) with
    | .ok claims => ⟨some (checkClaims claims (contexts tag) answers.claimsNow), contexts, []⟩
    | .error first =>
      let refresh := onDemandRefresh contexts tag answers
      match refresh.value with
      | none => ⟨none, refresh.contexts, refresh.fetched⟩
      | some false => ⟨some (.error first), refresh.contexts, refresh.fetched⟩
      | some true =>
        match attempt (refresh.contexts tag) with
        | .ok claims =>
          ⟨some (checkClaims claims (refresh.contexts tag) answers.claimsNow), refresh.contexts,
            refresh.fetched⟩
        | .error _ => ⟨some (.error first), refresh.contexts, refresh.fetched⟩

def Verifies (jose : Jose) (rawJws : String) (settings : Validation) (candidate : Jwk)
    (claims : TokenClaims) : Prop :=
  ∃ key, jose.fromJwk candidate.jwk = some key ∧ jose.decodeToken rawJws key settings = .ok claims

section Attempts
variable {jose : Jose} {rawJws : String} {header : JoseHeader} {settings : Validation} {jwks : Jwks}

theorem attempt_fails
    (unverified : ∀ candidate ∈ jwks.lookupCandidates header.kid, ∀ claims,
      ¬ Verifies jose rawJws settings candidate claims) :
    ∃ first, tryDecodeWithCurrentJwks jose rawJws header settings jwks = .error first := by
  cases decoded : tryDecodeWithCurrentJwks jose rawJws header settings jwks with
  | error first => exact ⟨first,rfl⟩
  | ok claims =>
    obtain ⟨candidate,member,key,loads,verifies⟩ := tryDecodeWithCurrentJwks_ok decoded
    exact absurd ⟨key,loads,verifies⟩ (unverified candidate member claims)

theorem tryCandidates_found {candidates : List Jwk} {candidate : Jwk} {claims : TokenClaims}
    (member : candidate ∈ candidates) (verifies : Verifies jose rawJws settings candidate claims)
    (lastErr : Option ErrorKind) :
    ∃ found, tryCandidates jose rawJws settings lastErr candidates = .ok found := by
  induction candidates generalizing lastErr with
  | nil => cases member
  | cons other rest ih =>
    obtain ⟨key,loads,decodes⟩ := verifies
    rcases List.mem_cons.mp member with rfl | later
    · simp only [tryCandidates, loads, decodes]
      exact ⟨claims,rfl⟩
    · simp only [tryCandidates]
      cases jose.fromJwk other.jwk with
      | none => exact ih later lastErr
      | some own =>
        cases outcome : jose.decodeToken rawJws own settings with
        | ok found => exact ⟨found,by simp [outcome]⟩
        | error e => simpa [outcome] using ih later (some e)

theorem attempt_succeeds (determined : PayloadDetermined jose) {candidate : Jwk}
    {claims : TokenClaims} (member : candidate ∈ jwks.lookupCandidates header.kid)
    (verifies : Verifies jose rawJws settings candidate claims) :
    tryDecodeWithCurrentJwks jose rawJws header settings jwks = .ok claims := by
  obtain ⟨found,decoded⟩ := tryCandidates_found member verifies none
  obtain ⟨_,_,key,_,reads⟩ := tryCandidates_ok decoded
  obtain ⟨own,_,decodes⟩ := verifies
  cases determined rawJws key own settings settings found claims reads decodes
  have some_key : (jwks.lookupCandidates header.kid).isEmpty = false := by
    cases listed : jwks.lookupCandidates header.kid with
    | nil =>
      rw [listed] at member
      cases member
    | cons first rest => rfl
  simp only [tryDecodeWithCurrentJwks, some_key]
  exact decoded

end Attempts

section Refreshes
variable {contexts : Contexts} {tag : AudienceTag} {answers : Answers}

theorem set_same (contexts : Contexts) (tag : AudienceTag) (ctx : OidcContext) :
    contexts.set tag ctx tag = ctx := by
  simp [Contexts.set]

theorem set_other {g : AudienceTag} (other : g ≠ tag) (contexts : Contexts) (ctx : OidcContext) :
    contexts.set tag ctx g = contexts g := by
  simp [Contexts.set, Function.update_of_ne other]

theorem set_set (contexts : Contexts) (tag : AudienceTag) (ctx other : OidcContext) :
    (contexts.set tag ctx).set tag other = contexts.set tag other := by
  simp [Contexts.set]

theorem counterpart_ne (tag : AudienceTag) : tag.counterpart ≠ tag := by
  cases tag <;> decide

def Due (contexts : Contexts) (tag : AudienceTag) (now : UInt64) : Prop :=
  (contexts tag).lastOnDemandRefresh.toNat +
    (contexts tag).authConfig.onDemandRefreshMinIntervalSecs.toNat ≤ now.toNat

theorem due_cutoff {now : UInt64} (due : Due contexts tag now) :
    ¬ now < saturatingAdd (contexts tag).lastOnDemandRefresh
      (contexts tag).authConfig.onDemandRefreshMinIntervalSecs := by
  have sum := saturatingAdd_toNat (contexts tag).lastOnDemandRefresh
    (contexts tag).authConfig.onDemandRefreshMinIntervalSecs
  unfold Due at due
  rw [UInt64.lt_iff_toNat_lt, sum]
  omega

theorem onDemandRefresh_fetched (due : Due contexts tag answers.refreshNow) :
    (onDemandRefresh contexts tag answers).fetched = [(contexts tag).discovery.jwksUri] := by
  simp only [onDemandRefresh, if_neg (due_cutoff due)]
  split <;> rfl

theorem onDemandRefresh_panicked (due : Due contexts tag answers.refreshNow)
    (answer : fetchJwks (answers.fetch (contexts tag).discovery.jwksUri) = .error .panicked) :
    (onDemandRefresh contexts tag answers).value = none ∧
    ((onDemandRefresh contexts tag answers).contexts tag).jwks = (contexts tag).jwks := by
  simp [onDemandRefresh, if_neg (due_cutoff due), answer, set_same]

theorem onDemandRefresh_refused (wired : (contexts tag).other = some tag.counterpart)
    (due : Due contexts tag answers.refreshNow)
    (refused : (∃ new, fetchJwks (answers.fetch (contexts tag).discovery.jwksUri) = .ok new ∧
        ¬ Separate (contexts tag.counterpart).jwks new) ∨
      ∃ error, fetchJwks (answers.fetch (contexts tag).discovery.jwksUri) = .error (.error error)) :
    (onDemandRefresh contexts tag answers).value = some false ∧
    ((onDemandRefresh contexts tag answers).contexts tag).jwks = (contexts tag).jwks := by
  simp only [onDemandRefresh, if_neg (due_cutoff due)]
  rcases refused with ⟨new,answer,shared⟩ | ⟨error,answer⟩
  · cases checked : checkDisjointJwks (contexts tag.counterpart).jwks new (contexts tag).tag with
    | ok done => exact absurd (checkDisjointJwks_ok_iff.mp checked) shared
    | error overlap =>
      simp [answer, installRefreshedJwks, complete, set_same, wired, set_other (counterpart_ne tag), checked]
  · simp [answer, complete, set_same]

structure SameChecks (ctx other : OidcContext) : Prop where
  issuer : other.issuerUrl = ctx.issuerUrl
  audience : other.audience = ctx.audience
  config : other.authConfig = ctx.authConfig

theorem onDemandRefresh_installs (wired : (contexts tag).other = some tag.counterpart)
    (due : Due contexts tag answers.refreshNow) {new : Jwks}
    (answer : fetchJwks (answers.fetch (contexts tag).discovery.jwksUri) = .ok new)
    (apart : Separate (contexts tag.counterpart).jwks new) :
    (onDemandRefresh contexts tag answers).value = some true ∧
    ((onDemandRefresh contexts tag answers).contexts tag).jwks = new ∧
    SameChecks (contexts tag) ((onDemandRefresh contexts tag answers).contexts tag) := by
  have checked : checkDisjointJwks (contexts tag.counterpart).jwks new (contexts tag).tag = .ok () :=
    checkDisjointJwks_ok_iff.mpr apart
  simp only [onDemandRefresh, if_neg (due_cutoff due), answer, installRefreshedJwks, complete, set_same,
    wired, set_other (counterpart_ne tag), checked]
  exact ⟨trivial,trivial,rfl,rfl,rfl⟩

end Refreshes

theorem checkClaims_same {claims : TokenClaims} {ctx other : OidcContext} (now : UInt64)
    (same : SameChecks ctx other) : checkClaims claims other now = checkClaims claims ctx now := by
  simp only [checkClaims, same.issuer, same.audience, same.config]

section Rotation
variable {jose : Jose} {rawJws : String} {header : JoseHeader} {alg : JwsAlg} {contexts : Contexts}
  {tag : AudienceTag} {answers : Answers}

structure Unverified (jose : Jose) (rawJws : String) (header : JoseHeader) (alg : JwsAlg)
    (ctx : OidcContext) : Prop where
  read : readHeader jose rawJws = .ok (header, alg)
  unverified : ∀ candidate ∈ ctx.jwks.lookupCandidates header.kid, ∀ claims,
    ¬ Verifies jose rawJws (tokenSettings alg ctx.authConfig) candidate claims

def FirstError (jose : Jose) (rawJws : String) (header : JoseHeader) (alg : JwsAlg)
    (ctx : OidcContext) (first : AuthFailure) : Prop :=
  tryDecodeWithCurrentJwks jose rawJws header (tokenSettings alg ctx.authConfig) ctx.jwks = .error first

def retry (jose : Jose) (rawJws : String) (header : JoseHeader) (alg : JwsAlg) (ctx : OidcContext)
    (now : UInt64) (first : AuthFailure) : Bool → Except AuthFailure AccessToken
  | false => .error first
  | true =>
    match tryDecodeWithCurrentJwks jose rawJws header (tokenSettings alg ctx.authConfig) ctx.jwks with
    | .ok claims => checkClaims claims ctx now
    | .error _ => .error first

theorem validateToken_refresh (read : readHeader jose rawJws = .ok (header, alg)) {first : AuthFailure}
    (fails : FirstError jose rawJws header alg (contexts tag) first) :
    let refresh := onDemandRefresh contexts tag answers
    validateToken jose rawJws contexts tag answers =
      ⟨refresh.value.map (retry jose rawJws header alg (refresh.contexts tag) answers.claimsNow first),
        refresh.contexts, refresh.fetched⟩ := by
  unfold FirstError at fails
  simp only [validateToken, read, fails]
  generalize onDemandRefresh contexts tag answers = refresh
  obtain ⟨value,after,fetched⟩ := refresh
  cases value with
  | none => rfl
  | some result =>
    cases result with
    | false => rfl
    | true =>
      simp only [retry, Option.map_some]
      split <;> rfl

theorem retry_accepts (determined : PayloadDetermined jose) {ctx other : OidcContext} {new : Jwks}
    (installed : other.jwks = new) (same : SameChecks ctx other) {candidate : Jwk} {claims : TokenClaims}
    (member : candidate ∈ new.lookupCandidates header.kid)
    (verifies : Verifies jose rawJws (tokenSettings alg ctx.authConfig) candidate claims)
    (now : UInt64) (first : AuthFailure) :
    retry jose rawJws header alg other now first true = checkClaims claims ctx now := by
  simp only [retry, installed, same.config, attempt_succeeds determined member verifies]
  exact checkClaims_same now same

/-- A rotation of the keys is picked up by the first call that needs it. Keys that
    are shared with the other audience, or not to be had, leave everything as it
    is, and the call reports what it found first. Keys that the parser panics at
    end the call, and are not installed either. -/
theorem rotation_picked_up (determined : PayloadDetermined jose)
    (wired : (contexts tag).other = some tag.counterpart)
    (token : Unverified jose rawJws header alg (contexts tag))
    (due : Due contexts tag answers.refreshNow) :
    let uri := (contexts tag).discovery.jwksUri
    let done := validateToken jose rawJws contexts tag answers
    done.fetched = [uri] ∧
    (∀ new, fetchJwks (answers.fetch uri) = .ok new → Separate (contexts tag.counterpart).jwks new →
      (done.contexts tag).jwks = new ∧
      ∀ candidate ∈ new.lookupCandidates header.kid, ∀ claims accessToken,
        Verifies jose rawJws (tokenSettings alg (contexts tag).authConfig) candidate claims →
        checkClaims claims (contexts tag) answers.claimsNow = .ok accessToken →
        done.value = some (.ok accessToken)) ∧
    (∃ first, FirstError jose rawJws header alg (contexts tag) first ∧
      ((∃ new, fetchJwks (answers.fetch uri) = .ok new ∧
          ¬ Separate (contexts tag.counterpart).jwks new) ∨
        (∃ error, fetchJwks (answers.fetch uri) = .error (.error error)) →
      done.value = some (.error first) ∧ (done.contexts tag).jwks = (contexts tag).jwks)) ∧
    (fetchJwks (answers.fetch uri) = .error .panicked →
      done.value = none ∧ (done.contexts tag).jwks = (contexts tag).jwks) := by
  obtain ⟨first,fails⟩ := attempt_fails token.unverified
  dsimp only
  rw [validateToken_refresh token.read fails]
  refine ⟨onDemandRefresh_fetched due,?_,⟨first,fails,?_⟩,?_⟩
  · intro new answer apart
    obtain ⟨done,installed,same⟩ := onDemandRefresh_installs wired due answer apart
    refine ⟨installed,fun candidate member claims accessToken verifies accepted => ?_⟩
    have again := retry_accepts determined installed same member verifies answers.claimsNow first
    rw [done, Option.map_some, again, accepted]
  · intro unavailable
    obtain ⟨done,keys⟩ := onDemandRefresh_refused wired due unavailable
    refine ⟨?_,keys⟩
    rw [done]
    rfl
  · intro panics
    obtain ⟨done,keys⟩ := onDemandRefresh_panicked due panics
    refine ⟨?_,keys⟩
    rw [done]
    rfl

/-- A library that has met one token, signed with a key that nobody has cached. -/
def rotatedJose : Jose where
  Key := RawJwk
  decodeHeader raw := if raw = "token" then some ⟨.ps256, none, none, none⟩ else none
  fromJwk jwk := some jwk
  decodeToken raw key _ :=
    if raw = "token" ∧ key = RefreshTasks.sampleKey "CCCC" then .ok soloClaims else .error .other
  decodeProof _ _ _ := none

theorem rotated_determined : PayloadDetermined rotatedJose := by
  intro raw key key' validation validation' claims claims' decoded decoded'
  simp only [rotatedJose] at decoded decoded'
  split at decoded
  · split at decoded'
    · cases decoded
      cases decoded'
      rfl
    · cases decoded'
  · cases decoded

theorem rotation_picked_up_once :
    ∃ w, RefreshTasks.Started RefreshTasks.samplePlatform w ∧
      let done := validateToken rotatedJose "token" w.ctx .vault
        ⟨101, 101, fun _ => RefreshTasks.sampleKeys "CCCC"⟩
      done.fetched = [(w.ctx .vault).discovery.jwksUri] ∧
      (w.ctx .vault).jwks ≠ (done.contexts .vault).jwks ∧
      ∃ accessToken, done.value = some (.ok accessToken) := by
  have evaluated : ∃ w, RefreshTasks.Started RefreshTasks.samplePlatform w ∧
      (w.ctx .vault).other = some .admin ∧
      (∀ candidate ∈ (w.ctx .vault).jwks.lookupCandidates none,
        candidate.jwk ≠ RefreshTasks.sampleKey "CCCC") ∧
      (w.ctx .vault).lastOnDemandRefresh.toNat +
        (w.ctx .vault).authConfig.onDemandRefreshMinIntervalSecs.toNat ≤ 101 ∧
      ∃ new ∈ (fetchJwks (RefreshTasks.sampleKeys "CCCC")).toOption,
        Separate (w.ctx .admin).jwks new ∧ (w.ctx .vault).jwks ≠ new ∧
        (∃ candidate ∈ new.lookupCandidates none, candidate.jwk = RefreshTasks.sampleKey "CCCC") ∧
        ∃ accessToken ∈ (checkClaims soloClaims (w.ctx .vault) 101).toOption, accessToken.sub = "user" :=
    RefreshTasks.sample_exists (by decide +kernel)
  obtain ⟨w,started,wired,absent,due,new,found,apart,moved,⟨candidate,member,named⟩,accessToken,accepted,_⟩ :=
    evaluated
  have token : Unverified rotatedJose "token" ⟨.ps256, none, none, none⟩ .ps256 (w.ctx .vault) := by
    refine ⟨rfl,fun other listed claims verifies => ?_⟩
    obtain ⟨key,loads,decodes⟩ := verifies
    cases loads
    have differs := absent other listed
    simp [rotatedJose, differs] at decodes
  obtain ⟨once,picked,_⟩ := @rotation_picked_up _ _ _ _ _ _
    ⟨101, 101, fun _ => RefreshTasks.sampleKeys "CCCC"⟩ rotated_determined wired token due
  have verifies : Verifies rotatedJose "token" (tokenSettings .ps256 (w.ctx .vault).authConfig) candidate
      soloClaims := by
    refine ⟨candidate.jwk,rfl,?_⟩
    simp [rotatedJose, named]
  obtain ⟨installed,accepts⟩ := picked new (toOption_some_iff.mp found) apart
  refine ⟨w,started,once,?_,accessToken,
    accepts candidate member soloClaims accessToken verifies (toOption_some_iff.mp accepted)⟩
  rw [installed]
  exact moved

end Rotation

section Alone
variable {platform : OidcContexts.Platform} {w : RefreshTasks.World} {contexts : Contexts} {t : Nat}
  {k : RefreshTasks.Task}

def stand (w : RefreshTasks.World) (contexts : Contexts) (t : Nat) (k : RefreshTasks.Task) :
    RefreshTasks.World :=
  { w with ctx := contexts, tasks := w.tasks.insert t k }

@[simp] theorem stand_task : (stand w contexts t k).task t = some k := AList.lookup_insert w.tasks

@[simp] theorem stand_ctx : (stand w contexts t k).ctx = contexts := rfl

@[simp] theorem stand_clock : (stand w contexts t k).clock = w.clock := rfl

@[simp] theorem stand_setTask (other : RefreshTasks.Task) :
    (stand w contexts t k).setTask t other = stand w contexts t other := by
  simp [stand, RefreshTasks.World.setTask]

@[simp] theorem stand_setCtx (tag : AudienceTag) (ctx : OidcContext) :
    (stand w contexts t k).setCtx tag ctx = stand w (contexts.set tag ctx) t k := rfl

/-- The accesses of one refresh that nobody cancels. -/
def Alone (t : Nat) : RefreshTasks.Action → Prop
  | .advance task | .fetched task _ | .timeout task => task = t
  | .setClock _ | .discoveryFetched _ _ | .spawn _ _ _ | .drop _ => False

def answerOf : RefreshTasks.Action → Option (HttpOutcome JwkSet)
  | .fetched _ outcome => some outcome
  | _ => none

def EndsRefresh : Option Bool → RefreshTasks.Phase → Prop
  | none, phase => phase = .dropped
  | some result, phase => ∃ claim, phase = .finished claim result

variable (platform w contexts t)

theorem wait_alone (tag : AudienceTag) (prev : UInt64) :
    ∃ actions, (∀ a ∈ actions, Alone t a) ∧ actions.filterMap answerOf = [] ∧
      run (RefreshTasks.step platform) (stand w contexts t ⟨.onDemand, tag, .check prev none⟩) actions =
        some (stand w contexts t
          ⟨.onDemand, tag, .finished none (waitForCompletion (contexts tag) prev)⟩) := by
  by_cases seen : prev ≤ (contexts tag).lastRefreshCompleted
  · refine ⟨[.advance t],by simp [Alone],rfl,?_⟩
    simp [run, RefreshTasks.step, RefreshTasks.advance, seen, waitForCompletion]
  · refine ⟨[.advance t, .advance t, .timeout t, .advance t],
      by simp [Alone],rfl,?_⟩
    simp [run, RefreshTasks.step, RefreshTasks.advance, seen, waitForCompletion]

theorem complete_alone (tag : AudienceTag) (claim : UInt64) (installed : Bool) :
    run (RefreshTasks.step platform) (stand w contexts t ⟨.onDemand, tag, .complete claim installed⟩)
        [.advance t, .advance t] =
      some (stand w (complete contexts tag claim) t ⟨.onDemand, tag, .finished (some claim) installed⟩) := by
  simp [run, RefreshTasks.step, RefreshTasks.advance, set_same, set_set, complete]

theorem install_alone (tag : AudienceTag) (claim : UInt64) (new : Jwks) :
    ∃ actions, (∀ a ∈ actions, Alone t a) ∧ actions.filterMap answerOf = [] ∧
      run (RefreshTasks.step platform) (stand w contexts t ⟨.onDemand, tag, .loadOther (some claim) new⟩)
          actions =
        some (stand w (installRefreshedJwks contexts tag new).2 t
          ⟨.onDemand, tag, .complete claim (installRefreshedJwks contexts tag new).1⟩) := by
  cases other : (contexts tag).other with
  | none =>
    refine ⟨[.advance t],by simp [Alone],rfl,?_⟩
    simp [run, RefreshTasks.step, RefreshTasks.advance, RefreshTasks.afterInstall, installRefreshedJwks,
      other]
  | some otherTag =>
    cases checked : checkDisjointJwks (contexts otherTag).jwks new (contexts tag).tag with
    | error overlap =>
      refine ⟨[.advance t],by simp [Alone],rfl,?_⟩
      simp [run, RefreshTasks.step, RefreshTasks.advance, RefreshTasks.afterInstall,
        installRefreshedJwks, other, checked]
    | ok done =>
      refine ⟨[.advance t, .advance t],by simp [Alone],rfl,?_⟩
      simp [run, RefreshTasks.step, RefreshTasks.advance, RefreshTasks.afterInstall,
        installRefreshedJwks, other, checked]

theorem claim_alone (tag : AudienceTag)
    (late : ¬ w.clock < saturatingAdd (contexts tag).lastOnDemandRefresh
      (contexts tag).authConfig.onDemandRefreshMinIntervalSecs) :
    run (RefreshTasks.step platform) (stand w contexts t ⟨.onDemand, tag, .readClock⟩)
        [.advance t, .advance t, .advance t, .advance t] =
      some (stand w (contexts.set tag { contexts tag with lastOnDemandRefresh := w.clock }) t
        ⟨.onDemand, tag, .fetching (some w.clock) (contexts tag).discovery.jwksUri w.clock⟩) := by
  simp [run, RefreshTasks.step, RefreshTasks.advance, late, set_same]

theorem refresh_alone (tag : AudienceTag) (fetch : Url → HttpOutcome JwkSet) :
    ∃ actions phase, (∀ a ∈ actions, Alone t a) ∧
      actions.filterMap answerOf =
        (onDemandRefresh contexts tag ⟨w.clock, w.clock, fetch⟩).fetched.map fetch ∧
      EndsRefresh (onDemandRefresh contexts tag ⟨w.clock, w.clock, fetch⟩).value phase ∧
      run (RefreshTasks.step platform) (stand w contexts t ⟨.onDemand, tag, .readClock⟩) actions =
        some (stand w (onDemandRefresh contexts tag ⟨w.clock, w.clock, fetch⟩).contexts t
          ⟨.onDemand, tag, phase⟩) := by
  by_cases early : w.clock < saturatingAdd (contexts tag).lastOnDemandRefresh
      (contexts tag).authConfig.onDemandRefreshMinIntervalSecs
  · simp only [onDemandRefresh, if_pos early]
    obtain ⟨actions,own,silent,waits⟩ :=
      wait_alone platform w contexts t tag (contexts tag).lastOnDemandRefresh
    refine ⟨.advance t :: .advance t :: actions,_,?_,silent,⟨none,rfl⟩,?_⟩
    · simpa [Alone] using own
    · simpa [run, RefreshTasks.step, RefreshTasks.advance, early] using waits
  · have front := claim_alone platform w contexts t tag early
    simp only [onDemandRefresh, if_neg early]
    generalize contexts.set tag { contexts tag with lastOnDemandRefresh := w.clock } = claimed at front ⊢
    generalize (contexts tag).discovery.jwksUri = uri at front ⊢
    cases answer : fetchJwks (fetch uri) with
    | error fault =>
      cases fault with
      | panicked =>
        refine ⟨[.advance t, .advance t, .advance t, .advance t] ++ [.fetched t (fetch uri)],.dropped,
          ?_,rfl,rfl,?_⟩
        · simp [Alone]
        · rw [run_append, front]
          simp [run, RefreshTasks.step, RefreshTasks.resolveFetch, answer]
      | error error =>
        have back := complete_alone platform w claimed t tag w.clock false
        refine ⟨[.advance t, .advance t, .advance t, .advance t] ++
          .fetched t (fetch uri) :: [.advance t, .advance t],.finished (some w.clock) false,
          ?_,rfl,⟨_,rfl⟩,?_⟩
        · simp [Alone]
        · rw [run_append, front]
          simpa [run, RefreshTasks.step, RefreshTasks.resolveFetch, RefreshTasks.afterInstall, answer]
            using back
    | ok new =>
      obtain ⟨actions,own,silent,installs⟩ := install_alone platform w claimed t tag w.clock new
      have back := complete_alone platform w (installRefreshedJwks claimed tag new).2 t tag w.clock
        (installRefreshedJwks claimed tag new).1
      refine ⟨[.advance t, .advance t, .advance t, .advance t] ++
        .fetched t (fetch uri) :: (actions ++ [.advance t, .advance t]),
        .finished (some w.clock) (installRefreshedJwks claimed tag new).1,?_,?_,⟨_,rfl⟩,?_⟩
      · simpa [Alone, or_imp, forall_and] using own
      · simp [List.filterMap_append, List.filterMap_cons, silent, answerOf]
      · have resolved : RefreshTasks.step platform
            (stand w claimed t ⟨.onDemand, tag, .fetching (some w.clock) uri w.clock⟩)
            (.fetched t (fetch uri)) =
            some (stand w claimed t ⟨.onDemand, tag, .loadOther (some w.clock) new⟩) := by
          simp [RefreshTasks.step, RefreshTasks.resolveFetch, answer]
        rw [run_append, front, Option.bind_some, run_cons resolved, run_append, installs,
          Option.bind_some, back]

end Alone

section Calls
variable {d : Deployment} {s : Server} {v : Visit} {o : Opening} {id t : Nat}

def Own (id t : Nat) : Action → Prop
  | .refresh action => Alone t action
  | .proceed moved => moved = id
  | .startRefresh moved task => moved = id ∧ task = t
  | .passTime _ | .maintenance | .arrive _ _ _ | .abandon _ => False

def providerAnswer : Action → Option (HttpOutcome JwkSet)
  | .refresh action => answerOf action
  | _ => none

inductive EndsCall (o : Opening) (t : Nat) (w : RefreshTasks.World) :
    Option (Except AuthFailure AccessToken) → Phase → Prop where
  | panicked {first} (gone : (w.task t).map RefreshTasks.Task.phase = some .dropped) :
      EndsCall o t w none (.refreshing o first t)
  | failed (failure : AuthFailure) : EndsCall o t w (some (.error failure)) (.answered (refuse failure))
  | valid (token : AccessToken) : EndsCall o t w (some (.ok token)) (.proof o token)

/-- The server, with one request and the shared contexts as given. -/
def place (s : Server) (id : Nat) (v : Visit) (phase : Phase) (w : RefreshTasks.World) : Server :=
  { s.setVisit id { v with phase := phase } with world := w }

theorem place_visit (s : Server) (id : Nat) (v : Visit) (phase : Phase) (w : RefreshTasks.World) :
    (place s id v phase w).visit id = some { v with phase := phase } :=
  setVisit_same s id { v with phase := phase }

theorem place_proceed {phase next : Phase} {w : RefreshTasks.World}
    (proceeds : proceed d (place s id v phase w) { v with phase := phase } = some (next, s.replay)) :
    step d (place s id v phase w) (.proceed id) = some (place s id v next w) := by
  simp only [step, place_visit, Option.bind_some, proceeds, Option.map_some]
  simp [place, Server.setVisit, AList.insert_insert]

theorem place_refresh (phase : Phase) (w : RefreshTasks.World) (actions : List RefreshTasks.Action) :
    run (step d) (place s id v phase w) (actions.map .refresh) =
      (run (RefreshTasks.step d.platform) w actions).map (place s id v phase) :=
  run_within (place s id v phase) Action.refresh (fun _ _ => rfl) w actions

theorem claims_alone (d : Deployment) (s : Server) (id t : Nat) (v : Visit) (o : Opening)
    (w : RefreshTasks.World) (claims : TokenClaims) :
    ∃ phase, step d (place s id v (.claims o claims) w) (.proceed id) = some (place s id v phase w) ∧
      EndsCall o t w (some (checkClaims claims (w.ctx v.guard.tag) w.clock)) phase := by
  cases checked : checkClaims claims (w.ctx v.guard.tag) w.clock with
  | ok token =>
    refine ⟨.proof o token,place_proceed ?_,.valid token⟩
    simp [proceed, place, checked, Server.setVisit]
  | error failure =>
    refine ⟨.answered (refuse failure),place_proceed ?_,.failed failure⟩
    simp [proceed, place, checked, Server.setVisit]

theorem retry_alone (d : Deployment) (s : Server) (id : Nat) (v : Visit) (o : Opening)
    (first : AuthFailure) {w : RefreshTasks.World} {result : Bool}
    (ended : refreshResult w t = some result) :
    ∃ n phase, run (step d) (place s id v (.refreshing o first t) w) (List.replicate n (.proceed id)) =
        some (place s id v phase w) ∧
      EndsCall o t w (some (retry d.jose o.credentials.rawToken o.header o.alg (w.ctx v.guard.tag) w.clock first result)) phase := by
  cases result with
  | false =>
    refine ⟨1,.answered (refuse first),?_,.failed first⟩
    have stops : step d (place s id v (.refreshing o first t) w) (.proceed id) =
        some (place s id v (.answered (refuse first)) w) :=
      place_proceed (by simp [proceed, place, ended, Server.setVisit])
    rw [List.replicate_one, run_cons stops]
    rfl
  | true =>
    have again : step d (place s id v (.refreshing o first t) w) (.proceed id) =
        some (place s id v (.decodeAgain o first) w) :=
      place_proceed (by simp [proceed, place, ended, Server.setVisit])
    cases second : attemptDecode d o (w.ctx v.guard.tag) with
    | ok claims =>
      have decodes : step d (place s id v (.decodeAgain o first) w) (.proceed id) =
          some (place s id v (.claims o claims) w) :=
        place_proceed (by simp [proceed, place, second, Server.setVisit])
      obtain ⟨phase,ends,value⟩ := claims_alone d s id t v o w claims
      refine ⟨3,phase,?_,?_⟩
      · rw [List.replicate_succ, run_cons again, List.replicate_succ, run_cons decodes,
          List.replicate_one, run_cons ends]
        rfl
      · unfold attemptDecode at second
        simp only [retry, second]
        exact value
    | error failure =>
      have fails : step d (place s id v (.decodeAgain o first) w) (.proceed id) =
          some (place s id v (.answered (refuse first)) w) :=
        place_proceed (by simp [proceed, place, second, Server.setVisit])
      refine ⟨2,.answered (refuse first),?_,?_⟩
      · rw [List.replicate_succ, run_cons again, List.replicate_one, run_cons fails]
        rfl
      · unfold attemptDecode at second
        simp only [retry, second]
        exact .failed first

/-- The request and its refresh move alone, get these answers from the provider, and
    arrive here. -/
structure Ran (d : Deployment) (s : Server) (id t : Nat) (v : Visit) (actions : List Action)
    (answers : List (HttpOutcome JwkSet)) (phase : Phase) (w : RefreshTasks.World) : Prop where
  own : ∀ a ∈ actions, Own id t a
  answers : actions.filterMap providerAnswer = answers
  taken : run (step d) s actions = some (place s id v phase w)

theorem Ran.proceeds {actions : List Action} {answers : List (HttpOutcome JwkSet)} {n : Nat}
    {phase next : Phase} {w : RefreshTasks.World} (ran : Ran d s id t v actions answers phase w)
    (later : run (step d) (place s id v phase w) (List.replicate n (.proceed id)) =
      some (place s id v next w)) :
    Ran d s id t v (actions ++ List.replicate n (.proceed id)) answers next w where
  own := by
    intro a member
    rcases List.mem_append.mp member with before | after
    · exact ran.own a before
    · rw [List.eq_of_mem_replicate after]
      rfl
  answers := by
    rw [List.filterMap_append, ran.answers]
    simp [providerAnswer]
  taken := by rw [run_append, ran.taken, Option.bind_some, later]

theorem enters_alone (found : s.visit id = some v) {next : Phase}
    (proceeds : proceed d s v = some (next, s.replay)) :
    Ran d s id t v [.proceed id] [] next s.world where
  own := by simp [Own]
  answers := rfl
  taken := by
    simp only [run, step, found, Option.bind_some, proceeds, Option.map_some]
    rfl

theorem suspended_alone (fetch : Url → HttpOutcome JwkSet) {first : AuthFailure}
    (entered : Ran d s id t v [.proceed id] [] (.needsRefresh o first) s.world)
    (free : s.world.task t = none) :
    let refresh := onDemandRefresh s.world.ctx v.guard.tag ⟨s.world.clock, s.world.clock, fetch⟩
    ∃ actions phase, EndsRefresh refresh.value phase ∧
      Ran d s id t v actions (refresh.fetched.map fetch) (.refreshing o first t)
        (stand s.world refresh.contexts t ⟨.onDemand, v.guard.tag, phase⟩) := by
  have starts : step d (place s id v (.needsRefresh o first) s.world) (.startRefresh id t) =
      some (place s id v (.refreshing o first t)
        (stand s.world s.world.ctx t ⟨.onDemand, v.guard.tag, .readClock⟩)) := by
    simp only [step, place_visit, Option.bind_some]
    simp [RefreshTasks.step, place, free, stand, Server.setVisit, RefreshTasks.World.setTask,
      RefreshTasks.entryPhase, AList.insert_insert]
  obtain ⟨actions,phase,own,answers,ends,moved⟩ :=
    refresh_alone d.platform s.world s.world.ctx t v.guard.tag fetch
  refine ⟨[.proceed id] ++ .startRefresh id t :: actions.map .refresh,phase,ends,?_,?_,?_⟩
  · simpa [Own] using own
  · change (actions.map Action.refresh).filterMap providerAnswer = _
    rw [List.filterMap_map]
    exact answers
  · rw [run_append, entered.taken, Option.bind_some, run_cons starts, place_refresh, moved]
    rfl

theorem decode_read {start : Server} {before : List Action} (started : Started d start)
    (taken : run (step d) start before = some s) (found : s.visit id = some v) (stands : v.phase = .decode o) :
    readHeader d.jose o.credentials.rawToken = .ok (o.header, o.alg) := by
  obtain ⟨_,opens⟩ := (reachable_justified started taken id v found).opened o (by rw [stands]; rfl)
  simp only [openRequest, bind_ok_iff, pure_ok_iff, Prod.exists] at opens
  obtain ⟨credentials,_,header,alg,read,rfl⟩ := opens
  exact read

theorem stand_other {u : Nat} (other : u ≠ t) (w : RefreshTasks.World) (contexts : Contexts)
    (k : RefreshTasks.Task) : (stand w contexts t k).task u = w.task u :=
  AList.lookup_insert_ne other

end Calls

end KeyRotation
