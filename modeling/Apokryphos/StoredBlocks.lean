import Apokryphos.DiskSites
import Apokryphos.SiteAnswers

/-!
What is on the disk, from end to end. Whatever the files of the blocks hold has been
put there by a request that the vault guard has authenticated, under the block in
its path and in the configured size, and what is gone was deleted by such a
request. A client that reads a block reads what one of them has left, however
requests overlap, system calls fail and clients go away.
-/
namespace StoredBlocks
open BlockRegister BlockRoutes BlockStorage ConcurrentBlocks Digests DiskSites
open RequestGuards SealedFiles SerialBlocks SerialOrders ServedRequests ServerConfig SiteRoutes
open StepRuns TokenValidation
open GuardedRequests hiding Reply
open SiteAnswers hiding served
open RejectedRequests (blockGuard)

inductive Leaves (c : BlockConfig) (r : BlockRequest) (block : BlockId) : Option Bytes → Prop where
  | put {bytes} (named : Names r block) (method : r.request.method = "PUT") (fits : Fits c r bytes) :
      Leaves c r block (some bytes)
  | delete (named : Names r block) (method : r.request.method = "DELETE") : Leaves c r block none

def readResponse : Option Bytes → Response
  | some payload => respondBlock200 payload
  | none => respondBlock404

theorem readResponse_injective {a b : Option Bytes} (same : readResponse a = readResponse b) : a = b := by
  cases a with
  | none =>
    cases b with
    | none => rfl
    | some payload => exact absurd (congrArg Response.status same) (show 404 ≠ 200 by decide)
  | some payload =>
    cases b with
    | none => exact absurd (congrArg Response.status same) (show 200 ≠ 404 by decide)
    | some other => exact congrArg some (congrArg Response.body same)

theorem readResponse_available (held : Option Bytes) : readResponse held ≠ respondBlock503 := by
  intro same
  have status := congrArg Response.status same
  cases held with
  | none => exact absurd status (show 404 ≠ 503 by decide)
  | some payload => exact absurd status (show 200 ≠ 503 by decide)

theorem readResponse_unrefused (held : Option Bytes) (failure : AuthFailure) :
    readResponse held ≠ refusal failure := by
  intro same
  have status := congrArg Response.status same
  have refused : (refusal failure).status = 401 ∨ (refusal failure).status = 503 := by
    cases failure <;> first | exact .inl rfl | exact .inr rfl
  rw [← status] at refused
  cases held with
  | none => exact absurd refused (show ¬ (404 = 401 ∨ 404 = 503) by decide)
  | some payload => exact absurd refused (show ¬ (200 = 401 ∨ 200 = 503) by decide)

section Orders
variable {c : BlockConfig} {r : Forwarded} {block : BlockId} {held : Option Bytes}

theorem serve_plain (c : BlockConfig) (r : Forwarded) (m : Register) :
    (serve c m r).1.1 = (handleBlock atomicMap c ⟨m, []⟩ r.request).1 ∧
      (serve c m r).2 = (handleBlock atomicMap c ⟨m, []⟩ r.request).2.store := by
  obtain ⟨response,session⟩ :=
    Prod.mk.inj (handleBlockLogged_plain atomicMap c ⟨m, []⟩ r.request r.subject)
  exact ⟨response,congrArg Session.store session⟩

theorem update_leaves {m : Register} {id : BlockId} {value : Option Bytes}
    (left : Function.update m id value block = held) : m block = held ∨ (block = id ∧ held = value) := by
  by_cases same : block = id
  · rw [same, Function.update_self] at left
    exact .inr ⟨same,left.symm⟩
  · rw [Function.update_of_ne same] at left
    exact .inl left

theorem serve_leaves {m : Register} (left : (serve c m r).2 block = held) :
    m block = held ∨ Leaves c r.request block held := by
  rw [(serve_plain c r m).2] at left
  have handled := handleBlock_handles atomicMap c ⟨m, []⟩ r.request
  generalize handleBlock atomicMap c ⟨m, []⟩ r.request = outcome at handled left
  cases handled with
  | noBlock | noMethod | refusedPut => exact .inl left
  | @get id =>
    cases found : m id <;> exact .inl (by simpa [handleGet, Session.get, atomicMap, found] using left)
  | put named method fits =>
    refine (update_leaves left).imp_right ?_
    rintro ⟨rfl,rfl⟩
    exact .put named method fits
  | delete named method =>
    refine (update_leaves left).imp_right ?_
    rintro ⟨rfl,rfl⟩
    exact .delete named method

theorem after_leaves {m : Register} {history : List (Nat × Forwarded)}
    (left : after (serve c) m history block = held) :
    m block = held ∨ ∃ n r, (n, r) ∈ history ∧ Leaves c r.request block held := by
  induction history generalizing m with
  | nil => exact .inl left
  | cons entry rest ih =>
    rcases ih left with before | ⟨n,r,member,leaves⟩
    · rcases serve_leaves before with before | leaves
      · exact .inl before
      · exact .inr ⟨entry.1,entry.2,List.mem_cons_self,leaves⟩
    · exact .inr ⟨n,r,List.mem_cons_of_mem _ member,leaves⟩

theorem serve_reads {m : Register} (named : Names r.request block) (get : r.request.request.method = "GET") :
    (serve c m r).1.1 = readResponse (m block) := by
  rw [(serve_plain c r m).1]
  simp only [handleBlock, parsed_names.mpr named, if_pos get, handleGet, Session.get, atomicMap]
  cases m block <;> rfl

end Orders
section Runs
variable {c : SiteConfig} {start : Site Unit} {disk : LocalFs.State} {w : DiskSite} {events : List DiskEvent}
  {happenings : List Happening} {id : Nat} {v : Visit} {block : BlockId} {held : Option Bytes}

def TookEffect (c : SiteConfig) (start : Site Unit) (disk : LocalFs.State) (events : List DiskEvent)
    (id : Nat) (r : Forwarded) : Prop :=
  ∃ front h back u n, events = front ++ .service h :: back ∧
    run (diskStep c) ⟨start, opened disk, []⟩ front = some u ∧ u.visitors[n]? = some id ∧
    commit c.blocks u.service h = some (n, r)

/-- The vault guard has authenticated a request of the client, which took effect with
    the body that entered, and left the block so. -/
structure LeftBy (c : SiteConfig) (start : Site Unit) (disk : LocalFs.State) (w : DiskSite)
    (events : List DiskEvent) (block : BlockId) (held : Option Bytes) (id : Nat) (v : Visit) (sub : String)
    (body : Body) : Prop where
  visit : w.site.server.visit id = some v
  guard : v.guard = blockGuard
  authenticated : Authenticated c start.server w.site.server id v sub
  entered : .enter id body ∈ events
  effect : ∃ subject, TookEffect c start disk events id ⟨⟨v.request, body⟩, subject⟩
  leaves : Leaves c.blocks ⟨v.request, body⟩ block held

def Accounted (c : SiteConfig) (start : Site Unit) (disk : LocalFs.State) (w : DiskSite)
    (events : List DiskEvent) (block : BlockId) (held : Option Bytes) : Prop :=
  visible disk.root block = held ∨ ∃ id v sub body, LeftBy c start disk w events block held id v sub body

theorem visited_block (started : StartedSite c start) (joined : Joined c start disk happenings w)
    (found : w.site.server.visit id = some v) (leads : c.endpoint true v.request = .block) :
    v.guard = blockGuard ∧ ∀ response ∈ belonging id w.site.responses,
      (∀ failure, response ≠ refusal failure) → ∃ subject, v.phase = .answered (.forwarded subject) := by
  have standing := joined_standing started joined found
  have known {arrival : Arrival} (entered : Entered c true arrival v) : v.guard = blockGuard := by
    have same := entered.guarded
    rw [← entered.request, leads] at same
    exact (Option.some.inj same).symm
  generalize w.site.arrival id = arrival at standing
  generalize belonging id w.site.responses = responses at standing ⊢
  generalize belonging id w.site.log = log at standing
  generalize belonging id w.site.calls = calls at standing
  generalize decide (id ∈ w.site.lost) = lost at standing
  cases standing with
  | waiting entered | lost entered => exact ⟨known entered,fun _ impossible => by cases impossible⟩
  | refused entered =>
    exact ⟨known entered,fun _ member unrefused => absurd (List.mem_singleton.mp member) (unrefused _)⟩
  | @handled _ _ subject _ _ entered stands => exact ⟨known entered,fun _ _ _ => ⟨subject,stands⟩⟩

theorem leaves_listed {r : BlockRequest} (leaves : Leaves c.blocks r block held) :
    r.request.method ∈ SiteAnswers.served .block := by
  cases leaves with
  | put _ method => rw [method]; decide
  | delete _ method => rw [method]; decide

theorem TookEffect.snoc {r : Forwarded} (took : TookEffect c start disk events id r) (e : DiskEvent) :
    TookEffect c start disk (events ++ [e]) id r := by
  obtain ⟨front,h,back,u,n,rfl,rest⟩ := took
  exact ⟨front,h,back ++ [e],u,n,by simp,rest⟩

def Effective (c : SiteConfig) (start : Site Unit) (disk : LocalFs.State) (events : List DiskEvent)
    (happenings : List Happening) (visitors : List Nat) : Prop :=
  ∀ (n id : Nat) r, (n, r) ∈ order c.blocks disk happenings → visitors[n]? = some id →
    TookEffect c start disk events id r

theorem adds_effective (quiet : Quiet disk) (joined : Joined c start disk happenings w)
    (reached : run (diskStep c) ⟨start, opened disk, []⟩ events = some w)
    (effective : Effective c start disk events happenings w.visitors) {e : DiskEvent} {more : List Happening}
    {w' : DiskSite} (next : Joined c start disk (happenings ++ more) w')
    (adds : Adds w.visitors e more w'.visitors) :
    Effective c start disk (events ++ [e]) (happenings ++ more) w'.visitors := by
  intro n id r member named
  have known (old : (n, r) ∈ order c.blocks disk happenings) (named : w.visitors[n]? = some id) :
      TookEffect c start disk (events ++ [e]) id r := (effective n id r old named).snoc e
  have ordered {h : Happening} (served : run (serviceStep c.blocks) (opened disk) (happenings ++ [h]) =
      some w'.service) (member : (n, r) ∈ order c.blocks disk (happenings ++ [h])) :
      (n, r) ∈ order c.blocks disk happenings ∨ commit c.blocks w.service h = some (n, r) := by
    rw [run_append, joined.served, Option.bind_some] at served
    obtain ⟨service,stepped,_⟩ := run_cons_some served
    rw [order, history, events_snoc joined.served stepped, List.mem_append] at member
    exact member.imp_right Option.mem_toList.mp
  generalize w'.visitors = visitors at adds named
  cases adds with
  | site => exact known (by rwa [List.append_nil] at member) named
  | enter =>
    rcases ordered next.served member with old | impossible
    · rcases snoc_cases named with before | ⟨rfl,rfl⟩
      · exact known old before
      · have below := (List.getElem?_eq_some_iff.mp (run_arrived quiet joined.served _ r old)).1
        rw [joined.counted] at below
        exact absurd below (Nat.lt_irrefl _)
    · cases impossible
  | service =>
    rcases ordered next.served member with old | new
    · exact known old named
    · exact ⟨events,_,[],w,n,rfl,reached,named,new⟩

theorem run_effective (started : StartedSite c start) (mounted : start.store.isSome = true) (quiet : Quiet disk)
    (taken : run (diskStep c) ⟨start, opened disk, []⟩ events = some w) :
    ∃ happenings, Joined c start disk happenings w ∧ Told events happenings w.visitors ∧
      Effective c start disk events happenings w.visitors := by
  refine history_invariant (fun events w => ∃ happenings, Joined c start disk happenings w ∧
    Told events happenings w.visitors ∧ Effective c start disk events happenings w.visitors) ?_ ?_ taken
  · exact ⟨[],start_joined started mounted,⟨nofun,fun _ _ _ named => by cases named⟩,
      fun _ _ _ impossible => by cases impossible⟩
  · rintro front w e w' reached ⟨happenings,joined,told,effective⟩ next
    obtain ⟨more,after,adds⟩ := step_joined started quiet joined next
    exact ⟨happenings ++ more,after,adds.told told joined.counted,
      adds_effective quiet joined reached effective after adds⟩

theorem ordered_left (started : StartedSite c start) (quiet : Quiet disk)
    (joined : Joined c start disk happenings w) (told : Told events happenings w.visitors)
    (effective : Effective c start disk events happenings w.visitors) {n : Nat} {r : Forwarded}
    (ordered : (n, r) ∈ order c.blocks disk happenings) (leaves : Leaves c.blocks r.request block held) :
    ∃ id v sub body, LeftBy c start disk w events block held id v sub body := by
  have arrived : (arrivals happenings)[n]? = some r := run_arrived quiet joined.served n r ordered
  have below := (List.getElem?_eq_some_iff.mp arrived).1
  rw [joined.counted] at below
  obtain ⟨id,named⟩ : ∃ id, w.visitors[n]? = some id := ⟨_,List.getElem?_eq_getElem below⟩
  obtain ⟨v,r',arrived',admitted⟩ := joined.admitted n id named
  cases arrived.symm.trans arrived'
  have guard := (visited_block started joined admitted.visit (joined.mounted ▸ admitted.leads)).1
  have inside : v.guard.authenticates v.request.method = true := by
    rw [guard_authenticates (show Endpoint.block.guard = some v.guard by rw [guard]; rfl), admitted.request]
    exact decide_eq_true (leaves_listed leaves)
  obtain ⟨script,visits,reached⟩ := joined.refined []
  obtain ⟨sub,_,authenticated⟩ :=
    reachable_authenticated (withStore_started started) reached admitted.visit admitted.stands inside
  refine ⟨id,v,sub,r.request.body,admitted.visit,guard,authenticated,told.enter n id r named arrived,
    ⟨r.subject,?_⟩,?_⟩
  · rw [admitted.request]
    exact effective n id r ordered named
  · rw [admitted.request]
    exact leaves

theorem order_accounted (started : StartedSite c start) (quiet : Quiet disk)
    (joined : Joined c start disk happenings w) (told : Told events happenings w.visitors)
    (effective : Effective c start disk events happenings w.visitors) {front : List (Nat × Forwarded)}
    (ordered : ∀ entry ∈ front, entry ∈ order c.blocks disk happenings)
    (left : after (serve c.blocks) (visible disk.root) front block = held) :
    Accounted c start disk w events block held :=
  (after_leaves left).imp_right fun ⟨_,_,member,leaves⟩ =>
    ordered_left started quiet joined told effective (ordered _ member) leaves

theorem answered_admitted (started : StartedSite c start) (joined : Joined c start disk happenings w)
    (found : w.site.server.visit id = some v) (leads : c.endpoint true v.request = .block)
    {response : Response} (given : response ∈ belonging id w.site.responses)
    (unrefused : ∀ failure, response ≠ refusal failure) :
    ∃ n r a, (arrivals happenings)[n]? = some r ∧ v.request = r.request.request ∧
      (n, a) ∈ w.service.answers ∧ a.1 = response := by
  obtain ⟨subject,stands⟩ := (visited_block started joined found leads).2 response given unrefused
  have admitted : Admitted c w.site id v ⟨⟨v.request, .complete []⟩, subject⟩ :=
    ⟨found,stands,rfl,joined.mounted.symm ▸ leads⟩
  have visited : id ∈ w.visitors := by
    by_contra absent
    have silent := (unhandled_iff.mp (joined.outside id v _ admitted absent)).1
    rw [silent] at given
    cases given
  obtain ⟨n,named⟩ := List.mem_iff_getElem?.mp visited
  obtain ⟨v',r,arrived,admitted'⟩ := joined.admitted n id named
  cases found.symm.trans admitted'.visit
  rw [(joined.answered n id named).1, belonging, List.map_map] at given
  obtain ⟨⟨m,a⟩,own,rfl⟩ := List.mem_map.mp given
  obtain ⟨member,same⟩ := List.mem_filter.mp own
  cases of_decide_eq_true same
  exact ⟨m,r,a,arrived,admitted'.request,member,rfl⟩

/-- The blocks of the server are accounted for, and so is every answer to a `GET`. -/
theorem stored_by_clients (started : StartedSite c start) (mounted : start.store.isSome = true)
    (quiet : Quiet disk) (taken : run (diskStep c) ⟨start, opened disk, []⟩ events = some w) :
    (∀ block, Accounted c start disk w events block (visible w.service.disk.root block)) ∧
    ∀ id v block held, w.site.server.visit id = some v → c.endpoint start.store.isSome v.request = .block →
      v.request.method = "GET" → Names ⟨v.request, .complete []⟩ block →
      readResponse held ∈ belonging id w.site.responses → Accounted c start disk w events block held := by
  obtain ⟨happenings,joined,told,effective⟩ := run_effective started mounted quiet taken
  have serial := run_serial quiet joined.served
  refine ⟨fun block => ?_,?_⟩
  · rw [serial.contents]
    exact order_accounted started quiet joined told effective (fun _ member => member) rfl
  · intro id v block held found leads get named given
    obtain ⟨n,r,a,arrived,same,member,answer⟩ :=
      answered_admitted started joined found (mounted ▸ leads) given (readResponse_unrefused held)
    have available : a.1 ≠ respondBlock503 := by
      rw [answer]
      exact readResponse_available held
    obtain ⟨front,o,back,order,served⟩ := serial.available n a member available
    have known := serial.arrived n o (by rw [order]; exact List.mem_append_right _ List.mem_cons_self)
    cases arrived.symm.trans known
    have reads : (serve c.blocks (after (serve c.blocks) (visible disk.root) front) r).1.1 = _ :=
      serve_reads (same ▸ named) (same ▸ get)
    rw [served, answer] at reads
    refine order_accounted started quiet joined told effective (fun entry member => ?_)
      (readResponse_injective reads).symm
    rw [order]
    exact List.mem_append_left _ member

end Runs
def storedPut : List DiskEvent :=
  let write := { sampleGet with method := "PUT" }
  ([.act (.refresh (.setClock 101)), .receive 0 ⟨none, write⟩, .act (.proceed 0), .act (.proceed 0),
    .act (.proceed 0), .act (.proceed 0)] : List ServedRequests.Event).map .site ++
    [.enter 0 (.complete [1, 2, 3, 4]), .service (.handle 0)] ++ (putSteps 0 "a").map .service

def writeConfig : SiteConfig :=
  let read := (ProofValidation.soloProof ("http://vault.test" ++ RejectedRequests.blockTarget.text) 100).claims
  { sampleConfig RejectedRequests.blockTarget with
    deployment := {
      platform := RefreshTasks.samplePlatform
      jose := ProofValidation.soloJose GuardedRequests.soloClaims { read with htm := some "PUT" } } }

theorem stored_by_clients_put : ∃ (start : Site Unit) (w : DiskSite) (id : Nat) (v : Visit) (sub : String)
    (body : Body), visible w.service.disk.root sampleId = some [1, 2, 3, 4] ∧
    LeftBy writeConfig start emptyRoot w storedPut sampleId (some [1, 2, 3, 4]) id v sub body := by
  have evaluated : ∃ world, RefreshTasks.Started RefreshTasks.samplePlatform world ∧
      ∃ w ∈ run (diskStep writeConfig) ⟨emptySite () world, opened emptyRoot, []⟩ storedPut,
        visible w.service.disk.root sampleId = some [1, 2, 3, 4] :=
    RefreshTasks.sample_exists (by decide +kernel)
  obtain ⟨world,started,w,taken,shown⟩ := evaluated
  have fresh : StartedSite writeConfig (emptySite () world) := ⟨⟨started,rfl,rfl⟩,rfl,rfl,rfl,rfl,rfl⟩
  have accounted := (stored_by_clients fresh rfl emptyRoot_quiet taken).1 sampleId
  rw [shown] at accounted
  rcases accounted with before | ⟨id,v,sub,body,left⟩
  · cases before
  · exact ⟨_,w,id,v,sub,body,shown,left⟩

end StoredBlocks
