import Apokryphos.SerialBlocks
import Apokryphos.ServedRequests

/-!
The whole site over the local disk. The block requests that the guard has let
through enter the service of the disk, where their operations overlap; everything
else is the site as it is. For all but the contents of the blocks, a run of both is
a run of the site over some storage, so that whatever holds of the site over every
storage holds of the server. For the blocks, it is a run of the service.
-/
namespace DiskSites
open BlockRegister BlockRoutes BlockStorage ConcurrentBlocks Digests LocalFs LogEvents
open RequestGuards SealedFiles SerialOrders SerialBlocks ServedRequests SiteRoutes StepRuns
open GuardedRequests hiding Reply

/-- The requests behind the numbers of the service, in their order. -/
structure DiskSite where
  site : Site Unit
  service : Service
  visitors : List Nat

inductive DiskEvent where
  | site (e : ServedRequests.Event)
  | enter (id : Nat) (body : Body)
  | service (h : Happening)

def unasked : StorageProvider Unit where
  put _ _ _ := (.error .notFound, ())
  get _ _ := (.error .notFound, ())
  delete _ _ := (.error .notFound, ())

def aside (c : SiteConfig) (s : Site Unit) : ServedRequests.Event → Bool
  | .receive _ _ | .act _ => true
  | .handle id _ | .lose id _ | .leave id =>
    (s.server.visit id).all fun v => c.endpoint s.store.isSome v.request ≠ .block

/-- What a handler does when it ends: its answer, or that its client has gone, while
    the storage was at work or before it was asked. -/
inductive Ending where
  | answer (r : Forwarded) (a : Answer)
  | gone (r : Forwarded)
  | left (r : Forwarded)

def ending (c : BlockConfig) (s : Service) : Happening → Option (Nat × Ending)
  | .handle n =>
    match s.handlers n with
    | some (r, .running) => if asks c r = none then some (n, .answer r (answers c r noReply)) else none
    | _ => none
  | .resume n =>
    match s.handlers n with
    | some (r, .storing k) =>
      ((s.disk.call k).bind replyOf).map fun reply => (n, .answer r (answers c r reply))
    | _ => none
  | .lose n =>
    match s.handlers n with
    | some (r, .storing _) => some (n, .gone r)
    | some (r, .running) => some (n, .left r)
    | none => none
  | .arrive _ | .advance _ _ | .fail _ _ | .crash => none

def Ending.record {S : Type} (c : BlockConfig) (s : Site S) (id : Nat) (store : Option S) : Ending → Site S
  | .answer r a => (s.perform id store (asks c r).toList).answer id a
  | .gone r => { s.perform id store (asks c r).toList with lost := s.lost ++ [id] }
  | .left _ => { s with lost := s.lost ++ [id] }

def follow (c : SiteConfig) (w : DiskSite) (h : Happening) : Site Unit :=
  match ending c.blocks w.service h with
  | some (n, last) =>
    match w.visitors[n]? with
    | some id => last.record c.blocks w.site id w.site.store
    | none => w.site
  | none => w.site

def diskStep (c : SiteConfig) (w : DiskSite) : DiskEvent → Option DiskSite
  | .site e =>
    if aside c w.site e then (siteStep c unasked w.site e).map fun site => { w with site := site } else none
  | .enter id body => (w.site.server.visit id).bind fun v =>
    match v.phase with
    | .answered (.forwarded subject) =>
      if w.site.unhandled id ∧ id ∉ w.visitors ∧ c.endpoint w.site.store.isSome v.request = .block then
        (serviceStep c.blocks w.service (.arrive ⟨⟨v.request, body⟩, subject⟩)).map fun service =>
          { w with
            service := service
            visitors := w.visitors ++ [id] }
      else none
    | _ => none
  | .service (.arrive _) | .service .crash => none
  | .service h => (serviceStep c.blocks w.service h).map fun service =>
    { w with
      site := follow c w h
      service := service }

def withStore {S T : Type} (s : Site S) (store : Option T) : Site T :=
  ⟨s.server, store, s.arrivals, s.calls, s.responses, s.log, s.lost⟩

/-- A storage that answers as it is told beforehand. -/
def scripted : StorageProvider (List Reply) where
  put script _ _ := ((script.head?.getD noReply).done, script.tail)
  get script _ := ((script.head?.getD noReply).found, script.tail)
  delete script _ := ((script.head?.getD noReply).done, script.tail)

section Steps
variable {c : SiteConfig} {s t : Site Unit} {script : List Reply}

theorem withStore_receive {id : Nat} {arrival : Arrival} (mounted : s.store.isSome = true) :
    receive c (withStore s (some script)) id arrival =
      (receive c s id arrival).map fun t => withStore t (some script) := by
  unfold receive
  dsimp only [withStore]
  rw [mounted, Option.isSome_some]
  cases (c.endpoint true (c.effective arrival)).guard with
  | none => rfl
  | some guard =>
    rw [Option.map_map]
    rfl

theorem withStore_act {a : Action} :
    siteStep c scripted (withStore s (some script)) (.act a) =
      (siteStep c unasked s (.act a)).map fun t => withStore t (some script) := by
  cases a with
  | arrive => rfl
  | _ =>
    simp only [siteStep, withStore, Option.map_map]
    refine congrArg (Option.map · _) (funext fun u => ?_)
    simp only [Function.comp_apply]
    split <;> rfl

theorem withStore_handled {id : Nat} {body : Body} (mounted : s.store.isSome = true)
    (elsewhere : ∀ v, s.server.visit id = some v → c.endpoint s.store.isSome v.request ≠ .block) :
    handled c scripted (withStore s (some script)) id body =
      (handled c unasked s id body).map fun done => (done.1, (some script, done.2.2)) := by
  unfold handled
  change (s.server.visit id).bind _ = _
  cases found : s.server.visit id with
  | none => rfl
  | some v =>
    rw [Option.bind_some, Option.bind_some]
    have quiet := elsewhere v found
    cases v.phase with
    | answered reply =>
      cases reply with
      | forwarded subject =>
        dsimp only
        change (if s.unhandled id then outcome c scripted (withStore s (some script)) v subject body
          else none) = _
        cases s.unhandled id with
        | false => rfl
        | true =>
          rw [if_pos rfl, if_pos rfl]
          unfold outcome
          rw [mounted] at quiet ⊢
          rw [show (withStore s (some script)).store.isSome = true from rfl]
          cases leads : c.endpoint true v.request with
          | block => exact absurd leads quiet
          | whoami tag => rfl
          | health | fallback => rfl
      | _ => rfl
    | _ => rfl

theorem withStore_aside {e : ServedRequests.Event} (mounted : s.store.isSome = true)
    (beside : aside c s e = true) :
    siteStep c scripted (withStore s (some script)) e =
      (siteStep c unasked s e).map fun t => withStore t (some script) := by
  have elsewhere {id : Nat} (quiet : (s.server.visit id).all (fun v =>
      c.endpoint s.store.isSome v.request ≠ .block) = true) :
      ∀ v, s.server.visit id = some v → c.endpoint s.store.isSome v.request ≠ .block := by
    intro v found
    rw [found] at quiet
    exact of_decide_eq_true quiet
  cases e with
  | receive id arrival =>
    change (if s.arrival id = none then _ else none) = _
    simp only [siteStep]
    by_cases fresh : s.arrival id = none
    · rw [if_pos fresh, if_pos fresh]
      exact withStore_receive mounted
    · rw [if_neg fresh, if_neg fresh]
      rfl
  | act a => exact withStore_act
  | handle id body =>
    simp only [siteStep, withStore_handled mounted (elsewhere beside), Option.map_map]
    rfl
  | lose id body =>
    simp only [siteStep, withStore_handled mounted (elsewhere beside), Option.map_map]
    rfl
  | leave id =>
    simp only [siteStep]
    change ((s.server.visit id).bind _ : Option (Site _)) = _
    cases s.server.visit id with
    | none => rfl
    | some v =>
      rw [Option.bind_some, Option.bind_some]
      cases v.phase with
      | answered reply =>
        cases reply with
        | forwarded subject =>
          dsimp only
          change (if s.unhandled id then _ else none) = _
          cases s.unhandled id <;> rfl
        | _ => rfl
      | _ => rfl

structure Admitted (c : SiteConfig) (s : Site Unit) (id : Nat) (v : Visit) (r : Forwarded) : Prop where
  visit : s.server.visit id = some v
  stands : v.phase = .answered (.forwarded r.subject)
  request : v.request = r.request.request
  leads : c.endpoint s.store.isSome v.request = .block

theorem handled_block {id : Nat} {v : Visit} {r : Forwarded} (mounted : s.store.isSome = true)
    (admitted : Admitted c s id v r) (unhandled : s.unhandled id = true) :
    handled c scripted (withStore s (some script)) id r.request.body =
      some ((handleBlockLogged scripted c.blocks ⟨script, []⟩ r.request r.subject).1,
        some (handleBlockLogged scripted c.blocks ⟨script, []⟩ r.request r.subject).2.store,
        (handleBlockLogged scripted c.blocks ⟨script, []⟩ r.request r.subject).2.calls) := by
  have leads := admitted.leads
  rw [mounted] at leads
  unfold handled
  change (s.server.visit id).bind _ = _
  rw [admitted.visit, Option.bind_some, admitted.stands]
  change (if s.unhandled id then outcome c scripted (withStore s (some script)) v r.subject r.request.body
    else none) = _
  rw [if_pos unhandled]
  unfold outcome
  rw [show (withStore s (some script)).store.isSome = true from rfl, leads, admitted.request]
  rfl

theorem scripted_reply {r : Forwarded} {call : Call} {storage : StorageCall} {reply : ConcurrentBlocks.Reply}
    (asked : asks c.blocks r = some storage) (same : (asks c.blocks r).map opFor = some (opOf call))
    (replied : replyOf call = some reply) :
    ask scripted ⟨reply :: script, []⟩ storage = (reply, ⟨script, [storage]⟩) := by
  rw [asked, Option.map_some, Option.some.injEq] at same
  rcases storage_call same with ⟨id,payload,phase,rfl,rfl⟩ | ⟨id,phase,rfl,rfl⟩ | ⟨id,result,rfl,rfl⟩
  · cases phase <;> cases replied
    rfl
  · cases phase <;> cases replied
    rfl
  · cases result <;> cases replied
    rfl

inductive Ends (c : BlockConfig) (s : Service) : Happening → Nat → Ending → Prop where
  | idle {n r} (found : s.handlers n = some (r, .running)) (idle : asks c r = none) :
      Ends c s (.handle n) n (.answer r (answers c r noReply))
  | replied {n r k call reply} (found : s.handlers n = some (r, .storing k))
      (made : s.disk.call k = some call) (replied : replyOf call = some reply) :
      Ends c s (.resume n) n (.answer r (answers c r reply))
  | gone {n r k} (found : s.handlers n = some (r, .storing k)) : Ends c s (.lose n) n (.gone r)
  | left {n r} (found : s.handlers n = some (r, .running)) : Ends c s (.lose n) n (.left r)

def Ending.forwarded : Ending → Forwarded
  | .answer r _ | .gone r | .left r => r

def Ending.given (n : Nat) : Ending → List (Nat × Answer)
  | .answer _ a => [(n, a)]
  | .gone _ | .left _ => []

theorem ending_cases {c : BlockConfig} {service : Service} {h : Happening} {n : Nat} {last : Ending}
    (ends : ending c service h = some (n, last)) : Ends c service h n last := by
  unfold ending at ends
  split at ends
  · split at ends
    · rename_i found
      split at ends
      · rename_i idle
        cases ends
        exact .idle found idle
      · cases ends
    · cases ends
  · split at ends
    · rename_i found
      obtain ⟨reply,replied,same⟩ := Option.map_eq_some_iff.mp ends
      obtain ⟨call,made,replied⟩ := Option.bind_eq_some_iff.mp replied
      cases same
      exact .replied found made replied
    · cases ends
  · split at ends
    · rename_i found
      cases ends
      exact .gone found
    · rename_i found
      cases ends
      exact .left found
    · cases ends
  all_goals cases ends

theorem ends_found {c : BlockConfig} {service : Service} {h : Happening} {n : Nat} {last : Ending}
    (ends : Ends c service h n last) : ∃ stage, service.handlers n = some (last.forwarded, stage) := by
  cases ends with
  | idle found => exact ⟨_,found⟩
  | replied found => exact ⟨_,found⟩
  | gone found | left found => exact ⟨_,found⟩

/-- A handler that ends is a handler of the site that ends, over a storage that
    replies as the disk did. -/
theorem ends_handled {service : Service} {h : Happening} {n id : Nat} {last : Ending} {v : Visit}
    (orderly : Orderly c.blocks service) (ends : Ends c.blocks service h n last)
    (mounted : s.store.isSome = true) (admitted : Admitted c s id v last.forwarded)
    (unhandled : s.unhandled id = true) :
    ∃ replies e, siteStep c scripted (withStore s (some (replies ++ script))) e =
      some (withStore (last.record c.blocks s id s.store) (some script)) := by
  cases ends with
  | @idle n r found idle =>
    replace admitted : Admitted c s id v r := admitted
    refine ⟨[],.handle id r.request.body,?_⟩
    simp only [siteStep, List.nil_append, handled_block mounted admitted unhandled, (asks_none idle).2,
      Option.map_some, Ending.record, idle]
    rfl
  | @replied n r k call reply found made replied =>
    obtain ⟨n',r',named,same⟩ := orderly.owned k call made
    cases (orderly.waits _ _ _ found).symm.trans named
    obtain ⟨storage,asked,_⟩ := Option.map_eq_some_iff.mp same
    replace admitted : Admitted c s id v r := admitted
    refine ⟨[reply],.handle id r.request.body,?_⟩
    simp only [siteStep, List.singleton_append, handled_block mounted admitted unhandled,
      handler_resumes asked, scripted_reply asked same replied, Option.map_some, Ending.record, asked]
    rfl
  | @gone n r k found =>
    replace admitted : Admitted c s id v r := admitted
    cases asked : asks c.blocks r with
    | none =>
      refine ⟨[],.lose id r.request.body,?_⟩
      simp only [siteStep, List.nil_append, handled_block mounted admitted unhandled, (asks_none asked).2,
        Option.map_some, Ending.record, asked]
      rfl
    | some storage =>
      refine ⟨[noReply],.lose id r.request.body,?_⟩
      simp only [siteStep, List.singleton_append, handled_block mounted admitted unhandled,
        handler_resumes asked, Option.map_some, Ending.record, asked]
      cases storage <;> rfl
  | @left n r found =>
    replace admitted : Admitted c s id v r := admitted
    refine ⟨[],.leave id,?_⟩
    simp only [siteStep]
    change ((s.server.visit id).bind _ : Option (Site _)) = _
    rw [admitted.visit, Option.bind_some, admitted.stands]
    exact if_pos unhandled

theorem Admitted.kept {id : Nat} {v : Visit} {r : Forwarded} (admitted : Admitted c s id v r)
    (same : t.server.visit id = s.server.visit id) (mount : t.store.isSome = s.store.isSome) :
    Admitted c t id v r := by
  refine ⟨same.trans admitted.visit,admitted.stands,admitted.request,?_⟩
  rw [mount]
  exact admitted.leads

theorem aside_untouched {e : ServedRequests.Event} {id : Nat} {v : Visit} {r : Forwarded}
    (taken : siteStep c unasked s e = some t) (beside : aside c s e = true)
    (arrived : s.arrival id ≠ none) (admitted : Admitted c s id v r) : Untouched s t id := by
  have apart {other : Nat} (quiet : (s.server.visit other).all (fun v =>
      c.endpoint s.store.isSome v.request ≠ .block) = true) : other ≠ id := by
    rintro rfl
    rw [admitted.visit] at quiet
    exact of_decide_eq_true quiet admitted.leads
  cases siteStep_moved taken with
  | @received other arrival _ fresh took =>
    refine receive_untouched ?_ took
    rintro rfl
    exact arrived fresh
  | @acted a u inner moved =>
    have server : Untouched s { s with server := u } id :=
      ⟨rfl,(answered_settled moved admitted.visit admitted.stands).trans admitted.visit.symm,rfl,rfl,rfl,
        Iff.rfl⟩
    cases turned : turnsAway c.deployment s.server a with
    | none => exact server
    | some both =>
      obtain ⟨other,answer⟩ := both
      refine server.trans (answer_untouched ?_ answer)
      rintro rfl
      cases a with
      | proceed moved =>
        cases turnsAway_about turned
        rw [turnsAway_proceed admitted.visit, failureOf, admitted.stands] at turned
        cases turned
      | _ => cases turned
  | @handled other body done ran =>
    have different := apart beside
    exact (perform_untouched s different _ _).trans (answer_untouched different _)
  | @lost other body done ran =>
    have different := apart beside
    exact (perform_untouched s different _ _).trans (leave_untouched _ different)
  | left => exact leave_untouched s (apart beside)

theorem aside_forwarded {S : Type} {provider : StorageProvider S} {mounted : Bool} {e : ServedRequests.Event}
    {id : Nat} {v : Visit} {subject : Option Subject} (taken : siteStep c unasked s e = some t)
    (standing : Standing c provider mounted (s.arrival id) (s.server.visit id) (belonging id s.responses)
      (belonging id s.log) (belonging id s.calls) (decide (id ∈ s.lost)))
    (found : t.server.visit id = some v) (stands : v.phase = .answered (.forwarded subject)) :
    s.server.visit id = some v ∨ (belonging id t.responses = [] ∧ id ∉ t.lost) := by
  cases siteStep_moved taken with
  | @received other arrival _ fresh took =>
    by_cases own : id = other
    · subst own
      rcases receive_cases took with ⟨guard,u,_,entered,rfl⟩ | ⟨_,rfl⟩
      · cases (arrive_visit entered).symm.trans found
        cases stands
      · exact .inl found
    · exact .inl ((receive_untouched own took).visit.symm.trans found)
  | @acted a u inner moved =>
    have after : u.visit id = some v := by
      cases turned : turnsAway c.deployment s.server a <;> rw [turned] at found <;> exact found
    have moves := step_moves moved id
    rw [after] at moves
    generalize before : s.server.visit id = w at moves standing
    cases moves with
    | elsewhere => exact .inl rfl
    | arrived => exact absurd rfl (inner _ _ _)
    | @proceeded w next proceeds =>
      obtain ⟨_,_,_,silent,_,_,kept⟩ := standing_waiting standing (proceed_unanswered proceeds)
      have failed := proceed_failureOf proceeds
      rw [turnsAway_proceed before]
      cases turned : failureOf c.deployment s.server w with
      | none => exact .inr ⟨silent,of_decide_eq_false kept⟩
      | some failure =>
        rw [turned] at failed
        exact absurd (stands.symm.trans failed) (forwarded_unrefused subject failure)
    | suspended | abandoned => cases stands
  | handled | lost | left => exact .inl found

theorem record_untouched {id other : Nat} (different : other ≠ id) (last : Ending) :
    Untouched s (last.record c.blocks s other s.store) id := by
  cases last with
  | answer r a => exact (perform_untouched s different _ _).trans (answer_untouched different a)
  | gone r => exact (perform_untouched s different _ _).trans (leave_untouched _ different)
  | left r => exact leave_untouched s different

theorem record_server {id : Nat} (last : Ending) :
    (last.record c.blocks s id s.store).server = s.server ∧
      (last.record c.blocks s id s.store).store = s.store := by
  cases last <;> exact ⟨rfl,rfl⟩

end Steps
section Runs
variable {c : SiteConfig} {start : Site Unit} {disk : LocalFs.State} {w w' : DiskSite}
  {happenings : List Happening}

/-- A run of both halves, and how the numbers of the service belong to the requests
    of the site. -/
structure Joined (c : SiteConfig) (start : Site Unit) (disk : LocalFs.State) (happenings : List Happening)
    (w : DiskSite) : Prop where
  mounted : w.site.store.isSome = true
  /-- The storage of the site is told what the disk will reply. -/
  refined : ∀ rest, ∃ script visits, run (siteStep c scripted) (withStore start (some script)) visits =
    some (withStore w.site (some rest))
  served : run (serviceStep c.blocks) (opened disk) happenings = some w.service
  counted : (arrivals happenings).length = w.visitors.length
  distinct : w.visitors.Nodup
  admitted : ∀ n id : Nat, w.visitors[n]? = some id →
    ∃ v r, (arrivals happenings)[n]? = some r ∧ Admitted c w.site id v r
  waiting : ∀ n h, w.service.handlers n = some h →
    ∃ id, w.visitors[n]? = some id ∧ w.site.unhandled id = true
  answered : ∀ n id : Nat, w.visitors[n]? = some id →
    belonging id w.site.responses = (belonging n w.service.answers).map Prod.fst ∧
    belonging id w.site.log = (belonging n w.service.answers).flatMap Prod.snd
  outside : ∀ id v r, Admitted c w.site id v r → id ∉ w.visitors → w.site.unhandled id = true

theorem withStore_started {script : List ConcurrentBlocks.Reply} (started : StartedSite c start) :
    StartedSite c (withStore start (some script)) :=
  ⟨started.server,started.arrivals,started.calls,started.responses,started.log,started.lost⟩

theorem joined_stands (started : StartedSite c start) (joined : Joined c start disk happenings w) (id : Nat) :
    Stands c scripted true (withStore w.site (some [])) id := by
  obtain ⟨script,visits,reached⟩ := joined.refined []
  exact reachable_stands (withStore_started started) reached id

theorem joined_standing (started : StartedSite c start) (joined : Joined c start disk happenings w) {id : Nat}
    {v : Visit} (found : w.site.server.visit id = some v) :
    Standing c scripted true (w.site.arrival id) (some v) (belonging id w.site.responses)
      (belonging id w.site.log) (belonging id w.site.calls) (decide (id ∈ w.site.lost)) := by
  rw [← found]
  exact joined_stands started joined id

theorem joined_arrived (started : StartedSite c start) (joined : Joined c start disk happenings w) {id : Nat}
    {v : Visit} (found : w.site.server.visit id = some v) : w.site.arrival id ≠ none := by
  have standing := joined_standing started joined found
  intro absent
  rw [absent] at standing
  cases standing

theorem snoc_cases {α : Type} {front : List α} {a b : α} {n : Nat} (found : (front ++ [a])[n]? = some b) :
    front[n]? = some b ∨ (n = front.length ∧ b = a) := by
  rw [List.getElem?_append] at found
  split at found
  · exact .inl found
  · obtain ⟨below,same⟩ := List.getElem?_eq_some_iff.mp found
    rw [List.length_singleton] at below
    rw [List.getElem_singleton] at same
    exact .inr ⟨by omega,same.symm⟩

theorem snoc_old {α : Type} {front : List α} {b : α} {n : Nat} (found : front[n]? = some b) (a : α) :
    (front ++ [a])[n]? = some b := by
  rw [List.getElem?_append_left (List.getElem?_eq_some_iff.mp found).1]
  exact found

theorem joined_site (joined : Joined c start disk happenings w) {site : Site Unit}
    (mount : site.store.isSome = w.site.store.isSome)
    (refined : ∀ rest, ∃ script visits, run (siteStep c scripted) (withStore start (some script)) visits =
      some (withStore site (some rest)))
    (untouched : ∀ n id : Nat, w.visitors[n]? = some id → Untouched w.site site id)
    (outside : ∀ id v r, Admitted c site id v r → id ∉ w.visitors → site.unhandled id = true) :
    Joined c start disk happenings { w with site := site } where
  mounted := mount.trans joined.mounted
  refined := refined
  served := joined.served
  counted := joined.counted
  distinct := joined.distinct
  admitted n id named := by
    obtain ⟨v,r,arrived,admitted⟩ := joined.admitted n id named
    exact ⟨v,r,arrived,admitted.kept (untouched n id named).visit mount⟩
  waiting n h found := by
    obtain ⟨id,named,unhandled⟩ := joined.waiting n h found
    have same := untouched n id named
    obtain ⟨silent,kept⟩ := unhandled_iff.mp unhandled
    exact ⟨id,named,unhandled_iff.mpr ⟨same.responses.trans silent,fun left => kept (same.lost.mp left)⟩⟩
  answered n id named := by
    have same := untouched n id named
    rw [same.responses, same.log]
    exact joined.answered n id named
  outside := outside

theorem site_joined (started : StartedSite c start) (joined : Joined c start disk happenings w)
    {e : ServedRequests.Event} {site : Site Unit} (beside : aside c w.site e = true)
    (taken : siteStep c unasked w.site e = some site) :
    Joined c start disk happenings { w with site := site } := by
  refine joined_site joined (moved_mounted (siteStep_moved taken)) (fun rest => ?_) (fun n id named => ?_)
    fun id v r after absent => ?_
  · obtain ⟨script,visits,reached⟩ := joined.refined rest
    refine ⟨script,visits ++ [e],run_snoc reached ?_⟩
    rw [withStore_aside joined.mounted beside, taken]
    rfl
  · obtain ⟨v,r,_,admitted⟩ := joined.admitted n id named
    exact aside_untouched taken beside (joined_arrived started joined admitted.visit) admitted
  · rcases aside_forwarded taken (joined_stands started joined id) after.visit after.stands with old | new
    · have before : Admitted c w.site id v r :=
        after.kept (old.trans after.visit.symm) (moved_mounted (siteStep_moved taken)).symm
      have same := aside_untouched taken beside (joined_arrived started joined old) before
      obtain ⟨silent,kept⟩ := unhandled_iff.mp (joined.outside id v r before absent)
      exact unhandled_iff.mpr ⟨same.responses.trans silent,fun left => kept (same.lost.mp left)⟩
    · exact unhandled_iff.mpr new

theorem enter_joined (started : StartedSite c start) (quiet : Quiet disk)
    (joined : Joined c start disk happenings w) {id : Nat} {v : Visit} {r : Forwarded} {service : Service}
    (admitted : Admitted c w.site id v r) (unhandled : w.site.unhandled id = true) (fresh : id ∉ w.visitors)
    (taken : serviceStep c.blocks w.service (.arrive r) = some service) :
    Joined c start disk (happenings ++ [.arrive r])
      { w with
        service := service
        visitors := w.visitors ++ [id] } := by
  have orderly : Orderly c.blocks w.service := run_good (points c.blocks) (opened_orderly quiet) joined.served
  have next : w.service.next = w.visitors.length := (run_known quiet joined.served).next.trans joined.counted
  have answers : service.answers = w.service.answers := by
    cases taken
    rfl
  have unseen : belonging w.service.next w.service.answers = [] := by
    rw [belonging_nil_iff]
    intro entry member same
    exact Nat.lt_irrefl _ (same ▸ orderly.settled _ (List.mem_map_of_mem member)).arrived
  obtain ⟨silent,kept⟩ := unhandled_iff.mp unhandled
  have unlogged : belonging id w.site.log = [] := by
    have standing := joined_stands started joined id
    unfold Stands at standing
    change Standing c scripted true (w.site.arrival id) (w.site.server.visit id) (belonging id w.site.responses)
      (belonging id w.site.log) (belonging id w.site.calls) (decide (id ∈ w.site.lost)) at standing
    rw [admitted.visit, silent, decide_eq_false kept] at standing
    obtain ⟨_,_,_,log,_⟩ := standing_unanswered standing
    exact log
  have more : arrivals (happenings ++ [.arrive r]) = arrivals happenings ++ [r] := List.filterMap_append
  have last : (w.visitors ++ [id])[w.service.next]? = some id := by
    rw [next]
    exact List.getElem?_concat_length
  have numbered : (arrivals happenings ++ [r])[w.service.next]? = some r := by
    rw [next, ← joined.counted]
    exact List.getElem?_concat_length
  exact {
    mounted := joined.mounted
    refined := joined.refined
    served := run_snoc joined.served taken
    counted := by rw [more, List.length_append, joined.counted, List.length_append]; rfl
    distinct := List.nodup_append.mpr ⟨joined.distinct,List.pairwise_singleton _ _,by
      rintro other member _ new rfl
      cases List.mem_singleton.mp new
      exact fresh member⟩
    admitted := by
      intro n other named
      rw [more]
      rcases snoc_cases named with old | ⟨rfl,rfl⟩
      · obtain ⟨v',r',arrived,still⟩ := joined.admitted n other old
        exact ⟨v',r',snoc_old arrived r,still⟩
      · exact ⟨v,r,next ▸ numbered,admitted⟩
    waiting := by
      intro n h found
      cases taken
      rcases update_some found with ⟨rfl,_⟩ | ⟨_,found⟩
      · exact ⟨id,last,unhandled⟩
      · obtain ⟨other,named,still⟩ := joined.waiting n h found
        exact ⟨other,snoc_old named id,still⟩
    answered := by
      intro n other named
      rw [answers]
      rcases snoc_cases named with old | ⟨rfl,rfl⟩
      · exact joined.answered n other old
      · rw [← next, unseen, silent, unlogged]
        exact ⟨rfl,rfl⟩
    outside := fun other v' r' theirs absent =>
      joined.outside other v' r' theirs fun member => absent (List.mem_append_left _ member) }

theorem service_ends {service after : Service} {h : Happening}
    (taken : serviceStep c.blocks service h = some after) (inner : ∀ r, h ≠ .arrive r) :
    (∀ n h', after.handlers n = some h' → ∃ h', service.handlers n = some h') ∧
    ((ending c.blocks service h = none ∧ after.answers = service.answers) ∨
      ∃ n last, ending c.blocks service h = some (n, last) ∧ after.handlers n = none ∧
        after.answers = service.answers ++ last.given n) := by
  have erased {n m : Nat} {h' : Forwarded × Stage}
      (found : Function.update service.handlers n none m = some h') :
      ∃ h', service.handlers m = some h' := ⟨_,(erased_some found).2⟩
  cases (serviceStep_cases taken).1 with
  | arrived r => exact absurd rfl (inner r)
  | @answered n r found idle =>
    refine ⟨fun m h' => erased,.inr ⟨n,.answer r (answers c.blocks r noReply),?_,?_,rfl⟩⟩
    · simp only [ending, found, idle, if_true]
    · exact Function.update_self _ _ _
  | @spawned n r call found asked =>
    refine ⟨fun m h' new => ?_,.inl ⟨?_,rfl⟩⟩
    · rcases update_some new with ⟨rfl,_⟩ | ⟨_,old⟩
      · exact ⟨_,found⟩
      · exact ⟨_,old⟩
    · simp only [ending, found, asked, reduceCtorEq, if_false]
  | advanced | failed => exact ⟨fun m h' found => ⟨h',found⟩,.inl ⟨rfl,rfl⟩⟩
  | @resumed n r k call reply found made replied =>
    refine ⟨fun m h' => erased,.inr ⟨n,.answer r (answers c.blocks r reply),?_,?_,rfl⟩⟩
    · simp only [ending, found, made, replied, Option.bind_some, Option.map_some]
    · exact Function.update_self _ _ _
  | @lost n h found =>
    obtain ⟨r,stage⟩ := h
    refine ⟨fun m h' => erased,?_⟩
    cases stage with
    | running =>
      refine .inr ⟨n,.left r,?_,Function.update_self _ _ _,(List.append_nil _).symm⟩
      simp only [ending, found]
    | storing k =>
      refine .inr ⟨n,.gone r,?_,Function.update_self _ _ _,(List.append_nil _).symm⟩
      simp only [ending, found]
  | crashed =>
    refine ⟨fun m h' impossible => ?_,.inl ⟨rfl,rfl⟩⟩
    cases impossible

theorem record_answered {site : Site Unit} {id n : Nat} (last : Ending) {answers : List (Nat × Answer)}
    (responses : belonging id site.responses = (belonging n answers).map Prod.fst)
    (log : belonging id site.log = (belonging n answers).flatMap Prod.snd) :
    belonging id (last.record c.blocks site id site.store).responses =
      (belonging n (answers ++ last.given n)).map Prod.fst ∧
    belonging id (last.record c.blocks site id site.store).log =
      (belonging n (answers ++ last.given n)).flatMap Prod.snd := by
  cases last with
  | answer r a =>
    have own : belonging n (answers ++ [(n, a)]) = belonging n answers ++ [a] := by
      rw [belonging_append, ← List.map_singleton (f := fun entry => (n, entry)), belonging_own]
    dsimp only [Ending.record, Ending.given]
    rw [answer_responses, answer_log, own, List.map_append, List.flatMap_append]
    refine ⟨congrArg (· ++ _) responses,?_⟩
    rw [List.flatMap_singleton]
    exact congrArg (· ++ _) log
  | gone r | left r =>
    dsimp only [Ending.record, Ending.given]
    rw [List.append_nil]
    exact ⟨responses,log⟩

theorem service_joined (quiet : Quiet disk) (joined : Joined c start disk happenings w) {h : Happening}
    {service : Service} (inner : ∀ r, h ≠ .arrive r)
    (taken : serviceStep c.blocks w.service h = some service) :
    Joined c start disk (happenings ++ [h])
      { w with
        site := follow c w h
        service := service } := by
  have orderly : Orderly c.blocks w.service := run_good (points c.blocks) (opened_orderly quiet) joined.served
  have same : arrivals (happenings ++ [h]) = arrivals happenings := by
    unfold arrivals
    rw [List.filterMap_append]
    cases h with
    | arrive r => exact absurd rfl (inner r)
    | _ => exact List.append_nil _
  have served := run_snoc joined.served taken
  obtain ⟨older,ended⟩ := service_ends taken inner
  rcases ended with ⟨goes,answers⟩ | ⟨n,last,stops,closed,answers⟩
  · have still : follow c w h = w.site := by simp only [follow, goes]
    rw [still]
    exact {
      mounted := joined.mounted
      refined := joined.refined
      served := served
      counted := same ▸ joined.counted
      distinct := joined.distinct
      admitted := same ▸ joined.admitted
      waiting := fun n h' found => by
        obtain ⟨_,before⟩ := older n h' found
        exact joined.waiting n _ before
      answered := by
        dsimp only
        rw [answers]
        exact joined.answered
      outside := joined.outside }
  · have ends := ending_cases stops
    obtain ⟨stage,found⟩ := ends_found ends
    obtain ⟨id,named,unhandled⟩ := joined.waiting n _ found
    have next : follow c w h = last.record c.blocks w.site id w.site.store := by
      simp only [follow, stops, named]
    rw [next]
    have server : (last.record c.blocks w.site id w.site.store).server = w.site.server := (record_server last).1
    have store : (last.record c.blocks w.site id w.site.store).store = w.site.store := (record_server last).2
    have apart {m other : Nat} (different : m ≠ n) (theirs : w.visitors[m]? = some other) : id ≠ other := by
      rintro rfl
      have below := (List.getElem?_eq_some_iff.mp theirs).1
      exact different ((List.getElem?_inj below joined.distinct).mp (theirs.trans named.symm))
    have untouched {m other : Nat} (different : m ≠ n) (theirs : w.visitors[m]? = some other) :
        Untouched w.site (last.record c.blocks w.site id w.site.store) other :=
      record_untouched (apart different theirs) last
    exact {
      mounted := by rw [store]; exact joined.mounted
      refined := by
        intro rest
        obtain ⟨v,r,arrived,admitted⟩ := joined.admitted n id named
        cases arrived.symm.trans ((run_known quiet joined.served).handlers n _ found)
        obtain ⟨replies,e,moved⟩ := ends_handled orderly ends joined.mounted admitted unhandled
        obtain ⟨script,visits,reached⟩ := joined.refined (replies ++ rest)
        exact ⟨script,visits ++ [e],run_snoc reached moved⟩
      served := served
      counted := same ▸ joined.counted
      distinct := joined.distinct
      admitted := by
        rw [same]
        intro m other theirs
        obtain ⟨v,r,arrived,admitted⟩ := joined.admitted m other theirs
        refine ⟨v,r,arrived,admitted.kept ?_ ?_⟩
        · rw [server]
        · rw [store]
      waiting := by
        intro m h' found'
        have different : m ≠ n := by
          rintro rfl
          rw [closed] at found'
          cases found'
        obtain ⟨_,before⟩ := older m h' found'
        obtain ⟨other,theirs,still⟩ := joined.waiting m _ before
        have same := untouched different theirs
        obtain ⟨silent,kept⟩ := unhandled_iff.mp still
        exact ⟨other,theirs,unhandled_iff.mpr
          ⟨same.responses.trans silent,fun left => kept (same.lost.mp left)⟩⟩
      answered := by
        intro m other theirs
        dsimp only
        rw [answers]
        obtain ⟨responses,log⟩ := joined.answered m other theirs
        by_cases own : m = n
        · subst own
          cases theirs.symm.trans named
          exact record_answered last responses log
        · have same := untouched own theirs
          have silent : belonging m (last.given n) = [] := by
            cases last with
            | answer r a =>
              rw [belonging_nil_iff]
              intro entry member
              cases List.mem_singleton.mp member
              exact Ne.symm own
            | gone r | left r => rfl
          rw [same.responses, same.log, belonging_append, silent, List.append_nil]
          exact ⟨responses,log⟩
      outside := by
        intro other v r theirs absent
        have different : id ≠ other := by
          rintro rfl
          exact absent (List.mem_of_getElem? named)
        have same : Untouched w.site (last.record c.blocks w.site id w.site.store) other :=
          record_untouched different last
        obtain ⟨silent,kept⟩ := unhandled_iff.mp (joined.outside other v r
          (theirs.kept same.visit.symm (by rw [store])) absent)
        exact unhandled_iff.mpr ⟨same.responses.trans silent,fun left => kept (same.lost.mp left)⟩ }

theorem start_joined (started : StartedSite c start) (mounted : start.store.isSome = true) :
    Joined c start disk [] ⟨start, opened disk, []⟩ where
  mounted := mounted
  refined rest := ⟨rest,[],rfl⟩
  served := rfl
  counted := rfl
  distinct := List.nodup_nil
  admitted n id named := by cases named
  waiting n h found := by cases found
  answered n id named := by cases named
  outside id v r admitted _ := by
    have visited := admitted.visit
    unfold Server.visit at visited
    rw [started.server.visits] at visited
    cases visited

inductive Adds (visitors : List Nat) : DiskEvent → List Happening → List Nat → Prop where
  | site {e} : Adds visitors (.site e) [] visitors
  | enter {id r} : Adds visitors (.enter id r.request.body) [.arrive r] (visitors ++ [id])
  | service {h} (inner : ∀ r, h ≠ .arrive r) : Adds visitors (.service h) [h] visitors

theorem step_joined (started : StartedSite c start) (quiet : Quiet disk)
    (joined : Joined c start disk happenings w) {e : DiskEvent} (taken : diskStep c w e = some w') :
    ∃ more, Joined c start disk (happenings ++ more) w' ∧ Adds w.visitors e more w'.visitors := by
  cases e with
  | site e =>
    obtain ⟨beside,taken⟩ := Option.ite_none_right_eq_some.mp taken
    obtain ⟨site,moved,rfl⟩ := Option.map_eq_some_iff.mp taken
    refine ⟨[],?_,.site⟩
    rw [List.append_nil]
    exact site_joined started joined beside moved
  | enter id body =>
    obtain ⟨v,found,taken⟩ := Option.bind_eq_some_iff.mp taken
    split at taken
    · rename_i subject stands
      obtain ⟨⟨unhandled,fresh,leads⟩,taken⟩ := Option.ite_none_right_eq_some.mp taken
      obtain ⟨service,moved,rfl⟩ := Option.map_eq_some_iff.mp taken
      have admitted : Admitted c w.site id v ⟨⟨v.request, body⟩, subject⟩ := ⟨found,stands,rfl,leads⟩
      exact ⟨_,enter_joined started quiet joined admitted unhandled fresh moved,
        .enter (r := ⟨⟨v.request, body⟩, subject⟩)⟩
    · cases taken
  | service h =>
    have inner : ∀ r, h ≠ .arrive r := by
      rintro r rfl
      cases taken
    have moved : ∃ service, serviceStep c.blocks w.service h = some service ∧
        { w with
          site := follow c w h
          service := service } = w' := by
      cases h with
      | arrive | crash => cases taken
      | _ => exact Option.map_eq_some_iff.mp taken
    obtain ⟨service,moved,rfl⟩ := moved
    exact ⟨_,service_joined quiet joined inner moved,.service inner⟩

variable {events : List DiskEvent}

structure Told (events : List DiskEvent) (happenings : List Happening) (visitors : List Nat) : Prop where
  service : ∀ h ∈ happenings, .service h ∈ events ∨ ∃ r, h = .arrive r
  enter : ∀ (n id : Nat) r, visitors[n]? = some id → (arrivals happenings)[n]? = some r →
    .enter id r.request.body ∈ events

theorem Adds.told {e : DiskEvent} {more : List Happening} {visitors after : List Nat}
    (told : Told events happenings visitors) (counted : (arrivals happenings).length = visitors.length)
    (adds : Adds visitors e more after) : Told (events ++ [e]) (happenings ++ more) after := by
  have old {h : Happening} (member : h ∈ happenings) : .service h ∈ events ++ [e] ∨ ∃ r, h = .arrive r :=
    (told.service h member).imp_left (List.mem_append_left _)
  refine ⟨fun h member => ?_,fun n id r named arrived => ?_⟩
  · rcases List.mem_append.mp member with before | new
    · exact old before
    · cases adds with
      | site => cases new
      | enter => exact .inr ⟨_,List.mem_singleton.mp new⟩
      | service =>
        rw [List.mem_singleton.mp new]
        exact .inl (List.mem_append_right _ List.mem_cons_self)
  · have known (named : visitors[n]? = some id) (arrived : (arrivals happenings)[n]? = some r) :
        .enter id r.request.body ∈ events ++ [e] :=
      List.mem_append_left _ (told.enter n id r named arrived)
    simp only [arrivals, List.filterMap_append] at arrived
    cases adds with
    | site => exact known named (by rwa [List.filterMap_nil, List.append_nil] at arrived)
    | @enter entered r' =>
      rcases snoc_cases named with before | ⟨rfl,rfl⟩
      · rcases snoc_cases arrived with earlier | ⟨same,_⟩
        · exact known before earlier
        · have below := (List.getElem?_eq_some_iff.mp before).1
          rw [same, ← counted] at below
          exact absurd below (Nat.lt_irrefl _)
      · rcases snoc_cases arrived with earlier | ⟨_,rfl⟩
        · have below := (List.getElem?_eq_some_iff.mp earlier).1
          rw [← counted] at below
          exact absurd below (Nat.lt_irrefl _)
        · exact List.mem_append_right _ List.mem_cons_self
    | @service h inner =>
      refine known named ?_
      cases h with
      | arrive r => exact absurd rfl (inner r)
      | _ => rwa [show List.filterMap _ [_] = [] from rfl, List.append_nil] at arrived

theorem run_joined (started : StartedSite c start) (mounted : start.store.isSome = true) (quiet : Quiet disk)
    (taken : run (diskStep c) ⟨start, opened disk, []⟩ events = some w) :
    ∃ happenings, Joined c start disk happenings w ∧ Told events happenings w.visitors := by
  refine history_invariant (fun events w => ∃ happenings, Joined c start disk happenings w ∧
    Told events happenings w.visitors) ?_ ?_ taken
  · exact ⟨[],start_joined started mounted,⟨nofun,fun _ _ _ named => by cases named⟩⟩
  · rintro front w e w' _ ⟨happenings,joined,told⟩ next
    obtain ⟨more,after,adds⟩ := step_joined started quiet joined next
    exact ⟨happenings ++ more,after,adds.told told joined.counted⟩

/-- The server over the disk is the site over some storage, with the same
    authentications, responses, events and lost clients. The service is entered only by
    requests that the guard has let through to the block route, by each at most once;
    they are answered in an order of theirs, and none is answered without the service. -/
theorem site_over_disk (started : StartedSite c start) (mounted : start.store.isSome = true)
    (quiet : Quiet disk) (taken : run (diskStep c) ⟨start, opened disk, []⟩ events = some w) :
    (∃ script visits, StartedSite c (withStore start (some script)) ∧
      run (siteStep c scripted) (withStore start (some script)) visits = some (withStore w.site (some []))) ∧
    (∃ happenings, Told events happenings w.visitors ∧
      (arrivals happenings).length = w.visitors.length ∧ w.visitors.Nodup ∧
      run (serviceStep c.blocks) (opened disk) happenings = some w.service ∧
      Serial c.blocks disk happenings w.service (order c.blocks disk happenings) ∧
      ∀ n id : Nat, w.visitors[n]? = some id →
        (∃ v r, (arrivals happenings)[n]? = some r ∧ Admitted c w.site id v r) ∧
        belonging id w.site.responses = (belonging n w.service.answers).map Prod.fst ∧
        belonging id w.site.log = (belonging n w.service.answers).flatMap Prod.snd) ∧
    ∀ id v r, Admitted c w.site id v r → belonging id w.site.responses ≠ [] → id ∈ w.visitors := by
  obtain ⟨happenings,joined,told⟩ := run_joined started mounted quiet taken
  refine ⟨?_,⟨happenings,told,joined.counted,joined.distinct,joined.served,
    run_serial quiet joined.served,fun n id named => ?_⟩,?_⟩
  · obtain ⟨script,visits,reached⟩ := joined.refined []
    exact ⟨script,visits,withStore_started started,reached⟩
  · exact ⟨joined.admitted n id named,joined.answered n id named⟩
  · intro id v r admitted responded
    by_contra absent
    exact responded (unhandled_iff.mp (joined.outside id v r admitted absent)).1

end Runs

def storedBlock : List LocalFs.Event := .start (.put sampleId [1, 2, 3, 4]) :: putEvents 0 "a" 4 ++ [.crash]

theorem storedBlock_quiet {disk : LocalFs.State} (reached : run LocalFs.step emptyRoot storedBlock = some disk) :
    Quiet disk := by
  refine ⟨(run_sound emptyRoot_quiet reached).rooted,?_⟩
  rw [storedBlock, run_append] at reached
  obtain ⟨u,_,last⟩ := Option.bind_eq_some_iff.mp reached
  cases last
  rfl

def storedRead : List DiskEvent :=
  ((sampleVisits RejectedRequests.blockTarget).take 6).map .site ++
    [.enter 0 (.complete []), .service (.handle 0), .service (.advance 1 ⟨"", 0⟩),
      .service (.advance 1 ⟨"", 4⟩), .service (.advance 1 ⟨"", 0⟩), .service (.resume 0)]

theorem site_over_disk_stored : ∃ w : DiskSite, w.visitors = [0] ∧
    w.site.responses = [(0, respondBlock200 [1, 2, 3, 4])] ∧
    ∃ (start : Site Unit) (script : List ConcurrentBlocks.Reply) (visits : List ServedRequests.Event),
      run (siteStep (sampleConfig RejectedRequests.blockTarget) scripted) (withStore start (some script))
        visits = some (withStore w.site (some [])) := by
  have evaluated : ∃ world, RefreshTasks.Started RefreshTasks.samplePlatform world ∧
      ∃ disk ∈ run LocalFs.step emptyRoot storedBlock,
        ∃ w ∈ run (diskStep (sampleConfig RejectedRequests.blockTarget))
          ⟨emptySite () world, opened disk, []⟩ storedRead,
          w.visitors = [0] ∧ w.site.responses = [(0, respondBlock200 [1, 2, 3, 4])] :=
    RefreshTasks.sample_exists (by decide +kernel)
  obtain ⟨world,started,disk,stored,w,taken,visitors,responses⟩ := evaluated
  obtain ⟨⟨script,visits,_,reached⟩,_⟩ :=
    site_over_disk (emptySite_started () started) rfl (storedBlock_quiet stored) taken
  exact ⟨w,visitors,responses,_,script,visits,reached⟩

end DiskSites
