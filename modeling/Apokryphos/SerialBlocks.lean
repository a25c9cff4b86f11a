import Apokryphos.ConcurrentBlocks
import Apokryphos.RejectedRequests

/-!
Overlapping block requests have an order. A request takes effect with one system
call of its operation, or when its handler answers without one; the requests in
the order of these moments are a run of the handler over a map. A request that
fails with the storage is not in it, unless it is a get.
-/
namespace SerialBlocks
open BlockRegister BlockRoutes BlockStorage ConcurrentBlocks Digests LocalFs SealedFiles SerialOrders
open SiteRoutes StepRuns

section Steps
variable {c : BlockConfig} {s t : Service} {e : Happening}

theorem commit_cases {n : Nat} {r : Forwarded} (taken : serviceStep c s e = some t)
    (now : commit c s e = some (n, r)) :
    (e = .handle n ∧ s.handlers n = some (r, .running) ∧ asks c r = none ∧
      t = s.answer n (answers c r noReply)) ∨
    ∃ k choice call, e = .advance k choice ∧ s.disk.call k = some call ∧ commits call = true ∧
      s.callers k = some (n, r) := by
  cases e with
  | handle m =>
    simp only [commit] at now
    split at now
    · rename_i r' found
      split at now
      · rename_i idle
        cases now
        simp only [serviceStep, found, idle, Option.some.injEq] at taken
        exact .inl ⟨rfl,found,idle,taken.symm⟩
      · cases now
    · cases now
  | advance k choice =>
    obtain ⟨call,made,named⟩ := Option.bind_eq_some_iff.mp now
    split at named
    · rename_i commits
      exact .inr ⟨k,choice,call,rfl,made,commits,named⟩
    · cases named
  | _ => cases now

theorem advance_disk {k : Nat} {choice : Choice} (taken : serviceStep c s (.advance k choice) = some t) :
    step s.disk (.advance k choice) = some t.disk ∧ t.callers = s.callers ∧ t.answers = s.answers := by
  obtain ⟨disk,moved,rfl⟩ := Option.map_eq_some_iff.mp taken
  exact ⟨moved,rfl,rfl⟩

theorem commits_serves {root : Root} {r : Forwarded} {call : Call}
    (asked : (asks c r).map opFor = some (opOf call)) (now : commits call = true) :
    (serve c (visible root) r).2 = (pendingEffect call).toList.foldl Effect.apply (visible root) := by
  obtain ⟨storage,found,same⟩ := Option.map_eq_some_iff.mp asked
  rw [serve_asked found]
  cases call with
  | put id payload phase =>
    cases storage <;> cases same
    cases phase <;> first | rfl | cases now
  | get id phase =>
    cases storage <;> cases same
    rfl
  | delete id result =>
    cases storage <;> cases same
    cases result <;> first | rfl | cases now
  | exists_ id result => cases now

theorem advance_view (orderly : Orderly c s) {k : Nat} {choice : Choice} {call : Call}
    (taken : serviceStep c s (.advance k choice) = some t) (made : s.disk.call k = some call) :
    visible t.disk.root = (pendingEffect call).toList.foldl Effect.apply (visible s.disk.root) := by
  have seen := step_visible orderly.sound (advance_disk taken).1
  simp only [effectOf, made, Option.bind_some] at seen
  exact seen

theorem commit_view (orderly : Orderly c s) {n : Nat} {r : Forwarded} (taken : serviceStep c s e = some t)
    (now : commit c s e = some (n, r)) : visible t.disk.root = (serve c (visible s.disk.root) r).2 := by
  rcases commit_cases taken now with ⟨_,_,idle,rfl⟩ | ⟨k,choice,call,rfl,made,commits,named⟩
  · rw [serve_none idle]
    rfl
  · obtain ⟨n',r',named',asked⟩ := orderly.owned k call made
    cases named.symm.trans named'
    rw [commits_serves asked commits]
    exact advance_view orderly taken made

theorem idle_view (orderly : Orderly c s) (taken : serviceStep c s e = some t)
    (quiet : commit c s e = none) : visible t.disk.root = visible s.disk.root := by
  cases e with
  | advance k choice =>
    obtain ⟨disk,moved,rfl⟩ := Option.map_eq_some_iff.mp taken
    cases LocalFs.step_cases moved with
    | @advanced _ _ before after op made =>
      obtain ⟨n,r,named,_⟩ := orderly.owned k before made
      have silent : commits before ≠ true := by
        intro commits
        simp [commit, made, commits, named] at quiet
      refine (advance_view orderly taken made).trans ?_
      cases before with
      | put id payload phase => cases phase <;> first | rfl | exact absurd rfl silent
      | get id phase => rfl
      | delete id result => cases result <;> first | rfl | exact absurd rfl silent
      | exists_ id result => rfl
  | fail k kind =>
    obtain ⟨disk,moved,rfl⟩ := Option.map_eq_some_iff.mp taken
    exact step_visible orderly.sound moved
  | _ =>
    cases (serviceStep_cases taken).1 <;> rfl

/-- What a call that has taken effect will have its request answered with. -/
inductive Owes (c : BlockConfig) (root : Root) (r : Forwarded) : Call → Answer → Prop where
  | reading {id inode got f} (has : root.inodes[inode]? = some f) :
      Owes c root r (.get id (.reading inode got)) (answers c r (foundReply (.ok f.data)))
  | persisted {id payload} : Owes c root r (.put id payload .persisted) (answers c r (doneReply (.ok ())))
  | replied {call reply} (replied : replyOf call = some reply)
      (available : (answers c r reply).1 ≠ respondBlock503) : Owes c root r call (answers c r reply)

/-- What a request has been answered, or will be, if the storage has not failed. -/
inductive Owing (c : BlockConfig) (s : Service) (n : Nat) (a : Answer) : Prop where
  | answered (available : a.1 ≠ respondBlock503) (member : (n, a) ∈ s.answers)
  | called {k r call} (named : s.callers k = some (n, r)) (made : s.disk.call k = some call)
      (owes : Owes c s.disk.root r call a)

theorem start_owes {root : Root} {r : Forwarded} {op : Op} {a : Answer}
    (owes : Owes c root r op.call a) : False := by
  cases op <;> cases owes with | replied replied => cases replied

theorem commits_owes {root : Root} {r : Forwarded} {call : Call} {a : Answer} (now : commits call = true)
    (owes : Owes c root r call a) : False := by
  cases owes with
  | reading | persisted => cases now
  | replied replied =>
    have ended := replied_past replied
    rw [commits_past now] at ended
    cases ended

theorem storage_call {call : Call} {storage : StorageCall} (same : opFor storage = opOf call) :
    (∃ id payload phase, storage = .put id payload ∧ call = .put id payload phase) ∨
    (∃ id phase, storage = .get id ∧ call = .get id phase) ∨
    ∃ id result, storage = .delete id ∧ call = .delete id result := by
  cases storage <;> cases call <;> cases same
  · exact .inl ⟨_,_,_,rfl,rfl⟩
  · exact .inr (.inl ⟨_,_,rfl,rfl⟩)
  · exact .inr (.inr ⟨_,_,rfl,rfl⟩)

theorem commit_owes (orderly : Orderly c s) {call next : Call} {op : Option FileOp} {r : Forwarded}
    {a : Answer} (asked : (asks c r).map opFor = some (opOf call)) (now : commits call = true)
    (moves : Advances s.disk.root call next op)
    (owes : Owes c (Root.performed s.disk.root op) r next a) :
    (serve c (visible s.disk.root) r).1 = a := by
  obtain ⟨storage,found,same⟩ := Option.map_eq_some_iff.mp asked
  rw [serve_asked found]
  rcases storage_call same with ⟨id,payload,phase,rfl,rfl⟩ | ⟨id,phase,rfl,rfl⟩ | ⟨id,result,rfl,rfl⟩
  · cases moves with
    | put moves =>
      cases moves <;> try cases now
      cases owes with
      | persisted => rfl
      | replied replied => cases replied
  · cases moves with
    | missing absent =>
      cases owes with
      | replied replied =>
        cases replied
        simp only [served, visible_missing absent]
        rfl
    | opened leads =>
      cases owes with
      | reading has =>
        obtain ⟨f,has',shown⟩ := visible_found orderly.sound leads
        cases has.symm.trans has'
        simp only [served, shown]
        rfl
      | replied replied => cases replied
    | read | whole => cases now
  · cases moves with
    | absent | unlink =>
      cases owes with
      | replied replied =>
        cases replied
        rfl

theorem advance_owes (orderly : Orderly c s) {k : Nat} {call next : Call} {op : Option FileOp} {r : Forwarded}
    {a : Answer} (made : s.disk.call k = some call) (asked : (asks c r).map opFor = some (opOf call))
    (quiet : commits call ≠ true) (moves : Advances s.disk.root call next op)
    (owes : Owes c (Root.performed s.disk.root op) r next a) : Owes c s.disk.root r call a := by
  cases moves with
  | put moves =>
    cases moves with
    | finish =>
      cases owes with
      | replied replied =>
        cases replied
        exact .persisted
    | @drop temp kind =>
      cases owes with
      | replied replied available =>
        refine absurd ((answers_unavailable ?_ ?_ replied).mpr nofun) available
        · exact asked
        · intro e failed
          exact orderly.backed k _ e made failed
    | rename => exact absurd rfl quiet
    | _ => cases owes with | replied replied => cases replied
  | read has =>
    cases owes with
    | reading has' =>
      cases has.symm.trans has'
      exact .reading has
    | replied replied => cases replied
  | @whole id inode got f has complete =>
    obtain ⟨f',has',begun⟩ := orderly.sound.filled k _ made
    cases has.symm.trans has'
    cases owes with
    | replied replied =>
      cases replied
      rw [begun.eq_of_length_le complete]
      exact .reading has
  | missing | opened | absent | unlink => exact absurd rfl quiet
  | stat => cases owes with | replied replied => cases replied

theorem fail_owes {root : Root} {kind : IoErrorKind} {call next : Call} {r : Forwarded} {a : Answer}
    (asked : (asks c r).map opFor = some (opOf next)) (fails : Fails kind call next)
    (backed : ∀ e, errorOf next = some e → ∃ kind, e = backend kind) (owes : Owes c root r next a) :
    False := by
  have failed : errorOf next ≠ none ∨ ∃ id result, next = .exists_ id result := by
    cases fails with
    | exists_ => exact .inr ⟨_,_,rfl⟩
    | _ => exact .inl nofun
  cases owes with
  | reading => cases fails
  | persisted => cases fails
  | replied replied available =>
    rcases failed with failed | ⟨id,result,rfl⟩
    · exact available ((answers_unavailable asked backed replied).mpr failed)
    · cases replied

theorem frozen_disk (orderly : Orderly c s) (taken : serviceStep c s e = some t) {inode k : Nat} {call : Call}
    (made : s.disk.call k = some call) (reads : sourceOf call = some inode) :
    t.disk.root.inodes[inode]? = s.disk.root.inodes[inode]? := by
  rcases (serviceStep_cases taken).2 with same | ⟨_,moved⟩
  · rw [same]
  · obtain ⟨below,unowned⟩ := orderly.sound.closed k call inode made reads
    exact (step_frozen orderly.sound moved below unowned).1

theorem Owes.kept {root root' : Root} {r : Forwarded} {call : Call} {a : Answer} (owes : Owes c root' r call a)
    (frozen : ∀ inode, sourceOf call = some inode → root'.inodes[inode]? = root.inodes[inode]?) :
    Owes c root r call a := by
  cases owes with
  | reading has =>
    rw [frozen _ rfl] at has
    exact .reading has
  | persisted => exact .persisted
  | replied replied available => exact .replied replied available

theorem older_caller (orderly : Orderly c s) (serves : Serves c s e t) {k n : Nat} {r : Forwarded}
    {call : Call} (named : t.callers k = some (n, r)) (made : s.disk.call k = some call) :
    s.callers k = some (n, r) := by
  rcases step_callers serves named with before | ⟨rfl,_⟩
  · exact before
  · exact absurd (orderly.sound.numbered _ _ made) (Nat.lt_irrefl _)

theorem commit_owing (orderly : Orderly c s) (taken : serviceStep c s e = some t) {n : Nat} {r : Forwarded}
    (now : commit c s e = some (n, r)) {a : Answer} (owing : Owing c t n a) :
    (serve c (visible s.disk.root) r).1 = a := by
  rcases commit_cases taken now with ⟨_,running,idle,rfl⟩ | ⟨k,choice,call,rfl,made,commits,named⟩
  · cases owing with
    | answered _ member =>
      rcases answer_member.mp member with old | ⟨_,rfl⟩
      · exact absurd (List.mem_map_of_mem old) (orderly.handled n _ running).2
      · rw [serve_none idle]
    | called named => exact absurd named (orderly.running n r running _ _)
  · obtain ⟨n',r',named',asked⟩ := orderly.owned k call made
    cases named.symm.trans named'
    obtain ⟨moved,callers,silent⟩ := advance_disk taken
    cases owing with
    | answered _ member =>
      rw [silent] at member
      have ended := (orderly.settled n (List.mem_map_of_mem member)).past k r call named made
      rw [commits_past commits] at ended
      cases ended
    | @called k' r' next named' made' owes =>
      rw [callers] at named'
      cases orderly.single _ _ _ _ _ named' named
      cases named.symm.trans named'
      rcases step_calls (serviceStep_cases taken).1 made' with same | ⟨rfl,_⟩ |
        ⟨_,before,op,_,found,moves,root⟩ | ⟨_,_,impossible,_⟩
      · cases made.symm.trans same
        exact (commits_owes commits owes).elim
      · exact absurd (orderly.sound.numbered _ _ made) (Nat.lt_irrefl _)
      · cases made.symm.trans found
        rw [root] at owes
        exact commit_owes orderly asked commits moves owes
      · cases impossible

theorem owing_kept (orderly : Orderly c s) (taken : serviceStep c s e = some t) {n : Nat}
    (idle : ∀ r, commit c s e ≠ some (n, r)) {a : Answer} (owing : Owing c t n a) : Owing c s n a := by
  have serves := (serviceStep_cases taken).1
  cases owing with
  | answered available member =>
    rcases step_answers serves with same | ⟨m,b,answers,rfl⟩
    · rw [same] at member
      exact .answered available member
    · rcases answer_member.mp member with old | ⟨rfl,rfl⟩
      · exact .answered available old
      · cases answers with
        | @idle r running none =>
          exact absurd (by simp [commit, running, none]) (idle r)
        | replied waiting made replied =>
          exact .called (orderly.waits _ _ _ waiting) made (.replied replied available)
  | @called k r call named made owes =>
    rcases step_calls serves made with old | ⟨_,_,_,_,_,_,_,rfl⟩ |
      ⟨choice,before,op,rfl,old,moves,root⟩ | ⟨kind,before,rfl,old,fails⟩
    · refine .called (older_caller orderly serves named old) old (owes.kept fun inode reads => ?_)
      exact frozen_disk orderly taken old reads
    · exact (start_owes owes).elim
    · have caller := older_caller orderly serves named old
      obtain ⟨n',r',named',asked⟩ := orderly.owned k before old
      cases caller.symm.trans named'
      have quiet : commits before ≠ true := by
        intro commits
        exact idle r (by simp [commit, old, commits, caller])
      rw [root] at owes
      exact .called caller old (advance_owes orderly old asked quiet moves owes)
    · obtain ⟨n',r',named',asked⟩ := (step_orderly orderly taken).owned k call made
      cases named.symm.trans named'
      exact (fail_owes asked fails (fun e => (step_orderly orderly taken).backed k call e made) owes).elim

theorem commit_ended (orderly : Orderly c s) (taken : serviceStep c s e = some t) {n : Nat} {r : Forwarded}
    (now : commit c s e = some (n, r)) : Ended t n := by
  rcases commit_cases taken now with ⟨rfl,running,idle,rfl⟩ | ⟨k,choice,call,rfl,made,commits,named⟩
  · exact answered_ended orderly (.idle running idle)
  · obtain ⟨disk,moved,rfl⟩ := Option.map_eq_some_iff.mp taken
    refine ⟨(orderly.called k n r named).2,fun r' running => orderly.running n r' running k r named,?_⟩
    intro k' r' next named' made'
    cases orderly.single _ _ _ _ _ named' named
    cases LocalFs.step_cases moved with
    | advanced found _ moves =>
      cases made.symm.trans found
      rcases setCall_cases made' with ⟨_,rfl⟩ | ⟨different,_⟩
      · rw [advance_past moves, commits, Bool.or_true]
      · exact absurd rfl different

theorem ended_silent (taken : serviceStep c s e = some t) {n : Nat} (ended : Ended s n) (r : Forwarded) :
    commit c s e ≠ some (n, r) := by
  intro now
  rcases commit_cases taken now with ⟨_,running,_⟩ | ⟨k,_,call,_,made,commits,named⟩
  · exact ended.begun r running
  · have behind := ended.past k r call named made
    rw [commits_past commits] at behind
    cases behind

inductive Spared (s : Service) (n : Nat) : Prop where
  | ahead (later : s.next ≤ n)
  | running {r} (found : s.handlers n = some (r, .running))
  | unspent {k r call} (named : s.callers k = some (n, r)) (made : s.disk.call k = some call)
      (unspent : unspent call = true)
  | failed {k r a} (named : s.callers k = some (n, r)) (member : (n, a) ∈ s.answers)
      (unavailable : a.1 = respondBlock503) (writes : r.request.request.method ≠ "GET")

theorem asks_get {r : Forwarded} {id : BlockId} (asked : asks c r = some (.get id)) :
    r.request.request.method = "GET" := by
  unfold asks at asked
  cases handler_asks c r with
  | get _ _ method => exact method
  | nothing _ _ runs | put _ _ _ _ runs | delete _ _ _ runs => rw [runs] at asked; cases asked

theorem failed_unspent {r : Forwarded} {call : Call} {reply : Reply}
    (asked : (asks c r).map opFor = some (opOf call)) (writes : r.request.request.method ≠ "GET")
    (replied : replyOf call = some reply) (failed : errorOf call ≠ none) : unspent call = true := by
  obtain ⟨storage,found,same⟩ := Option.map_eq_some_iff.mp asked
  rcases storage_call same with ⟨id,payload,phase,rfl,rfl⟩ | ⟨id,phase,rfl,rfl⟩ | ⟨id,result,rfl,rfl⟩
  · cases phase <;> cases replied
    rename_i result
    cases result with
    | ok u => exact absurd rfl failed
    | error e => rfl
  · exact absurd (asks_get found) writes
  · cases result with
    | none => cases replied
    | some result =>
      cases result with
      | ok u => exact absurd rfl failed
      | error e => rfl

theorem commit_spent (orderly : Orderly c s) (taken : serviceStep c s e = some t) {n : Nat} {r : Forwarded}
    (now : commit c s e = some (n, r)) (spared : Spared t n) : False := by
  have ended := commit_ended orderly taken now
  cases spared with
  | ahead later => exact absurd ended.arrived (Nat.not_lt.mpr later)
  | running found => exact ended.begun _ found
  | @unspent k' r' next named' made' unspent =>
    rcases commit_cases taken now with ⟨_,running,_,rfl⟩ | ⟨k,choice,call,rfl,made,commits,named⟩
    · exact orderly.running n r running _ _ named'
    · obtain ⟨disk,moved,rfl⟩ := Option.map_eq_some_iff.mp taken
      cases orderly.single _ _ _ _ _ named' named
      cases LocalFs.step_cases moved with
      | advanced found _ moves =>
        cases made.symm.trans found
        rcases setCall_cases made' with ⟨_,rfl⟩ | ⟨different,_⟩
        · rw [(advance_unspent moves unspent).2] at commits
          cases commits
        · exact different rfl
  | failed named' member =>
    rcases commit_cases taken now with ⟨_,running,_,rfl⟩ | ⟨k,choice,call,rfl,made,commits,named⟩
    · exact orderly.running n r running _ _ named'
    · rw [(advance_disk taken).2.2] at member
      exact ended_silent taken (orderly.settled n (List.mem_map_of_mem member)) r now

theorem spared_back (orderly : Orderly c s) (taken : serviceStep c s e = some t) {n : Nat}
    (spared : Spared t n) : Spared s n := by
  have serves := (serviceStep_cases taken).1
  cases spared with
  | ahead later => exact .ahead ((next_le serves).1.trans later)
  | running found =>
    rcases step_handlers serves found with old | ⟨rfl,_⟩ | ⟨_,_,stage,_⟩
    · exact .running old
    · exact .ahead (Nat.le_refl _)
    · cases stage
  | unspent named made unspent =>
    rcases step_calls serves made with old | ⟨_,_,_,_,running,new,_,rfl⟩ |
      ⟨_,before,op,_,old,moves,_⟩ | ⟨_,before,_,old,fails⟩
    · exact .unspent (older_caller orderly serves named old) old unspent
    · cases named.symm.trans new
      exact .running running
    · exact .unspent (older_caller orderly serves named old) old (advance_unspent moves unspent).1
    · exact .unspent (older_caller orderly serves named old) old (fail_unspent fails unspent)
  | @failed k r a named member unavailable writes =>
    rcases step_answers serves with same | ⟨m,b,answers,rfl⟩
    · rw [same] at member
      rcases step_callers serves named with before | ⟨_,running,_⟩
      · exact .failed before member unavailable writes
      · exact .running running
    · rcases answer_member.mp member with old | ⟨rfl,rfl⟩
      · exact .failed named old unavailable writes
      · cases answers with
        | idle _ none => exact absurd unavailable (asks_none none).1
        | @replied r' k' call reply waiting made replied =>
          have caller := orderly.waits _ _ _ waiting
          cases orderly.single _ _ _ _ _ caller named
          cases caller.symm.trans named
          obtain ⟨_,_,named',asked⟩ := orderly.owned _ call made
          cases named.symm.trans named'
          have backed := fun e => orderly.backed _ call e made
          have failed := (answers_unavailable asked backed replied).mp unavailable
          exact .unspent named made (failed_unspent asked writes replied failed)

end Steps

def points (c : BlockConfig) : CommitPoints (serviceStep c) (commit c) (serve c) where
  good := Orderly c
  view s := visible s.disk.root
  owes := Owing c
  ended := Ended
  spared := Spared
  good_step := step_orderly
  view_commit orderly taken now := commit_view orderly taken now
  view_idle := idle_view
  owes_commit orderly taken now owing := commit_owing orderly taken now owing
  owes_kept orderly taken idle owing := owing_kept orderly taken idle owing
  ended_commit orderly taken now := commit_ended orderly taken now
  ended_step _ taken ended := step_ended (serviceStep_cases taken).1 ended
  ended_silent _ taken ended := ended_silent taken ended _
  spared_back orderly taken spared :=
    ⟨spared_back orderly taken spared,fun _ now => commit_spent orderly taken now spared⟩

def arrivals (taken : List Happening) : List Forwarded :=
  taken.filterMap fun
    | .arrive r => some r
    | _ => none

def order (c : BlockConfig) (disk : LocalFs.State) (taken : List Happening) : List (Nat × Forwarded) :=
  history (serviceStep c) (commit c) (opened disk) taken

section Runs
variable {c : BlockConfig} {disk : LocalFs.State} {taken : List Happening} {s : Service}

structure Known (taken : List Happening) (s : Service) : Prop where
  next : s.next = (arrivals taken).length
  handlers : ∀ n h, s.handlers n = some h → (arrivals taken)[n]? = some h.1
  callers : ∀ k n r, s.callers k = some (n, r) → (arrivals taken)[n]? = some r

theorem step_next {t : Service} {e : Happening} (serves : Serves c s e t) (taken : List Happening) :
    (t.next = s.next ∧ arrivals (taken ++ [e]) = arrivals taken) ∨
    ∃ r, t.next = s.next + 1 ∧ arrivals (taken ++ [e]) = arrivals taken ++ [r] ∧
      t.handlers s.next = some (r, .running) := by
  simp only [arrivals, List.filterMap_append]
  cases serves with
  | arrived r => exact .inr ⟨r,rfl,rfl,Function.update_self _ _ _⟩
  | _ => exact .inl ⟨rfl,List.append_nil _⟩

theorem arrivals_kept {n : Nat} {r : Forwarded} (found : (arrivals taken)[n]? = some r) (e : Happening) :
    (arrivals (taken ++ [e]))[n]? = some r := by
  obtain ⟨below,same⟩ := List.getElem?_eq_some_iff.mp found
  simp only [arrivals, List.filterMap_append] at below same ⊢
  rw [List.getElem?_append_left below, List.getElem?_eq_getElem below, same]

theorem run_known (quiet : Quiet disk) (reached : run (serviceStep c) (opened disk) taken = some s) :
    Known taken s := by
  refine history_invariant Known ?_ ?_ reached
  · refine ⟨rfl,?_,?_⟩
    · intro n h impossible
      cases impossible
    · intro k n r impossible
      cases impossible
  intro front s e t before known next
  have orderly : Orderly c s := run_good (points c) (opened_orderly quiet) before
  have serves := (serviceStep_cases next).1
  refine ⟨?_,fun n h found => ?_,fun k n r named => ?_⟩
  · rcases step_next serves front with ⟨steady,same⟩ | ⟨r,later,more,_⟩
    · rw [steady, same, known.next]
    · rw [later, more, known.next, List.length_append, List.length_singleton]
  · rcases step_handlers serves found with old | ⟨rfl,_,fresh,_⟩ | ⟨_,old,_⟩
    · exact arrivals_kept (known.handlers n h old) e
    · rcases step_next serves front with ⟨steady,_⟩ | ⟨r,_,more,new⟩
      · exact absurd fresh (steady ▸ Nat.lt_irrefl _)
      · cases found.symm.trans new
        rw [more, known.next]
        exact List.getElem?_concat_length
    · exact arrivals_kept (known.handlers n _ old) e
  · rcases step_callers serves named with old | ⟨_,old,_⟩
    · exact arrivals_kept (known.callers k n r old) e
    · exact arrivals_kept (known.handlers n _ old) e

theorem run_arrived (quiet : Quiet disk) (reached : run (serviceStep c) (opened disk) taken = some s) :
    ∀ n r, (n, r) ∈ order c disk taken → (arrivals taken)[n]? = some r := by
  refine history_invariant (fun taken _ => ∀ n r, (n, r) ∈ order c disk taken →
    (arrivals taken)[n]? = some r) (fun _ _ impossible => by cases impossible) ?_ reached
  intro front s e t before holds next n r member
  have known := run_known quiet before
  rw [order, history, events_snoc before next] at member
  rcases List.mem_append.mp member with old | new
  · exact arrivals_kept (holds n r old) e
  · rcases commit_cases next (Option.mem_toList.mp new) with ⟨_,running,_⟩ | ⟨k,_,_,_,_,_,named⟩
    · exact arrivals_kept (known.handlers n _ running) e
    · exact arrivals_kept (known.callers k n r named) e

theorem run_failed (quiet : Quiet disk) (reached : run (serviceStep c) (opened disk) taken = some s) :
    ∀ k call, s.disk.call k = some call → errorOf call ≠ none → ∃ kind, .fail k kind ∈ taken := by
  refine history_invariant (fun taken s => ∀ k call, s.disk.call k = some call → errorOf call ≠ none →
    ∃ kind, .fail k kind ∈ taken) ?_ ?_ reached
  · intro k call made
    unfold State.call at made
    rw [show (opened disk).disk.calls = ∅ from quiet.calls] at made
    cases made
  · intro front s e t before holds next k call made failed
    have old {before : Call} (made : s.disk.call k = some before) (failed : errorOf before ≠ none) :
        ∃ kind, .fail k kind ∈ front ++ [e] := by
      obtain ⟨kind,member⟩ := holds k before made failed
      exact ⟨kind,List.mem_append_left _ member⟩
    rcases step_calls (serviceStep_cases next).1 made with same | ⟨_,_,_,_,_,_,_,rfl⟩ |
      ⟨_,was,op,_,made,moves,_⟩ | ⟨kind,was,rfl,_⟩
    · exact old same failed
    · exact absurd (start_error _) failed
    · obtain ⟨error,found⟩ := Option.ne_none_iff_exists'.mp failed
      refine old made ?_
      rw [advance_error moves found]
      exact Option.some_ne_none error
    · exact ⟨kind,List.mem_append_right _ (List.mem_singleton.mpr rfl)⟩

theorem run_unavailable (quiet : Quiet disk) (reached : run (serviceStep c) (opened disk) taken = some s) :
    ∀ n a, (n, a) ∈ s.answers → a.1 = respondBlock503 →
      ∃ k r kind, s.callers k = some (n, r) ∧ .fail k kind ∈ taken := by
  refine history_invariant (fun taken s => ∀ n a, (n, a) ∈ s.answers → a.1 = respondBlock503 →
    ∃ k r kind, s.callers k = some (n, r) ∧ .fail k kind ∈ taken)
    (fun _ _ impossible => by cases impossible) ?_ reached
  intro front s e t before holds next n a member unavailable
  have orderly : Orderly c s := run_good (points c) (opened_orderly quiet) before
  have serves := (serviceStep_cases next).1
  have old (member : (n, a) ∈ s.answers) :
      ∃ k r kind, t.callers k = some (n, r) ∧ .fail k kind ∈ front ++ [e] := by
    obtain ⟨k,r,kind,named,failed⟩ := holds n a member unavailable
    exact ⟨k,r,kind,callers_kept orderly serves named,List.mem_append_left _ failed⟩
  rcases step_answers serves with same | ⟨m,b,answers,rfl⟩
  · rw [same] at member
    exact old member
  · rcases answer_member.mp member with earlier | ⟨rfl,rfl⟩
    · exact old earlier
    · cases answers with
      | idle _ none => exact absurd unavailable (asks_none none).1
      | @replied r k call reply waiting made replied =>
        have named := orderly.waits _ _ _ waiting
        obtain ⟨_,_,named',asked⟩ := orderly.owned k call made
        cases named.symm.trans named'
        have backed := fun e => orderly.backed k call e made
        obtain ⟨kind,failed⟩ := run_failed quiet before k call made
          ((answers_unavailable asked backed replied).mp unavailable)
        exact ⟨k,r,kind,named,List.mem_append_left _ failed⟩

/-- What an order of the requests is worth. -/
structure Serial (c : BlockConfig) (disk : LocalFs.State) (taken : List Happening) (s : Service)
    (order : List (Nat × Forwarded)) : Prop where
  once : (numbers order).Nodup
  arrived : ∀ n r, (n, r) ∈ order → (arrivals taken)[n]? = some r
  /-- The blocks on the disk are those that the requests leave one after the other. -/
  contents : visible s.disk.root = after (serve c) (visible disk.root) order
  single : (s.answers.map Prod.fst).Nodup
  available : ∀ n a, (n, a) ∈ s.answers → a.1 ≠ respondBlock503 →
    Promised (serve c) (visible disk.root) order n a
  /-- A put or a delete that fails has taken no effect and never will. -/
  unavailable : ∀ n a, (n, a) ∈ s.answers → a.1 = respondBlock503 →
    ∃ k r kind, s.callers k = some (n, r) ∧ (arrivals taken)[n]? = some r ∧ .fail k kind ∈ taken ∧
      (r.request.request.method ≠ "GET" → n ∉ numbers order)

theorem opened_owes : ∀ n a, ¬ Owing c (opened disk) n a := by
  intro n a owing
  cases owing with
  | answered _ impossible => cases impossible
  | called impossible => cases impossible

theorem run_serial (quiet : Quiet disk) (reached : run (serviceStep c) (opened disk) taken = some s) :
    Serial c disk taken s (order c disk taken) := by
  have fine : (points c).good (opened disk) := opened_orderly quiet
  have orderly : Orderly c s := run_good (points c) fine reached
  exact {
    once := (run_nodup (points c) fine reached).1
    arrived := run_arrived quiet reached
    contents := run_view (points c) fine reached
    single := orderly.once
    available := fun n a member available =>
      run_promised (points c) fine opened_owes reached n a (.answered available member)
    unavailable := by
      intro n a member unavailable
      obtain ⟨k,r,kind,named,failed⟩ := run_unavailable quiet reached n a member unavailable
      refine ⟨k,r,kind,named,(run_known quiet reached).callers k n r named,failed,fun writes => ?_⟩
      exact run_spared (points c) fine reached n (.failed named member unavailable writes) }

/-- Block requests may overlap, system calls fail, clients go away and the process
    crash: the requests that have taken effect have an order in which they leave the
    blocks as they are and are answered as they were. A request that was answered
    before another one arrived stands before it. Only a failing system call is
    answered with 503. -/
theorem blocks_linearizable (quiet : Quiet disk)
    (reached : run (serviceStep c) (opened disk) taken = some s) :
    Serial c disk taken s (order c disk taken) ∧
    ∀ front back u, taken = front ++ back → run (serviceStep c) (opened disk) front = some u →
      ∀ a b answer, (a, answer) ∈ u.answers → (arrivals front).length ≤ b →
        a ∈ numbers (order c disk taken) → b ∈ numbers (order c disk taken) →
          Precedes (order c disk taken) a b := by
  refine ⟨run_serial quiet reached,?_⟩
  rintro front back u rfl before a b answer answered later first second
  have fine : (points c).good (opened disk) := opened_orderly quiet
  have behind := reached
  rw [run_append, before] at behind
  have orderly : Orderly c u := run_good (points c) fine before
  refine run_precedes (points c) fine before ?_ ?_ behind first second
  · exact orderly.settled a (List.mem_map_of_mem answered)
  · exact .ahead (by rw [(run_known quiet before).next]; exact later)

end Runs

def putSteps (k : Nat) (random : String) : List Happening :=
  List.replicate 4 (.advance k ⟨"", 0⟩) ++ .advance k ⟨random, 0⟩ :: .advance k ⟨"", 4⟩ ::
    List.replicate 4 (.advance k ⟨"", 0⟩)

def sampleGet : RequestGuards.Request := RequestGuards.soloRequest "vault.test" RejectedRequests.blockTarget

def samplePut (payload : Bytes) : Forwarded :=
  ⟨⟨{ sampleGet with method := "PUT" }, .complete payload⟩, none⟩

/-- A get opens the file of one put and reads it while another put replaces it whose
    client has gone away. A third put fails with the disk full, and the process
    crashes. -/
def overlapping : List Happening :=
  [.arrive (samplePut [1, 2, 3, 4]), .arrive (samplePut [5, 6, 7, 8]),
    .arrive ⟨⟨sampleGet, .complete []⟩, none⟩, .handle 0, .handle 1, .handle 2] ++ putSteps 0 "a" ++
    [.resume 0, .advance 2 ⟨"", 0⟩, .lose 1] ++ putSteps 1 "b" ++ [.advance 2 ⟨"", 9⟩,
    .advance 2 ⟨"", 0⟩, .resume 2, .arrive (samplePut [9, 9, 9, 9]), .handle 3] ++
    List.replicate 4 (.advance 3 ⟨"", 0⟩) ++ [.fail 3 .storageFull, .resume 3, .crash]

theorem blocks_linearizable_overlapping : ∃ s,
    run (serviceStep RejectedRequests.smallBlocks) (opened emptyRoot) overlapping = some s ∧
    s.answers.map (fun entry => (entry.1, entry.2.1)) =
      [(0, respondBlock204), (2, respondBlock200 [1, 2, 3, 4]), (3, respondBlock503)] ∧
    numbers (order RejectedRequests.smallBlocks emptyRoot overlapping) = [0, 2, 1] ∧
    Serial RejectedRequests.smallBlocks emptyRoot overlapping s
      (order RejectedRequests.smallBlocks emptyRoot overlapping) := by
  have evaluated : (∃ s ∈ run (serviceStep RejectedRequests.smallBlocks) (opened emptyRoot) overlapping,
      s.answers.map (fun entry => (entry.1, entry.2.1)) =
        [(0, respondBlock204), (2, respondBlock200 [1, 2, 3, 4]), (3, respondBlock503)]) ∧
      numbers (order RejectedRequests.smallBlocks emptyRoot overlapping) = [0, 2, 1] := by
    decide +kernel
  obtain ⟨⟨s,reached,seen⟩,placed⟩ := evaluated
  exact ⟨s,reached,seen,placed,(blocks_linearizable emptyRoot_quiet reached).1⟩

end SerialBlocks
