import Apokryphos.StepRuns

/-!
Loops that work at regular times until they are told to stop. A loop waits for the
next tick of its interval or for a change of a watched flag, whichever it notices
first; its interval catches up on ticks that it missed. The results are about any
run: the loop never works ahead of its schedule, it skips no tick, it does not
sleep through the flag, and it does not end for another reason.
-/
namespace PeriodicLoops
open StepRuns

/-- A value with a single writer. A reader remembers the last version it has seen. -/
structure Watch (V : Type) where
  value : V
  version : Nat
  closed : Bool
  deriving DecidableEq

namespace Watch
variable {V : Type}

def channel (v : V) : Watch V := ⟨v, 0, false⟩

def send (w : Watch V) (v : V) : Watch V := { w with value := v, version := w.version + 1 }

/-- What a reader gets that waits for a change: the version that it now has seen, or
    an error once the writer is gone. -/
def changed (w : Watch V) (seen : Nat) : Option (Except Unit Nat) :=
  if seen ≠ w.version then some (.ok w.version)
  else if w.closed then some (.error ()) else none

end Watch

/-- The timers of a runtime. Past `last` there are no instants; a deadline there is
    put at least `horizon` away instead. Rearming an interval that is behind can
    then fail. -/
structure Timer where
  last : Nat
  horizon : Nat
  sleep : Nat → Nat → Nat
  tick : Nat → Nat → Nat → Option Nat
  sleep_within : ∀ {now d}, now + d ≤ last → sleep now d = now + d
  sleep_before : ∀ now d, sleep now d ≤ now + d
  sleep_beyond : ∀ now d, now + min d horizon ≤ sleep now d
  tick_within : ∀ {due period} now, due + period ≤ last → tick due period now = some (due + period)
  tick_beyond : ∀ {due period now next}, due ≤ now → tick due period now = some next →
    due + min period horizon ≤ next

inductive Phase where
  | spawned
  | firstTick
  | waiting
  | working
  | ended
  deriving DecidableEq

/-- `next` is the deadline of the interval. -/
structure Loop where
  phase : Phase
  period : Nat
  next : Nat
  seen : Nat
  deriving DecidableEq

def Loop.fresh (stop : Watch Bool) : Loop := ⟨.spawned, 0, 0, stop.version⟩

inductive Turn where
  | enter (period : Nat)
  | firstTick
  | tick
  | notice
  | finish (panicked : Bool)
  deriving DecidableEq

def Loop.rearm (timer : Timer) (now : Nat) (l : Loop) (after : Phase) : Loop :=
  match timer.tick l.next l.period now with
  | some next => { l with phase := after, next := next }
  | none => { l with phase := .ended }

def Loop.turn (timer : Timer) (now : Nat) (stop : Watch Bool) (l : Loop) : Turn → Option Loop
  | .enter period =>
    if l.phase = .spawned then
      if stop.value then some { l with phase := .ended, period := period }
      else some { l with phase := .firstTick, period := period, next := now }
    else none
  -- The first tick is due at once, and no work belongs to it.
  | .firstTick =>
    if l.phase = .firstTick ∧ l.next ≤ now then some (l.rearm timer now .waiting) else none
  | .tick => if l.phase = .waiting ∧ l.next ≤ now then some (l.rearm timer now .working) else none
  | .notice =>
    if l.phase = .waiting then
      (stop.changed l.seen).map fun
        | .ok version => { l with seen := version, phase := if stop.value then .ended else .waiting }
        | .error _ => { l with phase := .ended }
    else none
  | .finish panicked =>
    if l.phase = .working then some { l with phase := if panicked then .ended else .waiting } else none

structure System where
  now : Nat
  stop : Watch Bool
  loop : Loop

inductive Label where
  | pass (now : Nat)
  | raise
  | close
  | turn (t : Turn)
  deriving DecidableEq

def step (timer : Timer) (s : System) : Label → Option System
  | .pass now => if s.now ≤ now then some { s with now := now } else none
  | .raise => some { s with stop := s.stop.send true }
  | .close => some { s with stop := { s.stop with closed := true } }
  | .turn t => (s.loop.turn timer s.now s.stop t).map fun loop => { s with loop := loop }

def worked (labels : List Label) : Nat := labels.countP (· = .turn .tick)

def Panicked (labels : List Label) : Prop := .turn (.finish true) ∈ labels

theorem worked_snoc (labels : List Label) (label : Label) :
    worked (labels ++ [label]) = worked labels + if label = .turn .tick then 1 else 0 := by
  simp [worked, List.countP_append, List.countP_singleton]

inductive Turns (timer : Timer) (now : Nat) (stop : Watch Bool) (l : Loop) : Turn → Loop → Prop where
  | late {period} (stands : l.phase = .spawned) (raised : stop.value = true) :
      Turns timer now stop l (.enter period) { l with phase := .ended, period := period }
  | entered {period} (stands : l.phase = .spawned) (lowered : stop.value = false) :
      Turns timer now stop l (.enter period)
        { l with phase := .firstTick, period := period, next := now }
  | firstTick {next} (stands : l.phase = .firstTick) (due : l.next ≤ now)
      (armed : timer.tick l.next l.period now = some next) :
      Turns timer now stop l .firstTick { l with phase := .waiting, next := next }
  | tick {next} (stands : l.phase = .waiting) (due : l.next ≤ now)
      (armed : timer.tick l.next l.period now = some next) :
      Turns timer now stop l .tick { l with phase := .working, next := next }
  | unarmed {t} (stands : t = .firstTick ∧ l.phase = .firstTick ∨ t = .tick ∧ l.phase = .waiting)
      (due : l.next ≤ now) (failed : timer.tick l.next l.period now = none) :
      Turns timer now stop l t { l with phase := .ended }
  | noticed (stands : l.phase = .waiting) (news : l.seen ≠ stop.version) (raised : stop.value = true) :
      Turns timer now stop l .notice { l with seen := stop.version, phase := .ended }
  | ignored (stands : l.phase = .waiting) (news : l.seen ≠ stop.version) (lowered : stop.value = false) :
      Turns timer now stop l .notice { l with seen := stop.version }
  | abandoned (stands : l.phase = .waiting) (alone : stop.closed = true) :
      Turns timer now stop l .notice { l with phase := .ended }
  | finished (stands : l.phase = .working) :
      Turns timer now stop l (.finish false) { l with phase := .waiting }
  | panicked (stands : l.phase = .working) :
      Turns timer now stop l (.finish true) { l with phase := .ended }

theorem turn_cases {timer : Timer} {now : Nat} {stop : Watch Bool} {l m : Loop} {t : Turn}
    (taken : l.turn timer now stop t = some m) : Turns timer now stop l t m := by
  cases t with
  | enter period =>
    simp only [Loop.turn] at taken
    split at taken
    · rename_i stands
      split at taken <;> cases taken
      · rename_i raised
        exact .late stands raised
      · rename_i lowered
        exact .entered stands (by simpa using lowered)
    · cases taken
  | firstTick =>
    simp only [Loop.turn, Option.ite_none_right_eq_some] at taken
    obtain ⟨⟨stands,due⟩,same⟩ := taken
    cases same
    unfold Loop.rearm
    cases armed : timer.tick l.next l.period now with
    | some next => exact .firstTick stands due armed
    | none => exact .unarmed (.inl ⟨rfl,stands⟩) due armed
  | tick =>
    simp only [Loop.turn, Option.ite_none_right_eq_some] at taken
    obtain ⟨⟨stands,due⟩,same⟩ := taken
    cases same
    unfold Loop.rearm
    cases armed : timer.tick l.next l.period now with
    | some next => exact .tick stands due armed
    | none => exact .unarmed (.inr ⟨rfl,stands⟩) due armed
  | notice =>
    simp only [Loop.turn, Option.ite_none_right_eq_some, Option.map_eq_some_iff] at taken
    obtain ⟨stands,outcome,found,same⟩ := taken
    unfold Watch.changed at found
    by_cases news : l.seen ≠ stop.version
    · rw [if_pos news] at found
      cases found
      cases same
      dsimp only
      split
      · rename_i raised
        exact .noticed stands news raised
      · rename_i lowered
        rw [← stands]
        exact .ignored stands news (by simpa using lowered)
    · rw [if_neg news, Option.ite_none_right_eq_some] at found
      obtain ⟨alone,error⟩ := found
      cases error
      cases same
      exact .abandoned stands alone
  | finish panicked =>
    simp only [Loop.turn, Option.ite_none_right_eq_some] at taken
    obtain ⟨stands,same⟩ := taken
    cases same
    cases panicked with
    | false => exact .finished stands
    | true => exact .panicked stands

theorem turn_works {timer : Timer} {now : Nat} {stop : Watch Bool} {l m : Loop} {t : Turn}
    (turns : Turns timer now stop l t m) (works : m.phase = .working) : t = .tick := by
  cases turns with
  | tick => rfl
  | ignored stands => cases stands.symm.trans works
  | late | entered | firstTick | unarmed | noticed | abandoned | finished | panicked => cases works

section Runs
variable {timer : Timer} {start s t : System} {labels : List Label} {label : Label}

def Loop.running (l : Loop) : Prop := l.phase = .waiting ∨ l.phase = .working

structure OnSchedule (timer : Timer) (began ticks : Nat) (s : System) : Prop where
  elapsed : began + ticks * min s.loop.period timer.horizon ≤ s.now
  first : s.loop.phase = .firstTick → ticks = 0 ∧ s.loop.next = began
  spaced : s.loop.running → began + (ticks + 1) * min s.loop.period timer.horizon ≤ s.loop.next
  exact : s.loop.running → began + (ticks + 1) * s.loop.period ≤ timer.last →
    s.loop.next = began + (ticks + 1) * s.loop.period

def Timed (timer : Timer) (started ticks : Nat) (s : System) : Prop :=
  (s.loop.phase = .spawned ∧ ticks = 0 ∧ started ≤ s.now) ∨
    s.loop.phase ≠ .spawned ∧ ∃ began, started ≤ began ∧ OnSchedule timer began ticks s

theorem OnSchedule.moved {began ticks : Nat} (on : OnSchedule timer began ticks s) {m : Loop}
    (period : m.period = s.loop.period) (next : m.next = s.loop.next) (early : m.phase ≠ .firstTick)
    (running : m.running → s.loop.running) : OnSchedule timer began ticks { s with loop := m } where
  elapsed := by
    rw [period]
    exact on.elapsed
  first stands := absurd stands early
  spaced stands := by
    rw [period, next]
    exact on.spaced (running stands)
  exact stands := by
    rw [period, next]
    exact on.exact (running stands)

theorem ended_still {m : Loop} (ended : m.phase = .ended) : m.phase ≠ .firstTick ∧ ¬ m.running := by
  unfold Loop.running
  rw [ended]
  refine ⟨?_,?_⟩
  · intro impossible
    cases impossible
  · rintro (impossible | impossible) <;> cases impossible

theorem turns_timed {started ticks : Nat} {turn : Turn} {m : Loop} (timed : Timed timer started ticks s)
    (turns : Turns timer s.now s.stop s.loop turn m) :
    Timed timer started (ticks + if turn = .tick then 1 else 0) { s with loop := m } := by
  have begun (entered : s.loop.phase ≠ .spawned) :
      ∃ began, started ≤ began ∧ OnSchedule timer began ticks s := by
    rcases timed with ⟨stands,_⟩ | ⟨_,schedule⟩
    · exact absurd stands entered
    · exact schedule
  have fresh (stands : s.loop.phase = .spawned) : ticks = 0 ∧ started ≤ s.now := by
    rcases timed with ⟨_,rest⟩ | ⟨other,_⟩
    · exact rest
    · exact absurd stands other
  refine .inr ?_
  cases turns with
  | late stands raised =>
    obtain ⟨none,past⟩ := fresh stands
    rw [none]
    refine ⟨nofun,s.now,past,by simp,nofun,?_,?_⟩ <;> exact fun running => absurd running (ended_still rfl).2
  | entered stands lowered =>
    obtain ⟨none,past⟩ := fresh stands
    rw [none]
    refine ⟨nofun,s.now,past,by simp,fun _ => ⟨rfl,rfl⟩,?_,?_⟩ <;> rintro (impossible | impossible) <;>
      cases impossible
  | @firstTick next stands due armed =>
    obtain ⟨began,past,on⟩ := begun (by rw [stands]; decide)
    obtain ⟨none,reached⟩ := on.first stands
    rw [none] at on ⊢
    refine ⟨nofun,began,past,on.elapsed,nofun,fun _ => ?_,fun _ fits => ?_⟩
    · have later := timer.tick_beyond due armed
      rw [reached] at later
      simpa using later
    · have once : began + s.loop.period ≤ timer.last := by simpa using fits
      rw [reached, timer.tick_within s.now once] at armed
      simpa using (Option.some.inj armed).symm
  | @tick next stands due armed =>
    obtain ⟨began,past,on⟩ := begun (by rw [stands]; decide)
    have reached := on.spaced (.inl stands)
    rw [if_pos rfl]
    refine ⟨nofun,began,past,Nat.le_trans reached due,nofun,fun _ => ?_,fun _ fits => ?_⟩
    · have later := timer.tick_beyond due armed
      rw [Nat.succ_mul, ← Nat.add_assoc]
      exact Nat.le_trans (Nat.add_le_add_right reached _) later
    · rw [Nat.succ_mul, ← Nat.add_assoc] at fits ⊢
      have exactly := on.exact (.inl stands) (Nat.le_trans (Nat.le_add_right _ _) fits)
      rw [exactly, timer.tick_within s.now fits] at armed
      exact (Option.some.inj armed).symm
  | @unarmed _ stands due failed =>
    have entered : s.loop.phase ≠ .spawned := by
      rcases stands with ⟨_,stands⟩ | ⟨_,stands⟩ <;> rw [stands] <;> decide
    obtain ⟨began,past,on⟩ := begun entered
    have elapsed : began + (ticks + if turn = .tick then 1 else 0) *
        min s.loop.period timer.horizon ≤ s.now := by
      rcases stands with ⟨rfl,_⟩ | ⟨rfl,stands⟩
      · exact on.elapsed
      · exact Nat.le_trans (on.spaced (.inl stands)) due
    refine ⟨nofun,began,past,elapsed,nofun,?_,?_⟩ <;> exact fun running => absurd running (ended_still rfl).2
  | ignored stands =>
    have entered : s.loop.phase ≠ .spawned := by rw [stands]; decide
    obtain ⟨began,past,on⟩ := begun entered
    exact ⟨entered,began,past,on.moved rfl rfl (by dsimp only; rw [stands]; decide) id⟩
  | finished stands =>
    obtain ⟨began,past,on⟩ := begun (by rw [stands]; decide)
    exact ⟨nofun,began,past,on.moved rfl rfl nofun fun _ => .inr stands⟩
  | noticed stands | abandoned stands | panicked stands =>
    obtain ⟨began,past,on⟩ := begun (by rw [stands]; decide)
    exact ⟨nofun,began,past,on.moved rfl rfl nofun fun running => absurd running (ended_still rfl).2⟩

theorem step_timed {started ticks : Nat} (timed : Timed timer started ticks s)
    (taken : step timer s label = some t) :
    Timed timer started (ticks + if label = .turn .tick then 1 else 0) t := by
  cases label with
  | pass now =>
    simp only [step, Option.ite_none_right_eq_some] at taken
    obtain ⟨later,same⟩ := taken
    cases same
    rcases timed with ⟨stands,none,past⟩ | ⟨entered,began,past,on⟩
    · exact .inl ⟨stands,none,Nat.le_trans past later⟩
    · exact .inr ⟨entered,began,past,Nat.le_trans on.elapsed later,on.first,on.spaced,on.exact⟩
  | raise | close =>
    cases taken
    rcases timed with fresh | ⟨entered,began,past,on⟩
    · exact .inl fresh
    · exact .inr ⟨entered,began,past,on.elapsed,on.first,on.spaced,on.exact⟩
  | turn turn =>
    obtain ⟨m,turned,rfl⟩ := Option.map_eq_some_iff.mp taken
    have moved := turns_timed timed (turn_cases turned)
    rwa [show (if Label.turn turn = .turn .tick then 1 else 0) = if turn = .tick then 1 else 0 by
      simp only [Label.turn.injEq]]

theorem run_timed (spawned : start.loop.phase = .spawned)
    (taken : run (step timer) start labels = some s) : Timed timer start.now (worked labels) s := by
  refine history_invariant (fun labels s => Timed timer start.now (worked labels) s)
    (.inl ⟨spawned,rfl,Nat.le_refl _⟩) ?_ taken
  intro front s label t _ timed next
  rw [worked_snoc]
  exact step_timed timed next

structure Informed (s : System) : Prop where
  behind : s.loop.seen ≤ s.stop.version
  pending : s.loop.phase ≠ .spawned → s.loop.phase ≠ .ended → s.stop.value = true →
    s.loop.seen ≠ s.stop.version

theorem turns_informed {turn : Turn} {m : Loop} (informed : Informed s)
    (turns : Turns timer s.now s.stop s.loop turn m) : Informed { s with loop := m } := by
  cases turns with
  | late | unarmed | abandoned | panicked => exact ⟨informed.behind,fun _ stays => absurd rfl stays⟩
  | noticed => exact ⟨Nat.le_refl _,fun _ stays => absurd rfl stays⟩
  | entered stands lowered =>
    refine ⟨informed.behind,fun _ _ raised => ?_⟩
    rw [lowered] at raised
    cases raised
  | ignored stands news lowered =>
    refine ⟨Nat.le_refl _,fun _ _ raised => ?_⟩
    rw [lowered] at raised
    cases raised
  | firstTick stands | tick stands | finished stands =>
    refine ⟨informed.behind,fun _ _ => informed.pending ?_ ?_⟩ <;> rw [stands] <;> decide

theorem step_informed (informed : Informed s) (taken : step timer s label = some t) : Informed t := by
  cases label with
  | pass now =>
    simp only [step, Option.ite_none_right_eq_some] at taken
    cases taken.2
    exact ⟨informed.behind,informed.pending⟩
  | raise =>
    cases taken
    exact ⟨Nat.le_succ_of_le informed.behind,fun _ _ _ => Nat.ne_of_lt (Nat.lt_succ_of_le informed.behind)⟩
  | close =>
    cases taken
    exact ⟨informed.behind,informed.pending⟩
  | turn turn =>
    obtain ⟨m,turned,rfl⟩ := Option.map_eq_some_iff.mp taken
    exact turns_informed informed (turn_cases turned)

/-- Why a loop has ended. The last cause is an interval that could not be rearmed. -/
def Cause (timer : Timer) (labels : List Label) (s : System) : Prop :=
  s.stop.value = true ∨ s.stop.closed = true ∨ Panicked labels ∨
    timer.last < s.loop.next + s.loop.period

theorem turns_caused {turn : Turn} {m : Loop} (labels : List Label)
    (turns : Turns timer s.now s.stop s.loop turn m) (ended : m.phase = .ended) :
    Cause timer (labels ++ [.turn turn]) { s with loop := m } := by
  cases turns with
  | late _ raised | noticed _ _ raised => exact .inl raised
  | abandoned _ alone => exact .inr (.inl alone)
  | panicked => exact .inr (.inr (.inl (List.mem_append_right _ List.mem_cons_self)))
  | unarmed _ _ failed =>
    refine .inr (.inr (.inr ?_))
    by_contra fits
    rw [timer.tick_within s.now (Nat.le_of_not_lt fits)] at failed
    cases failed
  | ignored stands => cases stands.symm.trans ended
  | entered | firstTick | tick | finished => cases ended

theorem step_caused (caused : s.loop.phase = .ended → Cause timer labels s)
    (taken : step timer s label = some t) (ended : t.loop.phase = .ended) :
    Cause timer (labels ++ [label]) t := by
  have kept (stays : s.loop.phase = .ended) {stop : Watch Bool} {now : Nat}
      (raised : s.stop.value = true → stop.value = true)
      (closed : s.stop.closed = true → stop.closed = true) :
      Cause timer (labels ++ [label]) ⟨now, stop, s.loop⟩ := by
    rcases caused stays with up | gone | panicked | far
    · exact .inl (raised up)
    · exact .inr (.inl (closed gone))
    · exact .inr (.inr (.inl (List.mem_append_left _ panicked)))
    · exact .inr (.inr (.inr far))
  cases label with
  | pass now =>
    simp only [step, Option.ite_none_right_eq_some] at taken
    cases taken.2
    exact kept ended id id
  | raise =>
    cases taken
    exact kept ended (fun _ => rfl) id
  | close =>
    cases taken
    exact kept ended id fun _ => rfl
  | turn turn =>
    obtain ⟨m,turned,rfl⟩ := Option.map_eq_some_iff.mp taken
    exact turns_caused labels (turn_cases turned) ended

theorem run_informed (fresh : start.loop = .fresh start.stop)
    (taken : run (step timer) start labels = some s) :
    Informed s ∧ (s.loop.phase = .ended → Cause timer labels s) := by
  refine history_invariant
    (fun labels s => Informed s ∧ (s.loop.phase = .ended → Cause timer labels s)) ?_ ?_ taken
  · rw [fresh]
    exact ⟨⟨by rw [fresh]; exact Nat.le_refl _,by rw [fresh]; exact fun other => absurd rfl other⟩,nofun⟩
  · intro front s label t _ both next
    exact ⟨step_informed both.1 next,step_caused both.2 next⟩

theorem ended_stays (ended : s.loop.phase = .ended) (taken : step timer s label = some t) :
    t.loop.phase = .ended := by
  cases label with
  | pass now =>
    simp only [step, Option.ite_none_right_eq_some] at taken
    cases taken.2
    exact ended
  | raise | close =>
    cases taken
    exact ended
  | turn turn =>
    obtain ⟨m,turned,rfl⟩ := Option.map_eq_some_iff.mp taken
    cases turn_cases turned with
    | unarmed stands => rcases stands with ⟨_,stands⟩ | ⟨_,stands⟩ <;> cases stands.symm.trans ended
    | late stands | entered stands | firstTick stands | tick stands | noticed stands | ignored stands
    | abandoned stands | finished stands | panicked stands => cases stands.symm.trans ended

theorem panicked_ended (taken : run (step timer) start labels = some s) :
    Panicked labels → s.loop.phase = .ended := by
  refine history_invariant (fun labels s => Panicked labels → s.loop.phase = .ended) nofun ?_ taken
  intro front s label t _ ended next panicked
  rcases List.mem_append.mp panicked with before | last
  · exact ended_stays (ended before) next
  · rw [← List.mem_singleton.mp last] at next
    obtain ⟨m,turned,rfl⟩ := Option.map_eq_some_iff.mp next
    cases turn_cases turned with
    | unarmed => rfl
    | panicked => rfl

theorem run_period (spawned : start.loop.phase = .spawned) {period : Nat}
    (paced : ∀ other, .turn (.enter other) ∈ labels → other = period)
    (taken : run (step timer) start labels = some s) (entered : s.loop.phase ≠ .spawned) :
    s.loop.period = period := by
  refine history_invariant (fun labels s => (∀ other, .turn (.enter other) ∈ labels → other = period) →
    s.loop.phase ≠ .spawned → s.loop.period = period) (fun _ other => absurd spawned other) ?_ taken
    paced entered
  intro front s label t _ kept next paced entered
  have before := kept fun other member => paced other (List.mem_append_left _ member)
  cases label with
  | pass now =>
    simp only [step, Option.ite_none_right_eq_some] at next
    cases next.2
    exact before entered
  | raise | close =>
    cases next
    exact before entered
  | turn turn =>
    obtain ⟨m,turned,rfl⟩ := Option.map_eq_some_iff.mp next
    cases turn_cases turned with
    | late | entered => exact paced _ (List.mem_append_right _ List.mem_cons_self)
    | unarmed stands =>
      refine before ?_
      rcases stands with ⟨_,stands⟩ | ⟨_,stands⟩ <;> rw [stands] <;> decide
    | firstTick stands | tick stands | noticed stands | ignored stands | abandoned stands
    | finished stands | panicked stands => exact before (by rw [stands]; decide)

theorem notice_ends (informed : Informed s) (stands : s.loop.phase = .waiting)
    (raised : s.stop.value = true) :
    s.loop.turn timer s.now s.stop .notice =
      some { s.loop with seen := s.stop.version, phase := .ended } := by
  have news : s.loop.seen ≠ s.stop.version :=
    informed.pending (by rw [stands]; decide) (by rw [stands]; decide) raised
  simp only [Loop.turn, if_pos stands, Watch.changed, if_pos news, Option.map_some, raised, if_true]

/-- Once the flag is raised, a loop that is not at work is at most two turns from
    its end, and starts no work on its way there. -/
theorem raised_ends {ticks started : Nat} (informed : Informed s) (timed : Timed timer started ticks s)
    (raised : s.stop.value = true) (idle : s.loop.phase ≠ .working) (period : Nat) :
    ∃ (turns : List Turn) (t : System), turns.length ≤ 2 ∧
      (∀ turn ∈ turns, turn = .enter period ∨ turn = .firstTick ∨ turn = .notice) ∧
      run (step timer) s (turns.map .turn) = some t ∧ t.loop.phase = .ended := by
  cases stands : s.loop.phase with
  | working => exact absurd stands idle
  | ended => exact ⟨[],s,Nat.zero_le _,nofun,rfl,stands⟩
  | spawned =>
    refine ⟨[.enter period],{ s with loop := { s.loop with phase := .ended, period := period } },
      by simp,by simp,?_,rfl⟩
    simp [run, step, Loop.turn, stands, raised]
  | waiting =>
    refine ⟨[.notice],{ s with loop := { s.loop with seen := s.stop.version, phase := .ended } },
      by simp,by simp,?_,rfl⟩
    simp only [List.map_cons, List.map_nil, run, step, notice_ends informed stands raised, Option.map_some]
  | firstTick =>
    have due : s.loop.next ≤ s.now := by
      rcases timed with ⟨other,_⟩ | ⟨_,began,_,on⟩
      · cases stands.symm.trans other
      · obtain ⟨none,reached⟩ := on.first stands
        have elapsed := on.elapsed
        rw [none] at elapsed
        rw [reached]
        exact Nat.le_of_add_right_le elapsed
    have fired : step timer s (.turn .firstTick) =
        some { s with loop := s.loop.rearm timer s.now .waiting } := by
      simp only [step, Loop.turn, if_pos (And.intro stands due), Option.map_some]
    cases armed : timer.tick s.loop.next s.loop.period s.now with
    | none =>
      refine ⟨[.firstTick],_,by simp,by simp,run_cons fired [],?_⟩
      simp only [Loop.rearm, armed]
    | some next =>
      have after := step_informed informed fired
      have waits : (s.loop.rearm timer s.now .waiting).phase = .waiting := by simp only [Loop.rearm, armed]
      let ended : Loop := { s.loop.rearm timer s.now .waiting with seen := s.stop.version, phase := .ended }
      refine ⟨[.firstTick, .notice],{ s with loop := ended },by simp,by simp,?_,rfl⟩
      simp only [List.map_cons, List.map_nil, run, fired]
      simp only [step, notice_ends after waits raised, Option.map_some]
      rfl

end Runs

def plainTimer (last horizon : Nat) : Timer where
  last := last
  horizon := horizon
  sleep now d := if now + d ≤ last then now + d else now + min d horizon
  tick due period now :=
    if due + period ≤ last then some (due + period)
    else if due = now then some (now + horizon) else none
  sleep_within fits := if_pos fits
  sleep_before now d := by
    split
    · exact Nat.le_refl _
    · exact Nat.add_le_add_left (Nat.min_le_left d horizon) now
  sleep_beyond now d := by
    split
    · exact Nat.add_le_add_left (Nat.min_le_left d horizon) now
    · exact Nat.le_refl _
  tick_within _ fits := if_pos fits
  tick_beyond {due period now next} past armed := by
    split at armed
    · cases armed
      exact Nat.add_le_add_left (Nat.min_le_left period horizon) due
    · rw [Option.ite_none_right_eq_some] at armed
      rw [← Option.some.inj armed.2]
      exact Nat.add_le_add past (Nat.min_le_right period horizon)

end PeriodicLoops
