import CacheDepot.Proofs.Depot.Reloads
import CacheDepot.Proofs.Depot.Settling

/-!
# A depot along its timeline

What cannot happen yet happens when it is due, so a depot at rest stays at rest until the next time
at which something is due. After that time has passed it rests again: a depot in time is at rest
whenever the clock is about to move.
-/

namespace CacheDepot

variable {now later due target : Nat}

/-- Whether a time is after `now` and not after `later`. -/
def Between (now later due : Nat) : Prop := now < due ∧ due ≤ later

/-! ## What is due in between -/

namespace WriteBehind

theorem Worker.wait?_between {w : Worker} (ready : w.isReady later = true)
    (waits : w.isReady now = false) : ∃ due, w.wait? = some due ∧ Between now later due := by
  rw [isReady, Bool.and_eq_true] at ready
  rw [isReady, ready.1, Bool.true_and] at waits
  cases wait : w.wait? with
  | none =>
    rw [wait] at waits
    cases waits
  | some due =>
    rw [wait] at ready waits
    exact ⟨due, rfl, Nat.lt_of_not_le (of_decide_eq_false waits), of_decide_eq_true ready.2⟩

theorem Backlog.wait?_between {b : Backlog} {id : Nat} (ready : b.isReady later id = true)
    (waits : b.isReady now id = false) : ∃ due, b.wait? id = some due ∧ Between now later due := by
  cases found : b.workers.get? id with
  | none =>
    rw [isReady, found] at ready
    cases ready
  | some w =>
    rw [isReady, found, Option.any_some] at ready waits
    rw [wait?, found, Option.bind_some]
    exact w.wait?_between ready waits

end WriteBehind

theorem between_of_any {due? : Option Nat} (ready : due?.any (· ≤ later) = true)
    (waits : due?.any (· ≤ now) = false) : ∃ due, due? = some due ∧ Between now later due := by
  cases due? with
  | none => cases ready
  | some due =>
    exact ⟨due, rfl, Nat.lt_of_not_le (of_decide_eq_false waits), of_decide_eq_true ready⟩

namespace Depot

variable {d : Depot}

theorem taskDue?_between {t : Task} (ready : d.isReady later t = true)
    (waits : d.isReady now t = false) : ∃ due, d.taskDue? t = some due ∧ Between now later due := by
  cases t with
  | loading handle key ttl loader due => exact @between_of_any _ _ (some due) ready waits
  | persisting handle key value ttl attempt due =>
    exact @between_of_any _ _ (some due) ready waits
  | reloading handle key ttl loader due => exact @between_of_any _ _ (some due) ready waits
  | awaiting worker => exact d.backlog.wait?_between ready waits
  | flushing worker => exact d.backlog.wait?_between ready waits
  | draining worker => exact d.backlog.wait?_between ready waits
  | stopping flushFirst => exact absurd (ready.symm.trans waits) Bool.noConfusion
  | caching handle key value ttl => cases waits
  | clearing left answer => cases waits
  | reloadReady handle key ttl loader => cases waits
  | storing handle key value ttl => cases waits
  | ended answer => cases ready

theorem timerDue?_between (ready : d.timerReady later = true) (waits : d.timerReady now = false) :
    ∃ due, d.timerDue? = some due ∧ Between now later due := by
  rw [timerReady] at ready waits
  rw [timerDue?]
  cases timed : d.drainTimer with
  | none =>
    rw [timed] at ready
    cases ready
  | some timer =>
    rw [timed] at ready waits
    dsimp only [Option.bind_some] at ready waits ⊢
    cases drains : timer.worker with
    | some worker =>
      rw [drains] at ready waits
      exact d.backlog.wait?_between ready waits
    | none =>
      rw [drains] at ready waits
      exact between_of_any ready waits

/-! ## Rest -/

theorem readyAction?_eq_none_iff :
    d.readyAction? now = none ↔
      (∀ b ∈ d.tasks.bindings, d.isReady now b.2 = false) ∧ d.timerReady now = false ∧
        ∀ b ∈ d.registry.toList, (b.2.sweeper.bind Ticker.due?).any (· ≤ now) = false := by
  rw [readyAction?]
  cases found : d.tasks.bindings.find? fun b => d.isReady now b.2 with
  | some b =>
    have ready := List.find?_some found
    refine ⟨by rintro ⟨⟩, ?_⟩
    rintro ⟨waits, -⟩
    rw [waits b (List.mem_of_find?_eq_some found)] at ready
    cases ready
  | none =>
    have waits : ∀ b ∈ d.tasks.bindings, d.isReady now b.2 = false := fun b member =>
      Bool.eq_false_iff.mpr (List.find?_eq_none.mp found b member)
    dsimp only
    cases timed : d.timerReady now with
    | true =>
      rw [if_pos rfl]
      refine ⟨by rintro ⟨⟩, ?_⟩
      rintro ⟨-, ⟨⟩, -⟩
    | false =>
      rw [if_neg Bool.false_ne_true, Option.map_eq_none_iff, List.find?_eq_none]
      refine ⟨fun idle => ⟨waits, rfl, fun b member => Bool.eq_false_iff.mpr (idle b member)⟩, ?_⟩
      rintro ⟨-, -, idle⟩ b member
      exact Bool.eq_false_iff.mp (idle b member)

/-- A depot at rest stays at rest while nothing is due. -/
theorem rests_later (rests : d.readyAction? now = none)
    (nothing : ∀ due ∈ d.dueTimes, ¬ Between now later due) : d.readyAction? later = none := by
  obtain ⟨tasks, timer, sweeps⟩ := readyAction?_eq_none_iff.mp rests
  rw [dueTimes, List.forall_mem_append, List.forall_mem_append] at nothing
  obtain ⟨⟨noTask, noTimer⟩, noSweep⟩ := nothing
  refine readyAction?_eq_none_iff.mpr ⟨?_, ?_, ?_⟩
  · intro b member
    by_contra ready
    obtain ⟨due, shown, between⟩ :=
      taskDue?_between (Bool.eq_true_of_not_eq_false ready) (tasks b member)
    exact noTask due (List.mem_filterMap.mpr ⟨b, member, shown⟩) between
  · by_contra ready
    obtain ⟨due, shown, between⟩ := timerDue?_between (Bool.eq_true_of_not_eq_false ready) timer
    exact noTimer due (Option.mem_toList.mpr shown) between
  · intro b member
    by_contra ready
    obtain ⟨due, shown, between⟩ :=
      between_of_any (Bool.eq_true_of_not_eq_false ready) (sweeps b member)
    exact noSweep due (List.mem_filterMap.mpr ⟨b, member, shown⟩) between

theorem rests_new {store : StoreConfig} {writeBehind : WriteBehindConfig}
    (made : Depot.new now store writeBehind = .ok d) : d.readyAction? now = none := by
  rw [Depot.new] at made
  split at made
  · cases made
  · cases made
    have early (name : String) (interval : Duration) :
        (Ticker.start now name interval).due?.any (· ≤ now) = false := by
      rw [Option.any_eq_false]
      intro due waits
      exact decide_eq_false (Nat.not_le_of_lt (Ticker.lt_of_due?_start waits))
    refine readyAction?_eq_none_iff.mpr ⟨by rintro _ ⟨⟩, ?_, ?_⟩
    · rw [timerReady]
      cases writeBehind.drainInterval with
      | none => rfl
      | some interval => exact early _ interval
    · intro b member
      obtain rfl := List.mem_singleton.mp member
      rw [sweeperFor]
      cases store.cleanupInterval with
      | none => rfl
      | some interval => exact early _ interval

theorem nextDue?_eq_some_iff :
    d.nextDue? now = some due ↔
      due ∈ d.dueTimes ∧ now < due ∧ ∀ other ∈ d.dueTimes, now < other → due ≤ other := by
  rw [nextDue?, List.min?_eq_some_iff]
  simp only [List.mem_filter, decide_eq_true_eq, and_assoc, and_imp]

theorem nextDue?_eq_none_iff : d.nextDue? now = none ↔ ∀ due ∈ d.dueTimes, due ≤ now := by
  rw [nextDue?, List.min?_eq_none_iff, List.filter_eq_nil_iff]
  simp only [decide_eq_true_eq, Nat.not_lt]

theorem nextDue?_later (after : now ≤ later)
    (nothing : ∀ due ∈ d.dueTimes, ¬ Between now later due) :
    d.nextDue? later = d.nextDue? now := by
  rw [nextDue?, nextDue?]
  congr 1
  apply List.filter_congr
  intro due member
  have none := nothing due member
  rw [Between, not_and] at none
  exact decide_eq_decide.mpr ⟨Nat.lt_of_le_of_lt after, fun later => Nat.lt_of_not_le (none later)⟩

/-- Whether all is as it should be with the workers, the periodic tasks and the reloads. -/
structure Steady (d : Depot) : Prop where
  sound : d.Sound
  paced : d.Paced
  flights : d.SingleFlight

theorem steady_new {store : StoreConfig} {writeBehind : WriteBehindConfig}
    (made : Depot.new now store writeBehind = .ok d) : d.Steady :=
  ⟨sound_new made, paced_new made, singleFlight_new made⟩

namespace Steady

variable {d' : Depot}

theorem withoutTimer (h : d.Steady) : { d with drainTimer := none }.Steady where
  sound := h.sound.withoutTimer
  paced := ⟨h.paced.inOrder, by rintro _ ⟨⟩, h.paced.sweepers⟩
  flights := h.flights.congr rfl rfl (Nat.le_refl _)

theorem act (h : d.Steady) (now : Nat) (a : Action) : (d.act now a).Steady :=
  ⟨h.sound.act now a, h.paced.act now a, h.flights.turn (turn_act d now a)⟩

theorem settles (h : d.Steady) (settles : Settles now d d') : d'.Steady := by
  induction settles with
  | rests rests => exact h
  | acts next settles ih => exact ih (h.act now _)

theorem settles_settle (h : d.Steady) (now : Nat) : Settles now d (d.settle now) :=
  Depot.settles_settle h.sound h.paced now

theorem settle (h : d.Steady) (now : Nat) : (d.settle now).Steady :=
  h.settles (h.settles_settle now)

theorem rests_settle (h : d.Steady) (now : Nat) : (d.settle now).readyAction? now = none :=
  (h.settles_settle now).readyAction?_eq_none

end Steady
end Depot

/-! ## Time that passes -/

namespace Timeline

open Depot (nextDue?_eq_some_iff)

variable {d : Depot}

theorem passTo_of_late (late : ∀ due ∈ d.dueTimes, ¬ Between now target due) :
    passTo target now d = d := by
  rw [passTo]
  cases next : d.nextDue? now with
  | none => rfl
  | some due =>
    obtain ⟨member, after, -⟩ := nextDue?_eq_some_iff.mp next
    exact if_neg (late due member)

theorem passTo_of_due (next : d.nextDue? now = some due) (inTime : due ≤ target) :
    passTo target now d = passTo target due (d.settle due) := by
  obtain ⟨-, after, -⟩ := nextDue?_eq_some_iff.mp next
  conv_lhs => rw [passTo, next]
  exact if_pos ⟨after, inTime⟩

/-- Time passes from one moment to the next until nothing more is due in time. -/
@[elab_as_elim]
theorem passTo_induction (target : Nat) {motive : Nat → Depot → Prop}
    (late : ∀ now d, (∀ due ∈ d.dueTimes, ¬ Between now target due) → motive now d)
    (moves : ∀ now d due, d.nextDue? now = some due → due ≤ target →
      motive due (d.settle due) → motive now d)
    (now : Nat) (d : Depot) : motive now d := by
  induction now, d using passTo.induct target with
  | case1 now d due next inTime ih => exact moves now d due next inTime.2 ih
  | case2 now d due next outside =>
    obtain ⟨-, after, first⟩ := nextDue?_eq_some_iff.mp next
    refine late now d fun other member between => outside ⟨after, ?_⟩
    exact Nat.le_trans (first other member between.1) between.2
  | case3 now d none =>
    refine late now d fun due member between => ?_
    exact Nat.not_lt_of_le (Depot.nextDue?_eq_none_iff.mp none due member) between.1

/-- It does not matter whether time passes at one go. -/
theorem passTo_later (after : now ≤ later)
    (nothing : ∀ due ∈ d.dueTimes, ¬ Between now later due) :
    passTo target later d = passTo target now d := by
  have same := Depot.nextDue?_later after nothing
  induction now, d using passTo_induction target with
  | late now d late =>
    rw [passTo_of_late late, passTo_of_late]
    intro due member between
    exact late due member ⟨Nat.lt_of_le_of_lt after between.1, between.2⟩
  | moves now d due next inTime =>
    rw [passTo_of_due next inTime, passTo_of_due (same.trans next) inTime]

end Timeline

/-- As time passes, a depot that is at rest comes to rest again. -/
theorem Depot.Steady.passTo {d : Depot} (h : d.Steady) (rests : d.readyAction? now = none)
    (target : Nat) : (Timeline.passTo target now d).Steady ∧
      (Timeline.passTo target now d).readyAction? (max now target) = none := by
  induction now, d using Timeline.passTo_induction target with
  | late now d late =>
    rw [Timeline.passTo_of_late late]
    refine ⟨h, rests_later rests ?_⟩
    rintro due member ⟨after, before⟩
    exact late due member ⟨after, by omega⟩
  | moves now d due next inTime ih =>
    obtain ⟨steady, idle⟩ := ih (h.settle due) (h.rests_settle due)
    obtain ⟨-, after, -⟩ := Depot.nextDue?_eq_some_iff.mp next
    rw [Nat.max_eq_right inTime] at idle
    rw [Timeline.passTo_of_due next inTime, Nat.max_eq_right (by omega)]
    exact ⟨steady, idle⟩

end CacheDepot
