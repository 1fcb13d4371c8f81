import CacheDepot.Proofs.Ticker.Ending

/-!
# Periodic tasks under one clock

A schedule lets every task proceed when something is due, and moves its clock from one such moment
to the next. What it records of a task is what the task records in turns, whatever the others do.
-/

namespace CacheDepot

namespace PeriodicTask

variable {t t' : PeriodicTask} {now : Nat} {events : List TickEvent}

/-- Whether a tick in progress, if there is one, ends after `now`. -/
def Awake (t : PeriodicTask) (now : Nat) : Prop := ∀ close, t.busyUntil = some close → now < close

theorem awake_of_step?_none (rests : t.step? now = none) : t.Awake now := by
  intro close busy
  rw [step?, busy] at rests
  by_contra reached
  simp [Nat.le_of_not_lt reached] at rests

theorem awake_of_step? (step : t.step? now = some (t', events)) : t'.Awake now := by
  rcases step?_eq_some_iff.mp step with ⟨_, -, -, rfl, -⟩ | ⟨idle, _, -, -, rfl, -⟩
  · intro close busy
    cases busy
  · intro close busy
    unfold begin at busy
    split at busy
    · cases busy
    · rename_i lasts
      cases busy
      have longer := le_waitEnd now (t.tickLength t.begun)
      exact Nat.lt_of_le_of_ne longer fun same => lasts (waitEnd_eq_self.mp same.symm)

theorem settleWith_of_step?_none (rests : t.step? now = none) (fuel : Nat) :
    t.settleWith now fuel = (t, []) := by
  cases fuel <;> simp [settleWith, rests]

/-- What a task does at one moment are turns at which it proceeds. -/
theorem run_replicate (t : PeriodicTask) (record : List TickEvent) (now fuel : Nat) :
    run (t, record) (List.replicate fuel (now, .proceed)) =
      ((t.settleWith now fuel).1, (t.settleWith now fuel).2.reverse ++ record) := by
  induction fuel generalizing t record with
  | zero => rfl
  | succ fuel ih =>
    rw [List.replicate_succ]
    cases step : t.step? now with
    | none =>
      have rests : t.act now .proceed = (t, []) := by rw [act, step]; rfl
      rw [run_cons_of_act rests, List.reverse_nil, List.nil_append, ih,
        settleWith_of_step?_none step, settleWith_of_step?_none step]
    | some result =>
      obtain ⟨t', events⟩ := result
      have steps : t.act now .proceed = (t', events) := by rw [act, step]; rfl
      rw [run_cons_of_act steps, ih, settleWith, step]
      simp

theorem awake_settle (t : PeriodicTask) (now : Nat) : (t.settle now).1.Awake now := by
  have awake (fuel : Nat) : ∀ t : PeriodicTask, t.Awake now ∨ 0 < fuel →
      (t.settleWith now fuel).1.Awake now := by
    induction fuel with
    | zero => exact fun t h => h.resolve_right (Nat.lt_irrefl 0)
    | succ fuel ih =>
      intro t _
      rw [settleWith]
      cases step : t.step? now with
      | none => exact awake_of_step?_none step
      | some result => exact ih _ (.inl (awake_of_step? step))
  exact awake _ t (.inr (Nat.succ_pos _))

end PeriodicTask

/-! ## One task in a schedule -/

namespace Schedule

variable {s : Schedule} {name : String} {t : PeriodicTask} {record : List TickEvent}

/-- What is recorded of the task of this name. -/
def eventsOf (name : String) (record : List (String × TickEvent)) : List TickEvent :=
  record.filterMap fun entry => if entry.1 = name then some entry.2 else none

/-- The task of this name, if there is one, and what is recorded of it, the latest event first. -/
def view (s : Schedule) (name : String) : Option PeriodicTask × List TickEvent :=
  (s.tasks.get? name, eventsOf name s.record)

theorem eventsOf_append (name : String) (record more : List (String × TickEvent)) :
    eventsOf name (record ++ more) = eventsOf name record ++ eventsOf name more :=
  List.filterMap_append

theorem eventsOf_map (name other : String) (events : List TickEvent) :
    eventsOf name (events.map fun e => (other, e)) = if other = name then events else [] := by
  by_cases same : other = name
  · have kept : (fun e : TickEvent => if other = name then some e else none) = some :=
      funext fun _ => if_pos same
    rw [if_pos same, eventsOf, List.filterMap_map, Function.comp_def, kept, List.filterMap_some]
  · rw [if_neg same, eventsOf, List.filterMap_map]
    exact List.filterMap_eq_nil_iff.mpr fun _ _ => if_neg same

/-- A task, if there is one, and its record after everything that it can do at the time `now`. -/
def settleView (now : Nat) :
    Option PeriodicTask × List TickEvent → Option PeriodicTask × List TickEvent
  | (some t, record) => (some (t.settle now).1, (t.settle now).2.reverse ++ record)
  | (none, record) => (none, record)

theorem view_settleTask (now : Nat)
    (state : Assoc String PeriodicTask × List (String × TickEvent)) (other name : String) :
    ((settleTask now state other).1.get? name, eventsOf name (settleTask now state other).2) =
      if other = name then settleView now (state.1.get? name, eventsOf name state.2)
      else (state.1.get? name, eventsOf name state.2) := by
  rw [settleTask]
  cases found : state.1.get? other with
  | none =>
    by_cases same : other = name
    · subst same
      simp [found, settleView]
    · simp [same]
  | some task =>
    dsimp only
    rw [eventsOf_append, ← List.map_reverse, eventsOf_map, Assoc.get?_insert]
    by_cases same : other = name
    · subst same
      simp [found, settleView]
    · simp [same, Ne.symm same]

theorem view_settle (s : Schedule) (name : String) :
    s.settle.view name = settleView s.now (s.view name) := by
  have each (names : List String) (distinct : names.Nodup)
      (state : Assoc String PeriodicTask × List (String × TickEvent)) :
      ((names.foldl (settleTask s.now) state).1.get? name,
        eventsOf name (names.foldl (settleTask s.now) state).2) =
        if name ∈ names then settleView s.now (state.1.get? name, eventsOf name state.2)
        else (state.1.get? name, eventsOf name state.2) := by
    induction names generalizing state with
    | nil => simp
    | cons other names ih =>
      rw [List.nodup_cons] at distinct
      rw [List.foldl_cons, ih distinct.2, view_settleTask]
      by_cases same : other = name
      · subst same
        simp [distinct.1]
      · simp [same, Ne.symm same]
  have settled := each s.tasks.keys s.tasks.distinct (s.tasks, s.record)
  rw [view, settle, settled, view]
  split
  · rfl
  · rename_i absent
    rw [Assoc.get?_eq_none_iff.mpr absent, settleView]

/-- Whether every tick in progress ends after now. -/
def Awake (s : Schedule) : Prop := ∀ name t, s.tasks.get? name = some t → t.Awake s.now

theorem awake_settle (s : Schedule) : s.settle.Awake := by
  intro name t found
  have settled : s.settle.tasks.get? name = (settleView s.now (s.view name)).1 :=
    congrArg Prod.fst (s.view_settle name)
  rw [settled, view] at found
  cases was : s.tasks.get? name with
  | none =>
    rw [was, settleView] at found
    cases found
  | some task =>
    rw [was, settleView] at found
    cases found
    exact task.awake_settle s.now

/-- Something is due by the time at which a tick in progress ends. -/
theorem nextDue?_le {close : Nat} (found : s.tasks.get? name = some t)
    (busy : t.busyUntil = some close) (later : s.now < close) :
    ∃ due, s.nextDue? = some due ∧ s.now < due ∧ due ≤ close := by
  have ends : t.due? = some close := by rw [PeriodicTask.due?, busy]
  have member : close ∈
      (s.tasks.bindings.filterMap fun b => b.2.due?).filter (s.now < ·) := by
    refine List.mem_filter.mpr ⟨?_, by simpa using later⟩
    exact List.mem_filterMap.mpr ⟨(name, t), Assoc.get?_eq_some_iff.mp found, ends⟩
  unfold nextDue?
  cases least : ((s.tasks.bindings.filterMap fun b => b.2.due?).filter (s.now < ·)).min? with
  | none =>
    rw [List.min?_eq_none_iff.mp least] at member
    cases member
  | some due =>
    obtain ⟨among, below⟩ := List.min?_eq_some_iff.mp least
    exact ⟨due, rfl, by simpa using (List.mem_filter.mp among).2, below close member⟩

theorem now_passTo (target : Nat) (s : Schedule) : (s.passTo target).now = target := by
  fun_induction passTo target s with
  | case1 s due next reached ih => exact ih
  | case2 s due next early => rfl
  | case3 s none => rfl

theorem awake_passTo (target : Nat) (h : s.Awake) : (s.passTo target).Awake := by
  fun_induction passTo target s with
  | case1 s due next reached ih => exact ih (awake_settle _)
  | case2 s due next early =>
    intro name t found close busy
    obtain ⟨due', next', after, below⟩ :=
      nextDue?_le (s := s) found busy (h name t found close busy)
    cases next.symm.trans next'
    exact Nat.lt_of_not_le fun reached => early ⟨after, Nat.le_trans below reached⟩
  | case3 s next =>
    intro name t found close busy
    obtain ⟨due, next', -⟩ := nextDue?_le (s := s) found busy (h name t found close busy)
    cases next.symm.trans next'

/-! ## What a schedule does to a task -/

/-- A task, if there is one, and its record after turns. -/
def runView (turns : List (Nat × TaskTurn)) :
    Option PeriodicTask × List TickEvent → Option PeriodicTask × List TickEvent
  | (some t, record) =>
    (some (PeriodicTask.run (t, record) turns).1, (PeriodicTask.run (t, record) turns).2)
  | (none, record) => (none, record)

theorem runView_nil (view : Option PeriodicTask × List TickEvent) : runView [] view = view := by
  obtain ⟨task, record⟩ := view
  cases task <;> rfl

theorem runView_append (view : Option PeriodicTask × List TickEvent)
    (turns more : List (Nat × TaskTurn)) :
    runView (turns ++ more) view = runView more (runView turns view) := by
  obtain ⟨task, record⟩ := view
  cases task with
  | none => rfl
  | some t => simp [runView, PeriodicTask.run_append]

/-- Whether, as far as the task of this name goes, nothing happens from one schedule to a later
one but turns at which it proceeds. -/
def Passes (s s' : Schedule) (name : String) : Prop :=
  ∃ turns, InTime s.now turns s'.now ∧ (∀ turn ∈ turns, turn.2 = .proceed) ∧
    s'.view name = runView turns (s.view name)

theorem Passes.trans {s s' s'' : Schedule} (h : Passes s s' name) (h' : Passes s' s'' name) :
    Passes s s'' name := by
  obtain ⟨turns, inTime, proceeds, seen⟩ := h
  obtain ⟨more, inTime', proceeds', seen'⟩ := h'
  refine ⟨turns ++ more, inTime_append.mpr ⟨s'.now, inTime, inTime'⟩, ?_, ?_⟩
  · intro turn member
    exact (List.mem_append.mp member).elim (proceeds turn) (proceeds' turn)
  · rw [seen', seen, runView_append]

/-- To the task of this name it makes no difference what else there is. -/
theorem Passes.of_view {s s' : Schedule} (later : s.now ≤ s'.now)
    (same : s'.view name = s.view name) : Passes s s' name :=
  ⟨[], later, by simp, by rw [same, runView_nil]⟩

theorem passes_settle (s : Schedule) (name : String) : Passes s s.settle name := by
  cases found : s.tasks.get? name with
  | none =>
    refine Passes.of_view (Nat.le_refl s.now) ?_
    rw [view_settle, view, found, settleView]
  | some t =>
    refine ⟨List.replicate (t.settleFuel s.now) (s.now, .proceed), inTime_replicate _ _ _, ?_, ?_⟩
    · exact fun turn member => congrArg Prod.snd (List.eq_of_mem_replicate member)
    · rw [view_settle, view, found, settleView, runView, PeriodicTask.run_replicate]
      rfl

theorem passes_passTo {target : Nat} (later : s.now ≤ target) (name : String) :
    Passes s (s.passTo target) name := by
  fun_induction passTo target s with
  | case1 s due next reached ih =>
    have moved : Passes s { s with now := due } name :=
      .of_view (Nat.le_of_lt reached.1) rfl
    exact (moved.trans (passes_settle _ name)).trans (ih reached.2)
  | case2 s due next early => exact .of_view later rfl
  | case3 s next => exact .of_view later rfl

/-- Up to the end of a tick after which its task is to end, this tick ends, which it does once. -/
theorem passTo_of_closing (h : s.Awake) {close : Nat} (seen : s.view name = (some t, record))
    (closing : t.Closing close) :
    ∃ turns, InTime s.now turns close ∧ (∀ turn ∈ turns, turn.2 = .proceed) ∧
      (∀ past, PeriodicTask.run (t, past) turns =
        (t.finish, .ended (t.begun - 1) close :: past)) ∧
      (s.passTo close).view name = (some t.finish, .ended (t.begun - 1) close :: record) := by
  have later : s.now < close := h name t (congrArg Prod.fst seen) close closing.busy
  obtain ⟨turns, inTime, proceeds, passed⟩ := passes_passTo (Nat.le_of_lt later) name
  rw [now_passTo] at inTime
  rw [seen, runView] at passed
  have alone (past : List TickEvent) := PeriodicTask.run_append_record t [] past turns
  have ends : PeriodicTask.run (t, []) turns = (t.finish, [.ended (t.begun - 1) close]) := by
    rcases closing.run [] turns with ⟨same, -⟩ | ⟨time, reached, member, ends⟩
    · -- The tick would still be in progress at its end.
      have still : (s.passTo close).tasks.get? name = some t := by
        have shown := congrArg Prod.fst passed
        rwa [← List.nil_append record, alone, same] at shown
      have ahead := awake_passTo close h name t still close closing.busy
      rw [now_passTo] at ahead
      exact absurd ahead (Nat.lt_irrefl close)
    · have before : time ≤ close := inTime.mem_le member
      rwa [Nat.le_antisymm before reached] at ends
  refine ⟨turns, inTime, proceeds, fun past => ?_, ?_⟩
  · rw [← List.nil_append past, alone, ends]
    rfl
  · rw [passed, ← List.nil_append record, alone, ends]
    rfl

end Schedule
end CacheDepot
