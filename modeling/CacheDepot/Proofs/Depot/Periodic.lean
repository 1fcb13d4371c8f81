import CacheDepot.Proofs.Depot.Registering

/-!
# Periodic tasks of a depot

From one tick to the next some time passes, so at any moment finitely many ticks are due, and each
tick that is begun leaves fewer. This holds of the timed drain and of all sweeps in every state
of a depot.
-/

namespace CacheDepot

namespace Ticker

variable {t t' : Ticker} {now : Nat}

/-- Whether a periodic task is over, or some time passes from one tick to the next. -/
def Paced (t : Ticker) : Prop := t.phase = .ended ∨ 0 < t.stride

theorem paced_start (now : Nat) (name : String) (interval : Duration) :
    (start now name interval).Paced := by
  by_cases zero : interval.isZero = true
  · exact .inl (if_pos zero)
  · have longer : 0 < longestWait * nanosPerMilli := by decide
    have passes : 0 < interval.nanos := Nat.pos_of_ne_zero fun none => zero (beq_iff_eq.mpr none)
    exact .inr (Nat.lt_min.mpr ⟨passes, longer⟩)

theorem stride_endTick (t : Ticker) : t.endTick.stride = t.stride := by
  unfold endTick
  split <;> rfl

theorem Paced.endTick (h : t.Paced) : t.endTick.Paced := by
  rcases h with ended | passes
  · exact .inl (by rw [Ticker.endTick, ended]; exact ended)
  · exact .inr (t.stride_endTick ▸ passes)

theorem Paced.stop (h : t.Paced) : t.stop.Paced := by
  unfold Ticker.stop
  split
  · exact .inl rfl
  · exact h

theorem Paced.shutDown (h : t.Paced) : t.shutDown.Paced := by
  unfold Ticker.shutDown
  split
  · rcases h with ended | passes
    · exact .inl (by simp [isTicking, ended])
    · exact .inr passes
  · exact h

theorem Paced.beginTick? (h : t.Paced) (begun : t.beginTick? now = some t') : t'.Paced := by
  rw [Ticker.beginTick?] at begun
  split at begun
  · rename_i due waits
    split at begun
    · cases begun
      exact .inr (h.resolve_left (by simp [waits]))
    · cases begun
  · cases begun

/-! ## Ticks that are due -/

theorem timerMillis_le_iff {nanos : Nat} :
    timerMillis nanos ≤ now ↔ nanos ≤ now * nanosPerMilli := by
  rw [timerMillis, nanosPerMilli, Nat.div_le_iff_le_mul_add_pred (by decide)]
  omega

theorem due?_eq_some_iff {due : Nat} :
    t.due? = some due ↔ ∃ moment, t.phase = .waiting moment ∧ timerMillis moment = due := by
  rw [due?]
  cases t.phase with
  | waiting moment => simp
  | ticking next => simp
  | ended => simp

/-- The first tick comes after the start. -/
theorem lt_of_due?_start {name : String} {interval : Duration} {due : Nat}
    (waits : (start now name interval).due? = some due) : now < due := by
  obtain ⟨moment, phase, rfl⟩ := due?_eq_some_iff.mp waits
  have started : (start now name interval).phase =
      if interval.isZero then .ended else .waiting (now * nanosPerMilli + interval.nanos) := rfl
  rw [started] at phase
  split at phase
  · cases phase
  · rename_i lasts
    have passes : 0 < interval.nanos := Nat.pos_of_ne_zero fun none => lasts (beq_iff_eq.mpr none)
    rw [← TickerPhase.waiting.inj phase]
    refine Nat.lt_of_not_le fun early => ?_
    exact Nat.not_le_of_lt (Nat.lt_add_of_pos_right passes) (timerMillis_le_iff.mp early)

/-- A tick that is due can be begun. -/
theorem exists_beginTick? (due : t.due?.any (· ≤ now) = true) :
    ∃ t', t.beginTick? now = some t' := by
  cases waits : t.due? with
  | none =>
    rw [waits] at due
    cases due
  | some time =>
    rw [waits] at due
    have reached : time ≤ now := of_decide_eq_true due
    obtain ⟨moment, phase, rfl⟩ := due?_eq_some_iff.mp waits
    rw [Ticker.beginTick?, phase]
    exact ⟨_, if_pos (timerMillis_le_iff.mp reached)⟩

/-- A tick that is begun leaves fewer that are due. -/
theorem overdue_of_beginTick? (h : t.Paced) (begun : t.beginTick? now = some t') :
    t'.overdue now < t.overdue now := by
  rw [Ticker.beginTick?] at begun
  cases phase : t.phase with
  | ticking next => simp [phase] at begun
  | ended => simp [phase] at begun
  | waiting due =>
    rw [phase] at begun
    dsimp only at begun
    split at begun
    · rename_i reached
      cases begun
      have passes : 0 < t.stride := h.resolve_left (by simp [phase])
      have same : stride { t with phase := .ticking (t.nextDue now due) } = t.stride := rfl
      simp only [overdue, phase, if_pos reached, same]
      split
      · rename_i early
        rw [nextDue] at early ⊢
        split at early
        · omega
        · rename_i punctual
          rw [if_neg punctual, Nat.sub_add_eq]
          have fewer := Nat.div_eq_sub_div passes (a := now * nanosPerMilli - due) (by omega)
          omega
      · exact Nat.succ_pos _
    · cases begun

theorem overdue_endTick_le (t : Ticker) (now : Nat) : t.endTick.overdue now ≤ t.overdue now := by
  rw [overdue, overdue, stride_endTick, Ticker.endTick]
  cases phase : t.phase with
  | ticking next =>
    cases t.stopping with
    | false => exact Nat.le_refl _
    | true => exact Nat.zero_le _
  | waiting due =>
    dsimp only
    exact Nat.le_of_eq (by rw [phase])
  | ended =>
    dsimp only
    exact Nat.le_of_eq (by rw [phase])

theorem overdue_stop_le (t : Ticker) (now : Nat) : t.stop.overdue now ≤ t.overdue now := by
  unfold Ticker.stop
  split
  · exact Nat.zero_le _
  · exact Nat.le_refl _

end Ticker

/-! ## Depots -/

/-- Whether the sweep of a store, if there is one, is paced. -/
def Registered.Paced (r : Registered) : Prop := ∀ sweeper, r.sweeper = some sweeper → sweeper.Paced

theorem Registered.paced_sweeperFor (now : Nat) (name : String) (config : StoreConfig)
    (handle : Handle) : Paced ⟨handle, Depot.sweeperFor now name config⟩ := by
  intro sweeper found
  obtain ⟨interval, -, rfl⟩ := Option.map_eq_some_iff.mp found
  exact Ticker.paced_start now _ interval

namespace Depot

variable {d d' : Depot}

/-- The timed drain after an action that has nothing to do with it, or that asks it to end. -/
theorem drainTimer_start (d : Depot) (now : Nat) (operation : Operation) :
    (d.start now operation).2.drainTimer = d.drainTimer ∨
      (d.start now operation).2.drainTimer = d.stopTimer.drainTimer := by
  have reload (d : Depot) (h : Handle) (key : CacheKey) (ttl : Option Duration)
      (loader : Loader) : (d.startReload h key ttl loader).drainTimer = d.drainTimer := by
    unfold startReload
    dsimp only
    split <;> rfl
  have torn (flushFirst : Bool) :
      (d.beginTearDown now flushFirst).2.drainTimer = d.drainTimer ∨
        (d.beginTearDown now flushFirst).2.drainTimer = d.stopTimer.drainTimer := by
    unfold beginTearDown
    split
    · dsimp only
      split
      · exact .inr rfl
      · exact .inr (Beside.afterTimer d.stopTimer now flushFirst).drainTimer
    · exact .inl (Beside.afterTimer d now flushFirst).drainTimer
  cases operation with
  | create name config =>
    left
    rw [start, createCache]
    cases config.fault? <;> rfl
  | warm store items => exact .inl (StoresOnly.warm d now store items).drainTimer
  | cacheAside store key ttl loader =>
    exact .inl (StoresOnly.cacheAside d now key ttl store loader).drainTimer
  | refreshAhead store key ttl threshold loader =>
    left
    have read : (d.getEntry now (d.getCache store) key).2.drainTimer = d.drainTimer := rfl
    rw [start, refreshAhead]
    generalize d.getEntry now (d.getCache store) key = result at read ⊢
    obtain ⟨entry, d'⟩ := result
    cases entry with
    | none => exact (StoresOnly.load d' now _ key ttl loader).drainTimer.trans read
    | some e =>
      dsimp only
      split
      · exact (reload d' _ key ttl loader).trans read
      · exact read
  | writeThrough store key value ttl persist =>
    exact .inl (StoresOnly.writeThrough d now key ttl store value persist).drainTimer
  | writeBehind store key value ttl batchSize persist =>
    left
    rw [start, writeBehind]
    dsimp only
    split <;> rfl
  | tierGet first second key ttl =>
    exact .inl (StoresOnly.tierGet d now key ttl first second).drainTimer
  | tierSet first second key value ttl =>
    exact .inl (StoresOnly.tierSet d now key ttl first second value).drainTimer
  | drain => exact .inl (Beside.runWorker d now .newDrain).drainTimer
  | flush => exact .inl (Beside.runWorker d now .newFlush).drainTimer
  | destroy => exact torn false
  | shutdown => exact torn true
  | _ => exact .inl rfl

/-- Whether the stores stand in the order of their names, and all periodic tasks are paced. -/
structure Paced (d : Depot) : Prop where
  inOrder : d.registry.InOrder
  timer : ∀ timer, d.drainTimer = some timer → timer.ticker.Paced
  sweepers : d.registry.Every Registered.Paced

namespace Paced

theorem registry (h : d.Paced) (now : Nat) (a : Action) :
    (d.act now a).registry.InOrder ∧ (d.act now a).registry.Every Registered.Paced := by
  have registers := d.registers_act now a
  generalize d.event? now a = event at registers
  cases registers with
  | kept same => exact same ▸ ⟨h.inOrder, h.sweepers⟩
  | ticked found sweeps begun entered =>
    rw [entered]
    refine ⟨h.inOrder.insert _ _, h.sweepers.insert _ ?_⟩
    intro sweeper same
    cases same
    exact ((h.sweepers.get? found _ sweeps).beginTick? begun).endTick
  | created accepted entered grown =>
    rw [entered]
    exact ⟨h.inOrder.insert _ _, h.sweepers.insert _ (Registered.paced_sweeperFor now _ _ _)⟩
  | tornDown stopped =>
    rw [stopped, stopSweepers]
    dsimp only
    refine ⟨h.inOrder.map _, ?_⟩
    apply h.sweepers.map
    intro store paced sweeper found
    obtain ⟨old, was, rfl⟩ := Option.map_eq_some_iff.mp found
    exact (paced old was).stop

theorem continueTick (now : Nat) {timer : DrainTimer} (worker : Nat) (paced : timer.ticker.Paced) :
    ∀ timer', (d.continueTick now timer worker).drainTimer = some timer' →
      timer'.ticker.Paced := by
  intro timer' found
  rw [Depot.continueTick] at found
  generalize d.awaitWorker now worker Task.awaiting finish = result at found
  obtain ⟨progress, d'⟩ := result
  cases progress with
  | answered answer =>
    cases found
    exact paced.endTick
  | waits t =>
    cases found
    exact paced

theorem runTimer (h : d.Paced) (now : Nat) :
    ∀ timer, (d.runTimer now).drainTimer = some timer → timer.ticker.Paced := by
  rw [Depot.runTimer]
  cases timed : d.drainTimer with
  | none => exact h.timer
  | some timer =>
    have paced := h.timer timer timed
    dsimp only
    split
    · split
      · exact continueTick now _ paced
      · exact h.timer
    · split
      · rename_i ticker begun
        have begins := paced.beginTick? begun
        split
        · intro timer' found
          cases found
          exact begins.endTick
        · exact continueTick now _ begins
      · exact h.timer

theorem stopTimer (h : d.Paced) :
    ∀ timer, d.stopTimer.drainTimer = some timer → timer.ticker.Paced := by
  intro timer found
  obtain ⟨old, was, rfl⟩ := Option.map_eq_some_iff.mp found
  exact (h.timer old was).shutDown

theorem act (h : d.Paced) (now : Nat) (a : Action) : (d.act now a).Paced := by
  obtain ⟨inOrder, sweepers⟩ := h.registry now a
  refine ⟨inOrder, ?_, sweepers⟩
  cases a with
  | start operation =>
    let numbered : Depot := { d with nextTask := d.nextTask + 1 }
    have timer : (d.act now (.start operation)).drainTimer =
        (numbered.start now operation).2.drainTimer := settleTask_drainTimer _ _
    rw [timer]
    rcases numbered.drainTimer_start now operation with same | stopped
    · rw [same]
      exact h.timer
    · rw [stopped]
      exact h.stopTimer
  | resume id =>
    rw [Depot.act, (d.leavesOthers_resume now id).drainTimer]
    exact h.timer
  | clear id handle =>
    rw [Depot.act, (d.leavesOthers_emptyOne id handle).drainTimer]
    exact h.timer
  | drainTimer => exact h.runTimer now
  | sweep name =>
    rw [Depot.act, (d.runSweep_tasks now name).2]
    exact h.timer
  | abort id =>
    rw [Depot.act, (d.leavesOthers_abort id).drainTimer]
    exact h.timer

theorem run (h : d.Paced) (actions : List (Nat × Action)) : (d.run actions).Paced := by
  induction actions generalizing d with
  | nil => exact h
  | cons first rest ih => exact ih (h.act first.1 first.2)

end Paced

theorem paced_new {now : Nat} {store : StoreConfig} {writeBehind : WriteBehindConfig}
    (made : Depot.new now store writeBehind = .ok d) : d.Paced := by
  rw [Depot.new] at made
  split at made
  · cases made
  · cases made
    refine ⟨⟨List.Pairwise.nil, List.not_mem_nil⟩, ?_, ⟨?_, by rintro _ ⟨⟩⟩⟩
    · intro timer found
      obtain ⟨interval, -, rfl⟩ := Option.map_eq_some_iff.mp found
      exact Ticker.paced_start now _ interval
    · exact Registered.paced_sweeperFor now _ store _

end Depot
end CacheDepot
