import Stepper.Proofs.Tracking

/-! # What the time budget counts -/

namespace Stepper

open List Machine

namespace Machine
variable {m next : Machine}

/-- The moment since which a run waits for its host, in a pause or for an input. -/
def suspendedSince? (m : Machine) : Option Nat :=
  match m.control with
  | .waiting (.paused _ since) => some since
  | .waiting (.input wait _) => some wait.since
  | _ => none

def isSuspended (m : Machine) : Bool := m.suspendedSince?.isSome

/-- The time that passes before the steps from those states that satisfy a predicate, where a state is
reached with the step before it and the first one at the time `since`. -/
def timeIn (holds : Machine → Bool) (since : Nat) : List (Engine × Machine) → Nat
  | [] => 0
  | state :: rest =>
    (if holds state.2 then state.1.now - since else 0) + timeIn holds state.1.now rest

/-- When the last of some steps was taken, or the moment given if none was. -/
def lastStep (since : Nat) (states : List (Engine × Machine)) : Nat :=
  (states.getLast?.map fun state => state.1.now).getD since

lemma timeIn_concat (holds) (since) (states) (state) : timeIn holds since (states ++ [state]) = timeIn
    holds since states + if holds state.2 then state.1.now - lastStep since states else 0 := by
  induction states generalizing since with
  | nil => simp [timeIn, lastStep]
  | cons first rest ih =>
    have last : lastStep since (first :: rest) = lastStep first.1.now rest := by
      simp only [lastStep, getLast?_cons, Option.map_some, Option.getD_some]
      cases rest.getLast? <;> rfl
    simp only [cons_append, timeIn, ih, last]
    omega

/-! ### What a step does to the account -/

lemma Advance.settles (advance : Advance m next) : next.suspendedSince? = none := by
  have calm {control : Control} (calm : control.isCalm = true) (same : next.control = control) :
      next.suspendedSince? = none := by
    unfold suspendedSince?
    rw [same]
    split <;> simp_all [Control.isCalm]
  cases advance with
  | works computes | takes _ _ _ computes => exact calm computes.calm rfl
  | entersLine _ _ quiet => exact calm quiet rfl
  | fails _ _ _ _ control | leavesLine _ _ _ _ _ control | endsLine _ _ _ _ control =>
    rw [suspendedSince?, control]
  | rests finished reached => rw [suspendedSince?, reached, finished]
  | ends _ _ reached | nextLine _ reached | skipsLine _ reached | crosses _ _ reached =>
    rw [suspendedSince?, reached]
    rfl

lemma Attends.account (attends : Attends b m next) :
    next.suspendedSince? = none ∧ next.excluded = m.excluded := by
  cases attends <;> exact ⟨rfl, rfl⟩

lemma Crosses.account (crosses : Crosses b m next) :
    next.suspendedSince? = none ∧ next.excluded = m.excluded := by
  cases crosses <;> exact ⟨rfl, rfl⟩

lemma resume_account (waits : m.control = .waiting wait) (ready : m.isReady e) :
    (m.resume e wait).2.suspendedSince? = none ∧ (m.resume e wait).2.excluded = m.excluded +
    m.suspendedSince?.elim 0 (e.now - ·) := by
  have goes : canResume e wait := by rwa [isReady, waits] at ready
  cases wait with
  | yielded b =>
    have running : m.suspendedSince? = none := by rw [suspendedSince?, waits]
    simp only [running, resume]
    split <;> exact ⟨rfl, rfl⟩
  | paused b since =>
    have suspended : m.suspendedSince? = some since := by rw [suspendedSince?, waits]
    simp only [suspended, resume]
    split
    · exact ⟨rfl, rfl⟩
    · split
      · exact ⟨rfl, rfl⟩
      · next going asleep => simp [canResume, going, asleep] at goes
  | input wait location =>
    have suspended : m.suspendedSince? = some wait.since := by rw [suspendedSince?, waits]
    simp only [suspended, resume]
    split
    · split
      · exact ⟨rfl, rfl⟩
      · split <;> exact ⟨rfl, rfl⟩
    · split
      · exact ⟨rfl, rfl⟩
      · next unanswered going => simp [canResume, going, unanswered] at goes

/-- A step that is due takes what was suspended to the account, and a suspension that it enters begins
now. -/
lemma step_account (ready : m.isReady e) : (m.step e).2.excluded = m.excluded + m.suspendedSince?.elim
    0 (e.now - ·) ∧ ∀ since, (m.step e).2.suspendedSince? = some since → since = e.now := by
  have still {next : Machine} (running : m.suspendedSince? = none)
      (kept : next.excluded = m.excluded) (enters : ∀ since, next.suspendedSince? = some since →
        since = e.now) :
      next.excluded = m.excluded + m.suspendedSince?.elim 0 (e.now - ·) ∧
        ∀ since, next.suspendedSince? = some since → since = e.now :=
    ⟨by rw [running, kept]; rfl, enters⟩
  have never {next : Machine} (settled : next.suspendedSince? = none) :
      ∀ since, next.suspendedSince? = some since → since = e.now :=
    fun since enters => by cases settled.symm.trans enters
  by_cases quiet : m.IsQuiet
  · refine still ?_ ?_ (never (advance_of_quiet e quiet).settles)
    · unfold suspendedSince?
      split
      · next shape => simp [IsQuiet, shape] at quiet
      · next shape => simp [IsQuiet, shape] at quiet
      · rfl
    · rw [← step_quiet_ledger e quiet]
      rfl
  · cases encounter_of_loud quiet with
    | prints shape =>
      simp only [step, shape, complete, print]
      split <;> exact still (by rw [suspendedSince?, shape]) rfl (never rfl)
    | asks shape =>
      simp only [step, shape, complete, applyBuiltin]
      split
      · exact still (by rw [suspendedSince?, shape]) rfl (never rfl)
      · refine still (by rw [suspendedSince?, shape]) rfl ?_
        rintro _ ⟨⟩
        rfl
    | boundary shape =>
      simp only [step, shape]
      obtain ⟨settled, kept⟩ := (m.stepBoundary_crosses e _).account
      exact still (by rw [suspendedSince?, shape]) kept (never settled)
    | arrived shape =>
      simp only [step, shape]
      obtain ⟨settled, kept⟩ := (m.arrive_attends e _).account
      exact still (by rw [suspendedSince?, shape]) kept (never settled)
    | log shape =>
      simp only [step, shape]
      obtain ⟨settled, kept⟩ := (m.stepLog_attends e _ _ _).account
      exact still (by rw [suspendedSince?, shape]) kept (never settled)
    | watch shape =>
      simp only [step, shape, stepWatch]
      split
      · refine still (by rw [suspendedSince?, shape]) rfl ?_
        rintro _ ⟨⟩
        rfl
      · exact still (by rw [suspendedSince?, shape]) rfl (never rfl)
    | waits shape =>
      simp only [step, shape]
      obtain ⟨settled, excluded⟩ := resume_account shape ready
      exact ⟨excluded, never settled⟩
    | @probed result _ stack shape top probe =>
      obtain ⟨_, shown⟩ := exists_shown probe
      simp only [step, shape, deliver, top]
      obtain ⟨settled, kept⟩ :=
        (deliverTo_attends { m with stack, control := .deliver result } e shown result).account
      exact still (by rw [suspendedSince?, shape]) kept (never settled)

/-- The books of a run: what is excluded is the time that it was suspended, and both times together are
the time since its start. -/
structure Accounts (passed : List (Engine × Machine)) (e : Engine) (m : Machine) : Prop where
  excluded : m.excluded = timeIn isSuspended m.started passed
  since : ∀ since, m.suspendedSince? = some since → since = lastStep m.started passed
  clock : lastStep m.started passed ≤ e.now
  elapsed : m.started + (timeIn isSuspended m.started passed +
    timeIn (fun m => !m.isSuspended) m.started passed) = lastStep m.started passed

lemma Accounts.step (accounts : Accounts passed e m) (ready : m.isReady e) :
    Accounts (passed ++ [(e, m)]) (m.step e).1 (m.step e).2 := by
  obtain ⟨excluded, since, clock, elapsed⟩ := accounts
  obtain ⟨account, enters⟩ := step_account ready
  have same := (m.step_terms e).started
  have now : (m.step e).1.now = e.now := by
    obtain ⟨_, _, _, -, changed⟩ := m.step_affects e
    rw [changed]
  have last : lastStep m.started (passed ++ [(e, m)]) = e.now := by simp [lastStep]
  refine ⟨?_, ?_, ?_, ?_⟩
  · rw [account, same, timeIn_concat, ← excluded, isSuspended]
    cases suspended : m.suspendedSince? with
    | none => rfl
    | some => rw [← since _ suspended]; rfl
  · rw [same, last]
    exact enters
  · rw [same, last, now]
  · rw [same, timeIn_concat, timeIn_concat, last]
    cases m.isSuspended <;> simp <;> omega

end Machine

lemma Engine.begin_terms {e later : Engine} (began : e.beginExecution source options = .ok (later, x))
    (machine : x.machine = some m) : ∃ target, m = .ofTarget target later.now (if options.timeout.getD
      later.config.defaultTimeout = 0 then none else some (options.timeout.getD
      later.config.defaultTimeout)) (options.debug || options.step) := by
  have idle := (begin_follows began).1
  cases debug : options.debug || options.step <;>
    simp only [beginExecution, idle, debug, Bool.false_eq_true, if_false, if_true, Except.ok.injEq,
      Prod.mk.injEq] at began
  all_goals
    obtain ⟨rfl, rfl⟩ := began
    dsimp only at machine
    obtain ⟨target, -, rfl⟩ := Option.map_eq_some_iff.mp machine
    exact ⟨target, rfl⟩

lemma Host.upholds_accounts (config) (number) (source) (options) : Upholds config number source options
    fun passed e m => m.Accounts passed e ∧ e.config = config ∧ m.limit = if options.timeout.getD
    config.defaultTimeout = 0 then none else some (options.timeout.getD config.defaultTimeout) := by
  constructor
  · intro moves e x m _ began machine
    have limits : e.config = config :=
      (Engine.begin_follows began).2.1.config.trans
        (moves_config _ (observed_orderly config) moves)
    obtain ⟨target, rfl⟩ := Engine.begin_terms began machine
    have terms := ofTarget_ledger target e.now
      (if options.timeout.getD e.config.defaultTimeout = 0 then none
        else some (options.timeout.getD e.config.defaultTimeout)) (options.debug || options.step)
    have started : (ofTarget target e.now _ _).started = e.now :=
      congrArg Machine.Ledger.started terms
    have excluded : (ofTarget target e.now _ _).excluded = 0 :=
      congrArg Machine.Ledger.excluded terms
    have limit : (ofTarget target e.now _ _).limit = _ := congrArg Machine.Ledger.limit terms
    refine ⟨⟨excluded, fun since suspended => ?_, ?_, rfl⟩, limits, limit.trans (by rw [limits])⟩
    · cases target <;> cases suspended
    · exact Nat.le_of_eq started
  · rintro passed e m ⟨accounts, same, limit⟩ ready
    exact ⟨accounts.step ready, (Engine.step_continues e m).config.trans same,
      (m.step_terms e).limit.trans limit⟩
  · rintro moves move _ _ _ _ _ _ _ ⟨⟨excluded, since, clock, elapsed⟩, same, limit⟩
    have follows := ((observed_orderly config).moves moves).follows move
    exact ⟨⟨excluded, since, Nat.le_trans clock follows.clock, elapsed⟩, follows.config.trans same,
      limit⟩

/-- The time budget counts running time only: what is excluded is exactly the time suspended, and a
boundary reports a timeout if and only if the time running exceeds the limit. -/
theorem Launch.budget_counts_running_time {config : Config} {source : String}
    (launch : Launch config source) (moves : List Move) {passed after : List (Engine × Machine)}
    {e : Engine} {m : Machine}
    (reached : launch.host.history launch.number moves = passed ++ (e, m) :: after) :
    let suspended := timeIn isSuspended m.started
    let running := timeIn (fun m => !m.isSuspended) m.started
    m.excluded = suspended passed ∧ m.started + m.excluded ≤ e.now ∧
      (∀ since, m.suspendedSince? = some since → since = lastStep m.started passed) ∧
      e.now = m.started + (suspended (passed ++ [(e, m)]) + running (passed ++ [(e, m)])) ∧
      m.limit = (if launch.timeout = 0 then none else some launch.timeout) ∧
      ∀ b, m.control = .boundary b → m.muted = false → e.aborting = false →
        ((m.step e).2.control = .deliver (.failure ⟨.timeout (m.limit.getD 0), b.location⟩) ↔
          ∃ limit, m.limit = some limit ∧ limit < running (passed ++ [(e, m)])) := by
  intro suspended running
  obtain ⟨⟨excluded, since, clock, elapsed⟩, -, limit⟩ :=
    (Host.upholds_accounts config launch.number source launch.options).reached launch.given reached
  have whole : e.now =
      m.started + (suspended (passed ++ [(e, m)]) + running (passed ++ [(e, m)])) := by
    simp only [suspended, running, timeIn_concat]
    cases m.isSuspended <;> simp <;> omega
  refine ⟨excluded, by omega, since, whole, limit, fun b shape heard peaceful => ?_⟩
  have counted : e.now - m.started - m.excluded = running (passed ++ [(e, m)]) := by
    have awake : m.isSuspended = false := by rw [isSuspended, suspendedSince?, shape]; rfl
    have kept : suspended (passed ++ [(e, m)]) = m.excluded := by
      simp only [suspended, timeIn_concat, awake, excluded]
      rfl
    omega
  simp only [step, shape, stepBoundary, heard, peaceful, Bool.false_eq_true, if_false,
    isOverBudget, counted]
  cases m.limit with
  | none =>
    simp only [reduceCtorEq, false_and, exists_false, iff_false, Bool.false_eq_true, if_false]
    split <;> simp [into]
  | some limit =>
    simp only [decide_eq_true_eq, Option.some.injEq, exists_eq_left', gt_iff_lt, Option.getD_some]
    split
    · next exceeds => exact iff_of_true rfl exceeds
    · next within =>
      refine iff_of_false ?_ within
      split <;> simp [into]

def longPause : Launch {} "PRINT 1\nPRINT 2\n" :=
  .sole {} "PRINT 1\nPRINT 2\n" { step := true, timeout := some 1000 }

def longPauseMoves : List Move := [.slice 1, .wait 5000, .command .resume, .slice 1]

def Control.isBoundary : Control → Bool
  | .boundary _ => true
  | _ => false

/-- When the run comes to its second statement, after 12 steps, five seconds have passed and are
excluded, and there is no timeout. -/
theorem longPause_within_budget :
    ∃ passed e m after b, longPause.host.history 1 longPauseMoves = passed ++ (e, m) :: after ∧
      m.control = .boundary b ∧ e.now = 5000 ∧ m.excluded = 5000 ∧ m.limit = some 1000 ∧
      (m.step e).2.control ≠ .deliver (.failure ⟨.timeout 1000, b.location⟩) := by
  have here : ((longPause.host.history 1 longPauseMoves).drop 12).head?.any (fun state =>
      state.2.control.isBoundary && !state.2.muted && !state.1.aborting && state.1.now == 5000 &&
        state.2.excluded == 5000) = true := by
    decide +kernel
  obtain ⟨⟨e, m⟩, begins, facts⟩ := (Option.any_eq_true _ _).mp here
  obtain ⟨after, found⟩ := head?_eq_some_iff.mp begins
  simp only [Bool.and_eq_true, Bool.not_eq_true', beq_iff_eq] at facts
  obtain ⟨⟨⟨⟨boundary, heard⟩, peaceful⟩, now⟩, excluded⟩ := facts
  have reached : longPause.host.history 1 longPauseMoves =
      (longPause.host.history 1 longPauseMoves).take 12 ++ (e, m) :: after := by
    rw [← found, take_append_drop]
  obtain ⟨total, -, -, whole, limit, timeouts⟩ :=
    longPause.budget_counts_running_time longPauseMoves reached
  have limited : m.limit = some 1000 := limit
  obtain ⟨b, shape⟩ : ∃ b, m.control = .boundary b := by
    cases shape : m.control with
    | boundary b => exact ⟨b, rfl⟩
    | _ => simp [Control.isBoundary, shape] at boundary
  refine ⟨_, e, m, after, b, reached, shape, now, excluded, limited, fun timeout => ?_⟩
  have raised := timeouts b shape heard peaceful
  rw [limited] at raised
  obtain ⟨_, -, exceeds⟩ := raised.mp timeout
  have suspended := timeIn_concat isSuspended m.started
    ((longPause.host.history 1 longPauseMoves).take 12) (e, m)
  omega

end Stepper
