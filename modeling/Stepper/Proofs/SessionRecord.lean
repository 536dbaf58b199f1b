import Stepper.Proofs.Handshake

/-! # What is recorded of a session -/

namespace Stepper

open List

namespace Debugger
variable {d later : Debugger}

structure Pinned (d : Debugger) (number line : Nat) : Prop where
  given : number ≤ d.issued
  only : ∀ b ∈ d.breakpoints, b.id = number → b.line = line

lemma Pinned.follows (pinned : Pinned d number line) (follows : Follows d later) :
    Pinned later number line := by
  refine ⟨Nat.le_trans pinned.given follows.issued, fun b mem same => ?_⟩
  obtain ⟨old, present, number, line, -⟩ := follows.numbers b mem (same ▸ pinned.given)
  exact line.symm.trans (pinned.only old present (number.trans same))

lemma Valid.pinned (valid : Valid d) (mem : b ∈ d.breakpoints) : Pinned d b.id b.line :=
  ⟨valid.issued b mem, fun _ other same => congrArg Breakpoint.line (valid.same_of_id other mem same)⟩

end Debugger

/-! ### What the host is told of a session -/

def Session.opening (session : Session) : Notice :=
  .sessionOpened session.id session.target.isSketch session.lines

namespace Engine

def Accounts (e later : Engine) : Prop :=
  ∃ notices, later.bus = e.bus.announce notices ∧
    ∀ session, later.debugger.session = some session →
      session.opening ∈ notices ∨ ∃ old, e.debugger.session = some old ∧ old.opening = session.opening

variable {e later : Engine}

lemma accounts_of_same (bus : ∃ notices, later.bus = e.bus.announce notices)
    (same : e.debugger.SameSession later.debugger) : e.Accounts later := by
  obtain ⟨notices, bus⟩ := bus
  refine ⟨notices, bus, fun _ isOpen => .inr ?_⟩
  obtain ⟨old, present, same⟩ := same.opened isOpen
  have told := congrArg Session.opening same
  exact ⟨old, present, told⟩

lemma accounts_of_none (bus : ∃ notices, later.bus = e.bus.announce notices)
    (none : later.debugger.session = none) : e.Accounts later := by
  obtain ⟨notices, bus⟩ := bus
  refine ⟨notices, bus, fun session isOpen => ?_⟩
  cases none.symm.trans isOpen

lemma Accounts.refl (e : Engine) : e.Accounts e := accounts_of_same ⟨[], rfl⟩ (.refl _)

lemma Accounts.trans (first : e.Accounts later) (second : later.Accounts last) : e.Accounts last := by
  obtain ⟨told, bus, known⟩ := first
  obtain ⟨thenTold, thenBus, thenKnown⟩ := second
  refine ⟨told ++ thenTold, by rw [thenBus, bus, announce_append], fun session isOpen => ?_⟩
  rcases thenKnown session isOpen with new | ⟨middle, present, same⟩
  · exact .inl (mem_append_right _ new)
  · rcases known middle present with new | ⟨old, there, sameToo⟩
    · exact .inl (mem_append_left _ (same ▸ new))
    · exact .inr ⟨old, there, sameToo.trans same⟩

lemma slice_accounts (e : Engine) (m : Machine) : e.Accounts (m.slice e).1 := by
  obtain ⟨notices, bus, -⟩ := e.slice_closes m
  exact accounts_of_same ⟨notices, bus⟩ (m.slice_consulted e).same.2.1

lemma sessionFor_accounts (e : Engine) (source) (analysis) :
    e.Accounts (e.sessionFor source analysis).1 := by
  have opens (d : Debugger) (target) (session)
      (isOpen : (d.opened source target).1.session = some session) :
      session.opening ∈ (d.opened source target).2.2 := by
    cases isOpen
    exact mem_singleton_self _
  unfold sessionFor
  split
  · exact ⟨_, rfl, fun session isOpen => .inl (opens _ _ session isOpen)⟩
  · split
    · exact .refl e
    · exact ⟨_, announce_append _ _ _, fun session isOpen =>
        .inl (mem_append_right _ (opens _ _ session isOpen))⟩

lemma begin_accounts (began : e.beginExecution source options = .ok (later, x)) : e.Accounts later := by
  have bus := (begin_follows began).2.1.bus
  cases debug : x.debug with
  | false => exact accounts_of_same bus (by rw [(begin_plain began debug).1]; rfl)
  | true =>
    unfold beginExecution at began
    split at began
    · cases began
    · simp only [Except.ok.injEq, Prod.mk.injEq] at began
      obtain ⟨rfl, rfl⟩ := began
      have asked : (options.debug || options.step) = true := debug
      simp only [asked, if_true]
      have session :=
        sessionFor_accounts { e with running := true, aborting := false } source (analyze source)
      exact Accounts.trans session
        (accounts_of_same ⟨_, rfl⟩ (Debugger.startRun_sameSession _ options.step))

lemma end_accounts (e : Engine) (x) (outputs) (bindings) (error : Option RuntimeError) :
    e.Accounts (e.endExecution x outputs bindings error).1 := by
  obtain ⟨notices, bus, -⟩ := e.end_bus x outputs bindings error
  cases debug : x.debug with
  | true =>
    exact accounts_of_none ⟨notices, bus⟩ (e.end_debug outputs bindings error debug).1.session
  | false =>
    exact accounts_of_same ⟨notices, bus⟩ (by rw [(e.end_plain outputs bindings error debug).1]; rfl)

end Engine

namespace Task

lemma runExecution_accounts (e : Engine) (x : Execution) : e.Accounts (runExecution e x).1 := by
  unfold runExecution Engine.runExecution
  cases machine : x.machine with
  | none => exact e.end_accounts x [] [] none
  | some m =>
    have slice := e.slice_accounts m
    cases control : (m.slice e).2.control with
    | finished error =>
      simp only [control]
      exact slice.trans ((m.slice e).1.end_accounts x _ _ error)
    | _ =>
      simp only [control]
      exact slice

lemma slice_accounts (e : Engine) (task : Task) : e.Accounts (task.slice e).1 := by
  have awaits (start) (wait) (same : start.debugger = e.debugger)
      (bus : ∃ notices, start.bus = e.bus.announce notices) :
      e.Accounts (awaitInput start wait).1 := by
    obtain ⟨debugger, ⟨thenTold, thenBus, -⟩, -⟩ := awaitInput_aside start wait
    obtain ⟨told, bus⟩ := bus
    refine Engine.accounts_of_same ⟨told ++ thenTold, ?_⟩ ?_
    · rw [thenBus, bus, Engine.announce_append]
    · rw [debugger, same]
      rfl
  cases task with
  | execute source options =>
    simp only [slice]
    cases began : e.beginExecution source options with
    | error => exact .refl e
    | ok pair => exact (Engine.begin_accounts began).trans (runExecution_accounts pair.1 pair.2)
  | executing x => exact runExecution_accounts e x
  | request => exact awaits _ _ rfl ⟨_, rfl⟩
  | awaiting wait => exact awaits e wait rfl ⟨[], rfl⟩
  | finished => exact .refl e

end Task

namespace Host

lemma perform_accounts (h : Host) (call) (immediate : call.isImmediate) :
    h.engine.Accounts (h.perform call).1.engine := by
  have debugger := perform_debugger (h := h) call immediate
  have bus := perform_bus (h := h) call immediate
  cases h.engine.debugger.obeys call immediate with
  | keeps session =>
    refine Engine.accounts_of_same ⟨_, bus⟩ ?_
    rw [debugger, Debugger.SameSession, session]
  | stops _ _ closed =>
    refine Engine.accounts_of_none ⟨_, bus⟩ ?_
    rw [debugger, closed]
    rfl
  | @opens _ own absent opened =>
    subst own
    refine ⟨_, bus, fun session isOpen => .inl ?_⟩
    rw [debugger, opened] at isOpen
    cases isOpen
    simp only [toldBy, Debugger.openSession, absent]
    exact mem_singleton_self _

lemma move_accounts (h : Host) (move : Move) : h.engine.Accounts (h.move move).engine := by
  cases move with
  | call call immediate => exact h.perform_accounts call immediate
  | wait => exact Engine.accounts_of_same ⟨[], rfl⟩ rfl
  | slice =>
    simp only [move, sliceOf]
    split
    · split
      · exact Task.slice_accounts h.engine _
      · exact .refl _
    · exact .refl _

end Host

def Engine.Announced (e : Engine) : Prop :=
  ∀ session, e.debugger.session = some session → session.opening ∈ e.bus.heard

lemma Engine.Accounts.announced {e later : Engine} (accounts : e.Accounts later)
    (observed : e.bus.IsObserved) (announced : e.Announced) : later.Announced := by
  obtain ⟨notices, bus, known⟩ := accounts
  intro session isOpen
  rw [bus, (e.bus.announce_heard notices observed).2]
  rcases known session isOpen with new | ⟨old, present, same⟩
  · exact mem_append_right _ new
  · exact mem_append_left _ (same ▸ announced old present)

lemma Host.observed_announced (config) (moves) : ((observed config).moves moves).engine.Announced := by
  have orderly := observed_orderly config
  have fresh : (observed config).engine.Announced := fun _ isOpen => by cases isOpen
  generalize observed config = h at orderly fresh
  induction moves generalizing h with
  | nil => exact fresh
  | cons move _ ih =>
    exact ih (h.move move) (orderly.move move) ((h.move_accounts move).announced orderly.observed fresh)

/-! ### The lines that were entered -/

namespace Debugger

structure Records (d : Debugger) (number : Nat) (target : Target) (entered : List Nat) : Prop where
  given : number ≤ d.sessions
  record : ∀ session, d.session = some session → session.number = number →
    session.target = target ∧ session.path.toList = entered.take maxPath

variable {d : Debugger} {number : Nat} {target : Target} {entered : List Nat}

lemma Records.obey (records : d.Records number target entered) (call)
    (immediate : call.isImmediate) : (d.obey call).Records number target entered := by
  cases d.obeys call immediate with
  | keeps session sessions => exact ⟨sessions ▸ records.given, session ▸ records.record⟩
  | stops _ _ closed =>
    rw [closed]
    exact ⟨records.given, fun session isOpen => by cases isOpen⟩
  | opens _ _ opened =>
    rw [opened]
    refine ⟨Nat.le_succ_of_le records.given, fun session isOpen same => ?_⟩
    cases isOpen
    exact absurd (same ▸ records.given) (Nat.not_succ_le_self _)

lemma Records.follow (records : d.Records number target entered) (move) :
    (d.follow move).Records number target entered := by
  cases move with
  | call call immediate => exact records.obey call immediate
  | wait | slice => exact records

lemma visit_path {session : Session} (path : session.path.toList = entered.take maxPath) (line) :
    (session.visit line).path.toList = (entered ++ [line]).take maxPath := by
  have size : session.path.size = min maxPath entered.length := by
    rw [← Array.length_toList, path, length_take]
  unfold Session.visit
  split
  · next _ =>
    have short : entered.length < maxPath := by omega
    rw [Array.toList_push, path, take_of_length_le (Nat.le_of_lt short),
      take_of_length_le (by rw [length_append]; exact short)]
  · next _ =>
    rw [path, take_append_of_le_length (by omega)]

lemma Records.visit (records : d.Records number target entered) {later : Debugger}
    (sessions : later.sessions = d.sessions)
    (session : later.session = d.session.map fun session => session.visit line) :
    later.Records number target (entered ++ [line]) := by
  refine ⟨sessions ▸ records.given, fun _ isOpen same => ?_⟩
  rw [session] at isOpen
  obtain ⟨old, present, rfl⟩ := Option.map_eq_some_iff.mp isOpen
  have blank := old.visit_blank line
  obtain ⟨runs, path⟩ :=
    records.record old present ((congrArg Session.number blank).symm.trans same)
  exact ⟨(congrArg Session.target blank).trans runs, visit_path path line⟩

end Debugger

end Stepper
