import Stepper.Proofs.Moves

/-! # What the debugger keeps

Whatever changes a debugger is a request. What holds of its records is shown for each request once, and
carried from there along every run (`Evolves`). -/

namespace Stepper

open List

variable {b : Breakpoint} {source : String} {x : Execution} {options : ExecutionOptions}

def Session.blank (session : Session) : Session := { session with path := #[] }

@[simp] lemma Session.visit_blank (session : Session) (line) :
    (session.visit line).blank = session.blank := by
  unfold visit
  split <;> rfl

namespace Debugger
variable {line : Nat} {breakpoints : List Breakpoint} {d later last : Debugger}

/-! ### Breakpoints by their lines -/

lemma mem_insertBreakpoint (ordered : breakpoints.Pairwise fun b c => b.line < c.line)
    (mem : other ∈ insertBreakpoint b breakpoints) :
    other = b ∨ (other ∈ breakpoints ∧ other.line ≠ b.line) := by
  induction breakpoints with
  | nil => exact .inl (by simpa [insertBreakpoint] using mem)
  | cons _ _ ih =>
    obtain ⟨behind, ordered⟩ := pairwise_cons.mp ordered
    simp only [insertBreakpoint] at mem
    split at mem
    · rename_i less
      rcases mem_cons.mp mem with rfl | old
      · exact .inl rfl
      · refine .inr ⟨old, ?_⟩
        rcases mem_cons.mp old with rfl | deep
        · omega
        · have more := behind other deep
          omega
    · split at mem
      · rename_i same
        rcases mem_cons.mp mem with rfl | old
        · exact .inl rfl
        · have more := behind other old
          exact .inr ⟨mem_cons_of_mem _ old, by omega⟩
      · rename_i different
        rcases mem_cons.mp mem with rfl | deep
        · exact .inr ⟨mem_cons_self, Ne.symm different⟩
        · rcases ih ordered deep with here | ⟨old, apart⟩
          · exact .inl here
          · exact .inr ⟨mem_cons_of_mem _ old, apart⟩

lemma mem_insertBreakpoint_self : b ∈ insertBreakpoint b breakpoints := by
  induction breakpoints with
  | nil => exact mem_singleton_self b
  | cons _ _ ih =>
    rw [insertBreakpoint]
    split
    · exact mem_cons_self
    · split
      · exact mem_cons_self
      · exact mem_cons_of_mem _ ih

lemma insertBreakpoint_pairwise (ordered : breakpoints.Pairwise fun b c => b.line < c.line)
    (pairwise : breakpoints.Pairwise R)
    (before : ∀ other ∈ breakpoints, other.line < b.line → R other b)
    (behind : ∀ other ∈ breakpoints, b.line < other.line → R b other) :
    (insertBreakpoint b breakpoints).Pairwise R := by
  induction breakpoints with
  | nil => exact pairwise_singleton R b
  | cons first _ ih =>
    obtain ⟨later, ordered'⟩ := pairwise_cons.mp ordered
    obtain ⟨related, pairwise'⟩ := pairwise_cons.mp pairwise
    simp only [insertBreakpoint]
    split
    · rename_i less
      refine pairwise_cons.mpr ⟨fun other mem => ?_, pairwise⟩
      refine behind other mem ?_
      rcases mem_cons.mp mem with rfl | deep
      · exact less
      · exact Nat.lt_trans less (later other deep)
    · split
      · rename_i same
        refine pairwise_cons.mpr ⟨fun other mem => ?_, pairwise'⟩
        exact behind other (mem_cons_of_mem _ mem) (same ▸ later other mem)
      · rename_i notLess different
        refine pairwise_cons.mpr ⟨fun other mem => ?_, ?_⟩
        · rcases mem_insertBreakpoint ordered' mem with rfl | ⟨old, -⟩
          · exact before first mem_cons_self (by omega)
          · exact related other old
        · exact ih ordered' pairwise' (fun other mem => before other (mem_cons_of_mem _ mem)) fun
            other mem => behind other (mem_cons_of_mem _ mem)

lemma parse_assigns {read : DebugExpr} (parsed : DebugExpr.parse source = .ok read) :
    read.value.assigns = false := by
  unfold DebugExpr.parse at parsed
  split at parsed
  · cases parsed
  · split at parsed
    · cases parsed
    · rename_i plain
      cases parsed
      simpa using plain

lemma parse_source {read : DebugExpr} (parsed : DebugExpr.parse source = .ok read) :
    read.source = source := by
  unfold DebugExpr.parse at parsed
  split at parsed
  · cases parsed
  · split at parsed <;> cases parsed
    rfl

lemma parseTemplate_assigns {read : LogTemplate} (parsed : LogTemplate.parse source = .ok read) :
    partsAssign read.parts = false := by
  unfold LogTemplate.parse at parsed
  split at parsed
  · cases parsed
  · split at parsed
    · cases parsed
    · rename_i plain
      cases parsed
      simpa using plain

lemma parseOptional_mem {parse : String → Except SessionError α} {source : Option String}
    {read : Option α} (parsed : parseOptional parse source = .ok read) :
    ∀ value ∈ read, ∃ text, parse text = .ok value := by
  intro value mem
  cases source with
  | none =>
    cases parsed
    cases mem
  | some text =>
    simp only [parseOptional] at parsed
    cases found : parse text with
    | error => simp [found, Except.map] at parsed
    | ok other =>
      simp only [found, Except.map, Except.ok.injEq] at parsed
      subst parsed
      obtain rfl : other = value := by simpa using mem
      exact ⟨text, found⟩

lemma breakpointOn?_some (found : d.breakpointOn? line = some b) : b ∈ d.breakpoints ∧ b.line = line :=
  ⟨mem_of_find?_eq_some found, by simpa using find?_some found⟩

lemma same_of_apart {mark : Breakpoint → Nat} (apart : breakpoints.Pairwise fun b c => mark b ≠ mark c)
    (first : b ∈ breakpoints) (second : c ∈ breakpoints) (same : mark b = mark c) : b = c := by
  obtain ⟨i, inside, rfl⟩ := getElem_of_mem first
  obtain ⟨j, inside', rfl⟩ := getElem_of_mem second
  have apart := pairwise_iff_getElem.mp apart
  rcases Nat.lt_trichotomy i j with less | rfl | more
  · exact absurd same (apart i j inside inside' less)
  · rfl
  · exact absurd same.symm (apart j i inside' inside more)

structure Added (d : Debugger) (line : Nat) (later : Debugger) (b : Breakpoint) : Prop where
  stored : later = { d with breakpoints := insertBreakpoint b d.breakpoints, issued := later.issued }
  place : b.line = line
  verified : b.verified = (d.session.map fun session => session.lines.contains line).getD false
  condition : ∀ condition ∈ b.condition, condition.value.assigns = false
  log : ∀ template ∈ b.log, partsAssign template.parts = false
  number :
    (∃ old, d.breakpointOn? line = some old ∧ b.id = old.id ∧ b.hits = old.hits ∧
      later.issued = d.issued) ∨
    (d.breakpointOn? line = none ∧ b.id = d.issued + 1 ∧ later.issued = d.issued + 1)

lemma setBreakpoint_added (added : d.setBreakpoint line condition log = .ok (later, b)) :
    Added d line later b := by
  unfold setBreakpoint at added
  split at added
  · cases added
  · rename_i condition' readCondition
    split at added
    · cases added
    · rename_i log' readLog
      have conditionPlain : ∀ condition ∈ condition', condition.value.assigns = false := by
        intro value mem
        obtain ⟨_, parsed⟩ := parseOptional_mem readCondition value mem
        exact parse_assigns parsed
      have logPlain : ∀ template ∈ log', partsAssign template.parts = false := by
        intro value mem
        obtain ⟨_, parsed⟩ := parseOptional_mem readLog value mem
        exact parseTemplate_assigns parsed
      cases occupied : d.breakpointOn? line with
      | some old =>
        simp only [occupied, Except.ok.injEq, Prod.mk.injEq] at added
        obtain ⟨rfl, rfl⟩ := added
        exact ⟨rfl, rfl, rfl, conditionPlain, logPlain, .inl ⟨old, occupied, rfl, rfl, rfl⟩⟩
      | none =>
        simp only [occupied, Except.ok.injEq, Prod.mk.injEq] at added
        obtain ⟨rfl, rfl⟩ := added
        exact ⟨rfl, rfl, rfl, conditionPlain, logPlain, .inr ⟨occupied, rfl, rfl⟩⟩

section
variable (added : Added d line later b)
include added

lemma Added.issued : d.issued ≤ later.issued := by
  obtain ⟨_, -, -, -, same⟩ | ⟨-, -, more⟩ := added.number
  · exact Nat.le_of_eq same.symm
  · exact more ▸ Nat.le_succ _

lemma Added.replaced (given : b.id ≤ d.issued) :
    ∃ old ∈ d.breakpoints, old.id = b.id ∧ old.line = b.line ∧ old.hits = b.hits := by
  obtain ⟨old, occupied, number, hits, -⟩ | ⟨-, fresh, -⟩ := added.number
  · obtain ⟨present, here⟩ := breakpointOn?_some occupied
    exact ⟨old, present, number.symm, here.trans added.place.symm, hits.symm⟩
  · rw [fresh] at given
    exact absurd given (Nat.not_succ_le_self _)

lemma Added.fresh (distinct : d.breakpoints.Pairwise fun b c => b.id ≠ c.id)
    (issued : ∀ b ∈ d.breakpoints, b.id ≤ d.issued) {other : Breakpoint}
    (mem : other ∈ d.breakpoints) (apart : other.line ≠ b.line) : other.id ≠ b.id := by
  intro same
  obtain ⟨old, present, number, here, -⟩ := added.replaced (same ▸ issued other mem)
  have replaced : other = old := same_of_apart distinct mem present (same.trans number.symm)
  exact apart (replaced ▸ here)

lemma Added.given (issued : ∀ b ∈ d.breakpoints, b.id ≤ d.issued) : b.id ≤ later.issued := by
  obtain ⟨old, occupied, number, -, same⟩ | ⟨-, _, _⟩ := added.number
  · rw [number, same]
    exact issued old (breakpointOn?_some occupied).1
  · omega

end

/-! ### What a debugger can be asked for -/

/-- Everything that changes a debugger, asked for by its host or by the run. -/
inductive Request where
  | openSession (source : String) (target : Target)
  | closeSession
  | startRun (stepOnEntry : Bool)
  | endRun (success : Bool)
  | reach (position : Position)
  | countHit (id : Nat)
  | pause (position : Position) (stop : Stop) (bindings watches : Dictionary Value)
  | command (command : Command)
  | setBreakpoint (line : Nat) (condition log : Option String)
  | clearBreakpoint (line : Nat)
  | switchBreakpoint (line : Nat)
  | setWatch (source : String)
  | clearWatch (source : String)

/-- What a request leaves, or the error that it is refused with. -/
def serve (d : Debugger) : Request → Except SessionError Debugger
  | .openSession source target => (d.openSession source target).map Prod.fst
  | .closeSession => d.closeSession.map Prod.fst
  | .startRun stepOnEntry => .ok (d.startRun stepOnEntry)
  | .endRun success => .ok (d.endRun success)
  | .reach position => .ok (d.reach position).1
  | .countHit id => .ok (d.countHit id).1
  | .pause position stop bindings watches => .ok (d.pause position stop bindings watches).1
  | .command command => (d.command command).map Prod.fst
  | .setBreakpoint line condition log => (d.setBreakpoint line condition log).map Prod.fst
  | .clearBreakpoint line => (d.clearBreakpoint line).map Prod.fst
  | .switchBreakpoint line => (d.switchBreakpoint line).map Prod.fst
  | .setWatch source => d.setWatch source
  | .clearWatch source => .ok (d.clearWatch source).1

inductive Serves (d : Debugger) : Request → Debugger → Prop where
  | openSession {source : String} {target : Target} (absent : d.session = none) :
      Serves d (.openSession source target) (d.opened source target).1
  | closeSession {session : Session} (present : d.session = some session) :
      Serves d .closeSession (d.closed session).1
  | startRun {stepOnEntry : Bool} : Serves d (.startRun stepOnEntry) (d.startRun stepOnEntry)
  | endRun {success : Bool} : Serves d (.endRun success) (d.endRun success)
  | reach {position : Position} : Serves d (.reach position) (d.reach position).1
  | countHit {id : Nat} : Serves d (.countHit id) (d.countHit id).1
  | pause {position : Position} {stop : Stop} {bindings watches : Dictionary Value} :
      Serves d (.pause position stop bindings watches) (d.pause position stop bindings watches).1
  | resume {command : Command} (present : d.session.isSome = true) (paused : d.state = .paused) :
      Serves d (.command command) { d with pendingStep := d.stepFor command, state := .running }
  | prepare {command : Command} (present : d.session.isSome = true) (running : d.state = .running) :
      Serves d (.command command) { d with pendingStep := d.stepFor command }
  | setBreakpoint {line : Nat} {condition log : Option String} {later : Debugger} {b : Breakpoint}
      (added : Added d line later b) : Serves d (.setBreakpoint line condition log) later
  | clearBreakpoint {line : Nat} :
      Serves d (.clearBreakpoint line)
        { d with breakpoints := d.breakpoints.filter fun b => b.line != line }
  | switchBreakpoint {line : Nat} :
      Serves d (.switchBreakpoint line)
        { d with
          breakpoints := d.breakpoints.map fun b =>
            if b.line = line then { b with enabled := !b.enabled } else b }
  | keepWatch {source : String} : Serves d (.setWatch source) d
  | setWatch {source : String} {watch : DebugExpr} (parsed : DebugExpr.parse source = .ok watch)
      (new : ∀ old ∈ d.watches, old.source ≠ source) :
      Serves d (.setWatch source) { d with watches := d.watches ++ [watch] }
  | clearWatch {source : String} : Serves d (.clearWatch source) (d.clearWatch source).1

lemma serves_of_ok (served : d.serve request = .ok later) : Serves d request later := by
  have outcome {α : Type} {result : Except SessionError (Debugger × α)}
      (mapped : result.map Prod.fst = .ok later) : ∃ value, result = .ok (later, value) := by
    cases result with
    | error => cases mapped
    | ok pair =>
      cases mapped
      exact ⟨pair.2, rfl⟩
  cases request with
  | openSession =>
    obtain ⟨_, opened⟩ := outcome served
    unfold openSession at opened
    split at opened <;> cases opened
    exact .openSession ‹_›
  | closeSession =>
    obtain ⟨_, closed⟩ := outcome served
    unfold closeSession at closed
    split at closed <;> cases closed
    exact .closeSession ‹_›
  | command command =>
    obtain ⟨_, obeyed⟩ := outcome served
    unfold Debugger.command at obeyed
    split at obeyed
    · cases obeyed
    · next present =>
      have present : d.session.isSome := by simpa [Option.isSome_iff_ne_none] using present
      split at obeyed <;> cases obeyed
      · exact .resume present ‹_›
      · exact .prepare present ‹_›
  | setBreakpoint =>
    obtain ⟨_, added⟩ := outcome served
    exact .setBreakpoint (setBreakpoint_added added)
  | clearBreakpoint =>
    obtain ⟨_, cleared⟩ := outcome served
    unfold clearBreakpoint at cleared
    split at cleared <;> cases cleared
    exact .clearBreakpoint
  | switchBreakpoint =>
    obtain ⟨_, switched⟩ := outcome served
    unfold Debugger.switchBreakpoint at switched
    split at switched <;> cases switched
    exact .switchBreakpoint
  | setWatch =>
    simp only [serve, Debugger.setWatch] at served
    split at served
    · cases served
    · split at served <;> cases served
      · exact .keepWatch
      · next parsed new => exact .setWatch parsed (by simpa using new)
  | startRun | endRun | reach | countHit | pause | clearWatch =>
    cases served
    constructor

/-! ### What requests keep -/

def hasLine (d : Debugger) (line : Nat) : Bool :=
  (d.session.map fun session => session.lines.contains line).getD false

def SameSession (d later : Debugger) : Prop :=
  later.session.map Session.blank = d.session.map Session.blank

lemma SameSession.refl (d) : SameSession d d := rfl

lemma SameSession.opened (same : SameSession d later) {session : Session}
    (isOpen : later.session = some session) :
    ∃ old, d.session = some old ∧ old.blank = session.blank := by
  have found : d.session.map Session.blank = some session.blank := by
    rw [← same, isOpen]
    rfl
  exact Option.map_eq_some_iff.mp found

lemma SameSession.hasLine (same : SameSession d later) : later.hasLine = d.hasLine := by
  funext line
  have factors (d : Debugger) : d.hasLine line =
      ((d.session.map Session.blank).map fun session => session.lines.contains line).getD false := by
    rw [Option.map_map]
    rfl
  rw [factors, factors, same]

lemma reach_sameSession (d : Debugger) (position) : SameSession d (d.reach position).1 := by
  rw [reach_eq, SameSession, Option.map_map]
  exact congrArg (d.session.map ·) (funext fun session => session.visit_blank position.line)

lemma startRun_sameSession (d) (stepOnEntry) : SameSession d (d.startRun stepOnEntry) := by
  unfold SameSession startRun
  rw [Option.map_map]
  rfl

structure Kept (d : Debugger) : Prop where
  ordered : d.breakpoints.Pairwise fun b c => b.line < c.line
  distinct : d.breakpoints.Pairwise fun b c => b.id ≠ c.id
  issued : ∀ b ∈ d.breakpoints, b.id ≤ d.issued
  conditions : ∀ b ∈ d.breakpoints, ∀ condition ∈ b.condition, condition.value.assigns = false
  logs : ∀ b ∈ d.breakpoints, ∀ template ∈ b.log, partsAssign template.parts = false
  flags : ∀ b ∈ d.breakpoints, b.verified = d.hasLine b.line
  lines : ∀ session, d.session = some session → session.lines = session.target.lines
  watches : ∀ watch ∈ d.watches, watch.value.assigns = false
  watched : (d.watches.map DebugExpr.source).Nodup
  stepping : d.pendingStep.isSome = true → d.state = .running

lemma kept_empty : Kept {} :=
  ⟨.nil, .nil, by simp, by simp, by simp, by simp, by rintro _ ⟨⟩, by simp, nodup_nil,
    by rintro ⟨⟩⟩

structure Follows (d later : Debugger) : Prop where
  kept : Kept later
  issued : d.issued ≤ later.issued
  numbers : ∀ b ∈ later.breakpoints, b.id ≤ d.issued →
    ∃ old ∈ d.breakpoints, old.id = b.id ∧ old.line = b.line ∧ old.hits ≤ b.hits

lemma Kept.refl (kept : Kept d) : Follows d d :=
  ⟨kept, Nat.le_refl _, fun b mem _ => ⟨b, mem, rfl, rfl, Nat.le_refl _⟩⟩

lemma Follows.trans (first : Follows d later) (second : Follows later last) : Follows d last := by
  refine ⟨second.kept, Nat.le_trans first.issued second.issued, fun b mem given => ?_⟩
  obtain ⟨middle, present, number, line, hits⟩ :=
    second.numbers b mem (Nat.le_trans given first.issued)
  obtain ⟨old, there, numberToo, lineToo, hitsToo⟩ := first.numbers middle present (number ▸ given)
  exact ⟨old, there, numberToo.trans number, lineToo.trans line, Nat.le_trans hitsToo hits⟩

lemma Kept.same_of_id (kept : Kept d) {c : Breakpoint} (first : b ∈ d.breakpoints)
    (second : c ∈ d.breakpoints) (same : b.id = c.id) : b = c :=
  same_of_apart kept.distinct first second same

lemma Kept.same_of_line (kept : Kept d) {c : Breakpoint} (first : b ∈ d.breakpoints)
    (second : c ∈ d.breakpoints) (same : b.line = c.line) : b = c :=
  same_of_apart (kept.ordered.imp Nat.ne_of_lt) first second same

section Keeping
variable (kept : Kept d)
include kept

lemma Kept.noted (keeps : ∀ b, (change b).line = b.line ∧ (change b).id = b.id ∧ (change b).condition =
      b.condition ∧ (change b).log = b.log ∧ b.hits ≤ (change b).hits)
    (breakpoints : later.breakpoints = d.breakpoints.map change) (issued : later.issued = d.issued)
    (watches : later.watches = d.watches) (lines : ∀ session, later.session = some session →
      session.lines = session.target.lines)
    (flags : ∀ b ∈ d.breakpoints, (change b).verified = later.hasLine b.line)
    (stepping : later.pendingStep.isSome = true → later.state = .running) : Follows d later := by
  have each {P : Breakpoint → Prop} (holds : ∀ b ∈ d.breakpoints, P (change b)) :
      ∀ b ∈ later.breakpoints, P b := by
    rw [breakpoints]
    exact forall_mem_map.mpr holds
  constructor
  · constructor
    · rw [breakpoints, pairwise_map]
      simp only [(keeps _).1]
      exact kept.ordered
    · rw [breakpoints, pairwise_map]
      simp only [(keeps _).2.1]
      exact kept.distinct
    · refine each fun b mem => ?_
      rw [(keeps b).2.1, issued]
      exact kept.issued b mem
    · refine each fun b mem => ?_
      rw [(keeps b).2.2.1]
      exact kept.conditions b mem
    · refine each fun b mem => ?_
      rw [(keeps b).2.2.2.1]
      exact kept.logs b mem
    · refine each fun b mem => ?_
      rw [(keeps b).1]
      exact flags b mem
    · exact lines
    · exact watches ▸ kept.watches
    · exact watches ▸ kept.watched
    · exact stepping
  · exact Nat.le_of_eq issued.symm
  · refine each fun b mem _ => ?_
    obtain ⟨line, number, -, -, hits⟩ := keeps b
    exact ⟨b, mem, number.symm, line.symm, hits⟩

lemma Kept.mapped (session : SameSession d later) (keeps : ∀ b, (change b).line = b.line ∧ (change b).id
      = b.id ∧ (change b).condition = b.condition ∧ (change b).log = b.log ∧ b.hits ≤ (change b).hits)
    (flags : ∀ b, (change b).verified = b.verified)
    (breakpoints : later.breakpoints = d.breakpoints.map change) (issued : later.issued = d.issued)
    (watches : later.watches = d.watches)
    (stepping : later.pendingStep.isSome = true → later.state = .running) : Follows d later := by
  refine kept.noted keeps breakpoints issued watches (fun now isOpen => ?_) (fun b mem => ?_) stepping
  · obtain ⟨old, present, same⟩ := session.opened isOpen
    calc now.lines
      _ = old.lines := (congrArg Session.lines same).symm
      _ = old.target.lines := kept.lines old present
      _ = now.target.lines := congrArg (fun session => session.target.lines) same
  · rw [flags, kept.flags b mem, session.hasLine]

lemma Kept.same (session : SameSession d later) (breakpoints : later.breakpoints = d.breakpoints)
    (issued : later.issued = d.issued) (watches : later.watches = d.watches)
    (stepping : later.pendingStep.isSome = true → later.state = .running) : Follows d later :=
  kept.mapped session (fun _ => ⟨rfl, rfl, rfl, rfl, Nat.le_refl _⟩) (fun _ => rfl)
    (breakpoints.trans (map_id _).symm) issued watches stepping

lemma Kept.filtered (test) :
    Follows d { d with breakpoints := d.breakpoints.filter test } := by
  have each {P : Breakpoint → Prop} (holds : ∀ b ∈ d.breakpoints, P b) :
      ∀ b ∈ d.breakpoints.filter test, P b := fun b mem => holds b (mem_filter.mp mem).1
  refine ⟨?_, Nat.le_refl _, each fun b mem _ => ⟨b, mem, rfl, rfl, Nat.le_refl _⟩⟩
  exact ⟨kept.ordered.filter _, kept.distinct.filter _, each kept.issued, each kept.conditions,
    each kept.logs, each kept.flags, kept.lines, kept.watches, kept.watched, kept.stepping⟩

lemma Kept.added (added : Added d line later b) : Follows d later := by
  have fresh (other) (mem : other ∈ d.breakpoints) :=
    added.fresh kept.distinct kept.issued mem
  have session : later.session = d.session := by rw [added.stored]
  have hasLine : later.hasLine = d.hasLine := by
    unfold hasLine
    rw [session]
  have each {P : Breakpoint → Prop} (new : P b) (old : ∀ other ∈ d.breakpoints, P other) :
      ∀ other ∈ later.breakpoints, P other := by
    intro other mem
    rw [added.stored] at mem
    obtain rfl | ⟨present, -⟩ := mem_insertBreakpoint kept.ordered mem
    · exact new
    · exact old other present
  constructor
  · constructor
    · rw [added.stored]
      exact insertBreakpoint_pairwise kept.ordered kept.ordered (fun _ _ less => less)
        fun _ _ less => less
    · rw [added.stored]
      exact insertBreakpoint_pairwise kept.ordered kept.distinct
        (fun other mem less => fresh other mem (Nat.ne_of_lt less))
        fun other mem less => (fresh other mem (Nat.ne_of_gt less)).symm
    · exact each (added.given kept.issued) fun other mem =>
        Nat.le_trans (kept.issued other mem) added.issued
    · exact each added.condition kept.conditions
    · exact each added.log kept.logs
    · refine each ?_ ?_
      · rw [added.verified, added.place, hasLine]
        rfl
      · rw [hasLine]
        exact kept.flags
    · rw [session]
      exact kept.lines
    all_goals rw [added.stored]
    · exact kept.watches
    · exact kept.watched
    · exact kept.stepping
  · exact added.issued
  · refine each (fun given => ?_) fun other mem _ => ⟨other, mem, rfl, rfl, Nat.le_refl _⟩
    obtain ⟨old, present, number, place, hits⟩ := added.replaced given
    exact ⟨old, present, number, place, Nat.le_of_eq hits⟩

lemma Kept.rewatched {watches : List DebugExpr}
    (plain : ∀ watch ∈ watches, watch.value.assigns = false)
    (distinct : (watches.map DebugExpr.source).Nodup) : Follows d { d with watches } := by
  obtain ⟨ordered, apart, issued, conditions, logs, flags, lines, -, -, stepping⟩ := kept
  exact ⟨⟨ordered, apart, issued, conditions, logs, flags, lines, plain, distinct, stepping⟩,
    Nat.le_refl _, fun b mem _ => ⟨b, mem, rfl, rfl, Nat.le_refl _⟩⟩

lemma Kept.serves (serves : Serves d request later) : Follows d later := by
  cases serves with
  | openSession =>
    refine kept.noted ?_ rfl rfl rfl ?_ ?_ (by rintro ⟨⟩)
    · exact fun b => ⟨rfl, rfl, rfl, rfl, Nat.le_refl _⟩
    · rintro _ ⟨⟩
      rfl
    · exact fun b _ => rfl
  | closeSession =>
    refine kept.noted ?_ rfl rfl rfl ?_ ?_ (by rintro ⟨⟩)
    · exact fun b => ⟨rfl, rfl, rfl, rfl, Nat.le_refl _⟩
    · rintro _ ⟨⟩
    · exact fun b _ => rfl
  | startRun => exact kept.same (d.startRun_sameSession _) rfl rfl rfl fun _ => rfl
  | endRun | pause => exact kept.same rfl rfl rfl rfl (by rintro ⟨⟩)
  | @reach position =>
    have session := d.reach_sameSession position
    rw [reach_eq] at session ⊢
    refine kept.same session rfl rfl rfl fun pending => kept.stepping ?_
    obtain ⟨_, found⟩ := Option.isSome_iff_exists.mp pending
    rw [(Option.filter_eq_some_iff.mp found).1]
    rfl
  | countHit =>
    rw [countHit_eq]
    refine kept.mapped rfl (fun b => ?_) (fun b => ?_) rfl rfl rfl kept.stepping
    · split
      · exact ⟨rfl, rfl, rfl, rfl, Nat.le_succ _⟩
      · exact ⟨rfl, rfl, rfl, rfl, Nat.le_refl _⟩
    · split <;> rfl
  | resume => exact kept.same rfl rfl rfl rfl fun _ => rfl
  | prepare _ running => exact kept.same rfl rfl rfl rfl fun _ => running
  | setBreakpoint added => exact kept.added added
  | clearBreakpoint => exact kept.filtered _
  | switchBreakpoint =>
    refine kept.mapped rfl (fun b => ?_) (fun b => ?_) rfl rfl rfl kept.stepping
    · split <;> exact ⟨rfl, rfl, rfl, rfl, Nat.le_refl _⟩
    · split <;> rfl
  | keepWatch => exact kept.refl
  | @setWatch source watch parsed new =>
    have texts : ∀ text ∈ d.watches.map DebugExpr.source, text ≠ watch.source := by
      rw [parse_source parsed]
      exact forall_mem_map.mpr new
    apply kept.rewatched
    · exact forall_mem_append.mpr ⟨kept.watches, forall_mem_singleton.mpr (parse_assigns parsed)⟩
    · rw [map_append, map_singleton]
      refine nodup_append.mpr ⟨kept.watched, pairwise_singleton _ _, ?_⟩
      intro text mem _ here
      rw [mem_singleton.mp here]
      exact texts text mem
  | clearWatch =>
    exact kept.rewatched (fun watch mem => kept.watches watch (mem_filter.mp mem).1)
      (kept.watched.sublist (filter_sublist.map _))

end Keeping

/-! ### What becomes of a debugger -/

def Request.IsAnalyzed : Request → Prop
  | .openSession source target => target = .ofAnalysis source (analyze source)
  | _ => True

inductive Evolves (d : Debugger) : Debugger → Prop where
  | refl : Evolves d d
  | served {later last : Debugger} {request : Request} (before : Evolves d later)
      (serves : later.Serves request last) (analyzed : request.IsAnalyzed) : Evolves d last

lemma Evolves.trans (first : Evolves d later) (second : Evolves later last) : Evolves d last := by
  induction second with
  | refl => exact first
  | served _ serves analyzed ih => exact .served ih serves analyzed

lemma Consulted.trans (first : Consulted d later) (second : Consulted later last) :
    Consulted d last := by
  induction second with
  | refl => exact first
  | reach _ position ih => exact .reach ih position
  | countHit _ id ih => exact .countHit ih id
  | pause _ position stop bindings watches ih =>
    exact .pause ih position stop bindings watches

lemma Consulted.evolves (consulted : d.Consulted later) : d.Evolves later := by
  induction consulted with
  | refl => exact .refl
  | reach _ _ ih => exact .served ih .reach trivial
  | countHit _ _ ih => exact .served ih .countHit trivial
  | pause _ _ _ _ _ ih => exact .served ih .pause trivial

structure Valid (d : Debugger) : Prop extends Kept d where
  target : ∀ session ∈ d.session,
    session.target = .ofAnalysis session.source (analyze session.source)

lemma Valid.serves (valid : Valid d) (serves : Serves d request later) (analyzed : request.IsAnalyzed) :
    Valid later := by
  refine ⟨(valid.toKept.serves serves).kept, ?_⟩
  have same (session : SameSession d later) : ∀ session ∈ later.session,
      session.target = .ofAnalysis session.source (analyze session.source) := by
    intro now isOpen
    obtain ⟨old, present, blank⟩ := session.opened isOpen
    have runs : now.target = old.target := (congrArg Session.target blank).symm
    have text : now.source = old.source := (congrArg Session.source blank).symm
    rw [runs, text]
    exact valid.target old present
  cases serves with
  | openSession =>
    rintro _ ⟨⟩
    exact analyzed
  | closeSession => rintro _ ⟨⟩
  | startRun => exact same (d.startRun_sameSession _)
  | reach => exact same (d.reach_sameSession _)
  | countHit =>
    rw [countHit_eq]
    exact valid.target
  | setBreakpoint added =>
    rw [added.stored]
    exact valid.target
  | _ => exact valid.target

lemma Valid.evolves (valid : Valid d) (evolves : d.Evolves later) : Valid later := by
  induction evolves with
  | refl => exact valid
  | served _ serves analyzed ih => exact ih.serves serves analyzed

lemma Valid.follows (valid : Valid d) (evolves : d.Evolves later) : Follows d later := by
  induction evolves with
  | refl => exact valid.refl
  | served _ serves _ ih => exact ih.trans (ih.kept.serves serves)

lemma Valid.consulted (valid : Valid d) (consulted : d.Consulted later) : Valid later :=
  valid.evolves consulted.evolves

/-! ### Orders of the host -/

/-- The debugger after a request. A refused one changes nothing. -/
def after (d : Debugger) (request : Request) : Debugger := d.accept (d.serve request) id

end Debugger

def HostCall.request? : HostCall → Option Debugger.Request
  | .stop => some .closeSession
  | .openSession source => some (.openSession source (.ofAnalysis source (analyze source)))
  | .command order => some (.command order)
  | .setBreakpoint line condition log => some (.setBreakpoint line condition log)
  | .clearBreakpoint line => some (.clearBreakpoint line)
  | .switchBreakpoint line => some (.switchBreakpoint line)
  | .setWatch source => some (.setWatch source)
  | .clearWatch source => some (.clearWatch source)
  | _ => none

lemma HostCall.request?_analyzed {call : HostCall} (asked : call.request? = some request) :
    request.IsAnalyzed := by
  cases call <;> cases asked <;> trivial

namespace Debugger

lemma obey_eq (d : Debugger) (call) : d.obey call = (call.request?.map d.after).getD d := by
  have mapped {α : Type} (result : Except SessionError (Debugger × α)) :
      d.accept result Prod.fst = d.accept (result.map Prod.fst) id := by
    cases result <;> rfl
  cases call with
  | stop | openSession | command | setBreakpoint | clearBreakpoint | switchBreakpoint =>
    exact mapped _
  | _ => rfl

lemma obey_serves (d : Debugger) (call) :
    (∃ request, call.request? = some request ∧ Serves d request (d.obey call)) ∨
    (d.obey call = d ∧ ∀ request, call.request? = some request → ∃ e, d.serve request = .error e) := by
  rw [obey_eq]
  cases call.request? with
  | none => exact .inr ⟨rfl, by rintro _ ⟨⟩⟩
  | some request =>
    rw [Option.map_some, Option.getD_some, after]
    cases result : d.serve request with
    | error error =>
      refine .inr ⟨rfl, ?_⟩
      rintro _ ⟨⟩
      exact ⟨error, result⟩
    | ok => exact .inl ⟨request, rfl, serves_of_ok result⟩

end Debugger

section Evolution
variable {e later : Engine}

lemma Machine.slice_consulted (e : Engine) (m : Machine) :
    e.debugger.Consulted (m.slice e).1.debugger := by
  have step : ∀ later m, e.debugger.Consulted later.debugger →
      e.debugger.Consulted (step later m).1.debugger := by
    intro later m before
    obtain ⟨_, _, _, consulted, changed⟩ := m.step_affects later
    rw [changed]
    exact before.trans consulted
  exact slice_induction (P := fun later _ => e.debugger.Consulted later.debugger) (step e m .refl) step

lemma Engine.sessionFor_evolves (e : Engine) (source) :
    e.debugger.Evolves (e.sessionFor source (analyze source)).1.debugger := by
  unfold sessionFor
  split
  · next absent => exact .served .refl (.openSession absent) rfl
  · next _ present =>
    split
    · exact .refl
    · exact .served (.served .refl (.closeSession present) trivial) (.openSession rfl) rfl

lemma Engine.begin_evolves (began : e.beginExecution source options = .ok (later, x)) :
    e.debugger.Evolves later.debugger := by
  unfold beginExecution at began
  split at began
  · cases began
  · cases debug : options.debug || options.step with
    | true =>
      have session :=
        sessionFor_evolves { e with running := true, aborting := false } source
      simp only [debug, if_true, Except.ok.injEq, Prod.mk.injEq] at began
      obtain ⟨rfl, -⟩ := began
      exact .served session .startRun trivial
    | false =>
      simp only [debug, Except.ok.injEq, Prod.mk.injEq] at began
      obtain ⟨rfl, -⟩ := began
      exact .refl

lemma Engine.end_evolves (e : Engine) (x) (outputs) (bindings) (error : Option RuntimeError) :
    e.debugger.Evolves (e.endExecution x outputs bindings error).1.debugger := by
  unfold endExecution
  dsimp only
  split
  · have ended (success) : e.debugger.Evolves (e.debugger.endRun success) :=
      .served .refl .endRun trivial
    split
    · next present => exact .served (ended _) (.closeSession present) trivial
    · exact ended _
  · exact .refl

lemma Task.runExecution_evolves (e : Engine) (x : Execution) :
    e.debugger.Evolves (runExecution e x).1.debugger := by
  unfold runExecution Engine.runExecution
  cases machine : x.machine with
  | none => exact e.end_evolves x [] [] none
  | some m =>
    have slice := (m.slice_consulted e).evolves
    cases control : (m.slice e).2.control with
    | finished error =>
      simp only [control]
      exact slice.trans ((m.slice e).1.end_evolves x _ _ error)
    | _ =>
      simp only [control]
      exact slice

lemma Task.slice_evolves (e : Engine) (task : Task) : e.debugger.Evolves (task.slice e).1.debugger := by
  have awaits : ∀ start wait,
      (awaitInput start wait).1.debugger = start.debugger := by
    intro _ _
    unfold awaitInput
    split <;> rfl
  cases task with
  | execute source options =>
    simp only [slice]
    cases began : e.beginExecution source options with
    | error => exact .refl
    | ok pair => exact (Engine.begin_evolves began).trans (runExecution_evolves pair.1 pair.2)
  | executing x => exact runExecution_evolves e x
  | request =>
    simp only [slice]
    rw [awaits]
    exact .refl
  | awaiting =>
    simp only [slice]
    rw [awaits]
    exact .refl
  | finished => exact .refl

namespace Host
variable {h : Host}

lemma perform_debugger (call) (immediate : call.isImmediate) :
    (h.perform call).1.engine.debugger = h.engine.debugger.obey call := by
  by_cases starts : ∃ task, call = .start task
  · obtain ⟨_, rfl⟩ := starts
    rfl
  · obtain ⟨_, _, _, changed, -⟩ :=
      perform_effect (h := h) call immediate fun task same => starts ⟨task, same⟩
    rw [changed]
    rfl

lemma move_evolves (h : Host) (move : Move) :
    h.engine.debugger.Evolves (h.move move).engine.debugger := by
  cases move with
  | call call immediate =>
    simp only [move, perform_debugger call immediate]
    obtain ⟨request, asked, serves⟩ | ⟨same, -⟩ := h.engine.debugger.obey_serves call
    · exact .served .refl serves (HostCall.request?_analyzed asked)
    · rw [same]
      exact .refl
  | wait => exact .refl
  | slice =>
    simp only [move, sliceOf]
    split
    · split
      · exact Task.slice_evolves h.engine _
      · exact .refl
    · exact .refl

lemma moves_evolves (h : Host) (moves) : h.engine.debugger.Evolves (h.moves moves).engine.debugger := by
  induction moves generalizing h with
  | nil => exact .refl
  | cons move _ ih =>
    exact (h.move_evolves move).trans (ih (h.move move))

end Host

end Evolution

lemma Host.observed_valid (config : Config) (moves) :
    ((observed config).moves moves).engine.debugger.Valid := by
  have fresh : ({} : Debugger).Valid := ⟨Debugger.kept_empty, by rintro _ ⟨⟩⟩
  exact fresh.evolves ((observed config).moves_evolves moves)

def Breakpoint.unmarked (b : Breakpoint) : Breakpoint := { b with hits := 0, verified := false }

def Breakpoint.unverified (b : Breakpoint) : Breakpoint := { b with verified := false }

@[simp] lemma Breakpoint.unmarked_comp_unverified : unmarked ∘ unverified = unmarked := rfl

namespace Debugger

structure SameStore (d later : Debugger) : Prop where
  breakpoints : later.breakpoints.map Breakpoint.unmarked = d.breakpoints.map Breakpoint.unmarked
  watches : later.watches = d.watches

variable {d later : Debugger}

lemma SameStore.refl (d) : SameStore d d := ⟨rfl, rfl⟩

lemma SameStore.trans (first : SameStore d later) (second : SameStore later last) : SameStore d last :=
  ⟨second.breakpoints.trans first.breakpoints, second.watches.trans first.watches⟩

lemma sameStore_mapped (change) (notes : ∀ b, (change b).unmarked = b.unmarked)
    (breakpoints : later.breakpoints = d.breakpoints.map change) (watches : later.watches = d.watches) :
    SameStore d later := by
  refine ⟨?_, watches⟩
  rw [breakpoints, map_map]
  exact map_congr_left fun b _ => notes b

lemma SameStore.mem (same : SameStore d later) (mem : b ∈ later.breakpoints) :
    ∃ old ∈ d.breakpoints, old.unmarked = b.unmarked := by
  have marked : b.unmarked ∈ d.breakpoints.map Breakpoint.unmarked :=
    same.breakpoints ▸ mem_map_of_mem mem
  exact mem_map.mp marked

lemma Consulted.same (consulted : d.Consulted later) :
    SameStore d later ∧ SameSession d later ∧ later.sessions = d.sessions := by
  induction consulted with
  | refl => exact ⟨.refl d, rfl, rfl⟩
  | @reach later _ position ih =>
    have session := later.reach_sameSession position
    rw [reach_eq] at session ⊢
    exact ⟨ih.1.trans ⟨rfl, rfl⟩, session.trans ih.2.1, ih.2.2⟩
  | countHit _ _ ih =>
    rw [countHit_eq]
    refine ⟨ih.1.trans (sameStore_mapped _ (fun b => ?_) rfl rfl), ih.2⟩
    split <;> rfl
  | pause _ _ _ _ _ ih => exact ⟨ih.1.trans ⟨rfl, rfl⟩, ih.2⟩

lemma Consulted.session (consulted : d.Consulted later) : later.session.isSome = d.session.isSome := by
  simpa using congrArg Option.isSome consulted.same.2.1

end Debugger

lemma Breakpoint.unverified_noted (breakpoints : List Breakpoint) (note : Breakpoint → Bool) :
    (breakpoints.map fun b => { b with verified := note b }).map unverified =
      breakpoints.map unverified := by
  rw [map_map]
  rfl

lemma Engine.begin_store {e later : Engine} (began : e.beginExecution source options = .ok (later, x)) :
    later.debugger.breakpoints.map Breakpoint.unverified = e.debugger.breakpoints.map
    Breakpoint.unverified ∧ later.debugger.watches = e.debugger.watches := by
  have session : ∀ start : Engine,
      (start.sessionFor source (analyze source)).1.debugger.breakpoints.map Breakpoint.unverified =
          start.debugger.breakpoints.map Breakpoint.unverified ∧
        (start.sessionFor source (analyze source)).1.debugger.watches = start.debugger.watches := by
    intro _
    unfold sessionFor
    split
    · exact ⟨Breakpoint.unverified_noted _ _, rfl⟩
    · split
      · exact ⟨rfl, rfl⟩
      · refine ⟨(Breakpoint.unverified_noted _ _).trans ?_, rfl⟩
        exact Breakpoint.unverified_noted _ fun _ => false
  unfold beginExecution at began
  split at began
  · cases began
  · cases debug : options.debug || options.step with
    | true =>
      have same := session { e with running := true, aborting := false }
      simp only [debug, if_true, Except.ok.injEq, Prod.mk.injEq] at began
      obtain ⟨rfl, -⟩ := began
      exact same
    | false =>
      simp only [debug, Except.ok.injEq, Prod.mk.injEq] at began
      obtain ⟨rfl, -⟩ := began
      exact ⟨rfl, rfl⟩

lemma Engine.end_store (e : Engine) (x) (outputs) (bindings : Dictionary Value)
    (error : Option RuntimeError) : (e.endExecution x outputs bindings error).1.debugger.breakpoints.map
    Breakpoint.unverified = e.debugger.breakpoints.map Breakpoint.unverified := by
  simp only [endExecution, announce, cancelInputs]
  split
  · split
    · exact Breakpoint.unverified_noted _ fun _ => false
    · rfl
  · rfl

lemma Engine.begin_sameStore {e later : Engine}
    (began : e.beginExecution source options = .ok (later, x)) :
    e.debugger.SameStore later.debugger := by
  obtain ⟨breakpoints, watches⟩ := begin_store began
  refine ⟨?_, watches⟩
  simpa using congrArg (map Breakpoint.unmarked) breakpoints

def Move.isPeaceful : Move → Bool
  | .call order _ => order.isPeaceful
  | _ => true

def Debugger.follow (d : Debugger) : Move → Debugger
  | .call call _ => d.obey call
  | _ => d

namespace Debugger
variable {d : Debugger} {move : Move}

lemma follow_edits (peaceful : move.isPeaceful) (silent : move.isCommand = false)
    (unopened : ∀ source immediate, move ≠ .call (.openSession source) immediate) : ∃ breakpoints
    issued watches, d.follow move = { d with breakpoints, issued, watches } ∧
    (move.editsBreakpoints = false → breakpoints = d.breakpoints) := by
  cases move with
  | wait | slice => exact ⟨_, _, _, rfl, fun _ => rfl⟩
  | call call immediate =>
    rw [follow]
    obtain ⟨_, asked, serves⟩ | ⟨same, -⟩ := d.obey_serves call
    · generalize d.obey call = later at serves
      cases serves with
      | setBreakpoint added =>
        refine ⟨_, _, _, added.stored, fun silent => ?_⟩
        cases call <;> cases asked
        cases silent
      | clearBreakpoint | switchBreakpoint =>
        refine ⟨_, _, _, rfl, fun silent => ?_⟩
        cases call <;> cases asked
        cases silent
      | keepWatch | setWatch | clearWatch => exact ⟨_, _, _, rfl, fun _ => rfl⟩
      | resume | prepare =>
        cases call <;> cases asked
        cases silent
      | closeSession =>
        cases call <;> cases asked
        cases peaceful
      | openSession =>
        cases call <;> cases asked
        exact absurd rfl (unopened _ immediate)
      | _ => cases call <;> cases asked
    · exact ⟨_, _, _, same, fun _ => rfl⟩

variable (opened : d.session.isSome = true)
include opened

lemma obey_openSession (source) : d.obey (.openSession source) = d := by
  obtain ⟨_, present⟩ := Option.isSome_iff_exists.mp opened
  simp only [obey, openSession, present, accept]

lemma follow_open (peaceful : move.isPeaceful) (silent : move.isCommand = false) : ∃
    breakpoints issued watches, d.follow move = { d with breakpoints, issued, watches } ∧
    (move.editsBreakpoints = false → breakpoints = d.breakpoints) := by
  by_cases opens : ∃ source immediate, move = .call (.openSession source) immediate
  · obtain ⟨source, _, rfl⟩ := opens
    exact ⟨d.breakpoints, d.issued, d.watches, obey_openSession opened source, fun _ => rfl⟩
  · apply follow_edits peaceful silent
    intro source immediate same
    exact opens ⟨source, immediate, same⟩

lemma obey_command (command) :
    d.obey (.command command) =
      if d.state = .paused then { d with pendingStep := d.stepFor command, state := .running }
      else if d.state = .running then { d with pendingStep := d.stepFor command } else d := by
  have present : d.session.isNone = false := by simpa using opened
  simp only [obey, Debugger.command, present]
  cases state : d.state <;> simp [accept]

lemma follow_session (peaceful : move.isPeaceful) : (d.follow move).session = d.session := by
  cases commands : move.isCommand with
  | true =>
    obtain ⟨_, _, rfl⟩ := Move.isCommand_iff.mp commands
    rw [follow, obey_command opened]
    split
    · rfl
    · split <;> rfl
  | false =>
    obtain ⟨_, _, _, changed, -⟩ := follow_open opened peaceful commands
    rw [changed]

lemma follow_released (peaceful : move.isPeaceful) (released : d.state ≠ .paused) :
    (d.follow move).state ≠ .paused := by
  cases commands : move.isCommand with
  | true =>
    obtain ⟨_, _, rfl⟩ := Move.isCommand_iff.mp commands
    rw [follow, obey_command opened, if_neg released]
    split <;> exact released
  | false =>
    obtain ⟨_, _, _, changed, -⟩ := follow_open opened peaceful commands
    rw [changed]
    exact released

end Debugger

lemma Task.slice_aside {task : Task} (idle : task.isExecuting = false) (running : e.running) :
    (task.slice e).1.debugger = e.debugger ∧ (task.slice e).1.aborting = e.aborting := by
  have awaits : ∀ start wait,
      (awaitInput start wait).1.debugger = start.debugger ∧
        (awaitInput start wait).1.aborting = start.aborting := by
    intro _ _
    unfold awaitInput
    split <;> exact ⟨rfl, rfl⟩
  cases task with
  | execute =>
    simp [slice, Engine.beginExecution, running]
  | executing => cases idle
  | request => exact awaits _ _
  | awaiting wait => exact awaits e wait
  | finished => exact ⟨rfl, rfl⟩

namespace Host
variable {h : Host}

lemma perform_aborting (call) (immediate : call.isImmediate)
    (peaceful : call.isPeaceful) : (h.perform call).1.engine.aborting = h.engine.aborting := by
  by_cases starts : ∃ task, call = .start task
  · obtain ⟨_, rfl⟩ := starts
    rfl
  · obtain ⟨_, _, _, changed, -, stays⟩ :=
      perform_effect (h := h) call immediate fun task same => starts ⟨task, same⟩
    rw [changed]
    exact stays peaceful

lemma Orderly.foreign_debugger (orderly : h.Orderly) (active : h.task? number = some (.executing x))
    {move : Move} (foreign : move ≠ .slice number) : (h.move move).engine.debugger =
    h.engine.debugger.follow move ∧
    (move.isPeaceful = true → (h.move move).engine.aborting = h.engine.aborting) := by
  cases move with
  | call call immediate =>
    exact ⟨perform_debugger call immediate, perform_aborting call immediate⟩
  | wait => exact ⟨rfl, fun _ => rfl⟩
  | slice other =>
    obtain same | ⟨task, idle, same⟩ := orderly.other_slice active foreign
    · exact same ▸ ⟨rfl, fun _ => rfl⟩
    · obtain ⟨debugger, aborting⟩ := Task.slice_aside idle (orderly.active number x active).1
      exact same ▸ ⟨debugger, fun _ => aborting⟩

end Host

end Stepper
