import Stepper.Proofs.Launch

/-! # Where a run pauses -/

namespace Stepper

open List

/-- Where a run arrives: at a line, in so many calls, and whether the line holds its body as well. -/
structure Site where
  line : Nat
  depth : Nat
  isInline : Bool
deriving DecidableEq, Repr

/-- Whether arriving there ends a step. A step over or out is measured by the depth it was asked for at.
-/
def Site.ends (site : Site) (request : StepRequest) : Bool :=
  match request.mode with
  | .into => true
  | .over => site.depth ≤ request.depth
  | .out => site.depth < request.depth

/-- Whether a run stops at a site: a step ends there, or a breakpoint marks its line. -/
def Site.stops (marked : Nat → Bool) (pending : Option StepRequest) (site : Site) : Bool :=
  pending.any site.ends || (!site.isInline && marked site.line)

/-- The step that a command given at a depth leaves behind. -/
def Command.request (depth : Nat) : Command → Option StepRequest
  | .resume => none
  | .step mode => some ⟨mode, depth⟩

/-- The numbers of the sites at which a run stops that goes along them, with the commands it is given at
its stops. This is the scan that the debugger is measured by. -/
def stopsAlong (marked : Nat → Bool) :
    Option StepRequest → List Command → Nat → List Site → List Nat
  | _, _, _, [] => []
  | pending, commands, number, site :: rest =>
    if site.stops marked pending then
      number :: stopsAlong marked (commands.head?.bind (Command.request site.depth)) commands.tail
        (number + 1) rest
    else stopsAlong marked pending commands (number + 1) rest

/-- What happens to a debug run, as seen from outside. -/
inductive Occurrence where
  | came (site : Site)
  | paused
  | told (command : Command)
deriving DecidableEq, Repr

namespace Occurrence

def site? : Occurrence → Option Site
  | .came site => some site
  | _ => none

def command? : Occurrence → Option Command
  | .told command => some command
  | _ => none

def sites (chronicle : List Occurrence) : List Site := chronicle.filterMap site?

def commands (chronicle : List Occurrence) : List Command := chronicle.filterMap command?

/-- The numbers of the sites at which the run paused. -/
def pauses : Nat → List Occurrence → List Nat
  | _, [] => []
  | number, .came _ :: rest => pauses (number + 1) rest
  | number, .paused :: rest => (number - 1) :: pauses number rest
  | number, .told _ :: rest => pauses number rest

/-- How often a run came to a line, other than to the body that stands on it. -/
def visits (line : Nat) (chronicle : List Occurrence) : Nat :=
  (sites chronicle).countP fun site => !site.isInline && site.line == line

@[simp] lemma visits_append (line) (first second) :
    visits line (first ++ second) = visits line first + visits line second := by
  simp [visits, sites]

end Occurrence

inductive Phase where
  | goes (pending : Option StepRequest)
  | stops (depth : Nat)
  | rests (depth : Nat)
deriving DecidableEq, Repr

namespace Phase
def next? (marked : Nat → Bool) : Phase → Occurrence → Option Phase
  | .goes pending, .came site =>
    if site.stops marked pending then some (.stops site.depth) else some (.goes pending)
  | .stops depth, .paused => some (.rests depth)
  | .rests depth, .told command => some (.goes (command.request depth))
  | _, _ => none

def after? (marked : Nat → Bool) (phase : Phase) (chronicle : List Occurrence) : Option Phase :=
  chronicle.foldlM (next? marked) phase

lemma after?_append (begins : after? marked phase first = some middle)
    (goes : after? marked middle second = some last) :
    after? marked phase (first ++ second) = some last := by
  rw [after?, foldlM_append]
  change (after? marked phase first >>= fun phase => after? marked phase second) = some last
  rw [begins]
  exact goes

def outstanding (number : Nat) : Phase → List Nat
  | .stops _ => [number - 1]
  | _ => []

def scanned (marked : Nat → Bool) (commands : List Command) (number : Nat) (sites : List Site) :
    Phase → List Nat
  | .goes pending => stopsAlong marked pending commands number sites
  | .stops depth =>
    (number - 1) ::
      stopsAlong marked (commands.head?.bind (Command.request depth)) commands.tail number sites
  | .rests depth =>
    stopsAlong marked (commands.head?.bind (Command.request depth)) commands.tail number sites

lemma scanned_eq (passes : after? marked phase chronicle = some last) (number) : phase.scanned marked
    (Occurrence.commands chronicle) number (Occurrence.sites chronicle) = Occurrence.pauses number
    chronicle ++ last.outstanding (number + (Occurrence.sites chronicle).length) := by
  induction chronicle generalizing phase number with
  | nil =>
    cases passes
    cases last <;> rfl
  | cons occurrence rest ih =>
    obtain ⟨phase', admitted, rests⟩ : ∃ phase', next? marked phase occurrence = some phase' ∧
        after? marked phase' rest = some last := by
      simpa [after?, Option.bind_eq_some_iff] using passes
    cases occurrence with
    | came site =>
      cases phase with
      | goes pending =>
        have onward := ih rests (number + 1)
        have counted : number + 1 + (Occurrence.sites rest).length =
            number + (Occurrence.sites (.came site :: rest)).length := by
          simp only [Occurrence.sites, filterMap_cons, Occurrence.site?, length_cons]
          omega
        rw [counted] at onward
        change stopsAlong marked pending (Occurrence.commands rest) number (site :: Occurrence.sites rest) =
          Occurrence.pauses (number + 1) rest ++ _
        rw [← onward, stopsAlong]
        simp only [next?] at admitted
        split at admitted
        · rename_i stops
          cases admitted
          rw [if_pos stops]
          rfl
        · rename_i passes
          cases admitted
          rw [if_neg passes]
          rfl
      | stops | rests => cases admitted
    | paused =>
      cases phase with
      | stops =>
        cases admitted
        exact congrArg ((number - 1) :: ·) (ih rests number)
      | goes | rests => cases admitted
    | told =>
      cases phase with
      | rests =>
        cases admitted
        exact ih rests number
      | goes | stops => cases admitted

end Phase

def Breakpoint.credited (b : Breakpoint) (more : Nat) : Breakpoint :=
  { b with hits := b.hits + more, verified := false }

/-- A breakpoint that always stops the run. -/
structure Breakpoint.IsPlain (b : Breakpoint) : Prop where
  enabled : b.enabled = true
  unconditional : b.condition = none
  silent : b.log = none

instance (b : Breakpoint) : Decidable b.IsPlain :=
  decidable_of_iff (b.enabled = true ∧ b.condition.isNone = true ∧ b.log.isNone = true)
    ⟨fun ⟨enabled, unconditional, silent⟩ => ⟨enabled, by simpa using unconditional, by simpa using silent⟩,
     fun plain => ⟨plain.enabled, by simp [plain.unconditional], by simp [plain.silent]⟩⟩

namespace Debugger
variable {d : Debugger}

/-- Whether some breakpoint is on the line. -/
def marks (d : Debugger) (line : Nat) : Bool := d.breakpoints.any fun b => b.line == line

/-- Whether the breakpoints have counted each visit of their lines, and are otherwise as they were. -/
def Credited (d later : Debugger) (chronicle : List Occurrence) : Prop :=
  later.breakpoints.map Breakpoint.unverified =
    d.breakpoints.map fun b => b.credited (Occurrence.visits b.line chronicle)

lemma Credited.marks (credited : Credited d later chronicle) : later.marks = d.marks := by
  funext line
  have same := congrArg (fun breakpoints => breakpoints.any fun b => b.line == line) credited
  simpa [Debugger.marks, any_map, Function.comp_def, Breakpoint.unverified,
    Breakpoint.credited] using same

lemma Credited.plain (credited : Credited d later chronicle) (plain : ∀ b ∈ d.breakpoints, b.IsPlain) :
    ∀ b ∈ later.breakpoints, b.IsPlain := by
  intro b mem
  have found : b.unverified ∈ d.breakpoints.map fun b =>
      b.credited (Occurrence.visits b.line chronicle) := credited ▸ mem_map_of_mem mem
  obtain ⟨old, present, same⟩ := mem_map.mp found
  obtain ⟨enabled, unconditional, silent⟩ := plain old present
  exact ⟨(congrArg Breakpoint.enabled same).symm.trans enabled, (congrArg Breakpoint.condition
    same).symm.trans unconditional, (congrArg Breakpoint.log same).symm.trans silent⟩

lemma Credited.append (begins : Credited d middle first) (goes : Credited middle later second) :
    Credited d later (first ++ second) := by
  have factors : middle.breakpoints.map (fun b => b.credited (Occurrence.visits b.line second)) =
      (middle.breakpoints.map Breakpoint.unverified).map fun b =>
        b.credited (Occurrence.visits b.line second) := by
    rw [map_map]
    rfl
  rw [Credited, goes, factors, begins, map_map]
  refine map_congr_left fun b _ => ?_
  simp [Breakpoint.credited, Nat.add_assoc]

lemma effectiveOn?_plain (plain : ∀ b ∈ d.breakpoints, b.IsPlain) (line) :
    d.effectiveOn? line = d.breakpointOn? line := by
  cases found : d.breakpointOn? line with
  | none => simp [effectiveOn?, found]
  | some b => simp [effectiveOn?, found, (plain b (breakpointOn?_some found).1).enabled]

lemma Valid.countHit (valid : Valid d) (found : d.breakpointOn? line = some b) : ∃ breakpoints,
    (d.countHit b.id).1 = { d with breakpoints } ∧ breakpoints.map Breakpoint.unverified =
    d.breakpoints.map fun c => c.credited (if line = c.line then 1 else 0) := by
  obtain ⟨mem, rfl⟩ := breakpointOn?_some found
  cases search : d.breakpoints.find? fun c => c.id == b.id with
  | none => simpa using find?_eq_none.mp search b mem
  | some =>
    refine ⟨_, by simp only [Debugger.countHit, search]; rfl, ?_⟩
    rw [map_map]
    refine map_congr_left fun c inside => ?_
    have same : c.id = b.id ↔ b.line = c.line :=
      ⟨fun same => congrArg Breakpoint.line (valid.same_of_id mem inside same.symm),
       fun same => congrArg Breakpoint.id (valid.same_of_line inside mem same.symm)⟩
    by_cases here : b.line = c.line
    · simp [here, same.mpr here, Breakpoint.credited, Breakpoint.unverified]
    · simp [here, mt same.mp here, Breakpoint.credited, Breakpoint.unverified]

end Debugger

end Stepper
