import Stepper.Proofs.Continuity
import Stepper.Proofs.Footing
import Stepper.Proofs.Tameness

/-! # The lines that a run comes to -/

namespace Stepper

open List

variable {b : Boundary} {target : Target} {k : Continuation}

/-! ### The lines of a target -/

lemma mem_insertLine : other ∈ insertLine line lines ↔ other = line ∨ other ∈ lines := by
  induction lines with
  | nil => simp [insertLine]
  | cons _ _ ih =>
    rw [insertLine]
    split
    · simp
    · split
      · next same => simp [same]
      · simp [ih, or_left_comm]

lemma mem_foldl_insertLine {found lines : List Nat} : line ∈ found.foldl
    (fun lines line => insertLine line lines) lines ↔ line ∈ found ∨ line ∈ lines := by
  induction found generalizing lines with
  | nil => simp
  | cons _ _ ih =>
    rw [foldl_cons, ih, mem_insertLine, mem_cons]
    grind

namespace Target

lemma line_mem_program {program : Program} {s : Stmt} (mem : s ∈ program.allStatements) :
    s.line ∈ (Target.program program).lines :=
  mem_foldl_insertLine.mpr (.inl (mem_map_of_mem mem))

lemma number_mem_sketch {entry : SketchLine} (mem : entry ∈ entries) :
    entry.number ∈ (sketch entries).lines :=
  mem_foldl_insertLine.mpr (.inl (mem_map_of_mem mem))

def Holds (target : Target) (statements : List Stmt) : Prop :=
  target.isSketch = true ∨ ∀ s ∈ listStatements statements, s.line ∈ target.lines

lemma Holds.inner {statements inner : List Stmt} (holds : target.Holds statements)
    (inside : ∀ s ∈ listStatements inner, s ∈ listStatements statements) : target.Holds inner :=
  holds.imp id fun all s mem => all s (inside s mem)

lemma Holds.body (holds : target.Holds [s]) {body : Block} (own : body ∈ s.bodies) :
    target.Holds body.statements := by
  refine holds.inner fun inner mem => ?_
  exact mem_listStatements.mpr ⟨s, mem_singleton_self s, Stmt.mem_preorder_of_body own mem⟩

lemma Holds.single (holds : target.Holds statements) (mem : s ∈ statements) : target.Holds [s] := by
  refine holds.inner fun inner inside => ?_
  obtain ⟨_, same, deep⟩ := mem_listStatements.mp inside
  obtain rfl := mem_singleton.mp same
  exact mem_listStatements.mpr ⟨_, mem, deep⟩

def stock (target : Target) : Stock where
  callables :=
    { function := fun decl _ => target.Holds decl.body.statements
      classDef := fun decl _ => target.Holds decl.body.statements }
  statement _ s := target.Holds [s]
  line entry := target.isSketch = true ∧ entry.number ∈ target.lines
  inside holds _ own _ member := (holds.body own).single member
  function holds := holds.body (mem_singleton_self _)
  classDef holds := holds.body (mem_singleton_self _)
  called holds _ _ member := holds.single member
  method holds _ _ member := (holds.single member).body (mem_singleton_self _)
  alone known _ _ _ := .inl known.1

lemma stock_covers (target : Target) : target.stock.Covers target := by
  cases target with
  | program program =>
    have all : (Target.program program).Holds program.statements :=
      .inr fun _ mem => line_mem_program mem
    exact fun _ mem => all.single mem
  | sketch => exact fun _ mem => ⟨rfl, number_mem_sketch mem⟩

end Target

/-! ### Line by line -/

def Boundary.isLine : Boundary → Bool
  | .statement _ _ => false
  | .line _ _ => true

lemma Boundary.line_mem (isIn : b.IsIn target.stock)
    (linewise : target.isSketch = true → b.isLine = true) : b.location.line ∈ target.lines := by
  cases b with
  | statement s =>
    rcases isIn with sketched | all
    · cases linewise sketched
    · exact all s (mem_listStatements.mpr ⟨s, mem_singleton_self s, s.mem_preorder_self⟩)
  | line => exact isIn.1.2

def Control.isLinewise : Control → Bool
  | .boundary b | .arrived b | .log _ _ b _ | .watch _ _ _ b _ | .proceed b
  | .waiting (.yielded b) | .waiting (.paused b _) => b.isLine
  | .deliver (.failure error) | .finished (some error) => error.fault.endsRun
  | .lines _ | .deliver _ | .finished none => true
  | _ => false

def Continuation.isLinewise : Continuation → Bool
  | .condition _ b _ | .log _ _ b _ | .watch _ _ _ _ b _ => b.isLine
  | .sketched _ _ => true
  | _ => false

lemma Continuation.mutes_of_isLinewise (linewise : k.isLinewise) : k.mutes := by
  cases k with
  | condition | log | watch | sketched => rfl
  | _ => cases linewise

namespace Machine

inductive Linewise (m : Machine) : Prop where
  | noticed (heard : m.muted = false) (empty : m.stack = []) (control : m.control.isLinewise = true)
  | unnoticed {top : List Continuation} {k : Continuation} (muted : m.muted = true)
      (stack : m.stack = top ++ [k]) (last : k.isLinewise = true)

section Lines
variable {m next : Machine}

lemma Linewise.lone (muted : m.muted) (stack : m.stack = [k]) (last : k.isLinewise) :
    Linewise m :=
  .unnoticed muted (stack.trans (nil_append [k]).symm) last

section
variable (heard : m.muted = false) (empty : m.stack = [])
include heard empty

lemma Linewise.crosses (line : b.isLine) (crosses : Crosses b m next) : Linewise next := by
  cases crosses with
  | unnoticed muted => cases heard.symm.trans muted
  | stops _ ends => exact .noticed heard empty ends
  | yields | arrives => exact .noticed heard empty line

lemma Linewise.attends (line : b.isLine) (attends : Attends b m next) : Linewise next := by
  cases attends with
  | proceeds | logs | watches => exact .noticed heard empty line
  | asksCondition | asksLog => exact .lone rfl (congrArg (_ :: ·) empty) line

lemma stepWatch_linewise (e) (rest) (values bindings) (line : b.isLine) (stop) :
    Linewise (m.stepWatch e rest values bindings b stop).2 := by
  unfold stepWatch
  split
  · exact .noticed heard empty line
  · exact .lone rfl (congrArg (_ :: ·) empty) line

lemma proceed_linewise (line : b.isLine) : Linewise (m.proceed b) := by
  cases b with
  | statement => cases line
  | line =>
    simp only [proceed]
    split
    · exact .lone rfl (congrArg (_ :: ·) empty) rfl
    · exact .noticed heard empty rfl

lemma Linewise.resumes (control : m.control = .waiting wait) (line : m.control.isLinewise)
    {next : Engine × Machine} (resumes : Resumes e m wait next) : Linewise next.2 := by
  have lineToo := line
  rw [control] at lineToo
  cases resumes with
  | stays => exact .noticed heard empty line
  | stops _ _ _ _ _ ends =>
    obtain ends | ⟨_, _, rfl⟩ := ends
    · exact .noticed heard empty ends
    · cases lineToo
  | arrives | proceeds => exact .noticed heard empty lineToo
  | answers => cases lineToo

end

lemma deliverTo_linewise (empty : m.stack = []) (e) (linewise : k.isLinewise) (result) :
    Linewise (m.deliverTo e k result).2 := by
  have attends (b) (shown : k.shown? = some b) (line : b.isLine = true) :
      Linewise (m.deliverTo e k result).2 :=
    .attends (m := { m with muted := false }) rfl empty line (m.deliverTo_attends e shown result)
  cases k with
  | condition _ b _ | log _ _ b _ | watch _ _ _ _ b _ => exact attends b rfl linewise
  | sketched =>
    simp only [deliverTo]
    split
    · split
      · next ends => exact .noticed rfl empty ends
      · exact .noticed rfl empty rfl
    · exact .noticed rfl empty rfl
  | _ => cases linewise

lemma noticed_linewise (heard : m.muted = false) (empty : m.stack = []) (e)
    (line : m.control.isLinewise) : Linewise (m.step e).2 := by
  have lineToo := line
  cases control : m.control with
  | boundary b =>
    rw [control] at lineToo
    simp only [step, control]
    exact .crosses heard empty lineToo (m.stepBoundary_crosses e b)
  | arrived b =>
    rw [control] at lineToo
    simp only [step, control]
    exact .attends heard empty lineToo (m.arrive_attends e b)
  | log text rest _ step =>
    rw [control] at lineToo
    simp only [Machine.step, control]
    exact .attends heard empty lineToo (m.stepLog_attends e text rest step)
  | watch rest values bindings _ stop =>
    rw [control] at lineToo
    simp only [step, control]
    exact stepWatch_linewise heard empty e rest values bindings lineToo stop
  | proceed =>
    rw [control] at lineToo
    simp only [Machine.step, control]
    exact proceed_linewise heard empty lineToo
  | lines rest =>
    simp only [Machine.step, control]
    cases rest <;> exact .noticed heard empty rfl
  | deliver =>
    simp only [Machine.step, control, Machine.deliver, empty]
    rw [control] at lineToo
    split
    · exact .noticed heard empty lineToo
    · exact .noticed heard empty rfl
  | waiting wait =>
    simp only [Machine.step, control]
    exact .resumes heard empty control line (m.resume_resumes e wait)
  | finished =>
    simp only [Machine.step, control]
    exact .noticed heard empty line
  | _ =>
    rw [control] at lineToo
    cases lineToo

lemma Linewise.step (linewise : Linewise m) {limit : Nat}
    (advances : Advances stock limit m (m.step e).2) (tidy : (m.step e).2.Tidy) :
    Linewise (m.step e).2 := by
  cases linewise with
  | noticed heard empty line => exact noticed_linewise heard empty e line
  | @unnoticed top k muted stack last =>
    by_cases ends : top = [] ∧ ∃ result, m.control = .deliver result
    · obtain ⟨rfl, result, control⟩ := ends
      have delivered : m.step e = ({ m with stack := [] } : Machine).deliverTo e k result := by
        simp only [Machine.step, control, deliver, stack, nil_append]
      rw [delivered]
      exact deliverTo_linewise rfl e last result
    · obtain ⟨_, above⟩ := advances.inside stack ends
      refine .unnoticed ?_ above last
      have balance := tidy.balance
      rw [above, countP_append, countP_singleton,
        if_pos (Continuation.mutes_of_isLinewise last)] at balance
      cases unheard : (m.step e).2.muted with
      | true => rfl
      | false => simp [unheard] at balance

end Lines

end Machine

/-! ### What is shown to the debugger -/

/-- The statement that the debugger is occupied with. -/
def Control.shown? : Control → Option Boundary
  | .arrived b | .log _ _ b _ | .watch _ _ _ b _ => some b
  | _ => none

lemma Continuation.AllFit.isIn (fit : AllFit stock stack) : ∀ k ∈ stack, k.IsIn stock := by
  induction stack with
  | nil => exact forall_mem_nil _
  | cons _ _ ih =>
    exact forall_mem_cons.mpr ⟨fit.1.2, ih fit.2⟩

lemma Continuation.mutes_of_shown (shown : k.shown? = some b) : k.mutes := by
  cases k with
  | condition | log | watch => rfl
  | _ => cases shown

namespace Machine

def Shows (m : Machine) (b : Boundary) : Prop :=
  m.control.shown? = some b ∨ ∃ k ∈ m.stack, k.shown? = some b

lemma Linewise.isLine (linewise : Linewise m) (tidy : m.Tidy) (shows : m.Shows b) :
    b.isLine := by
  have isOpen (shown : m.control.shown? = some b) : m.control.isOpen = true := by
    cases control : m.control with
    | arrived | log | watch => rfl
    | _ => rw [control] at shown; cases shown
  cases linewise with
  | noticed _ empty line =>
    rcases shows with shown | ⟨k, mem, -⟩
    · cases control : m.control with
      | arrived | log | watch =>
        rw [control] at shown line
        cases shown
        exact line
      | _ => rw [control] at shown; cases shown
    · rw [empty] at mem
      cases mem
  | @unnoticed top last muted stack linewise =>
    rcases shows with shown | ⟨k, mem, shown⟩
    · have heard := tidy.heard (isOpen shown)
      rw [muted] at heard
      cases heard
    · -- Only one continuation mutes, and that is the last one.
      have balance := tidy.balance
      rw [stack, muted, countP_append, countP_singleton,
        if_pos (Continuation.mutes_of_isLinewise linewise)] at balance
      have plain : top.countP Continuation.mutes = 0 := Nat.succ.inj balance
      rw [stack] at mem
      rcases mem_append.mp mem with above | here
      · exact absurd (Continuation.mutes_of_shown shown) (countP_eq_zero.mp plain k above)
      · obtain rfl := mem_singleton.mp here
        cases k with
        | condition | log | watch =>
          cases shown
          exact linewise
        | _ => cases shown

structure Walks (target : Target) (limit : Nat) (m : Machine) : Prop where
  framed : m.Framed target.stock limit
  tidy : m.Tidy
  linewise : target.isSketch = true → m.Linewise

section Walking
variable {target : Target} {limit : Nat} {m : Machine}

lemma ofTarget_walks (target) (limit now) (budget) (debugging : Bool) :
    (ofTarget target now budget debugging).Walks target limit where
  framed := .ofTarget target.stock_covers limit now budget debugging
  tidy := ofTarget_tidy target now budget debugging
  linewise sketched := by
    cases target with
    | program => cases sketched
    | sketch => exact .noticed rfl rfl rfl

variable (walks : m.Walks target limit)
include walks

lemma Walks.step (allowed : e.config.maxCallDepth ≤ limit) : (m.step e).2.Walks target limit := by
  have advances := walks.framed.step allowed
  have tidy := walks.tidy.step e
  exact ⟨advances.framed, tidy, fun sketched => (walks.linewise sketched).step advances tidy⟩

lemma Walks.line_mem (shows : m.Shows b) : b.location.line ∈ target.lines := by
  refine Boundary.line_mem ?_ fun sketched => (walks.linewise sketched).isLine walks.tidy shows
  rcases shows with shown | ⟨k, mem, shown⟩
  · have isIn := walks.framed.fits.2
    cases control : m.control with
    | arrived | log | watch =>
      rw [control] at shown isIn
      cases shown
      exact isIn
    | _ => rw [control] at shown; cases shown
  · have isIn := walks.framed.standing.stack.isIn k mem
    cases k with
    | condition | log | watch =>
      cases shown
      exact isIn
    | _ => cases shown

lemma Walks.enters (enters : m.enters? = some line) : line ∈ target.lines := by
  unfold enters? at enters
  split at enters
  · next _ control =>
    split at enters
    · cases enters
      exact walks.line_mem (.inl (by rw [control]; rfl))
    · cases enters
  · cases enters

end Walking

end Machine

end Stepper
