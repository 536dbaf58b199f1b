import Stepper.Proofs.LineWalk
import Stepper.Proofs.Recursion

/-! # What the debugger's expressions rebind -/

namespace Stepper

open List Stepper.Frame

variable {limit : Nat} {m start : Machine} {below : List Continuation}
  {earlier : List (Engine × Machine)}

/-! ### Assignments along a run -/

/-- The frame in which a name is assigned, the name and its new value. -/
abbrev Rebinding : Type := FrameId × String × Value

def Frame.rebind (id : FrameId) (frame : Frame Value) (change : Rebinding) : Frame Value :=
  if change.1 = id then { frame with bindings := frame.bindings.insert change.2.1 change.2.2 }
  else frame

/-- A frame after assignments, of which only those to itself count. -/
def Frame.rebound (id : FrameId) (changes : List Rebinding) (frame : Frame Value) : Frame Value :=
  changes.foldl (rebind id) frame

/-- The last value that a name was assigned in a frame. -/
def latest? (id : FrameId) (name : String) (changes : List Rebinding) : Option Value :=
  changes.reverse.findSome? fun change =>
    if change.1 = id ∧ change.2.1 = name then some change.2.2 else none

def Environment.binding? (env : Environment Value) (id : FrameId) (name : String) : Option Value :=
  (env.frame? id).bind fun frame => frame.bindings.find? name

lemma Frame.find?_rebound (id) (name) (changes) (frame : Frame Value) :
    (frame.rebound id changes).bindings.find? name = (latest? id name changes).or
    (frame.bindings.find? name) := by
  induction changes generalizing frame with
  | nil => rfl
  | cons change rest ih =>
    have here : latest? id name (change :: rest) = (latest? id name rest).or
        (if change.1 = id ∧ change.2.1 = name then some change.2.2 else none) := by
      simp [latest?, findSome?_append]
    rw [here, Option.or_assoc]
    refine (ih _).trans (congrArg _ ?_)
    by_cases holds : change.1 = id
    · by_cases named : change.2.1 = name <;> simp [rebind, holds, Dictionary.find?_insert, named]
    · simp [rebind, holds]

lemma Frame.rebound_append (id) (changes further) (frame : Frame Value) :
    frame.rebound id (changes ++ further) = (frame.rebound id changes).rebound id further :=
  foldl_append

namespace Machine

/-- The assignment that a run makes in its next step. -/
def rebinds? (m : Machine) : Option Rebinding :=
  match m.control, m.stack with
  | .deliver (.value value), .assign name frame _ :: _ =>
    (m.environment.nearest frame name).map fun found => (found.1, name, value)
  | _, _ => none

/-- The assignments that a run makes in some states, in order. -/
def rebindings (states : List (Engine × Machine)) : List Rebinding :=
  states.filterMap fun state => state.2.rebinds?

lemma rebindings_cons (state) (rest) :
    rebindings (state :: rest) = state.2.rebinds?.toList ++ rebindings rest := by
  rw [rebindings, filterMap_cons]
  cases state.2.rebinds? <;> rfl

lemma exists_of_isAssigning (assigning : m.isAssigning) : ∃ value name frame location rest,
    m.control = .deliver (.value value) ∧ m.stack = .assign name frame location :: rest := by
  unfold isAssigning at assigning
  split at assigning
  · next result control =>
    cases stack : m.stack with
    | nil => rw [stack] at assigning; cases assigning
    | cons k rest =>
      rw [stack] at assigning
      have assigns : k.assigns result := assigning
      unfold Continuation.assigns at assigns
      split at assigns
      · next name frame location value => exact ⟨value, name, frame, location, rest, control, rfl⟩
      · cases assigns
  · cases assigning

lemma step_assigning (assigning : m.isAssigning) (e) (id) : (m.step e).2.environment.frame? id =
    (m.environment.frame? id).map (rebound id m.rebinds?.toList) := by
  obtain ⟨value, name, frame, _, _, control, stack⟩ := exists_of_isAssigning assigning
  have rebinds : m.rebinds? =
      (m.environment.nearest frame name).map fun found => (found.1, name, value) := by
    rw [rebinds?, control, stack]
  simp only [step, control, deliver, stack, deliverTo, acceptValue, Environment.assign?]
  rw [rebinds]
  cases near : m.environment.nearest frame name with
  | none => exact Option.map_id'.symm
  | some found =>
    change (m.environment.define found.1 name value).frame? id = _
    rw [Environment.frame?_define]
    by_cases same : id = found.1
    · rw [if_pos same, same]
      refine congrArg (Option.map · _) (funext fun frame => ?_)
      exact (if_pos rfl).symm
    · rw [if_neg same]
      have kept : rebound id [(found.1, name, value)] = fun frame => frame :=
        funext fun frame => if_neg (Ne.symm same)
      exact kept ▸ Option.map_id'.symm

lemma rebinds?_eq_none (idle : ¬m.isAssigning = true) : m.rebinds? = none := by
  unfold rebinds?
  split
  · next _ _ _ _ _ control stack =>
    refine absurd ?_ idle
    rw [isAssigning, control, stack]
    rfl
  · rfl

end Machine

/-! ### The course of an inquiry -/

lemma Machine.Called.suffix (called : Called below m) : below <:+ m.stack := by
  cases called with
  | inside _ stack =>
    rw [stack]
    exact (suffix_cons _ below).trans (suffix_append _ _)
  | starts _ stack | asks _ stack | builds _ stack | done _ stack => exact stack ▸ suffix_rfl

def Control.Inquires : Control → Prop
  | .evaluate e _ => e.assigns = false
  | .template _ rest _ => partsAssign rest = false
  | .gather (.print _) _ _ _ => False
  | .gather _ _ rest _ => anyAssigns rest = false
  | .deliver _ | .waiting (.input _ _) => True
  | _ => False

def Continuation.Inquires : Continuation → Prop
  | .template _ rest _ => partsAssign rest = false
  | .gather (.print _) _ _ _ => False
  | .gather _ _ rest _ | .receiver _ _ rest _ _ | .callee rest _ _ => anyAssigns rest = false
  | .binaryRight _ right _ _ | .logicalRight _ right _ | .subscript right _ _ => right.assigns = false
  | .binary _ _ _ | .truth | .unary _ _ | .index _ _ | .member _ _ => True
  | _ => False

namespace Machine

inductive Inquires (below : List Continuation) (m : Machine) : Prop where
  | itself (parts : ∀ k ∈ above, k.Inquires) (control : m.control.Inquires)
      (stack : m.stack = above ++ below)
  | calls (parts : ∀ k ∈ above, k.Inquires) (called : Called (above ++ below) m)

section
variable {front : List FrameId}
variable {m : Machine} {above below : List Continuation}

section
variable (parts : ∀ k ∈ above, k.Inquires) (stack : m.stack = above ++ below)
include parts stack

lemma inquires_into {control : Control} (inquires : control.Inquires) :
    Inquires below (m.into control) :=
  .itself parts inquires stack

lemma inquires_evaluate (inquires : e.assigns = false) (first : k.Inquires) (frame) :
    Inquires below (m.evaluate k e frame) :=
  .itself (forall_mem_cons.mpr ⟨first, parts⟩) inquires (congrArg (k :: ·) stack)

lemma stepExpr_inquires (plain : expr.assigns = false) (frame) :
    Inquires below (m.stepExpr expr frame) ∧ (m.stepExpr expr frame).environment = m.environment := by
  have into {control : Control} (inquires : control.Inquires) :
      Inquires below (m.into control) ∧ (m.into control).environment = m.environment :=
    ⟨inquires_into parts stack inquires, rfl⟩
  have part {k : Continuation} {e : Expr} (inquires : e.assigns = false) (first : k.Inquires) :
      Inquires below (m.evaluate k e frame) ∧ (m.evaluate k e frame).environment = m.environment :=
    ⟨inquires_evaluate parts stack inquires first frame, rfl⟩
  cases expr with
  | number | string | bool | null => exact into trivial
  | identifier =>
    simp only [stepExpr]
    split <;> exact into trivial
  | interpolated => exact into plain
  | array => exact into plain
  | assign => cases plain
  | binary op left right location | logical op left right location | index left right location =>
    obtain ⟨first, second⟩ := Bool.or_eq_false_iff.mp plain
    exact part first second
  | unary => exact part plain trivial
  | member => exact part plain trivial
  | call =>
    obtain ⟨first, others⟩ := Bool.or_eq_false_iff.mp plain
    unfold stepExpr
    dsimp only
    split
    · exact part first others
    · split
      · exact into others
      · exact part first others
    · exact part first others

end

lemma deliver_inquires (e) (first : k.Inquires) (parts : ∀ k ∈ above, k.Inquires)
    (stack : m.stack = above ++ below) (result) : Inquires below (m.deliverTo e k result).2 ∧
    (m.deliverTo e k result).2.environment = m.environment := by
  have into {control : Control} (inquires : control.Inquires) :
      Inquires below (m.into control) ∧ (m.into control).environment = m.environment :=
    ⟨inquires_into parts stack inquires, rfl⟩
  have part {k : Continuation} {e : Expr} {frame : FrameId} (inquires : e.assigns = false)
      (first : k.Inquires) : Inquires below (m.evaluate k e frame) ∧
        (m.evaluate k e frame).environment = m.environment :=
    ⟨inquires_evaluate parts stack inquires first frame, rfl⟩
  have settled (outcome : Except Fault Value) (location) :
      Inquires below (m.giveOrFail outcome location) ∧
        (m.giveOrFail outcome location).environment = m.environment := by
    cases outcome <;> exact into trivial
  rcases result with value | flow | error
  · cases k with
    | template => exact into first
    | gather purpose =>
      cases purpose with
      | print => cases first
      | _ => exact into first
    | binaryRight | subscript => exact part first trivial
    | logicalRight =>
      simp only [deliverTo, acceptValue]
      split
      · exact into trivial
      · exact into trivial
      · exact part first trivial
    | binary _ _ location => exact settled _ location
    | truth => exact into trivial
    | unary _ location => exact settled _ location
    | index _ location => exact settled _ location
    | member _ location => exact settled _ location
    | receiver =>
      simp only [deliverTo, acceptValue]
      split
      · exact into first
      · exact into trivial
    | callee => exact into first
    | _ => cases first
  · cases k with
    | template | gather | binaryRight | subscript | logicalRight | binary | truth | unary | index
    | member | receiver | callee => exact into trivial
    | _ => cases first
  · cases k with
    | template | gather | binaryRight | subscript | logicalRight | binary | truth | unary | index
    | member | receiver | callee => exact into trivial
    | _ => cases first

lemma itself_step (e) {frames : List FrameId} (nests : m.environment.Nests frames)
    (parts : ∀ k ∈ above, k.Inquires) (control : m.control.Inquires) (stack : m.stack = above ++ below)
    (working : m.handsOver below.length = false) : Inquires below (m.step e).2 ∧ ∀ id,
    m.environment.hasFrame id = true → (m.step e).2.environment.frame? id = m.environment.frame?
    id := by
  have same {next : Machine} (goes : Inquires below next ∧ next.environment = m.environment) :
      Inquires below next ∧ ∀ id, m.environment.hasFrame id = true →
        next.environment.frame? id = m.environment.frame? id :=
    ⟨goes.1, fun id _ => by rw [goes.2]⟩
  cases shape : m.control with
  | evaluate _ frame =>
    rw [shape] at control
    simp only [step, shape]
    exact same (stepExpr_inquires parts stack control frame)
  | template _ rest frame =>
    rw [shape] at control
    simp only [step, shape]
    rcases rest with _ | ⟨piece | value, rest⟩
    · exact same ⟨inquires_into parts stack trivial, rfl⟩
    · exact same ⟨inquires_into parts stack control, rfl⟩
    · obtain ⟨first, others⟩ := Bool.or_eq_false_iff.mp control
      refine same ⟨inquires_evaluate parts stack first ?_ frame, rfl⟩
      exact others
  | gather purpose _ rest frame =>
    rw [shape] at control
    simp only [step, shape]
    cases rest with
    | cons =>
      cases purpose with
      | print => cases control
      | _ =>
        obtain ⟨plain, others⟩ := Bool.or_eq_false_iff.mp control
        refine same ⟨inquires_evaluate parts stack plain ?_ frame, rfl⟩
        exact others
    | nil =>
      cases purpose with
      | array => exact same ⟨inquires_into parts stack trivial, rfl⟩
      | print => cases control
      | call callee location =>
        exact ⟨.calls parts (stack ▸ complete_called e callee location _),
          fun id opened => complete_keeps e callee location _ nests opened⟩
  | waiting wait =>
    rw [shape] at control
    cases wait with
    | input =>
      obtain ⟨called, unchanged⟩ := resume_called e shape
      simp only [step, shape]
      exact same ⟨.calls parts (stack ▸ called), unchanged⟩
    | _ => cases control
  | deliver result =>
    cases above with
    | nil =>
      have hands := handsOver_iff.mpr ⟨⟨result, shape⟩, congrArg length stack⟩
      rw [nil_append, working] at hands
      cases hands
    | cons _ above =>
      obtain ⟨first, others⟩ := forall_mem_cons.mp parts
      simp only [step, shape, deliver, stack, cons_append]
      exact same (deliver_inquires (m := { m with stack := above ++ below }) e first others rfl result)
  | _ =>
    rw [shape] at control
    cases control

section
variable (framed : m.Framed stock limit) (inside : front ≠ [])
  (frames : m.frames = front ++ Continuation.frames below)
include framed inside frames

lemma Framed.apart {id : FrameId} (mem : id ∈ Continuation.frames below ++ [.global]) :
    id ≠ .innermost m.frames := by
  have distinct : (m.frames ++ [FrameId.global]).Nodup := framed.standing.nests.distinct
  obtain ⟨_, rest, rfl⟩ := exists_cons_of_ne_nil inside
  rw [frames, append_assoc] at distinct
  rw [frames]
  rintro rfl
  exact (nodup_cons.mp distinct).1 (mem_append_right rest mem)

lemma Framed.spares (turn : m.environment.Turn stock.IsHome assigning m.frames later now)
    (idle : ¬assigning) {id : FrameId} (mem : id ∈ Continuation.frames below ++ [.global]) :
    later.frame? id = m.environment.frame? id := by
  have nests : m.environment.Nests m.frames := framed.standing.nests
  have apart := framed.apart inside frames mem
  have opened : m.environment.hasFrame id := by
    refine (nests.hasFrame_iff id).mpr ?_
    rw [frames, append_assoc]
    exact mem_append_right _ mem
  cases turn with
  | rests => rfl
  | binds => rw [Environment.frame?_define, if_neg apart]
  | assigns now => exact absurd now idle
  | opens _ bindings => exact (nests.frame?_openWith _ bindings).1 id opened
  | @closes gone _ last =>
    rw [last] at apart
    have stays : ¬(id = gone ∧ gone ≠ .global) := fun closes => apart closes.1
    rw [Environment.frame?_pop_eq, if_neg stays]

end

lemma itself_idle (parts : ∀ k ∈ above, k.Inquires) (stack : m.stack = above ++ below)
    (working : m.handsOver below.length = false) : ¬m.isAssigning = true := by
  intro assigning
  obtain ⟨_, _, _, _, _, control, top⟩ := exists_of_isAssigning assigning
  cases above with
  | nil =>
    have hands := handsOver_iff.mpr ⟨⟨_, control⟩, congrArg length stack⟩
    rw [nil_append, working] at hands
    cases hands
  | cons =>
    rw [top] at stack
    cases stack
    exact parts _ mem_cons_self

structure Proceeds (below : List Continuation) (m next : Machine) : Prop where
  inquires : Inquires below next
  frame? : ∀ id ∈ Continuation.frames below ++ [.global], next.environment.frame? id =
    (m.environment.frame? id).map (rebound id m.rebinds?.toList)
  inside : m.isAssigning = true → ∃ front, front ≠ [] ∧ m.frames = front ++ Continuation.frames below

lemma Proceeds.aside {next : Machine} (inquires : Inquires below next) (idle : ¬m.isAssigning = true)
    (kept : ∀ id ∈ Continuation.frames below ++ [.global],
      next.environment.frame? id = m.environment.frame? id) : Proceeds below m next where
  inquires := inquires
  frame? id mem := by
    rw [kept id mem, rebinds?_eq_none idle]
    exact Option.map_id'.symm
  inside assigning := absurd assigning idle

lemma Framed.proceeds (framed : m.Framed stock limit) (advances : Advances stock limit m (m.step e).2)
    (inquires : Inquires below (m.step e).2) (inside : front ≠ [])
    (frames : m.frames = front ++ Continuation.frames below) : Proceeds below m (m.step e).2 := by
  by_cases assigning : m.isAssigning = true
  · exact ⟨inquires, fun id _ => step_assigning assigning e id, fun _ => ⟨front, inside, frames⟩⟩
  · exact .aside inquires assigning fun id mem =>
      framed.spares inside frames advances.turn assigning mem

lemma frames_append (above below) :
    Continuation.frames (above ++ below) = Continuation.frames above ++ Continuation.frames below :=
  filterMap_append

lemma Inquires.step (inquires : Inquires below m) (framed : m.Framed stock limit)
    (advances : Advances stock limit m (m.step e).2) (under : below <:+ m.stack)
    (working : m.handsOver below.length = false) : Proceeds below m (m.step e).2 := by
  have nests : m.environment.Nests m.frames := framed.standing.nests
  have opened : ∀ id ∈ Continuation.frames below ++ [.global], m.environment.hasFrame id = true := by
    intro id mem
    obtain ⟨_, stack⟩ := under
    refine (nests.hasFrame_iff id).mpr ?_
    rw [frames, openFrames, ← stack, frames_append, append_assoc, append_assoc]
    exact mem_append_right _ (mem_append_right _ mem)
  have itself {above : List Continuation} (parts : ∀ k ∈ above, k.Inquires)
      (control : m.control.Inquires) (stack : m.stack = above ++ below) :
      Proceeds below m (m.step e).2 := by
    obtain ⟨goes, kept⟩ := itself_step e nests parts control stack working
    exact .aside goes (itself_idle parts stack working) fun id mem => kept id (opened id mem)
  cases inquires with
  | itself parts control stack => exact itself parts control stack
  | @calls above parts called =>
    cases hands : m.handsOver (above ++ below).length with
    | true =>
      obtain ⟨⟨_, control⟩, height⟩ := handsOver_iff.mp hands
      refine itself parts (by rw [control]; trivial) ?_
      obtain ⟨rest, stack⟩ : above ++ below <:+ m.stack := called.suffix
      have nothing : rest = [] := by
        rw [← stack, length_append] at height
        exact eq_nil_of_length_eq_zero (by omega)
      rw [← stack, nothing, nil_append]
    | false =>
      have goes : Inquires below (m.step e).2 := .calls parts (called.step advances hands)
      have idle (busy : ∀ result, m.control ≠ .deliver result) : ¬m.isAssigning = true := by
        intro assigning
        obtain ⟨_, _, _, _, _, control, _⟩ := exists_of_isAssigning assigning
        exact busy _ control
      cases called with
      | starts control =>
        refine .aside goes (idle (by simp [control])) fun id mem => ?_
        simp only [Machine.step, control]
        exact complete_keeps e _ _ _ nests (opened id mem)
      | asks control =>
        refine .aside goes (idle (by simp [control])) fun id mem => ?_
        simp only [Machine.step, control]
        rw [(resume_called e control).2]
      | @builds _ _ frame _ control stack =>
        refine framed.proceeds advances goes (cons_ne_nil frame (Continuation.frames above)) ?_
        rw [frames, openFrames, control, stack, frames_append]
        rfl
      | @inside top _ closes stack =>
        obtain ⟨frame, own⟩ := Option.isSome_iff_exists.mp closes
        refine framed.proceeds advances goes (append_ne_nil_of_right_ne_nil (m.control.closes?.toList ++
          Continuation.frames top) (cons_ne_nil frame (Continuation.frames above))) ?_
        rw [frames, openFrames, stack]
        simp [Continuation.frames, own]
      | done control stack =>
        have ended := handsOver_iff.mpr ⟨⟨_, control⟩, congrArg length stack⟩
        rw [hands] at ended
        cases ended

structure Traced (limit : Nat) (below : List Continuation) (start : Machine)
    (earlier : List (Engine × Machine)) (now : Machine) : Prop where
  frame? : ∀ id ∈ Continuation.frames below ++ [.global], now.environment.frame? id =
    (start.environment.frame? id).map (rebound id (rebindings earlier))
  inside : ∀ state ∈ earlier, state.2.isAssigning = true → state.2.Framed .any limit ∧
    ∃ front, front ≠ [] ∧ state.2.frames = front ++ Continuation.frames below

lemma Inquires.work (runs : Runs config start states) (framed : start.Framed .any config.maxCallDepth)
    (inquires : Inquires below start) (under : below <:+ start.stack)
    (course : work below.length states = earlier ++ (e, now) :: later) :
    Traced config.maxCallDepth below start earlier now := by
  induction earlier generalizing start states with
  | nil =>
    cases states with
    | nil => cases course
    | cons =>
      rw [work, nil_append, cons.injEq] at course
      obtain ⟨rfl, -⟩ := course
      obtain rfl : now = start := runs.begins _ rfl
      exact ⟨fun _ _ => Option.map_id'.symm, forall_mem_nil _⟩
  | cons state earlier ih =>
    cases states with
    | nil => cases course
    | cons first =>
      rw [work, cons_append, cons.injEq] at course
      obtain ⟨rfl, onward⟩ := course
      obtain ⟨here, m⟩ := first
      obtain rfl : m = start := runs.begins _ rfl
      split at onward
      · cases append_ne_nil_of_right_ne_nil earlier (cons_ne_nil _ later) onward.symm
      · next working =>
        have busy : m.handsOver below.length = false := Bool.not_eq_true _ ▸ working
        have advances := framed.step (e := here)
          (Nat.le_of_eq (congrArg _ (runs.within _ mem_cons_self)))
        have proceeds := inquires.step framed advances under busy
        obtain ⟨follows, unbroken⟩ := isChain_cons.mp runs.unbroken
        have traced := ih
          ⟨follows, unbroken, fun state mem => runs.within state (mem_cons_of_mem _ mem)⟩
          advances.framed proceeds.inquires (advances.above under busy) onward
        refine ⟨fun id mem => ?_, forall_mem_cons.mpr
          ⟨fun assigning => ⟨framed, proceeds.inside assigning⟩, traced.inside⟩⟩
        rw [traced.frame? id mem, proceeds.frame? id mem, Option.map_map, rebindings_cons]
        exact congrArg (Option.map · _) (funext fun frame => (frame.rebound_append id _ _).symm)

lemma pure_work (runs : Runs config start states) (isPure : start.control.IsPure)
    (stack : start.stack = below) :
    ∀ state ∈ work below.length states, state.2.environment = start.environment := by
  intro state mem
  refine (work_all (Q := fun now => now.environment = start.environment ∧ now.control.IsPure ∧
    ∃ above, now.stack = above ++ below ∧ ∀ k ∈ above, k.IsPure) runs.unbroken ?_ ?_ state mem).1
  · intro first present
    rw [runs.begins first present]
    exact ⟨rfl, isPure, [], stack, forall_mem_nil _⟩
  · rintro ⟨e, now⟩ - ⟨same, goes, above, standing, parts⟩ working
    have left : ∀ result, now.control = .deliver result → above ≠ [] := by
      rintro result control rfl
      have hands := handsOver_iff.mpr ⟨⟨result, control⟩, congrArg length standing⟩
      rw [nil_append, working] at hands
      cases hands
    obtain ⟨-, _, further, reached, goesOn, partsToo, -⟩ := step_thinks e standing goes parts left
    rw [reached]
    exact ⟨same, goesOn, further, rfl, partsToo⟩

end

end Machine

/-! ### What the debugger accepts -/

/-- The expressions that a debugger takes: conditions, placeholders of messages and watches. -/
inductive Debugger.Accepts (expr : Expr) : Prop where
  | condition {d later : Debugger} {line : Nat} {condition log : Option String} {b : Breakpoint}
      (added : d.setBreakpoint line condition log = .ok (later, b)) {read : DebugExpr}
      (asks : b.condition = some read) (own : read.value = expr)
  | log {d later : Debugger} {line : Nat} {condition log : Option String} {b : Breakpoint}
      (added : d.setBreakpoint line condition log = .ok (later, b)) {read : LogTemplate}
      (asks : b.log = some read) (own : .placeholder expr ∈ read.parts)
  | watch {d later : Debugger} {source : String} (added : d.setWatch source = .ok later)
      {read : DebugExpr} (asks : DebugExpr.parse source = .ok read) (own : read.value = expr)

lemma assigns_of_mem_parts (plain : partsAssign parts = false) (mem : .placeholder expr ∈ parts) :
    expr.assigns = false := by
  induction parts with
  | nil => cases mem
  | cons _ _ ih =>
    obtain ⟨here, others⟩ := Bool.or_eq_false_iff.mp plain
    obtain rfl | mem := mem_cons.mp mem
    · exact here
    · exact ih others mem

lemma Debugger.Accepts.assigns (accepts : Debugger.Accepts expr) : expr.assigns = false := by
  cases accepts with
  | condition added asks own => exact own ▸ (setBreakpoint_added added).condition _ asks
  | log added asks own => exact assigns_of_mem_parts ((setBreakpoint_added added).log _ asks) own
  | watch _ asks own => exact own ▸ parse_assigns asks

namespace Machine

lemma Framed.evaluateMuted (framed : m.Framed .any limit) (shown : m.control.shown? = some b)
    (asks : k.shown? = some b) (expr) : (m.evaluateMuted k expr b.frame).Framed .any limit := by
  have plain : m.control.closes? = none := by
    cases control : m.control with
    | build => rw [control] at shown; cases shown
    | _ => rfl
  have here : b.frame = m.innermost none := by
    have site : m.control.site? = some b.frame := by
      cases control : m.control with
      | arrived | log | watch => rw [control] at shown; cases shown; rfl
      | _ => rw [control] at shown; cases shown
    have fits := framed.fits.1
    rw [site, frames, plain] at fits
    exact fits
  have known : b.IsIn .any := by
    cases b with
    | statement => trivial
    | line => exact ⟨trivial, fun _ _ => trivial⟩
  have standing := framed.standing
  rw [plain] at standing
  have makes : k.closes? = none ∧ k.called? = none ∧ k.Fits .any (m.innermost none) := by
    cases k with
    | condition | log | watch => cases asks; exact ⟨rfl, rfl, here, known⟩
    | _ => cases asks
  have leads : Leads False _ _ _ _ _ :=
    evaluateMuted_leads standing here expr makes.1 makes.2.1 makes.2.2
  exact leads.framed

lemma Traced.assigns (traced : Traced limit below start earlier now) (mem : state ∈ earlier)
    (control : state.2.control = .deliver (.value value))
    (stack : state.2.stack = .assign name frame location :: rest) :
    frame ∉ Continuation.frames below ++ [.global] := by
  have assigning : state.2.isAssigning := by
    rw [isAssigning, control, stack]
    rfl
  obtain ⟨framed, _, inside, frames⟩ := traced.inside state mem assigning
  have here : frame = .innermost state.2.frames := by
    have fits := framed.standing.stack
    rw [stack] at fits
    rw [Machine.frames, openFrames, control, stack]
    exact fits.1.1
  exact fun old => framed.apart inside frames old here

lemma Traced.binding? (traced : Traced limit below start earlier now) {id : FrameId}
    (mem : id ∈ Continuation.frames below ++ [.global])
    (opened : start.environment.hasFrame id) (name : String) : now.environment.binding? id name =
    (latest? id name (rebindings earlier)).or (start.environment.binding? id name) := by
  obtain ⟨frame, found⟩ := Option.isSome_iff_exists.mp opened
  rw [Environment.binding?, Environment.binding?, traced.frame? id mem, found]
  exact frame.find?_rebound id name _

end Machine

/-- Evaluating an expression that the debugger accepts changes the open frames by assignments of called
code only, and not at all if it has no calls. -/
theorem evaluation_rebinds_through_calls (config : Config) (number : Nat) (moves : List Move)
    {e : Engine} {m : Machine} (reached : (e, m) ∈ (Host.observed config).history number moves)
    {b : Boundary} (shown : m.control.shown? = some b) {k : Continuation} (asks : k.shown? = some b)
    {expr : Expr} (accepted : Debugger.Accepts expr) {states : List (Engine × Machine)}
    (runs : Machine.Runs config (m.evaluateMuted k expr b.frame) states)
    {earlier later : List (Engine × Machine)} {now : Engine × Machine}
    (course : Machine.work (m.stack.length + 1) states = earlier ++ now :: later) :
    (∀ id, m.environment.hasFrame id = true → now.2.environment.frame? id =
      (m.environment.frame? id).map (rebound id (Machine.rebindings earlier))) ∧
    (∀ state ∈ earlier, ∀ value name frame location rest,
      state.2.control = .deliver (.value value) → state.2.stack = .assign name frame location :: rest →
      m.environment.hasFrame frame = false) ∧
    ((∀ id name, m.environment.hasFrame id = true →
        now.2.environment.binding? id name = m.environment.binding? id name) ↔
      ∀ id name value, m.environment.hasFrame id = true →
        latest? id name (Machine.rebindings earlier) = some value →
        m.environment.binding? id name = some value) ∧
    (expr.calls = false → now.2.environment = m.environment) := by
  have framed := (Host.history_framed config number moves (e, m) reached).evaluateMuted shown asks expr
  have inquires : Machine.Inquires (k :: m.stack) (m.evaluateMuted k expr b.frame) :=
    .itself (List.forall_mem_nil _) accepted.assigns (List.nil_append (k :: m.stack)).symm
  have traced := Machine.Inquires.work runs framed inquires List.suffix_rfl course
  have old (id : FrameId) (opened : m.environment.hasFrame id = true) :
      id ∈ Continuation.frames (k :: m.stack) ++ [.global] :=
    (framed.standing.nests.hasFrame_iff id).mp opened
  have bound (id : FrameId) (opened : m.environment.hasFrame id = true) (name : String) :=
    traced.binding? (old id opened) opened name
  refine ⟨fun id opened => traced.frame? id (old id opened), ?_, ⟨?_, ?_⟩, fun free => ?_⟩
  · intro _ member _ _ frame _ _ control stack
    exact Bool.eq_false_iff.mpr fun opened => traced.assigns member control stack (old frame opened)
  · intro same id name _ opened assigned
    rw [← same id name opened, bound id opened name, assigned]
    rfl
  · intro kept id name opened
    rw [bound id opened name]
    cases assigned : latest? id name (Machine.rebindings earlier) with
    | none => rfl
    | some value => exact (kept id name value opened assigned).symm
  · have member : now ∈ Machine.work (k :: m.stack).length states := by
      rw [List.length_cons, course]
      exact List.mem_append_right earlier List.mem_cons_self
    exact Machine.pure_work runs ⟨free, accepted.assigns⟩ rfl now member

/-! ### Functions that assign -/

lemma Machine.trailWithin_unbroken (bound) (e) (m) :
    Unbroken (trailWithin bound e m) ∧ ∀ first ∈ (trailWithin bound e m).head?, first.2 = m := by
  induction bound generalizing e m with
  | zero => exact ⟨.nil, fun _ absent => by cases absent⟩
  | succ _ ih =>
    unfold trailWithin
    split
    · exact ⟨.nil, fun _ absent => by cases absent⟩
    · obtain ⟨unbroken, begins⟩ := ih (m.step e).1 (m.step e).2
      refine ⟨isChain_cons.mpr ⟨begins, unbroken⟩, ?_⟩
      rintro _ ⟨⟩
      rfl

lemma Machine.runs_trail (e) (m) : Runs e.config m (m.trail e) where
  begins := by
    rintro _ ⟨⟩
    rfl
  unbroken := by
    obtain ⟨unbroken, begins⟩ := trailWithin_unbroken sliceBound (m.step e).1 (m.step e).2
    exact isChain_cons.mpr ⟨begins, unbroken⟩
  within := m.trail_config

/-- A debug run of a program that sets a variable, declares a function and prints the variable. -/
def printing (body : String) : List (Engine × Machine) :=
  (Host.observed {}).history 1 ((Launch.sole {}
    ("LET x = true\nFUNC f()\n" ++ body ++ "RETURN false\nEND\nPRINT x") { debug := true }).before ++
      [.slice 1])

def calling? : Option (Breakpoint × DebugExpr) :=
  (({} : Debugger).setBreakpoint 6 (some "f()") none).toOption.bind fun added =>
    added.2.condition.map fun read => (added.2, read)

lemma calling?_accepted {read : DebugExpr} (calls : calling? = some (b, read)) :
    Debugger.Accepts read.value := by
  obtain ⟨⟨_, _⟩, added, asks⟩ := Option.bind_eq_some_iff.mp calls
  obtain ⟨_, own, same⟩ := Option.map_eq_some_iff.mp asks
  cases same
  cases result : ({} : Debugger).setBreakpoint 6 (some "f()") none with
  | error => rw [result] at added; cases added
  | ok =>
    rw [result] at added
    cases added
    exact .condition result own rfl

def consulted (body : String) (check : Machine → List Rebinding → Machine → Bool) : Bool :=
  ((printing body)[14]?).any fun state => state.2.control.shown?.any fun b => calling?.any fun asked =>
    let course := Machine.work (state.2.stack.length + 1)
      ((state.2.evaluateMuted (.condition asked.1 b none) asked.2.value b.frame).trail state.1)
    course.getLast?.any fun now => now.2.handsOver (state.2.stack.length + 1) &&
      check state.2 (Machine.rebindings course.dropLast) now.2

lemma consulted_course (passed : consulted body check) : ∃ e m b k expr states earlier now,
    (e, m) ∈ printing body ∧ m.control.shown? = some b ∧ k.shown? = some b ∧ Debugger.Accepts expr ∧
    Machine.Runs {} (m.evaluateMuted k expr b.frame) states ∧ Machine.work (m.stack.length + 1) states =
    earlier ++ [now] ∧ now.2.handsOver (m.stack.length + 1) = true ∧ check m
    (Machine.rebindings earlier) now.2 = true := by
  obtain ⟨⟨e, m⟩, found, passed⟩ := (Option.any_eq_true _ _).mp passed
  obtain ⟨b, shown, passed⟩ := (Option.any_eq_true _ _).mp passed
  obtain ⟨⟨asked, read⟩, calls, passed⟩ := (Option.any_eq_true _ _).mp passed
  obtain ⟨now, last, passed⟩ := (Option.any_eq_true _ _).mp passed
  obtain ⟨hands, holds⟩ := Bool.and_eq_true_iff.mp passed
  have reached : (e, m) ∈ printing body := mem_of_getElem? found
  have limits : e.config = {} := Host.history_config (Host.observed_orderly {}) 1 _ _ reached
  have runs := Machine.runs_trail e (m.evaluateMuted (.condition asked b none) read.value b.frame)
  rw [limits] at runs
  exact ⟨e, m, b, _, _, _, _, now, reached, shown, rfl, calling?_accepted calls, runs,
    (dropLast_append_getLast? now last).symm, hands, holds⟩

def isBool (truth : Bool) : Option Value → Bool
  | some (.bool b) => b == truth
  | _ => false

lemma eq_of_isBool (holds : isBool truth found) : found = some (.bool truth) := by
  unfold isBool at holds
  split at holds
  · rw [beq_iff_eq.mp holds]
  · cases holds

/-- A condition that calls a function which sets the variable and sets it back: it assigns twice, and no
binding is another one when it hands over its value. -/
theorem restoring_condition_rebinds_nothing :
    ∃ e m b k expr states earlier now, (e, m) ∈ printing "x = false\nx = true\n" ∧
      m.control.shown? = some b ∧ k.shown? = some b ∧ Debugger.Accepts expr ∧
      Machine.Runs {} (m.evaluateMuted k expr b.frame) states ∧
      Machine.work (m.stack.length + 1) states = earlier ++ [now] ∧
      now.2.handsOver (m.stack.length + 1) = true ∧ (Machine.rebindings earlier).length = 2 ∧
      ∀ id name, m.environment.hasFrame id = true →
        now.2.environment.binding? id name = m.environment.binding? id name := by
  have passed : consulted "x = false\nx = true\n" (fun m changes _ => changes.length == 2 &&
      changes.all (fun change => change.1 == .global && change.2.1 == "x") &&
      isBool true (latest? .global "x" changes) && isBool true (m.environment.binding? .global "x")) =
        true := by decide +kernel
  obtain ⟨e, m, b, k, expr, states, earlier, now, reached, shown, asks, accepted, runs, course, hands,
    holds⟩ := consulted_course passed
  simp only [Bool.and_eq_true, beq_iff_eq, List.all_eq_true] at holds
  obtain ⟨⟨⟨twice, only⟩, last⟩, old⟩ := holds
  refine ⟨e, m, b, k, expr, states, earlier, now, reached, shown, asks, accepted, runs, course, hands,
    twice, ?_⟩
  obtain ⟨-, -, same, -⟩ := evaluation_rebinds_through_calls {} 1 _ reached shown asks accepted runs course
  refine same.mpr fun id name value opened assigned => ?_
  obtain ⟨change, member, own⟩ := List.exists_of_findSome?_eq_some assigned
  split at own
  · next place =>
    obtain ⟨holder, named⟩ := only change (List.mem_reverse.mp member)
    rw [← place.1, ← place.2, holder, named] at assigned ⊢
    rw [eq_of_isBool last] at assigned
    rw [eq_of_isBool old, assigned]
  · cases own

/-- A condition that calls a function which sets the variable is accepted, and the variable is another one
when it hands over its value. -/
theorem calling_condition_rebinds :
    ∃ e m b k expr states earlier now, (e, m) ∈ printing "x = false\n" ∧
      m.control.shown? = some b ∧ k.shown? = some b ∧ Debugger.Accepts expr ∧
      Machine.Runs {} (m.evaluateMuted k expr b.frame) states ∧
      Machine.work (m.stack.length + 1) states = earlier ++ [now] ∧
      now.2.handsOver (m.stack.length + 1) = true ∧
      m.environment.binding? .global "x" = some (.bool true) ∧
      now.2.environment.binding? .global "x" = some (.bool false) := by
  have passed : consulted "x = false\n" (fun m _ now =>
      isBool true (m.environment.binding? .global "x") &&
      isBool false (now.environment.binding? .global "x")) = true := by decide +kernel
  obtain ⟨e, m, b, k, expr, states, earlier, now, reached, shown, asks, accepted, runs, course, hands,
    holds⟩ := consulted_course passed
  obtain ⟨old, new⟩ := Bool.and_eq_true_iff.mp holds
  exact ⟨e, m, b, k, expr, states, earlier, now, reached, shown, asks, accepted, runs, course, hands,
    eq_of_isBool old, eq_of_isBool new⟩

end Stepper
