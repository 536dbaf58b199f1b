import Stepper.Proofs.Callables
import Stepper.Proofs.Computation
import Stepper.Proofs.FrameNesting

/-! # The frames a run stands in

Where a run stands (`Standing`): its open frames nest, it has as many calls as its depth says and no more
than it may, and every value is made of declarations in stock. A turn of a run keeps this and changes the
stack at the top only. -/

namespace Stepper

open List

/-! ### What a run has in stock -/

structure Stock where
  callables : Callables
  statement : FrameId → Stmt → Prop
  line : SketchLine → Prop
  inside : ∀ {frame s}, statement frame s →
    ∀ body ∈ s.bodies, ∀ inner ∈ body.statements, statement frame inner
  function : ∀ {frame decl location}, statement frame (.function decl location) →
    callables.function decl frame
  classDef : ∀ {frame decl location}, statement frame (.classDef decl location) →
    callables.classDef decl frame
  called : ∀ {decl home}, callables.function decl home →
    ∀ frame, ∀ inner ∈ decl.body.statements, statement frame inner
  method : ∀ {decl home}, callables.classDef decl home →
    ∀ method location, .function method location ∈ decl.body.statements →
      callables.function method home
  alone : ∀ {entry program}, line entry → (analyzeUnit entry.number entry.text).program = some program →
    ∀ s ∈ program.statements, statement .global s

namespace Stock

def any : Stock where
  callables := ⟨fun _ _ => True, fun _ _ => True⟩
  statement _ _ := True
  line _ := True
  inside _ _ _ _ _ := trivial
  function _ := trivial
  classDef _ := trivial
  called _ _ _ _ := trivial
  method _ _ _ _ := trivial
  alone _ _ _ _ := trivial

variable (stock : Stock)

def Statements (frame : FrameId) (statements : List Stmt) : Prop :=
  ∀ s ∈ statements, stock.statement frame s

def Members (home : FrameId) (members : List Stmt) : Prop :=
  ∀ decl location, .function decl location ∈ members → stock.callables.function decl home

def IsHome (home : FrameId) : Prop :=
  (∃ decl, stock.callables.function decl home) ∨ ∃ decl, stock.callables.classDef decl home

def Covers : Target → Prop
  | .program program => stock.Statements .global program.statements
  | .sketch lines => ∀ line ∈ lines, stock.line line

end Stock

lemma Stock.any_covers (target) : any.Covers target := by
  cases target with
  | program => exact fun _ _ => trivial
  | sketch => exact fun _ _ => trivial

def Result.MadeOf (sort : Callables) : Result → Prop
  | .value given => given.MadeOf sort
  | .flow (.giveBack given) => given.MadeOf sort
  | _ => True

def Purpose.MadeOf (sort : Callables) : Purpose → Prop
  | .call (.value callee receiver) _ => callee.MadeOf sort ∧ ∀ object ∈ receiver, object.MadeOf sort
  | _ => True

def Boundary.IsIn (stock : Stock) : Boundary → Prop
  | .statement s frame => stock.statement frame s
  | .line entry rest => stock.line entry ∧ ∀ other ∈ rest, stock.line other

/-! ### Frames on the stack -/

namespace Continuation

def closes? : Continuation → Option FrameId
  | .activation frame | .field _ _ _ frame _ => some frame
  | _ => none

/-- The frame of the call that a continuation returns from. -/
def called? : Continuation → Option FrameId
  | .activation frame => some frame
  | _ => none

def frames (stack : List Continuation) : List FrameId := stack.filterMap closes?

/-- The frames of the calls in progress, innermost first. -/
def calls (stack : List Continuation) : List FrameId := stack.filterMap called?

/-- The frame in which a continuation goes on. -/
def site? : Continuation → Option FrameId
  | .template _ _ frame | .gather _ _ _ frame | .assign _ frame _ | .binaryRight _ _ frame _
  | .logicalRight _ _ frame | .subscript _ frame _ | .receiver _ _ _ frame _ | .callee _ frame _
  | .field _ _ _ frame _ | .statements _ frame | .declare _ frame | .branch _ _ frame => some frame
  | .whileTest loop _ | .whileBody loop _ => some loop.frame
  | .rangeFirst loop _ | .rangeLast loop _ | .rangeStep loop _ _ _ => some loop.frame
  | .rangeBody pass => some pass.loop.frame
  | .repeatCount loop _ | .repeatStart loop _ _ => some loop.frame
  | .repeatBody pass => some pass.loop.frame
  | .condition _ b _ | .log _ _ b _ | .watch _ _ _ _ b _ => some b.frame
  | .sketched _ _ => some .global
  | .binary _ _ _ | .truth | .unary _ _ | .index _ _ | .member _ _ | .activation _ | .giveBack
  | .discard => none

def IsIn (stock : Stock) : Continuation → Prop
  | .gather purpose values _ _ =>
    purpose.MadeOf stock.callables ∧ ∀ value ∈ values, value.MadeOf stock.callables
  | .binary _ left _ => left.MadeOf stock.callables
  | .index target _ => target.MadeOf stock.callables
  | .field _ rest fields _ home => stock.Members home rest ∧ fields.MadeOf stock.callables
  | .statements rest frame => stock.Statements frame rest
  | .branch thenBranch elseBranch frame =>
    stock.Statements frame thenBranch.statements ∧
      ∀ body ∈ elseBranch, stock.Statements frame body.statements
  | .whileTest loop _ | .whileBody loop _ => stock.Statements loop.frame loop.body.statements
  | .rangeFirst loop _ | .rangeLast loop _ | .rangeStep loop _ _ _ =>
    stock.Statements loop.frame loop.body.statements
  | .rangeBody pass => stock.Statements pass.loop.frame pass.loop.body.statements
  | .repeatCount loop _ | .repeatStart loop _ _ => stock.Statements loop.frame loop.body.statements
  | .repeatBody pass => stock.Statements pass.loop.frame pass.loop.body.statements
  | .condition _ b _ | .log _ _ b _ | .watch _ _ _ _ b _ => b.IsIn stock
  | .sketched _ rest => ∀ line ∈ rest, stock.line line
  | _ => True

def Fits (stock : Stock) (here : FrameId) (k : Continuation) : Prop :=
  k.site?.getD here = here ∧ k.IsIn stock

def assigns : Continuation → Result → Bool
  | .assign _ _ _, .value _ => true
  | _, _ => false

def AllFit (stock : Stock) : List Continuation → Prop
  | [] => True
  | k :: rest => k.Fits stock (.innermost (frames (k :: rest))) ∧ AllFit stock rest

lemma frames_cons (k) (rest) : frames (k :: rest) = k.closes?.toList ++ frames rest := by
  unfold frames
  rw [filterMap_cons]
  cases k.closes? <;> rfl

lemma calls_sublist (stack) : (calls stack).Sublist (frames stack) := by
  induction stack with
  | nil => exact .refl _
  | cons k _ ih =>
    cases k with
    | activation frame => exact ih.cons_cons frame
    | field _ _ _ frame => exact ih.cons frame
    | _ => exact ih

end Continuation

namespace Control

def closes? : Control → Option FrameId
  | .build _ _ frame _ => some frame
  | _ => none

/-- The frame in which a run now works. -/
def site? : Control → Option FrameId
  | .evaluate _ frame | .template _ _ frame | .gather _ _ _ frame | .build _ _ frame _
  | .statements _ frame => some frame
  | .rangePass pass => some pass.loop.frame
  | .repeatPass pass => some pass.loop.frame
  | .boundary b | .arrived b | .log _ _ b _ | .watch _ _ _ b _ | .proceed b
  | .waiting (.yielded b) | .waiting (.paused b _) => some b.frame
  | .lines _ | .finished _ => some .global
  | .deliver _ | .waiting (.input _ _) => none

def IsIn (stock : Stock) : Control → Prop
  | .gather purpose values _ _ =>
    purpose.MadeOf stock.callables ∧ ∀ value ∈ values, value.MadeOf stock.callables
  | .build rest fields _ home => stock.Members home rest ∧ fields.MadeOf stock.callables
  | .statements rest frame => stock.Statements frame rest
  | .rangePass pass => stock.Statements pass.loop.frame pass.loop.body.statements
  | .repeatPass pass => stock.Statements pass.loop.frame pass.loop.body.statements
  | .boundary b | .arrived b | .log _ _ b _ | .watch _ _ _ b _ | .proceed b
  | .waiting (.yielded b) | .waiting (.paused b _) => b.IsIn stock
  | .lines rest => ∀ line ∈ rest, stock.line line
  | .deliver result => result.MadeOf stock.callables
  | _ => True

def Fits (stock : Stock) (here : FrameId) (control : Control) : Prop :=
  control.site?.getD here = here ∧ control.IsIn stock

end Control

namespace Machine
variable {k : Continuation} {frame : FrameId}

def openFrames (own : Option FrameId) (m : Machine) : List FrameId :=
  own.toList ++ Continuation.frames m.stack

def innermost (own : Option FrameId) (m : Machine) : FrameId := .innermost (m.openFrames own)

def frames (m : Machine) : List FrameId := m.openFrames m.control.closes?

structure Standing (stock : Stock) (limit : Nat) (own : Option FrameId) (m : Machine) : Prop where
  environment : m.environment.MadeOf stock.callables
  nests : m.environment.Nests (m.openFrames own)
  stack : Continuation.AllFit stock m.stack
  depth : m.depth = (Continuation.calls m.stack).length
  bounded : m.depth ≤ limit

structure Framed (stock : Stock) (limit : Nat) (m : Machine) : Prop where
  standing : Standing stock limit m.control.closes? m
  fits : m.control.Fits stock (.innermost m.frames)

/-- A run leads to another one by one turn, and changes its stack at the top only. -/
structure Leads (assigning : Prop) (stock : Stock) (limit : Nat) (own : Option FrameId)
    (m next : Machine) : Prop where
  framed : next.Framed stock limit
  turn : m.environment.Turn stock.IsHome assigning (m.openFrames own) next.environment next.frames
  stack : next.stack = m.stack ∨ ∃ k, next.stack = k :: m.stack

structure Ground (assigning : Prop) (stock : Stock) (limit : Nat) (own : Option FrameId) (m : Machine)
    (owns : Option FrameId) (now : Machine) : Prop where
  standing : Standing stock limit owns now
  turn : m.environment.Turn stock.IsHome assigning (m.openFrames own) now.environment
    (now.openFrames owns)
  stack : now.stack = m.stack

variable {assigning : Prop} {stock : Stock} {limit : Nat} {m now : Machine}

/-! ### Turns of a run -/

namespace Standing

section
variable (standing : Standing stock limit own m)
include standing

lemma ground : Ground assigning stock limit own m own m :=
  ⟨standing, .rests, rfl⟩

lemma like (environment : now.environment = m.environment) (stack : now.stack = m.stack)
    (depth : now.depth = m.depth) : Ground assigning stock limit own m own now := by
  cases m
  cases now
  subst environment stack depth
  exact ⟨⟨standing.environment, standing.nests, standing.stack, standing.depth, standing.bounded⟩,
    .rests, rfl⟩

lemma define (here : frame = m.innermost own) (name) (made : value.MadeOf stock.callables) :
    Ground assigning stock limit own m own (m.define frame name value) := by
  subst here
  exact ⟨⟨standing.environment.define _ name made, standing.nests.define _ name value,
    standing.stack, standing.depth, standing.bounded⟩, .binds name value, rfl⟩

lemma assign (may : assigning) (here : frame = m.innermost own) (made :
    value.MadeOf stock.callables) {environment : Environment Value} (assigned :
    m.environment.assign? frame name value = some environment) : Ground assigning stock limit own m
    own { m with environment } := by
  subst here
  have turn : m.environment.Turn stock.IsHome assigning (m.openFrames own) environment
      (m.openFrames own) := .assigns may assigned
  exact ⟨⟨standing.environment.assign made assigned, standing.nests.turn turn, standing.stack,
    standing.depth, standing.bounded⟩, turn, rfl⟩

end

lemma close (standing : Standing stock limit (some frame) m) : Ground assigning stock limit
    (some frame) m none { m with environment := m.environment.pop frame } :=
  ⟨⟨standing.environment.pop frame, standing.nests.pop, standing.stack, standing.depth,
    standing.bounded⟩, .closes rfl, rfl⟩

end Standing

namespace Ground
variable (ground : Ground assigning stock limit own m owns now)
include ground

lemma into {control : Control} (closes : control.closes? = owns)
    (fits : control.Fits stock (now.innermost owns)) :
    Leads assigning stock limit own m (now.into control) := by
  subst closes
  have standing : Standing stock limit control.closes? (now.into control) :=
    ⟨ground.standing.environment, ground.standing.nests, ground.standing.stack,
      ground.standing.depth, ground.standing.bounded⟩
  exact ⟨⟨standing, fits⟩, ground.turn, .inl ground.stack⟩

lemma push {control : Control} (closes : k.closes? = owns) (calm : k.called? = none)
    (plain : control.closes? = none) (makes : k.Fits stock (now.innermost owns))
    (fits : control.Fits stock (now.innermost owns)) :
    Leads assigning stock limit own m (now.push k control) := by
  subst closes
  have frames : (now.push k control).frames = now.openFrames k.closes? := by
    rw [frames, openFrames, push, plain]
    exact Continuation.frames_cons k now.stack
  have calls : Continuation.calls (k :: now.stack) = Continuation.calls now.stack :=
    filterMap_cons_none calm
  have nests : (now.push k control).environment.Nests (now.push k control).frames :=
    frames.symm ▸ ground.standing.nests
  refine ⟨⟨⟨ground.standing.environment, nests, ⟨?_, ground.standing.stack⟩, ?_,
    ground.standing.bounded⟩, frames.symm ▸ fits⟩, frames.symm ▸ ground.turn,
    .inr ⟨k, congrArg (k :: ·) ground.stack⟩⟩
  · rw [Continuation.frames_cons]
    exact makes
  · exact ground.standing.depth.trans (congrArg length calls.symm)

lemma evaluate (here : frame = now.innermost owns) (closes : k.closes? = owns)
    (calm : k.called? = none) (makes : k.Fits stock (now.innermost owns)) :
    Leads assigning stock limit own m (now.evaluate k e frame) :=
  ground.push closes calm rfl makes ⟨here, trivial⟩

variable (outside : owns = none)
include outside

lemma fail (fault) (location) : Leads assigning stock limit own m (now.fail fault location) :=
  ground.into outside.symm ⟨rfl, trivial⟩

lemma give (made : value.MadeOf stock.callables) : Leads assigning stock limit own m (now.give value) :=
  ground.into outside.symm ⟨rfl, made⟩

lemma giveOrFail (gives : GivesMadeOf stock.callables result) (location) :
    Leads assigning stock limit own m (now.giveOrFail result location) := by
  cases result with
  | ok => exact ground.give outside gives
  | error fault => exact ground.fail outside fault location

lemma flow {flow : Flow} (made : (Result.flow flow).MadeOf stock.callables) :
    Leads assigning stock limit own m (now.flow flow) :=
  ground.into outside.symm ⟨rfl, made⟩

end Ground

lemma Standing.openWith (standing : Standing stock limit none m) (known : stock.IsHome home)
    (made : ∀ binding ∈ bindings, binding.2.MadeOf stock.callables) :
    (m.environment.openWith home bindings).1.MadeOf stock.callables ∧ m.environment.Turn stock.IsHome
    assigning (m.openFrames none) (m.environment.openWith home bindings).1
    ((m.environment.openWith home bindings).2 :: Continuation.frames m.stack) :=
  ⟨(standing.environment.push home).defineAll _ made, .opens known bindings⟩

section Steps
variable {stack : List Continuation}

section Standing
variable (standing : Standing stock limit none m)
include standing

/-! ### Expressions and calls -/

lemma stepExpr_leads (e) (here : frame = m.innermost none) :
    Leads assigning stock limit none m (m.stepExpr e frame) := by
  have ground : Ground assigning stock limit _ m _ m := standing.ground
  unfold stepExpr
  split
  · exact ground.give rfl (.number _)
  · exact ground.give rfl (.string _)
  · exact ground.give rfl (.bool _)
  · exact ground.give rfl .null
  · exact ground.into rfl ⟨here, trivial⟩
  · exact ground.into rfl ⟨here, trivial, forall_mem_nil _⟩
  · split
    · next found => exact ground.give rfl (standing.environment.get found)
    · exact ground.fail rfl _ _
  · exact ground.evaluate here rfl rfl ⟨here, trivial⟩
  · exact ground.evaluate here rfl rfl ⟨here, trivial⟩
  · exact ground.evaluate here rfl rfl ⟨here, trivial⟩
  · exact ground.evaluate here rfl rfl ⟨rfl, trivial⟩
  · exact ground.evaluate here rfl rfl ⟨here, trivial⟩
  · exact ground.evaluate here rfl rfl ⟨rfl, trivial⟩
  · split
    · exact ground.evaluate here rfl rfl ⟨here, trivial⟩
    · dsimp only
      split
      · exact ground.into rfl ⟨here, trivial, forall_mem_nil _⟩
      · exact ground.evaluate here rfl rfl ⟨here, trivial⟩
    · exact ground.evaluate here rfl rfl ⟨here, trivial⟩

lemma call_leads (below : m.depth < limit) (known : stock.callables.function decl home)
    (made : ∀ binding ∈ bindings, binding.2.MadeOf stock.callables) :
    Leads assigning stock limit none m
      (({ m with environment := (m.environment.openWith home bindings).1, depth := m.depth + 1 }).push
        (.activation (m.environment.openWith home bindings).2)
        (.statements decl.body.statements (m.environment.openWith home bindings).2)) := by
  obtain ⟨environment, turn⟩ := standing.openWith (.inl ⟨decl, known⟩) made
  have calls : m.depth + 1 = (Continuation.calls m.stack).length + 1 :=
    congrArg (· + 1) standing.depth
  have framed : Standing stock limit none
      (({ m with environment := (m.environment.openWith home bindings).1, depth := m.depth + 1 }).push
        (.activation (m.environment.openWith home bindings).2)
        (.statements decl.body.statements (m.environment.openWith home bindings).2)) :=
    ⟨environment, standing.nests.turn turn, ⟨⟨rfl, trivial⟩, standing.stack⟩, calls, below⟩
  exact ⟨⟨framed, rfl, stock.called known _⟩, turn, .inr ⟨_, rfl⟩⟩

lemma applyValue_leads (allowed : maxDepth ≤ limit) (called : callee.MadeOf stock.callables)
    (given : ∀ arg ∈ args, arg.MadeOf stock.callables)
    (object : ∀ self ∈ receiver, self.MadeOf stock.callables) (location) :
    Leads assigning stock limit none m (m.applyValue maxDepth callee args receiver location) := by
  have ground : Ground assigning stock limit _ m _ m := standing.ground
  unfold applyValue
  split
  · next decl _ =>
    split
    · exact ground.fail rfl _ _
    · split
      · exact ground.fail rfl _ _
      · next within =>
        have below : m.depth < limit := Nat.lt_of_lt_of_le (Nat.lt_of_not_le within) allowed
        have values : ∀ entry ∈ decl.params.zip args, entry.2.MadeOf stock.callables :=
          fun entry mem => given entry.2 (of_mem_zip mem).2
        cases called with
        | function known =>
          cases receiver with
          | none => exact call_leads standing below known values
          | some self =>
            have bindings : ∀ entry ∈ ("self", self) :: decl.params.zip args,
                entry.2.MadeOf stock.callables :=
              forall_mem_cons.mpr ⟨object self rfl, values⟩
            exact call_leads standing below known bindings
  · next decl home =>
    split
    · cases called with
      | classDef known =>
        have nothing : ∀ binding ∈ ([] : List (String × Value)), binding.2.MadeOf stock.callables :=
          forall_mem_nil _
        obtain ⟨environment, turn⟩ := standing.openWith (.inr ⟨decl, known⟩) nothing
        have opened : Ground assigning stock limit none m (some (m.environment.push home).2)
            { m with environment := (m.environment.push home).1 } :=
          ⟨⟨environment, standing.nests.turn turn, standing.stack, standing.depth, standing.bounded⟩,
            turn, rfl⟩
        exact opened.into rfl ⟨rfl, stock.method known, forall_mem_nil _⟩
    · exact ground.fail rfl _ _
  · exact ground.fail rfl _ _

lemma complete_leads (allowed : e.config.maxCallDepth ≤ limit) (known : purpose.MadeOf stock.callables)
    (given : ∀ value ∈ values, value.MadeOf stock.callables) :
    Leads assigning stock limit none m (m.complete e purpose values).2 := by
  have ground : Ground assigning stock limit _ m _ m := standing.ground
  unfold complete
  split
  · exact ground.give rfl (.array given)
  · exact applyValue_leads standing allowed known.1 given known.2 _
  · unfold applyBuiltin
    split
    · split
      · exact ground.fail rfl _ _
      · exact ground.into rfl ⟨rfl, trivial⟩
    · exact ground.giveOrFail rfl (Builtin.call_madeOf _ _) _
  · unfold print
    split
    · exact ground.fail rfl _ _
    · have printed (outputs) :
          Ground assigning stock limit none m none { m with outputs } :=
        standing.like rfl rfl rfl
      exact (printed _).flow rfl trivial

omit standing in
lemma stepBuild_leads (standing : Standing stock limit (some frame) m)
    (members : stock.Members home rest) (made : fields.MadeOf stock.callables) :
    Leads assigning stock limit (some frame) m (m.stepBuild rest fields frame home) := by
  have ground : Ground assigning stock limit _ m _ m := standing.ground
  have others {first : Stmt} {rest : List Stmt} (members : stock.Members home (first :: rest)) :
      stock.Members home rest :=
    fun decl location mem => members decl location (mem_cons_of_mem _ mem)
  unfold stepBuild
  split
  · exact standing.close.give rfl (.object made)
  · exact ground.evaluate rfl rfl rfl ⟨rfl, others members, made⟩
  · exact (standing.define rfl _ .null).into rfl ⟨rfl, others members, made.insert _ .null⟩
  · have method := members _ _ mem_cons_self
    exact ground.into rfl ⟨rfl, others members, made.insert _ (.function method)⟩
  · exact ground.into rfl ⟨rfl, others members, made⟩

lemma perform_leads (here : frame = m.innermost none) (known : stock.statement frame s) :
    Leads assigning stock limit none m (m.perform s frame) := by
  have ground : Ground assigning stock limit _ m _ m := standing.ground
  have inside := stock.inside known
  unfold perform
  split
  · split
    · exact ground.evaluate here rfl rfl ⟨here, trivial⟩
    · exact (standing.define here _ .null).flow rfl trivial
  · exact (standing.define here _ (.function (stock.function known))).flow rfl trivial
  · exact (standing.define here _ (.classDef (stock.classDef known))).flow rfl trivial
  · refine ground.evaluate here rfl rfl ⟨here, inside _ mem_cons_self, fun body mem => ?_⟩
    exact inside body (mem_cons_of_mem _ (Option.mem_toList.mpr mem))
  · exact ground.evaluate here rfl rfl ⟨here, inside _ mem_cons_self⟩
  · exact ground.evaluate here rfl rfl ⟨here, inside _ mem_cons_self⟩
  · exact ground.evaluate here rfl rfl ⟨here, inside _ mem_cons_self⟩
  · exact ground.into rfl ⟨here, inside _ mem_cons_self⟩
  · split
    · exact ground.evaluate here rfl rfl ⟨rfl, trivial⟩
    · exact ground.flow rfl .null
  · exact ground.into rfl ⟨here, trivial, forall_mem_nil _⟩
  · exact ground.flow rfl trivial
  · exact ground.flow rfl trivial
  · exact ground.evaluate here rfl rfl ⟨rfl, trivial⟩

lemma stepRange_leads (maxPasses) {pass : RangePass} (here : pass.loop.frame = m.innermost none)
    (known : stock.Statements pass.loop.frame pass.loop.body.statements) :
    Leads assigning stock limit none m (m.stepRange maxPasses pass) := by
  unfold stepRange
  split
  · split
    · exact standing.ground.fail rfl _ _
    · exact (standing.define here _ (.number _)).push rfl rfl rfl ⟨here, known⟩ ⟨here, known⟩
  · exact standing.ground.flow rfl trivial

lemma stepRepeat_leads (maxPasses) {pass : RepeatPass} (here : pass.loop.frame = m.innermost none)
    (known : stock.Statements pass.loop.frame pass.loop.body.statements) :
    Leads assigning stock limit none m (m.stepRepeat maxPasses pass) := by
  unfold stepRepeat
  split
  · split
    · exact standing.ground.fail rfl _ _
    · split
      · exact (standing.define here _ (.number _)).push rfl rfl rfl ⟨here, known⟩ ⟨here, known⟩
      · exact standing.ground.push rfl rfl rfl ⟨here, known⟩ ⟨here, known⟩
  · exact standing.ground.flow rfl trivial

/-! ### Boundaries and the debugger -/

section
variable {b : Boundary} (here : b.frame = m.innermost none) (known : b.IsIn stock)
include here known

lemma Crosses.leads (crosses : Crosses b m now) : Leads assigning stock limit none m now := by
  have counted (crossed) : Ground assigning stock limit none m none { m with crossed } :=
    standing.like rfl rfl rfl
  cases crosses with
  | unnoticed => exact standing.ground.into rfl ⟨here, known⟩
  | stops fault => exact standing.ground.fail rfl fault _
  | yields crossed | arrives crossed => exact (counted crossed).into rfl ⟨here, known⟩

omit known in
lemma evaluateMuted_leads (e) (plain : k.closes? = none) (calm : k.called? = none)
    (makes : k.Fits stock (m.innermost none)) :
    Leads assigning stock limit none m (m.evaluateMuted k e b.frame) := by
  have muted : Ground assigning stock limit none m none { m with muted := true } :=
    standing.like rfl rfl rfl
  exact muted.evaluate here plain calm makes

lemma Attends.leads (attends : Attends b m now) : Leads assigning stock limit none m now := by
  cases attends with
  | proceeds | logs | watches => exact standing.ground.into rfl ⟨here, known⟩
  | asksCondition | asksLog => exact evaluateMuted_leads standing here _ rfl rfl ⟨here, known⟩

lemma probe_leads (e) (shown : k.shown? = some b) (result) :
    Leads assigning stock limit none m (m.deliverTo e k result).2 := by
  have heard : Standing stock limit none { m with muted := false } :=
    ⟨standing.environment, standing.nests, standing.stack, standing.depth, standing.bounded⟩
  have leads : Leads assigning stock limit none { m with muted := false } _ :=
    (m.deliverTo_attends e shown result).leads heard here known
  exact ⟨leads.framed, leads.turn, leads.stack⟩

lemma stepWatch_leads (e) (rest) (values bindings) (stop) :
    Leads assigning stock limit none m (m.stepWatch e rest values bindings b stop).2 := by
  unfold stepWatch
  split
  · exact standing.ground.into rfl ⟨here, known⟩
  · exact evaluateMuted_leads standing here _ rfl rfl ⟨here, known⟩

lemma proceed_leads : Leads assigning stock limit none m (m.proceed b) := by
  cases b with
  | statement => exact perform_leads standing here known
  | line line =>
    unfold proceed
    dsimp only
    split
    · next program parsed =>
      have accepted : (analyzeUnit line.number line.text).program = some program := by
        split at parsed
        · exact parsed
        · cases parsed
      have muted : Ground assigning stock limit none m none { m with muted := true } :=
        standing.like rfl rfl rfl
      exact muted.push rfl rfl rfl ⟨here, known.2⟩ ⟨here, stock.alone known.1 accepted⟩
    · exact standing.ground.into rfl ⟨here, known.2⟩

end

omit standing in
lemma Resumes.leads {next : Engine × Machine} (framed : m.Framed stock limit)
    (control : m.control = .waiting wait) (resumes : Resumes e m wait next) :
    Leads assigning stock limit none m next.2 := by
  obtain ⟨standing, fits⟩ := framed
  have stays : Leads assigning stock limit none m m := by
    refine ⟨⟨standing, fits⟩, ?_, .inl rfl⟩
    rw [frames, control]
    exact .rests
  rw [frames, control] at fits
  rw [control] at standing
  have rested (excluded) : Ground assigning stock limit none m none { m with excluded } :=
    standing.like rfl rfl rfl
  cases resumes with
  | stays => exact stays
  | stops _ _ excluded fault location => exact (rested excluded).fail rfl fault location
  | arrives => exact standing.ground.into rfl fits
  | proceeds _ _ excluded => exact (rested excluded).into rfl fits
  | answers _ _ _ excluded text => exact (rested excluded).give rfl (.string text)

/-! ### Results -/

lemma withNumber_leads (role) (value) (place) (goes : ∀ x, Leads assigning stock limit none m (go
    x)) : Leads assigning stock limit none m (m.withNumber role value place go) := by
  unfold withNumber
  split
  · exact goes _
  · exact standing.ground.fail rfl _ _

lemma startRange_leads (here : loop.frame = m.innermost none)
    (known : stock.Statements loop.frame loop.body.statements) (first last step) :
    Leads assigning stock limit none m (m.startRange loop first last step) := by
  unfold startRange
  split
  · exact standing.ground.fail rfl _ _
  · exact standing.ground.into rfl ⟨here, known⟩

lemma acceptValue_leads (e) (fits : k.Fits stock (m.innermost none)) (plain : k.closes? = none)
    (made : value.MadeOf stock.callables)
    (may : ∀ name frame location, k = .assign name frame location → assigning) :
    Leads assigning stock limit none m (m.acceptValue e k value) := by
  have ground : Ground assigning stock limit _ m _ m := standing.ground
  obtain ⟨here, known⟩ := fits
  cases k with
  | activation | field => cases plain
  | template => exact ground.into rfl ⟨here, trivial⟩
  | gather =>
    exact ground.into rfl ⟨here, known.1, forall_mem_cons.mpr ⟨made, known.2⟩⟩
  | assign =>
    unfold acceptValue
    dsimp only
    split
    · next assigned => exact (standing.assign (may _ _ _ rfl) here made assigned).give rfl made
    · exact ground.fail rfl _ _
  | binaryRight => exact ground.evaluate here rfl rfl ⟨rfl, made⟩
  | binary op _ location =>
    exact ground.giveOrFail rfl (Value.binary_madeOf op known made) location
  | logicalRight =>
    unfold acceptValue
    dsimp only
    split
    · exact ground.give rfl (.bool _)
    · exact ground.give rfl (.bool _)
    · exact ground.evaluate here rfl rfl ⟨rfl, trivial⟩
  | truth => exact ground.give rfl (.bool _)
  | unary op location => exact ground.giveOrFail rfl (Value.unary_madeOf op value) location
  | subscript => exact ground.evaluate here rfl rfl ⟨rfl, made⟩
  | index _ location => exact ground.giveOrFail rfl (Value.index_madeOf known) location
  | member name location => exact ground.giveOrFail rfl (Value.member_madeOf made name) location
  | receiver name =>
    have found := Value.member_madeOf made name
    unfold acceptValue
    dsimp only
    split
    · next _ present =>
      refine ground.into rfl ⟨here, ⟨found.of_ok present, ?_⟩, forall_mem_nil _⟩
      rintro _ ⟨⟩
      exact made
    · exact ground.fail rfl _ _
  | callee => exact ground.into rfl ⟨here, ⟨made, nofun⟩, forall_mem_nil _⟩
  | declare name => exact (standing.define here name made).flow rfl trivial
  | branch =>
    unfold acceptValue
    dsimp only
    split
    · exact ground.into rfl ⟨here, known.1⟩
    · split
      · exact ground.into rfl ⟨here, known.2 _ rfl⟩
      · exact ground.flow rfl trivial
  | whileTest =>
    unfold acceptValue
    dsimp only
    split
    · split
      · exact ground.fail rfl _ _
      · exact ground.push rfl rfl rfl ⟨here, known⟩ ⟨here, known⟩
    · exact ground.flow rfl trivial
  | rangeFirst =>
    exact withNumber_leads standing _ _ _ fun first =>
      ground.evaluate here rfl rfl ⟨here, known⟩
  | rangeLast =>
    refine withNumber_leads standing _ _ _ fun _ => ?_
    split
    · exact ground.evaluate here rfl rfl ⟨here, known⟩
    · exact startRange_leads standing here known _ _ _
  | rangeStep =>
    exact withNumber_leads standing _ _ _ fun _ => startRange_leads standing here known _ _ _
  | repeatCount =>
    refine withNumber_leads standing _ _ _ fun _ => ?_
    split
    · exact ground.evaluate here rfl rfl ⟨here, known⟩
    · exact ground.into rfl ⟨here, known⟩
  | repeatStart =>
    exact withNumber_leads standing _ _ _ fun first => ground.into rfl ⟨here, known⟩
  | giveBack => exact ground.flow rfl made
  | discard => exact ground.flow rfl trivial
  | statements | whileBody | rangeBody | repeatBody | condition | log | watch | sketched =>
    exact ground.give rfl made

lemma acceptFlow_leads (fits : k.Fits stock (m.innermost none)) {flow : Flow}
    (made : (Result.flow flow).MadeOf stock.callables) :
    Leads assigning stock limit none m (m.acceptFlow k flow) := by
  have ground : Ground assigning stock limit _ m _ m := standing.ground
  unfold acceptFlow
  split
  · exact ground.into rfl fits
  · exact ground.flow rfl trivial
  · exact ground.flow rfl trivial
  · exact ground.flow rfl trivial
  · exact ground.flow rfl made
  · exact ground.flow rfl made
  · exact ground.flow rfl made
  · exact ground.evaluate fits.1 rfl rfl fits
  · exact ground.into rfl fits
  · exact ground.into rfl fits
  · exact ground.flow rfl made

lemma return_leads (top : m.stack = .activation frame :: stack) :
    Ground assigning stock limit (some frame) { m with stack } none
      { m with environment := m.environment.pop frame, depth := m.depth - 1, stack } := by
  have fits : Continuation.AllFit stock (.activation frame :: stack) := top ▸ standing.stack
  have open_frames : m.openFrames none = frame :: Continuation.frames stack := by
    rw [openFrames, top]
    rfl
  have depth : m.depth = (Continuation.calls stack).length + 1 := by
    rw [standing.depth, top]
    rfl
  refine ⟨⟨standing.environment.pop frame, (open_frames ▸ standing.nests).pop, fits.2, ?_, ?_⟩,
    .closes rfl, rfl⟩
  · exact congrArg (· - 1) depth
  · exact Nat.le_trans (Nat.sub_le _ _) standing.bounded

lemma Standing.popped (top : m.stack = k :: stack) (calm : k.called? = none) : Standing stock
    limit k.closes? { m with stack } ∧ k.Fits stock
    (({ m with stack } : Machine).innermost k.closes?) := by
  have fits : Continuation.AllFit stock (k :: stack) := top ▸ standing.stack
  have open_frames : m.openFrames none = ({ m with stack } : Machine).openFrames k.closes? := by
    rw [openFrames, top, Continuation.frames_cons]
    rfl
  refine ⟨⟨standing.environment, open_frames ▸ standing.nests, fits.2, ?_, standing.bounded⟩, ?_⟩
  · have calls : Continuation.calls (k :: stack) = Continuation.calls stack :=
      filterMap_cons_none calm
    rw [← calls, ← top]
    exact standing.depth
  · rw [innermost, openFrames, ← Continuation.frames_cons]
    exact fits.1

lemma deliverTo_leads (top : m.stack = k :: stack) (e) (made : result.MadeOf stock.callables)
    (may : k.assigns result = true → assigning) : Leads assigning stock limit k.closes?
    { m with stack } (({ m with stack } : Machine).deliverTo e k result).2 := by
  cases k with
  | activation =>
    cases result with
    | value => exact (return_leads standing top).give rfl .null
    | failure => exact (return_leads standing top).fail rfl _ _
    | flow flow =>
      cases flow with
      | giveBack => exact (return_leads standing top).give rfl made
      | _ => exact (return_leads standing top).give rfl .null
  | field name =>
    obtain ⟨popped, _, members, entries⟩ := standing.popped top rfl
    cases result with
    | value =>
      exact (popped.define rfl name made).into rfl ⟨rfl, members, entries.insert name made⟩
    | flow flow => exact popped.close.flow rfl made
    | failure => exact popped.close.fail rfl _ _
  | condition _ b _ | log _ _ b _ | watch _ _ _ _ b _ =>
    obtain ⟨popped, here, known⟩ := standing.popped top rfl
    exact probe_leads popped here known e rfl result
  | sketched =>
    obtain ⟨popped, here, known⟩ := standing.popped top rfl
    have heard : Ground assigning stock limit none { m with stack } none
        { m with stack, muted := false } := popped.like rfl rfl rfl
    cases result with
    | failure =>
      simp only [deliverTo]
      split
      · exact heard.fail rfl _ _
      · exact heard.into rfl ⟨here, known⟩
    | _ => exact heard.into rfl ⟨here, known⟩
  | _ =>
    obtain ⟨popped, fits⟩ := standing.popped top rfl
    cases result with
    | value =>
      exact acceptValue_leads popped e fits rfl made fun _ _ _ same => may (by rw [same]; rfl)
    | flow => exact acceptFlow_leads popped fits made
    | failure => exact popped.ground.fail rfl _ _

end Standing

/-! ### Steps -/

def base (m : Machine) : List Continuation :=
  match m.control with
  | .deliver _ => m.stack.tail
  | _ => m.stack

def isAssigning (m : Machine) : Bool :=
  match m.control with
  | .deliver result => m.stack.head?.any fun k => k.assigns result
  | _ => false

structure Advances (stock : Stock) (limit : Nat) (m next : Machine) : Prop where
  framed : next.Framed stock limit
  turn : m.environment.Turn stock.IsHome (m.isAssigning = true) m.frames next.environment next.frames
  stack : next.stack = m.base ∨ ∃ k, next.stack = k :: m.base

lemma Advances.inside {next : Machine} (advances : Advances stock limit m next)
    {top below : List Continuation} (stack : m.stack = top ++ k :: below)
    (working : ¬(top = [] ∧ ∃ result, m.control = .deliver result)) :
    ∃ further, next.stack = further ++ k :: below := by
  obtain ⟨rest, base⟩ : ∃ rest, m.base = rest ++ k :: below := by
    unfold base
    split
    · next result control =>
      cases top with
      | nil => exact absurd ⟨rfl, result, control⟩ working
      | cons _ rest => exact ⟨rest, by rw [stack]; rfl⟩
    · exact ⟨top, stack⟩
  obtain same | ⟨other, pushed⟩ := advances.stack
  · exact ⟨rest, same.trans base⟩
  · exact ⟨other :: rest, pushed.trans (congrArg (other :: ·) base)⟩

lemma Leads.advances {next : Machine}
    (leads : Leads (m.isAssigning = true) stock limit m.control.closes? m next)
    (keeps : m.base = m.stack) : Advances stock limit m next :=
  ⟨leads.framed, leads.turn, keeps.symm ▸ leads.stack⟩

lemma Framed.deliver (framed : m.Framed stock limit) (e) (shape : m.control = .deliver result) :
    Advances stock limit m (m.deliver e result).2 := by
  obtain ⟨standing, -, known⟩ := framed
  rw [shape] at standing known
  have base_eq : m.base = m.stack.tail := by rw [base, shape]
  have frames_eq : m.frames = m.openFrames none := by rw [frames, shape]; rfl
  cases top : m.stack with
  | nil =>
    have ended (error) :
        Leads (m.isAssigning = true) stock limit none m (m.into (.finished error)) := by
      refine standing.ground.into rfl ⟨?_, trivial⟩
      rw [innermost, openFrames, top]
      rfl
    have leads : Leads (m.isAssigning = true) stock limit none m (m.deliver e result).2 := by
      simp only [Machine.deliver, top]
      split
      · exact ended _
      · exact ended _
    have keeps : m.base = m.stack := by rw [base_eq, top]; rfl
    exact ⟨leads.framed, frames_eq ▸ leads.turn, keeps ▸ leads.stack⟩
  | cons k stack =>
    have leads : Leads (m.isAssigning = true) stock limit k.closes? { m with stack }
        (({ m with stack } : Machine).deliverTo e k result).2 := by
      refine deliverTo_leads standing top e known fun assigns => ?_
      rw [isAssigning, shape, top]
      exact assigns
    have whole : m.openFrames none = ({ m with stack } : Machine).openFrames k.closes? := by
      rw [openFrames, top, Continuation.frames_cons]
      rfl
    have below : m.base = stack := by rw [base_eq, top]; rfl
    have delivered : m.deliver e result = ({ m with stack } : Machine).deliverTo e k result := by
      simp only [Machine.deliver, top]
    rw [delivered]
    exact ⟨leads.framed, frames_eq.trans whole ▸ leads.turn, below ▸ leads.stack⟩

lemma Framed.go (framed : m.Framed stock limit) {e : Engine} (allowed : e.config.maxCallDepth ≤ limit)
    (busy : ∀ result, m.control ≠ .deliver result) :
    Leads assigning stock limit m.control.closes? m (m.step e).2 := by
  have whole := framed
  obtain ⟨standing, here, known⟩ := framed
  have ground : Ground assigning stock limit _ m _ m := standing.ground
  rw [frames] at here
  unfold step
  generalize shape : m.control = control at standing here known ground busy ⊢
  cases control with
  | evaluate expr => exact stepExpr_leads standing expr here
  | template _ rest =>
    cases rest with
    | nil => exact ground.give rfl (.string _)
    | cons piece =>
      cases piece with
      | literal => exact ground.into rfl ⟨here, trivial⟩
      | placeholder => exact ground.evaluate here rfl rfl ⟨here, trivial⟩
  | gather _ values rest =>
    cases rest with
    | nil =>
      have given : ∀ value ∈ values.reverse, value.MadeOf stock.callables :=
        fun value mem => known.2 value (mem_reverse.mp mem)
      exact complete_leads standing allowed known.1 given
    | cons => exact ground.evaluate here rfl rfl ⟨here, known⟩
  | build => exact stepBuild_leads standing known.1 known.2
  | statements rest =>
    cases rest with
    | nil => exact ground.flow rfl trivial
    | cons first =>
      obtain ⟨first, others⟩ := forall_mem_cons.mp known
      exact ground.push rfl rfl rfl ⟨here, others⟩ ⟨here, first⟩
  | rangePass => exact stepRange_leads standing _ here known
  | repeatPass => exact stepRepeat_leads standing _ here known
  | boundary b => exact (m.stepBoundary_crosses e b).leads standing here known
  | arrived b => exact (m.arrive_attends e b).leads standing here known
  | log text rest _ mode => exact (m.stepLog_attends e text rest mode).leads standing here known
  | watch rest values bindings _ stop =>
    exact stepWatch_leads standing here known e rest values bindings stop
  | proceed => exact proceed_leads standing here known
  | lines rest =>
    cases rest with
    | nil => exact ground.flow rfl trivial
    | cons => exact ground.into rfl ⟨here, forall_mem_cons.mp known⟩
  | deliver result => exact absurd rfl (busy result)
  | waiting wait => exact (m.resume_resumes e wait).leads whole shape
  | finished =>
    refine ⟨whole, ?_, .inl rfl⟩
    rw [frames, shape]
    exact .rests

lemma Framed.step (framed : m.Framed stock limit) {e : Engine}
    (allowed : e.config.maxCallDepth ≤ limit) : Advances stock limit m (m.step e).2 := by
  by_cases hands : ∃ result, m.control = .deliver result
  · obtain ⟨_, shape⟩ := hands
    simp only [Machine.step, shape]
    exact framed.deliver e shape
  · have busy : ∀ result, m.control ≠ .deliver result := not_exists.mp hands
    refine (framed.go allowed busy).advances ?_
    unfold base
    split
    · next result shape => exact absurd shape (busy result)
    · rfl

lemma bindDeclarations_standing (standing : Standing stock limit none m) (outside : m.stack = [])
    (known : stock.Statements .global statements) : Standing stock limit none
    (m.bindDeclarations statements) ∧ (m.bindDeclarations statements).stack = [] := by
  induction statements generalizing m with
  | nil => exact ⟨standing, outside⟩
  | cons first _ ih =>
    obtain ⟨here, others⟩ := forall_mem_cons.mp known
    have inner : .global = m.innermost none := by
      rw [innermost, openFrames, outside]
      rfl
    cases first with
    | function decl =>
      have bound : Ground False _ _ _ _ _ _ :=
        standing.define inner decl.name (.function (stock.function here))
      exact ih bound.standing outside others
    | classDef decl =>
      have bound : Ground False _ _ _ _ _ _ :=
        standing.define inner decl.name (.classDef (stock.classDef here))
      exact ih bound.standing outside others
    | _ => exact ih standing outside others

lemma Framed.ofTarget (covers : stock.Covers target) (limit now) (budget) (debugging) :
    (ofTarget target now budget debugging).Framed stock limit := by
  have fresh : Standing stock limit none (initial now budget debugging) :=
    ⟨Environment.empty_madeOf, Environment.Nests.empty, trivial, rfl, Nat.zero_le _⟩
  cases target with
  | program program =>
    obtain ⟨bound, outside⟩ := bindDeclarations_standing fresh rfl covers
    have inner : .global =
        ((initial now budget debugging).bindDeclarations program.statements).innermost none := by
      rw [innermost, openFrames, outside]
      rfl
    have fits : (Control.statements program.statements .global).Fits stock _ := ⟨inner, covers⟩
    have leads : Leads False _ _ _ _ _ := bound.ground.into rfl fits
    exact leads.framed
  | sketch lines =>
    have fits : (Control.lines lines).Fits stock .global := ⟨rfl, covers⟩
    have leads : Leads False _ _ _ _ _ := fresh.ground.into rfl fits
    exact leads.framed

end Steps

end Machine

end Stepper
