import Stepper.Machine.Basic

/-! # Steps of a run -/

namespace Stepper.Machine

def stepExpr (m : Machine) (e : Expr) (frame : FrameId) : Machine :=
  match e with
  | .number x _ => m.give (.number x)
  | .string text _ => m.give (.string text)
  | .bool b _ => m.give (.bool b)
  | .null _ => m.give .null
  | .interpolated parts _ => m.into (.template "" parts frame)
  | .array items _ => m.into (.gather .array [] items frame)
  | .identifier name location =>
    match m.environment.get? frame name with
    | some value => m.give value
    | none => m.fail (.undefinedVariable name) location
  | .assign name value location => m.evaluate (.assign name frame location) value frame
  | .binary op left right location => m.evaluate (.binaryRight op right frame location) left frame
  | .logical op left right _ => m.evaluate (.logicalRight op right frame) left frame
  | .unary op operand location => m.evaluate (.unary op location) operand frame
  | .index target index location => m.evaluate (.subscript index frame location) target frame
  | .member target name location => m.evaluate (.member name location) target frame
  | .call callee args location =>
    match callee with
    | .member target name place => m.evaluate (.receiver name place args frame location) target frame
    | .identifier name place =>
      let builtin := if (m.environment.get? frame name).isNone then Builtin.ofName? name else none
      match builtin with
      | some b => m.into (.gather (.call (.builtin b) location) [] args frame)
      | none => m.evaluate (.callee args frame location) (.identifier name place) frame
    | other => m.evaluate (.callee args frame location) other frame

def applyValue (m : Machine) (maxDepth : Nat) (callee : Value) (args : List Value)
    (receiver : Option Value) (location : Location) : Machine :=
  match callee with
  | .function decl home =>
    if decl.params.length ≠ args.length then
      m.fail (.functionArity decl.name decl.params.length args.length) location
    else if maxDepth ≤ m.depth then m.fail (.callDepth maxDepth) location
    else
      let (environment, frame) := m.environment.push home
      let environment :=
        match receiver with
        | some object => environment.define frame "self" object
        | none => environment
      let environment :=
        (decl.params.zip args).foldl (fun env (name, value) => env.define frame name value)
          environment
      ({ m with environment, depth := m.depth + 1 }).push (.activation frame)
        (.statements decl.body.statements frame)
  | .classDef decl home =>
    if args.isEmpty then
      let (environment, frame) := m.environment.push home
      ({ m with environment }).into (.build decl.body.statements [] frame home)
    else m.fail (.classArity decl.name args.length) location
  | other => m.fail (.notCallable other.type) location

def applyBuiltin (e : Engine) (m : Machine) (b : Builtin) (args : List Value)
    (location : Location) : Engine × Machine :=
  match b with
  | .input =>
    match b.arityCheck args.length with
    | .error fault => (e, m.fail fault location)
    | .ok () =>
      let prompt := ((args.head?).map Value.text).getD ""
      let (e, id) := e.askInput prompt none
      (e, m.into (.waiting (.input ⟨id, e.now, e.config.inputTimeout⟩ location)))
  | other => (e, m.giveOrFail (other.call args) location)

/-- Writes a line of output, unless the run is asked to stop. -/
def print (e : Engine) (m : Machine) (values : List Value) (location : Location) :
    Engine × Machine :=
  if e.aborting then (e, m.fail .aborted location)
  else
    let text := " ".intercalate (values.map Value.text)
    (e.announce [.output text location.line],
     ({ m with outputs := m.outputs.push text }).flow .normal)

def complete (e : Engine) (m : Machine) (purpose : Purpose) (values : List Value) :
    Engine × Machine :=
  match purpose with
  | .array => (e, m.give (.array values))
  | .call (.value callee receiver) location =>
    (e, m.applyValue e.config.maxCallDepth callee values receiver location)
  | .call (.builtin b) location => m.applyBuiltin e b values location
  | .print location => m.print e values location

def stepBuild (m : Machine) (rest : List Stmt) (fields : Dictionary Value) (frame home : FrameId) :
    Machine :=
  match rest with
  | [] => ({ m with environment := m.environment.pop frame }).give (.object fields)
  | .declare name _ (some value) _ :: rest =>
    m.evaluate (.field name rest fields frame home) value frame
  | .declare name _ none _ :: rest =>
    (m.define frame name .null).into (.build rest (fields.insert name .null) frame home)
  | .function decl _ :: rest =>
    m.into (.build rest (fields.insert decl.name (.function decl home)) frame home)
  | _ :: rest => m.into (.build rest fields frame home)

def perform (m : Machine) (s : Stmt) (frame : FrameId) : Machine :=
  match s with
  | .declare name _ value _ =>
    match value with
    | some e => m.evaluate (.declare name frame) e frame
    | none => (m.define frame name .null).flow .normal
  | .function decl _ => (m.define frame decl.name (.function decl frame)).flow .normal
  | .classDef decl _ => (m.define frame decl.name (.classDef decl frame)).flow .normal
  | .branch condition thenBranch elseBranch _ =>
    m.evaluate (.branch thenBranch elseBranch frame) condition frame
  | .whileLoop condition body location =>
    m.evaluate (.whileTest ⟨condition, body, location, frame⟩ 0) condition frame
  | .forRange var first last step body location =>
    m.evaluate (.rangeFirst ⟨var, last, step, body, location, frame⟩ first.location) first frame
  | .repeatLoop var start count body location =>
    m.evaluate (.repeatCount ⟨var, start, body, location, frame⟩ count.location) count frame
  | .block body _ => m.into (.statements body.statements frame)
  | .giveBack value _ =>
    match value with
    | some e => m.evaluate .giveBack e frame
    | none => m.flow (.giveBack .null)
  | .print args location => m.into (.gather (.print location) [] args frame)
  | .leaveLoop _ => m.flow .leaveLoop
  | .nextIteration _ => m.flow .nextIteration
  | .expression e _ => m.evaluate .discard e frame

def stepRange (m : Machine) (maxPasses : Nat) (pass : RangePass) : Machine :=
  if pass.admits then
    if maxPasses ≤ pass.passes then m.fail (.loopBound maxPasses) pass.loop.location
    else
      (m.define pass.loop.frame pass.loop.var (.number pass.current)).push
        (.rangeBody { pass with passes := pass.passes + 1 })
        (.statements pass.loop.body.statements pass.loop.frame)
  else m.flow .normal

def stepRepeat (m : Machine) (maxPasses : Nat) (pass : RepeatPass) : Machine :=
  if pass.passes < pass.total then
    if maxPasses ≤ pass.passes then m.fail (.loopBound maxPasses) pass.loop.location
    else
      let m :=
        match pass.loop.var with
        | some var => m.define pass.loop.frame var (.number (pass.first + Float.ofNat pass.passes))
        | none => m
      m.push (.repeatBody { pass with passes := pass.passes + 1 })
        (.statements pass.loop.body.statements pass.loop.frame)
  else m.flow .normal

def stepBoundary (e : Engine) (m : Machine) (b : Boundary) : Machine :=
  if m.muted then m.into (.proceed b)
  else if e.aborting then m.fail .aborted b.location
  else if m.isOverBudget e.now then m.fail (.timeout (m.limit.getD 0)) b.location
  else
    let m := { m with crossed := m.crossed + 1 }
    if e.config.yieldInterval > 0 && m.crossed % e.config.yieldInterval == 0 then
      m.into (.waiting (.yielded b))
    else m.into (.arrived b)

def stopOrProceed (e : Engine) (m : Machine) (b : Boundary) (stop : Stop) : Machine :=
  if stop.breakpoint.isNone && stop.step.isNone then m.into (.proceed b)
  else m.into (.watch e.debugger.watches [] (m.environment.visible b.frame) b stop)

def hit (e : Engine) (m : Machine) (breakpoint : Breakpoint) (b : Boundary)
    (step : Option StepMode) : Engine × Machine :=
  let (debugger, hits) := e.debugger.countHit breakpoint.id
  let e := { e with debugger }
  match breakpoint.log with
  | some template => (e, m.into (.log "" template.parts b step))
  | none => (e, m.stopOrProceed e b ⟨some (breakpoint.id, hits), step⟩)

def arrive (e : Engine) (m : Machine) (b : Boundary) : Engine × Machine :=
  if m.debugging then
    let (debugger, step) := e.debugger.reach (m.position b)
    let e := { e with debugger }
    let candidate := if b.bindsBreakpoints then debugger.effectiveOn? b.location.line else none
    match candidate with
    | none => (e, m.stopOrProceed e b ⟨none, step⟩)
    | some breakpoint =>
      match breakpoint.condition with
      | some condition =>
        (e, m.evaluateMuted (.condition breakpoint b step) condition.value b.frame)
      | none => m.hit e breakpoint b step
  else (e, m.into (.proceed b))

def stepLog (e : Engine) (m : Machine) (text : String) (rest : List StringPart) (b : Boundary)
    (step : Option StepMode) : Engine × Machine :=
  match rest with
  | [] =>
    let e := e.announce [.logged text b.location.line]
    (e, m.stopOrProceed e b ⟨none, step⟩)
  | .literal piece :: rest => (e, m.into (.log (text ++ piece) rest b step))
  | .placeholder value :: rest => (e, m.evaluateMuted (.log text rest b step) value b.frame)

def stepWatch (e : Engine) (m : Machine) (rest : List DebugExpr)
    (values bindings : Dictionary Value) (b : Boundary) (stop : Stop) : Engine × Machine :=
  match rest with
  | [] =>
    let (debugger, notices) := e.debugger.pause (m.position b) stop bindings values
    let wakeup := (e.wakeup.forget.look debugger.state).1
    (({ e with debugger, wakeup }).announce notices, m.into (.waiting (.paused b e.now)))
  | watch :: rest =>
    (e, m.evaluateMuted (.watch watch.source rest values bindings b stop) watch.value b.frame)

def proceed (m : Machine) (b : Boundary) : Machine :=
  match b with
  | .statement s frame => m.perform s frame
  | .line line rest =>
    let program := if line.kind.standsAlone then (analyzeUnit line.number line.text).program else none
    match program with
    | some program =>
      ({ m with muted := true }).push (.sketched line rest) (.statements program.statements .global)
    | none => m.into (.lines rest)

def resume (e : Engine) (m : Machine) (wait : Wait) : Engine × Machine :=
  match wait with
  | .yielded b =>
    if e.aborting then (e, m.fail .aborted b.location) else (e, m.into (.arrived b))
  | .paused b since =>
    if e.aborting then (e, (m.excludeSince since e.now).fail .aborted b.location)
    else
      let (wakeup, goes) := e.wakeup.rouse e.debugger.state
      ({ e with wakeup },
       if goes then (m.excludeSince since e.now).into (.proceed b) else m)
  | .input wait location =>
    match wait.outcome? e.inputs e.now with
    | some (answer, inputs) =>
      let e := { e with inputs }
      let m := m.excludeSince wait.since e.now
      if e.aborting then (e, m.fail .aborted location)
      else
        match answer with
        | .ok text => (e, m.give (.string text))
        | .error error => (e, m.fail (.input error) location)
    | none =>
      if e.aborting then (e, (m.excludeSince wait.since e.now).fail .aborted location)
      else (e, m)

def withNumber (m : Machine) (role : NumberRole) (value : Value) (place : Location)
    (go : Float → Machine) : Machine :=
  match value.toPlainNumber? with
  | some x => go x
  | none => m.fail (.notANumber role value.type) place

def startRange (m : Machine) (loop : RangeLoop) (first last step : Float) : Machine :=
  if step == 0 || !step.isFinite then m.fail .zeroStep loop.location
  else m.into (.rangePass ⟨loop, first, last, step, 0⟩)

def acceptValue (e : Engine) (m : Machine) (k : Continuation) (value : Value) : Machine :=
  match k with
  | .template text rest frame => m.into (.template (text ++ value.text) rest frame)
  | .gather purpose values rest frame => m.into (.gather purpose (value :: values) rest frame)
  | .assign name frame location =>
    match m.environment.assign? frame name value with
    | some environment => ({ m with environment }).give value
    | none => m.fail (.undefinedVariable name) location
  | .binaryRight op right frame location => m.evaluate (.binary op value location) right frame
  | .binary op left location => m.giveOrFail (left.binary op value) location
  | .logicalRight op right frame =>
    match op, value.isTrue with
    | .and, false => m.give (.bool false)
    | .or, true => m.give (.bool true)
    | _, _ => m.evaluate .truth right frame
  | .truth => m.give (.bool value.isTrue)
  | .unary op location => m.giveOrFail (value.unary op) location
  | .subscript index frame location => m.evaluate (.index value location) index frame
  | .index target location => m.giveOrFail (target.index value) location
  | .member name location => m.giveOrFail (value.member name) location
  | .receiver name place args frame location =>
    match value.member name with
    | .ok method => m.into (.gather (.call (.value method (some value)) location) [] args frame)
    | .error fault => m.fail fault place
  | .callee args frame location =>
    m.into (.gather (.call (.value value none) location) [] args frame)
  | .field name rest fields frame home =>
    (m.define frame name value).into (.build rest (fields.insert name value) frame home)
  | .declare name frame => (m.define frame name value).flow .normal
  | .branch thenBranch elseBranch frame =>
    if value.isTrue then m.into (.statements thenBranch.statements frame)
    else
      match elseBranch with
      | some block => m.into (.statements block.statements frame)
      | none => m.flow .normal
  | .whileTest loop passes =>
    if value.isTrue then
      if e.config.maxLoopIterations ≤ passes then
        m.fail (.loopBound e.config.maxLoopIterations) loop.location
      else m.push (.whileBody loop (passes + 1)) (.statements loop.body.statements loop.frame)
    else m.flow .normal
  | .rangeFirst loop place =>
    m.withNumber .rangeStart value place fun first =>
      m.evaluate (.rangeLast loop first) loop.last loop.frame
  | .rangeLast loop first =>
    m.withNumber .rangeEnd value loop.last.location fun last =>
      match loop.step with
      | some step => m.evaluate (.rangeStep loop first last step.location) step loop.frame
      | none => m.startRange loop first last (if first ≤ last then 1 else -1)
  | .rangeStep loop first last place =>
    m.withNumber .rangeStep value place fun step => m.startRange loop first last step
  | .repeatCount loop place =>
    m.withNumber .loopCount value place fun count =>
      let total := passesOf count
      match loop.start with
      | some start => m.evaluate (.repeatStart loop total start.location) start loop.frame
      | none => m.into (.repeatPass ⟨loop, 0, total, 0⟩)
  | .repeatStart loop total place =>
    m.withNumber .loopStart value place fun first => m.into (.repeatPass ⟨loop, first, total, 0⟩)
  | .giveBack => m.flow (.giveBack value)
  | .discard => m.flow .normal
  | _ => m.give value

def acceptFlow (m : Machine) (k : Continuation) (flow : Flow) : Machine :=
  match k, flow with
  | .statements rest frame, .normal => m.into (.statements rest frame)
  | .whileBody _ _, .leaveLoop | .rangeBody _, .leaveLoop | .repeatBody _, .leaveLoop =>
    m.flow .normal
  | .whileBody _ _, .giveBack value | .rangeBody _, .giveBack value
  | .repeatBody _, .giveBack value => m.flow (.giveBack value)
  | .whileBody loop passes, _ => m.evaluate (.whileTest loop passes) loop.condition loop.frame
  | .rangeBody pass, _ => m.into (.rangePass { pass with current := pass.current + pass.step })
  | .repeatBody pass, _ => m.into (.repeatPass pass)
  | _, flow => m.flow flow

def errorText (error : RuntimeError) : String := "<error: " ++ error.fault.message ++ ">"

def deliverTo (e : Engine) (m : Machine) (k : Continuation) (result : Result) :
    Engine × Machine :=
  match k with
  | .activation frame =>
    let m := { m with environment := m.environment.pop frame, depth := m.depth - 1 }
    match result with
    | .failure error => (e, m.into (.deliver (.failure error)))
    | .flow (.giveBack value) => (e, m.give value)
    | _ => (e, m.give .null)
  | .condition breakpoint b step =>
    let m := { m with muted := false }
    match result with
    | .value value =>
      if value.isTrue then m.hit e breakpoint b step else (e, m.stopOrProceed e b ⟨none, step⟩)
    | _ => (e, m.stopOrProceed e b ⟨none, step⟩)
  | .log text rest b step =>
    let m := { m with muted := false }
    match result with
    | .value value => (e, m.into (.log (text ++ value.text) rest b step))
    | .failure error => (e, m.into (.log (text ++ errorText error) rest b step))
    | .flow _ => (e, m.into (.log text rest b step))
  | .watch source rest values bindings b stop =>
    let m := { m with muted := false }
    match result with
    | .value value => (e, m.into (.watch rest (values.insert source value) bindings b stop))
    | .failure error =>
      (e, m.into (.watch rest (values.insert source (.string (errorText error))) bindings b stop))
    | .flow _ => (e, m.into (.watch rest values bindings b stop))
  | .sketched line rest =>
    let m := { m with muted := false }
    match result with
    | .failure ⟨fault, location⟩ =>
      if fault.endsRun then (e, m.fail fault (.point line.number location.column))
      else (e, m.into (.lines rest))
    | _ => (e, m.into (.lines rest))
  | .field name rest fields frame home =>
    match result with
    | .value value => (e, m.acceptValue e (.field name rest fields frame home) value)
    | other => (e, ({ m with environment := m.environment.pop frame }).into (.deliver other))
  | k =>
    match result with
    | .value value => (e, m.acceptValue e k value)
    | .flow flow => (e, m.acceptFlow k flow)
    | .failure error => (e, m.into (.deliver (.failure error)))

def deliver (e : Engine) (m : Machine) (result : Result) : Engine × Machine :=
  match m.stack with
  | k :: stack => ({ m with stack }).deliverTo e k result
  | [] =>
    match result with
    | .failure error => (e, m.into (.finished (some error)))
    | _ => (e, m.into (.finished none))

def step (e : Engine) (m : Machine) : Engine × Machine :=
  match m.control with
  | .evaluate expr frame => (e, m.stepExpr expr frame)
  | .template text rest frame =>
    match rest with
    | [] => (e, m.give (.string text))
    | .literal piece :: rest => (e, m.into (.template (text ++ piece) rest frame))
    | .placeholder value :: rest => (e, m.evaluate (.template text rest frame) value frame)
  | .gather purpose values rest frame =>
    match rest with
    | [] => m.complete e purpose values.reverse
    | first :: rest => (e, m.evaluate (.gather purpose values rest frame) first frame)
  | .build rest fields frame home => (e, m.stepBuild rest fields frame home)
  | .statements rest frame =>
    match rest with
    | [] => (e, m.flow .normal)
    | first :: rest => (e, m.push (.statements rest frame) (.boundary (.statement first frame)))
  | .rangePass pass => (e, m.stepRange e.config.maxLoopIterations pass)
  | .repeatPass pass => (e, m.stepRepeat e.config.maxLoopIterations pass)
  | .boundary b => (e, m.stepBoundary e b)
  | .arrived b => m.arrive e b
  | .log text rest b mode => m.stepLog e text rest b mode
  | .watch rest values bindings b stop => m.stepWatch e rest values bindings b stop
  | .proceed b => (e, m.proceed b)
  | .lines rest =>
    match rest with
    | [] => (e, m.flow .normal)
    | line :: rest => (e, m.into (.boundary (.line line rest)))
  | .deliver result => m.deliver e result
  | .waiting wait => m.resume e wait
  | .finished _ => (e, m)

def canResume (e : Engine) : Wait → Bool
  | .yielded _ => true
  | .paused _ _ => e.aborting || (e.wakeup.rouse e.debugger.state).2
  | .input wait _ => e.aborting || (wait.outcome? e.inputs e.now).isSome

def isReady (e : Engine) (m : Machine) : Bool :=
  match m.control with
  | .waiting wait => canResume e wait
  | .finished _ => false
  | _ => true

/-- Whether a slice ends here: others get a turn, what is waited for has not come, or the run has
ended. -/
def endsSlice (e : Engine) (m : Machine) : Bool :=
  match m.control with
  | .waiting (.yielded _) => true
  | _ => !m.isReady e

def stepsWithin : Nat → Engine → Machine → Engine × Machine
  | 0, e, m => (e, m)
  | bound + 1, e, m =>
    if m.endsSlice e then (e, m)
    else
      let (e, m) := m.step e
      stepsWithin bound e m

def sliceBound : Nat := Nat.pow 2 60

def slice (e : Engine) (m : Machine) : Engine × Machine :=
  let (e, m) := m.step e
  stepsWithin sliceBound e m

end Stepper.Machine
