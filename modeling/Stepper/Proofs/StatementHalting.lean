import Stepper.Proofs.Halting

/-! # Programs that halt -/

namespace Stepper

open List

namespace Machine
variable {depth : Nat} {stack : List Continuation}

/-! ### Calls -/

lemma build_halts (safe : Safe config depth stack) (frame home) (members)
    (plain : ∀ mem ∈ members, mem.initializesPlainly = true)
    (inside : ∀ s ∈ listStatements members, s.isTame = true) (tame : fields.MadeOf .tame) :
    HaltsFrom config depth stack (.build members fields frame home) := by
  induction members generalizing fields with
  | nil =>
    exact halts_of_step fun _ _ sits _ _ =>
      safe.give (sits.pop frame) (.object tame)
  | cons mem rest ih =>
    obtain ⟨first, others⟩ := forall_mem_cons.mp plain
    obtain ⟨own, behind⟩ := forall_mem_append.mp inside
    have onward {fields : Dictionary Value} (tame : fields.MadeOf .tame) := ih others behind tame
    refine halts_of_step fun _ _ sits _ _ => ?_
    change Halts config (stepBuild _ (mem :: rest) fields frame home)
    unfold stepBuild
    split
    · next nothing => cases nothing
    · next name _ value _ _ same =>
      cases same
      -- The one place where an expression is evaluated without a call being counted.
      have free : value.calls = false := by simpa [Stmt.initializesPlainly] using first
      refine (evaluation_halts value fun occurs => by simp [free] at occurs).evaluate ?_ frame sits
      refine safe_cons fun m e result sits limits given => ?_
      cases result with
      | value =>
        exact onward (tame.insert name given) _ (sits.define frame name given)
      | flow flow => exact safe.flow (sits.pop frame) flow given
      | failure error => exact safe (.failure error) given _ (sits.pop frame)
    · next name _ _ _ same =>
      cases same
      exact onward (tame.insert name .null) _ (sits.define frame name .null)
    · next decl _ _ same =>
      cases same
      exact onward (tame.insert decl.name (Value.function_tame own home)) _ sits
    · next same =>
      cases same
      exact onward tame _ sits

def ExecutionHalts (config : Config) (depth : Nat) (statements : List Stmt) (frame : FrameId) : Prop :=
  ∀ stack, Safe config depth stack → HaltsFrom config depth stack (.statements statements frame)

def StatementsHalt (config : Config) (depth : Nat) : Prop :=
  ∀ statements frame, (∀ s ∈ listStatements statements, s.isTame = true) →
    ExecutionHalts config depth statements frame

lemma calls_halt (bodies : depth < config.maxCallDepth → StatementsHalt config (depth + 1)) :
    CallsHalt config depth := by
  intro stack _ _ _ receiver _ safe sits tame given found
  cases tame with
  | @function _ home inside =>
    unfold applyValue
    dsimp only
    split
    · exact safe.fail sits _ _
    · split
      · exact safe.fail sits _ _
      · next shallow =>
        rw [sits.depth, Nat.not_le] at shallow
        refine (bodies shallow _ _ inside _ (safe.cons_activation _)).push ?_
        refine ⟨congrArg (· + 1) sits.depth, sits.stack, ?_⟩
        refine Environment.MadeOf.defineAll ?_ _ fun _ mem => given _ (of_mem_zip mem).2
        cases receiver with
        | none => exact sits.tame.push home
        | some object => exact (sits.tame.push home).define _ _ (found object rfl)
  | @classDef decl home has =>
    unfold applyValue
    dsimp only
    split
    · refine build_halts safe _ home decl.body.statements has.1 has.2 (forall_mem_nil _) _ ?_
      exact ⟨sits.depth, sits.stack, sits.tame.push home⟩
    · exact safe.fail sits _ _
  | null | bool | number | string | array | object => exact safe.fail sits _ _

/-! ### Boundaries -/

section
variable (safe : Safe config depth stack) (calls : CallsHalt config depth)
  (proceeds : HaltsFrom config depth stack (.proceed b))
include safe proceeds

lemma pause_halts (since) : HaltsFrom config depth stack (.waiting (.paused b since)) := by
  refine halts_of_step fun _ e sits _ ready => ?_
  have later := sits.excludeSince since e.now
  change (e.aborting || (e.wakeup.rouse e.debugger.state).2) = true at ready
  change Halts config (resume e _ (.paused b since)).2
  unfold resume
  dsimp only
  split
  · exact safe.fail later _ _
  · next peaceful =>
    have roused : (e.wakeup.rouse e.debugger.state).2 := by simpa [peaceful] using ready
    rw [if_pos roused]
    exact proceeds _ later
include calls

lemma watches_halt (rest) (values bindings) (stop) :
    HaltsFrom config depth stack (.watch rest values bindings b stop) := by
  induction rest generalizing values with
  | nil =>
    exact halts_of_step fun m e sits _ _ => pause_halts safe proceeds e.now _ sits
  | cons watch _ ih =>
    refine halts_of_step fun _ _ sits _ _ => ?_
    refine (evaluation_halts watch.value fun _ => calls).evaluate ?_ b.frame (sits.mute true)
    refine safe_cons fun m e result sits limits _ => ?_
    cases result with
    | value => exact ih _ _ (sits.mute false)
    | flow => exact ih _ _ (sits.mute false)
    | failure => exact ih _ _ (sits.mute false)

lemma stopOrProceed_halts (e) (stop) (sits : Situated depth stack m) :
    Halts config (m.stopOrProceed e b stop) := by
  unfold stopOrProceed
  split
  · exact proceeds m sits
  · exact watches_halt safe calls proceeds _ _ _ stop m sits

lemma log_halts (text) (rest) (mode) : HaltsFrom config depth stack (.log text rest b mode) := by
  induction rest generalizing text with
  | nil =>
    exact halts_of_step fun _ _ sits _ _ =>
      stopOrProceed_halts safe calls proceeds _ _ sits
  | cons part _ ih =>
    refine halts_of_step fun _ _ sits _ _ => ?_
    cases part with
    | literal => exact ih _ _ sits
    | placeholder value =>
      refine (evaluation_halts value fun _ => calls).evaluate ?_ b.frame (sits.mute true)
      refine safe_cons fun m e result sits limits _ => ?_
      cases result with
      | value => exact ih _ _ (sits.mute false)
      | flow => exact ih _ _ (sits.mute false)
      | failure => exact ih _ _ (sits.mute false)

lemma hit_halts (e) (breakpoint) (mode) (sits : Situated depth stack m) :
    Halts config (m.hit e breakpoint b mode).2 := by
  unfold hit
  dsimp only
  split
  · exact log_halts safe calls proceeds _ _ mode m sits
  · dsimp only
    exact stopOrProceed_halts safe calls proceeds _ _ sits

lemma arrival_halts : HaltsFrom config depth stack (.arrived b) := by
  refine halts_of_step fun m e sits limits _ => ?_
  change Halts config (arrive e _ b).2
  unfold arrive
  split
  · dsimp only
    split
    · exact stopOrProceed_halts safe calls proceeds _ _ sits
    · split
      · next condition _ =>
        refine (evaluation_halts condition.value fun _ => calls).evaluate ?_ b.frame
          (sits.mute true)
        refine safe_cons fun m e result sits limits _ => ?_
        have passed (step) :=
          stopOrProceed_halts safe calls proceeds e ⟨none, step⟩ (sits.mute false)
        cases result with
        | value =>
          unfold deliverTo
          dsimp only
          split
          · exact hit_halts safe calls proceeds _ _ _ (sits.mute false)
          · exact passed _
        | flow => exact passed _
        | failure => exact passed _
      · exact hit_halts safe calls proceeds _ _ _ sits
  · exact proceeds _ sits

lemma boundary_halts : HaltsFrom config depth stack (.boundary b) := by
  have arrives := arrival_halts safe calls proceeds
  have yields : HaltsFrom config depth stack (.waiting (.yielded b)) := by
    refine halts_of_step fun m e sits _ _ => ?_
    change Halts config (resume e _ (.yielded b)).2
    unfold resume
    dsimp only
    split
    · exact safe.fail sits _ _
    · exact arrives _ sits
  refine halts_of_step fun m e sits _ _ => ?_
  change Halts config (stepBoundary e _ b)
  unfold stepBoundary
  have counted (crossed) : Situated depth stack { m.into (.boundary b) with crossed } :=
    ⟨sits.depth, sits.stack, sits.tame⟩
  split
  · exact proceeds _ sits
  · split
    · exact safe.fail sits _ _
    · split
      · exact safe.fail sits _ _
      · dsimp only
        split
        · exact yields _ (counted _)
        · exact arrives _ (counted _)

end

section Loops
variable (safe : Safe config depth stack)
include safe

lemma while_safe (loop) (condition : EvaluationHalts config depth loop.condition)
    (body : ExecutionHalts config depth loop.body.statements loop.frame) (passes) :
    Safe config depth (.whileTest loop passes :: stack) := by
  refine safe.cons_value rfl fun m _ _ sits limits _ => ?_
  unfold acceptValue
  dsimp only
  rw [limits]
  split
  · split
    · exact safe.fail sits _ _
    · next _ =>
      refine (body _ (safe.cons_loop rfl fun m sits => ?_)).push sits
      exact condition.evaluate (while_safe loop condition body (passes + 1)) loop.frame sits
  · exact safe.flow sits .normal trivial
termination_by config.maxLoopIterations - passes

lemma range_halts (pass)
    (body : ExecutionHalts config depth pass.loop.body.statements pass.loop.frame) :
    HaltsFrom config depth stack (.rangePass pass) := by
  refine halts_of_step fun m e sits limits _ => ?_
  change Halts config (stepRange _ e.config.maxLoopIterations pass)
  unfold stepRange
  rw [limits]
  split
  · split
    · exact safe.fail sits _ _
    · next _ =>
      refine (body _ (safe.cons_loop rfl fun m sits => ?_)).push (sits.define _ _ (.number _))
      exact range_halts { pass with current := pass.current + pass.step, passes := pass.passes + 1 }
        body m sits
  · exact safe.flow sits .normal trivial
termination_by config.maxLoopIterations - pass.passes

lemma repeat_halts (pass)
    (body : ExecutionHalts config depth pass.loop.body.statements pass.loop.frame) :
    HaltsFrom config depth stack (.repeatPass pass) := by
  refine halts_of_step fun m e sits limits _ => ?_
  change Halts config (stepRepeat _ e.config.maxLoopIterations pass)
  unfold stepRepeat
  rw [limits]
  split
  · split
    · exact safe.fail sits _ _
    · next _ =>
      have again : Safe config depth (.repeatBody { pass with passes := pass.passes + 1 } :: stack) :=
        safe.cons_loop rfl fun m sits =>
          repeat_halts { pass with passes := pass.passes + 1 } body m sits
      split
      · exact (body _ again).push (sits.define _ _ (.number _))
      · exact (body _ again).push sits
  · exact safe.flow sits .normal trivial
termination_by config.maxLoopIterations - pass.passes

end Loops

/-! ### Statements -/

section Statements
variable (safe : Safe config depth stack) (calls : CallsHalt config depth)
include safe

lemma branch_safe (thenHalts : ExecutionHalts config depth thenBranch.statements frame)
    (elseHalts : ∀ block ∈ elseBranch, ExecutionHalts config depth block.statements frame) :
    Safe config depth (.branch thenBranch elseBranch frame :: stack) := by
  refine safe.cons_value rfl fun m _ _ sits _ _ => ?_
  unfold acceptValue
  dsimp only
  split
  · exact thenHalts stack safe m sits
  · split
    · next block => exact elseHalts block rfl stack safe m sits
    · exact safe.flow sits .normal trivial
include calls

lemma rangeFirst_safe (loop) (place)
    (body : ExecutionHalts config depth loop.body.statements loop.frame) :
    Safe config depth (.rangeFirst loop place :: stack) := by
  have starts {m : Machine} (sits : Situated depth stack m) (first last step) :
      Halts config (m.startRange loop first last step) := by
    unfold startRange
    split
    · exact safe.fail sits _ _
    · exact range_halts safe _ body m sits
  have stepped (first last) (place) :
      Safe config depth (.rangeStep loop first last place :: stack) :=
    safe.cons_value rfl fun _ _ value sits _ _ =>
      safe.withNumber sits fun step => starts sits first last step
  have bounded (first) : Safe config depth (.rangeLast loop first :: stack) := by
    refine safe.cons_value rfl fun _ _ value sits _ _ => ?_
    refine safe.withNumber sits fun last => ?_
    split
    · next step _ =>
      exact (evaluation_halts step fun _ => calls).evaluate (stepped first last _) loop.frame sits
    · exact starts sits first last _
  exact safe.cons_value rfl fun _ _ value sits _ _ =>
    safe.withNumber sits fun first =>
      (evaluation_halts loop.last fun _ => calls).evaluate (bounded first) loop.frame sits

lemma repeatCount_safe (loop) (place)
    (body : ExecutionHalts config depth loop.body.statements loop.frame) :
    Safe config depth (.repeatCount loop place :: stack) := by
  have started (total) (place) :
      Safe config depth (.repeatStart loop total place :: stack) :=
    safe.cons_value rfl fun m e value sits _ _ =>
      safe.withNumber sits fun first => repeat_halts safe ⟨loop, first, total, 0⟩ body m sits
  refine safe.cons_value rfl fun m e value sits _ _ => ?_
  refine safe.withNumber sits fun count => ?_
  split
  · next start _ =>
    exact (evaluation_halts start fun _ => calls).evaluate (started _ _) loop.frame sits
  · exact repeat_halts safe ⟨loop, 0, passesOf count, 0⟩ body m sits

end Statements

section
variable (calls : CallsHalt config depth)
include calls

-- The recursion hands the variables on, which the linter does not see.
set_option linter.unusedSectionVars false in
mutual

theorem statement_halts : (s : Stmt) →
    (∀ t ∈ s.preorder, t.isTame = true) → ∀ stack frame, Safe config depth stack →
    HaltsFrom config depth stack (.proceed (.statement s frame))
  | .declare name _ (some value) _, _, stack, frame, safe => by
    have declares : Safe config depth (.declare name frame :: stack) :=
      safe.cons_value rfl fun m e value situated _ tame =>
        safe.flow (situated.define frame name tame) .normal trivial
    exact halts_of_step fun _ _ situated _ _ =>
      (evaluation_halts value fun _ => calls).evaluate declares frame situated
  | .declare name _ none _, _, _, frame, safe =>
    halts_of_step fun _ _ situated _ _ =>
      safe.flow (situated.define frame name .null) .normal trivial
  | .function decl l, tame, _, frame, safe => by
    have value := Value.function_tame tame frame
    exact halts_of_step fun _ _ situated _ _ =>
      safe.flow (situated.define frame decl.name value) .normal trivial
  | .classDef decl l, tame, _, frame, safe => by
    have value := Value.classDef_tame tame frame
    exact halts_of_step fun _ _ situated _ _ =>
      safe.flow (situated.define frame decl.name value) .normal trivial
  | .branch condition thenBranch elseBranch _, tame, _, frame, safe => by
    rw [Stmt.preorder] at tame
    obtain ⟨ofThen, ofElse⟩ := forall_mem_append.mp (forall_mem_cons.mp tame).2
    have chooses := branch_safe safe (block_halts thenBranch ofThen frame)
      (option_halts elseBranch ofElse frame)
    exact halts_of_step fun _ _ situated _ _ =>
      (evaluation_halts condition fun _ => calls).evaluate chooses frame situated
  | .whileLoop condition body l, tame, _, frame, safe => by
    rw [Stmt.preorder] at tame
    have tests := while_safe safe ⟨condition, body, l, frame⟩
      (evaluation_halts condition fun _ => calls)
      (block_halts body (forall_mem_cons.mp tame).2 frame) 0
    exact halts_of_step fun _ _ situated _ _ =>
      (evaluation_halts condition fun _ => calls).evaluate tests frame situated
  | .forRange var first last step body l, tame, _, frame, safe => by
    rw [Stmt.preorder] at tame
    have ranges := rangeFirst_safe safe calls ⟨var, last, step, body, l, frame⟩ first.location
      (block_halts body (forall_mem_cons.mp tame).2 frame)
    exact halts_of_step fun _ _ situated _ _ =>
      (evaluation_halts first fun _ => calls).evaluate ranges frame situated
  | .repeatLoop var start count body l, tame, _, frame, safe => by
    rw [Stmt.preorder] at tame
    have repeats := repeatCount_safe safe calls ⟨var, start, body, l, frame⟩ count.location
      (block_halts body (forall_mem_cons.mp tame).2 frame)
    exact halts_of_step fun _ _ situated _ _ =>
      (evaluation_halts count fun _ => calls).evaluate repeats frame situated
  | .block body _, tame, stack, frame, safe => by
    rw [Stmt.preorder] at tame
    have inside := block_halts body (forall_mem_cons.mp tame).2 frame stack safe
    exact halts_of_step fun _ _ situated _ _ => inside _ situated
  | .giveBack (some value) _, _, stack, frame, safe => by
    have returns : Safe config depth (.giveBack :: stack) :=
      safe.cons_value rfl fun m e value situated _ tame => safe.flow situated (.giveBack value) tame
    exact halts_of_step fun _ _ situated _ _ =>
      (evaluation_halts value fun _ => calls).evaluate returns frame situated
  | .giveBack none _, _, _, _, safe =>
    halts_of_step fun _ _ situated _ _ => safe.flow situated (.giveBack .null) .null
  | .print args location, _, _, frame, safe =>
    halts_of_step fun _ _ situated _ _ =>
      gathering_halts args (fun _ => calls) _ frame safe (safe.print location) [] nofun _ situated
  | .leaveLoop _, _, _, _, safe =>
    halts_of_step fun _ _ situated _ _ => safe.flow situated .leaveLoop trivial
  | .nextIteration _, _, _, _, safe =>
    halts_of_step fun _ _ situated _ _ => safe.flow situated .nextIteration trivial
  | .expression value _, _, stack, frame, safe => by
    have discards : Safe config depth (.discard :: stack) :=
      safe.cons_value rfl fun _ _ value situated _ _ => safe.flow situated .normal trivial
    exact halts_of_step fun _ _ situated _ _ =>
      (evaluation_halts value fun _ => calls).evaluate discards frame situated

theorem list_halts : (statements : List Stmt) →
    (∀ t ∈ listStatements statements, t.isTame = true) → ∀ frame,
    ExecutionHalts config depth statements frame
  | [], _, _, _, safe =>
    halts_of_step fun _ _ situated _ _ => safe.flow situated .normal trivial
  | first :: rest, tame, frame, stack, safe => by
    obtain ⟨ofFirst, ofRest⟩ := forall_mem_append.mp tame
    have behind : Safe config depth (.statements rest frame :: stack) := by
      refine safe.cons_flow rfl fun m flow situated given => ?_
      cases flow with
      | normal => exact list_halts rest ofRest frame stack safe m situated
      | leaveLoop => exact safe.flow situated .leaveLoop trivial
      | nextIteration => exact safe.flow situated .nextIteration trivial
      | giveBack value => exact safe.flow situated (.giveBack value) given
    have performs := statement_halts first ofFirst _ frame behind
    exact halts_of_step fun _ _ situated _ _ =>
      (boundary_halts behind calls performs).push situated

theorem block_halts : (body : Block) →
    (∀ t ∈ blockStatements body, t.isTame = true) → ∀ frame,
    ExecutionHalts config depth body.statements frame
  | ⟨statements, _⟩, tame => list_halts statements tame

theorem option_halts : (body : Option Block) →
    (∀ t ∈ optionStatements body, t.isTame = true) → ∀ frame, ∀ block ∈ body,
    ExecutionHalts config depth block.statements frame
  | some body, tame, frame, _, rfl => block_halts body tame frame

end

end

lemma statements_halt (depth) : StatementsHalt config depth := by
  -- At the limit no body is executed, so nothing is asked of the next depth.
  have calls : CallsHalt config depth := calls_halt fun _ => statements_halt (depth + 1)
  exact fun statements frame tame => list_halts calls statements tame frame
termination_by config.maxCallDepth - depth

lemma bindDeclarations_situated (statements) (tame : ∀ t ∈ listStatements statements, t.isTame = true)
    (sits : Situated depth stack m) : Situated depth stack (m.bindDeclarations statements) := by
  induction statements generalizing m with
  | nil => exact sits
  | cons _ _ ih =>
    obtain ⟨ofFirst, ofRest⟩ := forall_mem_append.mp tame
    refine ih ofRest ?_
    dsimp only
    split
    · exact sits.define _ _ (Value.function_tame ofFirst _)
    · exact sits.define _ _ (Value.classDef_tame ofFirst _)
    · exact sits

lemma program_halts (tame : program.IsTame) (now) (limit) (debugging) :
    Halts config (ofTarget (.program program) now limit debugging) := by
  have fresh : Situated 0 [] (initial now limit debugging) := ⟨rfl, rfl, Environment.empty_madeOf⟩
  exact statements_halt 0 program.statements .global tame [] safe_nil _
    (bindDeclarations_situated program.statements tame fresh)

end Machine

end Stepper
