import Stepper.Proofs.Tameness

/-! # Runs that halt

A stack is safe if every result that is delivered to it leads to a run that ends, and each construct is
shown to end on every safe stack. The calls that are still allowed are the outer measure; to end is to be
accessible under steps, whatever the engine does in between. -/

namespace Stepper

namespace Machine
variable {depth : Nat} {stack : List Continuation}

/-! ### Halting -/

def Succeeds (config : Config) (later m : Machine) : Prop :=
  ∃ e : Engine, e.config = config ∧ m.isReady e = true ∧ later = (m.step e).2

def Halts (config : Config) (m : Machine) : Prop := Acc (Succeeds config) m

structure Situated (depth : Nat) (stack : List Continuation) (m : Machine) : Prop where
  depth : m.depth = depth
  stack : m.stack = stack
  tame : m.environment.MadeOf .tame

def HaltsFrom (config : Config) (depth : Nat) (stack : List Continuation) (control : Control) : Prop :=
  ∀ m, Situated depth stack m → Halts config (m.into control)

def Safe (config : Config) (depth : Nat) (stack : List Continuation) : Prop :=
  ∀ result : Result, result.IsTame → HaltsFrom config depth stack (.deliver result)

lemma halts_of_step {control : Control} (next : ∀ (m : Machine) (e), Situated depth stack (m.into
      control) → e.config = config → (m.into control).isReady e = true → Halts config ((m.into
      control).step e).2) : HaltsFrom config depth stack control := by
  intro m sits
  refine Acc.intro _ ?_
  rintro _ ⟨e, limits, ready, rfl⟩
  exact next m e ⟨sits.depth, sits.stack, sits.tame⟩ limits ready

lemma safe_nil : Safe config depth [] := by
  have finished : ∀ error, HaltsFrom config depth [] (.finished error) := fun error =>
    halts_of_step fun m e sits _ ready => nomatch ready
  refine fun result _ => halts_of_step fun m e sits _ _ => ?_
  have empty : m.stack = [] := sits.stack
  have ends : ∃ error, ((m.into (.deliver result)).step e).2 =
      (m.into (.deliver result)).into (.finished error) := by
    simp only [step, into, deliver, empty]
    split
    · exact ⟨_, rfl⟩
    · exact ⟨_, rfl⟩
  obtain ⟨error, same⟩ := ends
  rw [same]
  exact finished error _ sits

namespace Situated
variable (sits : Situated depth stack m)
include sits

lemma define (frame) (name) (given : value.MadeOf .tame) :
    Situated depth stack (m.define frame name value) :=
  ⟨sits.depth, sits.stack, sits.tame.define frame name given⟩

lemma pop (frame) : Situated depth stack { m with environment := m.environment.pop frame
    } :=
  ⟨sits.depth, sits.stack, sits.tame.pop frame⟩

lemma excludeSince (since now) : Situated depth stack (m.excludeSince since now) :=
  ⟨sits.depth, sits.stack, sits.tame⟩

lemma mute (muted) : Situated depth stack { m with muted } :=
  ⟨sits.depth, sits.stack, sits.tame⟩

end Situated

lemma HaltsFrom.push {control : Control} (halts : HaltsFrom config depth (k :: stack) control)
    (sits : Situated depth stack m) : Halts config (m.push k control) :=
  halts { m with stack := k :: m.stack } ⟨sits.depth, sits.stack ▸ rfl, sits.tame⟩

namespace Safe
variable (safe : Safe config depth stack) (sits : Situated depth stack m)
include safe sits

lemma give (tame : value.MadeOf .tame) : Halts config (m.give value) :=
  safe (.value value) tame m sits

lemma flow (flow) (tame : (Result.flow flow).IsTame) : Halts config (m.flow flow) :=
  safe (.flow flow) tame m sits

lemma fail (fault) (location) : Halts config (m.fail fault location) :=
  safe (.failure ⟨fault, location⟩) trivial m sits

lemma giveOrFail (tame : GivesMadeOf .tame result) (location) :
    Halts config (m.giveOrFail result location) := by
  cases result with
  | ok => exact safe.give sits tame
  | error fault => exact safe.fail sits fault location

lemma withNumber (goes : ∀ x, Halts config (go x)) : Halts config
    (m.withNumber role value place go) := by
  unfold Machine.withNumber
  split
  · exact goes _
  · exact safe.fail sits _ _

end Safe

/-! ### Continuations -/

lemma safe_cons (accepts : ∀ m e result, Situated depth stack m → e.config = config → result.IsTame →
      Halts config (m.deliverTo e k result).2) : Safe config depth (k :: stack) := by
  refine fun result tame => halts_of_step fun m e sits limits _ => ?_
  have above : m.stack = k :: stack := sits.stack
  have delivered : (m.into (.deliver result)).step e =
      ({ m.into (.deliver result) with stack } : Machine).deliverTo e k result := by
    simp only [step, into, deliver, above]
  rw [delivered]
  exact accepts _ e result ⟨sits.depth, rfl, sits.tame⟩ limits tame

lemma Safe.cons_value (takes : k.takesValues) (safe : Safe config depth stack) (accepts : ∀ m e
      value, Situated depth stack m → e.config = config → value.MadeOf .tame → Halts config
      (m.acceptValue e k value)) : Safe config depth (k :: stack) := by
  refine safe_cons fun m e result sits limits tame => ?_
  rw [deliverTo_plain (by rw [takes, Bool.true_or])]
  cases result with
  | value value => exact accepts m e value sits limits tame
  | flow flow =>
    dsimp only
    rw [acceptFlow_of_takesValues takes]
    exact safe.flow sits flow tame
  | failure error => exact safe (.failure error) tame m sits

lemma Safe.cons_flow (takes : k.takesFlows) (safe : Safe config depth stack) (accepts : ∀ m flow,
      Situated depth stack m → (Result.flow flow).IsTame → Halts config (m.acceptFlow k flow)) :
    Safe config depth (k :: stack) := by
  refine safe_cons fun m _ result sits _ tame => ?_
  rw [deliverTo_plain (by rw [takes, Bool.or_true])]
  cases result with
  | value =>
    dsimp only
    rw [acceptValue_of_takesFlows takes]
    exact safe.give sits tame
  | flow flow => exact accepts m flow sits tame
  | failure error => exact safe (.failure error) tame m sits

lemma Safe.cons_loop (loops : k.isLoop) (safe : Safe config depth stack)
    (again : ∀ m, Situated depth stack m → Halts config (m.acceptFlow k .normal)) :
    Safe config depth (k :: stack) := by
  refine safe.cons_flow (takesFlows_of_isLoop loops) fun m flow sits tame => ?_
  cases flow with
  | normal => exact again m sits
  | leaveLoop =>
    rw [acceptFlow_leaveLoop loops]
    exact safe.flow sits .normal trivial
  | nextIteration =>
    rw [acceptFlow_nextIteration loops]
    exact again m sits
  | giveBack value =>
    rw [acceptFlow_giveBack]
    exact safe.flow sits (.giveBack value) tame

lemma Safe.cons_activation (safe : Safe config depth stack) (frame) :
    Safe config (depth + 1) (.activation frame :: stack) := by
  refine safe_cons fun m _ result sits _ tame => ?_
  have left : Situated depth stack
      { m with environment := m.environment.pop frame, depth := m.depth - 1 } :=
    ⟨by simp [sits.depth], sits.stack, sits.tame.pop frame⟩
  cases result with
  | value => exact safe.give left .null
  | flow flow =>
    cases flow with
    | giveBack => exact safe.give left tame
    | normal | leaveLoop | nextIteration => exact safe.give left .null
  | failure error => exact safe (.failure error) tame _ left

/-! ### Expressions -/

def CallsHalt (config : Config) (depth : Nat) : Prop :=
  ∀ stack m callee args receiver location,
    Safe config depth stack → Situated depth stack m → callee.MadeOf .tame →
    (∀ arg ∈ args, arg.MadeOf .tame) → (∀ object ∈ receiver, object.MadeOf .tame) →
    Halts config (m.applyValue config.maxCallDepth callee args receiver location)

def EvaluationHalts (config : Config) (depth : Nat) (e : Expr) : Prop :=
  ∀ stack frame, Safe config depth stack → HaltsFrom config depth stack (.evaluate e frame)

def CompletionHalts (config : Config) (depth : Nat) (stack : List Continuation) (purpose : Purpose) :
    Prop :=
  ∀ m e values, Situated depth stack m → e.config = config → (∀ value ∈ values, value.MadeOf .tame) →
    Halts config (m.complete e purpose values).2

lemma EvaluationHalts.evaluate (halts : EvaluationHalts config depth expr)
    (safe : Safe config depth (k :: stack)) (frame) (sits : Situated depth stack m) :
    Halts config (m.evaluate k expr frame) :=
  (halts _ frame safe).push sits

section
variable (safe : Safe config depth stack)
include safe

lemma Safe.input (wait) (location) :
    HaltsFrom config depth stack (.waiting (.input wait location)) := by
  refine halts_of_step fun m e sits _ ready => ?_
  have later := sits.excludeSince wait.since e.now
  change (e.aborting || (wait.outcome? e.inputs e.now).isSome) = true at ready
  change Halts config ((m.into _).resume e (.input wait location)).2
  unfold resume
  dsimp only
  split
  · split
    · exact safe.fail later _ _
    · split
      · exact safe.give later (.string _)
      · exact safe.fail later _ _
  · next none =>
    simp only [none, Option.isSome_none, Bool.or_false] at ready
    rw [if_pos ready]
    exact safe.fail later _ _

lemma Safe.applyBuiltin (e) (sits : Situated depth stack m) (b) (args) (location) :
    Halts config (m.applyBuiltin e b args location).2 := by
  unfold Machine.applyBuiltin
  split
  · split
    · exact safe.fail sits _ _
    · exact safe.input _ location m sits
  · exact safe.giveOrFail sits (Builtin.call_madeOf _ args) location

lemma Safe.array : CompletionHalts config depth stack .array :=
  fun _ _ _ sits _ tame => safe.give sits (.array tame)

lemma Safe.call (calls : CallsHalt config depth) (tame : callee.MadeOf .tame)
    (found : ∀ object ∈ receiver, object.MadeOf .tame) (location) :
    CompletionHalts config depth stack (.call (.value callee receiver) location) := by
  intro m e values sits limits given
  change Halts config (m.applyValue e.config.maxCallDepth callee values receiver location)
  rw [limits]
  exact calls stack m callee values receiver location safe sits tame given found

lemma Safe.builtin (b) (location) : CompletionHalts config depth stack (.call (.builtin b) location) :=
  fun _ e values sits _ _ => safe.applyBuiltin e sits b values location

lemma Safe.print (location) : CompletionHalts config depth stack (.print location) := by
  intro m e values sits _ _
  change Halts config (m.print e values location).2
  unfold Machine.print
  split
  · exact safe.fail sits _ _
  · have later (outputs) : Situated depth stack { m with outputs } :=
      ⟨sits.depth, sits.stack, sits.tame⟩
    exact safe.flow (later _) .normal trivial

end

lemma operands_halt (first) (second : Value → Continuation) (safe : Safe config depth stack)
    (sits : Situated depth stack m) (frame) (takes : first.takesValues)
    (takes' : ∀ value, (second value).takesValues = true) (leads : ∀ (m : Machine) e value,
      m.acceptValue e first value = m.evaluate (second value) right frame) (closes : ∀ m e value value',
      Situated depth stack m → value.MadeOf .tame → value'.MadeOf .tame → Halts config (m.acceptValue e
      (second value) value')) (leftHalts : EvaluationHalts config depth left)
    (rightHalts : EvaluationHalts config depth right) : Halts config (m.evaluate first left frame) := by
  refine leftHalts.evaluate (safe.cons_value takes fun m e value sits _ tame => ?_) frame sits
  rw [leads]
  refine rightHalts.evaluate (safe.cons_value (takes' value) ?_) frame sits
  exact fun m e value' sits limits tame' => closes m e value value' sits tame tame'

lemma call_halts (safe : Safe config depth stack) (calls : CallsHalt config depth) (location)
    (calleeHalts : EvaluationHalts config depth callee) (targetHalts : ∀ target name place, callee =
      .member target name place → EvaluationHalts config depth target) (argsHalt : ∀ purpose,
      CompletionHalts config depth stack purpose → HaltsFrom config depth stack (.gather purpose [] args
      frame)) : HaltsFrom config depth stack (.evaluate (.call callee args location) frame) := by
  have applied : Safe config depth (.callee args frame location :: stack) :=
    safe.cons_value rfl fun m e value sits _ tame =>
      argsHalt _ (safe.call calls tame (by simp) location) m sits
  refine halts_of_step fun m e sits _ ready => ?_
  change Halts config (stepExpr _ (.call callee args location) frame)
  unfold stepExpr
  dsimp only
  split
  · next target name place =>
    refine (targetHalts target name place rfl).evaluate ?_ frame sits
    refine safe.cons_value rfl fun m e value sits _ tame => ?_
    have methods := Value.member_madeOf tame name
    unfold acceptValue
    dsimp only
    split
    · next _ found =>
      exact argsHalt _ (safe.call calls (methods.of_ok found) (by simpa using tame) location) m
        sits
    · exact safe.fail sits _ _
  · split
    · exact argsHalt _ (safe.builtin _ location) _ sits
    · exact calleeHalts.evaluate applied frame sits
  · exact calleeHalts.evaluate applied frame sits

mutual

theorem evaluation_halts : (expr : Expr) → (expr.calls = true → CallsHalt config depth) →
    EvaluationHalts config depth expr
  | .number _ _, _, _, _, safe =>
    halts_of_step fun _ _ situated _ _ => safe.give situated (.number _)
  | .string _ _, _, _, _, safe =>
    halts_of_step fun _ _ situated _ _ => safe.give situated (.string _)
  | .bool _ _, _, _, _, safe =>
    halts_of_step fun _ _ situated _ _ => safe.give situated (.bool _)
  | .null _, _, _, _, safe =>
    halts_of_step fun _ _ situated _ _ => safe.give situated .null
  | .interpolated parts _, calls, _, frame, safe =>
    halts_of_step fun _ _ situated _ _ =>
      pieces_halt parts calls _ "" frame safe _ situated
  | .array items _, calls, _, frame, safe =>
    halts_of_step fun _ _ situated _ _ =>
      gathering_halts items calls _ frame safe safe.array [] (List.forall_mem_nil _) _ situated
  | .identifier name location, _, _, frame, safe => by
    refine halts_of_step fun _ _ situated _ _ => ?_
    change Halts config (stepExpr _ (.identifier name location) frame)
    unfold stepExpr
    dsimp only
    split
    · next found => exact safe.give situated (situated.tame.get found)
    · exact safe.fail situated _ _
  | .assign name value location, calls, _, frame, safe => by
    refine halts_of_step fun _ _ situated _ _ => ?_
    refine (evaluation_halts value calls).evaluate ?_ frame situated
    refine safe.cons_value rfl fun m e value situated _ tame => ?_
    unfold acceptValue
    dsimp only
    split
    · next environment assigned =>
      have later : Situated depth _ { m with environment } :=
        ⟨situated.depth, situated.stack, situated.tame.assign tame assigned⟩
      exact safe.give later tame
    · exact safe.fail situated _ _
  | .binary op left right location, calls, _, frame, safe => by
    refine halts_of_step fun _ _ situated _ _ => ?_
    refine operands_halt (.binaryRight op right frame location) (.binary op · location) safe situated frame rfl
      (fun _ => rfl) (fun _ _ _ => rfl) ?_
      (evaluation_halts left fun occurs => calls (by simp [Expr.calls, occurs]))
      (evaluation_halts right fun occurs => calls (by simp [Expr.calls, occurs]))
    exact fun m e value value' situated tame tame' =>
      safe.giveOrFail situated (Value.binary_madeOf op tame tame') location
  | .logical op left right location, calls, stack, frame, safe => by
    have further : Safe config depth (.truth :: stack) :=
      safe.cons_value rfl fun _ _ value situated _ _ => safe.give situated (.bool _)
    have decides : Safe config depth (.logicalRight op right frame :: stack) := by
      refine safe.cons_value rfl fun _ _ value situated _ _ => ?_
      unfold acceptValue
      dsimp only
      split
      · exact safe.give situated (.bool _)
      · exact safe.give situated (.bool _)
      · exact (evaluation_halts right fun occurs => calls (by simp [Expr.calls, occurs])).evaluate
          further frame situated
    exact halts_of_step fun _ _ situated _ _ =>
      (evaluation_halts left fun occurs => calls (by simp [Expr.calls, occurs])).evaluate decides frame
        situated
  | .unary op operand location, calls, _, frame, safe => by
    refine halts_of_step fun _ _ situated _ _ => ?_
    refine (evaluation_halts operand calls).evaluate ?_ frame situated
    exact safe.cons_value rfl fun _ _ value situated _ _ =>
      safe.giveOrFail situated (Value.unary_madeOf op value) location
  | .index target index location, calls, _, frame, safe => by
    refine halts_of_step fun _ _ situated _ _ => ?_
    refine operands_halt (.subscript index frame location) (.index · location) safe situated frame rfl
      (fun _ => rfl) (fun _ _ _ => rfl) ?_
      (evaluation_halts target fun occurs => calls (by simp [Expr.calls, occurs]))
      (evaluation_halts index fun occurs => calls (by simp [Expr.calls, occurs]))
    exact fun m e value value' situated tame tame' =>
      safe.giveOrFail situated (Value.index_madeOf tame) location
  | .member target name location, calls, _, frame, safe => by
    refine halts_of_step fun _ _ situated _ _ => ?_
    refine (evaluation_halts target calls).evaluate ?_ frame situated
    exact safe.cons_value rfl fun m e value situated _ tame =>
      safe.giveOrFail situated (Value.member_madeOf tame name) location
  | .call callee args location, calls, _, frame, safe =>
    have permitted : CallsHalt config depth := calls rfl
    call_halts safe permitted location (evaluation_halts callee fun _ => permitted)
      (receiver_halts callee permitted)
      fun _ completes => gathering_halts args (fun _ => permitted) _ frame safe completes [] nofun

theorem receiver_halts : (callee : Expr) → CallsHalt config depth → ∀ target name place,
    callee = .member target name place → EvaluationHalts config depth target
  | .member target _ _, calls, _, _, _, rfl => evaluation_halts target fun _ => calls

theorem gathering_halts : (items : List Expr) →
    (anyCalls items = true → CallsHalt config depth) → ∀ stack (frame),
    Safe config depth stack → CompletionHalts config depth stack purpose →
    ∀ values, (∀ value ∈ values, value.MadeOf .tame) →
    HaltsFrom config depth stack (.gather purpose values items frame)
  | [], _, _, _, _, completes, values, tame =>
    halts_of_step fun _ e situated limits _ =>
      completes _ e _ situated limits fun value member =>
        tame value (List.mem_reverse.mp member)
  | first :: rest, calls, _, frame, safe, completes, values, tame => by
    refine halts_of_step fun _ _ situated _ _ => ?_
    refine (evaluation_halts first fun occurs => calls (by simp [anyCalls, occurs])).evaluate ?_ frame
      situated
    refine safe.cons_value rfl fun m e value situated limits given => ?_
    exact gathering_halts rest (fun occurs => calls (by simp [anyCalls, occurs])) _ frame safe completes
      (value :: values) (List.forall_mem_cons.mpr ⟨given, tame⟩) m situated

theorem pieces_halt : (parts : List StringPart) → (partsCall parts = true → CallsHalt config depth) →
    ∀ stack (text) (frame), Safe config depth stack →
    HaltsFrom config depth stack (.template text parts frame)
  | [], _, _, _, _, safe =>
    halts_of_step fun _ _ situated _ _ => safe.give situated (.string _)
  | .literal piece :: rest, calls, _, _, frame, safe =>
    halts_of_step fun _ _ situated _ _ =>
      pieces_halt rest (fun occurs => calls (by simp [partsCall, occurs])) _ _ frame safe _ situated
  | .placeholder value :: rest, calls, _, _, frame, safe => by
    refine halts_of_step fun _ _ situated _ _ => ?_
    refine (evaluation_halts value fun occurs =>
      calls (by simp [partsCall, StringPart.calls, occurs])).evaluate ?_ frame situated
    refine safe.cons_value rfl fun m e value situated limits _ => ?_
    exact pieces_halt rest (fun occurs => calls (by simp [partsCall, occurs])) _ _ frame safe _ situated

end

end Machine

end Stepper
