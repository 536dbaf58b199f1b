import Stepper.Proofs.Acceptance
import Stepper.Proofs.Callables
import Stepper.Proofs.Computation

/-! # Control flow stays where it belongs -/

namespace Stepper

open List

variable {k : Continuation}

/-! ### Legal functions and classes -/

def Callables.legal : Callables where
  function decl _ := decl.isLegal = true
  classDef decl _ := decl.isLegal {} = true

lemma Block.isLegal_eq (scope) (body : Block) :
    body.isLegal scope = listIsLegal scope body.statements := by
  cases body
  rw [isLegal]

lemma FunctionDecl.isLegal_eq (decl : FunctionDecl) :
    decl.isLegal = listIsLegal .function decl.body.statements := by
  cases decl
  rw [isLegal, Block.isLegal_eq]

lemma ClassDecl.isLegal_eq (scope) (decl : ClassDecl) : decl.isLegal scope =
    (decl.body.statements.all Stmt.isMember && listIsLegal scope decl.body.statements) := by
  cases decl
  rw [isLegal, Block.isLegal_eq]

lemma listIsLegal_of_members (only : members.all Stmt.isMember)
    (legal : listIsLegal scope members) (other) : listIsLegal other members := by
  induction members with
  | nil => rfl
  | cons first _ ih =>
    obtain ⟨mem, members⟩ := Bool.and_eq_true_iff.mp only
    obtain ⟨here, others⟩ := Bool.and_eq_true_iff.mp legal
    refine Bool.and_eq_true_iff.mpr ⟨?_, ih members others⟩
    cases first <;> first | exact here | cases mem

lemma ClassDecl.isLegal_anywhere {decl : ClassDecl} (legal : decl.isLegal scope = true) :
    decl.isLegal {} = true := by
  rw [isLegal_eq] at legal ⊢
  obtain ⟨only, members⟩ := Bool.and_eq_true_iff.mp legal
  exact Bool.and_eq_true_iff.mpr ⟨only, listIsLegal_of_members only members {}⟩

/-! ### What is awaited -/

def Flow.IsLegal (scope : Scope) : Flow → Prop
  | .normal => True
  | .leaveLoop | .nextIteration => scope.inLoop = true
  | .giveBack value => scope.inFunction = true ∧ value.MadeOf .legal

inductive Awaited where
  | value
  | flow (scope : Scope)

namespace Awaited

def Admits : Awaited → Result → Prop
  | _, .failure _ => True
  | .value, .value given => given.MadeOf .legal
  | .flow scope, .flow ending => ending.IsLegal scope
  | _, _ => False

def InScope (fact : Scope → Prop) : Awaited → Prop
  | .value => False
  | .flow scope => fact scope

def loop : Awaited → Awaited
  | .value => .value
  | .flow scope => .flow scope.loop

lemma InScope.elim {awaited : Awaited} (inScope : awaited.InScope fact) :
    ∃ scope, awaited = .flow scope ∧ fact scope := by
  cases awaited with
  | value => exact False.elim inScope
  | flow scope => exact ⟨scope, rfl, inScope⟩

lemma InScope.result {awaited : Awaited} (inScope : awaited.InScope fun _ => True) {result : Result}
    (admits : awaited.Admits result) :
    (∃ ending, result = .flow ending ∧ awaited.InScope fun scope => ending.IsLegal scope) ∨ ∃ error,
    result = .failure error := by
  cases awaited with
  | value => exact False.elim inScope
  | flow =>
    cases result with
    | value => exact False.elim admits
    | flow ending => exact .inl ⟨ending, rfl, admits⟩
    | failure error => exact .inr ⟨error, rfl⟩

end Awaited

namespace Continuation

def awaited (bottom : Awaited) : List Continuation → Awaited
  | [] => bottom
  | .activation _ :: _ => .flow .function
  | .statements _ _ :: rest => awaited bottom rest
  | .whileBody _ _ :: rest | .rangeBody _ :: rest | .repeatBody _ :: rest => (awaited bottom rest).loop
  | .sketched _ _ :: _ => .flow {}
  | _ => .value

end Continuation

/-! ### Legal states -/

def Boundary.IsLegal (scope : Scope) : Boundary → Prop
  | .statement s _ => s.isLegal scope = true
  | .line _ _ => scope = {}

def Purpose.IsLegal (below : Awaited) : Purpose → Prop
  | .array => below = .value
  | .call (.value callee receiver) _ =>
    below = .value ∧ callee.MadeOf .legal ∧ ∀ object ∈ receiver, object.MadeOf .legal
  | .call (.builtin _) _ => below = .value
  | .print _ => below.InScope fun _ => True

def Continuation.IsLegal (below : Awaited) : Continuation → Prop
  | .template _ _ _ | .assign _ _ _ | .binaryRight _ _ _ _ | .logicalRight _ _ _ | .truth
  | .unary _ _ | .subscript _ _ _ | .member _ _ | .receiver _ _ _ _ _ | .callee _ _ _
  | .activation _ => below = .value
  | .gather purpose values _ _ => purpose.IsLegal below ∧ ∀ value ∈ values, value.MadeOf .legal
  | .binary _ left _ => below = .value ∧ left.MadeOf .legal
  | .index target _ => below = .value ∧ target.MadeOf .legal
  | .field _ rest fields _ _ =>
    below = .value ∧ listIsLegal {} rest = true ∧ fields.MadeOf .legal
  | .statements rest _ => below.InScope fun scope => listIsLegal scope rest = true
  | .declare _ _ | .discard => below.InScope fun _ => True
  | .branch thenBranch elseBranch _ => below.InScope fun scope =>
    thenBranch.isLegal scope = true ∧ optionIsLegal scope elseBranch = true
  | .whileTest loop _ | .whileBody loop _ =>
    below.InScope fun scope => loop.body.isLegal scope.loop = true
  | .rangeFirst loop _ | .rangeLast loop _ | .rangeStep loop _ _ _ =>
    below.InScope fun scope => loop.body.isLegal scope.loop = true
  | .rangeBody pass => below.InScope fun scope => pass.loop.body.isLegal scope.loop = true
  | .repeatCount loop _ | .repeatStart loop _ _ =>
    below.InScope fun scope => loop.body.isLegal scope.loop = true
  | .repeatBody pass => below.InScope fun scope => pass.loop.body.isLegal scope.loop = true
  | .giveBack => below.InScope fun scope => scope.inFunction = true
  | .condition _ b _ | .log _ _ b _ | .watch _ _ _ _ b _ => below.InScope (b.IsLegal ·)
  | .sketched _ _ => below = .flow {}

def Continuation.AllLegal (bottom : Awaited) : List Continuation → Prop
  | [] => True
  | k :: rest => k.IsLegal (awaited bottom rest) ∧ AllLegal bottom rest

lemma Continuation.awaited_inScope (makes : k.IsLegal (awaited bottom top)) (takes : k.takesFlows) :
    (awaited bottom (k :: top)).InScope fun _ => True := by
  cases k with
  | statements | whileBody | rangeBody | repeatBody =>
    obtain ⟨_, awaits, -⟩ := makes.elim
    rw [awaited, awaits]
    trivial
  | _ => cases takes

def Wait.IsLegal (below : Awaited) : Wait → Prop
  | .yielded b | .paused b _ => below.InScope (b.IsLegal ·)
  | .input _ _ => below = .value

def Control.IsLegal (below : Awaited) : Control → Prop
  | .evaluate _ _ | .template _ _ _ => below = .value
  | .gather purpose values _ _ => purpose.IsLegal below ∧ ∀ value ∈ values, value.MadeOf .legal
  | .build rest fields _ _ => below = .value ∧ listIsLegal {} rest = true ∧ fields.MadeOf .legal
  | .statements rest _ => below.InScope fun scope => listIsLegal scope rest = true
  | .rangePass pass => below.InScope fun scope => pass.loop.body.isLegal scope.loop = true
  | .repeatPass pass => below.InScope fun scope => pass.loop.body.isLegal scope.loop = true
  | .boundary b | .arrived b | .log _ _ b _ | .watch _ _ _ b _ | .proceed b =>
    below.InScope (b.IsLegal ·)
  | .lines _ => below = .flow {}
  | .deliver result => below.Admits result
  | .waiting wait => wait.IsLegal below
  | .finished _ => True

namespace Machine

structure Grounded (bottom : Awaited) (below top : List Continuation) (m : Machine) : Prop where
  environment : m.environment.MadeOf .legal
  stack : m.stack = top ++ below
  legal : Continuation.AllLegal bottom top

def Contained (bottom : Awaited) (below : List Continuation) (m : Machine) : Prop :=
  ∃ top, Grounded bottom below top m ∧ m.control.IsLegal (Continuation.awaited bottom top)

namespace Grounded
variable {bottom : Awaited} {below top : List Continuation} {m : Machine}
  (firm : Grounded bottom below top m)
include firm

lemma into {control : Control} (legal : control.IsLegal (Continuation.awaited bottom top)) :
    Contained bottom below (m.into control) :=
  ⟨top, ⟨firm.environment, firm.stack, firm.legal⟩, legal⟩

lemma push {control : Control} (makes : k.IsLegal (Continuation.awaited bottom top))
    (legal : control.IsLegal (Continuation.awaited bottom (k :: top))) :
    Contained bottom below (m.push k control) :=
  ⟨k :: top, ⟨firm.environment, congrArg (k :: ·) firm.stack, makes, firm.legal⟩, legal⟩

lemma evaluate (makes : k.IsLegal (Continuation.awaited bottom top))
    (takes : Continuation.awaited bottom (k :: top) = .value) :
    Contained bottom below (m.evaluate k e frame) :=
  firm.push makes takes

lemma evaluateMuted (makes : k.IsLegal (Continuation.awaited bottom top))
    (takes : Continuation.awaited bottom (k :: top) = .value) :
    Contained bottom below (m.evaluateMuted k e frame) := by
  have muted : Grounded bottom below top { m with muted := true } :=
    ⟨firm.environment, firm.stack, firm.legal⟩
  exact muted.evaluate makes takes

lemma fail (fault) (location) : Contained bottom below (m.fail fault location) := by
  refine firm.into ?_
  cases Continuation.awaited bottom top <;> exact trivial

lemma give (takes : Continuation.awaited bottom top = .value) (made : value.MadeOf .legal) :
    Contained bottom below (m.give value) := by
  refine firm.into ?_
  rw [takes]
  exact made

lemma giveOrFail (takes : Continuation.awaited bottom top = .value) (gives : GivesMadeOf .legal result)
    (location) : Contained bottom below (m.giveOrFail result location) := by
  cases result with
  | ok => exact firm.give takes gives
  | error fault => exact firm.fail fault location

lemma flow {flow : Flow}
    (takes : (Continuation.awaited bottom top).InScope fun scope => flow.IsLegal scope) :
    Contained bottom below (m.flow flow) := by
  refine firm.into ?_
  obtain ⟨_, awaits, legal⟩ := takes.elim
  rw [awaits]
  exact legal

lemma done (takes : (Continuation.awaited bottom top).InScope fun _ => True) :
    Contained bottom below (m.flow .normal) :=
  firm.flow takes

lemma define (frame) (name) (made : value.MadeOf .legal) :
    Grounded bottom below top (m.define frame name value) :=
  ⟨firm.environment.define frame name made, firm.stack, firm.legal⟩

lemma pop (frame) : Grounded bottom below top { m with environment := m.environment.pop frame } :=
  ⟨firm.environment.pop frame, firm.stack, firm.legal⟩

end Grounded

section Steps
variable {bottom : Awaited} {below top : List Continuation} {m next : Machine}

section Grounding
variable (firm : Grounded bottom below top m)
include firm

/-! ### Expressions and calls -/

lemma stepExpr_contained (takes : Continuation.awaited bottom top = .value) (e) (frame) :
    Contained bottom below (m.stepExpr e frame) := by
  unfold stepExpr
  split
  · exact firm.give takes (.number _)
  · exact firm.give takes (.string _)
  · exact firm.give takes (.bool _)
  · exact firm.give takes .null
  · exact firm.into takes
  · exact firm.into ⟨takes, forall_mem_nil _⟩
  · split
    · next found => exact firm.give takes (firm.environment.get found)
    · exact firm.fail _ _
  · exact firm.evaluate takes rfl
  · exact firm.evaluate takes rfl
  · exact firm.evaluate takes rfl
  · exact firm.evaluate takes rfl
  · exact firm.evaluate takes rfl
  · exact firm.evaluate takes rfl
  · split
    · exact firm.evaluate takes rfl
    · dsimp only
      split
      · exact firm.into ⟨takes, forall_mem_nil _⟩
      · exact firm.evaluate takes rfl
    · exact firm.evaluate takes rfl

lemma applyValue_contained (takes : Continuation.awaited bottom top = .value) (maxDepth)
    {callee : Value} (called : callee.MadeOf .legal) (given : ∀ arg ∈ args, arg.MadeOf .legal)
    (object : ∀ self ∈ receiver, self.MadeOf .legal) (location : Location) :
    Contained bottom below (m.applyValue maxDepth callee args receiver location) := by
  unfold applyValue
  split
  · next decl home =>
    split
    · exact firm.fail _ _
    · split
      · exact firm.fail _ _
      · cases called with
        | function legal =>
          have opened := firm.environment.push home
          generalize m.environment.push home = opening at opened ⊢
          obtain ⟨environment, frame⟩ := opening
          have entered {inner : Environment Value} (bound : inner.MadeOf .legal) :
              Grounded bottom below top { m with environment := inner, depth := m.depth + 1 } :=
            ⟨bound, firm.stack, firm.legal⟩
          have values : ∀ entry ∈ decl.params.zip args, entry.2.MadeOf .legal :=
            fun entry mem => given entry.2 (of_mem_zip mem).2
          have allowed := decl.isLegal_eq.symm.trans legal
          cases receiver with
          | none => exact (entered (opened.defineAll frame values)).push takes allowed
          | some self =>
            have bound := opened.define frame "self" (object self rfl)
            exact (entered (bound.defineAll frame values)).push takes allowed
  · next decl home =>
    split
    · cases called with
      | classDef legal =>
        obtain ⟨-, members⟩ := Bool.and_eq_true_iff.mp ((decl.isLegal_eq {}).symm.trans legal)
        have opened := firm.environment.push home
        generalize m.environment.push home = opening at opened ⊢
        obtain ⟨environment, _⟩ := opening
        have made : Grounded bottom below top { m with environment } :=
          ⟨opened, firm.stack, firm.legal⟩
        exact made.into ⟨takes, members, forall_mem_nil _⟩
    · exact firm.fail _ _
  · exact firm.fail _ _

lemma complete_contained (e) (legal : purpose.IsLegal (Continuation.awaited bottom top))
    (given : ∀ value ∈ values, value.MadeOf .legal) :
    Contained bottom below (m.complete e purpose values).2 := by
  unfold complete
  split
  · exact firm.give legal (.array given)
  · obtain ⟨takes, called, object⟩ := legal
    exact applyValue_contained firm takes _ called given object _
  · unfold applyBuiltin
    split
    · split
      · exact firm.fail _ _
      · exact firm.into legal
    · exact firm.giveOrFail legal (Builtin.call_madeOf _ _) _
  · unfold print
    split
    · exact firm.fail _ _
    · have printed (outputs) : Grounded bottom below top { m with outputs } :=
        ⟨firm.environment, firm.stack, firm.legal⟩
      exact (printed _).done legal

lemma stepBuild_contained (takes : Continuation.awaited bottom top = .value)
    (legal : listIsLegal {} rest) (made : fields.MadeOf .legal) (frame home) :
    Contained bottom below (m.stepBuild rest fields frame home) := by
  unfold stepBuild
  split
  · exact (firm.pop frame).give takes (.object made)
  · exact firm.evaluate ⟨takes, (Bool.and_eq_true_iff.mp legal).2, made⟩ rfl
  · exact (firm.define _ _ .null).into
      ⟨takes, (Bool.and_eq_true_iff.mp legal).2, made.insert _ .null⟩
  · obtain ⟨here, others⟩ := Bool.and_eq_true_iff.mp legal
    exact firm.into ⟨takes, others, made.insert _ (.function here)⟩
  · exact firm.into ⟨takes, (Bool.and_eq_true_iff.mp legal).2, made⟩

lemma perform_contained {s : Stmt}
    (legal : (Continuation.awaited bottom top).InScope (s.isLegal · = true)) (frame : FrameId) :
    Contained bottom below (m.perform s frame) := by
  obtain ⟨_, awaits, legal⟩ := legal.elim
  unfold perform
  split
  · split
    · exact firm.evaluate (awaits ▸ trivial) rfl
    · exact (firm.define _ _ .null).done (awaits ▸ trivial)
  · exact (firm.define _ _ (.function legal)).done (awaits ▸ trivial)
  · exact (firm.define _ _ (.classDef (ClassDecl.isLegal_anywhere legal))).done (awaits ▸ trivial)
  · exact firm.evaluate (awaits ▸ Bool.and_eq_true_iff.mp legal) rfl
  · exact firm.evaluate (awaits ▸ legal) rfl
  · exact firm.evaluate (awaits ▸ legal) rfl
  · exact firm.evaluate (awaits ▸ (Bool.and_eq_true_iff.mp legal).2) rfl
  · refine firm.into ?_
    rw [Stmt.isLegal, Block.isLegal_eq] at legal
    exact awaits ▸ legal
  · split
    · exact firm.evaluate (awaits ▸ legal) rfl
    · exact firm.flow (awaits ▸ ⟨legal, .null⟩)
  · exact firm.into ⟨awaits ▸ trivial, forall_mem_nil _⟩
  · exact firm.flow (awaits ▸ legal)
  · exact firm.flow (awaits ▸ legal)
  · exact firm.evaluate (awaits ▸ trivial) rfl

lemma stepRange_contained (maxPasses : Nat) {pass : RangePass}
    (legal : (Continuation.awaited bottom top).InScope (pass.loop.body.isLegal ·.loop = true)) :
    Contained bottom below (m.stepRange maxPasses pass) := by
  obtain ⟨_, awaits, body⟩ := legal.elim
  unfold stepRange
  split
  · split
    · exact firm.fail _ _
    · refine (firm.define _ _ (.number _)).push legal ?_
      change (Continuation.awaited bottom top).loop.InScope _
      rw [awaits]
      exact (Block.isLegal_eq _ _).symm.trans body
  · exact firm.done (awaits ▸ trivial)

lemma stepRepeat_contained (maxPasses : Nat) {pass : RepeatPass}
    (legal : (Continuation.awaited bottom top).InScope (pass.loop.body.isLegal ·.loop = true)) :
    Contained bottom below (m.stepRepeat maxPasses pass) := by
  obtain ⟨_, awaits, body⟩ := legal.elim
  have inside : (Continuation.awaited bottom top).loop.InScope
      (listIsLegal · pass.loop.body.statements = true) := by
    rw [awaits]
    exact (Block.isLegal_eq _ _).symm.trans body
  unfold stepRepeat
  split
  · split
    · exact firm.fail _ _
    · split
      · exact (firm.define _ _ (.number _)).push legal inside
      · exact firm.push legal inside
  · exact firm.done (awaits ▸ trivial)

/-! ### Boundaries and the debugger -/

section
variable {b : Boundary} (legal : (Continuation.awaited bottom top).InScope (b.IsLegal ·))
include legal

lemma Crosses.contained (crosses : Crosses b m next) : Contained bottom below next := by
  have counted (crossed) : Grounded bottom below top { m with crossed } :=
    ⟨firm.environment, firm.stack, firm.legal⟩
  cases crosses with
  | unnoticed => exact firm.into legal
  | stops fault => exact firm.fail fault _
  | yields crossed | arrives crossed => exact (counted crossed).into legal

lemma Attends.contained (attends : Attends b m next) : Contained bottom below next := by
  cases attends with
  | proceeds | logs | watches => exact firm.into legal
  | asksCondition | asksLog => exact firm.evaluateMuted legal rfl

lemma stepWatch_contained (e) (rest) (values bindings) (stop) :
    Contained bottom below (m.stepWatch e rest values bindings b stop).2 := by
  unfold stepWatch
  split
  · exact firm.into legal
  · exact firm.evaluateMuted legal rfl

lemma proceed_contained : Contained bottom below (m.proceed b) := by
  cases b with
  | statement _ frame => exact perform_contained firm legal frame
  | line line =>
    obtain ⟨_, awaits, rfl⟩ := legal.elim
    unfold proceed
    dsimp only
    split
    · next program parsed =>
      have accepted : (analyzeUnit line.number line.text).program = some program := by
        split at parsed
        · exact parsed
        · cases parsed
      obtain ⟨clean, rfl⟩ := parse_of_accepted accepted
      have muted : Grounded bottom below top { m with muted := true } :=
        ⟨firm.environment, firm.stack, firm.legal⟩
      exact muted.push awaits (parse_isWellFormed clean).legal
    · exact firm.into awaits

end

lemma Resumes.contained (control : m.control = .waiting wait)
    (legal : wait.IsLegal (Continuation.awaited bottom top)) {next : Engine × Machine}
    (resumes : Resumes e m wait next) : Contained bottom below next.2 := by
  have rested (excluded) : Grounded bottom below top { m with excluded } :=
    ⟨firm.environment, firm.stack, firm.legal⟩
  cases resumes with
  | stays => exact ⟨top, firm, control ▸ legal⟩
  | stops _ _ excluded fault location => exact (rested excluded).fail fault location
  | arrives => exact firm.into legal
  | proceeds _ _ excluded => exact (rested excluded).into legal
  | answers _ _ _ excluded text => exact (rested excluded).give legal (.string text)

/-! ### Results -/

lemma withNumber_contained (role) (value) (place) (goes : ∀ x, Contained bottom below (go x)) :
    Contained bottom below (m.withNumber role value place go) := by
  unfold withNumber
  split
  · exact goes _
  · exact firm.fail _ _

lemma startRange_contained
    (legal : (Continuation.awaited bottom top).InScope (loop.body.isLegal ·.loop = true))
    (first last step) : Contained bottom below (m.startRange loop first last step) := by
  unfold startRange
  split
  · exact firm.fail _ _
  · exact firm.into legal

lemma acceptValue_contained (e : Engine) (makes : k.IsLegal (Continuation.awaited bottom top))
    (takes : Continuation.awaited bottom (k :: top) = .value) (plain : k.isProbe = false)
    {value : Value} (made : value.MadeOf .legal) :
    Contained bottom below (m.acceptValue e k value) := by
  cases k with
  | activation | sketched => cases takes
  | condition | log | watch => cases plain
  | statements =>
    obtain ⟨_, awaits, -⟩ := makes.elim
    cases awaits.symm.trans takes
  | whileBody | rangeBody | repeatBody =>
    obtain ⟨_, awaits, -⟩ := makes.elim
    cases (congrArg Awaited.loop awaits).symm.trans takes
  | template => exact firm.into makes
  | callee => exact firm.into ⟨⟨makes, made, nofun⟩, forall_mem_nil _⟩
  | gather =>
    exact firm.into ⟨makes.1, forall_mem_cons.mpr ⟨made, makes.2⟩⟩
  | assign =>
    unfold acceptValue
    dsimp only
    split
    · next environment assigned =>
      have bound : Grounded bottom below top { m with environment } :=
        ⟨firm.environment.assign made assigned, firm.stack, firm.legal⟩
      exact bound.give makes made
    · exact firm.fail _ _
  | binaryRight => exact firm.evaluate ⟨makes, made⟩ rfl
  | binary op _ location =>
    exact firm.giveOrFail makes.1 (Value.binary_madeOf op makes.2 made) location
  | logicalRight =>
    unfold acceptValue
    dsimp only
    split
    · exact firm.give makes (.bool _)
    · exact firm.give makes (.bool _)
    · exact firm.evaluate makes rfl
  | truth => exact firm.give makes (.bool _)
  | unary op location => exact firm.giveOrFail makes (Value.unary_madeOf op value) location
  | subscript => exact firm.evaluate ⟨makes, made⟩ rfl
  | index _ location =>
    exact firm.giveOrFail makes.1 (Value.index_madeOf makes.2) location
  | member name location => exact firm.giveOrFail makes (Value.member_madeOf made name) location
  | receiver name =>
    have found := Value.member_madeOf made name
    unfold acceptValue
    dsimp only
    split
    · next _ present =>
      refine firm.into ⟨⟨makes, found.of_ok present, ?_⟩, forall_mem_nil _⟩
      rintro _ ⟨⟩
      exact made
    · exact firm.fail _ _
  | field name _ _ frame =>
    exact (firm.define frame name made).into ⟨makes.1, makes.2.1, makes.2.2.insert name made⟩
  | declare name frame => exact (firm.define frame name made).done makes
  | branch =>
    obtain ⟨_, awaits, first, second⟩ := makes.elim
    unfold acceptValue
    dsimp only
    split
    · exact firm.into (awaits ▸ (Block.isLegal_eq _ _).symm.trans first)
    · split
      · exact firm.into (awaits ▸ (Block.isLegal_eq _ _).symm.trans second)
      · exact firm.done (awaits ▸ trivial)
  | whileTest loop =>
    obtain ⟨_, awaits, body⟩ := makes.elim
    unfold acceptValue
    dsimp only
    split
    · split
      · exact firm.fail _ _
      · refine firm.push makes ?_
        change (Continuation.awaited bottom top).loop.InScope _
        rw [awaits]
        exact (Block.isLegal_eq _ _).symm.trans body
    · exact firm.done (awaits ▸ trivial)
  | rangeFirst =>
    exact withNumber_contained firm _ _ _ fun first => firm.evaluate makes rfl
  | rangeLast =>
    refine withNumber_contained firm _ _ _ fun _ => ?_
    split
    · exact firm.evaluate makes rfl
    · exact startRange_contained firm makes _ _ _
  | rangeStep =>
    exact withNumber_contained firm _ _ _ fun _ => startRange_contained firm makes _ _ _
  | repeatCount =>
    refine withNumber_contained firm _ _ _ fun _ => ?_
    dsimp only
    split
    · exact firm.evaluate makes rfl
    · exact firm.into makes
  | repeatStart =>
    exact withNumber_contained firm _ _ _ fun first => firm.into makes
  | giveBack =>
    obtain ⟨_, awaits, inside⟩ := makes.elim
    exact firm.flow (awaits ▸ ⟨inside, made⟩)
  | discard => exact firm.done makes

lemma loop_contained (makes : k.IsLegal (Continuation.awaited bottom top)) (loops : k.isLoop)
    {flow : Flow} (legal : (Continuation.awaited bottom (k :: top)).InScope fun scope => flow.IsLegal
      scope) (again : Contained bottom below (m.acceptFlow k .normal)) :
    Contained bottom below (m.acceptFlow k flow) := by
  obtain ⟨scope, awaits, inside⟩ : ∃ scope, Continuation.awaited bottom top = .flow scope ∧
      Continuation.awaited bottom (k :: top) = .flow scope.loop := by
    cases k with
    | whileBody | rangeBody | repeatBody =>
      obtain ⟨scope, awaits, -⟩ := makes.elim
      exact ⟨scope, awaits, congrArg Awaited.loop awaits⟩
    | _ => cases loops
  rw [inside] at legal
  cases flow with
  | normal => exact again
  | nextIteration =>
    rw [acceptFlow_nextIteration loops]
    exact again
  | leaveLoop =>
    rw [acceptFlow_leaveLoop loops]
    exact firm.done (awaits ▸ trivial)
  | giveBack =>
    rw [acceptFlow_giveBack]
    exact firm.flow (awaits ▸ legal)

lemma acceptFlow_contained (makes : k.IsLegal (Continuation.awaited bottom top))
    (takes : k.takesFlows) {flow : Flow} (legal : (Continuation.awaited bottom (k ::
      top)).InScope fun scope => flow.IsLegal scope) :
    Contained bottom below (m.acceptFlow k flow) := by
  cases k with
  | statements =>
    cases flow with
    | normal => exact firm.into makes
    | leaveLoop | nextIteration | giveBack => exact firm.flow legal
  | whileBody =>
    exact loop_contained firm makes rfl legal (firm.evaluate makes rfl)
  | rangeBody pass | repeatBody pass =>
    exact loop_contained firm makes rfl legal (firm.into makes)
  | _ => cases takes

lemma deliverTo_contained (e) (makes : k.IsLegal (Continuation.awaited bottom top)) {result : Result}
    (admits : (Continuation.awaited bottom (k :: top)).Admits result) :
    Contained bottom below (m.deliverTo e k result).2 := by
  have heard : Grounded bottom below top { m with muted := false } :=
    ⟨firm.environment, firm.stack, firm.legal⟩
  cases k with
  | activation frame =>
    have left : Grounded bottom below top
        { m with environment := m.environment.pop frame, depth := m.depth - 1 } :=
      ⟨firm.environment.pop frame, firm.stack, firm.legal⟩
    cases result with
    | value => exact False.elim admits
    | failure => exact left.fail _ _
    | flow flow =>
      cases flow with
      | giveBack => exact left.give makes admits.2
      | _ => exact left.give makes .null
  | condition | log | watch => exact (m.deliverTo_attends e rfl result).contained heard makes
  | sketched =>
    cases result with
    | failure =>
      simp only [deliverTo]
      split
      · exact heard.fail _ _
      · exact heard.into makes
    | _ => exact heard.into makes
  | field _ _ _ frame =>
    cases result with
    | value => exact acceptValue_contained firm e makes rfl rfl admits
    | flow => exact False.elim admits
    | failure => exact (firm.pop frame).fail _ _
  | statements | whileBody | rangeBody | repeatBody =>
    obtain ⟨_, rfl, legal⟩ | ⟨_, rfl⟩ :=
      Awaited.InScope.result (Continuation.awaited_inScope makes rfl) admits
    · exact acceptFlow_contained firm makes rfl legal
    · exact firm.fail _ _
  | _ =>
    cases result with
    | value => exact acceptValue_contained firm e makes rfl rfl admits
    | flow => exact False.elim admits
    | failure => exact firm.fail _ _

end Grounding

lemma Contained.step (contained : Contained bottom below m)
    (above : ∀ result, m.control = .deliver result → m.stack ≠ below) (e) :
    Contained bottom below (m.step e).2 := by
  obtain ⟨top, firm, legal⟩ := contained
  unfold Machine.step
  generalize shape : m.control = control at legal ⊢
  cases control with
  | evaluate expr frame => exact stepExpr_contained firm legal expr frame
  | template =>
    dsimp only
    split
    · exact firm.give legal (.string _)
    · exact firm.into legal
    · exact firm.evaluate legal rfl
  | gather =>
    dsimp only
    split
    · exact complete_contained firm e legal.1 fun value mem =>
        legal.2 value (mem_reverse.mp mem)
    · exact firm.evaluate legal rfl
  | build _ _ frame home =>
    exact stepBuild_contained firm legal.1 legal.2.1 legal.2.2 frame home
  | statements =>
    obtain ⟨_, awaits, lists⟩ := legal.elim
    dsimp only
    split
    · exact firm.done (awaits ▸ trivial)
    · obtain ⟨here, others⟩ := Bool.and_eq_true_iff.mp lists
      exact firm.push (awaits ▸ others) (awaits ▸ here)
  | rangePass => exact stepRange_contained firm _ legal
  | repeatPass => exact stepRepeat_contained firm _ legal
  | boundary b => exact (m.stepBoundary_crosses e b).contained firm legal
  | arrived b => exact (m.arrive_attends e b).contained firm legal
  | log text rest _ mode => exact (m.stepLog_attends e text rest mode).contained firm legal
  | watch rest values bindings _ stop =>
    exact stepWatch_contained firm legal e rest values bindings stop
  | proceed => exact proceed_contained firm legal
  | lines =>
    have awaits : Continuation.awaited bottom top = .flow {} := legal
    dsimp only
    split
    · exact firm.done (awaits ▸ trivial)
    · exact firm.into (awaits ▸ rfl)
  | deliver result =>
    cases top with
    | nil => exact absurd firm.stack (above result shape)
    | cons k top =>
      have stack : m.stack = k :: (top ++ below) := firm.stack
      have popped : Grounded bottom below top { m with stack := top ++ below } :=
        ⟨firm.environment, rfl, firm.legal.2⟩
      simp only [deliver, stack]
      exact deliverTo_contained popped e firm.legal.1 legal
  | waiting wait => exact (m.resume_resumes e wait).contained firm shape legal
  | finished =>
    dsimp only
    exact ⟨top, firm, shape ▸ trivial⟩

lemma Contained.step_run (contained : Contained (.flow {}) [] m) (e) :
    Contained (.flow {}) [] (m.step e).2 := by
  by_cases ends : ∃ result, m.control = .deliver result ∧ m.stack = []
  · obtain ⟨_, shape, stack⟩ := ends
    obtain ⟨_, firm, -⟩ := contained
    simp only [Machine.step, shape, deliver, stack]
    split <;> exact firm.into trivial
  · exact contained.step (fun result shape stack => ends ⟨result, shape, stack⟩) e

end Steps

end Machine

end Stepper
