import Stepper.Proofs.FrameDiscipline
import Stepper.Proofs.Tameness

/-! # Calls keep to their own frames -/

namespace Stepper

open List

/-! ### Declarations at the top -/

def Stmt.isDeclaration : Stmt → Bool
  | .function _ _ | .classDef _ _ => true
  | _ => false

/-- Whether statements declare neither functions nor classes, at any depth. -/
def declareNone (statements : List Stmt) : Bool :=
  (listStatements statements).all fun s => !s.isDeclaration

/-- Whether a member of a class declares nothing inside. -/
def Stmt.isPlainMember : Stmt → Bool
  | .function method _ => declareNone method.body.statements
  | other => declareNone [other]

/-- Whether a statement at the top declares nothing but itself and the methods of a class. -/
def Stmt.isPlainTop : Stmt → Bool
  | .classDef decl _ => decl.body.statements.all Stmt.isPlainMember
  | other => other.isPlainMember

/-- Whether a program declares functions and classes at its top level only. -/
def Program.declaresAtTop (program : Program) : Bool := program.statements.all Stmt.isPlainTop

lemma declareNone_iff : declareNone statements = true ↔ ∀ s ∈ statements, declareNone [s] = true := by
  have single (s) :
      declareNone [s] = true ↔ ∀ inner ∈ s.preorder, inner.isDeclaration = false := by
    simp [declareNone, listStatements]
  simp only [single]
  simp only [declareNone, all_eq_true, Bool.not_eq_true', mem_listStatements]
  constructor
  · exact fun none s mem inner inside => none inner ⟨s, mem, inside⟩
  · rintro none inner ⟨s, mem, inside⟩
    exact none s mem inner inside

lemma not_declareNone (declares : s.isDeclaration) : ¬declareNone [s] = true := by
  intro none
  have plain := all_eq_true.mp none s (mem_listStatements.mpr ⟨s, mem_singleton_self _,
    s.mem_preorder_self⟩)
  rw [declares] at plain
  cases plain

lemma declareNone_inside {inner : Stmt} (none : declareNone [s]) (own : body ∈ s.bodies)
    (mem : inner ∈ body.statements) : declareNone [inner] := by
  refine all_eq_true.mpr fun deep inside => ?_
  have within : deep ∈ listStatements body.statements := by
    obtain ⟨_, same, deeper⟩ := mem_listStatements.mp inside
    obtain rfl := mem_singleton.mp same
    exact mem_listStatements.mpr ⟨_, mem, deeper⟩
  exact all_eq_true.mp none deep (mem_listStatements.mpr ⟨s, mem_singleton_self _,
    Stmt.mem_preorder_of_body own within⟩)

def Stock.top : Stock where
  callables :=
    { function := fun decl home => home = .global ∧ declareNone decl.body.statements = true
      classDef := fun decl home =>
        home = .global ∧ decl.body.statements.all Stmt.isPlainMember = true }
  statement frame s := declareNone [s] = true ∨ frame = .global ∧ s.isPlainTop = true
  line _ := False
  inside := by
    rintro _ s (none | ⟨rfl, plain⟩) _ own inner member
    · exact .inl (declareNone_inside none own member)
    · cases s with
      | function =>
        obtain rfl := mem_singleton.mp own
        exact .inl (declareNone_iff.mp plain inner member)
      | classDef =>
        obtain rfl := mem_singleton.mp own
        have plainToo := all_eq_true.mp plain inner member
        cases inner with
        | function => exact .inr ⟨rfl, plainToo⟩
        | _ => exact .inl plainToo
      | _ => exact .inl (declareNone_inside plain own member)
  function := by
    rintro _ _ _ (none | ⟨rfl, plain⟩)
    · exact absurd none (not_declareNone rfl)
    · exact ⟨rfl, plain⟩
  classDef := by
    rintro _ _ _ (none | ⟨rfl, plain⟩)
    · exact absurd none (not_declareNone rfl)
    · exact ⟨rfl, plain⟩
  called known _ inner member := .inl (declareNone_iff.mp known.2 inner member)
  method known method location member := ⟨known.1, all_eq_true.mp known.2 _ member⟩
  alone := False.elim

lemma Stock.top_home (known : top.IsHome home) : home = .global := by
  obtain ⟨_, known⟩ | ⟨_, known⟩ := known
  · exact known.1
  · exact known.1

lemma Stock.top_covers (atTop : program.declaresAtTop) : top.Covers (.program program) :=
  fun s mem => .inr ⟨rfl, all_eq_true.mp atTop s mem⟩

def Control.isCall : Control → Bool
  | .gather (.call _ _) _ [] _ => true
  | _ => false

lemma Control.exists_of_isCall {control : Control} (calls : control.isCall) :
    ∃ callee location values site, control = .gather (.call callee location) values [] site := by
  unfold isCall at calls
  split at calls
  · next callee location values site => exact ⟨callee, location, values, site, rfl⟩
  · cases calls

namespace Machine

/-! ### The course of a call -/

inductive Called (below : List Continuation) (m : Machine) : Prop where
  | starts (control : m.control = .gather (.call callee location) values [] frame)
      (stack : m.stack = below)
  | asks (control : m.control = .waiting (.input wait location)) (stack : m.stack = below)
  | builds (control : m.control = .build rest fields frame home) (stack : m.stack = below)
  | inside (closes : k.closes?.isSome = true) (stack : m.stack = top ++ k :: below)
  | done (control : m.control = .deliver result) (stack : m.stack = below)

section Calls
variable {m : Machine} {below : List Continuation}

lemma Called.enters (closes : k.closes?.isSome) (stack : m.stack = k :: below) :
    Called below m :=
  .inside closes (stack.trans (nil_append (k :: below)).symm)

lemma applyValue_called (maxDepth) (callee) (args) (receiver) (location) :
    Called m.stack (m.applyValue maxDepth callee args receiver location) := by
  unfold applyValue
  split
  · split
    · exact .done rfl rfl
    · split
      · exact .done rfl rfl
      · exact .enters rfl rfl
  · split
    · exact .builds rfl rfl
    · exact .done rfl rfl
  · exact .done rfl rfl

lemma giveOrFail_called (result : Except Fault Value) (location) :
    Called m.stack (m.giveOrFail result location) := by
  cases result <;> exact .done rfl rfl

lemma complete_called (e) (callee) (location) (values) :
    Called m.stack (m.complete e (.call callee location) values).2 := by
  cases callee with
  | value callee receiver => exact applyValue_called _ callee values receiver location
  | builtin =>
    simp only [complete]
    unfold applyBuiltin
    split
    · split
      · exact .done rfl rfl
      · exact .asks rfl rfl
    · exact giveOrFail_called _ _

lemma stepBuild_called (rest) (fields) (frame home) :
    Called m.stack (m.stepBuild rest fields frame home) := by
  unfold stepBuild
  split
  · exact .done rfl rfl
  · exact .enters rfl rfl
  · exact .builds rfl rfl
  · exact .builds rfl rfl
  · exact .builds rfl rfl

lemma deliverTo_called (e) (closes : k.closes?.isSome) (result) :
    Called m.stack (m.deliverTo e k result).2 := by
  cases k with
  | activation =>
    cases result with
    | flow flow => cases flow <;> exact .done rfl rfl
    | _ => exact .done rfl rfl
  | field =>
    cases result with
    | value => exact .builds rfl rfl
    | _ => exact .done rfl rfl
  | _ => cases closes

lemma resume_called (e) (control : m.control = .waiting (.input wait location)) : Called m.stack
    (m.resume e (.input wait location)).2 ∧ (m.resume e (.input wait location)).2.environment =
    m.environment := by
  unfold resume
  dsimp only
  split
  · split
    · exact ⟨.done rfl rfl, rfl⟩
    · split
      · exact ⟨.done rfl rfl, rfl⟩
      · exact ⟨.done rfl rfl, rfl⟩
  · split
    · exact ⟨.done rfl rfl, rfl⟩
    · exact ⟨.asks control rfl, rfl⟩

lemma Called.step {limit : Nat} (called : Called below m)
    (advances : Advances stock limit m (m.step e).2) (working : m.handsOver below.length = false) :
    Called below (m.step e).2 := by
  cases called with
  | starts control stack =>
    simp only [Machine.step, control]
    exact stack ▸ complete_called e _ _ _
  | asks control stack =>
    simp only [Machine.step, control]
    exact stack ▸ (resume_called e control).1
  | builds control stack =>
    simp only [Machine.step, control]
    exact stack ▸ stepBuild_called _ _ _ _
  | @inside top k closes stack =>
    by_cases last : top = [] ∧ ∃ result, m.control = .deliver result
    · obtain ⟨rfl, result, control⟩ := last
      have delivered : m.step e = ({ m with stack := below } : Machine).deliverTo e k result := by
        simp only [Machine.step, control, Machine.deliver, stack, nil_append]
      rw [delivered]
      exact deliverTo_called (m := { m with stack := below }) e closes result
    · obtain ⟨_, above⟩ := advances.inside stack last
      exact .inside closes above
  | done control stack =>
    have hands := handsOver_iff.mpr ⟨⟨_, control⟩, congrArg List.length stack⟩
    rw [working] at hands
    cases hands

lemma complete_keeps (e) (callee) (location) (values) {frames : List FrameId}
    (nests : m.environment.Nests frames) {id : FrameId} (opened : m.environment.hasFrame id) :
    (m.complete e (.call callee location) values).2.environment.frame? id = m.environment.frame?
    id := by
  have pushed (home) (bindings) :=
    (nests.frame?_openWith home bindings).1 id opened
  cases callee with
  | value _ receiver =>
    simp only [complete]
    unfold applyValue
    split
    · next decl home =>
      split
      · rfl
      · split
        · rfl
        · cases receiver with
          | none => exact pushed home (decl.params.zip values)
          | some self => exact pushed home (("self", self) :: decl.params.zip values)
    · next _ home =>
      split
      · exact pushed home []
      · rfl
    · rfl
  | builtin =>
    simp only [complete]
    unfold applyBuiltin
    split
    · split <;> rfl
    · unfold giveOrFail
      split <;> rfl

lemma Framed.hides {limit : Nat} (framed : m.Framed .top limit)
    (shallow : m.environment.Shallow m.frames) (inside : front ≠ [])
    (frames : m.frames = front ++ Continuation.frames below) {next : Machine}
    (turn : m.environment.Turn Stock.top.IsHome assigning m.frames next.environment next.frames)
    {id : FrameId} (mem : id ∈ Continuation.frames below) :
    next.environment.frame? id = m.environment.frame? id := by
  have nests : m.environment.Nests m.frames := framed.standing.nests
  obtain ⟨first, _, rfl⟩ := exists_cons_of_ne_nil inside
  have innermost : FrameId.innermost m.frames = first := by
    rw [frames]
    rfl
  have lineage : m.environment.Lineage (.innermost m.frames) [first, .global] := by
    rw [innermost]
    exact shallow.lineage nests (frames ▸ mem_cons_self)
  have here : id ∈ m.frames := frames ▸ mem_append_right _ mem
  have hidden : id ∉ [first, FrameId.global] := by
    have distinct := nests.inner_distinct
    rw [frames] at distinct
    intro seen
    obtain rfl | seen := mem_cons.mp seen
    · exact (nodup_cons.mp distinct).1 (mem_append_right _ mem)
    · exact nests.global_not_mem (mem_singleton.mp seen ▸ here)
  obtain ⟨_, lineageToo, -, enough⟩ := nests.lineage (innermost_mem m.frames)
  cases lineage.walk.unique lineageToo.walk
  exact turn.frame? nests lineage enough (nests.ascends.hasFrame id here) hidden

lemma Called.keeps {limit : Nat} (called : Called below m) (framed : m.Framed .top limit)
    (shallow : m.environment.Shallow m.frames) (advances : Advances .top limit m (m.step e).2)
    (working : m.handsOver below.length = false) {id : FrameId}
    (mem : id ∈ Continuation.frames below) (opened : m.environment.hasFrame id) :
    (m.step e).2.environment.frame? id = m.environment.frame? id := by
  cases called with
  | starts control =>
    simp only [Machine.step, control]
    exact complete_keeps e _ _ _ framed.standing.nests opened
  | asks control =>
    simp only [Machine.step, control]
    rw [(resume_called e control).2]
  | @builds _ _ frame _ control stack =>
    have front : m.frames = [frame] ++ Continuation.frames below := by
      rw [frames, openFrames, control, stack]
      rfl
    exact framed.hides shallow (cons_ne_nil _ _) front advances.turn mem
  | @inside top _ closes stack =>
    obtain ⟨frame, own⟩ := Option.isSome_iff_exists.mp closes
    have front : m.frames = (m.control.closes?.toList ++ Continuation.frames top ++ [frame]) ++
        Continuation.frames below := by
      rw [frames, openFrames, stack]
      simp [Continuation.frames, own]
    have inside := append_ne_nil_of_right_ne_nil
      (m.control.closes?.toList ++ Continuation.frames top) (cons_ne_nil frame [])
    exact framed.hides shallow inside front advances.turn mem
  | done control stack =>
    have hands := handsOver_iff.mpr ⟨⟨_, control⟩, congrArg length stack⟩
    rw [working] at hands
    cases hands

structure Flat (limit : Nat) (m : Machine) : Prop where
  framed : m.Framed .top limit
  shallow : m.environment.Shallow m.frames

lemma Flat.advances {limit : Nat} (flat : m.Flat limit) (allowed : e.config.maxCallDepth ≤ limit) :
    Advances .top limit m (m.step e).2 ∧ (m.step e).2.Flat limit := by
  have advances := flat.framed.step allowed
  exact ⟨advances, advances.framed,
    advances.turn.shallow flat.framed.standing.nests (fun _ => Stock.top_home) flat.shallow⟩

lemma Flat.ofTarget (atTop : program.declaresAtTop) (limit now) (budget) (debugging) :
    (ofTarget (.program program) now budget debugging).Flat limit := by
  have framed := Framed.ofTarget (Stock.top_covers atTop) limit now budget debugging
  have outside : (Machine.ofTarget (.program program) now budget debugging).frames = [] :=
    framed.standing.nests.eq_nil framed.fits.1.symm
  refine ⟨framed, ?_⟩
  rw [outside]
  exact forall_mem_nil _

lemma Flat.sees {limit : Nat} (flat : m.Flat limit) (mem : frame ∈ m.sites) :
    m.environment.Sees frame (if frame = .global then [.global] else [frame, .global]) := by
  have nests : m.environment.Nests m.frames := flat.framed.standing.nests
  refine nests.sees ?_
  split
  · next outermost =>
    obtain ⟨_, there, none⟩ := nests.root
    rw [outermost]
    exact .last there none
  · next inner =>
    obtain inside | outermost := mem_append.mp (flat.framed.site_mem mem)
    · exact flat.shallow.lineage nests inside
    · exact absurd (mem_singleton.mp outermost) inner

lemma Flat.work {config : Config} (flat : m.Flat config.maxCallDepth) (called : Called m.stack m)
    (plain : m.control.closes? = none) (runs : Runs config m states) : ∀ state ∈ work m.stack.length
    states, ∀ id, m.environment.hasFrame id = true → id ≠ .global → state.2.environment.frame? id =
    m.environment.frame? id := by
  intro state reached id opened inner
  have mem : id ∈ Continuation.frames m.stack := by
    have nests := flat.framed.standing.nests
    rw [plain] at nests
    obtain inside | outermost := mem_append.mp (nests.only id opened)
    · exact inside
    · exact absurd (mem_singleton.mp outermost) inner
  refine (work_all (Q := fun now => now.environment.frame? id = m.environment.frame? id ∧ now.Flat
    config.maxCallDepth ∧ Called m.stack now) runs.unbroken ?_ ?_ state reached).1
  · intro first present
    rw [runs.begins first present]
    exact ⟨rfl, flat, called⟩
  · rintro ⟨e, now⟩ within ⟨same, here, goes⟩ working
    obtain ⟨advances, later⟩ :=
      here.advances (e := e) (Nat.le_of_eq (congrArg Config.maxCallDepth (runs.within _ within)))
    have openNow : now.environment.hasFrame id := by
      rw [Environment.hasFrame, same]
      exact opened
    have kept := goes.keeps here.framed here.shallow advances working mem openNow
    exact ⟨kept.trans same, later, goes.step advances working⟩

end Calls

end Machine

namespace Launch
variable {config : Config} {source : String}

lemma history_runs (launch : Launch config source) {before after : List (Engine × Machine)}
    (reached : launch.host.history launch.number moves = before ++ (e, m) :: after) :
    Machine.Runs config m ((e, m) :: after) := by
  have whole : (Host.observed config).history launch.number (launch.before ++ moves) =
      ((Host.observed config).history launch.number launch.before ++ before) ++ (e, m) :: after := by
    rw [Host.history_append, append_assoc]
    exact congrArg _ reached
  exact Host.history_runs whole

lemma history_flat (launch : Launch config source) {program : Program}
    (parses : (analyze source).program = some program) (atTop : program.declaresAtTop) (moves) :
    ∀ state ∈ launch.host.history launch.number moves, state.2.Flat config.maxCallDepth := by
  have upholds : Host.Upholds config launch.number source launch.options fun _ e m =>
      e.config = config ∧ m.Flat config.maxCallDepth := by
    constructor
    · intro moves _ _ _ _ began machine
      obtain ⟨_, _, _, rfl⟩ :=
        Engine.begin_machine (Host.observed_valid config moves) began machine
      have target : Target.ofAnalysis source (analyze source) = .program program := by
        rw [Target.ofAnalysis, parses]
      rw [target]
      refine ⟨?_, .ofTarget atTop _ _ _ _⟩
      rw [(Engine.begin_follows began).2.1.config]
      exact Host.moves_config _ (Host.observed_orderly config) moves
    · rintro _ e m ⟨same, flat⟩ -
      exact ⟨(Engine.step_continues e m).config.trans same, (flat.advances (same ▸ Nat.le_refl _)).2⟩
    · rintro moves move _ _ _ _ _ _ _ ⟨same, flat⟩
      have orderly := (Host.observed_orderly config).moves moves
      exact ⟨(orderly.follows move).config.trans same, flat⟩
  intro _ mem
  obtain ⟨_, _, here⟩ := append_of_mem mem
  exact (upholds.reached launch.given here).2

/-- Recursion is sound. If a program declares functions and classes at the top only, code sees no frame
but its own and the global one, and a call leaves every frame alone that was open when it was made, from
the moment at which its arguments are known until it hands over its result, whatever that is. -/
theorem calls_keep_to_their_frames (launch : Launch config source) {program : Program}
    (parses : (analyze source).program = some program) (atTop : program.declaresAtTop = true)
    (moves : List Move) {before after : List (Engine × Machine)} {e : Engine} {m : Machine}
    (reached : launch.host.history launch.number moves = before ++ (e, m) :: after) :
    (∀ frame ∈ m.sites,
      m.environment.Sees frame (if frame = .global then [.global] else [frame, .global])) ∧
    ∀ callee location values site, m.control = .gather (.call callee location) values [] site →
      ∀ state ∈ Machine.work m.stack.length ((e, m) :: after), ∀ id,
        m.environment.hasFrame id = true → id ≠ .global →
        state.2.environment.frame? id = m.environment.frame? id := by
  have flat : m.Flat config.maxCallDepth :=
    launch.history_flat parses atTop moves (e, m) (by simp [reached])
  refine ⟨fun frame member => flat.sees member, ?_⟩
  intro _ _ _ _ control
  have plain : m.control.closes? = none := by
    rw [control]
    rfl
  exact flat.work (.starts control rfl) plain (launch.history_runs reached)

def factorial : Launch {} "FUNC f(n)\nIF n <= 1: RETURN 1\nRETURN n * f(n - 1)\nEND\nf(3)\n" :=
  .sole {} "FUNC f(n)\nIF n <= 1: RETURN 1\nRETURN n * f(n - 1)\nEND\nf(3)\n" {}

/-- After 73 steps it calls itself for the second time. When that call is over, the frames of the two
calls before it are as they were. -/
theorem factorial_keeps_callers :
    ∃ e m after callee location values site state,
      factorial.host.history 1 [.slice 1] =
        (factorial.host.history 1 [.slice 1]).take 73 ++ (e, m) :: after ∧
      m.control = .gather (.call callee location) values [] site ∧
      state ∈ Machine.work m.stack.length ((e, m) :: after) ∧
      state.2.handsOver m.stack.length = true ∧
      ∀ id ∈ [FrameId.mk 1 0, FrameId.mk 2 0], m.environment.hasFrame id = true ∧
        state.2.environment.frame? id = m.environment.frame? id := by
  have parses : ((analyze "FUNC f(n)\nIF n <= 1: RETURN 1\nRETURN n * f(n - 1)\nEND\nf(3)\n").program.any
      Program.declaresAtTop) = true := by
    decide +kernel
  have here : (((factorial.host.history 1 [.slice 1]).drop 73).head?.any fun state =>
      state.2.control.isCall && state.2.environment.hasFrame ⟨1, 0⟩ &&
        state.2.environment.hasFrame ⟨2, 0⟩ &&
        (Machine.work state.2.stack.length ((factorial.host.history 1 [.slice 1]).drop 73)).any
          (·.2.handsOver state.2.stack.length)) = true := by
    decide +kernel
  obtain ⟨_, accepted, top⟩ := (Option.any_eq_true _ _).mp parses
  obtain ⟨⟨e, m⟩, begins, facts⟩ := (Option.any_eq_true _ _).mp here
  obtain ⟨after, found⟩ := List.head?_eq_some_iff.mp begins
  simp only [found, Bool.and_eq_true, List.any_eq_true] at facts
  obtain ⟨⟨⟨calls, first⟩, second⟩, state, member, hands⟩ := facts
  obtain ⟨callee, location, values, site, control⟩ := Control.exists_of_isCall calls
  have reached : factorial.host.history 1 [.slice 1] =
      (factorial.host.history 1 [.slice 1]).take 73 ++ (e, m) :: after := by
    rw [← found, List.take_append_drop]
  have kept := (calls_keep_to_their_frames factorial accepted top [.slice 1] reached).2
    callee location values site control state member
  refine ⟨e, m, after, callee, location, values, site, state, reached, control, member, hands,
    List.forall_mem_cons.mpr ⟨⟨first, kept _ first (by decide)⟩,
      List.forall_mem_singleton.mpr ⟨second, kept _ second (by decide)⟩⟩⟩

end Launch

end Stepper
