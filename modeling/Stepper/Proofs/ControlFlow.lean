import Stepper.Proofs.Containment
import Stepper.Proofs.Launch

/-! # What statements, calls and programs come to -/

namespace Stepper

open List Awaited

/-- What a program may end with: never a break, a continue or a return. -/
def Result.endsProgram : Result → Bool
  | .flow .normal | .failure _ => true
  | _ => false

/-- What the body of a call may end with: never a break or a continue. -/
def Result.endsCall : Result → Bool
  | .flow .normal | .flow (.giveBack _) | .failure _ => true
  | _ => false

def Stmt.isLoop : Stmt → Bool
  | .whileLoop _ _ _ | .forRange _ _ _ _ _ _ | .repeatLoop _ _ _ _ _ => true
  | _ => false

lemma Stmt.isLegal_loop {loop : Stmt} (loops : loop.isLoop) (legal : loop.isLegal scope =
    true) : loop.isLegal { scope with inLoop := false } = true := by
  cases loop with
  | whileLoop | forRange | repeatLoop => exact legal
  | _ => cases loops

namespace Machine

/-- What work on a stack of that height hands over in the end. -/
def outcome? (height : Nat) : List (Engine × Machine) → Option Result
  | [] => none
  | (_, m) :: rest =>
    match m.control with
    | .deliver result => if m.stack.length = height then some result else outcome? height rest
    | _ => outcome? height rest

/-! ### Beginnings -/

section
lemma bindDeclarations_grounded (firm : Grounded bottom below top m)
    (legal : listIsLegal scope statements) :
    Grounded bottom below top (m.bindDeclarations statements) := by
  induction statements generalizing m with
  | nil => exact firm
  | cons first _ ih =>
    obtain ⟨here, others⟩ := Bool.and_eq_true_iff.mp legal
    cases first with
    | function =>
      exact ih (firm.define _ _ (.function here)) others
    | classDef =>
      exact ih (firm.define _ _ (.classDef (ClassDecl.isLegal_anywhere here))) others
    | _ => exact ih firm others

lemma ofAnalysis_contained (source) (now) (limit) (debugging) :
    Contained (.flow {}) [] (.ofTarget (.ofAnalysis source (analyze source)) now limit debugging) := by
  have fresh : Grounded (.flow {}) [] [] (initial now limit debugging) :=
    ⟨Environment.empty_madeOf, rfl, trivial⟩
  unfold ofTarget Target.ofAnalysis
  cases accepted : (analyze source).program with
  | none => exact fresh.into rfl
  | some =>
    obtain ⟨clean, rfl⟩ := parse_of_accepted accepted
    have legal := (parse_isWellFormed clean).legal
    exact (bindDeclarations_grounded fresh legal).into legal

lemma Contained.above (contained : Contained (.flow {}) [] m) :
    Contained (Continuation.awaited (.flow {}) m.stack) m.stack m := by
  obtain ⟨top, firm, legal⟩ := contained
  obtain rfl : m.stack = top := firm.stack.trans (append_nil top)
  exact ⟨[], ⟨firm.environment, rfl, trivial⟩, legal⟩

lemma Contained.loop (contained : Contained (.flow {}) [] m) {loop : Stmt}
    (proceeds : m.control = .proceed (.statement loop frame)) (loops : loop.isLoop) :
    ∃ scope : Scope, scope.inLoop = false ∧ Contained (.flow scope) m.stack m := by
  obtain ⟨_, firm, legal⟩ := contained
  rw [proceeds] at legal
  obtain ⟨scope, -, legal⟩ := legal.elim
  refine ⟨{ scope with inLoop := false }, rfl, [], ⟨firm.environment, rfl, trivial⟩, ?_⟩
  rw [proceeds]
  exact Stmt.isLegal_loop loops legal

end

/-! ### Outcomes -/

section Outcomes
variable {below : List Continuation}

lemma Contained.handed (contained : Contained bottom below m) (delivers : m.control = .deliver result)
    (height : m.stack.length = below.length) : bottom.Admits result := by
  obtain ⟨top, firm, legal⟩ := contained
  have nothing : top = [] := by
    rw [firm.stack, length_append] at height
    exact length_eq_zero_iff.mp (by omega)
  subst nothing
  rw [delivers] at legal
  exact legal

lemma outcome_admitted (unbroken : Unbroken states)
    (begun : ∀ first ∈ states.head?, Contained bottom below first.2)
    (comes : outcome? below.length states = some result) : bottom.Admits result := by
  induction states with
  | nil => cases comes
  | cons state rest ih =>
    obtain ⟨e, m⟩ := state
    have contained : Contained bottom below m := begun (e, m) rfl
    obtain ⟨follows, onward⟩ := isChain_cons.mp unbroken
    by_cases ends : ∃ result, m.control = .deliver result ∧ m.stack.length = below.length
    · obtain ⟨handed, delivers, height⟩ := ends
      simp only [outcome?, delivers, height, if_true, Option.some.injEq] at comes
      subst comes
      exact contained.handed delivers height
    · have later : outcome? below.length rest = some result := by
        unfold outcome? at comes
        split at comes
        · next handed delivers =>
          rw [if_neg fun height => ends ⟨handed, delivers, height⟩] at comes
          exact comes
        · exact comes
      refine ih onward (fun next first => ?_) later
      rw [follows next first]
      exact contained.step (fun handed delivers stack =>
        ends ⟨handed, delivers, congrArg length stack⟩) e

end Outcomes

end Machine

lemma Awaited.endsProgram (admits : (flow {}).Admits result) : result.endsProgram := by
  rcases result with given | (_ | _ | _ | given) | error
  · exact False.elim admits
  · rfl
  · cases admits
  · cases admits
  · cases admits.1
  · rfl

lemma Awaited.endsCall (free : scope.inLoop = false) (admits : (flow scope).Admits result) :
    result.endsCall := by
  rcases result with given | (_ | _ | _ | given) | error
  · exact False.elim admits
  · rfl
  · cases free.symm.trans admits
  · cases free.symm.trans admits
  · rfl
  · rfl

/-- In whatever interleaving, the work of a run comes to something that its stack is meant for, and a
loop never asks to leave a loop or for the next iteration of one. -/
theorem control_flow_never_leaks (config : Config) (number : Nat) (moves : List Move)
    {before after : List (Engine × Machine)} {e : Engine} {m : Machine} {result : Result}
    (reached : (Host.observed config).history number moves = before ++ (e, m) :: after)
    (comes : Machine.outcome? m.stack.length ((e, m) :: after) = some result) :
    (m.stack = [] → result.endsProgram = true) ∧
      (∀ line rest below, m.stack = .sketched line rest :: below → result.endsProgram = true) ∧
      (∀ frame below, m.stack = .activation frame :: below → result.endsCall = true) ∧
      (∀ loop frame, m.control = .proceed (.statement loop frame) → loop.isLoop = true →
        result.endsCall = true) := by
  have contained : Machine.Contained (.flow {}) [] m :=
    Host.history_all Machine.ofAnalysis_contained (fun e m contained => contained.step_run e) config
      number moves (e, m) (by simp [reached])
  have unbroken : Machine.Unbroken ((e, m) :: after) := by
    have all := Host.history_unbroken config number moves
    rw [reached] at all
    exact (List.isChain_append.mp all).2.1
  have admitted {bottom : Awaited} (begun : Machine.Contained bottom m.stack m) :
      bottom.Admits result :=
    Machine.outcome_admitted unbroken (by rintro _ ⟨⟩; exact begun) comes
  refine ⟨fun stack => ?_, fun line rest below stack => ?_, fun frame below stack => ?_,
    fun loop frame proceeds loops => ?_⟩
  · have meant := admitted contained.above
    rw [stack] at meant
    exact endsProgram meant
  · have meant := admitted contained.above
    rw [stack] at meant
    exact endsProgram meant
  · have meant := admitted contained.above
    rw [stack] at meant
    exact endsCall rfl meant
  · obtain ⟨_, free, begun⟩ := contained.loop proceeds loops
    exact endsCall free (admitted begun)

def leaving : List (Engine × Machine) :=
  (Host.observed {}).history 1
    [.call (.start (.execute
      "FUNC f()\nWHILE TRUE\nWHILE TRUE: BREAK\nRETURN 1\nEND\nEND\nf()\n" {})) rfl, .slice 1]

/-- After 22 steps it executes the inner loop, which ends normally though its body leaves it. -/
theorem inner_loop_keeps_its_break :
    ∃ before e m after loop frame result,
      leaving = before ++ (e, m) :: after ∧ m.control = .proceed (.statement loop frame) ∧
        loop.isLoop = true ∧ Machine.outcome? m.stack.length ((e, m) :: after) = some result ∧
        result.endsCall = true := by
  have here : (match leaving.drop 22 with
      | (e, m) :: after =>
        (match m.control with
        | .proceed (.statement loop _) => loop.isLoop
        | _ => false) && (Machine.outcome? m.stack.length ((e, m) :: after)).isSome
      | [] => false) = true := by
    decide +kernel
  split at here
  · next e m after found =>
    obtain ⟨loops, ends⟩ := Bool.and_eq_true_iff.mp here
    split at loops
    · next loop frame proceeds =>
      obtain ⟨result, comes⟩ := Option.isSome_iff_exists.mp ends
      have reached : leaving = leaving.take 22 ++ (e, m) :: after := by
        rw [← found, List.take_append_drop]
      exact ⟨_, e, m, after, loop, frame, result, reached, proceeds, loops, comes,
        (control_flow_never_leaks {} 1 _ reached comes).2.2.2 loop frame proceeds loops⟩
    · cases loops
  · cases here

end Stepper
