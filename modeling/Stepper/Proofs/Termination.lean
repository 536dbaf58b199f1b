import Stepper.Proofs.StatementHalting
import Stepper.Proofs.Transparency

/-! # Termination -/

namespace Stepper

namespace Machine

open Relation

lemma slice_descends (limits : e.config = config) (ready : m.isReady e) :
    TransGen (Succeeds config) (m.slice e).2 m := by
  refine (@trail_induction (fun _ e' m' => e'.config = config ∧ TransGen (Succeeds config) m' m) [] e m
    ?_ ?_).2
  · exact ⟨(Engine.step_continues e m).config.trans limits, .single ⟨e, limits, ready, rfl⟩⟩
  · rintro _ e' m' ⟨limits', descends⟩ ready'
    exact ⟨(Engine.step_continues e' m').config.trans limits',
      .trans (.single ⟨e', limits', ready', rfl⟩) descends⟩

end Machine

namespace Launch
variable {config : Config} {source : String}

/-- A schedule in which the run, as long as it has not ended, is again and again given a slice when it is
ready for one. -/
structure Served (launch : Launch config source) (schedule : Nat → Move) : Prop where
  begins : schedule 0 = .slice launch.number
  turns : ∀ n x, (launch.after schedule n).task? launch.number = some (.executing x) →
    ∃ k, n ≤ k ∧ schedule k = .slice launch.number ∧
      x.isReady (launch.after schedule k).engine = true

section Ending
variable {launch : Launch config source} {plan : Nat → Move} {n : Nat} {x : Execution}

section
variable (active : (launch.after plan n).task? launch.number = some (.executing x))
  (machine : x.machine = some m)
include active machine

lemma active_stays (idle : ¬Stirs launch plan m n) :
    (launch.after plan (n + 1)).task? launch.number = some (.executing x) := by
  rw [after_succ]
  by_cases own : plan n = .slice launch.number
  · have waits : m.isReady (launch.after plan n).engine = false := by
      simpa [Stirs, own] using idle
    rw [own, Host.sliceOf_rests active machine waits]
    exact active
  · exact ((launch.after_orderly plan n).foreign active own).2

lemma active_stirs (stirs : Stirs launch plan m (n + more)) : ∃ k, (launch.after plan k).task?
    launch.number = some (.executing x) ∧ Stirs launch plan m k := by
  induction more generalizing n with
  | zero => exact ⟨n, active, stirs⟩
  | succ _ ih =>
    by_cases now : Stirs launch plan m n
    · exact ⟨n, active, now⟩
    · refine ih (active_stays active machine now) ?_
      rwa [Nat.add_right_comm]

end

lemma Served.ends (served : Served launch plan)
    (halts : Acc (Relation.TransGen (Machine.Succeeds config)) m)
    (active : (launch.after plan n).task? launch.number = some (.executing x))
    (machine : x.machine = some m) : ∃ n outcome, (launch.after plan n).task? launch.number = some
    (.finished (.execution (.ok outcome))) := by
  induction halts generalizing n x with
  | intro _ _ ih =>
    obtain ⟨k, later, own, ready⟩ := served.turns n x active
    obtain ⟨_, rfl⟩ := Nat.exists_eq_add_of_le later
    simp only [Execution.isReady, machine] at ready
    obtain ⟨k, active, own, ready⟩ := active_stirs active machine ⟨own, ready⟩
    cases Host.ownSlice active machine ready with
    | runs _ _ task =>
      rw [← own, ← after_succ] at task
      exact ih _ (Machine.slice_descends (launch.after_config plan k) ready) task rfl
    | ends _ _ task =>
      rw [← own, ← after_succ] at task
      exact ⟨k + 1, _, task⟩

lemma Served.ends_from (served : Served launch plan)
    (began : Engine.Began launch.host.engine source launch.options target later x m)
    (halts : Machine.Halts config m) : ∃ n outcome, (launch.after plan n).task? launch.number = some
    (.finished (.execution (.ok outcome))) := by
  have limits : later.config = config :=
    (Engine.begin_follows began.began).2.1.config.trans launch.host_config
  have ready : m.isReady later := began.starts ▸ Machine.ofTarget_isReady target _ _ _ later
  have first : launch.after plan 1 = launch.host.move (.slice launch.number) := by
    rw [after_succ, served.begins]
    rfl
  cases Host.beginSlice launch.given began.began began.machine with
  | runs _ _ task =>
    exact served.ends (halts.transGen.inv (Machine.slice_descends limits ready))
      ((congrArg (Host.task? · launch.number) first).trans task) rfl
  | ends _ _ task =>
    exact ⟨1, _, (congrArg (Host.task? · launch.number) first).trans task⟩

/-- An execution that is served, of a program in which no field of a class has an initializer with a
call, ends after finitely many moves and reports an outcome. -/
theorem served_execution_ends {launch : Launch config source} {schedule : Nat → Move}
    {program : Program} (parses : (analyze source).program = some program) (tame : program.IsTame)
    (served : Served launch schedule) :
    ∃ n outcome, (launch.after schedule n).task? launch.number =
      some (.finished (.execution (.ok outcome))) := by
  obtain ⟨_, _, _, began⟩ := Engine.begins parses launch.valid launch.idle launch.options
  exact served.ends_from began (began.starts ▸ Machine.program_halts tame _ _ _)

end Ending

section Serving
variable {launch : Launch config source} {plan : Nat → Move}

def servesAt (launch : Launch config source) (schedule : Nat → Move) (total n : Nat) : Bool :=
  match (launch.after schedule n).task? launch.number with
  | some (.executing x) => (List.range total).any fun k =>
      n ≤ k && (schedule k).isSliceOf launch.number && x.isReady (launch.after schedule k).engine
  | _ => true

lemma served_of_moments (begins : plan 0 = .slice launch.number)
    (slices : ∀ n, total ≤ n → plan n = .slice launch.number)
    (ended : (launch.after plan total).task? launch.number = some (.finished answer))
    (moments : ∀ n ∈ List.range total, launch.servesAt plan total n = true) :
    Served launch plan := by
  refine ⟨begins, fun n x active => ?_⟩
  by_cases late : total ≤ n
  · rw [after_ended ended slices late, ended] at active
    cases active
  · have serves := moments n (by simpa using late)
    simp only [servesAt, active, List.any_eq_true, Bool.and_eq_true, decide_eq_true_eq] at serves
    obtain ⟨k, -, ⟨later, own⟩, ready⟩ := serves
    exact ⟨k, later, Move.isSliceOf_iff.mp own, ready⟩

end Serving

def restless : String :=
  "CLASS Box\nLET size = 1\nEND\nFUNC f(box)\nWHILE TRUE\nf(INPUT())\nEND\nEND\nf(Box())"

def restlessLaunch : Launch { maxCallDepth := 3 } restless where
  before := [.call (.start (.execute restless {})) rfl]
  number := 1
  options := {}
  given := rfl
  idle := rfl

def restlessMoves : Nat → Move
  | 1 | 3 | 5 => .call (.submit "again") rfl
  | _ => .slice 1

/-- The program that never comes to rest by itself is stopped by the limit on nested calls. -/
theorem restless_ends :
    (analyze restless).program.isSome = true ∧ Served restlessLaunch restlessMoves ∧
      ∃ n outcome, (restlessLaunch.after restlessMoves n).task? restlessLaunch.number =
        some (.finished (.execution (.ok outcome))) := by
  have parses : (analyze restless).program.isSome = true := by decide +kernel
  obtain ⟨program, parsed⟩ := Option.isSome_iff_exists.mp parses
  have tame : program.IsTame := by
    have checked : ((analyze restless).program.all fun program =>
        program.allStatements.all Stmt.isTame) = true := by decide +kernel
    rw [parsed] at checked
    exact List.all_eq_true.mp checked
  obtain ⟨outcome, ended, -⟩ : ∃ outcome, (restlessLaunch.after restlessMoves 7).task? 1 =
      some (.finished (.execution (.ok outcome))) ∧ outcome.outputs = [] :=
    finished_of_outputs (by decide +kernel)
  have served : Served restlessLaunch restlessMoves := by
    refine served_of_moments rfl (fun n late => ?_) ended (by decide +kernel)
    match n, late with
    | n + 7, _ => rfl
  exact ⟨parses, served, served_execution_ends parsed tame served⟩

end Launch

end Stepper
