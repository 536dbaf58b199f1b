import Stepper.Proofs.Advance

/-! # When boundaries are crossed unnoticed -/

namespace Stepper.Machine

open Continuation

structure Tidy (m : Machine) : Prop where
  balance : m.stack.countP mutes = if m.muted then 1 else 0
  heard : m.control.isOpen = true → m.muted = false

section Tidiness
variable {stack : List Continuation}
variable {m next : Machine}

variable (tidy : Tidy m)
include tidy

lemma Tidy.kept (stack : next.stack = m.stack) (muted : next.muted = m.muted)
    (heard : next.control.isOpen = true → m.muted = false) : Tidy next :=
  ⟨by rw [stack, muted, tidy.balance], fun isOpen => muted.trans (heard isOpen)⟩

lemma Tidy.closed (stack : next.stack = m.stack) (muted : next.muted = m.muted)
    (closed : next.control.isOpen = false) : Tidy next :=
  tidy.kept stack muted fun isOpen => by simp [closed] at isOpen

lemma Tidy.unmuted_stack (heard : m.muted = false) : m.stack.countP mutes = 0 := by
  rw [tidy.balance, heard]
  rfl

lemma Tidy.mute (heard : m.muted = false) (mutes : k.mutes) (stack : next.stack = k :: m.stack)
    (muted : next.muted) (closed : next.control.isOpen = false) : Tidy next := by
  refine ⟨?_, fun isOpen => by simp [closed] at isOpen⟩
  rw [stack, muted, List.countP_cons, tidy.unmuted_stack heard, mutes]
  rfl

lemma Tidy.unmute (top : m.stack = k :: stack) (mutes : k.mutes) (below : next.stack = stack)
    (heard : next.muted = false) : Tidy next := by
  have balance := tidy.balance
  rw [top, List.countP_cons, mutes] at balance
  refine ⟨?_, fun _ => heard⟩
  rw [below, heard]
  cases muted : m.muted <;> simp [muted] at balance ⊢
  exact balance

lemma Tidy.computes (computes : Computes m next) : Tidy next := by
  have closed := Control.isOpen_of_isCalm computes.calm
  rcases computes.stack with stack | ⟨k, plain, stack⟩
  · exact tidy.closed stack computes.muted closed
  · refine ⟨?_, fun isOpen => by simp [closed] at isOpen⟩
    rw [stack, computes.muted, List.countP_cons, plain, tidy.balance]
    rfl

lemma Tidy.popped (top : m.stack = k :: stack) (plain : k.mutes = false) : Tidy { m with stack }
    := by
  have balance := tidy.balance
  rw [top, List.countP_cons, plain] at balance
  exact ⟨balance, tidy.heard⟩

lemma Tidy.advance (advance : Advance m next) : Tidy next := by
  cases advance with
  | works computes => exact tidy.computes computes
  | takes _ top plain computes => exact (tidy.popped top plain).computes computes
  | fails _ top plain muted control below =>
    exact (tidy.popped top plain).closed below muted (by rw [control]; rfl)
  | leavesLine _ top heard below => exact tidy.unmute top rfl below heard
  | endsLine _ top heard below => exact tidy.unmute top rfl below heard
  | ends _ _ reached =>
    subst reached
    exact tidy.closed rfl rfl rfl
  | nextLine lines reached =>
    subst reached
    exact tidy.kept rfl rfl fun _ => tidy.heard (by rw [lines]; rfl)
  | entersLine proceeds muted calm stack =>
    have heard : m.muted = false := tidy.heard (by rw [proceeds]; rfl)
    exact tidy.mute heard rfl stack muted (Control.isOpen_of_isCalm calm)
  | skipsLine proceeds reached =>
    subst reached
    exact tidy.kept rfl rfl fun _ => tidy.heard (by rw [proceeds]; rfl)
  | crosses boundary muted reached =>
    subst reached
    -- A line is never crossed unnoticed, so the boundary is one of a statement.
    refine tidy.closed rfl rfl ?_
    rename_i b
    cases b with
    | statement => rfl
    | line =>
      have heard : m.muted = false := tidy.heard (by rw [boundary]; rfl)
      simp [muted] at heard
  | rests _ reached => exact reached ▸ tidy

lemma Tidy.crosses (heard : m.muted = false) (crosses : Crosses b m next) : Tidy next := by
  cases crosses with
  | unnoticed muted => cases heard.symm.trans muted
  | stops => exact tidy.closed rfl rfl rfl
  | yields | arrives => exact tidy.kept rfl rfl fun _ => heard

lemma Tidy.attends (heard : m.muted = false) (attends : Attends b m next) : Tidy next := by
  cases attends with
  | proceeds | logs | watches => exact tidy.kept rfl rfl fun _ => heard
  | asksCondition | asksLog => exact tidy.mute heard rfl rfl rfl rfl

lemma Tidy.resumes {next : Engine × Machine} (waits : m.control = .waiting wait)
    (resumes : Resumes e m wait next) : Tidy next.2 := by
  cases resumes with
  | stays => exact tidy
  | stops | answers => exact tidy.closed rfl rfl rfl
  | arrives | proceeds => exact tidy.kept rfl rfl fun _ => tidy.heard (by rw [waits]; rfl)

lemma Tidy.complete (e) (purpose) (values) : Tidy (m.complete e purpose values).2 := by
  cases purpose with
  | array => exact tidy.closed rfl rfl rfl
  | print =>
    simp only [Machine.complete, print]
    split <;> exact tidy.closed rfl rfl rfl
  | call callee =>
    cases callee with
    | value => exact tidy.computes (applyValue_computes _ _ _ _ _)
    | builtin b =>
      cases b with
      | input =>
        simp only [Machine.complete, applyBuiltin]
        split <;> exact tidy.closed rfl rfl rfl
      | _ => exact tidy.computes (computes_giveOrFail (Builtin.call_madeOf _ _))

lemma Tidy.step (e) : Tidy (m.step e).2 := by
  by_cases quiet : m.IsQuiet
  · exact tidy.advance (advance_of_quiet e quiet)
  · cases encounter_of_loud quiet with
    | prints shape =>
      simp only [Machine.step, shape]
      exact tidy.complete e _ _
    | asks shape =>
      simp only [Machine.step, shape]
      exact tidy.complete e _ _
    | boundary shape heard =>
      simp only [Machine.step, shape]
      exact tidy.crosses heard (m.stepBoundary_crosses e _)
    | arrived shape =>
      simp only [Machine.step, shape]
      exact tidy.attends (tidy.heard (by rw [shape]; rfl)) (m.arrive_attends e _)
    | log shape =>
      simp only [Machine.step, shape]
      exact tidy.attends (tidy.heard (by rw [shape]; rfl)) (m.stepLog_attends e _ _ _)
    | watch shape =>
      have heard : m.muted = false := tidy.heard (by rw [shape]; rfl)
      simp only [Machine.step, shape, stepWatch]
      split
      · exact tidy.kept rfl rfl fun _ => heard
      · exact tidy.mute heard rfl rfl rfl rfl
    | waits shape =>
      simp only [Machine.step, shape]
      exact tidy.resumes shape (m.resume_resumes e _)
    | @probed result k stack shape top probe =>
      have base : Tidy ({ m with stack, muted := false } : Machine) :=
        tidy.unmute top (by cases k <;> simp_all [isProbe, mutes]) rfl rfl
      obtain ⟨_, shown⟩ := exists_shown probe
      simp only [Machine.step, deliver, top]
      rw [shape]
      exact base.attends rfl (deliverTo_attends { m with stack } e shown result)

end Tidiness

end Stepper.Machine
