import Stepper.Proofs.FrameSlots

/-! # A ledger of frames

An environment uses the slots of closed frames again. The ledger beside it keeps every frame ever opened,
so that a stale name can be told from a new one: environments are measured by what the ledger answers. -/

namespace Stepper

open List

/-- A line of the ledger. A frame that is closed keeps its line. -/
structure LedgerFrame (α : Type) where
  parent : Option Nat
  bindings : Dictionary α := []
  isOpen : Bool := true

/-- Every frame that was ever opened, in order. A frame's name is its place, so no name is used twice. -/
structure Ledger (α : Type) where
  frames : List (LedgerFrame α)

namespace Ledger

/-- The ledger with the global frame alone. -/
def empty : Ledger α := ⟨[{ parent := none }]⟩

/-- A frame, as long as it is open. -/
def frame? (ledger : Ledger α) (frame : Nat) : Option (LedgerFrame α) :=
  ledger.frames[frame]?.filter (·.isOpen)

def hasFrame (ledger : Ledger α) (frame : Nat) : Bool := (ledger.frame? frame).isSome

/-- Opens an empty frame inside another, or inside the global one if that frame is gone. -/
def push (ledger : Ledger α) (parent : Nat) : Ledger α :=
  ⟨ledger.frames ++ [{ parent := some (if ledger.hasFrame parent then parent else 0) }]⟩

/-- Closes a frame, other than the global one. -/
def pop (ledger : Ledger α) (frame : Nat) : Ledger α :=
  if frame = 0 then ledger else ⟨ledger.frames.modify frame fun line => { line with isOpen := false }⟩

def define (ledger : Ledger α) (frame : Nat) (name : String) (value : α) : Ledger α :=
  ⟨ledger.frames.modify frame fun line =>
    if line.isOpen then { line with bindings := line.bindings.insert name value } else line⟩

/-- The open frames from a frame outwards, with what they bind. -/
def outwards (ledger : Ledger α) (frame : Nat) : List (Nat × Dictionary α) :=
  match ledger.frame? frame with
  | none => []
  | some line =>
    (frame, line.bindings) ::
      match line.parent with
      | some parent => if parent < frame then outwards ledger parent else []
      | none => []

/-- The first frame outwards that binds a name, and the value there. -/
def nearest (ledger : Ledger α) (frame : Nat) (name : String) : Option (Nat × α) :=
  (ledger.outwards frame).findSome? fun (holder, bindings) =>
    (bindings.find? name).map fun value => (holder, value)

def assign? (ledger : Ledger α) (frame : Nat) (name : String) (value : α) : Option (Ledger α) :=
  (ledger.nearest frame name).map fun (holder, _) => ledger.define holder name value

/-- What is bound outwards from a frame. Inner bindings hide outer ones. -/
def visible (ledger : Ledger α) (frame : Nat) : Dictionary α :=
  (ledger.outwards frame).foldr (fun (_, inner) outer => outer.override inner) []

def locals (ledger : Ledger α) (frame : Nat) : Dictionary α :=
  ((ledger.frame? frame).map LedgerFrame.bindings).getD []

def frameCount (ledger : Ledger α) : Nat := ledger.frames.countP (·.isOpen)

/-! ### Walks outwards -/

variable {ledger : Ledger α} {frame : Nat} {line : LedgerFrame α}

lemma frame?_eq_some :
    ledger.frame? frame = some line ↔ ledger.frames[frame]? = some line ∧ line.isOpen = true :=
  Option.filter_eq_some_iff

lemma hasFrame_iff :
    ledger.hasFrame frame = true ↔ ∃ line, ledger.frames[frame]? = some line ∧ line.isOpen = true := by
  simp only [hasFrame, Option.isSome_iff_exists, frame?_eq_some]

def openAmong (ledger : Ledger α) (oldest : Nat) : Nat :=
  (ledger.frames.take oldest).countP (·.isOpen)

lemma openAmong_mono (le : fewer ≤ more) : ledger.openAmong fewer ≤ ledger.openAmong more :=
  (take_sublist_take_left le).countP_le

lemma openAmong_le (ledger : Ledger α) (oldest) : ledger.openAmong oldest ≤ ledger.frameCount :=
  (take_sublist oldest ledger.frames).countP_le

lemma openAmong_succ (found : ledger.frame? frame = some line) :
    ledger.openAmong (frame + 1) = ledger.openAmong frame + 1 := by
  obtain ⟨there, opened⟩ := frame?_eq_some.mp found
  simp [openAmong, take_add_one, there, opened]

def IsOrdered (ledger : Ledger α) : Prop :=
  ∀ (frame : Nat) (line : LedgerFrame α) (parent : Nat), ledger.frame? frame = some line →
    line.parent = some parent → parent < frame

lemma walk_induction (ordered : ledger.IsOrdered) {motive : Nat → Nat → Prop}
    (gone : ∀ frame bound, ledger.frame? frame = none → motive frame bound) (ends : ∀ frame bound line,
      ledger.frame? frame = some line → line.parent = none → motive frame (bound + 1)) (further : ∀
      frame bound line parent, ledger.frame? frame = some line → line.parent = some parent → parent <
      frame → motive parent bound → motive frame (bound + 1)) (frame bound)
    (enough : ledger.openAmong (frame + 1) ≤ bound) : motive frame bound := by
  induction frame using Nat.strongRecOn generalizing bound with
  | ind frame ih =>
    cases found : ledger.frame? frame with
    | none => exact gone frame bound found
    | some line =>
      -- An open frame is counted among those up to it, so there is a step left for it.
      rw [openAmong_succ found] at enough
      obtain ⟨bound, rfl⟩ : ∃ fewer, bound = fewer + 1 := ⟨bound - 1, by omega⟩
      cases lineage : line.parent with
      | none => exact ends frame bound line found lineage
      | some parent =>
        have older := ordered frame line parent found lineage
        have fewer := Nat.le_trans (openAmong_mono older) (Nat.le_of_succ_le_succ enough)
        exact further frame bound line parent found lineage older (ih parent older bound fewer)

lemma outwards_gone (gone : ledger.frame? frame = none) : ledger.outwards frame = [] := by
  rw [outwards, gone]

lemma outwards_last (found : ledger.frame? frame = some line) (last : line.parent = none) :
    ledger.outwards frame = [(frame, line.bindings)] := by
  rw [outwards, found]
  simp only [last]

lemma outwards_further (found : ledger.frame? frame = some line) (lineage : line.parent = some parent)
    (older : parent < frame) :
    ledger.outwards frame = (frame, line.bindings) :: ledger.outwards parent := by
  rw [outwards, found]
  simp only [lineage, if_pos older]

lemma le_of_mem_outwards (mem : entry ∈ ledger.outwards frame) : entry.1 ≤ frame := by
  induction frame using Nat.strongRecOn with
  | ind frame ih =>
    rw [outwards] at mem
    split at mem
    · cases mem
    obtain rfl | behind := mem_cons.mp mem
    · exact Nat.le_refl frame
    split at behind
    · split at behind
      · next parent _ older =>
        exact Nat.le_trans (ih parent older behind) (Nat.le_of_lt older)
      · cases behind
    · cases behind

lemma le_of_nearest (found : ledger.nearest frame name = some held) : held.1 ≤ frame := by
  obtain ⟨_, mem, answer⟩ := exists_of_findSome?_eq_some found
  obtain ⟨_, -, rfl⟩ := Option.map_eq_some_iff.mp answer
  exact le_of_mem_outwards mem

/-! ### What each operation does to the frames -/

lemma frame?_define (ledger : Ledger α) (frame) (name) (value : α) (other) :
    (ledger.define frame name value).frame? other =
      if other = frame then (ledger.frame? frame).map fun line =>
        { line with bindings := line.bindings.insert name value }
      else ledger.frame? other := by
  rw [frame?, define, getElem?_modify]
  by_cases same : other = frame
  · subst same
    rw [if_pos rfl, frame?]
    cases ledger.frames[other]? with
    | none => rfl
    | some line => cases opened : line.isOpen <;> simp [opened, Option.filter]
  · simp [frame?, same, Ne.symm same]

lemma hasFrame_define (ledger : Ledger α) (frame) (name) (value : α) (other) :
    (ledger.define frame name value).hasFrame other = ledger.hasFrame other := by
  rw [hasFrame, frame?_define, hasFrame]
  split
  · next same => rw [Option.isSome_map, same]
  · rfl

lemma frame?_pop (ledger : Ledger α) (frame other) : (ledger.pop frame).frame? other = if other = frame
    ∧ frame ≠ 0 then none else ledger.frame? other := by
  by_cases root : frame = 0
  · simp [pop, root]
  rw [frame?, pop, if_neg root, getElem?_modify]
  by_cases same : other = frame
  · cases ledger.frames[other]? <;> simp [same, root, Option.filter]
  · simp [frame?, same, Ne.symm same]

lemma frame?_push (ledger : Ledger α) (parent other) :
    (ledger.push parent).frame? other =
      if other = ledger.frames.length then
        some { parent := some (if ledger.hasFrame parent then parent else 0) }
      else ledger.frame? other := by
  rw [frame?, push]
  obtain before | rfl | behind := Nat.lt_trichotomy other ledger.frames.length
  · rw [getElem?_append_left before, if_neg (Nat.ne_of_lt before), frame?]
  · simp [Option.filter]
  · rw [if_neg (Nat.ne_of_gt behind), frame?, getElem?_eq_none (Nat.le_of_lt behind),
      getElem?_eq_none (by rw [length_append]; exact behind)]

lemma pop_gone (stays : frame = 0 ∨ ledger.frame? frame = none) : ledger.pop frame = ledger := by
  by_cases root : frame = 0
  · rw [pop, if_pos root]
  have gone := stays.resolve_left root
  rw [pop, if_neg root]
  congr 1
  refine ext_getElem? fun other => ?_
  rw [getElem?_modify]
  by_cases same : frame = other
  · subst same
    rw [frame?, Option.filter_eq_none_iff] at gone
    cases found : ledger.frames[frame]? with
    | none => rfl
    | some line =>
      obtain ⟨_, _, opened⟩ := line
      have closed : ¬opened = true := gone _ found
      simp [closed]
  · simp [same]

lemma frameCount_define (ledger : Ledger α) (frame) (name) (value : α) :
    (ledger.define frame name value).frameCount = ledger.frameCount := by
  cases found : ledger.frames[frame]? with
  | none =>
    rw [define, modify_eq_self (getElem?_eq_none_iff.mp found)]
  | some line =>
    have counted := countP_modify (p := fun line : LedgerFrame α => line.isOpen) found fun line =>
      if line.isOpen then { line with bindings := line.bindings.insert name value } else line
    have kept : (if line.isOpen then { line with bindings := line.bindings.insert name value }
        else line : LedgerFrame α).isOpen = line.isOpen := by
      split <;> rfl
    rw [kept] at counted
    exact Nat.add_right_cancel counted

lemma frameCount_pop (found : ledger.frame? frame = some line) (inner : frame ≠ 0) :
    (ledger.pop frame).frameCount + 1 = ledger.frameCount := by
  obtain ⟨there, opened⟩ := frame?_eq_some.mp found
  have counted := countP_modify (p := fun line : LedgerFrame α => line.isOpen) there fun line =>
    { line with isOpen := false }
  rw [if_pos opened] at counted
  rw [pop, if_neg inner]
  exact counted

lemma frameCount_push (ledger : Ledger α) (parent) :
    (ledger.push parent).frameCount = ledger.frameCount + 1 := by
  simp [frameCount, push]

end Ledger

/-! ### Requests -/

/-- What can be asked of a frame. -/
inductive FrameRequest (α : Type) where
  | push
  | pop
  | define (name : String) (value : α)
  | assign (name : String) (value : α)
  | get (name : String)
  | visible
  | locals
  | isOpen
deriving DecidableEq

/-- A request made of a frame, which is named by how many were opened before it. -/
inductive FrameAction (α : Type) where
  | on (frame : Nat) (request : FrameRequest α)
  | count
deriving DecidableEq

/-- What an action on frames answers. -/
inductive FrameAnswer (α : Type) where
  | opened (frame : Nat)
  | done
  | flag (holds : Bool)
  | value (found : Option α)
  | bindings (entries : Dictionary α)
  | number (count : Nat)
deriving DecidableEq

def FrameAction.opens : FrameAction α → Bool
  | .on _ .push => true
  | _ => false

lemma FrameAction.exists_push {action : FrameAction α} (opens : action.opens) :
    ∃ parent, action = .on parent .push := by
  unfold FrameAction.opens at opens
  split at opens
  · exact ⟨_, rfl⟩
  · cases opens

/-- Whether an action names a frame that was opened, be it closed since or not. -/
def FrameAction.IsApt (opened : Nat) : FrameAction α → Prop
  | .on frame _ => frame < opened
  | .count => True

instance (opened : Nat) : (action : FrameAction α) → Decidable (action.IsApt opened)
  | .on frame _ => inferInstanceAs (Decidable (frame < opened))
  | .count => isTrue trivial

/-- Whether each action names a frame that was opened before it. -/
def AreApt (opened : Nat) : List (FrameAction α) → Prop
  | [] => True
  | action :: rest => action.IsApt opened ∧ AreApt (if action.opens then opened + 1 else opened) rest

instance AreApt.decidable : (opened : Nat) → (actions : List (FrameAction α)) →
    Decidable (AreApt opened actions)
  | _, [] => isTrue trivial
  | opened, action :: rest =>
    have := AreApt.decidable (if action.opens then opened + 1 else opened) rest
    inferInstanceAs (Decidable (action.IsApt opened ∧ AreApt _ rest))

def performAll {σ : Type} (perform : σ → FrameAction α → σ × FrameAnswer α) :
    σ → List (FrameAction α) → σ × List (FrameAnswer α)
  | state, [] => (state, [])
  | state, action :: rest =>
    let (next, answer) := perform state action
    let (last, answers) := performAll perform next rest
    (last, answer :: answers)

lemma performAll_cons (perform : σ → FrameAction α → σ × FrameAnswer α) (state : σ)
    (action : FrameAction α) (rest) : performAll perform state (action :: rest) =
      ((performAll perform (perform state action).1 rest).1, (perform state action).2 :: (performAll
      perform (perform state action).1 rest).2) :=
  rfl

/-- What an action does to a ledger. -/
def Ledger.perform (ledger : Ledger α) : FrameAction α → Ledger α × FrameAnswer α
  | .on frame .push => (ledger.push frame, .opened ledger.frames.length)
  | .on frame .pop => (ledger.pop frame, .done)
  | .on frame (.define name value) => (ledger.define frame name value, .done)
  | .on frame (.assign name value) =>
    match ledger.assign? frame name value with
    | some later => (later, .flag true)
    | none => (ledger, .flag false)
  | .on frame (.get name) => (ledger, .value ((ledger.nearest frame name).map Prod.snd))
  | .on frame .visible => (ledger, .bindings (ledger.visible frame))
  | .on frame .locals => (ledger, .bindings (ledger.locals frame))
  | .on frame .isOpen => (ledger, .flag (ledger.hasFrame frame))
  | .count => (ledger, .number ledger.frameCount)

namespace Ledger
lemma length_perform (ledger : Ledger α) (action : FrameAction α) :
    (ledger.perform action).1.frames.length = if action.opens then ledger.frames.length + 1 else
    ledger.frames.length := by
  cases action with
  | count => rfl
  | on frame request =>
    cases request with
    | push => simp [perform, push, FrameAction.opens]
    | pop =>
      simp only [perform, pop, FrameAction.opens]
      split <;> simp
    | define => simp [perform, define, FrameAction.opens]
    | assign name =>
      simp only [perform, assign?, FrameAction.opens]
      cases ledger.nearest frame name <;> simp [define]
    | _ => rfl

lemma hasFrame_perform (ledger : Ledger α) (action : FrameAction α)
    (there : frame < ledger.frames.length) : (ledger.perform action).1.hasFrame frame = true ↔
    ledger.hasFrame frame = true ∧ (frame = 0 ∨ action ≠ .on frame .pop) := by
  cases action with
  | count => simp [perform]
  | on other request =>
    cases request with
    | push =>
      simp [perform, hasFrame, frame?_push, Nat.ne_of_lt there]
    | pop =>
      simp only [perform, hasFrame, frame?_pop]
      split
      · next closes => simp [closes.1, closes.2]
      · next stays =>
        have kept : frame = 0 ∨ ¬other = frame := by
          by_cases root : frame = 0
          · exact .inl root
          · exact .inr fun same => stays ⟨same.symm, same ▸ root⟩
        simpa using fun _ => kept
    | define => simp [perform, hasFrame_define]
    | assign name =>
      simp only [perform, assign?]
      cases ledger.nearest other name <;> simp [hasFrame_define]
    | _ => simp [perform]

lemma hasFrame_opened (ledger : Ledger α) (action : FrameAction α) (new : ledger.frames.length ≤ frame)
    (inside : frame < (ledger.perform action).1.frames.length) :
    (ledger.perform action).1.hasFrame frame := by
  rw [length_perform] at inside
  split at inside
  · next opens =>
    obtain ⟨_, rfl⟩ := FrameAction.exists_push opens
    obtain rfl : frame = ledger.frames.length := Nat.le_antisymm (Nat.le_of_lt_succ inside) new
    simp [perform, hasFrame, frame?_push]
  · exact absurd inside (Nat.not_lt.mpr new)

lemma length_performAll (ledger : Ledger α) (actions : List (FrameAction α)) :
    (performAll perform ledger actions).1.frames.length = ledger.frames.length + actions.countP
    FrameAction.opens := by
  induction actions generalizing ledger with
  | nil => rfl
  | cons _ _ ih =>
    rw [performAll_cons, ih, length_perform, countP_cons]
    split <;> omega

lemma hasFrame_performAll (ledger : Ledger α) (actions : List (FrameAction α))
    (apt : AreApt ledger.frames.length actions)
    (inside : frame < (performAll perform ledger actions).1.frames.length) :
    (performAll perform ledger actions).1.hasFrame frame = true ↔
    (frame < ledger.frames.length → ledger.hasFrame frame = true) ∧
    (frame = 0 ∨ .on frame .pop ∉ actions) := by
  induction actions generalizing ledger with
  | nil =>
    have there : frame < ledger.frames.length := inside
    simp [performAll, there]
  | cons action _ ih =>
    obtain ⟨aptAction, aptRest⟩ := apt
    have longer := ledger.length_perform action
    rw [← longer] at aptRest
    have run := ih (ledger.perform action).1 aptRest inside
    rw [performAll_cons, run, mem_cons, not_or]
    by_cases there : frame < ledger.frames.length
    · have still : frame < (ledger.perform action).1.frames.length := by
        rw [longer]
        split <;> omega
      have step := ledger.hasFrame_perform action there
      simp only [there, still, forall_const, step, ne_eq, eq_comm (b := action), or_and_left, and_assoc]
    · -- The frame is opened by this request or a later one, so this request does not close it.
      have opened := ledger.hasFrame_opened action (Nat.le_of_not_lt there)
      have other : FrameAction.on frame .pop ≠ action := by
        rintro rfl
        exact there aptAction
      simp only [there, false_implies, true_and, other, not_false_eq_true, and_iff_right_iff_imp]
      exact fun _ => opened

end Ledger

/-- An environment with the names that it has given out. It may use a slot again, a name never. -/
structure Tenancy (α : Type) where
  environment : Environment α
  issued : List FrameId

namespace Tenancy

def empty : Tenancy α := ⟨.empty, [.global]⟩

def nameOf (tenancy : Tenancy α) (frame : Nat) : FrameId := tenancy.issued.getD frame .global

/-- What an action does to an environment that reuses its slots. -/
def perform (tenancy : Tenancy α) : FrameAction α → Tenancy α × FrameAnswer α
  | .on frame .push =>
    let (environment, id) := tenancy.environment.push (tenancy.nameOf frame)
    let issued := tenancy.issued ++ [id]
    (⟨environment, issued⟩, .opened (issued.idxOf id))
  | .on frame .pop =>
    ({ tenancy with environment := tenancy.environment.pop (tenancy.nameOf frame) }, .done)
  | .on frame (.define name value) =>
    ({ tenancy with environment := tenancy.environment.define (tenancy.nameOf frame) name value },
      .done)
  | .on frame (.assign name value) =>
    match tenancy.environment.assign? (tenancy.nameOf frame) name value with
    | some later => ({ tenancy with environment := later }, .flag true)
    | none => (tenancy, .flag false)
  | .on frame (.get name) =>
    (tenancy, .value (tenancy.environment.get? (tenancy.nameOf frame) name))
  | .on frame .visible => (tenancy, .bindings (tenancy.environment.visible (tenancy.nameOf frame)))
  | .on frame .locals => (tenancy, .bindings (tenancy.environment.locals (tenancy.nameOf frame)))
  | .on frame .isOpen => (tenancy, .flag (tenancy.environment.hasFrame (tenancy.nameOf frame)))
  | .count => (tenancy, .number tenancy.environment.frameCount)

end Tenancy

end Stepper
