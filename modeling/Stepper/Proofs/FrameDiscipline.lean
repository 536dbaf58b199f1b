import Stepper.Proofs.Footing
import Stepper.Proofs.Tracking

/-! # Frames are closed as they were opened -/

namespace Stepper

open List Machine Host

/-- Whether a run is about to execute statements or to evaluate an expression. -/
def Control.isWork : Control → Bool
  | .statements _ _ | .evaluate _ _ => true
  | _ => false

namespace Machine

/-- Whether a run hands a result to what lies below a stack of that height. -/
def handsOver (height : Nat) (m : Machine) : Bool :=
  match m.control with
  | .deliver _ => m.stack.length == height
  | _ => false

/-- The states from the first one until the work on a stack of that height hands over its result. -/
def work (height : Nat) : List (Engine × Machine) → List (Engine × Machine)
  | [] => []
  | state :: rest => state :: if state.2.handsOver height then [] else work height rest

/-- Whether states come from each other by steps, the first from the start, within the limits of a host.
-/
structure Runs (config : Config) (start : Machine) (states : List (Engine × Machine)) : Prop where
  begins : ∀ first ∈ states.head?, first.2 = start
  unbroken : Unbroken states
  within : ∀ state ∈ states, state.1.config = config

/-- Whether work leaves the frames open, when it hands over its result, that were open when it was
begun, and the same number of calls active. -/
def ComesBack (m : Machine) (states : List (Engine × Machine)) : Prop :=
  ∀ state ∈ work m.stack.length states, state.2.handsOver m.stack.length = true →
    state.2.depth = m.depth ∧ ∀ id, state.2.environment.hasFrame id = m.environment.hasFrame id

lemma work_all {Q : Machine → Prop} (unbroken : Unbroken states)
    (begun : ∀ first ∈ states.head?, Q first.2) (step : ∀ state ∈ states, Q state.2 → state.2.handsOver
      height = false → Q (state.2.step state.1).2) : ∀ state ∈ work height states, Q state.2 := by
  induction states with
  | nil => exact forall_mem_nil _
  | cons state _ ih =>
    obtain ⟨follows, onward⟩ := isChain_cons.mp unbroken
    have here : Q state.2 := begun state rfl
    refine forall_mem_cons.mpr ⟨here, ?_⟩
    split
    · exact forall_mem_nil _
    · next working =>
      refine ih onward (fun next first => ?_) fun other mem =>
        step other (mem_cons_of_mem _ mem)
      rw [follows next first]
      exact step state mem_cons_self here (Bool.not_eq_true _ ▸ working)

lemma handsOver_iff {m : Machine} :
    m.handsOver height = true ↔ (∃ result, m.control = .deliver result) ∧ m.stack.length = height := by
  unfold handsOver
  split
  · next _ shape => simp [shape]
  · next other => simpa using fun result shape => absurd shape (other result)

lemma Advances.above {limit : Nat} {m next : Machine}
    (advances : Advances stock limit m next) (above : below <:+ m.stack)
    (working : m.handsOver below.length = false) : below <:+ next.stack := by
  have rests : below <:+ m.base := by
    unfold base
    split
    · next result shape =>
      cases top : m.stack with
      | nil =>
        rw [top] at above
        exact above
      | cons k rest =>
        rw [top] at above
        obtain rfl | further := suffix_cons_iff.mp above
        · have hands : m.handsOver (k :: rest).length = true :=
            handsOver_iff.mpr ⟨⟨result, shape⟩, congrArg length top⟩
          rw [working] at hands
          cases hands
        · exact further
    · exact above
  obtain same | ⟨k, pushed⟩ := advances.stack
  · rwa [same]
  · rw [pushed]
    exact rests.trans (suffix_cons k _)

/-! ### Depth and frames -/

section Framed
variable {stock : Stock} {limit : Nat} {m : Machine}

lemma Framed.calls (framed : m.Framed stock limit) : m.depth ≤ limit ∧ m.depth =
    (Continuation.calls m.stack).length ∧ (Continuation.calls m.stack).Nodup ∧ ∀ frame ∈
    Continuation.calls m.stack, m.environment.hasFrame frame = true := by
  have nests := framed.standing.nests
  have inner : (Continuation.calls m.stack).Sublist m.frames :=
    (Continuation.calls_sublist m.stack).trans (sublist_append_right _ _)
  refine ⟨framed.standing.bounded, framed.standing.depth, nests.inner_distinct.sublist inner, ?_⟩
  exact fun frame mem => nests.ascends.hasFrame frame (inner.subset mem)

lemma Framed.same {now : Machine} (framed : m.Framed stock limit) (later : now.Framed stock limit)
    (plain : m.control.closes? = none) (plainToo : now.control.closes? = none)
    (stack : now.stack = m.stack) :
    now.depth = m.depth ∧ ∀ id, now.environment.hasFrame id = m.environment.hasFrame id := by
  refine ⟨?_, fun id => ?_⟩
  · rw [framed.standing.depth, later.standing.depth, stack]
  · have frames_now : now.frames = m.frames := by
      rw [frames, frames, openFrames, openFrames, plain, plainToo, stack]
    have now_open : now.environment.hasFrame id = true ↔ id ∈ now.frames ++ [.global] :=
      later.standing.nests.hasFrame_iff id
    have then_open : m.environment.hasFrame id = true ↔ id ∈ m.frames ++ [.global] :=
      framed.standing.nests.hasFrame_iff id
    rw [Bool.eq_iff_iff, now_open, then_open, frames_now]

lemma Framed.finished (framed : m.Framed stock limit) (ended : m.control = .finished error) :
    m.depth = 0 ∧ ∀ id, m.environment.hasFrame id = true ↔ id = .global := by
  have outside : FrameId.innermost m.frames = .global := by
    have here := framed.fits.1
    rw [ended] at here
    exact here.symm
  have nothing : m.frames = [] := framed.standing.nests.eq_nil outside
  have calls : Continuation.calls m.stack = [] := by
    have inner := (Continuation.calls_sublist m.stack).trans
      (sublist_append_right m.control.closes?.toList _)
    exact sublist_nil.mp (nothing ▸ inner)
  refine ⟨by rw [framed.standing.depth, calls]; rfl, fun id => ?_⟩
  rw [framed.standing.nests.hasFrame_iff id]
  change id ∈ m.frames ++ [.global] ↔ _
  rw [nothing, nil_append, mem_singleton]

lemma Framed.comesBack {config : Config} (framed : m.Framed stock config.maxCallDepth)
    (plain : m.control.closes? = none) {states : List (Engine × Machine)}
    (runs : Runs config m states) : m.ComesBack states := by
  intro state mem hands
  obtain ⟨above, later⟩ : m.stack <:+ state.2.stack ∧ state.2.Framed stock config.maxCallDepth := by
    refine work_all (Q := fun now => m.stack <:+ now.stack ∧ now.Framed stock config.maxCallDepth)
      runs.unbroken ?_ ?_ state mem
    · intro first present
      rw [runs.begins first present]
      exact ⟨suffix_rfl, framed⟩
    · rintro ⟨e, _⟩ inside ⟨above, here⟩ working
      have advances := here.step (e := e) (Nat.le_of_eq (congrArg _ (runs.within _ inside)))
      exact ⟨advances.above above working, advances.framed⟩
  obtain ⟨⟨_, delivers⟩, height⟩ := handsOver_iff.mp hands
  have plainToo : state.2.control.closes? = none := by
    rw [delivers]
    rfl
  exact framed.same later plain plainToo (above.eq_of_length height.symm).symm

lemma Framed.instead (framed : m.Framed .any limit) (plain : m.control.closes? = none)
    (works : task.isWork) (same : task.site? = m.control.site?) :
    (m.into task).Framed .any limit := by
  have plainToo : task.closes? = none := by
    cases task with
    | build => cases works
    | _ => rfl
  obtain ⟨standing, here, -⟩ := framed
  rw [frames, plain, ← same] at here
  rw [plain] at standing
  have known : task.IsIn .any := by
    cases task with
    | statements => exact fun _ _ => trivial
    | evaluate => trivial
    | _ => cases works
  have leads : Leads False _ _ _ _ _ := standing.ground.into plainToo ⟨here, known⟩
  exact leads.framed

/-! ### What is visible -/

/-- The frames that a run works in, now and when it returns to what is on its stack. -/
def sites (m : Machine) : List FrameId :=
  m.control.site?.toList ++ m.stack.filterMap Continuation.site?

lemma innermost_mem (frames : List FrameId) : .innermost frames ∈ frames ++ [.global] := by
  cases frames with
  | nil => exact mem_singleton_self _
  | cons => exact mem_cons_self

lemma Continuation.AllFit.site_mem {stack : List Continuation} (fits : Continuation.AllFit stock stack)
    (mem : frame ∈ stack.filterMap Continuation.site?) :
    frame ∈ Continuation.frames stack ++ [.global] := by
  induction stack with
  | nil => cases mem
  | cons k rest ih =>
    obtain ⟨⟨here, -⟩, others⟩ := fits
    rw [filterMap_cons] at mem
    cases site : k.site? with
    | none =>
      rw [site] at mem
      rw [Continuation.frames_cons, append_assoc]
      exact mem_append_right _ (ih others mem)
    | some =>
      rw [site] at mem here
      obtain rfl | further := mem_cons.mp mem
      · have inner : frame = .innermost (Continuation.frames (k :: rest)) := here
        rw [inner]
        exact innermost_mem _
      · rw [Continuation.frames_cons, append_assoc]
        exact mem_append_right _ (ih others further)

lemma Framed.site_mem (framed : m.Framed stock limit) {frame : FrameId} (mem : frame ∈ m.sites) :
    frame ∈ m.frames ++ [.global] := by
  obtain now | later := mem_append.mp mem
  · have here := framed.fits.1
    rw [Option.mem_toList.mp now] at here
    have inner : frame = .innermost m.frames := here
    rw [inner]
    exact innermost_mem _
  · have inside := Continuation.AllFit.site_mem framed.standing.stack later
    rw [frames, openFrames, append_assoc]
    exact mem_append_right _ inside

lemma Framed.sees (framed : m.Framed stock limit) (mem : frame ∈ m.sites) :
    ∃ chain, m.environment.Sees frame chain := by
  have nests : m.environment.Nests m.frames := framed.standing.nests
  obtain ⟨chain, lineage, -⟩ := nests.lineage (framed.site_mem mem)
  exact ⟨chain, nests.sees lineage⟩

lemma applyValue_opens (enters : (m.applyValue maxDepth (.function decl home) args receiver
      location).control = .statements body frame) : ∃ bindings, frame =
    (m.environment.openWith home bindings).2 ∧
    (m.applyValue maxDepth (.function decl home) args receiver location).environment =
    (m.environment.openWith home bindings).1 := by
  unfold applyValue at enters ⊢
  dsimp only at enters ⊢
  split at enters
  · cases enters
  · next arity =>
    rw [if_neg arity]
    split at enters
    · cases enters
    · next depth =>
      rw [if_neg depth]
      cases enters
      cases receiver with
      | none => exact ⟨decl.params.zip args, rfl, rfl⟩
      | some self => exact ⟨("self", self) :: decl.params.zip args, rfl, rfl⟩

lemma opened_sees {env : Environment Value} {frames now : List FrameId} (nests : env.Nests frames)
    (later : (env.openWith home bindings).1.Nests now) : ∃ outer, (env.openWith home bindings).1.Sees
    (env.openWith home bindings).2 ((env.openWith home bindings).2 :: outer) ∧ if env.hasFrame home then
    env.Lineage home outer else outer = [.global] := by
  obtain ⟨others, frame, found, parent⟩ := nests.frame?_openWith home bindings
  have onward {outer : List FrameId} {inside : FrameId} (lineage : env.Lineage inside outer)
      (behind : frame.parent = some inside) :
      (env.openWith home bindings).1.Sees (env.openWith home bindings).2
        ((env.openWith home bindings).2 :: outer) :=
    later.sees (.further found behind
      (lineage.kept fun holder mem => others holder (lineage.walk.hasFrame holder mem)))
  split at parent
  · next opened =>
    obtain ⟨outer, lineage, -⟩ := nests.lineage (nests.only home opened)
    exact ⟨outer, onward lineage parent, by rwa [if_pos opened]⟩
  · next gone =>
    obtain ⟨_, there, none⟩ := nests.root
    exact ⟨[.global], onward (.last there none) parent, by rw [if_neg gone]⟩

end Framed

end Machine

namespace Host
variable {config : Config} {number : Nat} {moves : List Move}

lemma history_framed (config) (number) (moves) :
    ∀ state ∈ (observed config).history number moves, state.2.Framed .any config.maxCallDepth :=
  history_within
    (fun _ _ _ _ => .ofTarget (Stock.any_covers _) _ _ _ _)
    (fun _ _ same framed => (framed.step (same ▸ Nat.le_refl _)).framed) number moves

lemma history_runs {before after : List (Engine × Machine)}
    (reached : (observed config).history number moves = before ++ (e, m) :: after) : Machine.Runs
    config m ((e, m) :: after) where
  begins := by
    rintro _ ⟨⟩
    rfl
  unbroken := by
    have all := history_unbroken config number moves
    rw [reached] at all
    exact (isChain_append.mp all).2.1
  within state mem :=
    history_config (observed_orderly config) number moves state
      (reached ▸ mem_append_right _ mem)

end Host

/-- In every state of every run calls and frames agree with the depth, and work hands over its result
with those frames open that were open when it was begun. -/
theorem frames_closed_as_opened (config : Config) (number : Nat) (moves : List Move)
    {before after : List (Engine × Machine)} {e : Engine} {m : Machine}
    (reached : (observed config).history number moves = before ++ (e, m) :: after) :
    (m.depth ≤ config.maxCallDepth ∧ m.depth = (Continuation.calls m.stack).length ∧
      (Continuation.calls m.stack).Nodup ∧
      ∀ frame ∈ Continuation.calls m.stack, m.environment.hasFrame frame = true) ∧
    (m.control.isWork = true → m.ComesBack ((e, m) :: after)) ∧
    (m.control.closes? = none → ∀ task states, task.isWork = true →
      task.site? = m.control.site? → Machine.Runs config (m.into task) states → m.ComesBack states) ∧
    ∀ error, (m.step e).2.control = .finished error →
      (m.step e).2.depth = 0 ∧ ∀ id, (m.step e).2.environment.hasFrame id = true ↔ id = .global := by
  have runs := history_runs reached
  have framed : m.Framed .any config.maxCallDepth :=
    history_framed config number moves (e, m) (by simp [reached])
  have advances := framed.step
    (Nat.le_of_eq (congrArg Config.maxCallDepth (runs.within (e, m) List.mem_cons_self)))
  refine ⟨framed.calls, fun works => ?_, fun plain task states works same others => ?_,
    fun error ended => advances.framed.finished ended⟩
  · have plain : m.control.closes? = none := by
      cases shape : m.control with
      | build => rw [shape] at works; cases works
      | _ => rfl
    exact framed.comesBack plain runs
  · have plainToo : task.closes? = none := by
      cases task with
      | build => cases works
      | _ => rfl
    exact (framed.instead plain works same).comesBack plainToo others

def oneExecution (config : Config) (source : String) : List Move :=
  (Launch.sole config source {}).before ++ [.slice 1]

def tooDeep : List (Engine × Machine) :=
  (observed { maxCallDepth := 2 }).history 1
    (oneExecution { maxCallDepth := 2 } "FUNC f()\nRETURN f()\nEND\nf()\n")

/-- After 17 steps the function calls itself for the first time. The call after that one fails, and all
frames that were opened for them are closed again. -/
theorem tooDeep_comes_back :
    ∃ before e m after state, tooDeep = before ++ (e, m) :: after ∧ m.control.isWork = true ∧
      m.depth = 1 ∧ state ∈ work m.stack.length ((e, m) :: after) ∧
      state.2.handsOver m.stack.length = true ∧ state.2.depth = m.depth ∧
      ∀ id, state.2.environment.hasFrame id = m.environment.hasFrame id := by
  have here : (match tooDeep.drop 17 with
      | (e, m) :: after => m.control.isWork && m.depth == 1 &&
        (work m.stack.length ((e, m) :: after)).any (·.2.handsOver m.stack.length)
      | [] => false) = true := by
    decide +kernel
  split at here
  · next e m after found =>
    simp only [Bool.and_eq_true, beq_iff_eq, List.any_eq_true] at here
    obtain ⟨⟨works, depth⟩, state, member, hands⟩ := here
    have reached : tooDeep = tooDeep.take 17 ++ (e, m) :: after := by
      rw [← found, List.take_append_drop]
    have closed := (frames_closed_as_opened { maxCallDepth := 2 } 1 _ reached).2.1 works
    exact ⟨_, e, m, after, state, reached, works, depth, member, hands, closed state member hands⟩
  · cases here

/-- In every state of every run names are looked up along open frames that end in the global one, also
in a function whose own frame has been closed. -/
theorem lookups_end_in_globals (config : Config) (number : Nat) (moves : List Move) {e : Engine}
    {m : Machine} (reached : (e, m) ∈ (observed config).history number moves) :
    (∀ frame ∈ m.sites, ∃ chain, m.environment.Sees frame chain) ∧
    ∀ decl home receiver location values site body frame,
      m.control = .gather (.call (.value (.function decl home) receiver) location) values [] site →
      (m.step e).2.control = .statements body frame →
      ∃ outer, (m.step e).2.environment.Sees frame (frame :: outer) ∧
        if m.environment.hasFrame home then m.environment.Lineage home outer
        else outer = [.global] := by
  have framed : m.Framed .any config.maxCallDepth :=
    history_framed config number moves (e, m) reached
  have same : e.config = config :=
    history_config (observed_orderly config) number moves (e, m) reached
  have advances := framed.step (Nat.le_of_eq (congrArg Config.maxCallDepth same))
  refine ⟨fun frame member => framed.sees member, ?_⟩
  intro decl home receiver location values _ _ _ control enters
  have stepped : (m.step e).2 = m.applyValue e.config.maxCallDepth (.function decl home)
      values.reverse receiver location := by
    simp only [step, control, complete]
  have later := advances.framed.standing.nests
  rw [stepped] at enters later ⊢
  obtain ⟨_, rfl, environment⟩ := applyValue_opens enters
  rw [environment] at later ⊢
  exact opened_sees framed.standing.nests later

def outliving : List (Engine × Machine) :=
  (observed {}).history 1 (oneExecution {}
    "FUNC f()\nFUNC g()\nRETURN x\nEND\nRETURN g\nEND\nLET x = 1\nLET h = f()\nh()\n")

def Machine.enteredFrames? (e : Engine) (m : Machine) : Option (FrameId × FrameId) :=
  match m.control, (m.step e).2.control with
  | .gather (.call (.value (.function _ home) _) _) _ [] _, .statements _ frame => some (home, frame)
  | _, _ => none

/-- After 42 steps it is called. Its frame takes the slot of the one that it was declared in, and sees
the global frame. -/
theorem outliving_sees_globals :
    ∃ e m decl home receiver location values site body frame, (e, m) ∈ outliving ∧
      m.control = .gather (.call (.value (.function decl home) receiver) location) values [] site ∧
      (m.step e).2.control = .statements body frame ∧ m.environment.hasFrame home = false ∧
      home.index = frame.index ∧ (m.step e).2.environment.Sees frame [frame, .global] := by
  have here : (outliving[42]?.any fun state => (state.2.enteredFrames? state.1).any fun frames =>
      !state.2.environment.hasFrame frames.1 && frames.1.index == frames.2.index) = true := by
    decide +kernel
  obtain ⟨⟨e, m⟩, found, called⟩ := (Option.any_eq_true _ _).mp here
  obtain ⟨⟨home, frame⟩, entered, facts⟩ := (Option.any_eq_true _ _).mp called
  simp only [Bool.and_eq_true, Bool.not_eq_true', beq_iff_eq] at facts
  obtain ⟨closed, slot⟩ := facts
  have reached : (e, m) ∈ outliving := List.mem_of_getElem? found
  unfold enteredFrames? at entered
  split at entered
  · next decl home receiver location values site body frame calls enters =>
    cases entered
    obtain ⟨_, sees, behind⟩ := (lookups_end_in_globals {} 1 _ reached).2 decl home receiver
      location values site body frame calls enters
    rw [closed] at behind
    cases behind
    exact ⟨e, m, decl, home, receiver, location, values, site, body, frame, reached, calls, enters,
      closed, slot, sees⟩
  · cases entered

end Stepper
