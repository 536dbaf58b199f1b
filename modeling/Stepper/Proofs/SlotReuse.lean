import Stepper.Proofs.FrameLedger

/-! # Slots are used again unseen -/

namespace Stepper

open List FrameAnswer

variable {α : Type}

/-! ### The relation -/

def Tenancy.imageOf (tenancy : Tenancy α) (line : LedgerFrame α) : Frame α :=
  ⟨line.parent.map tenancy.nameOf, line.bindings⟩

structure Mirrors (tenancy : Tenancy α) (ledger : Ledger α) : Prop where
  sound : tenancy.environment.Sound tenancy.issued
  length : tenancy.issued.length = ledger.frames.length
  global : tenancy.nameOf 0 = .global
  root : ledger.hasFrame 0 = true
  ordered : ledger.IsOrdered
  faithful : ∀ frame < ledger.frames.length,
    tenancy.environment.frame? (tenancy.nameOf frame) = (ledger.frame? frame).map tenancy.imageOf
  count : tenancy.environment.frameCount = ledger.frameCount

namespace Mirrors
variable {tenancy : Tenancy α} {ledger : Ledger α} {frame other : Nat}

lemma empty : Mirrors (Tenancy.empty : Tenancy α) Ledger.empty where
  sound := .empty
  length := rfl
  global := rfl
  root := rfl
  ordered frame line parent found lineage := by
    obtain ⟨there, -⟩ := Ledger.frame?_eq_some.mp found
    obtain rfl := mem_singleton.mp (mem_of_getElem? there)
    cases lineage
  faithful frame inside := by
    obtain rfl : frame = 0 := Nat.lt_one_iff.mp inside
    rfl
  count := rfl

section
variable (mirrors : Mirrors tenancy ledger)
include mirrors

lemma positive : 0 < ledger.frames.length := by
  obtain ⟨_, there, -⟩ := Ledger.hasFrame_iff.mp mirrors.root
  exact (List.getElem?_eq_some_iff.mp there).1

lemma issued_iff {id : FrameId} :
    tenancy.issued[frame]? = some id ↔ frame < ledger.frames.length ∧ tenancy.nameOf frame = id := by
  rw [← mirrors.length, Tenancy.nameOf, getD_eq_getElem?_getD]
  constructor
  · intro named
    exact ⟨(List.getElem?_eq_some_iff.mp named).1, by rw [named, Option.getD_some]⟩
  · rintro ⟨inside, rfl⟩
    rw [getElem?_eq_getElem inside, Option.getD_some]

variable (inside : frame < ledger.frames.length)

include inside

lemma issued_nameOf : tenancy.issued[frame]? = some (tenancy.nameOf frame) :=
  mirrors.issued_iff.mpr ⟨inside, rfl⟩

lemma nameOf_inj (otherInside : other < ledger.frames.length) :
    tenancy.nameOf other = tenancy.nameOf frame ↔ other = frame := by
  refine ⟨fun same => ?_, fun same => same ▸ rfl⟩
  have bounded : other < tenancy.issued.length := mirrors.length ▸ otherInside
  refine (getElem?_inj bounded mirrors.sound.distinct).mp ?_
  rw [mirrors.issued_nameOf inside, mirrors.issued_nameOf otherInside, same]

lemma nameOf_eq_global : tenancy.nameOf frame = .global ↔ frame = 0 := by
  rw [← mirrors.global]
  exact mirrors.nameOf_inj mirrors.positive inside

end

/-! ### Questions -/

section
variable (mirrors : Mirrors tenancy ledger)
include mirrors

lemma hasFrame (inside : frame < ledger.frames.length) :
    tenancy.environment.hasFrame (tenancy.nameOf frame) = ledger.hasFrame frame := by
  rw [Environment.hasFrame, mirrors.faithful frame inside, Option.isSome_map, Ledger.hasFrame]

lemma locals (inside : frame < ledger.frames.length) :
    tenancy.environment.locals (tenancy.nameOf frame) = ledger.locals frame := by
  rw [Environment.locals, mirrors.faithful frame inside, Ledger.locals]
  cases ledger.frame? frame <;> rfl

lemma enough (oldest) : ledger.openAmong oldest ≤ tenancy.environment.slots.size :=
  calc ledger.openAmong oldest
    _ ≤ ledger.frameCount := ledger.openAmong_le oldest
    _ = tenancy.environment.frameCount := mirrors.count.symm
    _ ≤ tenancy.environment.slots.size := Array.countP_le_size

lemma nearest (inside : frame < ledger.frames.length) (name) : tenancy.environment.nearest
    (tenancy.nameOf frame) name = (ledger.nearest frame name).map fun held =>
    (tenancy.nameOf held.1, held.2) := by
  rw [Environment.nearest]
  refine Ledger.walk_induction mirrors.ordered (motive := fun frame bound => frame <
    ledger.frames.length → tenancy.environment.searchWithin (fun frame => frame.bindings.find? name)
    bound (tenancy.nameOf frame) = (ledger.nearest frame name).map fun held => (tenancy.nameOf held.1,
    held.2)) ?gone ?ends ?further frame _ (mirrors.enough _) inside
  case gone =>
    intro frame bound gone inside
    cases bound with
    | zero => simp [Environment.searchWithin, Ledger.nearest, Ledger.outwards_gone gone]
    | succ =>
      simp [Environment.searchWithin, mirrors.faithful frame inside, gone, Ledger.nearest,
        Ledger.outwards_gone gone]
  case ends =>
    intro frame _ line found last inside
    cases held : line.bindings.find? name <;>
      simp [Environment.searchWithin, mirrors.faithful frame inside, found, Tenancy.imageOf, last,
        held, Ledger.nearest, Ledger.outwards_last found last]
  case further =>
    intro frame _ line _ found lineage older ih inside
    have rest := ih (Nat.lt_trans older inside)
    rw [Ledger.nearest] at rest ⊢
    cases held : line.bindings.find? name <;>
      simp [Environment.searchWithin, mirrors.faithful frame inside, found, Tenancy.imageOf, lineage,
        held, Ledger.outwards_further found lineage older, rest]

lemma visible (inside : frame < ledger.frames.length) :
    tenancy.environment.visible (tenancy.nameOf frame) = ledger.visible frame := by
  have chain : tenancy.environment.chainWithin tenancy.environment.slots.size (tenancy.nameOf frame) =
      (ledger.outwards frame).map Prod.snd := by
    refine Ledger.walk_induction mirrors.ordered (motive := fun frame bound => frame <
      ledger.frames.length → tenancy.environment.chainWithin bound (tenancy.nameOf frame) =
      (ledger.outwards frame).map Prod.snd) ?gone ?ends ?further frame _ (mirrors.enough _) inside
    case gone =>
      intro frame bound gone inside
      rw [Ledger.outwards_gone gone]
      cases bound with
      | zero => rfl
      | succ => simp [Environment.chainWithin, mirrors.faithful frame inside, gone]
    case ends =>
      intro frame _ _ found last inside
      simp [Environment.chainWithin, mirrors.faithful frame inside, found, Tenancy.imageOf, last,
        Ledger.outwards_last found last]
    case further =>
      intro frame _ _ _ found lineage older ih inside
      simp [Environment.chainWithin, mirrors.faithful frame inside, found, Tenancy.imageOf, lineage,
        Ledger.outwards_further found lineage older, ih (Nat.lt_trans older inside)]
  rw [Environment.visible, chain, foldr_map, Ledger.visible]

end

/-! ### Changes -/

section
variable (mirrors : Mirrors tenancy ledger)
include mirrors

section

variable (inside : frame < ledger.frames.length)

include inside

lemma define (name) (value : α) :
    Mirrors { tenancy with
      environment := tenancy.environment.define (tenancy.nameOf frame) name value }
      (ledger.define frame name value) where
  sound := mirrors.sound.define _ name value
  length := by rw [Ledger.define, length_modify, mirrors.length]
  global := mirrors.global
  root := by rw [Ledger.hasFrame_define, mirrors.root]
  ordered other line parent found lineage := by
    rw [Ledger.frame?_define] at found
    split at found
    · next same =>
      obtain ⟨old, there, rfl⟩ := Option.map_eq_some_iff.mp found
      exact mirrors.ordered other old parent (same ▸ there) lineage
    · exact mirrors.ordered other line parent found lineage
  faithful other otherInside := by
    rw [Ledger.define, length_modify] at otherInside
    have there := mirrors.faithful frame inside
    have others := mirrors.faithful other otherInside
    have names := mirrors.nameOf_inj inside otherInside
    change (tenancy.environment.define (tenancy.nameOf frame) name value).frame?
      (tenancy.nameOf other) = ((ledger.define frame name value).frame? other).map tenancy.imageOf
    rw [Environment.frame?_define, Ledger.frame?_define]
    simp only [names]
    split
    · rw [there, Option.map_map, Option.map_map]
      rfl
    · exact others
  count := by
    rw [Environment.frameCount_define, Ledger.frameCount_define, mirrors.count]

lemma pop :
    Mirrors { tenancy with environment := tenancy.environment.pop (tenancy.nameOf frame) }
      (ledger.pop frame) := by
  have there := mirrors.faithful frame inside
  have global := mirrors.nameOf_eq_global inside
  by_cases stays : frame = 0 ∨ ledger.frame? frame = none
  · rw [Ledger.pop_gone stays, Environment.pop_gone]
    · exact mirrors
    · exact stays.imp global.mpr fun gone => by rw [there, gone, Option.map_none]
  obtain ⟨inner, opened⟩ := not_or.mp stays
  obtain ⟨line, found⟩ := Option.ne_none_iff_exists'.mp opened
  have length : (ledger.pop frame).frames.length = ledger.frames.length := by
    rw [Ledger.pop, if_neg inner, length_modify]
  refine ⟨mirrors.sound.pop _, by rw [length, mirrors.length], mirrors.global, ?_, ?_, ?_, ?_⟩
  · rw [Ledger.hasFrame, Ledger.frame?_pop, if_neg fun closes => inner closes.1.symm]
    exact mirrors.root
  · intro other line parent found lineage
    rw [Ledger.frame?_pop] at found
    split at found
    · cases found
    · exact mirrors.ordered other line parent found lineage
  · intro other otherInside
    rw [length] at otherInside
    change (tenancy.environment.pop (tenancy.nameOf frame)).frame? (tenancy.nameOf other) =
      ((ledger.pop frame).frame? other).map tenancy.imageOf
    rw [Environment.frame?_pop_eq, Ledger.frame?_pop]
    simp only [mirrors.nameOf_inj inside otherInside, ne_eq, global]
    split
    · rfl
    · exact mirrors.faithful other otherInside
  · have fewer := Environment.frameCount_pop (there.trans (congrArg _ found)) (mt global.mp inner)
    have ledgerFewer := Ledger.frameCount_pop found inner
    have count := mirrors.count
    change (tenancy.environment.pop (tenancy.nameOf frame)).frameCount = (ledger.pop frame).frameCount
    omega

lemma nameOf_push (environment : Environment α) (id) :
    Tenancy.nameOf ⟨environment, tenancy.issued ++ [id]⟩ frame = tenancy.nameOf frame := by
  rw [← mirrors.length] at inside
  simp [Tenancy.nameOf, getElem?_append_left inside]

end

lemma nameOf_new (environment : Environment α) (id) :
    Tenancy.nameOf ⟨environment, tenancy.issued ++ [id]⟩ ledger.frames.length = id := by
  simp [Tenancy.nameOf, ← mirrors.length]

variable (inside : frame < ledger.frames.length)

include inside

lemma imageOf_push (found : ledger.frame? frame = some line) (environment) (id) :
    Tenancy.imageOf ⟨environment, tenancy.issued ++ [id]⟩ line = tenancy.imageOf line := by
  rw [Tenancy.imageOf, Tenancy.imageOf]
  congr 1
  refine Option.map_congr fun parent lineage => ?_
  have older := mirrors.ordered frame line parent found lineage
  exact mirrors.nameOf_push (Nat.lt_trans older inside) environment id

lemma imageOf_opened (environment) (id) :
    Tenancy.imageOf ⟨environment, tenancy.issued ++ [id]⟩
        { parent := some (if ledger.hasFrame frame then frame else 0) } =
      tenancy.environment.opened (tenancy.nameOf frame) := by
  rw [Tenancy.imageOf, Environment.opened, mirrors.hasFrame inside, Option.map_some]
  split
  · rw [mirrors.nameOf_push inside]
  · rw [mirrors.nameOf_push mirrors.positive, mirrors.global]

lemma push :
    Mirrors ⟨(tenancy.environment.push (tenancy.nameOf frame)).1,
        tenancy.issued ++ [(tenancy.environment.push (tenancy.nameOf frame)).2]⟩
      (ledger.push frame) where
  sound := mirrors.sound.push _
  length := by simp [Ledger.push, mirrors.length]
  global := by rw [mirrors.nameOf_push mirrors.positive, mirrors.global]
  root := by
    rw [Ledger.hasFrame, Ledger.frame?_push, if_neg (Nat.ne_of_lt mirrors.positive)]
    exact mirrors.root
  ordered other line parent found lineage := by
    rw [Ledger.frame?_push] at found
    split at found
    · next new =>
      cases found
      cases lineage
      rw [new]
      split
      · exact inside
      · exact mirrors.positive
    · exact mirrors.ordered other line parent found lineage
  faithful other otherInside := by
    rw [mirrors.sound.frame?_push, Ledger.frame?_push]
    by_cases new : other = ledger.frames.length
    · subst new
      rw [mirrors.nameOf_new, if_pos rfl, if_pos rfl, Option.map_some, mirrors.imageOf_opened inside]
    · have before : other < ledger.frames.length := by
        simp only [Ledger.push, length_append, length_singleton] at otherInside
        omega
      have old := mem_of_getElem? (mirrors.issued_nameOf before)
      have differs := ne_of_mem_of_not_mem old (mirrors.sound.fresh (tenancy.nameOf frame))
      rw [mirrors.nameOf_push before, if_neg differs, if_neg new, mirrors.faithful other before]
      refine Option.map_congr fun line found => ?_
      exact (mirrors.imageOf_push before found _ _).symm
  count := by
    rw [Environment.frameCount_push mirrors.sound, Ledger.frameCount_push, mirrors.count]

end

/-! ### Requests -/

lemma idxOf_push (mirrors : Mirrors tenancy ledger) (parent) :
    (tenancy.issued ++ [(tenancy.environment.push parent).2]).idxOf (tenancy.environment.push parent).2
    = ledger.frames.length := by
  rw [idxOf_append, if_neg (mirrors.sound.fresh parent), idxOf_cons_self, Nat.zero_add, mirrors.length]

lemma perform (mirrors : Mirrors tenancy ledger) (action : FrameAction α)
    (apt : action.IsApt ledger.frames.length) : (tenancy.perform action).2 = (ledger.perform action).2 ∧
    Mirrors (tenancy.perform action).1 (ledger.perform action).1 := by
  cases action with
  | count => exact ⟨congrArg number mirrors.count, mirrors⟩
  | on frame request =>
    have inside : frame < ledger.frames.length := apt
    cases request with
    | push => exact ⟨congrArg opened (mirrors.idxOf_push _), mirrors.push inside⟩
    | pop => exact ⟨rfl, mirrors.pop inside⟩
    | define name value => exact ⟨rfl, mirrors.define inside name value⟩
    | assign name value =>
      have nearest := mirrors.nearest inside name
      simp only [Tenancy.perform, Ledger.perform, Environment.assign?, Ledger.assign?, nearest]
      cases held : ledger.nearest frame name with
      | none => exact ⟨rfl, mirrors⟩
      | some =>
        have holderInside := Nat.lt_of_le_of_lt (Ledger.le_of_nearest ‹_›) inside
        exact ⟨rfl, mirrors.define holderInside name value⟩
    | get =>
      refine ⟨congrArg value ?_, mirrors⟩
      rw [Environment.get?, mirrors.nearest inside, Option.map_map]
      rfl
    | visible => exact ⟨congrArg bindings (mirrors.visible inside), mirrors⟩
    | locals => exact ⟨congrArg bindings (mirrors.locals inside), mirrors⟩
    | isOpen => exact ⟨congrArg flag (mirrors.hasFrame inside), mirrors⟩

end Mirrors

lemma Mirrors.performAll (mirrors : Mirrors tenancy ledger) (actions)
    (apt : AreApt ledger.frames.length actions) : (Stepper.performAll Tenancy.perform tenancy actions).2
    = (Stepper.performAll Ledger.perform ledger actions).2 ∧ Mirrors
    (Stepper.performAll Tenancy.perform tenancy actions).1
    (Stepper.performAll Ledger.perform ledger actions).1 := by
  induction actions generalizing tenancy ledger with
  | nil => exact ⟨rfl, mirrors⟩
  | cons action _ ih =>
    obtain ⟨aptAction, aptRest⟩ := apt
    obtain ⟨answer, next⟩ := mirrors.perform action aptAction
    rw [← ledger.length_perform action] at aptRest
    obtain ⟨answers, last⟩ := ih next aptRest
    refine ⟨?_, last⟩
    rw [performAll_cons, performAll_cons, answer, answers]

lemma Mirrors.hasFrame_iff (mirrors : Mirrors tenancy ledger) (id) : tenancy.environment.hasFrame id =
    true ↔ ∃ frame, tenancy.issued[frame]? = some id ∧ ledger.hasFrame frame = true := by
  constructor
  · intro opened
    obtain ⟨content, found⟩ := Option.isSome_iff_exists.mp opened
    obtain ⟨frame, named⟩ := getElem?_of_mem (mirrors.sound.known id content found)
    obtain ⟨inside, rfl⟩ := mirrors.issued_iff.mp named
    exact ⟨frame, named, (mirrors.hasFrame inside).symm.trans opened⟩
  · rintro ⟨_, named, opened⟩
    obtain ⟨inside, rfl⟩ := mirrors.issued_iff.mp named
    exact (mirrors.hasFrame inside).trans opened

/-- An environment answers every list of requests as a ledger does that gives each frame a number of its
own, so the reuse of slots is not seen. -/
theorem slots_reused_unseen (actions : List (FrameAction α)) (apt : AreApt 1 actions) :
    let run := performAll Tenancy.perform .empty actions
    let environment := run.1.environment
    let issued := run.1.issued
    run.2 = (performAll Ledger.perform .empty actions).2 ∧
      issued.Nodup ∧ issued.length = 1 + actions.countP FrameAction.opens ∧
      (∀ id, environment.hasFrame id = true ↔
        ∃ frame, issued[frame]? = some id ∧ (frame = 0 ∨ .on frame .pop ∉ actions)) ∧
      environment.hasFrame .global = true ∧
      environment.free.Nodup ∧
      ∀ i, i ∈ environment.free ↔ ∃ slot, environment.slots[i]? = some slot ∧ slot.frame = none := by
  intro _ _ _
  obtain ⟨answers, mirrors⟩ := Mirrors.empty.performAll actions apt
  have length := mirrors.length.trans (Ledger.length_performAll .empty actions)
  refine ⟨answers, mirrors.sound.distinct, length, fun id => ?_, ?_, mirrors.sound.once,
    mirrors.sound.vacant⟩
  · rw [mirrors.hasFrame_iff]
    refine exists_congr fun frame => and_congr_right fun named => ?_
    obtain ⟨inside, -⟩ := mirrors.issued_iff.mp named
    rw [Ledger.hasFrame_performAll .empty actions apt inside]
    refine and_iff_right fun first => ?_
    obtain rfl : frame = 0 := Nat.lt_one_iff.mp first
    rfl
  · rw [← mirrors.global, mirrors.hasFrame mirrors.positive]
    exact mirrors.root

def reuse : List (FrameAction Nat) :=
  [.on 0 .push, .on 1 (.define "x" 1), .on 1 .pop, .on 0 .push, .on 1 (.define "x" 2), .on 2 (.get "x"),
    .on 1 .isOpen, .on 1 .pop, .on 1 .push, .on 3 (.assign "x" 3), .on 2 .isOpen, .count]

theorem reuse_unseen :
    AreApt 1 reuse ∧
      (performAll Tenancy.perform .empty reuse).1.issued = [⟨0, 0⟩, ⟨1, 0⟩, ⟨1, 1⟩, ⟨2, 0⟩] ∧
      (performAll Tenancy.perform .empty reuse).2 = (performAll Ledger.perform .empty reuse).2 :=
  ⟨by decide, by decide, (slots_reused_unseen reuse (by decide)).1⟩

end Stepper
