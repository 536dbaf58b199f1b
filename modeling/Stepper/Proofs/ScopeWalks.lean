import Mathlib.Logic.Relation
import Stepper.Proofs.Lookups

/-! # Walks outwards end -/

namespace Stepper

open List

namespace Environment
variable {env : Environment α} {id parent : FrameId} {path : List FrameId}

/-- Whether a frame is open and has the other as its parent. -/
def Inside (env : Environment α) (id parent : FrameId) : Prop :=
  ∃ frame, env.frame? id = some frame ∧ frame.parent = some parent

/-- The age of a frame is its place in the ledger, where a parent stands before its children. -/
lemma Reachable.exists_age (reachable : env.Reachable) :
    ∃ age : FrameId → Nat, ∀ id parent, env.Inside id parent → age parent < age id := by
  obtain ⟨issued, ledger, mirrors⟩ := reachable.mirrors
  refine ⟨(issued.idxOf ·), ?_⟩
  rintro _ _ ⟨_, found, inside⟩
  obtain ⟨frame, known, rfl⟩ := mirrors.named found
  have there := mirrors.faithful frame known
  obtain ⟨line, listed, rfl⟩ := Option.map_eq_some_iff.mp (there.symm.trans found)
  obtain ⟨older, lineage, rfl⟩ := Option.map_eq_some_iff.mp inside
  have before := mirrors.ordered frame line older listed lineage
  have age {frame : Nat} (known : frame < ledger.frames.length) :
      issued.idxOf (Tenancy.nameOf ⟨env, issued⟩ frame) = frame := by
    obtain ⟨bounded, named⟩ := List.getElem?_eq_some_iff.mp (mirrors.issued_nameOf known)
    rw [← named]
    exact mirrors.sound.distinct.idxOf_getElem frame bounded
  change issued.idxOf _ < issued.idxOf _
  rwa [age known, age (Nat.lt_trans before known)]

namespace Walk
variable {age : FrameId → Nat} (older : ∀ id parent, env.Inside id parent → age parent < age id)
include older

lemma ages (walk : env.Walk id path) : ∀ visited ∈ path, age visited ≤ age id := by
  induction walk with
  | gone => exact forall_mem_nil _
  | last => exact forall_mem_singleton.mpr (Nat.le_refl _)
  | further found inside _ ih =>
    have less := older _ _ ⟨_, found, inside⟩
    exact forall_mem_cons.mpr ⟨Nat.le_refl _, fun visited mem =>
      Nat.le_trans (ih visited mem) (Nat.le_of_lt less)⟩

lemma nodup (walk : env.Walk id path) : path.Nodup := by
  induction walk with
  | gone => exact nodup_nil
  | last => exact nodup_singleton _
  | further found inside behind ih =>
    refine nodup_cons.mpr ⟨fun mem => ?_, ih⟩
    have less := older _ _ ⟨_, found, inside⟩
    exact Nat.not_lt.mpr (behind.ages older _ mem) less

omit older in
lemma exists_of_age (older : ∀ id parent, env.Inside id parent → age parent < age id) (id) :
    ∃ path, env.Walk id path := by
  cases found : env.frame? id with
  | none => exact ⟨[], .gone found⟩
  | some frame =>
    cases lineage : frame.parent with
    | none => exact ⟨[id], .last found lineage⟩
    | some parent =>
      have less := older id parent ⟨frame, found, lineage⟩
      obtain ⟨outer, behind⟩ := exists_of_age older parent
      exact ⟨id :: outer, .further found lineage behind⟩
termination_by age id

omit older

lemma chainWithin (walk : env.Walk id path) (enough : path.length ≤ bound) :
    env.chainWithin bound id = path.map env.locals := by
  induction walk generalizing bound with
  | gone gone => cases bound <;> simp [Environment.chainWithin, gone]
  | last found root =>
    obtain ⟨_, rfl⟩ := Nat.exists_eq_add_of_le' enough
    simp [Environment.chainWithin, found, root, locals]
  | further found inside _ ih =>
    cases bound with
    | zero => cases enough
    | succ => simp [Environment.chainWithin, found, inside, locals, ih (Nat.le_of_succ_le_succ enough)]

end Walk

/-- No frame is outside itself, so from every name, of an open frame or not, a walk outwards visits some
frames, each one once, and ends; lookups, assignments and views are such walks. -/
theorem scope_walks_end (reachable : env.Reachable) (id : FrameId) :
    (∀ frame, ¬Relation.TransGen env.Inside frame frame) ∧
    ∃ path, env.Walk id path ∧
      (∀ other, env.Walk id other → other = path) ∧
      path.Nodup ∧
      path.length ≤ env.slots.size ∧
      (∀ name, env.get? id name = path.findSome? fun holder => (env.locals holder).find? name) ∧
      (∀ name value, env.assign? id name value =
        (path.find? fun holder => ((env.locals holder).find? name).isSome).map fun holder =>
          env.define holder name value) ∧
      env.visible id =
        (path.map env.locals).foldr (fun inner outer => Dictionary.override outer inner) [] := by
  obtain ⟨age, older⟩ := reachable.exists_age
  have descends {first last : FrameId} (leads : Relation.TransGen env.Inside first last) :
      age last < age first := by
    induction leads with
    | single inside => exact older _ _ inside
    | tail _ inside ih => exact Nat.lt_trans (older _ _ inside) ih
  obtain ⟨path, walk⟩ := Walk.exists_of_age older id
  have once := walk.nodup older
  have enough := length_le_size once walk.hasFrame
  refine ⟨fun frame leads => Nat.lt_irrefl _ (descends leads), path, walk, fun _ => walk.unique, once,
    enough, walk.get? enough, fun name value => ?_, ?_⟩
  · rw [assign?, walk.nearest enough]
    clear enough once walk
    induction path with
    | nil => rfl
    | cons holder _ ih =>
      cases found : (env.locals holder).find? name <;> simp [found, ih]
  · rw [visible, walk.chainWithin enough]

/-- A slot is used again for a frame inside a younger one, and the frame that had it is no parent any
longer: both walks end, one of them at once. -/
theorem reused_slot_walks_end :
    let opened := ((Environment.empty : Environment Value).push .global).1
    let env := (((opened.push ⟨1, 0⟩).1.pop ⟨1, 0⟩).push ⟨2, 0⟩).1
    env.Walk ⟨1, 1⟩ [⟨1, 1⟩, ⟨2, 0⟩] ∧ env.Walk ⟨1, 0⟩ [] ∧
      ∀ path, env.Walk ⟨1, 1⟩ path → path.Nodup := by
  intro opened env
  have reachable : env.Reachable := (((Reachable.empty.push _).push _).pop _).push _
  refine ⟨.further rfl rfl (.further rfl rfl (.gone rfl)), .gone rfl, fun path walk => ?_⟩
  obtain ⟨-, _, -, unique, once, -⟩ := scope_walks_end reachable ⟨1, 1⟩
  exact unique path walk ▸ once

end Environment

end Stepper
