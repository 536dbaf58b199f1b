import Mathlib.Tactic.Lemma
import Stepper.Environment

/-! # Slots and names of frames -/

namespace Stepper

open List Dictionary

lemma countP_modify {entries : List β} (found : entries[i]? = some entry) (change : β → β) :
    (entries.modify i change).countP p + (if p entry then 1 else 0) = entries.countP p + if p
    (change entry) then 1 else 0 := by
  induction entries generalizing i with
  | nil => cases found
  | cons first _ ih =>
    cases i with
    | zero =>
      obtain rfl : first = entry := Option.some.inj found
      simp only [modify_zero_cons, countP_cons]
      omega
    | succ =>
      have further := ih found
      simp only [modify_succ_cons, countP_cons]
      omega

lemma Dictionary.find?_insert (name) (value : α) (entries : Dictionary α) (other) :
    (entries.insert name value).find? other = if name = other then some value else entries.find?
    other := by
  induction entries with
  | nil => simp [insert, find?]
  | cons entry _ ih =>
    obtain ⟨_, _⟩ := entry
    unfold insert
    split
    · next same =>
      subst same
      simp only [find?]
      split <;> rfl
    · next _ =>
      split
      · simp only [find?]
      · simp only [find?, ih]
        grind

namespace Environment
variable {env later : Environment α} {id : FrameId} {frame : Frame α} {put : Option (Frame α)}

/-! ### Filling a slot -/

lemma frame?_of_slot (there : env.slots[id.index]? = some slot) :
    env.frame? id = if slot.generation = id.generation then slot.frame else none := by
  simp only [frame?, there]

lemma slot_of_frame? (found : env.frame? id = some frame) :
    env.slots[id.index]? = some ⟨id.generation, some frame⟩ := by
  unfold frame? at found
  split at found
  · next _ there =>
    split at found
    · next same => rw [there, ← same, ← found]
    · cases found
  · cases found

lemma generation_ne (same : other.index = id.index) (differs : other ≠ id) :
    id.generation ≠ other.generation := by
  intro _
  apply differs
  cases other
  cases id
  simp_all

def Fills (env later : Environment α) (id : FrameId) (put : Option (Frame α)) : Prop :=
  ∀ i, later.slots[i]? = if i = id.index then some ⟨id.generation, put⟩ else env.slots[i]?

lemma fills_setFrame (env : Environment α) (id) (inside : id.index < env.slots.size)
    (put : Option (Frame α)) : env.Fills (env.setFrame id put) id put := by
  intro i
  simp only [setFrame, Array.getElem?_setIfInBounds, eq_comm (a := i), if_pos inside]

lemma inside_of_frame? (found : env.frame? id = some frame) : id.index < env.slots.size :=
  (Array.getElem?_eq_some_iff.mp (slot_of_frame? found)).1

def IsSole (env : Environment α) (id : FrameId) : Prop :=
  ∀ other : FrameId, other.index = id.index → other ≠ id → env.frame? other = none

lemma isSole_of_frame? (found : env.frame? id = some frame) : env.IsSole id := by
  intro _ same differs
  rw [frame?_of_slot (same ▸ slot_of_frame? found), if_neg (generation_ne same differs)]

lemma isSole_of_empty (there : env.slots[id.index]? = some slot) (empty : slot.frame = none) :
    env.IsSole id := by
  intro _ same _
  rw [frame?_of_slot (same ▸ there), empty, ite_self]

lemma isSole_of_size (outside : env.slots.size ≤ id.index) : env.IsSole id := by
  intro _ same _
  rw [frame?, Array.getElem?_eq_none (same ▸ outside)]

lemma Fills.frame? (fills : env.Fills later id put) (sole : env.IsSole id) (other) :
    later.frame? other = if other = id then put else env.frame? other := by
  have slots := fills other.index
  by_cases equal : other = id
  · rw [if_pos (congrArg FrameId.index equal)] at slots
    rw [frame?_of_slot slots, if_pos equal, if_pos (congrArg FrameId.generation equal).symm]
  · rw [if_neg equal]
    split at slots
    · next same =>
      rw [frame?_of_slot slots, if_neg (generation_ne same equal), sole other same equal]
    · rw [Environment.frame?, slots, Environment.frame?]

def IsEmpty (env : Environment α) (i : Nat) : Prop :=
  ∃ slot, env.slots[i]? = some slot ∧ slot.frame = none

lemma Fills.isEmpty (fills : env.Fills later id put) (i) :
    later.IsEmpty i ↔ if i = id.index then put = none else env.IsEmpty i := by
  rw [IsEmpty, fills i]
  split
  · simp
  · rfl

/-! ### The operations -/

lemma define_open (found : env.frame? id = some frame) (name) (value : α) : env.define id name
    value = env.setFrame id (some { frame with bindings := frame.bindings.insert name value }) := by
  simp only [define, found]

lemma define_gone (gone : env.frame? id = none) (name) (value : α) :
    env.define id name value = env := by
  simp only [define, gone]

lemma frame?_define (env : Environment α) (id) (name) (value : α) (other) :
    (env.define id name value).frame? other =
      if other = id then (env.frame? id).map fun frame =>
        { frame with bindings := frame.bindings.insert name value }
      else env.frame? other := by
  cases found : env.frame? id with
  | none =>
    rw [define_gone found]
    split
    · next equal => rw [equal, found, Option.map_none]
    · rfl
  | some frame =>
    rw [define_open found, Option.map_some]
    exact (fills_setFrame env id (inside_of_frame? found) _).frame? (isSole_of_frame? found) other

lemma pop_open (found : env.frame? id = some frame) (inner : id ≠ .global) :
    env.pop id = { env.setFrame id none with free := id.index :: env.free } := by
  simp [pop, hasFrame, found, inner]

lemma pop_gone (stays : id = .global ∨ env.frame? id = none) : env.pop id = env := by
  obtain global | gone := stays
  · simp [pop, global]
  · simp [pop, hasFrame, gone]

lemma frame?_pop_eq (env : Environment α) (gone other) :
    (env.pop gone).frame? other = if other = gone ∧ gone ≠ .global then none else env.frame? other := by
  by_cases global : gone = .global
  · rw [pop_gone (.inl global), if_neg fun closes => closes.2 global]
  cases found : env.frame? gone with
  | none =>
    rw [pop_gone (.inr found)]
    split
    · next closes => rw [closes.1, found]
    · rfl
  | some frame =>
    rw [pop_open found global]
    simp only [global, ne_eq, not_false_eq_true, and_true]
    exact (fills_setFrame env gone (inside_of_frame? found) _).frame? (isSole_of_frame? found) other

def opened (env : Environment α) (parent : FrameId) : Frame α :=
  ⟨some (if env.hasFrame parent then parent else .global), []⟩

/-! ### Empty slots and names given out -/

structure Sound (env : Environment α) (issued : List FrameId) : Prop where
  distinct : issued.Nodup
  known : ∀ id frame, env.frame? id = some frame → id ∈ issued
  past : ∀ id ∈ issued, ∃ slot, env.slots[id.index]? = some slot ∧ id.generation ≤ slot.generation
  once : env.free.Nodup
  vacant : ∀ i, i ∈ env.free ↔ env.IsEmpty i

namespace Sound
variable {issued : List FrameId}

lemma empty : (empty : Environment α).Sound [.global] where
  distinct := by simp
  known id frame found := by
    have inside : id.index < 1 := inside_of_frame? found
    have there := slot_of_frame? found
    obtain ⟨index, _⟩ := id
    obtain rfl : index = 0 := Nat.lt_one_iff.mp inside
    cases there
    exact mem_singleton_self _
  past id mem := by
    obtain rfl := mem_singleton.mp mem
    exact ⟨_, rfl, Nat.le_refl 0⟩
  once := nodup_nil
  vacant i := by
    refine ⟨nofun, fun ⟨slot, there, empty⟩ => ?_⟩
    obtain rfl : i = 0 := Nat.lt_one_iff.mp (Array.getElem?_eq_some_iff.mp there).1
    cases there
    cases empty

lemma taken (sound : env.Sound issued) (found : env.frame? id = some frame) : id.index ∉ env.free := by
  intro free
  obtain ⟨_, there, empty⟩ := (sound.vacant _).mp free
  rw [slot_of_frame? found] at there
  cases there
  cases empty

lemma past_fills (sound : env.Sound issued) (fills : env.Fills later id put)
    (newer : ∀ slot, env.slots[id.index]? = some slot → slot.generation ≤ id.generation) : ∀ other ∈
    issued, ∃ slot, later.slots[other.index]? = some slot ∧ other.generation ≤ slot.generation := by
  intro other mem
  obtain ⟨slot, there, behind⟩ := sound.past other mem
  rw [fills]
  split
  · next same => exact ⟨_, rfl, Nat.le_trans behind (newer slot (same ▸ there))⟩
  · exact ⟨slot, there, behind⟩

lemma newer_of_frame? (found : env.frame? id = some frame) :
    ∀ slot, env.slots[id.index]? = some slot → slot.generation ≤ id.generation := by
  intro _ there
  rw [slot_of_frame? found] at there
  cases there
  exact Nat.le_refl _

variable (sound : env.Sound issued)
include sound

lemma define (id) (name) (value : α) : (env.define id name value).Sound issued := by
  cases found : env.frame? id with
  | none => rwa [define_gone found]
  | some frame =>
    rw [define_open found]
    have fills := fills_setFrame env id (inside_of_frame? found)
      (some { frame with bindings := frame.bindings.insert name value })
    refine ⟨sound.distinct, ?_, sound.past_fills fills (newer_of_frame? found), sound.once, ?_⟩
    · intro other later opened
      rw [fills.frame? (isSole_of_frame? found)] at opened
      split at opened
      · next same => exact same ▸ sound.known id frame found
      · exact sound.known other later opened
    · intro i
      rw [fills.isEmpty]
      split
      · next same => exact ⟨fun free => absurd (same ▸ free) (sound.taken found), nofun⟩
      · exact sound.vacant i

lemma pop (gone) : (env.pop gone).Sound issued := by
  by_cases global : gone = .global
  · rwa [pop_gone (.inl global)]
  cases found : env.frame? gone with
  | none => rwa [pop_gone (.inr found)]
  | some frame =>
    rw [pop_open found global]
    have fills : env.Fills { env.setFrame gone none with free := gone.index :: env.free } gone none :=
      fills_setFrame env gone (inside_of_frame? found) none
    refine ⟨sound.distinct, ?_, sound.past_fills fills (newer_of_frame? found),
      nodup_cons.mpr ⟨sound.taken found, sound.once⟩, ?_⟩
    · intro other later opened
      rw [fills.frame? (isSole_of_frame? found)] at opened
      split at opened
      · cases opened
      · exact sound.known other later opened
    · intro _
      rw [fills.isEmpty, mem_cons]
      split
      · next same => simp [same]
      · next other => simp only [other, false_or, sound.vacant]

lemma push_cases (parent) :
    (∃ index rest slot, env.free = index :: rest ∧ env.slots[index]? = some slot ∧
      slot.frame = none ∧
      env.push parent =
        (({ env with free := rest }).setFrame ⟨index, slot.generation + 1⟩
          (some (env.opened parent)), ⟨index, slot.generation + 1⟩)) ∨
      (env.free = [] ∧
        env.push parent =
          ({ env with slots := env.slots.push ⟨0, some (env.opened parent)⟩ },
            ⟨env.slots.size, 0⟩)) := by
  cases free : env.free with
  | nil => exact .inr ⟨rfl, by simp only [push, free, opened]⟩
  | cons index rest =>
    obtain ⟨slot, there, empty⟩ := (sound.vacant index).mp (free ▸ mem_cons_self)
    refine .inl ⟨index, rest, slot, rfl, there, empty, ?_⟩
    simp only [push, free, there, opened]

lemma push_fills (parent) : env.Fills (env.push parent).1 (env.push parent).2 (some (env.opened parent))
    ∧ env.IsSole (env.push parent).2 := by
  obtain ⟨_, rest, _, -, there, empty, pushed⟩ | ⟨-, pushed⟩ := sound.push_cases parent
  · rw [pushed]
    have inside := (Array.getElem?_eq_some_iff.mp there).1
    exact ⟨fills_setFrame { env with free := rest } _ inside _, isSole_of_empty there empty⟩
  · rw [pushed]
    exact ⟨fun i => Array.getElem?_push, isSole_of_size (Nat.le_refl _)⟩

lemma push_newer (parent) : ∀ slot, env.slots[(env.push parent).2.index]? = some slot → slot.generation
    < (env.push parent).2.generation := by
  intro slot found
  obtain ⟨_, _, old, -, there, -, pushed⟩ | ⟨-, pushed⟩ := sound.push_cases parent
  · rw [pushed] at found ⊢
    obtain rfl : old = slot := Option.some.inj (there.symm.trans found)
    exact Nat.lt_succ_self _
  · rw [pushed] at found
    simp at found

lemma fresh (parent) : (env.push parent).2 ∉ issued := by
  intro mem
  obtain ⟨slot, there, behind⟩ := sound.past _ mem
  exact Nat.not_lt.mpr behind (sound.push_newer parent slot there)

lemma frame?_push (parent other) : (env.push parent).1.frame? other = if other = (env.push parent).2
    then some (env.opened parent) else env.frame? other :=
  (sound.push_fills parent).1.frame? (sound.push_fills parent).2 other

lemma free_push (parent) : (env.push parent).1.free.Nodup ∧ ∀ i, i ∈ (env.push parent).1.free ↔ i ∈
    env.free ∧ i ≠ (env.push parent).2.index := by
  have once := sound.once
  obtain ⟨index, _, _, free, -, -, pushed⟩ | ⟨free, pushed⟩ := sound.push_cases parent
  · rw [pushed]
    rw [free, nodup_cons] at once
    refine ⟨once.2, fun i => ?_⟩
    rw [free, mem_cons]
    constructor
    · exact fun mem => ⟨.inr mem, fun (same : i = index) => once.1 (same ▸ mem)⟩
    · rintro ⟨same | mem, other⟩
      · exact absurd same other
      · exact mem
  · rw [pushed]
    simp [free]

lemma push (parent) : (env.push parent).1.Sound (issued ++ [(env.push parent).2]) := by
  have fills := (sound.push_fills parent).1
  have free := sound.free_push parent
  refine ⟨?_, ?_, ?_, free.1, ?_⟩
  · refine nodup_append.mpr ⟨sound.distinct, by simp, fun _ mem other new same => ?_⟩
    obtain rfl := mem_singleton.mp new
    exact sound.fresh parent (same ▸ mem)
  · intro other frame found
    rw [sound.frame?_push] at found
    split at found
    · next new => exact new ▸ mem_append_right _ (mem_singleton_self _)
    · exact mem_append_left _ (sound.known other frame found)
  · refine forall_mem_append.mpr ⟨?_, forall_mem_singleton.mpr ?_⟩
    · exact sound.past_fills fills fun slot there => Nat.le_of_lt (sound.push_newer parent slot there)
    · exact ⟨_, (fills _).trans (if_pos rfl), Nat.le_refl _⟩
  · intro _
    rw [free.2, fills.isEmpty, sound.vacant]
    split
    · next same => simp [same]
    · next other => simp [other]

end Sound

/-! ### Counting open frames -/

lemma frameCount_setFrame (env : Environment α) (id) (there : env.slots[id.index]? = some slot)
    (put : Option (Frame α)) : (env.setFrame id put).frameCount + (if slot.frame.isSome then 1 else 0) =
    env.frameCount + if put.isSome then 1 else 0 := by
  have listed : env.slots.toList[id.index]? = some slot := by rwa [Array.getElem?_toList]
  have : Inhabited (Slot α) := ⟨slot⟩
  have counted := countP_modify (p := fun slot : Slot α => slot.frame.isSome) listed
    fun _ => ⟨id.generation, put⟩
  rw [modify_eq_set] at counted
  simpa only [frameCount, setFrame, ← Array.countP_toList, Array.toList_setIfInBounds] using counted

lemma frameCount_define (env : Environment α) (id) (name) (value : α) :
    (env.define id name value).frameCount = env.frameCount := by
  cases found : env.frame? id with
  | none => rw [define_gone found]
  | some frame =>
    rw [define_open found]
    simpa using frameCount_setFrame env id (slot_of_frame? found)
      (some { frame with bindings := frame.bindings.insert name value })

lemma frameCount_pop (found : env.frame? id = some frame) (inner : id ≠ .global) :
    (env.pop id).frameCount + 1 = env.frameCount := by
  rw [pop_open found inner]
  exact frameCount_setFrame env id (slot_of_frame? found) none

lemma frameCount_push (sound : env.Sound issued) (parent) :
    (env.push parent).1.frameCount = env.frameCount + 1 := by
  obtain ⟨index, rest, slot, -, there, empty, pushed⟩ | ⟨-, pushed⟩ := sound.push_cases parent
  · rw [pushed]
    have counted := frameCount_setFrame { env with free := rest } ⟨index, slot.generation + 1⟩ there
      (some (env.opened parent))
    rw [empty] at counted
    exact counted
  · rw [pushed]
    simp [frameCount]

end Environment

end Stepper
