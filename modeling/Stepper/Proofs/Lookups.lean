import Stepper.Machine.Step
import Stepper.Proofs.FrameNesting
import Stepper.Proofs.SlotReuse

/-! # Lookups, assignments and views -/

namespace Stepper

open List

variable {α : Type}

/-! ### Dictionaries in order -/

namespace Dictionary

/-- The names stand in increasing order, so none stands twice. -/
def IsSorted (entries : Dictionary α) : Prop := entries.Pairwise fun first second => first.1 < second.1

variable {entries outer : Dictionary α}

lemma mem_insert (mem : entry ∈ entries.insert name value) : entry.1 = name ∨ entry ∈ entries := by
  induction entries with
  | nil => exact .inl (congrArg Prod.fst (mem_singleton.mp mem))
  | cons first rest ih =>
    unfold insert at mem
    split at mem
    · exact (mem_cons.mp mem).imp (congrArg Prod.fst) (mem_cons_of_mem _)
    · split at mem
      · exact (mem_cons.mp mem).imp (congrArg Prod.fst) id
      · obtain rfl | mem := mem_cons.mp mem
        · exact .inr mem_cons_self
        · exact (ih mem).imp_right (mem_cons_of_mem _)

lemma IsSorted.insert (sorted : entries.IsSorted) (name) (value : α) :
    IsSorted (entries.insert name value) := by
  induction entries with
  | nil => exact pairwise_singleton _ _
  | cons first rest ih =>
    obtain ⟨least, others⟩ := pairwise_cons.mp sorted
    unfold Dictionary.insert
    split
    · next same => exact pairwise_cons.mpr ⟨fun entry mem => same ▸ least entry mem, others⟩
    · next differs =>
      split
      · next lower =>
        refine pairwise_cons.mpr ⟨forall_mem_cons.mpr ⟨lower, fun entry mem => ?_⟩, sorted⟩
        exact String.lt_trans lower (least entry mem)
      · next notLower =>
        refine pairwise_cons.mpr ⟨fun entry mem => ?_, ih others⟩
        obtain named | mem := mem_insert mem
        · exact named ▸ Std.lt_of_le_of_ne (String.not_lt.mp notLower) (Ne.symm differs)
        · exact least entry mem

lemma IsSorted.find?_override {inner : Dictionary α} (sorted : inner.IsSorted) (name) :
    (override outer inner).find? name = (inner.find? name).or (outer.find? name) := by
  induction inner generalizing outer with
  | nil => rfl
  | cons first rest ih =>
    obtain ⟨key, value⟩ := first
    obtain ⟨least, others⟩ := pairwise_cons.mp sorted
    refine (ih others).trans ?_
    rw [find?_insert, find?]
    split
    · next same =>
      -- The later entries have greater names, so none of them replaces the one inserted here.
      have absent : find? name rest = none := by
        subst same
        clear ih others sorted
        induction rest with
        | nil => rfl
        | cons entry _ ih =>
          obtain ⟨greater, behind⟩ := forall_mem_cons.mp least
          have other : entry.1 ≠ key := fun same => String.lt_irrefl entry.1 (same.symm ▸ greater)
          rw [find?, if_neg other, ih behind]
      rw [absent]
      rfl
    · rfl

end Dictionary

lemma Mirrors.named {id : FrameId} (mirrors : Mirrors tenancy ledger)
    (found : tenancy.environment.frame? id = some frame) :
    ∃ frame < ledger.frames.length, tenancy.nameOf frame = id := by
  obtain ⟨frame, named, -⟩ := (mirrors.hasFrame_iff id).mp (Environment.hasFrame_of_frame? found)
  exact ⟨frame, mirrors.issued_iff.mp named⟩

namespace Environment

/-! ### Environments that occur -/

/-- The environments that come about by opening and closing frames and by binding names in them. -/
inductive Reachable : Environment α → Prop where
  | empty : Reachable .empty
  | push (reachable : Reachable env) (parent : FrameId) : Reachable (env.push parent).1
  | pop (reachable : Reachable env) (id : FrameId) : Reachable (env.pop id)
  | define (reachable : Reachable env) (id : FrameId) (name : String) (value : α) :
      Reachable (env.define id name value)
  | assign {id : FrameId} (reachable : Reachable env) (assigned : env.assign? id name value = some later) :
      Reachable later

/-- From a frame outwards, the first frame that binds the name, with the value it has there. -/
inductive Holds (env : Environment α) (name : String) : FrameId → FrameId → α → Prop where
  | here {id : FrameId} {frame : Frame α} {value : α} (found : env.frame? id = some frame)
      (bound : frame.bindings.find? name = some value) : Holds env name id id value
  | outside {id parent holder : FrameId} {frame : Frame α} {value : α}
      (found : env.frame? id = some frame) (unbound : frame.bindings.find? name = none)
      (inside : frame.parent = some parent) (behind : Holds env name parent holder value) :
      Holds env name id holder value

variable {env later : Environment α} {id holder : FrameId} {name : String} {value : α}

lemma Holds.bound (holds : env.Holds name id holder value) :
    (env.locals holder).find? name = some value := by
  induction holds with
  | here found bound => rw [locals, found, bound]
  | outside _ _ _ _ ih => exact ih

lemma define_of_assign? (assigned : env.assign? id name value = some later) :
    ∃ holder old, env.nearest id name = some (holder, old) ∧ later = env.define holder name value := by
  obtain ⟨⟨holder, old⟩, near, rfl⟩ := Option.map_eq_some_iff.mp assigned
  exact ⟨holder, old, near, rfl⟩

lemma push_gone (gone : env.frame? id = none) : env.push id = env.push .global := by
  have global : (if env.hasFrame .global = true then FrameId.global else .global) = .global := ite_self _
  simp only [push, global]
  simp only [hasFrame, gone, Option.isSome_none, Bool.false_eq_true, if_false]

lemma Reachable.mirrors (reachable : env.Reachable) :
    ∃ issued ledger, Mirrors ⟨env, issued⟩ ledger := by
  have defines {env : Environment α} (known : ∃ issued ledger, Mirrors ⟨env, issued⟩ ledger)
      (id) (name) (value : α) :
      ∃ issued ledger, Mirrors ⟨env.define id name value, issued⟩ ledger := by
    obtain ⟨_, _, mirrors⟩ := known
    cases found : env.frame? id with
    | some =>
      obtain ⟨_, inside, rfl⟩ := mirrors.named found
      exact ⟨_, _, mirrors.define inside name value⟩
    | none => exact ⟨_, _, (define_gone found name value).symm ▸ mirrors⟩
  induction reachable with
  | empty => exact ⟨_, _, Mirrors.empty⟩
  | @push env _ parent ih =>
    obtain ⟨_, _, mirrors⟩ := ih
    cases found : env.frame? parent with
    | some =>
      obtain ⟨_, inside, rfl⟩ := mirrors.named found
      exact ⟨_, _, mirrors.push inside⟩
    | none =>
      -- A frame inside one that is gone is opened inside the global one.
      rw [push_gone found, ← mirrors.global]
      exact ⟨_, _, mirrors.push mirrors.positive⟩
  | @pop env _ id ih =>
    obtain ⟨_, _, mirrors⟩ := ih
    cases found : env.frame? id with
    | some =>
      obtain ⟨_, inside, rfl⟩ := mirrors.named found
      exact ⟨_, _, mirrors.pop inside⟩
    | none => exact ⟨_, _, (pop_gone (.inr found)).symm ▸ mirrors⟩
  | define _ id name value ih => exact defines ih id name value
  | assign _ assigned ih =>
    obtain ⟨_, _, -, rfl⟩ := define_of_assign? assigned
    exact defines ih _ _ _

lemma Reachable.sorted (reachable : env.Reachable) :
    ∀ id frame, env.frame? id = some frame → frame.bindings.IsSorted := by
  have defines {env : Environment α}
      (sorted : ∀ id frame, env.frame? id = some frame → frame.bindings.IsSorted) (id)
      (name) (value : α) (other) (frame : Frame α)
      (found : (env.define id name value).frame? other = some frame) : frame.bindings.IsSorted := by
    rw [frame?_define] at found
    split at found
    · obtain ⟨old, there, rfl⟩ := Option.map_eq_some_iff.mp found
      exact (sorted id old there).insert name value
    · exact sorted other frame found
  induction reachable with
  | empty =>
    intro id frame found
    obtain rfl := mem_singleton.mp (Sound.empty.known id frame found)
    cases found
    exact Pairwise.nil
  | push reachable parent ih =>
    intro id frame found
    obtain ⟨_, _, mirrors⟩ := reachable.mirrors
    rw [mirrors.sound.frame?_push] at found
    split at found
    · cases found
      exact Pairwise.nil
    · exact ih id frame found
  | pop _ gone ih =>
    intro id frame found
    rw [frame?_pop_eq] at found
    split at found
    · cases found
    · exact ih id frame found
  | define _ id name value ih => exact defines ih id name value
  | assign _ assigned ih =>
    obtain ⟨_, _, -, rfl⟩ := define_of_assign? assigned
    exact defines ih _ _ _

/-! ### The nearest binding -/

lemma holds_of_searchWithin (found : env.searchWithin (fun frame => frame.bindings.find? name) bound id
      = some (holder, value)) : env.Holds name id holder value := by
  induction bound generalizing id with
  | zero => cases found
  | succ _ ih =>
    unfold searchWithin at found
    split at found
    · cases found
    · next there =>
      split at found
      · next bound =>
        cases found
        exact .here there bound
      · next unbound =>
        obtain ⟨_, inside, behind⟩ := Option.bind_eq_some_iff.mp found
        exact .outside there unbound inside (ih behind)

lemma Reachable.nearest_iff (reachable : env.Reachable) :
    env.nearest id name = some (holder, value) ↔ env.Holds name id holder value := by
  refine ⟨holds_of_searchWithin, fun holds => ?_⟩
  obtain ⟨issued, ledger, mirrors⟩ := reachable.mirrors
  have opened : ∃ frame, env.frame? id = some frame := by cases holds <;> exact ⟨_, ‹_›⟩
  obtain ⟨_, found⟩ := opened
  obtain ⟨frame, inside, rfl⟩ := mirrors.named found
  -- The number of slots is enough for the walk, as the ledger's frames get older on the way out.
  refine Ledger.walk_induction mirrors.ordered (motive := fun frame bound => frame <
    ledger.frames.length → env.Holds name (Tenancy.nameOf ⟨env, issued⟩ frame) holder value →
    env.searchWithin (fun frame => frame.bindings.find? name) bound (Tenancy.nameOf ⟨env, issued⟩ frame)
    = some (holder, value)) ?gone ?ends ?further frame _ (mirrors.enough _) inside holds
  case gone =>
    intro frame _ gone inside holds
    have there := mirrors.faithful frame inside
    rw [gone, Option.map_none] at there
    cases holds with
    | here found => cases there.symm.trans found
    | outside found => cases there.symm.trans found
  case ends =>
    intro frame _ line found last inside holds
    have there := mirrors.faithful frame inside
    rw [found, Option.map_some] at there
    cases holds with
    | here found bound => simp [searchWithin, found, bound]
    | outside found _ lineage =>
      cases there.symm.trans found
      rw [Tenancy.imageOf, last] at lineage
      cases lineage
  case further =>
    intro frame _ line parent found lineage older ih inside holds
    have there := mirrors.faithful frame inside
    rw [found, Option.map_some] at there
    cases holds with
    | here found bound => simp [searchWithin, found, bound]
    | outside found unbound outer behind =>
      cases there.symm.trans found
      rw [Tenancy.imageOf, lineage, Option.map_some, Option.some.injEq] at outer
      subst outer
      have rest := ih (Nat.lt_trans older inside) behind
      simp only [searchWithin, found, unbound]
      rw [Tenancy.imageOf, lineage]
      exact rest

/-! ### Assignments and views -/

lemma size_define (env : Environment α) (id) (name) (value : α) :
    (env.define id name value).slots.size = env.slots.size := by
  unfold define
  split
  · exact Array.size_setIfInBounds
  · rfl

lemma nearest_define (bound : (env.locals holder).find? name = some old) (value : α) (id) (key) :
    (env.define holder name value).nearest id key = (env.nearest id key).map fun found =>
    (found.1, if found.1 = holder ∧ key = name then value else found.2) := by
  rw [locals_find?] at bound
  obtain ⟨frame, there, present⟩ := Option.bind_eq_some_iff.mp bound
  rw [nearest, nearest, size_define]
  generalize env.slots.size = steps
  induction steps generalizing id with
  | zero => rfl
  | succ _ ih =>
    unfold searchWithin
    rw [frame?_define]
    by_cases same : id = holder
    · subst same
      rw [if_pos rfl, there, Option.map_some]
      simp only [Dictionary.find?_insert]
      by_cases named : name = key
      · subst named
        simp [present]
      · rw [if_neg named]
        cases frame.bindings.find? key with
        | some => simp [Ne.symm named]
        | none => cases frame.parent <;> simp [ih]
    · rw [if_neg same]
      cases env.frame? id with
      | none => rfl
      | some frame =>
        dsimp only
        cases frame.bindings.find? key with
        | some => simp [same]
        | none => cases frame.parent <;> simp [ih]

lemma find?_visible (sorted : ∀ id frame, env.frame? id = some frame → frame.bindings.IsSorted) (id)
    (name) : (env.visible id).find? name = env.get? id name := by
  rw [visible, get?, nearest]
  generalize env.slots.size = steps
  induction steps generalizing id with
  | zero => rfl
  | succ _ ih =>
    unfold searchWithin chainWithin
    cases found : env.frame? id with
    | none => rfl
    | some frame =>
      simp only [foldr_cons, (sorted id frame found).find?_override]
      cases frame.bindings.find? name with
      | some => rfl
      | none =>
        rw [Option.none_or]
        cases frame.parent with
        | none => rfl
        | some parent => exact ih parent

/-- A lookup finds the nearest binding, an assignment succeeds if and only if a lookup does and changes
that binding only, and the visible bindings are those that lookups find. -/
theorem lookups_assignments_views_agree {env : Environment Value} (reachable : env.Reachable)
    (id : FrameId) (name : String) (value : Value) :
    (∀ found, env.get? id name = some found ↔ ∃ holder, env.Holds name id holder found) ∧
      ((env.assign? id name value).isSome = true ↔ (env.get? id name).isSome = true) ∧
      (∀ later, env.assign? id name value = some later →
        ∃ holder old, env.Holds name id holder old ∧
          (∀ other key, (later.locals other).find? key =
            if other = holder ∧ key = name then some value else (env.locals other).find? key) ∧
          (∀ other, (later.frame? other).map Frame.parent = (env.frame? other).map Frame.parent) ∧
          later.get? id name = some value ∧
          (∀ other, (∃ was, env.Holds name other holder was) → later.get? other name = some value) ∧
          ∀ other key, (¬∃ was, key = name ∧ env.Holds name other holder was) →
            later.get? other key = env.get? other key) ∧
      (∀ (m : Machine) (e : Engine) (location : Location), m.environment = env →
        (m.acceptValue e (.assign name id location) value).environment =
          (env.assign? id name value).getD env) ∧
      ∀ found, (env.visible id).find? name = some found ↔ env.get? id name = some found := by
  refine ⟨fun found => ?_, ?_, fun later assigned => ?_, fun m e location same => ?_, fun found => ?_⟩
  · rw [get?, Option.map_eq_some_iff]
    constructor
    · rintro ⟨⟨holder, _⟩, near, rfl⟩
      exact ⟨holder, reachable.nearest_iff.mp near⟩
    · rintro ⟨holder, holds⟩
      exact ⟨_, reachable.nearest_iff.mpr holds, rfl⟩
  · rw [assign?, get?, Option.isSome_map, Option.isSome_map]
  · obtain ⟨holder, old, near, rfl⟩ := define_of_assign? assigned
    have holds := reachable.nearest_iff.mp near
    have nearest := nearest_define holds.bound value
    have rebound (other : FrameId) (was : Value) (holds : env.Holds name other holder was) :
        (env.define holder name value).get? other name = some value := by
      rw [get?, nearest, reachable.nearest_iff.mpr holds]
      simp
    refine ⟨holder, old, holds, fun other key => ?_, env.parent_define holder name value,
      rebound id old holds, fun other shares => ?_, fun other key elsewhere => ?_⟩
    · have bound := holds.bound
      rw [locals_find?, locals_find?, frame?_define]
      rw [locals_find?] at bound
      obtain ⟨frame, there, -⟩ := Option.bind_eq_some_iff.mp bound
      by_cases same : other = holder
      · subst same
        rw [if_pos rfl, there, Option.map_some, Option.bind_some, Option.bind_some,
          Dictionary.find?_insert]
        simp only [true_and, eq_comm]
      · rw [if_neg same, if_neg fun both => same both.1]
    · obtain ⟨was, holds⟩ := shares
      exact rebound other was holds
    · rw [get?, nearest, get?, Option.map_map]
      refine Option.map_congr fun found nearby => ?_
      rw [Function.comp_apply, if_neg]
      rintro ⟨rfl, rfl⟩
      exact elsewhere ⟨found.2, rfl, reachable.nearest_iff.mp nearby⟩
  · subst same
    simp only [Machine.acceptValue]
    cases m.environment.assign? id name value <;> rfl
  · rw [find?_visible reachable.sorted]

/-- Two frames bind one name, and an assignment from the inner one changes the inner binding. -/
theorem assigns_in_inner_frame :
    let outer := (Environment.empty : Environment Value).define .global "x" .null
    let env := (outer.push .global).1.define ⟨1, 0⟩ "x" .null
    ∃ later, env.assign? ⟨1, 0⟩ "x" (.bool true) = some later ∧
      later.get? ⟨1, 0⟩ "x" = some (.bool true) ∧ later.get? .global "x" = env.get? .global "x" := by
  intro outer env
  have reachable : env.Reachable := ((Reachable.empty.define _ _ _).push _).define _ _ _
  obtain ⟨-, -, changes, -, -⟩ :=
    lookups_assignments_views_agree reachable ⟨1, 0⟩ "x" (.bool true)
  obtain ⟨holder, old, holds, -, -, now, -, others⟩ := changes _ rfl
  have inner : holder = ⟨1, 0⟩ := by
    cases reachable.nearest_iff.mpr holds
    rfl
  refine ⟨_, rfl, now, others .global "x" ?_⟩
  rintro ⟨_, -, holds⟩
  have near := reachable.nearest_iff.mpr holds
  subst inner
  cases near

end Environment

end Stepper
