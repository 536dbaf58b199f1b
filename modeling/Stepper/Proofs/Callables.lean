import Mathlib.Tactic.Lemma
import Stepper.Value.Builtin
import Stepper.Value.Operators

/-! # What values are made of -/

namespace Stepper

open List

variable {value : Value}

structure Callables where
  function : FunctionDecl → FrameId → Prop
  classDef : ClassDecl → FrameId → Prop

inductive Value.MadeOf (sort : Callables) : Value → Prop where
  | null : MadeOf sort .null
  | bool (value : Bool) : MadeOf sort (.bool value)
  | number (value : Float) : MadeOf sort (.number value)
  | string (text : String) : MadeOf sort (.string text)
  | array (all : ∀ item ∈ items, item.MadeOf sort) : MadeOf sort (.array items)
  | object (all : ∀ field ∈ fields, field.2.MadeOf sort) : MadeOf sort (.object fields)
  | function (has : sort.function decl frame) : MadeOf sort (.function decl frame)
  | classDef (has : sort.classDef decl frame) : MadeOf sort (.classDef decl frame)

def Dictionary.MadeOf (sort : Callables) (entries : Dictionary Value) : Prop :=
  ∀ entry ∈ entries, entry.2.MadeOf sort

def GivesMadeOf (sort : Callables) : Except Fault Value → Prop
  | .ok value => value.MadeOf sort
  | .error fault => fault.endsRun = false

def Callables.any : Callables := ⟨fun _ _ => True, fun _ _ => True⟩

lemma Value.madeOf_any (value : Value) : value.MadeOf .any := by
  cases value with
  | null => exact .null
  | bool value => exact .bool value
  | number value => exact .number value
  | string text => exact .string text
  | array =>
    refine .array fun item inside => ?_
    have smaller := sizeOf_lt_of_mem inside
    exact item.madeOf_any
  | object fields =>
    refine .object fun field inside => ?_
    have smaller : 1 + sizeOf field.1 + sizeOf field.2 < sizeOf fields := sizeOf_lt_of_mem inside
    exact field.2.madeOf_any
  | function => exact .function trivial
  | classDef => exact .classDef trivial
termination_by sizeOf value
decreasing_by all_goals simp; omega

variable {sort : Callables}

lemma gives_ok (made : value.MadeOf sort) : GivesMadeOf sort (.ok value) := made

lemma gives_error (own : fault.endsRun = false) :
    GivesMadeOf sort (.error fault) := own

lemma GivesMadeOf.of_ok (gives : GivesMadeOf sort result) (same : result = .ok value) :
    value.MadeOf sort := by
  rwa [same] at gives

lemma GivesMadeOf.of_error (gives : GivesMadeOf sort result) (same : result = .error fault) :
    fault.endsRun = false := by
  rwa [same] at gives

namespace Dictionary

lemma MadeOf.insert {entries : Dictionary Value} (made : entries.MadeOf sort) (name)
    (given : value.MadeOf sort) : (entries.insert name value).MadeOf sort := by
  induction entries with
  | nil => exact forall_mem_singleton.mpr given
  | cons entry _ ih =>
    obtain ⟨_, _⟩ := entry
    obtain ⟨first, others⟩ := forall_mem_cons.mp made
    rw [Dictionary.insert]
    split
    · exact forall_mem_cons.mpr ⟨given, others⟩
    · split
      · exact forall_mem_cons.mpr ⟨given, made⟩
      · exact forall_mem_cons.mpr ⟨first, ih others⟩

lemma MadeOf.find {entries : Dictionary Value} (made : entries.MadeOf sort)
    (found : entries.find? name = some value) : value.MadeOf sort := by
  induction entries with
  | nil => cases found
  | cons entry _ ih =>
    obtain ⟨_, _⟩ := entry
    obtain ⟨here, others⟩ := forall_mem_cons.mp made
    rw [find?] at found
    split at found
    · cases found
      exact here
    · exact ih others found

end Dictionary

/-! ### Operators and built-in functions -/

namespace Value
variable {left right target position : Value}

lemma numbers_own (failed : numbers op left right = .error fault) : fault.endsRun = false := by
  unfold numbers at failed
  split at failed <;> cases failed
  rfl

lemma map_numbers_madeOf (numbers : ∀ pair, (compute pair).MadeOf sort) :
    GivesMadeOf sort ((Value.numbers op left right).map compute) := by
  cases given : Value.numbers op left right with
  | error => exact gives_error (numbers_own given)
  | ok pair => exact gives_ok (numbers pair)

lemma add_madeOf (first : left.MadeOf sort) (second : right.MadeOf sort) :
    GivesMadeOf sort (left.add right) := by
  unfold Value.add
  split
  · exact gives_ok (.string _)
  · exact gives_ok (.string _)
  · cases first with
    | array items =>
      cases second with
      | array others => exact gives_ok (.array (forall_mem_append.mpr ⟨items, others⟩))
  · exact map_numbers_madeOf fun _ => .number _

lemma divide_madeOf : GivesMadeOf sort (divide op left right compute) := by
  unfold divide
  split
  · next failed => exact gives_error (numbers_own failed)
  · split
    · exact gives_error rfl
    · exact gives_ok (.number _)

lemma compare_madeOf : GivesMadeOf sort (compare op left right) := by
  unfold compare
  split
  · exact gives_ok (.bool _)
  · split
    · next failed => exact gives_error (numbers_own failed)
    · split
      · exact gives_ok (.bool _)
      · exact gives_error rfl

lemma binary_madeOf (op) (first : left.MadeOf sort) (second : right.MadeOf sort) :
    GivesMadeOf sort (left.binary op right) := by
  cases op with
  | add => exact add_madeOf first second
  | sub | mul => exact map_numbers_madeOf fun _ => .number _
  | div | mod => exact divide_madeOf
  | eq | ne => exact gives_ok (.bool _)
  | lt | le | gt | ge => exact compare_madeOf

lemma unary_madeOf (op) (operand : Value) : GivesMadeOf sort (operand.unary op) := by
  cases op with
  | neg =>
    unfold unary
    dsimp only
    split
    · exact gives_ok (.number _)
    · exact gives_error rfl
  | not => exact gives_ok (.bool _)

lemma member_madeOf (made : target.MadeOf sort) (name) : GivesMadeOf sort (target.member name) := by
  unfold member
  split
  · next fields =>
    cases made with
    | object all =>
      split
      · next _ found =>
        have entries : Dictionary.MadeOf sort fields := all
        exact gives_ok (entries.find found)
      · exact gives_error rfl
  · exact gives_error rfl

lemma itemAt_mem {index : Value} (found : itemAt items index = .ok item) : item ∈ items := by
  unfold itemAt at found
  split at found
  · split at found
    · next present =>
      cases found
      obtain ⟨_, -, there⟩ := Option.bind_eq_some_iff.mp present
      exact mem_of_getElem? there
    · cases found
  · cases found

lemma itemAt_own (failed : itemAt items position = .error fault) : fault.endsRun = false := by
  unfold itemAt at failed
  split at failed
  · split at failed <;> cases failed
    rfl
  · cases failed
    rfl

lemma index_madeOf (made : target.MadeOf sort) : GivesMadeOf sort (target.index position) := by
  unfold index
  split
  · next items =>
    cases made with
    | array all =>
      cases found : itemAt items position with
      | error => exact gives_error (itemAt_own found)
      | ok item => exact gives_ok (all item (itemAt_mem found))
  · next text =>
    cases found : itemAt text.toList position with
    | error => exact gives_error (itemAt_own found)
    | ok => exact gives_ok (.string _)
  · split
    · exact member_madeOf made _
    · exact gives_error rfl
  · exact gives_error rfl

end Value

lemma Builtin.arityCheck_own {b : Builtin} {count : Nat} (failed : b.arityCheck count = .error fault) :
    fault.endsRun = false := by
  simp only [arityCheck] at failed
  split at failed <;> cases failed
  rfl

lemma Builtin.call_madeOf (b : Builtin) (args) : GivesMadeOf sort (b.call args) := by
  have applied : ∀ arg, GivesMadeOf sort (b.apply arg) := by
    intro _
    unfold apply
    split
    · split
      all_goals first | exact gives_ok (.number _) | exact gives_error rfl
    · exact gives_ok (.string _)
    · split
      all_goals
        split
        all_goals first | exact gives_ok (.number _) | exact gives_error rfl
    · exact gives_ok (.string _)
    · exact gives_error rfl
  unfold call
  split
  · next failed => exact gives_error (arityCheck_own failed)
  · exact applied _

/-! ### Environments -/

namespace Environment
variable {id : FrameId}

def MadeOf (sort : Callables) (env : Environment Value) : Prop :=
  ∀ slot ∈ env.slots, ∀ frame, slot.frame = some frame → frame.bindings.MadeOf sort

variable {env : Environment Value}

lemma empty_madeOf : (empty).MadeOf sort := by
  intro slot mem _ present
  obtain rfl : slot = ⟨0, some ⟨none, []⟩⟩ := by simpa [empty] using mem
  cases present
  exact forall_mem_nil _

section
variable (made : env.MadeOf sort)
include made

lemma MadeOf.frame {frame : Frame Value} (opened : env.frame? id = some frame) :
    frame.bindings.MadeOf sort := by
  unfold frame? at opened
  split at opened
  · next slot there =>
    split at opened
    · exact made slot (Array.mem_of_getElem? there) frame opened
    · cases opened
  · cases opened

lemma MadeOf.setFrame (id) (given : ∀ frame, put = some frame → frame.bindings.MadeOf sort) :
    (env.setFrame id put).MadeOf sort := by
  intro slot mem
  rcases Array.mem_or_eq_of_mem_setIfInBounds mem with old | rfl
  · exact made slot old
  · exact given

lemma MadeOf.push (parent) : (env.push parent).1.MadeOf sort := by
  unfold Environment.push
  dsimp only
  split
  · next _ others _ =>
    have same : ({ env with free := others } : Environment Value).MadeOf sort := made
    refine same.setFrame _ fun frame put => ?_
    cases put
    exact forall_mem_nil _
  · intro slot mem frame put
    rcases Array.mem_push.mp mem with old | rfl
    · exact made slot old frame put
    · cases put
      exact forall_mem_nil _

lemma MadeOf.pop (id) : (env.pop id).MadeOf sort := by
  unfold Environment.pop
  split
  · exact made
  · exact made.setFrame id nofun

lemma MadeOf.define (id) (name) (given : value.MadeOf sort) :
    (env.define id name value).MadeOf sort := by
  unfold Environment.define
  split
  · next frame opened =>
    refine made.setFrame id fun _ put => ?_
    cases put
    exact (made.frame opened).insert name given
  · exact made

lemma MadeOf.defineAll (id) {entries : List (String × Value)}
    (given : ∀ entry ∈ entries, entry.2.MadeOf sort) :
    (entries.foldl (fun env (name, value) => env.define id name value) env).MadeOf sort := by
  induction entries generalizing env with
  | nil => exact made
  | cons entry _ ih =>
    obtain ⟨first, others⟩ := forall_mem_cons.mp given
    exact ih (made.define id entry.1 first) others

end

lemma searchWithin_frame (found : env.searchWithin ask bound id = some (holder, answer)) :
    ∃ frame, env.frame? holder = some frame ∧ ask frame = some answer := by
  induction bound generalizing id with
  | zero => cases found
  | succ _ ih =>
    rw [searchWithin] at found
    split at found
    · cases found
    · next frame opened =>
      split at found
      · next asked =>
        cases found
        exact ⟨frame, opened, asked⟩
      · obtain ⟨_, -, further⟩ := Option.bind_eq_some_iff.mp found
        exact ih further

lemma MadeOf.get (made : env.MadeOf sort) (found : env.get? id name = some value) :
    value.MadeOf sort := by
  obtain ⟨⟨_, _⟩, near, rfl⟩ := Option.map_eq_some_iff.mp found
  obtain ⟨frame, opened, bound⟩ := searchWithin_frame near
  exact (made.frame opened).find bound

lemma MadeOf.assign (made : env.MadeOf sort) (given : value.MadeOf sort)
    (assigned : env.assign? id name value = some later) : later.MadeOf sort := by
  obtain ⟨⟨holder, _⟩, -, rfl⟩ := Option.map_eq_some_iff.mp assigned
  exact made.define holder name given

end Environment

end Stepper
