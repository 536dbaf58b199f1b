import Mathlib.Data.List.Nodup
import Mathlib.Data.List.Perm.Subperm
import Stepper.Proofs.FrameSlots

/-! # Frames that are open one inside the other -/

namespace Stepper

open Option (isSome_iff_exists isSome_map map_eq_some_iff map_some)
open List Stepper.Frame

def FrameId.innermost (frames : List FrameId) : FrameId := frames.headD .global

namespace Environment
variable {chain now : List FrameId} {homes : FrameId → Prop}

/-! ### From a frame outwards -/

/-- The frames that a loop visits which starts with a name and goes from parent to parent, until a name
has no open frame or a frame has no parent. -/
inductive Walk (env : Environment α) : FrameId → List FrameId → Prop where
  | gone {id : FrameId} (gone : env.frame? id = none) : Walk env id []
  | last {id : FrameId} {frame : Frame α} (found : env.frame? id = some frame)
      (root : frame.parent = none) : Walk env id [id]
  | further {id parent : FrameId} {frame : Frame α} {outer : List FrameId}
      (found : env.frame? id = some frame) (inside : frame.parent = some parent)
      (behind : Walk env parent outer) : Walk env id (id :: outer)

/-- The open frames from one frame outwards to one that has no parent. -/
inductive Lineage (env : Environment α) : FrameId → List FrameId → Prop where
  | last {id : FrameId} {frame : Frame α} (found : env.frame? id = some frame)
      (root : frame.parent = none) : Lineage env id [id]
  | further {id parent : FrameId} {frame : Frame α} {outer : List FrameId}
      (found : env.frame? id = some frame) (inside : frame.parent = some parent)
      (behind : Lineage env parent outer) : Lineage env id (id :: outer)

section Lookup
variable {env : Environment α} {id : FrameId} {chain : List FrameId}

lemma hasFrame_of_frame? (found : env.frame? id = some frame) : env.hasFrame id := by
  rw [hasFrame, found, Option.isSome_some]

lemma Walk.unique (walk : env.Walk id chain) (walkToo : env.Walk id other) : other = chain := by
  induction walk generalizing other with
  | gone gone =>
    cases walkToo with
    | gone => rfl
    | last found | further found => cases gone.symm.trans found
  | last found root =>
    cases walkToo with
    | gone gone => cases gone.symm.trans found
    | last => rfl
    | further foundToo inside =>
      cases found.symm.trans foundToo
      cases root.symm.trans inside
  | further found inside _ ih =>
    cases walkToo with
    | gone gone => cases gone.symm.trans found
    | last foundToo root =>
      cases found.symm.trans foundToo
      cases root.symm.trans inside
    | further foundToo insideToo behind =>
      cases found.symm.trans foundToo
      cases inside.symm.trans insideToo
      rw [ih behind]

lemma Walk.hasFrame (walk : env.Walk id chain) : ∀ visited ∈ chain, env.hasFrame visited = true := by
  induction walk with
  | gone => exact forall_mem_nil _
  | last found => exact forall_mem_singleton.mpr (hasFrame_of_frame? found)
  | further found _ _ ih => exact forall_mem_cons.mpr ⟨hasFrame_of_frame? found, ih⟩

lemma Lineage.walk (lineage : env.Lineage id chain) : env.Walk id chain := by
  induction lineage with
  | last found root => exact .last found root
  | further found inside _ ih => exact .further found inside ih

lemma Lineage.kept {later : Environment α} (lineage : env.Lineage id chain)
    (same : ∀ holder ∈ chain, later.frame? holder = env.frame? holder) : later.Lineage id chain := by
  induction lineage with
  | last found root => exact .last ((same _ mem_cons_self).trans found) root
  | further found inside _ ih =>
    obtain ⟨here, others⟩ := forall_mem_cons.mp same
    exact .further (here.trans found) inside (ih others)

lemma Walk.searchWithin (walk : env.Walk id chain) (ask : Frame α → Option β)
    (enough : chain.length ≤ bound) : env.searchWithin ask bound id = chain.findSome? fun holder =>
    ((env.frame? holder).bind ask).map fun answer => (holder, answer) := by
  induction walk generalizing bound with
  | gone gone => cases bound <;> simp [Environment.searchWithin, gone]
  | @last _ frame found root =>
    obtain ⟨_, rfl⟩ := Nat.exists_eq_add_of_le' enough
    cases asked : ask frame <;> simp [Environment.searchWithin, found, asked, root]
  | @further _ _ frame _ found inside _ ih =>
    cases bound with
    | zero => cases enough
    | succ =>
      have rest := ih (Nat.le_of_succ_le_succ enough)
      cases asked : ask frame <;> simp [Environment.searchWithin, found, asked, inside, rest]

lemma locals_find? (env : Environment α) (id) (name) :
    (env.locals id).find? name = (env.frame? id).bind fun frame => frame.bindings.find? name := by
  rw [locals]
  cases env.frame? id <;> rfl

section
variable (walk : env.Walk id chain) (enough : chain.length ≤ env.slots.size) (name : String)
include walk enough name

lemma Walk.nearest : env.nearest id name = chain.findSome? fun holder =>
    ((env.locals holder).find? name).map fun value => (holder, value) := by
  simp only [Environment.nearest, walk.searchWithin _ enough, locals_find?]

lemma Walk.get? : env.get? id name = chain.findSome? fun holder => (env.locals holder).find? name := by
  rw [Environment.get?, walk.nearest enough, map_findSome?]
  congr 1
  funext holder
  rw [Function.comp_apply, Option.map_map]
  exact Option.map_id'

end

lemma assign?_eq_none_iff (env : Environment α) (id) (name) (value : α) :
    env.assign? id name value = none ↔ env.get? id name = none := by
  rw [assign?, get?, Option.map_eq_none_iff, Option.map_eq_none_iff]

end Lookup

/-- What is visible from a frame: the frames outwards from it are open, the last one is the global
frame, and names are looked up in them in turn. -/
structure Sees (env : Environment α) (id : FrameId) (chain : List FrameId) : Prop where
  lineage : env.Lineage id chain
  opened : ∀ holder ∈ chain, env.hasFrame holder = true
  ends : chain.getLast? = some .global
  reads : ∀ name, env.get? id name = chain.findSome? fun holder => (env.locals holder).find? name
  fails : ∀ name, env.get? id name = none ↔ ∀ holder ∈ chain, (env.locals holder).find? name = none
  refuses : ∀ name value, env.assign? id name value = none ↔
    ∀ holder ∈ chain, (env.locals holder).find? name = none
  globals : ∀ name, ((env.locals .global).find? name).isSome = true → (env.get? id name).isSome = true

/-! ### Frames in the order in which they were opened -/

def Ascends (env : Environment α) : List FrameId → Prop
  | [] => True
  | id :: older =>
    (∃ frame parent, env.frame? id = some frame ∧ frame.parent = some parent ∧
      parent ∈ older ++ [.global]) ∧ Ascends env older

structure Nests (env : Environment α) (frames : List FrameId) : Prop where
  sound : ∃ issued, env.Sound issued
  root : ∃ frame, env.frame? .global = some frame ∧ frame.parent = none
  only : ∀ id : FrameId, env.hasFrame id = true → id ∈ frames ++ [.global]
  distinct : (frames ++ [FrameId.global]).Nodup
  ascends : env.Ascends frames

variable {env later : Environment α} {frames : List FrameId} {id : FrameId}

lemma Ascends.hasFrame (ascends : env.Ascends frames) : ∀ id ∈ frames, env.hasFrame id = true := by
  induction frames with
  | nil => exact forall_mem_nil _
  | cons _ _ ih =>
    obtain ⟨⟨_, _, found, -⟩, behind⟩ := ascends
    exact forall_mem_cons.mpr ⟨hasFrame_of_frame? found, ih behind⟩

lemma Ascends.kept (ascends : env.Ascends frames)
    (same : ∀ id ∈ frames, (later.frame? id).map parent = (env.frame? id).map parent) :
    later.Ascends frames := by
  induction frames with
  | nil => trivial
  | cons _ _ ih =>
    obtain ⟨⟨_, parent, found, inside, behind⟩, others⟩ := ascends
    obtain ⟨here, sames⟩ := forall_mem_cons.mp same
    rw [found, map_some] at here
    obtain ⟨now, there, parents⟩ := map_eq_some_iff.mp here
    exact ⟨⟨now, parent, there, parents.trans inside, behind⟩, ih others sames⟩

lemma Ascends.lineage (ascends : env.Ascends frames)
    (root : ∃ frame, env.frame? .global = some frame ∧ frame.parent = none)
    (mem : id ∈ frames ++ [.global]) : ∃ chain, env.Lineage id chain ∧ chain.Sublist
    (frames ++ [.global]) ∧ chain.getLast? = some .global := by
  induction frames generalizing id with
  | nil =>
    obtain rfl := mem_singleton.mp mem
    obtain ⟨_, found, parent⟩ := root
    exact ⟨[.global], .last found parent, .refl _, rfl⟩
  | cons first _ ih =>
    obtain ⟨⟨_, _, found, inside, behind⟩, others⟩ := ascends
    obtain rfl | mem := mem_cons.mp mem
    · obtain ⟨chain, lineage, sublist, ends⟩ := ih others behind
      refine ⟨id :: chain, .further found inside lineage, sublist.cons_cons id, ?_⟩
      rw [getLast?_cons, ends, Option.getD_some]
    · obtain ⟨chain, lineage, sublist, ends⟩ := ih others mem
      exact ⟨chain, lineage, sublist.cons first, ends⟩

lemma length_le_size {ids : List FrameId} (distinct : ids.Nodup)
    (opened : ∀ id ∈ ids, env.hasFrame id = true) : ids.length ≤ env.slots.size := by
  have slots : ∀ id ∈ ids, ∃ frame, env.slots[id.index]? = some ⟨id.generation, some frame⟩ := by
    intro id mem
    obtain ⟨frame, found⟩ := isSome_iff_exists.mp (opened id mem)
    exact ⟨frame, slot_of_frame? found⟩
  have apart : (ids.map FrameId.index).Nodup := by
    refine distinct.map_on fun first inside second insideToo same => ?_
    obtain ⟨_, there⟩ := slots first inside
    obtain ⟨_, thereToo⟩ := slots second insideToo
    rw [same, thereToo] at there
    cases first
    cases second
    cases same
    cases there
    rfl
  have within : ids.map FrameId.index ⊆ range env.slots.size := by
    intro _ mem
    obtain ⟨id, inside, rfl⟩ := mem_map.mp mem
    obtain ⟨_, there⟩ := slots id inside
    exact mem_range.mpr (Array.getElem?_eq_some_iff.mp there).1
  simpa using (subperm_of_subset apart within).length_le

lemma parent_define (env : Environment α) (id) (name) (value : α) (other) :
    ((env.define id name value).frame? other).map parent = (env.frame? other).map parent := by
  rw [frame?_define]
  split
  · next same =>
    rw [same, Option.map_map]
    rfl
  · rfl

namespace Nests

lemma empty : (empty : Environment α).Nests [] where
  sound := ⟨_, .empty⟩
  root := ⟨_, rfl, rfl⟩
  only id opened := by
    obtain ⟨frame, found⟩ := isSome_iff_exists.mp opened
    exact Sound.empty.known id frame found
  distinct := nodup_singleton _
  ascends := trivial

variable (nests : env.Nests frames)
include nests

lemma hasFrame_iff (id) : env.hasFrame id = true ↔ id ∈ frames ++ [.global] := by
  refine ⟨nests.only id, fun mem => ?_⟩
  obtain inner | root := mem_append.mp mem
  · exact nests.ascends.hasFrame id inner
  · obtain rfl := mem_singleton.mp root
    obtain ⟨_, found, -⟩ := nests.root
    exact hasFrame_of_frame? found

lemma global_not_mem : .global ∉ frames := by
  have apart := nodup_append.mp nests.distinct
  exact fun mem => apart.2.2 _ mem _ (mem_singleton_self _) rfl

lemma inner_distinct : frames.Nodup := (nodup_append.mp nests.distinct).1

lemma eq_nil (outside : FrameId.innermost frames = .global) : frames = [] := by
  cases frames with
  | nil => rfl
  | cons first =>
    have first_global : first = .global := outside
    exact absurd (first_global ▸ mem_cons_self) nests.global_not_mem

lemma lineage (mem : id ∈ frames ++ [.global]) :
    ∃ chain, env.Lineage id chain ∧ chain.getLast? = some .global ∧ chain.length ≤ env.slots.size := by
  obtain ⟨chain, lineage, sublist, ends⟩ := nests.ascends.lineage nests.root mem
  exact ⟨chain, lineage, ends, length_le_size (nests.distinct.sublist sublist) lineage.walk.hasFrame⟩

lemma sees (lineage : env.Lineage id chain) : env.Sees id chain := by
  have opened : env.hasFrame id = true := by
    cases lineage with
    | last found => exact hasFrame_of_frame? found
    | further found => exact hasFrame_of_frame? found
  obtain ⟨_, lineageToo, ends, enough⟩ := nests.lineage (nests.only id opened)
  cases lineage.walk.unique lineageToo.walk
  have reads := lineage.walk.get? enough
  have fails (name) :
      env.get? id name = none ↔ ∀ holder ∈ chain, (env.locals holder).find? name = none := by
    rw [reads name, findSome?_eq_none_iff]
  refine ⟨lineage, lineage.walk.hasFrame, ends, reads, fails, fun name _ => ?_, fun name bound => ?_⟩
  · rw [assign?_eq_none_iff, fails]
  · rw [Option.isSome_iff_ne_none] at bound ⊢
    exact fun unbound => bound ((fails name).mp unbound _ (mem_of_getLast? ends))

/-! ### Turns -/

lemma define (id) (name) (value : α) : (env.define id name value).Nests frames := by
  have parents := env.parent_define id name value
  obtain ⟨issued, sound⟩ := nests.sound
  refine ⟨⟨issued, sound.define id name value⟩, ?_, fun other opened => ?_, nests.distinct,
    nests.ascends.kept fun other _ => parents other⟩
  · obtain ⟨_, found, root⟩ := nests.root
    have there := parents .global
    rw [found, map_some, root] at there
    exact map_eq_some_iff.mp there
  · refine nests.only other ?_
    have opens := congrArg Option.isSome (parents other)
    rw [isSome_map, isSome_map] at opens
    exact opens.symm.trans opened

lemma push (home) : (env.push home).1.Nests ((env.push home).2 :: frames) := by
  obtain ⟨_, sound⟩ := nests.sound
  have fresh : (env.push home).2 ∉ frames ++ [.global] := by
    intro mem
    obtain ⟨frame, found⟩ := isSome_iff_exists.mp ((nests.hasFrame_iff _).mpr mem)
    exact sound.fresh home (sound.known _ frame found)
  have old : ∀ other ∈ frames ++ [.global], (env.push home).1.frame? other = env.frame? other := by
    intro _ mem
    rw [sound.frame?_push, if_neg (ne_of_mem_of_not_mem mem fresh)]
  refine ⟨⟨_, sound.push home⟩, ?_, fun other opened => ?_, nodup_cons.mpr ⟨fresh, nests.distinct⟩,
    ⟨env.opened home, _, ?_, rfl, ?_⟩, ?_⟩
  · rw [old _ (mem_append_right _ (mem_singleton_self _))]
    exact nests.root
  · rw [hasFrame, sound.frame?_push] at opened
    split at opened
    · next new => exact new ▸ mem_cons_self
    · exact mem_cons_of_mem _ (nests.only other opened)
  · rw [sound.frame?_push, if_pos rfl]
  · split
    · next opened => exact nests.only home opened
    · exact mem_append_right _ (mem_singleton_self _)
  · refine nests.ascends.kept fun other mem => ?_
    rw [old other (mem_append_left _ mem)]

omit nests in
lemma pop (nests : env.Nests (id :: frames)) : (env.pop id).Nests frames := by
  have inner : id ≠ .global := fun same => nests.global_not_mem (same ▸ mem_cons_self)
  obtain ⟨apart, distinct⟩ := nodup_cons.mp nests.distinct
  have old : ∀ other ∈ frames ++ [.global], (env.pop id).frame? other = env.frame? other := by
    intro other mem
    have stays : ¬(other = id ∧ id ≠ .global) := fun closes => apart (closes.1 ▸ mem)
    rw [frame?_pop_eq, if_neg stays]
  obtain ⟨issued, sound⟩ := nests.sound
  refine ⟨⟨issued, sound.pop id⟩, ?_, fun other opened => ?_, distinct, ?_⟩
  · rw [old _ (mem_append_right _ (mem_singleton_self _))]
    exact nests.root
  · rw [hasFrame, frame?_pop_eq] at opened
    split at opened
    · cases opened
    · next stays =>
      obtain same | mem := mem_cons.mp (nests.only other opened)
      · exact absurd ⟨same, inner⟩ stays
      · exact mem
  · refine nests.ascends.2.kept fun other mem => ?_
    rw [old other (mem_append_left _ mem)]

end Nests

def openWith (env : Environment α) (home : FrameId) (bindings : List (String × α)) :
    Environment α × FrameId :=
  (bindings.foldl (fun inner (name, value) => inner.define (env.push home).2 name value)
    (env.push home).1, (env.push home).2)

inductive Turn (homes : FrameId → Prop) (assigning : Prop) (env : Environment α)
    (frames : List FrameId) : Environment α → List FrameId → Prop where
  | rests : Turn homes assigning env frames env frames
  | binds (name : String) (value : α) :
      Turn homes assigning env frames (env.define (.innermost frames) name value) frames
  | assigns (now : assigning) {name : String} {value : α} {later : Environment α}
      (assigned : env.assign? (.innermost frames) name value = some later) :
      Turn homes assigning env frames later frames
  | opens (known : homes home) (bindings : List (String × α)) : Turn homes assigning env frames
      (env.openWith home bindings).1 ((env.openWith home bindings).2 :: frames)
  | closes {id : FrameId} {older : List FrameId} (last : frames = id :: older) :
      Turn homes assigning env frames (env.pop id) older

lemma Nests.defineAll (nests : env.Nests frames) (id) (bindings : List (String × α)) :
    (bindings.foldl (fun inner (name, value) => inner.define id name value) env).Nests frames := by
  induction bindings generalizing env with
  | nil => exact nests
  | cons first _ ih => exact ih (nests.define id first.1 first.2)

lemma Nests.turn (nests : env.Nests frames) (turn : env.Turn homes assigning frames later now) :
    later.Nests now := by
  cases turn with
  | rests => exact nests
  | binds name value => exact nests.define _ name value
  | assigns _ assigned =>
    obtain ⟨⟨holder, _⟩, -, rfl⟩ := map_eq_some_iff.mp assigned
    exact nests.define holder _ _
  | opens _ bindings => exact (nests.push _).defineAll _ bindings
  | closes last =>
    subst last
    exact nests.pop

/-! ### What turns leave alone -/

lemma frame?_defineAll (env : Environment α) (id) (bindings : List (String × α)) : (∀ other, other ≠ id
      → (bindings.foldl (fun inner (name, value) => inner.define id name value) env).frame? other =
      env.frame? other) ∧ ((bindings.foldl (fun inner (name, value) => inner.define id name value)
      env).frame? id).map parent = (env.frame? id).map parent := by
  induction bindings generalizing env with
  | nil => exact ⟨fun _ _ => rfl, rfl⟩
  | cons first _ ih =>
    obtain ⟨others, parent⟩ := ih (env.define id first.1 first.2)
    refine ⟨fun other different => (others other different).trans ?_, parent.trans ?_⟩
    · rw [frame?_define, if_neg different]
    · rw [frame?_define, if_pos rfl, Option.map_map]
      rfl

lemma Nests.frame?_openWith (nests : env.Nests frames) (home) (bindings : List (String × α)) : (∀ other,
      env.hasFrame other = true → (env.openWith home bindings).1.frame? other = env.frame? other) ∧ ∃
    frame, (env.openWith home bindings).1.frame? (env.openWith home bindings).2 = some frame ∧
    frame.parent = some (if env.hasFrame home then home else .global) := by
  obtain ⟨_, sound⟩ := nests.sound
  obtain ⟨others, parent⟩ := frame?_defineAll (env.push home).1 (env.push home).2 bindings
  constructor
  · intro other opened
    obtain ⟨frame, found⟩ := isSome_iff_exists.mp opened
    have different : other ≠ (env.push home).2 := by
      rintro rfl
      exact sound.fresh home (sound.known _ frame found)
    rw [openWith, others other different, sound.frame?_push, if_neg different]
  · rw [sound.frame?_push, if_pos rfl, map_some] at parent
    exact map_eq_some_iff.mp parent

lemma Lineage.assign? (lineage : env.Lineage id chain) (enough : chain.length ≤ env.slots.size)
    (assigned : env.assign? id name value = some later) :
    ∃ holder ∈ chain, later = env.define holder name value := by
  obtain ⟨⟨holder, _⟩, near, rfl⟩ := map_eq_some_iff.mp assigned
  rw [lineage.walk.nearest enough] at near
  obtain ⟨_, mem, found⟩ := exists_of_findSome?_eq_some near
  obtain ⟨_, -, same⟩ := map_eq_some_iff.mp found
  cases same
  exact ⟨holder, mem, rfl⟩

lemma Turn.frame? (turn : env.Turn homes assigning frames later now) (nests : env.Nests frames)
    (lineage : env.Lineage (.innermost frames) chain) (enough : chain.length ≤ env.slots.size)
    (opened : env.hasFrame other) (hidden : other ∉ chain) :
    later.frame? other = env.frame? other := by
  have inner : other ≠ .innermost frames := by
    rintro rfl
    cases lineage <;> exact hidden mem_cons_self
  cases turn with
  | rests => rfl
  | binds => rw [frame?_define, if_neg inner]
  | assigns _ assigned =>
    obtain ⟨_, mem, rfl⟩ := lineage.assign? enough assigned
    rw [frame?_define, if_neg (ne_of_mem_of_not_mem mem hidden).symm]
  | opens _ bindings => exact (nests.frame?_openWith _ bindings).1 other opened
  | @closes gone _ last =>
    subst last
    have stays : ¬(other = gone ∧ gone ≠ .global) := fun closes => inner closes.1
    rw [frame?_pop_eq, if_neg stays]

def Shallow (env : Environment α) (frames : List FrameId) : Prop :=
  ∀ id ∈ frames, (env.frame? id).map parent = some (some .global)

lemma Shallow.lineage (shallow : env.Shallow frames) (nests : env.Nests frames) (mem : id ∈ frames) :
    env.Lineage id [id, .global] := by
  obtain ⟨_, found, inside⟩ := map_eq_some_iff.mp (shallow id mem)
  obtain ⟨_, there, outermost⟩ := nests.root
  exact .further found inside (.last there outermost)

lemma Turn.shallow (turn : env.Turn homes assigning frames later now) (nests : env.Nests frames)
    (only : ∀ home, homes home → home = .global) (shallow : env.Shallow frames) :
    later.Shallow now := by
  cases turn with
  | rests => exact shallow
  | binds =>
    intro id mem
    rw [parent_define]
    exact shallow id mem
  | assigns _ assigned =>
    obtain ⟨⟨_, _⟩, -, rfl⟩ := map_eq_some_iff.mp assigned
    intro id mem
    rw [parent_define]
    exact shallow id mem
  | @opens home known bindings =>
    obtain ⟨others, _, found, parent⟩ := nests.frame?_openWith home bindings
    refine forall_mem_cons.mpr ⟨?_, fun id mem => ?_⟩
    · rw [found, map_some, parent, only home known, ite_self]
    · rw [others id (nests.ascends.hasFrame id mem)]
      exact shallow id mem
  | @closes gone _ last =>
    subst last
    intro id mem
    have apart := (nodup_cons.mp nests.inner_distinct).1
    have stays : ¬(id = gone ∧ gone ≠ .global) := fun closes => apart (closes.1 ▸ mem)
    rw [frame?_pop_eq, if_neg stays]
    exact shallow id (mem_cons_of_mem _ mem)

end Environment

end Stepper
