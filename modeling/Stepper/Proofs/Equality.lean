import Stepper.Proofs.Lookups

/-! # Equality of values -/

namespace Stepper

open List Float.Model

/-! ### Numbers -/

def unsignedZero : UnpackedFloat → UnpackedFloat
  | .zero _ => .zero .positive
  | other => other

lemma unpacked_beq_iff (a b) :
    a.beq b = true ↔ (unsignedZero a).isNaN = false ∧ unsignedZero a = unsignedZero b := by
  have ordered (m m' : Nat) (e e' : Int) :
      (some ((compare e e').then (compare m m')) == some .eq) = true ↔ e = e' ∧ m = m' := by
    rw [beq_iff_eq, Option.some_inj, Ordering.then_eq_eq, Int.compare_eq_eq, Nat.compare_eq_eq]
  have swapped (m m' : Nat) (e e' : Int) :
      (some ((compare e e').then (compare m m')).swap == some .eq) = true ↔ e = e' ∧ m = m' := by
    rw [← ordered, beq_iff_eq, beq_iff_eq, Option.some_inj, Option.some_inj, Ordering.swap_eq_eq]
  have finite {sign : UnpackedFloat.Sign} {m m' : Nat} {e e' : Int} (p : 0 < m) (p' : 0 < m') :
      e = e' ∧ m = m' ↔ false = false ∧
        UnpackedFloat.finite sign m e p = UnpackedFloat.finite sign m' e' p' := by
    constructor
    · rintro ⟨rfl, rfl⟩
      exact ⟨rfl, rfl⟩
    · rintro ⟨-, ⟨⟩⟩
      exact ⟨rfl, rfl⟩
  -- Of two finite numbers of one sign the exponents are compared, and then the mantissas.
  rcases a with (_ | _) | _ | _ | ⟨_ | _, m, e, p⟩ <;>
    rcases b with (_ | _) | _ | _ | ⟨_ | _, m', e', p'⟩ <;>
    first
    | exact ⟨fun _ => ⟨rfl, rfl⟩, fun _ => rfl⟩
    | exact (ordered m m' e e').trans (finite p p')
    | exact (swapped m m' e e').trans (finite p p')
    | constructor
  all_goals first
    | (rintro ⟨⟩; done)
    | (rintro ⟨-, ⟨⟩⟩; done)
    | rintro ⟨⟨⟩, -⟩

/-- Two numbers are equal if they are one number or both zero; what is no number equals nothing. -/
lemma number_beq_iff (x y : Float) : (x == y) = true ↔ x.isNaN = false ∧ unsignedZero x.toModel.unpack =
    unsignedZero y.toModel.unpack := by
  have kept (a) : (unsignedZero a).isNaN = a.isNaN := by cases a <;> rfl
  refine (unpacked_beq_iff _ _).trans ?_
  rw [kept]
  rfl

lemma number_beq_partial {x y : Float} (same : x == y) :
    (y == x) = true ∧ ∀ z, (y == z) = true → (x == z) = true := by
  obtain ⟨proper, equal⟩ := (unpacked_beq_iff _ _).mp same
  refine ⟨(unpacked_beq_iff _ _).mpr ⟨equal ▸ proper, equal.symm⟩, fun z next => ?_⟩
  exact (unpacked_beq_iff _ _).mpr ⟨proper, equal.trans ((unpacked_beq_iff _ _).mp next).2⟩

lemma FunctionDecl.isSame_iff (a b : FunctionDecl) :
    a.isSame b = true ↔ (a.unit, a.location) = (b.unit, b.location) := by
  simp [isSame]

lemma ClassDecl.isSame_iff (a b : ClassDecl) :
    a.isSame b = true ↔ (a.unit, a.location) = (b.unit, b.location) := by
  simp [isSame]

namespace Value

mutual

/-- Whether a value holds a number that is not equal to itself. -/
def hasNaN : Value → Bool
  | .number value => value.isNaN
  | .array items => anyNaN items
  | .object fields => fieldsNaN fields
  | _ => false

def anyNaN : List Value → Bool
  | [] => false
  | first :: rest => first.hasNaN || anyNaN rest

def fieldsNaN : List (String × Value) → Bool
  | [] => false
  | (_, first) :: rest => first.hasNaN || fieldsNaN rest

end

/-! ### Symmetry, transitivity and reflexivity -/

mutual

theorem equals_partial (a b : Value) (same : a.equals b = true) :
    b.equals a = true ∧ ∀ c, b.equals c = true → a.equals c = true := by
  cases a with
  | number x =>
    cases b with
    | number y =>
      obtain ⟨back, further⟩ := number_beq_partial (x := x) (y := y) same
      refine ⟨back, fun c next => ?_⟩
      cases c with
      | number z => exact further z next
      | _ => cases next
    | _ => cases same
  | array items =>
    cases b with
    | array others =>
      obtain ⟨back, further⟩ := equalItems_partial items others same
      refine ⟨back, fun c next => ?_⟩
      cases c with
      | array => exact further _ next
      | _ => cases next
    | _ => cases same
  | object fields =>
    cases b with
    | object others =>
      obtain ⟨back, further⟩ := equalFields_partial fields others same
      refine ⟨back, fun c next => ?_⟩
      cases c with
      | object => exact further _ next
      | _ => cases next
    | _ => cases same
  | _ =>
    cases b <;> simp only [equals, Bool.false_eq_true, Bool.and_eq_true, beq_iff_eq,
      FunctionDecl.isSame_iff, ClassDecl.isSame_iff] at same
    all_goals
      refine ⟨by simp [equals, FunctionDecl.isSame_iff, ClassDecl.isSame_iff, same], fun c next => ?_⟩
      cases c <;> simp_all [equals, FunctionDecl.isSame_iff, ClassDecl.isSame_iff]

theorem equalItems_partial (items others) (same : equalItems items others = true) : equalItems others
    items = true ∧ ∀ more, equalItems others more = true → equalItems items more = true := by
  match items, others with
  | [], [] => exact ⟨rfl, fun _ => id⟩
  | a :: as, b :: bs =>
    obtain ⟨first, rest⟩ := Bool.and_eq_true_iff.mp same
    obtain ⟨back, further⟩ := equals_partial a b first
    obtain ⟨backs, furthers⟩ := equalItems_partial as bs rest
    refine ⟨Bool.and_eq_true_iff.mpr ⟨back, backs⟩, fun more next => ?_⟩
    cases more with
    | nil => cases next
    | cons c cs =>
      obtain ⟨next, nexts⟩ := Bool.and_eq_true_iff.mp next
      exact Bool.and_eq_true_iff.mpr ⟨further c next, furthers cs nexts⟩

theorem equalFields_partial (fields others : List (String × Value))
    (same : equalFields fields others = true) : equalFields others fields = true ∧ ∀ more, equalFields
    others more = true → equalFields fields more = true := by
  match fields, others with
  | [], [] => exact ⟨rfl, fun _ => id⟩
  | (name, a) :: as, (_, b) :: bs =>
    simp only [equalFields, Bool.and_eq_true, beq_iff_eq] at same
    obtain ⟨⟨rfl, first⟩, rest⟩ := same
    obtain ⟨back, further⟩ := equals_partial a b first
    obtain ⟨backs, furthers⟩ := equalFields_partial as bs rest
    refine ⟨by simp [equalFields, back, backs], fun more next => ?_⟩
    cases more with
    | nil => cases next
    | cons c cs =>
      simp only [equalFields, Bool.and_eq_true, beq_iff_eq] at next ⊢
      exact ⟨⟨next.1.1, further c.2 next.1.2⟩, furthers cs next.2⟩

end

mutual

theorem equals_self (a : Value) : a.equals a = !a.hasNaN := by
  cases a with
  | number x =>
    have self := number_beq_iff x x
    simp only [and_true] at self
    cases proper : x.isNaN <;> simp_all [equals, hasNaN]
  | array items => exact equalItems_self items
  | object fields => exact equalFields_self fields
  | _ => simp [equals, hasNaN, FunctionDecl.isSame_iff, ClassDecl.isSame_iff]

theorem equalItems_self (items : List Value) : equalItems items items = !anyNaN items := by
  match items with
  | [] => rfl
  | first :: rest => simp [equalItems, anyNaN, first.equals_self, equalItems_self rest]

theorem equalFields_self (fields : List (String × Value)) :
    equalFields fields fields = !fieldsNaN fields := by
  match fields with
  | [] => rfl
  | (_, first) :: rest => simp [equalFields, fieldsNaN, first.equals_self, equalFields_self rest]

end

lemma type_of_equals (a b : Value) (same : a.equals b) : a.type = b.type := by
  cases a <;> cases b <;> first | rfl | cases same

/-! ### Objects by their names -/

lemma equalFields_iff_of_names {fields others : Dictionary Value} (sorted : fields.IsSorted)
    (names : fields.map Prod.fst = others.map Prod.fst) : equalFields fields others = true ↔ ∀ entry ∈
    fields, ∃ other, others.find? entry.1 = some other ∧ entry.2.equals other = true := by
  induction fields generalizing others with
  | nil =>
    obtain rfl := map_eq_nil_iff.mp names.symm
    simp [equalFields]
  | cons first rest ih =>
    obtain _ | ⟨⟨name, other⟩, others⟩ := others
    · cases names
    · simp only [map_cons, cons.injEq] at names
      obtain ⟨rfl, names⟩ := names
      obtain ⟨least, sorted⟩ := pairwise_cons.mp sorted
      have later : ∀ entry ∈ rest, Dictionary.find? entry.1 ((first.1, other) :: others) =
          Dictionary.find? entry.1 others :=
        fun entry mem => if_neg (String.ne_of_lt (least entry mem))
      rw [equalFields, Bool.and_eq_true, Bool.and_eq_true, ih sorted names, forall_mem_cons]
      refine and_congr ?_ (forall₂_congr fun entry mem => by rw [later entry mem])
      simp [Dictionary.find?]

lemma equalFields_names (same : equalFields fields others) :
    fields.map Prod.fst = others.map Prod.fst := by
  induction fields generalizing others with
  | nil =>
    obtain _ | _ := others
    · rfl
    · cases same
  | cons first rest ih =>
    obtain _ | ⟨other, others⟩ := others
    · cases same
    · simp only [equalFields, Bool.and_eq_true, beq_iff_eq] at same
      rw [map_cons, map_cons, same.1.1, ih same.2]

lemma mem_names_of_find? {entries : Dictionary α} (found : entries.find? name = some value) :
    name ∈ entries.map Prod.fst := by
  induction entries with
  | nil => cases found
  | cons first rest ih =>
    rw [Dictionary.find?] at found
    split at found
    · next named => exact named ▸ mem_cons_self
    · exact mem_cons_of_mem _ (ih found)

/-- As many names, each found among the others: the names are the same. -/
lemma names_eq_of_found {fields others : Dictionary Value} (sorted : fields.IsSorted)
    (sortedToo : others.IsSorted) (length : fields.length = others.length) (found : ∀ entry ∈ fields, ∃
      other, others.find? entry.1 = some other ∧ entry.2.equals other = true) :
    fields.map Prod.fst = others.map Prod.fst := by
  have ordered {entries : Dictionary Value} (sorted : entries.IsSorted) :
      (entries.map Prod.fst).Pairwise (· < ·) := pairwise_map.mpr sorted
  have inside : fields.map Prod.fst ⊆ others.map Prod.fst := by
    intro name named
    obtain ⟨entry, mem, rfl⟩ := mem_map.mp named
    obtain ⟨_, found, -⟩ := found entry mem
    exact mem_names_of_find? found
  have distinct : (fields.map Prod.fst).Nodup := (ordered sorted).imp fun less => String.ne_of_lt less
  have perm := (subperm_of_subset distinct inside).perm_of_length_le (by simp [length])
  exact perm.eq_of_pairwise (fun _ _ _ _ less more => (String.lt_asymm less more).elim)
    (ordered sorted) (ordered sortedToo)

lemma equalFields_iff {fields others : Dictionary Value} (sorted : fields.IsSorted)
    (sortedToo : others.IsSorted) : equalFields fields others = true ↔ fields.length = others.length ∧ ∀
    entry ∈ fields, ∃ other, others.find? entry.1 = some other ∧ entry.2.equals other = true := by
  constructor
  · intro same
    have names := equalFields_names same
    exact ⟨by simpa using congrArg length names, (equalFields_iff_of_names sorted names).mp same⟩
  · rintro ⟨length, found⟩
    have names := names_eq_of_found sorted sortedToo length found
    exact (equalFields_iff_of_names sorted names).mpr found

/-- Equality is symmetric and transitive, holds of a value and itself unless a number in it is no number,
and never between types; objects are equal if they have as many fields and each field of one is equal to
the field of that name in the other. -/
theorem equality_is_partial_equivalence (a b c : Value) :
    (a.equals b = true → b.equals a = true) ∧
    (a.equals b = true → b.equals c = true → a.equals c = true) ∧
    (a.equals a = true ↔ a.hasNaN = false) ∧
    (a.type.text ≠ b.type.text → a.equals b = false) ∧
    a.binary .eq b = .ok (.bool (a.equals b)) ∧
    a.binary .ne b = .ok (.bool (!a.equals b)) ∧
    ∀ fields others : Dictionary Value, fields.IsSorted → others.IsSorted →
      ((Value.object fields).equals (.object others) = true ↔
        fields.length = others.length ∧
        ∀ entry ∈ fields, ∃ other, others.find? entry.1 = some other ∧
          entry.2.equals other = true) := by
  refine ⟨fun same => (equals_partial a b same).1, fun same => (equals_partial a b same).2 c, ?_,
    fun differ => ?_, rfl, rfl, fun fields others => equalFields_iff⟩
  · rw [equals_self, Bool.not_eq_true']
  · exact Bool.eq_false_iff.mpr fun same => differ (congrArg ValueType.text (type_of_equals a b same))

end Value

end Stepper
