import Stepper.Proofs.Passage
import Stepper.Proofs.StatementGrammar
import Stepper.Proofs.TokenOrder

/-! # Laws of reading

The laws of all readers: one leaves its counters and its place in order, tells errors as errors, and has
an answer before it comes to its bound (`Vouched`). What a statement is read from is said of replies
without errors only. -/

namespace Stepper

open List SyntaxProblem

/-! ### Order -/

/-- Whether a problem is reported behind the place where it is: a missing `END` and a statement that is
no member once the block is read, and a statement that is never reached once it is read. -/
def Diagnostic.isBelated (d : Diagnostic) : Bool :=
  [missingEnd, .notAClassMember, .unreachable].any fun problem =>
    d.message == problem.message

lemma Diagnostic.isBelated_of_message {d : Diagnostic} (problem) (same : d.message = problem.message)
    (among : problem ∈ [missingEnd, .notAClassMember, .unreachable]) : d.isBelated :=
  any_eq_true.mpr ⟨problem, among, beq_iff_eq.mpr same⟩

/-- Whether diagnostics, the newest first, are in order up to an offset, apart from belated ones. -/
def InOrder (upTo : Nat) (found : List Diagnostic) : Prop :=
  (upTo :: (found.filter fun d => !d.isBelated).map (·.location.start)).Pairwise (· ≥ ·)

section Order
variable {d : Diagnostic} {found : List Diagnostic}

variable (inOrder : InOrder upTo found)
include inOrder

lemma InOrder.later (most : upTo ≤ further) : InOrder further found := by
  obtain ⟨bounded, sorted⟩ := pairwise_cons.mp inOrder
  exact pairwise_cons.mpr ⟨fun start mem => Nat.le_trans (bounded start mem) most, sorted⟩

lemma InOrder.belated (late : d.isBelated) : InOrder upTo (d :: found) := by
  simpa [InOrder, late] using inOrder

lemma InOrder.cons (low : upTo ≤ d.location.start) (high : d.location.start ≤ further) :
    InOrder further (d :: found) := by
  cases late : d.isBelated with
  | true => exact (inOrder.later (Nat.le_trans low high)).belated late
  | false =>
    have sorted : InOrder d.location.start found := inOrder.later low
    have kept : (d :: found).filter (fun d => !d.isBelated) =
        d :: found.filter fun d => !d.isBelated := by simp [late]
    rw [InOrder, kept]
    refine pairwise_cons.mpr ⟨fun start mem => ?_, sorted⟩
    obtain rfl | mem := mem_cons.mp mem
    · exact high
    · exact Nat.le_trans ((pairwise_cons.mp sorted).1 start mem) high

end Order

structure Spot where
  scope : Scope
  room : Nat
  last : Location

def Spot.after (spot : Spot) (ts : List Token) : Spot :=
  { spot with last := Reading.lastOf spot.last ts }

@[simp] lemma Spot.after_last (spot : Spot) (ts) :
    (spot.after ts).last = Reading.lastOf spot.last ts := rfl

namespace Reading
variable {s t : Reading} {ts : List Token} {error : Diagnostic}

def here (s : Reading) : Nat := s.peek.location.start

def Ordered (s : Reading) : Prop :=
  (s.rest ++ [s.ending]).Pairwise (·.location.start ≤ ·.location.start) ∧
    InOrder s.here s.errors ∧ InOrder s.here s.warnings

lemma Passes.same (passes : s.Passes ts t) :
    t.ending = s.ending ∧ t.errors = s.errors ∧ t.warnings = s.warnings := by
  rw [passes.state]
  exact ⟨rfl, rfl, rfl⟩

lemma peek_cons (s : Reading) : ∃ more, s.rest ++ [s.ending] = s.peek :: more := by
  obtain ⟨rest, ending⟩ := s
  cases rest with
  | nil => exact ⟨[], rfl⟩
  | cons _ rest => exact ⟨rest ++ [ending], rfl⟩

lemma Passes.peek_mem (passes : s.Passes ts t) : s.peek ∈ ts ++ [t.peek] := by
  cases ts with
  | nil => exact mem_singleton.mpr (by rw [passes.state, peek, passes.tokens]; rfl)
  | cons => exact mem_cons.mpr (.inl (by rw [peek, passes.tokens]; rfl))

lemma Passes.between (passes : s.Passes ts t)
    (sorted : (s.rest ++ [s.ending]).Pairwise (·.location.start ≤ ·.location.start))
    (found : token ∈ ts ++ [t.peek]) :
    s.here ≤ token.location.start ∧ token.location.start ≤ t.here := by
  obtain ⟨more, next⟩ := t.peek_cons
  have whole : s.rest ++ [s.ending] = ts ++ [t.peek] ++ more := by
    rw [passes.tokens, ← passes.same.1, append_assoc, next, append_assoc]
    rfl
  rw [whole] at sorted
  obtain ⟨-, -, across⟩ := pairwise_append.mp (pairwise_append.mp sorted).1
  constructor
  · obtain ⟨others, first⟩ := s.peek_cons
    rw [← whole, first] at sorted
    have within : token ∈ s.peek :: others := first ▸ whole ▸ mem_append_left more found
    obtain rfl | behind := mem_cons.mp within
    · exact Nat.le_refl _
    · exact (pairwise_cons.mp sorted).1 token behind
  · obtain before | now := mem_append.mp found
    · exact across token before t.peek (mem_singleton_self _)
    · exact mem_singleton.mp now ▸ Nat.le_refl _

lemma Passes.ordered (passes : s.Passes ts t) (ordered : s.Ordered) : t.Ordered := by
  obtain ⟨ending, errors, warnings⟩ := passes.same
  obtain ⟨sorted, before⟩ := ordered
  have further : s.here ≤ t.here :=
    (passes.between sorted (mem_append_right ts (mem_singleton_self t.peek))).1
  rw [passes.tokens, append_assoc] at sorted
  refine ⟨ending ▸ (pairwise_append.mp sorted).2.1, ?_⟩
  rw [errors, warnings]
  exact ⟨before.1.later further, before.2.later further⟩

lemma passes_skip (test) (s : Reading) : ∃ ts, s.Passes ts (s.skipWhile test) := by
  have dropped (last) (rest) : ∃ ts, rest = ts ++ (dropTokens test last rest).2 ∧
      (dropTokens test last rest).1 = lastOf last ts := by
    induction rest generalizing last with
    | nil => exact ⟨[], rfl, rfl⟩
    | cons token _ ih =>
      unfold dropTokens
      split
      · obtain ⟨ts, tokens, place⟩ := ih token.location
        exact ⟨token :: ts, congrArg (token :: ·) tokens, place⟩
      · exact ⟨[], rfl, rfl⟩
  obtain ⟨ts, tokens, place⟩ := dropped s.last s.rest
  exact ⟨ts, tokens, by rw [← place]; rfl⟩

lemma ahead (s : Reading) (ends : s.Ends) (more : s.peek.kind ≠ .endOfFile) : s.rest ≠ [] := by
  intro none
  refine more ?_
  rw [peek, none]
  exact ends

lemma advance_length (s : Reading) (more : s.rest ≠ []) :
    s.advance.rest.length + 1 = s.rest.length := by
  obtain ⟨_, _, split⟩ := exists_cons_of_ne_nil more
  simp [advance, split]

lemma passes_step (s : Reading) : ∃ ts, s.Passes ts s.advance := by
  obtain ⟨rest, _⟩ := s
  cases rest with
  | nil => exact ⟨[], .refl _⟩
  | cons token => exact ⟨[token], rfl, rfl⟩

/-! ### What every parser keeps -/

def scope (s : Reading) : Scope := ⟨decide (0 < s.loops), decide (0 < s.functions)⟩

def spot (s : Reading) : Spot := ⟨s.scope, nestingLimit - s.statements, s.last⟩

def IsClean (s : Reading) : Prop := s.errors = [] ∧ s.depthReported = false

def passed (s t : Reading) : List Token := s.rest.take (s.rest.length - t.rest.length)

lemma passed_append_rest (rest : t.rest <:+ s.rest) : s.passed t ++ t.rest = s.rest := by
  obtain ⟨_, split⟩ := rest
  simp [passed, ← split]

lemma passed_append (first : t.rest <:+ s.rest) (second : u.rest <:+ t.rest) :
    s.passed u = s.passed t ++ t.passed u := by
  refine @append_cancel_right _ _ u.rest _ ?_
  rw [passed_append_rest (second.trans first), append_assoc, passed_append_rest second,
    passed_append_rest first]

lemma passed_self (s : Reading) : s.passed s = [] := by simp [passed]

lemma Passes.passed (passes : s.Passes ts t) : s.passed t = ts := by
  simp [Reading.passed, passes.tokens]

lemma passed_advance (s : Reading) (more : s.rest ≠ []) : s.passed s.advance = [s.peek] := by
  obtain ⟨_, _, split⟩ := exists_cons_of_ne_nil more
  simp [passed, advance, peek, split]

structure Onward (s t : Reading) : Prop where
  loops : t.loops = s.loops
  functions : t.functions = s.functions
  expressions : t.expressions = s.expressions
  statements : t.statements = s.statements
  ending : t.ending = s.ending
  kept : ∀ error ∈ s.errors, error ∈ t.errors
  clean : t.IsClean → s.IsClean
  honest : (s.errors = [] → s.depthReported = false) → t.errors = [] → t.depthReported = false
  errors : (∀ error ∈ s.errors, error.isError = true) → ∀ error ∈ t.errors, error.isError = true
  warnings : (∀ d ∈ s.warnings, d.isError = false) → ∀ d ∈ t.warnings, d.isError = false
  rest : t.rest <:+ s.rest
  last : t.last = lastOf s.last (s.passed t)
  ordered : s.Ordered → t.Ordered

lemma report_not_clean (error) (s : Reading) : ¬ (s.report error).IsClean := by
  rintro ⟨none, -⟩
  cases none

lemma Passes.onward (passes : s.Passes ts t) : s.Onward t := by
  have rest : t.rest <:+ s.rest := ⟨ts, passes.tokens.symm⟩
  have last : t.last = lastOf s.last (s.passed t) := by rw [passes.passed, passes.state]
  have ordered := passes.ordered
  rw [passes.state] at rest last ordered ⊢
  exact ⟨rfl, rfl, rfl, rfl, rfl, fun _ => id, id, id, id, id, rest, last, ordered⟩

lemma Passes.reported (passes : s.Passes ts t) (wrong : error.isError = true)
    (found : token ∈ ts ++ [t.peek]) (place : error.location = token.location) :
    s.Onward (t.report error) := by
  have onward := passes.onward
  refine ⟨onward.loops, onward.functions, onward.expressions, onward.statements, onward.ending, fun
    other mem => mem_cons_of_mem _ (onward.kept other mem), fun clean => absurd clean
    (report_not_clean _ t), nofun, fun others => forall_mem_cons.mpr ⟨wrong, onward.errors others⟩,
    onward.warnings, onward.rest, onward.last, fun before => ?_⟩
  obtain ⟨low, high⟩ := passes.between before.1 found
  rw [← place] at low high
  obtain ⟨tokens, -, warnings⟩ := onward.ordered before
  exact ⟨tokens, InOrder.cons (passes.same.2.1 ▸ before.2.1) low high, warnings⟩

lemma Passes.warned (passes : s.Passes ts t) (fine : error.isError = false)
    (found : token ∈ ts ++ [t.peek]) (place : error.location = token.location) :
    s.Onward (t.warn error) := by
  have onward := passes.onward
  refine ⟨onward.loops, onward.functions, onward.expressions, onward.statements, onward.ending,
    onward.kept, onward.clean, onward.honest, onward.errors, fun others => forall_mem_cons.mpr ⟨fine,
    onward.warnings others⟩, onward.rest, onward.last, fun before => ?_⟩
  obtain ⟨low, high⟩ := passes.between before.1 found
  rw [← place] at low high
  obtain ⟨tokens, errors, -⟩ := onward.ordered before
  exact ⟨tokens, errors, InOrder.cons (passes.same.2.2 ▸ before.2.2) low high⟩

namespace Onward

lemma refl (s : Reading) : s.Onward s := (Passes.refl s).onward

lemma trans (first : s.Onward t) (second : t.Onward u) : s.Onward u where
  loops := second.loops.trans first.loops
  functions := second.functions.trans first.functions
  expressions := second.expressions.trans first.expressions
  statements := second.statements.trans first.statements
  ending := second.ending.trans first.ending
  kept error found := second.kept error (first.kept error found)
  clean := first.clean ∘ second.clean
  honest := second.honest ∘ first.honest
  errors := second.errors ∘ first.errors
  warnings := second.warnings ∘ first.warnings
  rest := second.rest.trans first.rest
  last := by
    rw [passed_append first.rest second.rest, lastOf_append, ← first.last]
    exact second.last
  ordered := second.ordered ∘ first.ordered

lemma scope (onward : s.Onward t) : t.scope = s.scope := by
  rw [Reading.scope, onward.loops, onward.functions, Reading.scope]

lemma spot (onward : s.Onward t) : t.spot = s.spot.after (s.passed t) := by
  rw [Reading.spot, onward.scope, onward.statements, onward.last]
  rfl

lemma ends (onward : s.Onward t) (ends : s.Ends) : t.Ends :=
  (congrArg Token.kind onward.ending).trans ends

lemma advance (s : Reading) : s.Onward s.advance := s.passes_step.elim fun _ passes => passes.onward

lemma skipWhile (test) (s : Reading) : s.Onward (s.skipWhile test) :=
  (passes_skip test s).elim fun _ passes => passes.onward

lemma report (wrong : error.isError) (late : error.isBelated) (s : Reading) :
    s.Onward (s.report error) :=
  ⟨rfl, rfl, rfl, rfl, rfl, fun _ => mem_cons_of_mem _,
    fun clean => absurd clean (report_not_clean _ s), nofun,
    fun others => forall_mem_cons.mpr ⟨wrong, others⟩, id, suffix_rfl, (refl s).last,
    fun before => ⟨before.1, before.2.1.belated late, before.2.2⟩⟩

lemma warn (fine : error.isError = false) (late : error.isBelated) (s : Reading) :
    s.Onward (s.warn error) :=
  ⟨rfl, rfl, rfl, rfl, rfl, fun _ => id, id, id, id,
    fun others => forall_mem_cons.mpr ⟨fine, others⟩, suffix_rfl, (refl s).last,
    fun before => ⟨before.1, before.2.1, before.2.2.belated late⟩⟩

lemma tooDeep (wrong : error.isError) (s : Reading) (place : error.location = s.peek.location) :
    s.Onward { s.report error with depthReported := true } :=
  have reported : s.Onward (s.report error) :=
    (Passes.refl s).reported wrong (mem_singleton_self _) place
  ⟨rfl, rfl, rfl, rfl, rfl, reported.kept, nofun, nofun, reported.errors, id, suffix_rfl,
    reported.last, reported.ordered⟩

lemma statement (inner : Onward { s with statements := s.statements + 1 } t) :
    s.Onward { t with statements := t.statements - 1 } :=
  ⟨inner.loops, inner.functions, inner.expressions, by simp [inner.statements], inner.ending,
    inner.kept, inner.clean, inner.honest, inner.errors, inner.warnings, inner.rest, inner.last,
    inner.ordered⟩

lemma loop (inner : Onward { s with loops := s.loops + 1 } t) :
    s.Onward { t with loops := t.loops - 1 } :=
  ⟨by simp [inner.loops], inner.functions, inner.expressions, inner.statements, inner.ending,
    inner.kept, inner.clean, inner.honest, inner.errors, inner.warnings, inner.rest, inner.last,
    inner.ordered⟩

lemma function (inner : Onward { s with loops := 0, functions := s.functions + 1 } t) :
    s.Onward { t with loops := s.loops, functions := t.functions - 1 } :=
  ⟨rfl, by simp [inner.functions], inner.expressions, inner.statements, inner.ending, inner.kept,
    inner.clean, inner.honest, inner.errors, inner.warnings, inner.rest, inner.last,
    inner.ordered⟩

end Onward

end Reading

namespace Parser
variable {c n d : Nat} {s t : Reading} {spot : Spot} {p q : Parser α} {post : List Token → β → Prop}

/-! ### Vouching -/

def Answers (s : Reading) (d : Nat) (post : List Token → α → Prop) : Reply α → Prop
  | .ok value t => s.Onward t ∧ t.rest.length + d ≤ s.rest.length ∧
      (s.statements ≤ nestingLimit → t.IsClean → post (s.passed t) value)
  | .fail error t => s.Onward t ∧ s.Onward (t.report error)
  | .spent t => s.Onward t

structure Vouched (s : Reading) (c n d : Nat) (post : List Token → α → Prop) (p q : Parser α)
    (t : Reading) : Prop where
  answers : Answers s d post (p t)
  settled : 32 * s.rest.length + c ≤ n → q t = p t ∧ (p t).isSpent = false

def Vouches (spot : Spot) (c n d : Nat) (p q : Parser α) (post : List Token → α → Prop) : Prop :=
  ∀ s : Reading, s.Ends → s.spot = spot → Vouched s c n d post p q s

def VouchesAhead (spot : Spot) (c n d : Nat) (p q : Parser α) (post : List Token → α → Prop) : Prop :=
  ∀ s : Reading, s.Ends → s.spot = spot → s.rest ≠ [] → Vouched s c n d post p q s

abbrev Proceeds (c n d : Nat) (p q : Parser α) : Prop :=
  ∀ {spot}, Vouches spot c n d p q fun _ _ => True

lemma Answers.mono (answers : Answers s d₁ sharper reply)
    (weaken : ∀ ts value, sharper ts value → post ts value) (enough : d ≤ d₁) :
    Answers s d post reply := by
  cases reply with
  | ok value =>
    obtain ⟨onward, _, holds⟩ := answers
    exact ⟨onward, by omega, fun room clean => weaken _ value (holds room clean)⟩
  | fail | spent => exact answers

lemma Vouches.mono {post : List Token → α → Prop} (vouches : Vouches spot c₁ n d₁ p q mid)
    (fits : c₁ ≤ c ∧ d ≤ d₁) (weaken : ∀ ts value, mid ts value → post ts value) :
    Vouches spot c n d p q post :=
  fun s ends here => ⟨(vouches s ends here).answers.mono weaken fits.2,
    fun _ => (vouches s ends here).settled (by omega)⟩

lemma Vouches.last (vouches : Vouches spot c₁ n d₁ p q mid) (fits : c₁ ≤ c ∧ d ≤ d₁) :
    Vouches spot c n d p q mid :=
  vouches.mono fits fun _ _ => id

lemma Vouches.succ (vouches : Vouches spot c n d p q mid) : Vouches spot (c + 1) (n + 1) d p q mid :=
  fun s ends here => ⟨(vouches s ends here).answers,
    fun _ => (vouches s ends here).settled (by omega)⟩

lemma VouchesAhead.succ (vouches : VouchesAhead spot c n d p q mid) :
    VouchesAhead spot (c + 1) (n + 1) d p q mid :=
  fun s ends here ahead => ⟨(vouches s ends here ahead).answers,
    fun _ => (vouches s ends here ahead).settled (by omega)⟩

lemma VouchesAhead.here (vouches : VouchesAhead s.spot c₁ n d p q mid) (ends : s.Ends)
    (ahead : s.rest ≠ []) (fits : c₁ ≤ c) : Vouched s c n d mid p q s :=
  ⟨(vouches s ends rfl ahead).answers, fun _ => (vouches s ends rfl ahead).settled (by omega)⟩

lemma Vouched.after (later : Vouched t (c + 32 * e) n (d - e) (fun us value => known →
      mid (s.passed t ++ us) value) p q t) (onward : s.Onward t)
    (moved : t.rest.length + e ≤ s.rest.length)
    (knows : s.statements ≤ nestingLimit → t.IsClean → known) : Vouched s c n d mid p q t := by
  refine ⟨?_, fun room => later.settled (by omega)⟩
  have answers := later.answers
  cases reply : p t with
  | ok =>
    rw [reply] at answers
    obtain ⟨further, _, holds⟩ := answers
    refine ⟨onward.trans further, by omega, fun room clean => ?_⟩
    rw [Reading.passed_append onward.rest further.rest]
    exact holds (onward.statements ▸ room) clean (knows room (further.clean clean))
  | fail =>
    rw [reply] at answers
    exact ⟨onward.trans answers.1, onward.trans answers.2⟩
  | spent =>
    rw [reply] at answers
    exact onward.trans answers

lemma Vouched.bind (first : Vouched s c₁ n d₁ mid p q s) (fits : c₁ ≤ c) (ends : s.Ends) (next : ∀ value
      ts, Vouches (s.spot.after ts) (c + 32 * d₁) n (d - d₁) (f value) (g value) fun us result => mid ts
      value → post (ts ++ us) result) : Vouched s c n d post (p >>= f) (q >>= g) s := by
  obtain ⟨answers, settled⟩ := first
  cases reply : p s with
  | ok value t =>
    rw [reply] at answers
    obtain ⟨onward, moved, holds⟩ := answers
    have after : Vouched s c n d post (f value) (g value) t :=
      (next value (s.passed t) t (onward.ends ends) onward.spot).after onward moved holds
    refine ⟨bind_of_ok (f := f) reply ▸ after.answers, fun room => ?_⟩
    rw [bind_of_ok reply, bind_of_ok ((settled (by omega)).1.trans reply)]
    exact after.settled room
  | fail =>
    rw [reply] at answers
    refine ⟨bind_of_fail (f := f) reply ▸ answers, fun room => ?_⟩
    rw [bind_of_fail reply, bind_of_fail ((settled (by omega)).1.trans reply)]
    exact ⟨rfl, rfl⟩
  | spent =>
    rw [reply] at answers settled
    exact ⟨bind_of_spent (f := f) reply ▸ answers, fun room => by cases (settled (by omega)).2⟩

lemma Vouches.bind (first : Vouches spot c₁ n d₁ p q mid) (fits : c₁ ≤ c) (next : ∀ value ts, Vouches
      (spot.after ts) (c + 32 * d₁) n (d - d₁) (f value) (g value) fun us result => mid ts value → post
      (ts ++ us) result) : Vouches spot c n d (p >>= f) (q >>= g) post :=
  fun s ends here => (first s ends here).bind fits ends (here ▸ next)

lemma vouches_past (proceeds : Proceeds c n d₁ p q) (next : ∀ value ts, Vouches (spot.after ts) (c + 32
      * d₁) n (d - d₁) (f value) (g value) fun us => post (ts ++ us)) :
    Vouches spot c n d (p >>= f) (q >>= g) post :=
  proceeds.bind (Nat.le_refl c) fun value ts => (next value ts).mono (by omega) fun _ _ fits _ => fits

lemma proceeds_past (first : Proceeds c n d₁ p q)
    (next : ∀ value, Proceeds (c + 32 * d₁) n (d - d₁) (f value) (g value)) :
    Proceeds c n d (p >>= f) (q >>= g) :=
  vouches_past first fun value _ => next value

lemma vouches_pure (fits : mid [] value) : Vouches spot c n 0 (pure value) (pure value) mid :=
  fun s _ _ => ⟨⟨.refl s, Nat.le_refl _, fun _ _ => s.passed_self.symm ▸ fits⟩, fun _ => ⟨rfl, rfl⟩⟩

lemma proceeds_pure (value : α) : Proceeds c n 0 (pure value) (pure value) := vouches_pure trivial

lemma blames_next (wrong : error.isError) (place : error.location = s.peek.location) :
    s.Onward (s.report error) :=
  (Reading.Passes.refl s).reported wrong (mem_singleton_self _) place

lemma vouches_failNext :
    Vouched s c n d mid (failAt problem s.peek.location) (failAt problem s.peek.location) s :=
  ⟨⟨.refl s, blames_next rfl rfl⟩, fun _ => ⟨rfl, rfl⟩⟩

lemma vouches_exhausted : Vouches spot (c + 1) 0 d exhausted q mid :=
  fun s _ _ => ⟨.refl s, fun room => absurd room (Nat.not_succ_le_zero _)⟩

lemma Vouched.attempt (first : Vouched s c₁ n d₁ mid p q s)
    (fits : c₁ ≤ c) (ends : s.Ends) (good : ∀ value ts, Vouches (s.spot.after ts) (c + 32 * d₁) n (d -
      d₁) (f (.ok value)) (g (.ok value)) fun us result => mid ts value → post (ts ++ us) result) (bad :
      ∀ error t, s.Onward (t.report error) → Vouched s c n d post (f (.error error)) (g (.error error))
      t) : Vouched s c n d post (attempt p >>= f) (attempt q >>= g) s := by
  obtain ⟨answers, settled⟩ := first
  cases reply : p s with
  | ok value t =>
    have run : Parser.attempt p s = .ok (.ok value) t := by rw [Parser.attempt, reply]
    rw [reply] at answers
    obtain ⟨onward, moved, holds⟩ := answers
    have later : Vouched s c n d post (f (.ok value)) (g (.ok value)) t :=
      (good value (s.passed t) t (onward.ends ends) onward.spot).after onward moved holds
    refine ⟨bind_of_ok (f := f) run ▸ later.answers, fun room => ?_⟩
    have same : Parser.attempt q s = .ok (.ok value) t := by
      rw [Parser.attempt, (settled (by omega)).1, reply]
    rw [bind_of_ok run, bind_of_ok same]
    exact later.settled room
  | fail error t =>
    have run : Parser.attempt p s = .ok (.error error) t := by rw [Parser.attempt, reply]
    rw [reply] at answers
    have later := bad error t answers.2
    refine ⟨bind_of_ok (f := f) run ▸ later.answers, fun room => ?_⟩
    have same : Parser.attempt q s = .ok (.error error) t := by
      rw [Parser.attempt, (settled (by omega)).1, reply]
    rw [bind_of_ok run, bind_of_ok same]
    exact later.settled room
  | spent t =>
    have run : Parser.attempt p s = .spent t := by rw [Parser.attempt, reply]
    rw [reply] at answers settled
    exact ⟨bind_of_spent (f := f) run ▸ answers, fun room => by cases (settled (by omega)).2⟩

lemma vouched_reported {error : Diagnostic} {f g : Unit → Parser β} (onward : s.Onward (t.report error))
    (ends : s.Ends) (rest : ∀ u, Proceeds c n 0 (f u) (g u)) : Vouched s c n 0 post
    (update (Reading.report error) >>= f) (update (Reading.report error) >>= g) t := by
  have later : Vouched s c n 0 post (f ()) (g ()) (t.report error) :=
    Vouched.after (e := 0)
      (((rest ()).mono (by omega) fun _ _ _ (absurd : False) => absurd.elim) _ (onward.ends ends) rfl) onward
      onward.rest.length_le fun _ => Reading.report_not_clean error t
  exact ⟨later.answers, later.settled⟩

/-! ### The moves -/

lemma proceeds_ask (ask : Reading → α) :
    Proceeds c n 0 (fun s => .ok (ask s) s : Parser α) (fun s => .ok (ask s) s) :=
  fun s _ _ => ⟨⟨.refl s, Nat.le_refl _, fun _ _ => trivial⟩, fun _ => ⟨rfl, rfl⟩⟩

lemma vouches_ask {ask : Reading → α} (next : ∀ value, Vouches spot c n d (f value) (g value) post) :
    Vouches spot c n d ((fun s => .ok (ask s) s : Parser α) >>= f)
    ((fun s => .ok (ask s) s : Parser α) >>= g) post :=
  fun s ends here => ⟨(next _ s ends here).answers, (next _ s ends here).settled⟩

lemma vouches_look (next : ∀ s, s.Ends → s.spot = spot → Vouched s c n d post (f s.peek) (g s.peek) s) :
    Vouches spot c n d (look >>= f) (look >>= g) post :=
  fun s ends here => ⟨(next s ends here).answers, (next s ends here).settled⟩

lemma vouches_last (next : Vouches spot c n d (f spot.last) (g spot.last) post) :
    Vouches spot c n d (lastLocation >>= f) (lastLocation >>= g) post := by
  rintro s ends rfl
  exact ⟨(next s ends rfl).answers, (next s ends rfl).settled⟩

lemma vouches_span (next : Vouches spot c n d (f (start.upTo spot.last)) (g
      (start.upTo spot.last)) post) :
    Vouches spot c n d (spanSince start >>= f) (spanSince start >>= g) post :=
  vouches_last (f := fun last => f (start.upTo last)) (g := fun last => g (start.upTo last)) next

lemma proceeds_update (onward : ∀ s : Reading, s.Onward (change s)) :
    Proceeds c n 0 (update change) (update change) :=
  fun s _ _ => ⟨⟨onward s, (onward s).rest.length_le, fun _ _ => trivial⟩, fun _ => ⟨rfl, rfl⟩⟩

lemma proceeds_next : Proceeds c n 0 next next :=
  fun s _ _ => ⟨⟨.advance s, (Reading.Onward.advance s).rest.length_le, fun _ _ => trivial⟩,
    fun _ => ⟨rfl, rfl⟩⟩

lemma proceeds_skipBreaks : Proceeds c n 0 skipBreaks skipBreaks := proceeds_update (.skipWhile _)

lemma proceeds_accept (test : TokenKind → Bool) : Proceeds c n 0 (accept test) (accept test) := by
  intro _ s ends here
  refine ⟨?_, fun _ => ⟨rfl, by unfold accept; split <;> rfl⟩⟩
  unfold accept
  split
  · exact (proceeds_next (c := c) (n := n) s ends here).answers
  · exact ((proceeds_pure false : Proceeds c n 0 _ _) s ends here).answers

lemma proceeds_skipToStatement : Proceeds c n 0 skipToStatement skipToStatement :=
  proceeds_past (proceeds_update (.skipWhile _)) fun _ =>
    proceeds_past (proceeds_accept _) fun _ => proceeds_pure ()

lemma Steady.vouched (reads : Steady room [] c n d p q mid s) (ends : s.Ends)
    (free : nestingLimit - s.expressions = room) : Vouched s c n d mid p q s := by
  obtain ⟨walks, settled, -⟩ := reads ends.stops free
  refine ⟨?_, settled⟩
  cases reply : p s with
  | ok =>
    rw [reply] at walks
    obtain ⟨_, passes, _, holds⟩ := walks
    have length := passes.length
    exact ⟨passes.onward, by omega, fun _ _ => passes.passed.symm ▸ holds⟩
  | fail =>
    rw [reply] at walks
    obtain ⟨_, passes, wrong, _, found, place⟩ := walks
    exact ⟨passes.onward, passes.reported wrong found place⟩
  | spent =>
    rw [reply] at walks
    exact walks.elim fun _ passes => passes.onward

lemma proceeds_expect (what) (solid : test .newline = false ∧ test .endOfFile = false) :
    Proceeds c n 1 (expect test what) (expect test what) :=
  fun s ends _ => Steady.vouched ((isSteady_expect solid s).last (by omega) (by simp)) ends rfl

lemma proceeds_expressionWith (blames : BlamesErrors embed) (n) :
    Proceeds 11 n 1 (expression embed n) (expression embed (n + 1)) :=
  fun s ends _ => Steady.vouched ((isSteady_expression blames n s).last (by omega) (by simp)) ends rfl

lemma proceeds_expectName (what) : Proceeds c n 1 (expectName what) (expectName what) :=
  fun s ends _ => Steady.vouched ((steady_expectName s).last (by omega) (by simp)) ends rfl

lemma vouches_next {f g : Location → Parser β} (next : ∀ token, Vouches (spot.after [token]) (c + 32) n
      (d - 1) (f token.location) (g token.location) fun us => post (token :: us)) :
    VouchesAhead spot c n d (Parser.next >>= f) (Parser.next >>= g) post := by
  rintro s ends rfl ahead
  have onward := Reading.Onward.advance s
  have passed := s.passed_advance ahead
  have spot : s.advance.spot = s.spot.after [s.peek] := passed ▸ onward.spot
  have later : Vouched s c n d post (f s.advance.last) (g s.advance.last) s.advance := by
    refine Vouched.after (e := 1) ?_ onward (Nat.le_of_eq (s.advance_length ahead))
      fun _ _ => True.intro
    rw [passed, s.advance_last ahead]
    exact ((next s.peek).mono (by omega) fun _ _ fits _ => fits) _ (onward.ends ends) spot
  exact ⟨later.answers, later.settled⟩

lemma vouches_accept {f g : Bool → Parser β} (solid : test .endOfFile = false) (yes : ∀ token, Vouches
      (spot.after [token]) (c + 32) n (d - 1) (f true) (g true) fun us => post (token :: us))
    (no : Vouches spot c n d (f false) (g false) post) :
    Vouches spot c n d (accept test >>= f) (accept test >>= g) post := by
  intro s ends here
  by_cases passes : test s.peek.kind = true
  · have ahead : s.rest ≠ [] := s.ahead ends fun final => by simp [final, solid] at passes
    have taken : accept test s = .ok true s.advance := if_pos passes
    obtain ⟨answers, settled⟩ :=
      vouches_next (f := fun _ => f true) (g := fun _ => g true) yes s ends here ahead
    refine ⟨bind_of_ok (f := f) taken ▸ answers, fun room => ?_⟩
    rw [bind_of_ok taken, bind_of_ok taken]
    exact settled room
  · have left : accept test s = .ok false s := if_neg passes
    obtain ⟨answers, settled⟩ := no s ends here
    refine ⟨bind_of_ok (f := f) left ▸ answers, fun room => ?_⟩
    rw [bind_of_ok left, bind_of_ok left]
    exact settled room

lemma vouches_reportNext {problem : TokenKind → SyntaxProblem} {f g : Unit → Parser β}
    (rest : ∀ u, Proceeds c n 0 (f u) (g u)) : Vouches spot c n 0
    (look >>= fun token => report (problem token.kind) token.location >>= f)
    (look >>= fun token => report (problem token.kind) token.location >>= g) post := by
  intro s ends _
  have onward : s.Onward (s.report ((problem s.peek.kind).errorAt s.peek.location)) :=
    blames_next rfl rfl
  have later : Vouched s c n 0 post _ _ s := vouched_reported onward ends rest
  exact ⟨later.answers, later.settled⟩

lemma vouches_nextReportIf (test) [DecidablePred test] (problem : SyntaxProblem) (fact : Scope → Prop)
    (passes : ∀ s, ¬ test s → fact s.scope) {f g : Location → Parser β} (next : ∀ token, Vouches
      (spot.after [token]) (c + 32) n (d - 1) (f token.location) (g token.location) fun us result =>
      fact spot.scope → post (token :: us) result) : VouchesAhead spot c n d (Parser.next >>= fun start
      => (update fun s => if test s then s.report (problem.errorAt start) else s) >>= fun _ => f start)
      (Parser.next >>= fun start => (update fun s => if test s then s.report (problem.errorAt start)
      else s) >>= fun _ => g start) post := by
  rintro s ends rfl ahead
  have last := s.advance_last ahead
  have moved := Nat.le_of_eq (s.advance_length ahead)
  obtain ⟨_, passed⟩ := s.passes_step
  let t := if test s.advance then s.advance.report (problem.errorAt s.advance.last) else s.advance
  obtain ⟨onward, here, knows⟩ :
      s.Onward t ∧ t.rest = s.advance.rest ∧ (t.IsClean → fact s.scope) := by
    dsimp only [t]
    split
    · exact ⟨passed.reported rfl passed.peek_mem last, rfl,
        fun clean => absurd clean (Reading.report_not_clean _ _)⟩
    · next fine => exact ⟨passed.onward, rfl, fun _ => passed.onward.scope ▸ passes _ fine⟩
  have token : s.passed t = [s.peek] := by
    rw [Reading.passed, here]
    exact s.passed_advance ahead
  have later : Vouched s c n d post (f s.advance.last) (g s.advance.last) t := by
    refine Vouched.after (e := 1) ?_ onward (here ▸ moved) fun _ => knows
    rw [token, last]
    exact next s.peek t (onward.ends ends) (token ▸ onward.spot)
  exact ⟨later.answers, later.settled⟩

/-! ### The levels -/

lemma Vouches.insideLoop (inner : Vouches { spot with scope := spot.scope.loop } c n d p q mid) :
    Vouches spot c n d (insideLoop p) (insideLoop q) mid := by
  rintro s ends rfl
  have scope : Reading.scope { s with loops := s.loops + 1 } = s.scope.loop := by
    simp [Reading.scope, Scope.loop]
  obtain ⟨answers, settled⟩ := inner { s with loops := s.loops + 1 } ends
    (congrArg (fun scope => { s.spot with scope }) scope)
  unfold insideLoop
  refine ⟨?_, fun room => ?_⟩
  · cases reply : p { s with loops := s.loops + 1 } with rw [reply] at answers
    | ok => exact ⟨.loop answers.1, answers.2⟩
    | fail => exact ⟨.loop answers.1, .loop answers.2⟩
    | spent => exact .loop answers
  · rw [(settled room).1, Reply.isSpent_update]
    exact ⟨rfl, (settled room).2⟩

lemma Vouches.insideFunction (inner : Vouches { spot with scope := .function } c n d p q mid) :
    Vouches spot c n d (insideFunction p) (insideFunction q) mid := by
  rintro s ends rfl
  have scope : Reading.scope { s with loops := 0, functions := s.functions + 1 } = .function := by
    simp [Reading.scope, Scope.function]
  obtain ⟨answers, settled⟩ := inner { s with loops := 0, functions := s.functions + 1 } ends
    (congrArg (fun scope => { s.spot with scope }) scope)
  unfold insideFunction
  refine ⟨?_, fun room => ?_⟩
  · cases reply : p { s with loops := 0, functions := s.functions + 1 } with rw [reply] at answers
    | ok => exact ⟨.function answers.1, answers.2⟩
    | fail => exact ⟨.function answers.1, .function answers.2⟩
    | spent => exact .function answers
  · rw [(settled room).1, Reply.isSpent_update]
    exact ⟨rfl, (settled room).2⟩

lemma spot_deeper (onward : s.Onward t) (here : t.rest = s.rest) :
    Reading.spot { t with statements := t.statements + 1 } =
      { s.spot with room := s.spot.room - 1 } := by
  have still : s.passed t = [] := by rw [Reading.passed, here, Nat.sub_self, take_zero]
  have last : t.last = s.last := by rw [onward.last, still]; rfl
  change (⟨t.scope, nestingLimit - (t.statements + 1), t.last⟩ : Spot) =
    ⟨s.scope, nestingLimit - s.statements - 1, s.last⟩
  rw [onward.scope, onward.statements, last, Nat.sub_sub]

lemma Vouches.deeper (inner : Vouches { s.spot with room := s.spot.room - 1 } c n d p q mid)
    (ends : s.Ends) (onward : s.Onward t) (here : t.rest = s.rest)
    (room : s.statements ≤ nestingLimit → t.IsClean → s.statements < nestingLimit) :
    Answers s d (fun ts value => 0 < s.spot.room ∧ mid ts value)
      ((p { t with statements := t.statements + 1 }).update fun u =>
        { u with statements := u.statements - 1 }) := by
  have answers := (inner { t with statements := t.statements + 1 } (onward.ends ends)
    (spot_deeper onward here)).answers
  cases reply : p { t with statements := t.statements + 1 } with
  | ok =>
    rw [reply] at answers
    obtain ⟨further, moved, fits⟩ := answers
    refine ⟨onward.trans (.statement further), here ▸ moved, fun ready clean => ?_⟩
    have apart : s.statements < nestingLimit := room ready (further.clean clean)
    refine ⟨Nat.sub_pos_of_lt apart, ?_⟩
    have fits := fits (onward.statements ▸ apart) clean
    rw [Reading.passed, here] at fits
    exact fits
  | fail =>
    rw [reply] at answers
    exact ⟨onward.trans (.statement answers.1), onward.trans (.statement answers.2)⟩
  | spent =>
    rw [reply] at answers
    exact onward.trans (.statement answers)

lemma Vouches.insideStatement (inner : Vouches { spot with room := spot.room - 1 } c n d p q mid) :
    Vouches spot c n d (insideStatement p) (insideStatement q) fun ts value =>
      0 < spot.room ∧ mid ts value := by
  rintro s ends rfl
  refine ⟨?_, fun room => ?_⟩
  · unfold insideStatement
    by_cases full : (decide (s.statements ≥ nestingLimit) && !s.depthReported) = true
    · have wrong : (blockTooDeep.errorAt s.peek.location).isError = true := rfl
      simp only [full, if_true]
      exact inner.deeper ends (.tooDeep wrong s rfl) rfl nofun
    · simp only [full, Bool.false_eq_true, if_false]
      exact inner.deeper ends (.refl s) rfl fun _ clean => by simpa [clean.2] using full
  · let back (t : Reading) : Reading := { t with statements := t.statements - 1 }
    have same (start : Reading) (onward : s.Onward start) (here : start.rest = s.rest) :
        (q { start with statements := start.statements + 1 }).update back =
            (p { start with statements := start.statements + 1 }).update back ∧
          ((p { start with statements := start.statements + 1 }).update back).isSpent = false := by
      obtain ⟨same, unspent⟩ := (inner { start with statements := start.statements + 1 }
        (onward.ends ends) (spot_deeper onward here)).settled (by simpa only [here] using room)
      rw [same, Reply.isSpent_update]
      exact ⟨rfl, unspent⟩
    exact same _ (by split; exacts [.tooDeep rfl s rfl, .refl s]) (by split <;> rfl)

end Parser

/-! ### Templates -/

lemma parseExpressionWith_errors (blames : Parser.BlamesErrors embed)
    (failed : parseExpressionWith embed source = .error errors) :
    ∀ error ∈ errors, error.isError = true := by
  unfold parseExpressionWith at failed
  simp only at failed
  split at failed
  · cases failed
    exact fun error found => ((scan_errors source).1 error found).1
  · split at failed
    · cases failed
    · next error t replied =>
      cases failed
      let start := Reading.ofTokens (scan source).tokens
      let reader (n) : Parser Expr := do
        Parser.skipBreaks
        let value ← Parser.expression embed n
        Parser.skipBreaks
        let token ← Parser.look
        if token.kind.isEnd then pure value
        else Parser.failAt (.trailing token.kind) token.location
      have proceeds (n) : Parser.Proceeds 11 n 0 (reader n) (reader (n + 1)) := by
        refine Parser.proceeds_past Parser.proceeds_skipBreaks fun _ => ?_
        refine Parser.proceeds_past (Parser.proceeds_expressionWith blames n) fun value => ?_
        refine Parser.proceeds_past Parser.proceeds_skipBreaks fun _ => ?_
        refine Parser.vouches_look fun s ends here => ?_
        split
        · exact Parser.proceeds_pure value s ends here
        · exact Parser.vouches_failNext
      have answers := (proceeds (parseFuel start.rest) start (Reading.ofTokens_ends _ _) rfl).answers
      have failed : reader (parseFuel start.rest) start = .fail error t := replied
      rw [failed] at answers
      exact forall_mem_singleton.mpr (answers.2.errors (forall_mem_nil _) error mem_cons_self)
    · cases failed
      exact forall_mem_nil _

lemma parsePlaceholder_error (blames : Parser.BlamesErrors embed)
    (failed : parsePlaceholder embed location text = .error error) :
    error.isError = true ∧ error.location = location := by
  unfold parsePlaceholder at failed
  split at failed
  · cases failed
    exact ⟨rfl, rfl⟩
  · split at failed
    · cases failed
    · next errors found =>
      have wrong := parseExpressionWith_errors blames found
      cases failed
      cases errors with
      | nil => exact ⟨rfl, rfl⟩
      | cons first => exact ⟨wrong first mem_cons_self, rfl⟩

lemma partsOfPieces_error {read : List Char → Except Diagnostic Expr}
    (wrong : ∀ text error, read text = .error error → error.isError = true ∧ error.location = location)
    (failed : partsOfPieces read location pieces = .error error) :
    error.isError = true ∧ error.location = location := by
  have mapped {part : StringPart} {parts : Except Diagnostic (List StringPart)}
      (failed : parts.map (part :: ·) = .error error) : parts = .error error := by
    cases parts with
    | ok => cases failed
    | error => exact failed
  induction pieces with
  | nil => cases failed
  | cons piece _ ih =>
    cases piece with
    | literal => exact ih (mapped failed)
    | code text =>
      rw [partsOfPieces] at failed
      split at failed
      · exact ih (mapped failed)
      · next _ bad =>
        cases failed
        exact wrong text _ bad
    | unclosed =>
      cases failed
      exact ⟨rfl, rfl⟩

lemma templateParts_blames (blames : Parser.BlamesErrors below) (depth) :
    Parser.BlamesErrors (templateParts below depth) := by
  induction depth with
  | zero => exact blames
  | succ _ ih =>
    intro _ _ _ failed
    exact partsOfPieces_error (fun _ _ bad => parsePlaceholder_error ih bad) failed

lemma embed_blames : Parser.BlamesErrors embedTemplate :=
  fun location body => templateParts_blames (by rintro _ _ _ ⟨⟩) (body.length + 1) location body

/-! ### Parts of statements -/

namespace Parser
lemma proceeds_expression (n) :
    Proceeds 11 n 1 (expression embedTemplate n) (expression embedTemplate (n + 1)) :=
  proceeds_expressionWith embed_blames n

lemma proceeds_opener (header : Header) : Proceeds c n 0 (opener header) (opener header) := by
  refine proceeds_past (proceeds_accept _) fun _ => ?_
  split
  · exact proceeds_past (proceeds_ask _) fun ends => proceeds_pure _
  · refine proceeds_past (proceeds_ask _) fun ends => ?_
    split
    · exact proceeds_pure false
    · exact vouches_reportNext fun _ =>
        proceeds_past (proceeds_update (.skipWhile _)) fun _ => proceeds_pure false

lemma proceeds_closeBlock (opened : Location) :
    Proceeds c n 0 (closeBlock opened) (closeBlock opened) := by
  refine proceeds_past (proceeds_accept _) fun _ => ?_
  split
  · exact proceeds_pure ()
  · exact proceeds_update (.report rfl (Diagnostic.isBelated_of_message .missingEnd rfl (by simp)))

lemma proceeds_paramsFrom : (n : Nat) → Proceeds 1 n 1 (paramsFrom n) (paramsFrom (n + 1))
  | 0, _ => vouches_exhausted
  | n + 1, _ => by
    rw [paramsFrom, paramsFrom]
    refine .succ (proceeds_past (proceeds_expectName _) fun first => ?_)
    refine proceeds_past (proceeds_accept _) fun _ => ?_
    split
    · exact proceeds_past (Vouches.last (d := 1) (proceeds_paramsFrom n) (by omega)) fun _ => proceeds_pure _
    · exact proceeds_pure [first]

lemma proceeds_params (n) : Proceeds 1 n 0 (params n) (params (n + 1)) := by
  refine proceeds_past (proceeds_ask _) fun _ => ?_
  split
  · exact proceeds_pure []
  · exact Vouches.last (proceeds_paramsFrom n) (by omega)

lemma proceeds_typeHint : Proceeds c n 0 typeHint typeHint := by
  refine proceeds_past (proceeds_accept _) fun _ => ?_
  split
  · exact proceeds_past (proceeds_expectName _) fun _ => proceeds_pure _
  · exact proceeds_pure none

lemma proceeds_superclass : Proceeds c n 0 superclass superclass := by
  refine proceeds_past (proceeds_accept _) fun _ => ?_
  split
  · refine vouches_look fun s ends _ => ?_
    have walks := ((show Steady _ [] 0 n 1 (expectName .superclassName) _ _ s from
      steady_expectName s) ends.stops rfl).walks
    cases reply : expectName .superclassName s with
    | ok name t =>
      rw [reply] at walks
      obtain ⟨_, passes, -⟩ := walks
      refine ⟨?_, fun _ => ⟨rfl, by rw [bind_of_ok reply]; rfl⟩⟩
      rw [bind_of_ok reply]
      have onward : s.Onward (t.warn
          ((unresolvedSuperclass name).warningAt s.peek.location)) :=
        passes.warned rfl passes.peek_mem rfl
      exact ⟨onward, onward.rest.length_le, fun _ _ => trivial⟩
    | fail =>
      rw [reply] at walks
      obtain ⟨_, passes, wrong, _, found, place⟩ := walks
      refine ⟨?_, fun _ => ⟨rfl, by rw [bind_of_fail reply]; rfl⟩⟩
      rw [bind_of_fail reply]
      exact ⟨passes.onward, passes.reported wrong found place⟩
    | spent =>
      unfold expectName at reply
      split at reply <;> cases reply
  · exact proceeds_pure none

end Parser

end Stepper
