import Stepper.Proofs.SessionRecord

/-! # Requests to a debugger -/

namespace Stepper

namespace Debugger

/-- A new debugger after requests. -/
def ofRequests (requests : List Request) : Debugger := requests.foldl after {}

variable {d later : Debugger}

/-! ### What requests come to -/

lemma after_refused (refused : d.serve request = .error error) : d.after request = d := by
  rw [after, refused]
  rfl

lemma Kept.after (kept : Kept d) (request) : Follows d (d.after request) := by
  cases result : d.serve request with
  | error =>
    rw [after_refused result]
    exact kept.refl
  | ok later =>
    have served : d.after request = later := by
      rw [Debugger.after, result]
      rfl
    exact served ▸ kept.serves (serves_of_ok result)

lemma Kept.requests (kept : Kept d) (requests : List Request) :
    Follows d (requests.foldl Debugger.after d) := by
  induction requests generalizing d with
  | nil => exact kept.refl
  | cons request _ ih =>
    have first := kept.after request
    exact first.trans (ih first.kept)

lemma ofRequests_kept (requests : List Request) : Kept (ofRequests requests) :=
  (kept_empty.requests requests).kept

lemma ofRequests_follows (earlier later : List Request) :
    Follows (ofRequests earlier) (ofRequests (earlier ++ later)) := by
  rw [ofRequests, ofRequests, List.foldl_append]
  exact (ofRequests_kept earlier).requests later

lemma Follows.gone (follows : Follows d later) (given : number ≤ d.issued)
    (gone : ∀ b ∈ d.breakpoints, b.id ≠ number) : ∀ b ∈ later.breakpoints, b.id ≠ number := by
  rintro b mem rfl
  obtain ⟨old, present, same, -, -⟩ := follows.numbers b mem given
  exact gone old present same

/-- What holds of the records of a debugger: one breakpoint on a line and numbers of their own, verified
exactly if the open session has the line, no expression that assigns, no watch twice, and no step is
pending unless it runs. -/
structure InOrder (d : Debugger) : Prop where
  placed : ∀ line b, d.breakpointOn? line = some b ↔ b ∈ d.breakpoints ∧ b.line = line
  distinct : d.breakpoints.Pairwise fun b c => b.id ≠ c.id
  verified : ∀ b ∈ d.breakpoints,
    (b.verified = true ↔ ∃ session, d.session = some session ∧ b.line ∈ session.target.lines)
  conditions : ∀ b ∈ d.breakpoints, ∀ condition ∈ b.condition, condition.value.assigns = false
  logs : ∀ b ∈ d.breakpoints, ∀ template ∈ b.log, partsAssign template.parts = false
  watches : ∀ watch ∈ d.watches, watch.value.assigns = false
  watched : (d.watches.map DebugExpr.source).Nodup
  stepping : d.pendingStep.isSome = true → d.state = .running

lemma Kept.breakpointOn?_iff (kept : Kept d) (line) (b) :
    d.breakpointOn? line = some b ↔ b ∈ d.breakpoints ∧ b.line = line := by
  refine ⟨breakpointOn?_some, ?_⟩
  rintro ⟨mem, rfl⟩
  cases found : d.breakpointOn? b.line with
  | none =>
    have missing := List.find?_eq_none.mp found b mem
    simp at missing
  | some =>
    obtain ⟨present, here⟩ := breakpointOn?_some found
    exact congrArg some (kept.same_of_line present mem here)

lemma Kept.verified_iff (kept : Kept d) (mem : b ∈ d.breakpoints) :
    b.verified = true ↔ ∃ session, d.session = some session ∧ b.line ∈ session.target.lines := by
  rw [kept.flags b mem, hasLine]
  cases isOpen : d.session with
  | none => simp
  | some session => simp [kept.lines session isOpen]

lemma Kept.inOrder (kept : Kept d) : InOrder d where
  placed := kept.breakpointOn?_iff
  distinct := kept.distinct
  verified _ mem := kept.verified_iff mem
  conditions := kept.conditions
  logs := kept.logs
  watches := kept.watches
  watched := kept.watched
  stepping := kept.stepping

lemma Kept.readded (kept : Kept d) (occupied : d.breakpointOn? line = some old)
    (added : d.setBreakpoint line condition log = .ok (later, b)) :
    b.id = old.id ∧ b.hits = old.hits ∧ later.breakpointOn? line = some b := by
  have adds := setBreakpoint_added added
  obtain ⟨_, _⟩ := breakpointOn?_some occupied
  have replaces : b.id = old.id ∧ b.hits = old.hits := by
    obtain ⟨_, found, number, hits, -⟩ | ⟨free, -, -⟩ := adds.number
    · cases occupied.symm.trans found
      exact ⟨number, hits⟩
    · cases occupied.symm.trans free
  have stored : b ∈ later.breakpoints := by
    rw [adds.stored]
    exact mem_insertBreakpoint_self
  exact ⟨replaces.1, replaces.2,
    ((kept.added adds).kept.breakpointOn?_iff line b).mpr ⟨stored, adds.place⟩⟩

end Debugger

lemma Host.perform_refused {h : Host} (refused : (h.perform call).2 = .sessionError error) :
    (h.perform call).1 = h := by
  have replies {α : Type} {result : Except SessionError (Engine × α)} {reply : α → HostReply}
      (plain : ∀ value, reply value ≠ .sessionError error)
      (refused : (h.replied result reply).2 = .sessionError error) : (h.replied result reply).1 = h := by
    cases result with
    | error => rfl
    | ok pair => exact absurd refused (plain pair.2)
  cases call with
  | stop | openSession | command | setBreakpoint | clearBreakpoint | switchBreakpoint | setWatch =>
    exact replies (by rintro _ ⟨⟩) refused
  | submit =>
    simp only [perform] at refused
    split at refused <;> cases refused
  | _ => cases refused

namespace Debugger

/-- The records of a debugger are in order after any requests: no number is given out twice, hits are
kept, and what is refused changes nothing. -/
theorem requests_keep_records (first second third : List Request) :
    (ofRequests first).InOrder ∧
    (∀ b ∈ (ofRequests first).breakpoints,
      (∀ c ∈ (ofRequests (first ++ second)).breakpoints,
        c.id = b.id → c.line = b.line ∧ b.hits ≤ c.hits) ∧
      ((∀ c ∈ (ofRequests (first ++ second)).breakpoints, c.id ≠ b.id) →
        ∀ c ∈ (ofRequests (first ++ second ++ third)).breakpoints, c.id ≠ b.id)) ∧
    (∀ line condition log old later b, (ofRequests first).breakpointOn? line = some old →
      (ofRequests first).setBreakpoint line condition log = .ok (later, b) →
      b.id = old.id ∧ b.hits = old.hits ∧ later.breakpointOn? line = some b) ∧
    (∀ request error, (ofRequests first).serve request = .error error →
      (ofRequests first).after request = ofRequests first) ∧
    ∀ (h : Host) call error, (h.perform call).2 = .sessionError error → (h.perform call).1 = h := by
  have kept := ofRequests_kept first
  have follows := ofRequests_follows first second
  refine ⟨kept.inOrder, fun b member => ⟨fun c present same => ?_, fun gone => ?_⟩,
    fun _ _ _ _ _ _ => kept.readded, fun _ _ => after_refused, fun _ _ _ => Host.perform_refused⟩
  · have given : c.id ≤ (ofRequests first).issued := same ▸ kept.issued b member
    obtain ⟨old, there, number, line, hits⟩ := follows.numbers c present given
    obtain rfl : old = b := kept.same_of_id there member (number.trans same)
    exact ⟨line.symm, hits⟩
  · have given := Nat.le_trans (kept.issued b member) follows.issued
    exact (ofRequests_follows (first ++ second) third).gone given gone

end Debugger

end Stepper
