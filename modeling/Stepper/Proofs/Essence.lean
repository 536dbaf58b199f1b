import Stepper.Proofs.Purity

/-! # What a run computes -/

namespace Stepper

namespace Machine

def probe? : List Continuation → Option (List Continuation × Continuation × List Continuation)
  | [] => none
  | k :: rest =>
    if k.isProbe then some ([], k, rest)
    else (probe? rest).map fun (above, probe, below) => (k :: above, probe, below)

lemma probe?_unprobed {stack : List Continuation} (unprobed : ∀ k ∈ stack, k.isProbe = false) :
    probe? stack = none := by
  induction stack with
  | nil => rfl
  | cons _ _ ih =>
    obtain ⟨plain, others⟩ := List.forall_mem_cons.mp unprobed
    simp [probe?, plain, ih others]

lemma probe?_append (unprobed : ∀ k ∈ above, k.isProbe = false) (isProbe : k.isProbe) :
    probe? (above ++ k :: below) = some (above, k, below) := by
  induction above with
  | nil => simp [probe?, isProbe]
  | cons _ _ ih =>
    obtain ⟨plain, others⟩ := List.forall_mem_cons.mp unprobed
    simp [probe?, plain, ih others]

lemma probe?_cases (stack : List Continuation) : (∀ k ∈ stack, k.isProbe = false) ∨ ∃ above k below,
    stack = above ++ k :: below ∧ (∀ k ∈ above, k.isProbe = false) ∧ k.isProbe = true := by
  induction stack with
  | nil => exact .inl (by simp)
  | cons k rest ih =>
    cases isProbe : k.isProbe with
    | true => exact .inr ⟨[], k, rest, rfl, by simp, isProbe⟩
    | false =>
      rcases ih with unprobed | ⟨above, probe, below, rfl, unprobed, isProbe'⟩
      · exact .inl (List.forall_mem_cons.mpr ⟨isProbe, unprobed⟩)
      · exact .inr ⟨k :: above, probe, below, rfl, List.forall_mem_cons.mpr ⟨isProbe, unprobed⟩,
          isProbe'⟩

def bare (m : Machine) : Machine := m.withLedger ⟨m.outputs, 0, 0, 0, none, false⟩

def hover (m : Machine) (b : Boundary) (stack : List Continuation) : Machine :=
  { m.bare with control := .boundary b, stack, muted := false }

def askedAt (location : Location) : Control := .waiting (.input ⟨0, 0, none⟩ location)

def outline : Control → Control
  | .arrived b | .log _ _ b _ | .watch _ _ _ b _ | .waiting (.yielded b) | .waiting (.paused b _) =>
    .boundary b
  | .waiting (.input _ location) => askedAt location
  | control => control

def essence (m : Machine) : Machine :=
  match probe? m.stack with
  | some (_, .condition _ b _, below) | some (_, .log _ _ b _, below)
  | some (_, .watch _ _ _ _ b _, below) => m.hover b below
  | _ => { m.bare with control := outline m.control }

def boundaryOf : Continuation → Option Boundary
  | .condition _ b _ | .log _ _ b _ | .watch _ _ _ _ b _ => some b
  | _ => none

section Essence
variable {m : Machine} {above below : List Continuation} {b : Boundary}

lemma essence_probed (stack : m.stack = above ++ k :: below) (unprobed : ∀ k ∈ above, k.isProbe = false)
    (at_b : boundaryOf k = some b) : m.essence = m.hover b below := by
  have isProbe : k.isProbe := by
    cases k <;> simp_all [boundaryOf, Continuation.isProbe]
  unfold essence
  rw [stack, probe?_append unprobed isProbe]
  cases k <;> simp_all [boundaryOf]

lemma essence_unprobed (unprobed : m.IsUnprobed) :
    m.essence = { m.bare with control := outline m.control } := by
  unfold essence
  rw [probe?_unprobed unprobed]

end Essence

def plainStep (config : Config) (answer : InputAnswer) (m : Machine) : Machine :=
  match m.control with
  | .boundary b => m.into (.proceed b)
  | .gather (.print _) values [] _ =>
    ({ m with outputs := m.outputs.push (" ".intercalate (values.reverse.map Value.text)) }).flow
      .normal
  | .gather (.call (.builtin .input) location) values [] _ =>
    if values.length ≤ 1 then m.into (askedAt location) else (m.step (.ofConfig config)).2
  | .waiting (.input _ location) =>
    match answer with
    | .ok text => m.give (.string text)
    | .error error => m.fail (.input error) location
  | _ => (m.step (.ofConfig config)).2

end Machine

end Stepper
