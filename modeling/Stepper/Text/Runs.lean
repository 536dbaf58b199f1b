/-! # Runs of code points -/

namespace Stepper.Text

def ranges (start : Nat) : List Nat → List (Nat × Nat)
  | gap :: count :: rest =>
    (start + gap, start + gap + count - 1) :: ranges (start + gap + count) rest
  | _ => []

end Stepper.Text
