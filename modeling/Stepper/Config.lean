/-! # Configuration -/

namespace Stepper

structure Config where
  maxLoopIterations : Nat := 10000
  maxCallDepth : Nat := 200
  defaultTimeout : Nat := 30000
  inputTimeout : Option Nat := none
  eventHistory : Nat := 256
  /-- After how many statements a run lets others go on; zero is never. -/
  yieldInterval : Nat := 256
deriving DecidableEq, Repr

inductive Setting where
  | maxLoopIterations
  | maxCallDepth
  | defaultTimeout
  | inputTimeout
  | eventHistory
  | yieldInterval
deriving DecidableEq, Repr

namespace Setting

def all : List Setting :=
  [.maxLoopIterations, .maxCallDepth, .defaultTimeout, .inputTimeout, .eventHistory, .yieldInterval]

def name : Setting → String
  | .maxLoopIterations => "max_loop_iterations"
  | .maxCallDepth => "max_call_depth"
  | .defaultTimeout => "default_timeout_ms"
  | .inputTimeout => "input_timeout_ms"
  | .eventHistory => "event_history"
  | .yieldInterval => "yield_interval"

def ofName? (text : String) : Option Setting := all.find? fun setting => setting.name == text

end Setting

def Config.set (config : Config) (setting : Setting) (value : Nat) : Config :=
  match setting with
  | .maxLoopIterations => { config with maxLoopIterations := value }
  | .maxCallDepth => { config with maxCallDepth := value }
  | .defaultTimeout => { config with defaultTimeout := value }
  | .inputTimeout => { config with inputTimeout := some value }
  | .eventHistory => { config with eventHistory := value }
  | .yieldInterval => { config with yieldInterval := value }

end Stepper
