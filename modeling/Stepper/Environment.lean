import Stepper.Dictionary

/-! # Environments -/

namespace Stepper

structure FrameId where
  index : Nat
  generation : Nat
deriving DecidableEq, Repr

def FrameId.global : FrameId := ⟨0, 0⟩

structure Frame (α : Type) where
  parent : Option FrameId
  bindings : Dictionary α

structure Slot (α : Type) where
  generation : Nat
  frame : Option (Frame α)

structure Environment (α : Type) where
  slots : Array (Slot α)
  free : List Nat

namespace Environment

variable {α β : Type}

def empty : Environment α := ⟨#[⟨0, some ⟨none, []⟩⟩], []⟩

def frame? (env : Environment α) (id : FrameId) : Option (Frame α) :=
  match env.slots[id.index]? with
  | some slot => if slot.generation = id.generation then slot.frame else none
  | none => none

def hasFrame (env : Environment α) (id : FrameId) : Bool := (env.frame? id).isSome

def setFrame (env : Environment α) (id : FrameId) (frame : Option (Frame α)) : Environment α :=
  { env with slots := env.slots.setIfInBounds id.index ⟨id.generation, frame⟩ }

def push (env : Environment α) (parent : FrameId) : Environment α × FrameId :=
  let frame : Frame α := ⟨some (if env.hasFrame parent then parent else .global), []⟩
  match env.free with
  | index :: free =>
    let generation :=
      match env.slots[index]? with
      | some slot => slot.generation + 1
      | none => 0
    let id : FrameId := ⟨index, generation⟩
    (({ env with free }).setFrame id (some frame), id)
  | [] => ({ env with slots := env.slots.push ⟨0, some frame⟩ }, ⟨env.slots.size, 0⟩)

def pop (env : Environment α) (id : FrameId) : Environment α :=
  if id = .global || !env.hasFrame id then env
  else { env.setFrame id none with free := id.index :: env.free }

def define (env : Environment α) (id : FrameId) (name : String) (value : α) : Environment α :=
  match env.frame? id with
  | some frame => env.setFrame id (some { frame with bindings := frame.bindings.insert name value })
  | none => env

def searchWithin (env : Environment α) (ask : Frame α → Option β) :
    Nat → FrameId → Option (FrameId × β)
  | 0, _ => none
  | bound + 1, id =>
    match env.frame? id with
    | none => none
    | some frame =>
      match ask frame with
      | some answer => some (id, answer)
      | none => frame.parent.bind (searchWithin env ask bound)

def nearest (env : Environment α) (id : FrameId) (name : String) : Option (FrameId × α) :=
  env.searchWithin (fun frame => frame.bindings.find? name) env.slots.size id

def get? (env : Environment α) (id : FrameId) (name : String) : Option α :=
  (env.nearest id name).map Prod.snd

def assign? (env : Environment α) (id : FrameId) (name : String) (value : α) :
    Option (Environment α) :=
  (env.nearest id name).map fun (holder, _) => env.define holder name value

def chainWithin (env : Environment α) : Nat → FrameId → List (Dictionary α)
  | 0, _ => []
  | bound + 1, id =>
    match env.frame? id with
    | none => []
    | some frame =>
      frame.bindings ::
        (match frame.parent with
        | some parent => chainWithin env bound parent
        | none => [])

def visible (env : Environment α) (id : FrameId) : Dictionary α :=
  (env.chainWithin env.slots.size id).foldr (fun inner outer => outer.override inner) []

def locals (env : Environment α) (id : FrameId) : Dictionary α :=
  match env.frame? id with
  | some frame => frame.bindings
  | none => []

def frameCount (env : Environment α) : Nat := env.slots.countP fun slot => slot.frame.isSome

end Environment

end Stepper
