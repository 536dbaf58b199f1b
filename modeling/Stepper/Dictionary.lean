/-! # Ordered dictionaries -/

namespace Stepper

abbrev Dictionary (α : Type) : Type := List (String × α)

namespace Dictionary

variable {α β : Type}

def find? (name : String) : Dictionary α → Option α
  | [] => none
  | (key, value) :: rest => if key = name then some value else find? name rest

def insert (name : String) (value : α) : Dictionary α → Dictionary α
  | [] => [(name, value)]
  | (key, old) :: rest =>
    if name = key then (name, value) :: rest
    else if name < key then (name, value) :: (key, old) :: rest
    else (key, old) :: insert name value rest

def override (outer inner : Dictionary α) : Dictionary α :=
  inner.foldl (fun entries (name, value) => insert name value entries) outer

end Dictionary

end Stepper
