/-!
Nested scopes. A name is looked up from the innermost scope outwards, so an inner binding shadows
an outer one. The outermost scope, that of the stylesheet, is always open.
-/

namespace TypedStyle

variable {Value : Type}

/-- The bindings of one scope, the latest first: of two bindings of a name the first holds. -/
abbrev Frame (Value : Type) := List (String × Value)

structure Scopes (Value : Type) where
  innermost : Frame Value
  outer : List (Frame Value)
  deriving DecidableEq

namespace Scopes

def initial : Scopes Value := ⟨[], []⟩

def enter (scopes : Scopes Value) : Scopes Value := ⟨[], scopes.innermost :: scopes.outer⟩

/-- Drops the innermost scope and its bindings. The outermost scope stays. -/
def leave (scopes : Scopes Value) : Scopes Value :=
  match scopes.outer with
  | [] => scopes
  | frame :: outer => ⟨frame, outer⟩

def bind (scopes : Scopes Value) (name : String) (value : Value) : Scopes Value :=
  { scopes with innermost := (name, value) :: scopes.innermost }

def frames (scopes : Scopes Value) : List (Frame Value) := scopes.innermost :: scopes.outer

def resolve? (scopes : Scopes Value) (name : String) : Option Value :=
  scopes.frames.findSome? (List.lookup name)

def isBound (scopes : Scopes Value) (name : String) : Bool := (scopes.resolve? name).isSome

def depth (scopes : Scopes Value) : Nat := scopes.frames.length

@[simp] theorem leave_enter (scopes : Scopes Value) : scopes.enter.leave = scopes := rfl

@[simp] theorem resolve?_initial (name : String) :
    (initial : Scopes Value).resolve? name = none := rfl

@[simp] theorem resolve?_enter (scopes : Scopes Value) (name : String) :
    scopes.enter.resolve? name = scopes.resolve? name := by
  simp only [resolve?, frames, enter, List.findSome?_cons, List.lookup_nil]

theorem resolve?_bind (scopes : Scopes Value) (bound name : String) (value : Value) :
    (scopes.bind bound value).resolve? name =
      if name = bound then some value else scopes.resolve? name := by
  simp only [resolve?, frames, bind, List.findSome?_cons, List.lookup_cons]
  by_cases same : name = bound
  · simp [same]
  · rw [beq_eq_false_iff_ne.mpr same, if_neg same]

@[simp] theorem depth_initial : (initial : Scopes Value).depth = 1 := rfl

@[simp] theorem depth_enter (scopes : Scopes Value) : scopes.enter.depth = scopes.depth + 1 := rfl

@[simp] theorem depth_leave (scopes : Scopes Value) :
    scopes.leave.depth = scopes.depth - 2 + 1 := by
  obtain ⟨innermost, outer⟩ := scopes
  cases outer <;> simp [leave, depth, frames]

@[simp] theorem depth_bind (scopes : Scopes Value) (name : String) (value : Value) :
    (scopes.bind name value).depth = scopes.depth := rfl

end Scopes

end TypedStyle
