import TypedStyle.Scopes
import TypedStyle.Sheet

/-!
Walks over a stylesheet in document order, with the scopes that its rules open. A rule with at
least one selector has a scope of its own; a rule without selectors shares the scope around it.

A pass says what happens at assignments and declarations. It may change the scopes, keep notes,
replace the node, and fail: a failure ends the walk, with every node after it as it was.
-/

namespace TypedStyle

/-- What is left after a visit: the scopes, the notes, the node as it now stands, and the failure
that ends the walk, if there is one. -/
structure Visit (Value Notes Failure Node : Type) where
  scopes : Scopes Value
  notes : Notes
  node : Node
  failure? : Option Failure

structure Pass (Value Notes Failure : Type) where
  assignment : Scopes Value → Notes → Assignment → Visit Value Notes Failure Assignment
  declaration : Scopes Value → Notes → Declaration → Visit Value Notes Failure Declaration

variable {Value Notes Failure Node Next : Type}

namespace Visit

def map (change : Node → Next) (visit : Visit Value Notes Failure Node) :
    Visit Value Notes Failure Next :=
  { visit with node := change visit.node }

def andLater (visit : Visit Value Notes Failure Node) (join : Node → Body → Body) (later : Body)
    (walkLater : Scopes Value → Notes → Visit Value Notes Failure Body) :
    Visit Value Notes Failure Body :=
  match visit.failure? with
  | some _ => visit.map (join · later)
  | none => (walkLater visit.scopes visit.notes).map (join visit.node)

end Visit

namespace Pass

def walk (pass : Pass Value Notes Failure) (scopes : Scopes Value) (notes : Notes) :
    Body → Visit Value Notes Failure Body
  | .empty => ⟨scopes, notes, .empty, none⟩
  | .declaration declared later =>
      (pass.declaration scopes notes declared).andLater Body.declaration later fun scopes notes =>
        pass.walk scopes notes later
  | .assignment assigned later =>
      (pass.assignment scopes notes assigned).andLater Body.assignment later fun scopes notes =>
        pass.walk scopes notes later
  | .rule selectors inner span later =>
      let visit :=
        if selectors.isEmpty then pass.walk scopes notes inner
        else
          let inside := pass.walk scopes.enter notes inner
          { inside with scopes := inside.scopes.leave }
      visit.andLater (fun inner later => .rule selectors inner span later) later
        fun scopes notes => pass.walk scopes notes later

abbrev Record := List (String × Nat)

def record (limit? : Option Nat) (name : String) (scopes : Scopes Unit) (before : Record)
    (node : Node) : Visit Unit Record String Node :=
  let after := before ++ [(name, scopes.depth)]
  ⟨scopes, after, node, if limit? = some after.length then some name else none⟩

/-- Records every visit, and fails right after visit number `limit?` with the name visited there. -/
def recording (limit? : Option Nat) : Pass Unit Record String where
  assignment scopes notes assigned := record limit? assigned.name scopes notes assigned
  declaration scopes notes declared :=
    record limit? declared.property.name scopes notes declared

end Pass

end TypedStyle
