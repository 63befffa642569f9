import TypedStyle.Expr
import TypedStyle.Property

/-!
Stylesheets as trees. Every item knows its span, and a declaration has room for the one diagnostic
that checking may attach to it.

A body is a sequence of items, and a rule among them holds a body of its own. The sequence is the
inductive type itself: each item but the last is followed by the rest of its body.
-/

namespace TypedStyle

inductive Selector where
  | tag (name : String)
  | byClass (name : String)
  | byId (name : String)
  deriving DecidableEq

def Selector.text : Selector → String
  | .tag name => name
  | .byClass name => "." ++ name
  | .byId name => "#" ++ name

structure Declaration where
  property : Property
  value : Expr
  span : Span
  diagnostic : Option Diagnostic
  deriving DecidableEq

structure Assignment where
  name : String
  value : Expr
  span : Span
  deriving DecidableEq

inductive Body where
  | empty
  | declaration (declared : Declaration) (later : Body)
  | assignment (assigned : Assignment) (later : Body)
  | rule (selectors : List Selector) (inner : Body) (span : Span) (later : Body)
  deriving DecidableEq

inductive Item where
  | declaration (declared : Declaration)
  | assignment (assigned : Assignment)
  | rule (selectors : List Selector) (inner : Body) (span : Span)
  deriving DecidableEq

def Body.cons (item : Item) (later : Body) : Body :=
  match item with
  | .declaration declared => .declaration declared later
  | .assignment assigned => .assignment assigned later
  | .rule selectors inner span => .rule selectors inner span later

def Body.ofList (items : List Item) : Body := items.foldr Body.cons .empty

def Body.toList : Body → List Item
  | .empty => []
  | .declaration declared later => .declaration declared :: later.toList
  | .assignment assigned later => .assignment assigned :: later.toList
  | .rule selectors inner span later => .rule selectors inner span :: later.toList

theorem Body.toList_cons (item : Item) (later : Body) :
    (Body.cons item later).toList = item :: later.toList := by
  cases item <;> rfl

theorem Body.ofList_toList (body : Body) : Body.ofList body.toList = body := by
  induction body with
  | empty => rfl
  | declaration _ _ ih | assignment _ _ ih | rule _ _ _ _ _ ih =>
      simpa [ofList, toList, cons] using ih

theorem Body.toList_ofList (items : List Item) : (Body.ofList items).toList = items := by
  induction items with
  | nil => rfl
  | cons item later ih =>
      change (Body.cons item (Body.ofList later)).toList = item :: later
      rw [toList_cons, ih]

structure Sheet where
  body : Body
  span : Span
  deriving DecidableEq

/-! ### Attached diagnostics in document order

Those of an expression come before that of the declaration that holds it. -/

def Declaration.diagnostics (declaration : Declaration) : List Diagnostic :=
  declaration.value.diagnostics ++ declaration.diagnostic.toList

def Body.diagnostics : Body → List Diagnostic
  | .empty => []
  | .declaration declared later => declared.diagnostics ++ later.diagnostics
  | .assignment assigned later => assigned.value.diagnostics ++ later.diagnostics
  | .rule _ inner _ later => inner.diagnostics ++ later.diagnostics

def Sheet.diagnostics (sheet : Sheet) : List Diagnostic := sheet.body.diagnostics

def Sheet.isClean (sheet : Sheet) : Bool := sheet.diagnostics.isEmpty

end TypedStyle
