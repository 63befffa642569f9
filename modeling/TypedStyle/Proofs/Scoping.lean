import TypedStyle.Walk

/-!
What a walk does to the scopes. A pass whose visits only bind leaves every scope but the innermost
as it was, and so does the walk of a whole body. The scope that a rule with selectors opens is
therefore gone after it, while a rule without selectors binds for what follows it.
-/

namespace TypedStyle

variable {Value Other Notes Failure Node : Type}

namespace Scopes

def enterFor (selectors : List Selector) (scopes : Scopes Value) : Scopes Value :=
  if selectors.isEmpty then scopes else scopes.enter

def afterRule (selectors : List Selector) (before inside : Scopes Value) : Scopes Value :=
  if selectors.isEmpty then inside else before

theorem afterRule_of_selected {selectors : List Selector} (selected : selectors ≠ [])
    (before inside : Scopes Value) : afterRule selectors before inside = before := by
  rw [afterRule, if_neg (by simpa using selected)]

@[simp] theorem resolve?_enterFor (selectors : List Selector) (scopes : Scopes Value)
    (name : String) : (scopes.enterFor selectors).resolve? name = scopes.resolve? name := by
  unfold enterFor
  split
  · rfl
  · exact resolve?_enter scopes name

theorem leave_of_outer_enter (scopes inside : Scopes Value)
    (outside : inside.outer = scopes.enter.outer) : inside.leave = scopes := by
  simp [leave, outside, enter]

def map (change : Value → Other) (scopes : Scopes Value) : Scopes Other :=
  ⟨scopes.innermost.map fun (name, value) => (name, change value),
    scopes.outer.map fun frame => frame.map fun (name, value) => (name, change value)⟩

@[simp] theorem map_initial (change : Value → Other) :
    (initial : Scopes Value).map change = initial := rfl

@[simp] theorem map_bind (change : Value → Other) (scopes : Scopes Value) (name : String)
    (value : Value) :
    (scopes.bind name value).map change = (scopes.map change).bind name (change value) := rfl

@[simp] theorem map_enterFor (change : Value → Other) (selectors : List Selector)
    (scopes : Scopes Value) :
    (scopes.enterFor selectors).map change = (scopes.map change).enterFor selectors := by
  unfold enterFor
  split <;> rfl

@[simp] theorem map_afterRule (change : Value → Other) (selectors : List Selector)
    (before inside : Scopes Value) :
    (afterRule selectors before inside).map change =
      afterRule selectors (before.map change) (inside.map change) := by
  unfold afterRule
  split <;> rfl

theorem lookup_map_frame (change : Value → Other) (frame : Frame Value) (name : String) :
    List.lookup name (frame.map fun (name, value) => (name, change value)) =
      (List.lookup name frame).map change := by
  induction frame with
  | nil => rfl
  | cons binding later ih =>
      obtain ⟨bound, value⟩ := binding
      simp only [List.map_cons, List.lookup_cons, ih]
      cases name == bound <;> rfl

theorem resolve?_map (change : Value → Other) (scopes : Scopes Value) (name : String) :
    (scopes.map change).resolve? name = (scopes.resolve? name).map change := by
  have frames : (scopes.map change).frames =
      scopes.frames.map fun frame => frame.map fun (name, value) => (name, change value) := rfl
  unfold resolve?
  rw [frames]
  induction scopes.frames with
  | nil => rfl
  | cons frame later ih =>
      simp only [List.map_cons, List.findSome?_cons, lookup_map_frame, ih]
      cases List.lookup name frame <;> rfl

end Scopes

namespace Pass

/-- The visits of the pass leave all scopes but the innermost alone. -/
structure BindsInnermost (pass : Pass Value Notes Failure) : Prop where
  assignment : ∀ scopes notes assigned,
    (pass.assignment scopes notes assigned).scopes.outer = scopes.outer
  declaration : ∀ scopes notes declared,
    (pass.declaration scopes notes declared).scopes.outer = scopes.outer

theorem andLater_outer (visit : Visit Value Notes Failure Node) (join : Node → Body → Body)
    (later : Body) (walkLater : Scopes Value → Notes → Visit Value Notes Failure Body)
    (outer : List (Frame Value)) (here : visit.scopes.outer = outer)
    (there : ∀ scopes notes, (walkLater scopes notes).scopes.outer = scopes.outer) :
    (visit.andLater join later walkLater).scopes.outer = outer := by
  unfold Visit.andLater
  split
  · exact here
  · exact (there visit.scopes visit.notes).trans here

theorem walk_outer {pass : Pass Value Notes Failure} (binds : pass.BindsInnermost)
    (scopes : Scopes Value) (notes : Notes) (body : Body) :
    (pass.walk scopes notes body).scopes.outer = scopes.outer := by
  induction body generalizing scopes notes with
  | empty => rfl
  | declaration declared later ih =>
      exact andLater_outer _ _ _ _ _ (binds.declaration scopes notes declared) ih
  | assignment assigned later ih =>
      exact andLater_outer _ _ _ _ _ (binds.assignment scopes notes assigned) ih
  | rule selectors inner span later ihInner ihLater =>
      refine andLater_outer _ _ _ _ _ ?_ ihLater
      split
      · exact ihInner scopes notes
      · have inside := ihInner scopes.enter notes
        exact congrArg Scopes.outer (Scopes.leave_of_outer_enter scopes _ inside)

-- What `walk` does at a rule, with the scopes around the rule in place of those left behind.
theorem walk_rule {pass : Pass Value Notes Failure} (binds : pass.BindsInnermost)
    (scopes : Scopes Value) (notes : Notes) (selectors : List Selector) (inner : Body)
    (span : Span) (later : Body) :
    pass.walk scopes notes (.rule selectors inner span later) =
      let inside := pass.walk (scopes.enterFor selectors) notes inner
      { inside with scopes := scopes.afterRule selectors inside.scopes }.andLater
        (fun inner later => .rule selectors inner span later) later
        fun scopes notes => pass.walk scopes notes later := by
  rw [walk]
  unfold Scopes.enterFor Scopes.afterRule
  split
  · rfl
  · have inside := walk_outer binds scopes.enter notes inner
    simp only [Scopes.leave_of_outer_enter scopes _ inside]

end Pass

end TypedStyle
