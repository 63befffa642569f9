import TypedStyle.Value

/-!
The properties that a declaration can set, with the types each of them takes.
-/

namespace TypedStyle

inductive Property where
  | color
  | backgroundColor
  | width
  | height
  deriving DecidableEq

namespace Property

def name : Property → String
  | .color => "color"
  | .backgroundColor => "background-color"
  | .width => "width"
  | .height => "height"

def all : List Property := [.color, .backgroundColor, .width, .height]

def ofName? (name : String) : Option Property := all.find? fun property => property.name == name

def allowed : Property → List ValueType
  | .color | .backgroundColor => [.color]
  | .width => [.percentage, .pixel]
  | .height => [.pixel]

def allows (property : Property) (type : ValueType) : Bool := property.allowed.contains type

theorem ofName?_name (property : Property) : ofName? property.name = some property := by
  cases property <;> decide

end Property

end TypedStyle
