import CollectionSchema.Syntax.Expression

/-!
# Statements

The body of a function is a list of statements.  A simple statement ends with a
semicolon; the compound ones hold further statements.  A conditional may lack
either arm, and an arm that is missing differs from an empty block.
-/

set_option autoImplicit false

namespace CollectionSchema

/-- A name that receives the value of an expression. -/
structure Let where
  position : Position
  name : String
  value : Expression

/-- What a simple statement does. -/
inductive SmallStatement where
  | «break»
  | «return» (value : Expression)
  | «throw» (value : Expression)
  | «let» (binding : Let)
  | expression (value : Expression)

/-- A small statement with the semicolon that ends it. -/
structure SimpleStatement where
  position : Position
  small : SmallStatement

/-- What a counting loop does before its first round. -/
inductive ForInit where
  | «let» (binding : Let)
  | expression (value : Expression)

mutual

/-- One statement of a body. -/
inductive Statement where
  | «if» (position : Position) (condition : Expression) (thenBranch elseBranch : Branch)
  | while (position : Position) (condition : Expression) (body : List Statement)
  | «for» (position : Position) (init : ForInit) (condition post : Expression)
      (body : List Statement)
  | simple (statement : SimpleStatement)

/-- An arm of a conditional. -/
inductive Branch where
  | block (body : List Statement)
  | simple (statement : SimpleStatement)
  | absent

end

/-- The place of the first token of a statement. -/
def Statement.position : Statement → Position
  | .if position _ _ _ => position
  | .while position _ _ => position
  | .for position _ _ _ _ => position
  | .simple statement => statement.position

/-- Whether an arm is missing. -/
def Branch.isAbsent : Branch → Bool
  | .absent => true
  | _ => false

end CollectionSchema
