import CollectionSchema.Proofs.Syntax.Yield

/-!
# The trees of a program

A program as a tree has a part for everything that keeps a place: declarations,
decorators, fields, types, indexes and their fields, statements, bindings,
expressions and values.  The pieces of a part are the signs and the smaller parts
that it is written with, in the order of the text.  Read from left to right, the
signs of the trees are the signs of the program.

Trees cover tokens when their signs stand for these tokens and every part has the
place of the first token that it covers.
-/

set_option autoImplicit false

namespace CollectionSchema

/-- A sign, or a part with its place and its pieces. -/
inductive SyntaxTree where
  | leaf (sign : Sign)
  | part (place : Position) (pieces : List SyntaxTree)

namespace SyntaxTree

/-! ## Signs and places of trees -/

mutual

/-- The signs of a tree, from left to right. -/
def signs : SyntaxTree → List Sign
  | .leaf sign => [sign]
  | .part _ pieces => signsOf pieces

/-- The signs of several trees. -/
def signsOf : List SyntaxTree → List Sign
  | [] => []
  | tree :: others => tree.signs ++ signsOf others

end

mutual

/-- The places of a tree: that of each of its parts, at any depth. -/
def places : SyntaxTree → List Position
  | .leaf _ => []
  | .part place pieces => place :: placesOf pieces

/-- The places of several trees. -/
def placesOf : List SyntaxTree → List Position
  | [] => []
  | tree :: others => tree.places ++ placesOf others

end

@[simp] theorem signsOf_nil : signsOf [] = [] := by rw [signsOf]

@[simp] theorem signsOf_cons (tree : SyntaxTree) (others : List SyntaxTree) :
    signsOf (tree :: others) = tree.signs ++ signsOf others := by rw [signsOf]

@[simp] theorem signs_leaf (sign : Sign) : (SyntaxTree.leaf sign).signs = [sign] := by rw [signs]

@[simp] theorem signs_part (place : Position) (pieces : List SyntaxTree) :
    (SyntaxTree.part place pieces).signs = signsOf pieces := by rw [signs]

@[simp] theorem signsOf_append (trees others : List SyntaxTree) :
    signsOf (trees ++ others) = signsOf trees ++ signsOf others := by
  induction trees with
  | nil => rfl
  | cons tree rest ih => simp [ih]

theorem signsOf_flatMap {α : Type} (items : List α) (trees : α → List SyntaxTree) :
    signsOf (items.flatMap trees) = items.flatMap fun item => signsOf (trees item) := by
  induction items with
  | nil => rfl
  | cons item rest ih => simp [ih]

/-! ## Marks and words -/

/-- A mark. -/
def mark (character : Char) : SyntaxTree := .leaf (.mark character)

/-- A word of the grammar or a name. -/
def word (spelling : String) : SyntaxTree := .leaf (.word spelling)

/-- Trees between two marks. -/
def between (opening closing : Char) (trees : List SyntaxTree) : List SyntaxTree :=
  mark opening :: trees ++ [mark closing]

/-- Trees between braces. -/
def braced (trees : List SyntaxTree) : List SyntaxTree := between '\x7b' '\x7d' trees

/-- Lists of trees with commas between them. -/
def separated (parts : List (List SyntaxTree)) : List SyntaxTree :=
  List.intercalate [mark ','] parts

@[simp] theorem signsOf_between (opening closing : Char) (trees : List SyntaxTree) :
    signsOf (between opening closing trees) = Sign.between opening closing (signsOf trees) := by
  simp [between, mark, Sign.between]

@[simp] theorem signsOf_braced (trees : List SyntaxTree) :
    signsOf (braced trees) = Sign.braced (signsOf trees) :=
  signsOf_between _ _ trees

@[simp] theorem signsOf_separated (parts : List (List SyntaxTree)) :
    signsOf (separated parts) = Sign.separated (parts.map signsOf) := by
  rcases parts with _ | ⟨first, others⟩
  · rfl
  · simp only [separated, Sign.separated, List.map_cons]
    induction others generalizing first with
    | nil => simp
    | cons next rest ih =>
        rw [List.intercalate_cons_cons, signsOf_append, signsOf_append, ih, List.map_cons,
          List.intercalate_cons_cons]
        rfl

end SyntaxTree

/-! ## Trees over tokens -/

open SyntaxTree (signsOf placesOf between braced separated)

/-- Trees and the tokens that they are written with.  The place of a part is the place of the first
of its tokens. -/
inductive Covers : List SyntaxTree → List Token → Prop
  | nil : Covers [] []
  | leaf {sign : Sign} {trees : List SyntaxTree} {piece tokens : List Token}
      (first : sign.WrittenAs piece) (others : Covers trees tokens) :
      Covers (.leaf sign :: trees) (piece ++ tokens)
  | part {first : Token} {inside tokens : List Token} {pieces trees : List SyntaxTree}
      (within : Covers pieces (first :: inside)) (others : Covers trees tokens) :
      Covers (.part first.position pieces :: trees) (first :: inside ++ tokens)

namespace Covers

variable {trees others : List SyntaxTree} {tokens more : List Token}

theorem append (first : Covers trees tokens) (second : Covers others more) :
    Covers (trees ++ others) (tokens ++ more) := by
  induction first with
  | nil => exact second
  | leaf written _ ih =>
      rw [List.cons_append, List.append_assoc]
      exact .leaf written ih
  | part within _ _ ih =>
      rw [List.cons_append, List.append_assoc]
      exact .part within ih

theorem single {sign : Sign} {piece : List Token} (written : sign.WrittenAs piece) :
    Covers [.leaf sign] piece := by
  have whole := leaf written nil
  rwa [List.append_nil] at whole

theorem whole {first : Token} {inside : List Token} {pieces : List SyntaxTree}
    (within : Covers pieces (first :: inside)) :
    Covers [.part first.position pieces] (first :: inside) := by
  have whole := part within nil
  rwa [List.append_nil] at whole

/-- The tokens of a single part start at the place of this part. -/
theorem exists_first {place : Position} {pieces : List SyntaxTree}
    (covers : Covers [.part place pieces] tokens) :
    ∃ first inside, tokens = first :: inside ∧ first.position = place := by
  cases covers with
  | part within behind => exact ⟨_, _, rfl, rfl⟩

/-- Trees that cover tokens have signs that spell these tokens. -/
theorem spells (covers : Covers trees tokens) : Spells (signsOf trees) tokens := by
  induction covers with
  | nil => exact .nil
  | leaf written _ ih =>
      rw [SyntaxTree.signsOf_cons, SyntaxTree.signs_leaf]
      exact .cons written ih
  | part _ _ within behind =>
      rw [SyntaxTree.signsOf_cons, SyntaxTree.signs_part]
      exact within.append behind

end Covers

/-! ## The trees of each part -/

open SyntaxTree (mark word)

/-- The tree of a decorator. -/
def Decorator.tree (decorator : Decorator) : SyntaxTree :=
  .part decorator.position (decorator.signs.map .leaf)

mutual

/-- The tree of a type. -/
def SchemaType.tree : SchemaType → SyntaxTree
  | .basic place type array =>
    .part place (word type.word :: if array then [mark '[', mark ']'] else [])
  | .map place key value =>
    .part place (word "map" :: between '<' '>' [word key.word, mark ',', value.tree])
  | .object place fields => .part place (braced (fieldsTrees fields))
  | .foreign place name => .part place [word name]

/-- The tree of a field. -/
def Field.tree : Field → SyntaxTree
  | ⟨place, decorators, name, optional, type⟩ =>
    .part place (decorators.map Decorator.tree ++ word name ::
      ((if optional then [mark '?'] else []) ++ [mark ':', type.tree]))

/-- The trees of the fields of an object type, each with a semicolon behind it. -/
def fieldsTrees : List Field → List SyntaxTree
  | [] => []
  | field :: rest => field.tree :: mark ';' :: fieldsTrees rest

end

mutual

/-- The tree of a value. -/
def Value.tree : Value → SyntaxTree
  | .number place value => .part place [.leaf (.number value)]
  | .string place written => .part place [.leaf (.string written)]
  | .boolean place truth => .part place [word (if truth then "true" else "false")]
  | .call place callee arguments =>
    .part place (word callee :: between '(' ')' (separated (argumentsTrees arguments)))
  | .identifier place name => .part place [word name]
  | .enclosed place inner => .part place (between '(' ')' [inner.tree])

/-- The tree of an expression. -/
def Expression.tree : Expression → SyntaxTree
  | .single place left => .part place [left.tree]
  | .binary place left operator right =>
    .part place [left.tree, .leaf (.operator operator), right.tree]

/-- The tree of each argument of a call. -/
def argumentsTrees : List Expression → List (List SyntaxTree)
  | [] => []
  | argument :: rest => [argument.tree] :: argumentsTrees rest

end

/-- The tree of a binding. -/
def Let.tree (binding : Let) : SyntaxTree :=
  .part binding.position [word "let", word binding.name, mark '=', binding.value.tree]

/-- The trees of a statement without its semicolon; it has no place of its own. -/
def SmallStatement.trees : SmallStatement → List SyntaxTree
  | .break => [word "break"]
  | .return value => [word "return", value.tree]
  | .throw value => [word "throw", value.tree]
  | .let binding => [binding.tree]
  | .expression value => [value.tree]

/-- The tree of a simple statement. -/
def SimpleStatement.tree (statement : SimpleStatement) : SyntaxTree :=
  .part statement.position (statement.small.trees ++ [mark ';'])

/-- The tree of the first clause of a counting loop. -/
def ForInit.tree : ForInit → SyntaxTree
  | .let binding => binding.tree
  | .expression value => value.tree

mutual

/-- The tree of a statement. -/
def Statement.tree : Statement → SyntaxTree
  | .if place condition thenBranch elseBranch =>
    .part place (word "if" :: (between '(' ')' [condition.tree] ++ (thenBranch.trees ++
      if elseBranch.isAbsent then [] else word "else" :: elseBranch.trees)))
  | .while place condition body =>
    .part place (word "while" ::
      (between '(' ')' [condition.tree] ++ braced (statementsTrees body)))
  | .for place init condition post body =>
    .part place (word "for" :: (between '(' ')'
      [init.tree, mark ';', condition.tree, mark ';', post.tree] ++ braced (statementsTrees body)))
  | .simple statement => statement.tree

/-- The trees of an arm of a conditional; it has no place of its own. -/
def Branch.trees : Branch → List SyntaxTree
  | .block body => braced (statementsTrees body)
  | .simple statement => [statement.tree]
  | .absent => []

/-- The trees of the statements of a body. -/
def statementsTrees : List Statement → List SyntaxTree
  | [] => []
  | statement :: rest => statement.tree :: statementsTrees rest

end

/-- The tree of a field of an index. -/
def IndexField.tree (field : IndexField) : SyntaxTree :=
  .part field.position (field.signs.map .leaf)

/-- The tree of an index. -/
def Index.tree (index : Index) : SyntaxTree :=
  .part index.position (mark '@' :: word (if index.unique then "unique" else "index") ::
    between '(' ')' (separated (index.fields.map fun field => [field.tree])))

/-- The tree of a function. -/
def Function.tree (function : Function) : SyntaxTree :=
  .part function.position (function.decorators.map Decorator.tree ++
    .leaf (.optionalWord "function") :: word function.name ::
      (between '(' ')' (separated (function.parameters.map fun field => [field.tree])) ++
        ((function.returnType.elim [] fun type => [mark ':', type.tree]) ++
          braced (function.statements.map Statement.tree))))

/-- The trees of a part of a collection, with the semicolon behind it. -/
def Item.trees : Item → List SyntaxTree
  | .field declared => [declared.tree, mark ';']
  | .function declared => [declared.tree]
  | .index declared => [declared.tree, mark ';']

/-- The tree of a collection. -/
def Collection.tree (collection : Collection) : SyntaxTree :=
  .part collection.position (collection.decorators.map Decorator.tree ++
    word "collection" :: word collection.name :: braced (collection.items.flatMap Item.trees))

/-- The tree of a declaration. -/
def Declaration.tree : Declaration → SyntaxTree
  | .collection declared => declared.tree
  | .function declared => declared.tree

/-- The trees of a program. -/
def Program.trees (program : Program) : List SyntaxTree := program.declarations.map Declaration.tree

/-! ### Lists of parts -/

theorem fieldsTrees_eq_flatMap (fields : List Field) :
    fieldsTrees fields = fields.flatMap fun field => [field.tree, mark ';'] := by
  induction fields with
  | nil => rw [fieldsTrees, List.flatMap_nil]
  | cons field rest ih => rw [fieldsTrees, ih, List.flatMap_cons]; rfl

theorem argumentsTrees_eq_map (arguments : List Expression) :
    argumentsTrees arguments = arguments.map fun argument => [argument.tree] := by
  induction arguments with
  | nil => rw [argumentsTrees, List.map_nil]
  | cons argument rest ih => rw [argumentsTrees, ih, List.map_cons]

theorem statementsTrees_eq_map (statements : List Statement) :
    statementsTrees statements = statements.map Statement.tree := by
  induction statements with
  | nil => rw [statementsTrees, List.map_nil]
  | cons statement rest ih => rw [statementsTrees, ih, List.map_cons]

/-! ## The signs of these trees -/

theorem SyntaxTree.signsOf_map {α : Type} (items : List α) (tree : α → SyntaxTree) :
    signsOf (items.map tree) = items.flatMap fun item => (tree item).signs := by
  rw [List.map_eq_flatMap, signsOf_flatMap]
  simp only [signsOf_cons, signsOf_nil, List.append_nil]

theorem SyntaxTree.signsOf_map_leaf (signs : List Sign) : signsOf (signs.map .leaf) = signs := by
  rw [signsOf_map]
  simp only [signs_leaf, List.flatMap_singleton']

open SyntaxTree (signsOf_map)

@[simp] theorem SyntaxTree.signs_mark (character : Char) :
    (mark character).signs = [.mark character] := signs_leaf _

@[simp] theorem SyntaxTree.signs_word (spelling : String) :
    (word spelling).signs = [.word spelling] := signs_leaf _

@[simp] theorem Decorator.signs_tree (decorator : Decorator) :
    decorator.tree.signs = decorator.signs := by
  rw [tree, SyntaxTree.signs_part, SyntaxTree.signsOf_map_leaf]

mutual

theorem SchemaType.signs_tree (type : SchemaType) : type.tree.signs = type.signs := by
  cases type with
  | basic place type array => cases array <;> simp [SchemaType.tree, SchemaType.signs]
  | map place key value =>
      simp [SchemaType.tree, SchemaType.signs, value.signs_tree, Sign.between]
  | object place fields => simp [SchemaType.tree, SchemaType.signs, signsOf_fieldsTrees]
  | foreign place name => simp [SchemaType.tree, SchemaType.signs]

theorem Field.signs_tree (field : Field) : field.tree.signs = field.signs := by
  obtain ⟨place, decorators, name, optional, type⟩ := field
  cases optional <;> simp [Field.tree, Field.signs, type.signs_tree, signsOf_map]

theorem signsOf_fieldsTrees (fields : List Field) :
    signsOf (fieldsTrees fields) = fieldsSigns fields := by
  cases fields with
  | nil => rw [fieldsTrees, fieldsSigns, SyntaxTree.signsOf_nil]
  | cons field rest =>
      simp [fieldsTrees, fieldsSigns, field.signs_tree, signsOf_fieldsTrees rest]

end

mutual

theorem Value.signs_tree (value : Value) : value.tree.signs = value.signs := by
  cases value with
  | call place callee arguments =>
      simp [Value.tree, Value.signs, signsOf_argumentsTrees]
  | enclosed place inner => simp [Value.tree, Value.signs, inner.signs_tree]
  | _ => simp [Value.tree, Value.signs]

theorem Expression.signs_tree (expression : Expression) :
    expression.tree.signs = expression.signs := by
  cases expression with
  | single place left => simp [Expression.tree, Expression.signs, left.signs_tree]
  | binary place left operator right =>
      simp [Expression.tree, Expression.signs, left.signs_tree, right.signs_tree]

theorem signsOf_argumentsTrees (arguments : List Expression) :
    (argumentsTrees arguments).map signsOf = argumentsSigns arguments := by
  cases arguments with
  | nil => rw [argumentsTrees, argumentsSigns, List.map_nil]
  | cons argument rest =>
      simp [argumentsTrees, argumentsSigns, argument.signs_tree, signsOf_argumentsTrees rest]

end

attribute [simp] SchemaType.signs_tree Field.signs_tree Value.signs_tree Expression.signs_tree

@[simp] theorem Let.signs_tree (binding : Let) : binding.tree.signs = binding.signs := by
  simp [tree, signs]

@[simp] theorem SmallStatement.signsOf_trees (small : SmallStatement) :
    signsOf small.trees = small.signs := by
  cases small <;> simp [trees, signs]

@[simp] theorem SimpleStatement.signs_tree (statement : SimpleStatement) :
    statement.tree.signs = statement.signs := by
  simp [tree, signs]

@[simp] theorem ForInit.signs_tree (init : ForInit) : init.tree.signs = init.signs := by
  cases init <;> simp [tree, signs]

mutual

theorem Statement.signs_tree (statement : Statement) :
    statement.tree.signs = statement.signs := by
  cases statement with
  | «if» place condition thenBranch elseBranch =>
      cases absent : elseBranch.isAbsent <;>
        simp [Statement.tree, Statement.signs, absent, thenBranch.signsOf_trees,
          elseBranch.signsOf_trees]
  | «while» place condition body =>
      simp [Statement.tree, Statement.signs, signsOf_statementsTrees]
  | «for» place init condition post body =>
      simp [Statement.tree, Statement.signs, signsOf_statementsTrees]
  | simple statement => simp [Statement.tree, Statement.signs]

theorem Branch.signsOf_trees (branch : Branch) : signsOf branch.trees = branch.signs := by
  cases branch with
  | block body => simp [Branch.trees, Branch.signs, signsOf_statementsTrees]
  | simple statement => simp [Branch.trees, Branch.signs]
  | absent => simp [Branch.trees, Branch.signs]

theorem signsOf_statementsTrees (statements : List Statement) :
    signsOf (statementsTrees statements) = statementsSigns statements := by
  cases statements with
  | nil => rw [statementsTrees, statementsSigns, SyntaxTree.signsOf_nil]
  | cons statement rest =>
      simp [statementsTrees, statementsSigns, statement.signs_tree, signsOf_statementsTrees rest]

end

attribute [simp] Statement.signs_tree Branch.signsOf_trees

@[simp] theorem IndexField.signs_tree (field : IndexField) : field.tree.signs = field.signs := by
  rw [tree, SyntaxTree.signs_part, SyntaxTree.signsOf_map_leaf]

@[simp] theorem Index.signs_tree (index : Index) : index.tree.signs = index.signs := by
  simp [tree, signs, Function.comp_def]

@[simp] theorem Function.signs_tree (function : Function) :
    function.tree.signs = function.signs := by
  obtain ⟨place, decorators, name, parameters, result, statements⟩ := function
  cases result <;> simp [tree, signs, signsOf_map, Function.comp_def]

@[simp] theorem Item.signsOf_trees (item : Item) : signsOf item.trees = item.signs := by
  cases item <;> simp [trees, signs]

@[simp] theorem Collection.signs_tree (collection : Collection) :
    collection.tree.signs = collection.signs := by
  simp [tree, signs, signsOf_map, SyntaxTree.signsOf_flatMap]

@[simp] theorem Declaration.signs_tree (declaration : Declaration) :
    declaration.tree.signs = declaration.signs := by
  cases declaration <;> simp [tree, signs]

/-- From left to right, the signs of its trees are the signs of a program. -/
theorem Program.signsOf_trees (program : Program) : signsOf program.trees = program.signs := by
  simp [trees, signs, signsOf_map]

end CollectionSchema
