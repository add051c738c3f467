import JavaAtlas.Model.Kinds

namespace JavaAtlas

/-! # Declarations, members and references -/

/-- A type as it is written, and its full name where that could be told. -/
structure TypeRef where
  text : String
  resolved : Option String := none
deriving DecidableEq, Inhabited, Repr

/-- A parameter of a method or constructor. -/
structure Param where
  name : String
  type : TypeRef
  varargs : Bool := false
deriving DecidableEq, Inhabited, Repr

/-- A source file: where it is, relative to the project or, for a library, absolute. -/
structure SourceUnit where
  path : String
  name : String
  /-- Whether it is on disk now. -/
  onDisk : Bool := true
deriving DecidableEq, Inhabited, Repr

/-- A stretch of a source text: lines from one, bytes from zero, the last byte not included. -/
structure SourceRange where
  startLine : Int := 1
  endLine : Int := 1
  startByte : Int := 0
  endByte : Int := 0
deriving DecidableEq, Inhabited, Repr

/-- Whether `inner` lies inside `outer`, as bytes. -/
def SourceRange.holds (outer inner : SourceRange) : Bool :=
  outer.startByte ≤ inner.startByte && inner.endByte ≤ outer.endByte

/-- A type declaration as found in an index. -/
structure Declaration where
  id : Nat := 0
  qualname : String
  name : String
  kind : DeclKind := .ofClass
  modifiers : Modifiers := {}
  package : String := ""
  superclass : Option TypeRef := none
  interfaces : List TypeRef := []
  annotations : List String := []
  /-- The full name of the declaration around it. -/
  outer : Option String := none
  unit : SourceUnit
  origin : Origin := .project
  startLine : Int := 1
  endLine : Int := 1
deriving DecidableEq, Inhabited, Repr

/-- A member of a declaration as found in an index. -/
structure Member where
  id : Nat := 0
  kind : MemberKind
  name : String
  /-- The full name of its declaration. -/
  owner : String := ""
  /-- The type of a field or the result of a method; constructors have none. -/
  type : Option TypeRef := none
  modifiers : Modifiers := {}
  params : List Param := []
  throws : List TypeRef := []
  annotations : List String := []
  hasBody : Bool := false
  hasInitializer : Bool := false
  fileName : String := ""
  startLine : Int := 1
  endLine : Int := 1
deriving DecidableEq, Inhabited, Repr

/-- What a name stands for. -/
inductive Resolution where
  | notFound
  | single (declaration : Declaration)
  /-- Several declarations, by their full names in order. -/
  | ambiguous (names : List String)
deriving DecidableEq, Inhabited, Repr

/-- A reference to a method or constructor, found for a member. -/
structure ReferenceSite where
  id : Nat := 0
  kind : RefKind
  path : String
  fileName : String
  line : Int
  startByte : Int
  endByte : Int
  /-- The text of the call, where it is one. -/
  callText : Option String
  /-- It matches by name and number of arguments only: what it is called on is not known. -/
  unresolvedReceiver : Bool
deriving DecidableEq, Inhabited, Repr

/-- A diagnostic of a source file. -/
structure Marker where
  severity : Severity := .error
  line : Int := 1
  startByte : Int := 0
  endByte : Int := 0
  message : String := ""
deriving DecidableEq, Inhabited, Repr

/-! ## What one source file declares -/

/-- An import. -/
structure Import where
  path : String
  wildcard : Bool
  isStatic : Bool
  line : Int
deriving DecidableEq, Inhabited, Repr

/-- A type declaration of one file. -/
structure FileDeclaration where
  qualname : String
  name : String
  kind : DeclKind := .ofClass
  modifiers : Modifiers := {}
  superclass : Option TypeRef := none
  interfaces : List TypeRef := []
  annotations : List String := []
  outer : Option String := none
  range : SourceRange := {}
deriving DecidableEq, Inhabited, Repr

/-- A member of a declaration of one file. -/
structure FileMember where
  /-- The number of its declaration in the file. -/
  declIndex : Nat
  kind : MemberKind
  name : String
  type : Option TypeRef := none
  modifiers : Modifiers := {}
  params : List Param := []
  throws : List TypeRef := []
  annotations : List String := []
  hasBody : Bool := false
  hasInitializer : Bool := false
  range : SourceRange := {}
deriving DecidableEq, Inhabited, Repr

/-- Where a chain of calls and fields begins. -/
inductive ChainRoot where
  /-- A value of a type that is written down. -/
  | typed (type : TypeRef)
  /-- The members of the class around it and of those further out. -/
  | implicit
  | this
deriving DecidableEq, Inhabited, Repr

/-- One step from a value to the next. -/
inductive ChainStep where
  | field (name : String)
  | call (name : String) (args : Int)
  /-- A parameter, by number, of a lambda with so many, handed to a method of the value. -/
  | lambdaParam (index arity : Nat)
deriving DecidableEq, Inhabited, Repr

/-- How to get to a value whose type cannot be told from its file alone. -/
structure ReceiverChain where
  root : ChainRoot
  steps : List ChainStep := []
deriving DecidableEq, Inhabited, Repr

/-- The chain with one more step. -/
def ReceiverChain.andThen (c : ReceiverChain) (step : ChainStep) : ReceiverChain :=
  { c with steps := c.steps ++ [step] }

/-- A reference to a method or constructor in one file. -/
structure FileReference where
  kind : RefKind
  name : String
  /-- None for a method reference, which goes with any number. -/
  argCount : Option Int := none
  receiver : Receiver := .implicit
  receiverType : Option TypeRef := none
  receiverChain : Option ReceiverChain := none
  /-- The full name of the declaration around it. -/
  callerClass : Option String := none
  line : Int := 1
  startByte : Int := 0
  endByte : Int := 0
  callText : Option String := none
deriving DecidableEq, Inhabited, Repr

/-- All that is taken from one source file. -/
structure FileSymbols where
  package : String := ""
  imports : List Import := []
  declarations : List FileDeclaration := []
  members : List FileMember := []
  references : List FileReference := []
deriving DecidableEq, Inhabited, Repr

/-- The packages and types all of whose members are imported, statically or not only the latter. -/
def FileSymbols.wildcardImports (f : FileSymbols) : List String :=
  (f.imports.filter fun i => i.wildcard && !i.isStatic).map (·.path)

end JavaAtlas
