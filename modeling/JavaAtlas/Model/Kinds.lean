namespace JavaAtlas

/-! # Kinds and their names

Every enumeration has one written name per value, and reading is the inverse of writing, except
that a record is read as a class.
-/

/-- The kinds of type declarations. Records count as classes. -/
inductive DeclKind where
  | ofClass
  | ofInterface
  | ofEnum
  | ofAnnotationType
deriving DecidableEq, Inhabited, Repr

namespace DeclKind

/-- The written name. -/
def name : DeclKind → String
  | .ofClass => "class"
  | .ofInterface => "interface"
  | .ofEnum => "enum"
  | .ofAnnotationType => "annotation"

/-- Reads a written name. -/
def parse? : String → Option DeclKind
  | "class" | "record" => some .ofClass
  | "interface" => some .ofInterface
  | "enum" => some .ofEnum
  | "annotation" => some .ofAnnotationType
  | _ => none

end DeclKind

/-- Modifiers of declarations and members, in the order in which they are written. -/
inductive Modifier where
  | isPublic
  | isPrivate
  | isProtected
  | isStatic
  | isFinal
  | isAbstract
  | isSynchronized
  | isVolatile
  | isTransient
  | isNative
deriving DecidableEq, Inhabited, Repr

namespace Modifier

/-- All modifiers in their order. -/
def all : List Modifier :=
  [.isPublic, .isPrivate, .isProtected, .isStatic, .isFinal, .isAbstract, .isSynchronized,
    .isVolatile, .isTransient, .isNative]

/-- The written name. -/
def name : Modifier → String
  | .isPublic => "public"
  | .isPrivate => "private"
  | .isProtected => "protected"
  | .isStatic => "static"
  | .isFinal => "final"
  | .isAbstract => "abstract"
  | .isSynchronized => "synchronized"
  | .isVolatile => "volatile"
  | .isTransient => "transient"
  | .isNative => "native"

/-- Reads a written name. -/
def parse? (text : String) : Option Modifier := all.find? (·.name == text)

end Modifier

/-- A set of modifiers, listed in their order. -/
structure Modifiers where
  toList : List Modifier := []
deriving DecidableEq, Inhabited, Repr

namespace Modifiers

/-- The set of the listed modifiers. -/
def ofList (ms : List Modifier) : Modifiers := ⟨Modifier.all.filter ms.contains⟩

/-- The set of those names that are modifiers. -/
def ofNames (names : List String) : Modifiers := ofList (names.filterMap Modifier.parse?)

/-- The set with one more modifier. -/
def insert (s : Modifiers) (m : Modifier) : Modifiers := ofList (m :: s.toList)

/-- Whether a modifier is in the set. -/
def contains (s : Modifiers) (m : Modifier) : Bool := s.toList.contains m

/-- The written names. -/
def names (s : Modifiers) : List String := s.toList.map Modifier.name

/-- The names with spaces between them. -/
def text (s : Modifiers) : String := " ".intercalate s.names

end Modifiers

/-- Whether a file belongs to the project or to a library. -/
inductive Origin where
  | project
  | library
deriving DecidableEq, Inhabited, Repr

/-- The written name. -/
def Origin.name : Origin → String
  | .project => "project"
  | .library => "library"

/-- Reads a written name; anything but a library is the project. -/
def Origin.parse (text : String) : Origin :=
  if text == "library" then .library else .project

/-- The kinds of members. -/
inductive MemberKind where
  | field
  | method
  | constructor
deriving DecidableEq, Inhabited, Repr

namespace MemberKind

/-- The written name. -/
def name : MemberKind → String
  | .field => "field"
  | .method => "method"
  | .constructor => "constructor"

/-- Reads a written name. -/
def parse? : String → Option MemberKind
  | "field" => some .field
  | "method" => some .method
  | "constructor" => some .constructor
  | _ => none

end MemberKind

/-- The kinds of references to methods and constructors. -/
inductive RefKind where
  | call
  | new
  | methodRef
deriving DecidableEq, Inhabited, Repr

namespace RefKind

/-- The written name. -/
def name : RefKind → String
  | .call => "call"
  | .new => "new"
  | .methodRef => "method_ref"

/-- Reads a written name. -/
def parse? : String → Option RefKind
  | "call" => some .call
  | "new" => some .new
  | "method_ref" => some .methodRef
  | _ => none

end RefKind

/-- How bad a diagnostic is. -/
inductive Severity where
  | error
  | warning
  | info
deriving DecidableEq, Inhabited, Repr

namespace Severity

/-- The written name. -/
def name : Severity → String
  | .error => "error"
  | .warning => "warning"
  | .info => "info"

/-- Reads a written name. -/
def parse? : String → Option Severity
  | "error" => some .error
  | "warning" => some .warning
  | "info" => some .info
  | _ => none

end Severity

/-- On what a member is called. -/
inductive Receiver where
  /-- Nothing: the member is called by its name alone. -/
  | implicit
  | this
  | super
  /-- The name of a type. -/
  | type
  /-- Any other expression. -/
  | expr
deriving DecidableEq, Inhabited, Repr

namespace Receiver

/-- The written name. -/
def name : Receiver → String
  | .implicit => "implicit"
  | .this => "this"
  | .super => "super"
  | .type => "type"
  | .expr => "expr"

/-- Reads a written name. -/
def parse? : String → Option Receiver
  | "implicit" => some .implicit
  | "this" => some .this
  | "super" => some .super
  | "type" => some .type
  | "expr" => some .expr
  | _ => none

end Receiver

/-- Whether a description comes from source text or from a compiled class. -/
inductive Provenance where
  | source
  | compiled
deriving DecidableEq, Inhabited, Repr

/-- The written name. -/
def Provenance.name : Provenance → String
  | .source => "source"
  | .compiled => "compiled"

/-- How far a check got. -/
inductive CheckState where
  | notLoaded
  | alreadyOpen
  | opened
  | analysisTriggered
  | stable
  | timedOut
deriving DecidableEq, Inhabited, Repr

namespace CheckState

/-- All states. -/
def all : List CheckState :=
  [.notLoaded, .alreadyOpen, .opened, .analysisTriggered, .stable, .timedOut]

/-- The written name. -/
def name : CheckState → String
  | .notLoaded => "not_loaded"
  | .alreadyOpen => "already_open"
  | .opened => "opened"
  | .analysisTriggered => "analysis_triggered"
  | .stable => "stable"
  | .timedOut => "timed_out"

/-- Reads a written name. -/
def parse? (text : String) : Option CheckState := all.find? (·.name == text)

end CheckState

/-- Whether the index can be asked. -/
inductive IndexState where
  | ready
  | building
deriving DecidableEq, Inhabited, Repr

/-- The written name. -/
def IndexState.name : IndexState → String
  | .ready => "ready"
  | .building => "building"

/-- Which files a query looks at: those of the project, or also those of libraries. -/
inductive Scope where
  | project
  | all
deriving DecidableEq, Inhabited, Repr

/-- Whether files of an origin are looked at. -/
def Scope.covers : Scope → Origin → Bool
  | .all, _ => true
  | .project, .project => true
  | .project, .library => false

end JavaAtlas
