import JavaAtlas.Java.TypeText
import JavaAtlas.Model.Symbols
import JavaAtlas.Text.Excerpt
import JavaAtlas.Tree

namespace JavaAtlas

/-! # Reading the syntax tree of a source file

What the rest of the library asks of a node: the text it covers, its children by place or field,
and the small facts that can be read off one node alone.
-/

/-- The part of a text from one byte up to another. -/
def slice (text : String) (start stop : Nat) : String := String.Pos.Raw.extract text ⟨start⟩ ⟨stop⟩

namespace Tree

/-- The text that a node covers. -/
def rawText (source : String) (t : Tree) : String := slice source t.info.startByte t.info.endByte

/-- The text that a node covers, without white space around it. -/
def text (source : String) (t : Tree) : String := trim (t.rawText source)

/-- The text that a node covers, every run of white space being one space. -/
def squeezed (source : String) (t : Tree) : String := squeeze (t.rawText source)

/-- The line on which a node begins. -/
def startLine (t : Tree) : Int := t.info.startRow + 1

/-- The line on which a node ends. -/
def endLine (t : Tree) : Int := t.info.endRow + 1

/-- The stretch of text that a node covers. -/
def range (t : Tree) : SourceRange :=
  { startLine := t.startLine
    endLine := t.endLine
    startByte := t.info.startByte
    endByte := t.info.endByte }

/-- All children in a field. -/
def fields (t : Tree) (name : String) : List Tree :=
  t.children.filter (·.info.field == some name)

/-- The first named child. -/
def firstNamed? (t : Tree) : Option Tree := t.namedChildren.head?

/-- The last named child. -/
def lastNamed? (t : Tree) : Option Tree := t.namedChildren.getLast?

/-- The named children that are not comments. -/
def parts (t : Tree) : List Tree := t.namedChildren.filter (!·.info.extra)

/-- The first named child of a kind. -/
def namedOf? (t : Tree) (kind : String) : Option Tree := t.namedChildren.find? (·.kind == kind)

/-! ## Children are smaller -/

/-- What goes on with a child of a node comes to an end. -/
theorem sizeOf_lt_of_mem_children {c t : Tree} (h : c ∈ t.children) : sizeOf c < sizeOf t := by
  cases t with
  | node i cs =>
    have := List.sizeOf_lt_of_mem (show c ∈ cs from h)
    simp only [Tree.node.sizeOf_spec]
    omega

/-- The named children are among the children. -/
theorem mem_children_of_mem_namedChildren {c t : Tree} (h : c ∈ t.namedChildren) :
    c ∈ t.children := (List.mem_filter.mp h).1

/-- The child of a field is smaller. -/
theorem sizeOf_lt_of_field? {c t : Tree} {name : String} (h : t.field? name = some c) :
    sizeOf c < sizeOf t := sizeOf_lt_of_mem_children (List.mem_of_find?_eq_some h)

theorem sizeOf_lt_of_firstNamed? {c t : Tree} (h : t.firstNamed? = some c) :
    sizeOf c < sizeOf t :=
  sizeOf_lt_of_mem_children (mem_children_of_mem_namedChildren (List.mem_of_head? h))

theorem sizeOf_lt_of_lastNamed? {c t : Tree} (h : t.lastNamed? = some c) :
    sizeOf c < sizeOf t :=
  sizeOf_lt_of_mem_children (mem_children_of_mem_namedChildren (List.mem_of_getLast? h))

theorem sizeOf_lt_of_namedOf? {c t : Tree} {kind : String} (h : t.namedOf? kind = some c) :
    sizeOf c < sizeOf t :=
  sizeOf_lt_of_mem_children (mem_children_of_mem_namedChildren (List.mem_of_find?_eq_some h))

/-- The parts, which are named children, are smaller. -/
theorem sizeOf_lt_of_mem_parts {c t : Tree} (h : c ∈ t.parts) : sizeOf c < sizeOf t :=
  sizeOf_lt_of_mem_children (mem_children_of_mem_namedChildren (List.mem_filter.mp h).1)

end Tree

namespace Java

/-- The kinds of nodes that declare a type. -/
def isTypeDeclaration (kind : String) : Bool :=
  ["class_declaration", "interface_declaration", "enum_declaration",
    "annotation_type_declaration", "record_declaration"].contains kind

/-- The kinds of nodes that are types. -/
def isTypeNode (kind : String) : Bool :=
  ["type_identifier", "scoped_type_identifier", "generic_type", "array_type", "integral_type",
    "floating_point_type", "boolean_type", "void_type", "annotated_type"].contains kind

/-- Whether a node is a name, simple or dotted. -/
def isNameNode (kind : String) : Bool := kind == "scoped_identifier" || kind == "identifier"

/-- How many characters of the text of a call are kept. -/
def callTextLimit : Nat := 100

/-- The text of a call, cut to the limit. -/
def callText (source : String) (t : Tree) : String :=
  truncateChars (t.rawText source) callTextLimit

/-- The number of arguments in an argument list; none at all count as no arguments. -/
def argCount (arguments : Option Tree) : Int :=
  match arguments with
  | some list => list.parts.length
  | none => 0

/-- The modifiers and annotations in front of a declaration. Of an annotation the last part of
its name is kept. -/
def modifiersOf (source : String) (t : Tree) : Modifiers × List String :=
  match t.children.find? (·.kind == "modifiers") with
  | none => ({}, [])
  | some list =>
    let annotation (c : Tree) : Option String :=
      if (Modifier.parse? c.kind).isNone && (c.kind == "marker_annotation" || c.kind == "annotation")
      then (c.field? "name").map fun name => simpleName (name.text source)
      else none
    (.ofNames (list.children.map (·.kind)), list.children.filterMap annotation)

/-- The type parameters that a declaration introduces. -/
def typeParameters (source : String) (t : Tree) : List String :=
  match t.field? "type_parameters" with
  | none => []
  | some list =>
    (list.namedChildren.filter (·.kind == "type_parameter")).filterMap fun p =>
      (p.namedChildren.find? fun c => c.kind == "type_identifier" || c.kind == "identifier").map
        (·.text source)

/-- The types in the list of a clause such as `implements`. -/
def typesListed (t : Tree) : List Tree :=
  t.namedChildren.flatMap fun c =>
    if c.kind == "type_list" then c.parts
    else if isTypeNode c.kind then [c]
    else []

/-- The import that a node makes; none without a name. -/
def importOf? (source : String) (t : Tree) : Option Import := do
  let name ← (t.children.filter (isNameNode ·.kind)).getLast?
  return {
    path := name.text source
    wildcard := t.children.any (·.kind == "asterisk")
    isStatic := t.children.any (·.kind == "static")
    line := t.startLine }

end Java

end JavaAtlas
