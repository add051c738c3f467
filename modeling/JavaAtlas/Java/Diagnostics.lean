import JavaAtlas.Java.Extract

namespace JavaAtlas.Java

/-! # Diagnostics of a source file

Syntax errors, members that are declared twice, and imports that nothing uses, each found in the
file alone.
-/

/-- Puts markers in the order of their places. -/
def sortMarkers (ms : List Marker) : List Marker :=
  ms.mergeSort fun a b => a.line < b.line || (a.line == b.line && a.startByte ≤ b.startByte)

/-! ## Syntax errors -/

/-- How many characters of wrong text are shown. -/
def snippetLimit : Nat := 40

/-- Whether a node is itself wrong. -/
def isBad (info : NodeInfo) : Bool := info.missing || info.isError

mutual

/-- The outermost wrong nodes, in the order of the text. -/
def badNodes : Tree → List Tree
  | .node info children =>
    if isBad info then [.node info children]
    else if info.hasError then badNodesOfAll children
    else []

/-- The outermost wrong nodes of nodes side by side. -/
def badNodesOfAll : List Tree → List Tree
  | [] => []
  | t :: rest => badNodes t ++ badNodesOfAll rest

end

/-- What is said of a wrong node. -/
def errorMessage (source : String) (t : Tree) : String :=
  if t.info.missing then "'" ++ t.kind ++ "' expected"
  else
    let snippet := truncateChars (t.squeezed source) snippetLimit
    if snippet.isEmpty then "illegal start of expression"
    else "illegal start of expression near '" ++ snippet ++ "'"

/-- The marker of a wrong node. -/
def errorMarker (source : String) (t : Tree) : Marker :=
  { line := t.startLine
    startByte := t.info.startByte
    endByte := t.info.endByte
    message := errorMessage source t }

/-- Of nodes that begin on the same line, the first. -/
def firstOnLines (seen : List Int) : List Tree → List Tree
  | [] => []
  | t :: rest =>
    if seen.contains t.startLine then firstOnLines seen rest
    else t :: firstOnLines (t.startLine :: seen) rest

/-- The syntax errors of a file, at most one on a line. -/
def syntaxErrors (source : String) (root : Tree) : List Marker :=
  if root.info.hasError then
    sortMarkers ((firstOnLines [] (badNodes root)).map (errorMarker source))
  else []

/-! ## Members declared twice -/

/-- A text without what stands in angle brackets. -/
def withoutTypeArgs (depth : Nat) : List Char → List Char
  | [] => []
  | '<' :: rest => withoutTypeArgs (depth + 1) rest
  | '>' :: rest => withoutTypeArgs (depth - 1) rest
  | c :: rest => if depth = 0 then c :: withoutTypeArgs 0 rest else withoutTypeArgs depth rest

/-- What must not occur twice among the members of a declaration. -/
def memberSignature (m : FileMember) : String :=
  match m.kind with
  | .field => m.name
  | .method | .constructor =>
    let erased := m.params.map fun p =>
      String.ofList (withoutTypeArgs 0 (presentableType p.type.text).toList)
    m.name ++ "(" ++ ",".intercalate erased ++ ")"

/-- What the error calls a member. -/
def memberNoun : MemberKind → String
  | .field => "variable"
  | .method => "method"
  | .constructor => "constructor"

/-- What tells members apart: fields are one kind, methods and constructors another. -/
def memberKey (m : FileMember) : Nat × Bool × String :=
  (m.declIndex, m.kind == .field, memberSignature m)

/-- The members whose key is among those seen or that of an earlier one. -/
def repeated (seen : List (Nat × Bool × String)) : List FileMember → List FileMember
  | [] => []
  | m :: rest =>
    if seen.contains (memberKey m) then m :: repeated seen rest
    else repeated (memberKey m :: seen) rest

/-- The marker of a member that is declared a second time. -/
def duplicateMarker (source : String) (owner : FileDeclaration) (m : FileMember) : Marker :=
  { line := lineOfByte source m.range.startByte.toNat
    startByte := m.range.startByte
    endByte := m.range.endByte
    message := memberNoun m.kind ++ " " ++ memberSignature m ++ " is already defined in " ++
      owner.kind.name ++ " " ++ owner.name }

/-- The members of a file that are declared twice in one declaration. -/
def duplicateMembers (source : String) (symbols : FileSymbols) : List Marker :=
  let owned := symbols.members.filter fun m => m.declIndex < symbols.declarations.length
  (repeated [] owned).filterMap fun m =>
    symbols.declarations[m.declIndex]?.map fun owner => duplicateMarker source owner m

/-! ## Imports that nothing uses -/

mutual

/-- The imports at a node and below it. -/
def importNodes : Tree → List Tree
  | .node info children =>
    match info.kind with
    | "import_declaration" => [.node info children]
    | "package_declaration" => []
    | _ => importNodesOfAll children

/-- The imports of the named ones among nodes side by side. -/
def importNodesOfAll : List Tree → List Tree
  | [] => []
  | t :: rest => (if t.info.named then importNodes t else []) ++ importNodesOfAll rest

end

mutual

/-- The names used at a node and below it, outside imports and the package declaration. -/
def usedNames (source : String) : Tree → List String
  | .node info children =>
    match info.kind with
    | "import_declaration" | "package_declaration" => []
    | "type_identifier" | "identifier" =>
      (Tree.node info children).text source :: usedNamesOfAll source children
    | _ => usedNamesOfAll source children

/-- The names used in the named ones among nodes side by side. -/
def usedNamesOfAll (source : String) : List Tree → List String
  | [] => []
  | t :: rest => (if t.info.named then usedNames source t else []) ++ usedNamesOfAll source rest

end

/-- The imports of single types whose simple name occurs nowhere. -/
def unusedImports (source : String) (root : Tree) : List Marker :=
  let used := usedNames source root
  (importNodes root).filterMap fun t => do
    let i ← importOf? source t
    if i.wildcard || i.isStatic || used.contains (simpleName i.path) then none
    else
      some
        { severity := .warning
          line := i.line
          startByte := t.info.startByte
          endByte := t.info.endByte
          message := "Unused import statement" }

/-- All diagnostics of a file in the order of their places. -/
def analyze (source : String) (root : Tree) : List Marker :=
  sortMarkers (syntaxErrors source root ++ duplicateMembers source (extract source root) ++
    unusedImports source root)

end JavaAtlas.Java
