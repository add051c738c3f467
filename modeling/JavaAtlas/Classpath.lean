import JavaAtlas.Archive.Zip
import JavaAtlas.ClassFile.Decode
import JavaAtlas.Disk
import JavaAtlas.Java.TypeText
import JavaAtlas.Model.Reports

namespace JavaAtlas

/-! # Compiled classes

A classpath is a list of directories and archives. The class of a dotted name is looked for under
every way of reading the name: all segments but the last as packages first, then with more and
more of the last segments as nested classes.
-/

/-- Where compiled classes are looked for. -/
inductive ClasspathEntry where
  | directory (path : String)
  | archive (path : String)
deriving DecidableEq, Inhabited, Repr

namespace ClasspathEntry

/-- The path of an entry. -/
def path : ClasspathEntry → String
  | .directory p | .archive p => p

/-- Whether a path is that of an archive, by its extension. -/
def isArchive (path : String) : Bool :=
  match Path.extension? path with
  | some e =>
    let e := String.ofList (e.toList.map Char.toLower)
    e == "jar" || e == "zip"
  | none => false

/-- The entry of a path. -/
def ofPath (path : String) : ClasspathEntry :=
  if isArchive path then .archive path else .directory path

end ClasspathEntry

/-- The places where compiled classes are looked for, in order. -/
structure Classpath where
  entries : List ClasspathEntry := []
deriving DecidableEq, Inhabited, Repr

/-- A class as it was found, and where. -/
structure FoundClass where
  content : List UInt8
  location : String
deriving DecidableEq, Repr

namespace Classpath

/-- The classpath of some paths. -/
def ofPaths (paths : List String) : Classpath := ⟨paths.map .ofPath⟩

/-- The directories under a project into which it is usually compiled. -/
def outputDirectories : List String := ["target/classes", "build/classes/java/main"]

/-- The classpath of a project: where it is compiled to, then further paths. -/
def ofProject (root : String) (more : List String) : Classpath :=
  ofPaths (outputDirectories.map (Path.join root) ++ more)

/-- The paths of the entries. -/
def paths (c : Classpath) : List String := c.entries.map fun e => Path.normalize e.path

/-- The name of a class file in which the last `nested` segments are nested classes. -/
def internalName (segments : List String) (nested : Nat) : String :=
  let outer := "/".intercalate (segments.take (segments.length - nested))
  let inner := "$".intercalate (segments.drop (segments.length - nested))
  if outer.isEmpty then inner else outer ++ "/" ++ inner

/-- The segments of a dotted name. Empty ones do not count. -/
def nameSegments (qualname : String) : List String :=
  ((qualname.toList.splitOn '.').map String.ofList).filter (· ≠ "")

/-- The class files to look for, by the nesting that they stand for. -/
def candidates (qualname : String) : List String :=
  let segments := nameSegments qualname
  (List.range segments.length).map fun i => internalName segments (i + 1)

/-- Reads an entry of an archive; none if the archive does not have it. -/
def readArchived (disk : Disk) (path name : String) : Except Failure (Option (List UInt8)) := do
  let archive ← match disk.read path with
    | .ok content => .ok content
    | .error fault => .error (Failure.while ("open " ++ path) (.file fault))
  let entries ← match Archive.entries archive with
    | .ok entries => .ok entries
    | .error e => .error (Failure.while ("read archive " ++ path) e.toFailure)
  match Archive.read? entries archive name with
  | .ok content => .ok content
  | .error e => .error (Failure.while ("read " ++ name ++ " in " ++ path) e.toFailure)

/-- Looks for a class file in one entry. -/
def readIn (disk : Disk) (name : String) : ClasspathEntry → Except Failure (Option FoundClass)
  | .directory dir => do
    let path := Path.join dir name
    if disk.isFile path then
      match disk.read path with
      | .ok content => .ok (some ⟨content.toList, Path.normalize path⟩)
      | .error fault => .error (.while ("read " ++ path) (.file fault))
    else .ok none
  | .archive path => do
    if disk.isFile path then
      return (← readArchived disk path name).map fun content =>
        ⟨content, Path.normalize path ++ "!/" ++ name⟩
    else return none

/-- Looks for a class file in one entry after the other. -/
def readClass (disk : Disk) (name : String) : List ClasspathEntry → Except Failure (Option FoundClass)
  | [] => .ok none
  | e :: rest => do
    match ← readIn disk name e with
    | some found => return some found
    | none => readClass disk name rest

/-- Looks for one class file after the other. -/
def readFirst (c : Classpath) (disk : Disk) : List String → Except Failure (Option FoundClass)
  | [] => .ok none
  | name :: rest => do
    match ← readClass disk (name ++ ".class") c.entries with
    | some found => return some found
    | none => c.readFirst disk rest

end Classpath

namespace ClassFile

/-- The failure that an error is. Text that is not well formed is also its own cause. -/
def ClassError.toFailure (e : ClassError) : Failure :=
  match e with
  | .utf8 fault => .while e.message (.because fault.text)
  | _ => .because e.message

/-- The kind of type that a class file declares. -/
def kindOf (flags : Nat) : DeclKind :=
  if hasFlag flags annotationFlag then .ofAnnotationType
  else if hasFlag flags interfaceFlag then .ofInterface
  else if hasFlag flags enumFlag then .ofEnum
  else .ofClass

/-- A method or constructor of the type called `simpleName`. -/
def ClassMethod.describe (simpleName : String) (m : ClassMethod) : MethodInfo :=
  { name := if m.isConstructor then simpleName else m.name
    returnType := if m.isConstructor then "void" else m.returnType
    parameters := m.params.map fun (name, type) => { name, type }
    modifiers := m.modifiers
    exceptions := m.exceptions
    annotations := m.annotations
    isConstructor := m.isConstructor
    hasBody := m.hasCode }

/-- What a class file tells about the type that it was loaded for. -/
def ParsedClass.describe (c : ParsedClass) (qualname location : String) : ArtifactInfo :=
  let kind := kindOf c.declaredFlags
  let methods := c.methods.map fun m => m.describe (Java.simpleName qualname)
  { qualname, kind, location
    modifiers := modifiersOf .ofClass c.declaredFlags
    superClass :=
      match kind with
      | .ofInterface | .ofAnnotationType => none
      | .ofClass | .ofEnum => c.superClass
    interfaces := c.interfaces
    fields := c.fields.map fun f =>
      { name := f.name
        type := f.type
        modifiers := f.modifiers
        annotations := f.annotations
        hasInitializer := f.hasConstant }
    methods := methods.filter (!·.isConstructor)
    constructors := methods.filter (·.isConstructor)
    innerClasses := c.memberTypes.map fun (_, simple) => qualname ++ "." ++ simple
    annotations := c.annotations }

end ClassFile

/-- The compiled type with a full name; none if there is no class file for it. -/
def Classpath.load (c : Classpath) (disk : Disk) (qualname : String) :
    Except Failure (Option ArtifactInfo) := do
  match ← c.readFirst disk (candidates qualname) with
  | none => return none
  | some found =>
    match ClassFile.parse found.content with
    | .ok parsed => return some (parsed.describe qualname found.location)
    | .error e => .error (.while ("parse class file " ++ found.location) e.toFailure)

end JavaAtlas
