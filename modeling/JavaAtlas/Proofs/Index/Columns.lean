import JavaAtlas.Proofs.Index.Forms
import JavaAtlas.Proofs.Index.Reading

namespace JavaAtlas

/-! # Rows as columns

A row is stored as columns: numbers, texts, and nulls for what is not there. They are written in the
order in which a statement names them, and read by their numbers in the order in which another one
selects them. Kinds are stored by their names, answers as one or zero, and what does not fit into
one column as JSON.

* `DeclarationRow.columns` and those of the other rows: what is written;
* `declarationSelection` and the others: what is selected from rows that belong together;
* `decodeDeclaration` and the others: what is read;
* `decode_declaration` and the others: what is read from the columns of a row is what is read from
  the row.
-/

/-! ## Columns -/

/-- What a column of a row holds. -/
inductive Cell where
  | null
  | int (value : Int)
  | text (value : String)
deriving DecidableEq, Repr

/-- How JSON is printed and parsed. -/
structure JsonText where
  print : Json → String
  parse : String → Option Json

/-- What is printed is parsed back. -/
def JsonText.Keeps (text : JsonText) (j : Json) : Prop := text.parse (text.print j) = some j

namespace Cell

variable {α : Type}

/-- A column of what may not be there. -/
def ofOption (write : α → Cell) : Option α → Cell
  | none => .null
  | some a => write a

/-- An answer. -/
def ofBool (answer : Bool) : Cell := .int (if answer then 1 else 0)

/-- JSON. -/
def json (text : JsonText) (j : Json) : Cell := .text (text.print j)

/-- Reads a number. -/
def int? : Cell → Option Int
  | .int n => some n
  | _ => none

/-- Reads an identity. -/
def id? : Cell → Option Nat
  | .int (.ofNat n) => some n
  | _ => none

/-- Reads a text. -/
def text? : Cell → Option String
  | .text s => some s
  | _ => none

/-- Reads an answer: every number but zero is a yes. -/
def bool? (c : Cell) : Option Bool := do
  return (← c.int?) != 0

/-- Reads what may not be there. -/
def optional? (read : Cell → Option α) : Cell → Option (Option α)
  | .null => some none
  | c => (read c).map some

/-- Reads a name. -/
def name? (parse : String → Option α) (c : Cell) : Option α := do
  parse (← c.text?)

/-- Reads JSON. -/
def json? (text : JsonText) (read : Json → Option α) (c : Cell) : Option α := do
  read (← text.parse (← c.text?))

/-- An answer is read back from the number that is written for it. -/
@[simp]
theorem bool?_ofBool (answer : Bool) : (ofBool answer).bool? = some answer := by
  cases answer <;> rfl

/-- What may be missing is read back if what is there is. -/
theorem optional?_ofOption {write : α → Cell} {read : Cell → Option α} {a? : Option α}
    (h : ∀ a, a? = some a → write a ≠ .null ∧ read (write a) = some a) :
    optional? read (ofOption write a?) = some a? := by
  cases a? with
  | none => rfl
  | some a =>
    obtain ⟨hnull, hread⟩ := h a rfl
    -- null stands for what is not there, so what is there must not be written as null
    have hrun : optional? read (write a) = (read (write a)).map some := by
      cases hcell : write a with
      | null => exact absurd hcell hnull
      | int n => rfl
      | text s => rfl
    exact hrun.trans (congrArg (Option.map some) hread)

/-- A tree that its text keeps is read back from the text. -/
theorem json?_json {text : JsonText} {read : Json → Option α} {j : Json} {a : α}
    (hkeeps : text.Keeps j) (hread : read j = some a) : (json text j).json? text read = some a := by
  have hrun : (json text j).json? text read = (text.parse (text.print j)).bind read := rfl
  rw [hrun, hkeeps]
  exact hread

end Cell

/-- The columns of a row by their names. -/
abbrev Columns := List (String × Cell)

/-- The tables. -/
inductive TableName where
  | files
  | declarations
  | members
  | references
deriving DecidableEq, Repr

/-- The selected columns of rows that belong together; none if there is no such column. -/
def selectColumns (selection : List (TableName × String)) (rows : TableName → Columns) :
    Option (List Cell) :=
  selection.mapM fun (table, column) => (rows table).lookup column

/-- Reads the column with a number. -/
def columnAt {α : Type} (cells : List Cell) (number : Nat) (read : Cell → Option α) : Option α := do
  read (← cells[number]?)

/-! ## Files -/

/-- Reads the name of an origin. -/
def Origin.read? : String → Option Origin
  | "project" => some .project
  | "library" => some .library
  | _ => none

namespace Index

/-- The columns of a file. -/
def fileColumns : List String :=
  ["path", "name", "origin", "size", "package", "wildcard_imports", "content"]

end Index

/-- What is written of a file. -/
def FileRow.columns (text : JsonText) (f : FileRow) : Columns :=
  ("id", .int f.id) :: Index.fileColumns.zip
    [.text f.path, .text f.name, .text f.origin.name, .int f.size, .text f.package,
      .json text (Json.ofStrs f.wildcardImports), .text f.content]

/-! ## Declarations -/

namespace Index

/-- The columns of a declaration. -/
def declarationColumns : List String :=
  ["file_id", "qualname", "name", "kind", "modifiers", "package", "superclass", "interfaces",
    "annotations", "outer", "start_line", "end_line", "start_byte", "end_byte"]

/-- What is selected of a declaration and its file. -/
def declarationSelection : List (TableName × String) :=
  [(.declarations, "id"), (.declarations, "qualname"), (.declarations, "name"),
    (.declarations, "kind"), (.declarations, "modifiers"), (.declarations, "package"),
    (.declarations, "superclass"), (.declarations, "interfaces"), (.declarations, "annotations"),
    (.declarations, "outer"), (.declarations, "start_line"), (.declarations, "end_line"),
    (.files, "path"), (.files, "name"), (.files, "origin")]

end Index

/-- What is written of a declaration. -/
def DeclarationRow.columns (text : JsonText) (d : DeclarationRow) : Columns :=
  ("id", .int d.id) :: Index.declarationColumns.zip
    [.int d.fileId, .text d.symbol.qualname, .text d.symbol.name, .text d.symbol.kind.name,
      .json text d.symbol.modifiers.toJson, .text d.package,
      .ofOption (fun type => .json text type.toJson) d.symbol.superclass,
      .json text (Json.ofList TypeRef.toJson d.symbol.interfaces),
      .json text (Json.ofStrs d.symbol.annotations), .ofOption .text d.symbol.outer,
      .int d.symbol.range.startLine, .int d.symbol.range.endLine, .int d.symbol.range.startByte,
      .int d.symbol.range.endByte]

/-- Reads a declaration. Whether its file is on disk is not stored. -/
def decodeDeclaration (text : JsonText) (onDisk : String → Bool) (cells : List Cell) :
    Option Declaration := do
  let path ← columnAt cells 12 Cell.text?
  return {
    id := ← columnAt cells 0 Cell.id?
    qualname := ← columnAt cells 1 Cell.text?
    name := ← columnAt cells 2 Cell.text?
    kind := ← columnAt cells 3 (Cell.name? DeclKind.parse?)
    modifiers := ← columnAt cells 4 (Cell.json? text Modifiers.read?)
    package := ← columnAt cells 5 Cell.text?
    superclass := ← columnAt cells 6 (Cell.optional? (Cell.json? text TypeRef.read?))
    interfaces := ← columnAt cells 7 (Cell.json? text (Json.list? TypeRef.read?))
    annotations := ← columnAt cells 8 (Cell.json? text (Json.list? Json.str?))
    outer := ← columnAt cells 9 (Cell.optional? Cell.text?)
    startLine := ← columnAt cells 10 Cell.int?
    endLine := ← columnAt cells 11 Cell.int?
    unit := { path, name := ← columnAt cells 13 Cell.text?, onDisk := onDisk path }
    origin := ← columnAt cells 14 (Cell.name? Origin.read?) }

/-- The columns of a declaration and its file. -/
def declarationTables (text : JsonText) (row : DeclarationRow × FileRow) : TableName → Columns
  | .declarations => row.1.columns text
  | .files => row.2.columns text
  | _ => []

/-- Kinds of declarations are read back from their names. -/
@[simp]
theorem DeclKind.parse?_name (kind : DeclKind) : parse? kind.name = some kind := by
  cases kind <;> rfl

/-- Origins are read back from their names. -/
@[simp]
theorem Origin.read?_name (origin : Origin) : read? origin.name = some origin := by
  cases origin <;> rfl

/-- What is written of a declaration as JSON. -/
def FileDeclaration.trees (d : FileDeclaration) : List Json :=
  [d.modifiers.toJson, Json.ofList TypeRef.toJson d.interfaces, Json.ofStrs d.annotations] ++
    (d.superclass.map TypeRef.toJson).toList

/-- A type that may be missing is read back. -/
theorem optional?_type {text : JsonText} {type : Option TypeRef}
    (hkeeps : ∀ j ∈ (type.map TypeRef.toJson).toList, text.Keeps j) :
    (Cell.ofOption (fun type => .json text type.toJson) type).optional?
      (Cell.json? text TypeRef.read?) = some type := by
  refine Cell.optional?_ofOption fun t ht => ⟨nofun, ?_⟩
  refine Cell.json?_json (hkeeps _ ?_) (TypeRef.read?_toJson t)
  rw [ht]
  exact List.mem_singleton_self _

/-- A text that may be missing is read back. -/
@[simp]
theorem optional?_text (t : Option String) :
    (Cell.ofOption .text t).optional? Cell.text? = some t :=
  Cell.optional?_ofOption fun _ _ => ⟨nofun, rfl⟩

/-- What is read from the columns of a declaration is what is read from its row. -/
theorem decode_declaration (v : IndexView) {text : JsonText} {row : DeclarationRow × FileRow}
    (hset : row.1.symbol.modifiers.IsSet) (hkeeps : ∀ j ∈ row.1.symbol.trees, text.Keeps j) :
    (selectColumns Index.declarationSelection (declarationTables text row)).bind
      (decodeDeclaration text v.isOnDisk) = some (v.declarationOf row) := by
  obtain ⟨d, f⟩ := row
  dsimp only at hset hkeeps
  unfold FileDeclaration.trees at hkeeps
  rw [List.forall_mem_append, List.forall_mem_cons, List.forall_mem_cons,
    List.forall_mem_singleton] at hkeeps
  obtain ⟨⟨hmodifiers, hinterfaces, hannotations⟩, hsuperclass⟩ := hkeeps
  -- every number finds its column; what is left are the columns whose contents have to be read
  have hrun : (selectColumns Index.declarationSelection (declarationTables text (d, f))).bind
      (decodeDeclaration text v.isOnDisk) =
      (DeclKind.parse? d.symbol.kind.name).bind fun kind =>
      ((Cell.json text d.symbol.modifiers.toJson).json? text Modifiers.read?).bind fun modifiers =>
      ((Cell.ofOption (fun type => .json text type.toJson) d.symbol.superclass).optional?
        (Cell.json? text TypeRef.read?)).bind fun superclass =>
      ((Cell.json text (Json.ofList TypeRef.toJson d.symbol.interfaces)).json? text
        (Json.list? TypeRef.read?)).bind fun interfaces =>
      ((Cell.json text (Json.ofStrs d.symbol.annotations)).json? text
        (Json.list? Json.str?)).bind fun annotations =>
      ((Cell.ofOption .text d.symbol.outer).optional? Cell.text?).bind fun outer =>
      (Origin.read? f.origin.name).bind fun origin =>
        some { v.declarationOf (d, f) with
          kind, modifiers, superclass, interfaces, annotations, outer, origin } := rfl
  simp [hrun, Cell.json?_json hmodifiers (Modifiers.read?_toJson hset), optional?_type hsuperclass,
    Cell.json?_json hinterfaces (Json.list?_ofList TypeRef.read?_toJson _),
    Cell.json?_json hannotations (Json.list?_ofStrs _), IndexView.declarationOf]

/-! ## Members -/

namespace Index

/-- The columns of a member. -/
def memberColumns : List String :=
  ["decl_id", "file_id", "kind", "name", "ty", "modifiers", "params", "throws", "annotations",
    "has_body", "has_initializer", "start_line", "end_line", "start_byte", "end_byte"]

/-- What is selected of a member, its declaration and its file. -/
def memberSelection : List (TableName × String) :=
  [(.members, "id"), (.members, "kind"), (.members, "name"), (.declarations, "qualname"),
    (.members, "ty"), (.members, "modifiers"), (.members, "params"), (.members, "throws"),
    (.members, "annotations"), (.members, "has_body"), (.members, "has_initializer"),
    (.files, "name"), (.members, "start_line"), (.members, "end_line")]

end Index

/-- What is written of a member. -/
def MemberRow.columns (text : JsonText) (m : MemberRow) : Columns :=
  ("id", .int m.id) :: Index.memberColumns.zip
    [.int m.declarationId, .int m.fileId, .text m.symbol.kind.name, .text m.symbol.name,
      .ofOption (fun type => .json text type.toJson) m.symbol.type,
      .json text m.symbol.modifiers.toJson, .json text (Json.ofList Param.toJson m.symbol.params),
      .json text (Json.ofList TypeRef.toJson m.symbol.throws),
      .json text (Json.ofStrs m.symbol.annotations), .ofBool m.symbol.hasBody,
      .ofBool m.symbol.hasInitializer, .int m.symbol.range.startLine, .int m.symbol.range.endLine,
      .int m.symbol.range.startByte, .int m.symbol.range.endByte]

/-- Reads a member. -/
def decodeMember (text : JsonText) (cells : List Cell) : Option Member := do
  return {
    id := ← columnAt cells 0 Cell.id?
    kind := ← columnAt cells 1 (Cell.name? MemberKind.parse?)
    name := ← columnAt cells 2 Cell.text?
    owner := ← columnAt cells 3 Cell.text?
    type := ← columnAt cells 4 (Cell.optional? (Cell.json? text TypeRef.read?))
    modifiers := ← columnAt cells 5 (Cell.json? text Modifiers.read?)
    params := ← columnAt cells 6 (Cell.json? text (Json.list? Param.read?))
    throws := ← columnAt cells 7 (Cell.json? text (Json.list? TypeRef.read?))
    annotations := ← columnAt cells 8 (Cell.json? text (Json.list? Json.str?))
    hasBody := ← columnAt cells 9 Cell.bool?
    hasInitializer := ← columnAt cells 10 Cell.bool?
    fileName := ← columnAt cells 11 Cell.text?
    startLine := ← columnAt cells 12 Cell.int?
    endLine := ← columnAt cells 13 Cell.int? }

/-- The columns of a member, its declaration and its file. -/
def memberTables (text : JsonText) (row : MemberRow × DeclarationRow × FileRow) :
    TableName → Columns
  | .members => row.1.columns text
  | .declarations => row.2.1.columns text
  | .files => row.2.2.columns text
  | .references => []

/-- What is written of a member as JSON. -/
def FileMember.trees (m : FileMember) : List Json :=
  [m.modifiers.toJson, Json.ofList Param.toJson m.params, Json.ofList TypeRef.toJson m.throws,
    Json.ofStrs m.annotations] ++ (m.type.map TypeRef.toJson).toList

/-- Kinds of members are read back from their names. -/
@[simp]
theorem MemberKind.parse?_name (kind : MemberKind) : parse? kind.name = some kind := by
  cases kind <;> rfl

/-- What is read from the columns of a member is what is read from its row. -/
theorem decode_member {text : JsonText} {row : MemberRow × DeclarationRow × FileRow}
    (hset : row.1.symbol.modifiers.IsSet) (hkeeps : ∀ j ∈ row.1.symbol.trees, text.Keeps j) :
    (selectColumns Index.memberSelection (memberTables text row)).bind (decodeMember text) =
      some (IndexView.memberOf row) := by
  obtain ⟨m, d, f⟩ := row
  dsimp only at hset hkeeps
  unfold FileMember.trees at hkeeps
  rw [List.forall_mem_append, List.forall_mem_cons, List.forall_mem_cons, List.forall_mem_cons,
    List.forall_mem_singleton] at hkeeps
  obtain ⟨⟨hmodifiers, hparams, hthrows, hannotations⟩, htype⟩ := hkeeps
  -- as for declarations: numbers find their columns, and the contents are left
  have hrun : (selectColumns Index.memberSelection (memberTables text (m, d, f))).bind
      (decodeMember text) =
      (MemberKind.parse? m.symbol.kind.name).bind fun kind =>
      ((Cell.ofOption (fun type => .json text type.toJson) m.symbol.type).optional?
        (Cell.json? text TypeRef.read?)).bind fun type =>
      ((Cell.json text m.symbol.modifiers.toJson).json? text Modifiers.read?).bind fun modifiers =>
      ((Cell.json text (Json.ofList Param.toJson m.symbol.params)).json? text
        (Json.list? Param.read?)).bind fun params =>
      ((Cell.json text (Json.ofList TypeRef.toJson m.symbol.throws)).json? text
        (Json.list? TypeRef.read?)).bind fun throws =>
      ((Cell.json text (Json.ofStrs m.symbol.annotations)).json? text
        (Json.list? Json.str?)).bind fun annotations =>
      (Cell.ofBool m.symbol.hasBody).bool?.bind fun hasBody =>
      (Cell.ofBool m.symbol.hasInitializer).bool?.bind fun hasInitializer =>
        some { IndexView.memberOf (m, d, f) with
          kind, type, modifiers, params, throws, annotations, hasBody, hasInitializer } := rfl
  simp [hrun, optional?_type htype, Cell.json?_json hmodifiers (Modifiers.read?_toJson hset),
    Cell.json?_json hparams (Json.list?_ofList Param.read?_toJson _),
    Cell.json?_json hthrows (Json.list?_ofList TypeRef.read?_toJson _),
    Cell.json?_json hannotations (Json.list?_ofStrs _), IndexView.memberOf]

/-! ## References -/

namespace Index

/-- The columns of a reference. -/
def referenceColumns : List String :=
  ["file_id", "kind", "name", "arg_count", "receiver", "receiver_type", "receiver_chain",
    "caller_class", "line", "start_byte", "end_byte", "call_text"]

/-- What is selected of a reference and its file. -/
def referenceSelection : List (TableName × String) :=
  [(.references, "id"), (.references, "kind"), (.references, "arg_count"),
    (.references, "receiver"), (.references, "receiver_type"), (.references, "caller_class"),
    (.references, "line"), (.references, "start_byte"), (.references, "end_byte"),
    (.references, "call_text"), (.files, "path"), (.files, "name"), (.files, "package"),
    (.files, "wildcard_imports"), (.references, "receiver_chain")]

end Index

/-- What is written of a reference. -/
def ReferenceRow.columns (text : JsonText) (r : ReferenceRow) : Columns :=
  ("id", .int r.id) :: Index.referenceColumns.zip
    [.int r.fileId, .text r.symbol.kind.name, .text r.symbol.name, .ofOption .int r.symbol.argCount,
      .text r.symbol.receiver.name,
      .ofOption (fun type => .json text type.toJson) r.symbol.receiverType,
      .ofOption (fun chain => .json text chain.toJson) r.symbol.receiverChain,
      .ofOption .text r.symbol.callerClass, .int r.symbol.line, .int r.symbol.startByte,
      .int r.symbol.endByte, .ofOption .text r.symbol.callText]

/-- Reads a reference. It has been looked for by its name, which is not selected. -/
def decodeReference (text : JsonText) (name : String) (cells : List Cell) : Option Candidate := do
  let kind ← columnAt cells 1 (Cell.name? RefKind.parse?)
  let callerClass ← columnAt cells 5 (Cell.optional? Cell.text?)
  let line ← columnAt cells 6 Cell.int?
  let startByte ← columnAt cells 7 Cell.int?
  let endByte ← columnAt cells 8 Cell.int?
  let callText ← columnAt cells 9 (Cell.optional? Cell.text?)
  return {
    symbol := {
      kind
      name
      argCount := ← columnAt cells 2 (Cell.optional? Cell.int?)
      receiver := ← columnAt cells 3 (Cell.name? Receiver.parse?)
      receiverType := ← columnAt cells 4 (Cell.optional? (Cell.json? text TypeRef.read?))
      receiverChain := ← columnAt cells 14 (Cell.optional? (Cell.json? text ReceiverChain.read?))
      callerClass
      line
      startByte
      endByte
      callText }
    package := ← columnAt cells 12 Cell.text?
    wildcards := ← columnAt cells 13 (Cell.json? text (Json.list? Json.str?))
    site := {
      id := ← columnAt cells 0 Cell.id?
      kind
      path := ← columnAt cells 10 Cell.text?
      fileName := ← columnAt cells 11 Cell.text?
      line
      startByte
      endByte
      callText
      unresolvedReceiver := false } }

/-- The columns of a reference and its file. -/
def referenceTables (text : JsonText) (row : ReferenceRow × FileRow) : TableName → Columns
  | .references => row.1.columns text
  | .files => row.2.columns text
  | _ => []

/-- What is written of a reference as JSON. -/
def FileReference.trees (r : FileReference) : List Json :=
  (r.receiverType.map TypeRef.toJson).toList ++ (r.receiverChain.map ReceiverChain.toJson).toList

/-- Kinds of references are read back from their names. -/
@[simp]
theorem RefKind.parse?_name (kind : RefKind) : parse? kind.name = some kind := by
  cases kind <;> rfl

/-- Kinds of receivers are read back from their names. -/
@[simp]
theorem Receiver.parse?_name (receiver : Receiver) : parse? receiver.name = some receiver := by
  cases receiver <;> rfl

/-- The way to a receiver that may be missing is read back. -/
theorem optional?_chain {text : JsonText} {chain : Option ReceiverChain}
    (hkeeps : ∀ j ∈ (chain.map ReceiverChain.toJson).toList, text.Keeps j) :
    (Cell.ofOption (fun chain => .json text chain.toJson) chain).optional?
      (Cell.json? text ReceiverChain.read?) = some chain := by
  refine Cell.optional?_ofOption fun c hc => ⟨nofun, ?_⟩
  refine Cell.json?_json (hkeeps _ ?_) (ReceiverChain.read?_toJson c)
  rw [hc]
  exact List.mem_singleton_self _

/-- A number that may be missing is read back. -/
@[simp]
theorem optional?_int (n : Option Int) : (Cell.ofOption .int n).optional? Cell.int? = some n :=
  Cell.optional?_ofOption fun _ _ => ⟨nofun, rfl⟩

/-- What is read from the columns of a reference is what is read from its row. -/
theorem decode_reference {text : JsonText} {row : ReferenceRow × FileRow}
    (hkeeps : ∀ j ∈ row.1.symbol.trees, text.Keeps j)
    (hwildcards : text.Keeps (Json.ofStrs row.2.wildcardImports)) :
    (selectColumns Index.referenceSelection (referenceTables text row)).bind
      (decodeReference text row.1.symbol.name) = some (IndexView.candidateOf row) := by
  obtain ⟨r, f⟩ := row
  dsimp only at hkeeps hwildcards
  unfold FileReference.trees at hkeeps
  rw [List.forall_mem_append] at hkeeps
  obtain ⟨htype, hchain⟩ := hkeeps
  -- the name is not among the columns; a reference is looked for by it
  have hrun : (selectColumns Index.referenceSelection (referenceTables text (r, f))).bind
      (decodeReference text r.symbol.name) =
      (RefKind.parse? r.symbol.kind.name).bind fun kind =>
      ((Cell.ofOption .text r.symbol.callerClass).optional? Cell.text?).bind fun callerClass =>
      ((Cell.ofOption .text r.symbol.callText).optional? Cell.text?).bind fun callText =>
      ((Cell.ofOption .int r.symbol.argCount).optional? Cell.int?).bind fun argCount =>
      (Receiver.parse? r.symbol.receiver.name).bind fun receiver =>
      ((Cell.ofOption (fun type => .json text type.toJson) r.symbol.receiverType).optional?
        (Cell.json? text TypeRef.read?)).bind fun receiverType =>
      ((Cell.ofOption (fun chain => .json text chain.toJson) r.symbol.receiverChain).optional?
        (Cell.json? text ReceiverChain.read?)).bind fun receiverChain =>
      ((Cell.json text (Json.ofStrs f.wildcardImports)).json? text
        (Json.list? Json.str?)).bind fun wildcards =>
        some { IndexView.candidateOf (r, f) with
          symbol := { r.symbol with
            kind, argCount, receiver, receiverType, receiverChain, callerClass, callText }
          wildcards
          site := { (IndexView.candidateOf (r, f)).site with kind, callText } } := rfl
  simp [hrun, optional?_type htype, optional?_chain hchain,
    Cell.json?_json hwildcards (Json.list?_ofStrs _), IndexView.candidateOf]

end JavaAtlas
