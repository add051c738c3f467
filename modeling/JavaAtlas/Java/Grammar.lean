import JavaAtlas.Grammar.Rule
import JavaAtlas.Text.IdentifierChars

namespace JavaAtlas.Java

open JavaAtlas.Grammar

/-! # The grammar of Java

The concrete grammar, up to records, sealed types, pattern matching, modules and string
templates. Rules whose name starts with an underscore give no node of their own. The order of
the rules is part of the grammar: among readings of equal merit the parser keeps the one whose
symbols come first.
-/

/-! ## Precedences -/

/-- Precedence of assignments. -/
def assignPrec : Int := 1

/-- Precedence of declarations. -/
def declPrec : Int := 2

/-- Precedence of annotation values. -/
def elementValuePrec : Int := 2

/-- Precedence of the conditional operator. -/
def ternaryPrec : Int := 3

/-- Precedence of comparisons and `instanceof`. -/
def relationPrec : Int := 10

/-- Dynamic precedence of generic types. -/
def genericPrec : Int := 10

/-- Precedence of casts. -/
def castPrec : Int := 14

/-- Precedence of signs, negations, increments and decrements. -/
def unaryPrec : Int := 15

/-- Dynamic precedence of class literals. -/
def classLiteralPrec : Int := 17

/-- The binary operators with their precedences. -/
def binaryOperators : List (String × Int) :=
  [(">", relationPrec), ("<", relationPrec), (">=", relationPrec), ("<=", relationPrec),
   ("==", 9), ("!=", 9), ("&&", 5), ("||", 4), ("+", 12), ("-", 12), ("*", 13), ("/", 13),
   ("&", 8), ("|", 6), ("^", 7), ("%", 13), ("<<", 11), (">>", 11), (">>>", 11)]

/-! ## Tokens -/

/-- One character out of `set`. -/
def anyOf (set : String) : Pattern := .chars (.ofChars set)

/-- One character that is not in `set`. -/
def noneOf (set : String) : Pattern := .chars (CodeRanges.ofChars set).complement

/-- One of the digits `0` to `9`. -/
def digit : Pattern := .chars (.between '0' '9')

/-- One of the digits `0` to `7`. -/
def octalDigit : Pattern := .chars (.between '0' '7')

/-- One hexadecimal digit. -/
def hexDigit : Pattern :=
  .chars (((CodeRanges.between 'A' 'F').union (.between 'a' 'f')).union (.between '0' '9'))

/-- Groups of `body` with one underscore between them. -/
def underscored (body : Pattern) : Pattern :=
  .seq [body, .many (.seq [.text "_", body])]

/-- A decimal number without leading zero; underscores may stand between its digits. -/
def digits : Pattern :=
  .alt [.text "0",
    .seq [.chars (.between '1' '9'),
      .optional (.seq [.optional (.text "_"), .some digit,
        .many (.seq [.some (.text "_"), .some digit])])]]

/-- Decimal digits, in groups. -/
def decimalDigits : Pattern := underscored (.some digit)

/-- Hexadecimal digits, in groups. -/
def hexDigits : Pattern := underscored (.some hexDigit)

/-- The suffix of a long integer. -/
def longSuffix : Pattern := .optional (anyOf "lL")

/-- The exponent of a decimal fraction. -/
def exponent : Pattern := .seq [anyOf "eE", .optional (anyOf "-+"), decimalDigits]

/-- The suffix of a floating-point number. -/
def floatSuffix : Pattern := anyOf "fFdD"

/-- A decimal floating-point number: with a point, with an exponent, or with a suffix. -/
def decimalFloat : Pattern :=
  .alt [
    .seq [decimalDigits, .text ".", .optional decimalDigits, .optional exponent,
      .optional floatSuffix],
    .seq [.text ".", decimalDigits, .optional exponent, .optional floatSuffix],
    .seq [digits, exponent, .optional floatSuffix],
    .seq [digits, .optional exponent, floatSuffix]]

/-- A hexadecimal floating-point number; its exponent is a power of two. -/
def hexFloat : Pattern :=
  .seq [.alt [.text "0x", .text "0X"],
    .alt [.seq [hexDigits, .optional (.text ".")],
      .seq [.optional hexDigits, .text ".", hexDigits]],
    .optional (.seq [anyOf "pP", .optional (anyOf "-+"), digits, .optional floatSuffix])]

/-- What may stand between the quotes of a character literal, which is at least one character. -/
def characterLiteral : Pattern :=
  .seq [.text "'",
    .some (.alt [noneOf "\\'\n", .seq [.text "\\", noneOf "\n"], .text "\\\n"]),
    .text "'"]

/-- An escape in a string. -/
def escapeSequence : Pattern :=
  .seq [.text "\\",
    .alt [
      .chars (((CodeRanges.ofChars "xu").union (.between '0' '7')).complement),
      .times octalDigit 1 2,
      .seq [.text "x", .times hexDigit 2 0],
      .seq [.text "u", .times hexDigit 4 0],
      .seq [.text "u\x7b", .some hexDigit, .text "\x7d"]]]

/-- An identifier, or any word that could be one. -/
def identifier : Pattern :=
  .seq [.chars (xidStartRanges.union (.ofChars "_$")),
    .many (.chars (xidContinueRanges.union (.ofChars "\u00a2_$")))]

/-- A comment between `/*` and `*/`. -/
def blockComment : Pattern :=
  .seq [.text "/*", .many (noneOf "*"), .some (.text "*"),
    .many (.seq [noneOf "/*", .many (noneOf "*"), .some (.text "*")]), .text "/"]

/-! ## Rules -/

/-- A name, or one of the words that are keywords only in some places. -/
def nameWord : Form := .oneOf [ref "identifier", ref "_reserved_identifier"]

/-- The name of a type, which is written like any other name. -/
def typeName : Form := .shownAs "type_identifier" (ref "identifier")

/-- Any number of annotations. -/
def annotations : Form := .many (ref "_annotation")

/-- Modifiers, if there are any. -/
def modifiers : Form := .optional (ref "modifiers")

/-- Tokens and literals. -/
def literalRules : List (String × Form) := [
  ("program", .many (ref "_toplevel_statement")),
  ("_toplevel_statement", .oneOf [ref "statement", ref "method_declaration"]),
  ("_literal", .oneOf (["decimal_integer_literal", "hex_integer_literal", "octal_integer_literal",
    "binary_integer_literal", "decimal_floating_point_literal", "hex_floating_point_literal",
    "true", "false", "character_literal", "string_literal", "null_literal"].map ref)),
  ("decimal_integer_literal", token (.seq [digits, longSuffix])),
  ("hex_integer_literal",
    token (.seq [.alt [.text "0x", .text "0X"], hexDigits, longSuffix])),
  ("octal_integer_literal",
    token (.seq [.alt [.text "0o", .text "0O", .text "0"], underscored (.some octalDigit),
      longSuffix])),
  ("binary_integer_literal",
    token (.seq [.alt [.text "0b", .text "0B"], underscored (.some (.chars (.between '0' '1'))),
      longSuffix])),
  ("decimal_floating_point_literal", token decimalFloat),
  ("hex_floating_point_literal", token hexFloat),
  ("true", lit "true"),
  ("false", lit "false"),
  ("character_literal", token characterLiteral),
  ("string_literal", .oneOf [ref "_string_literal", ref "_multiline_string_literal"]),
  ("_string_literal", .seq [lit "\"",
    .many (.oneOf [ref "string_fragment", ref "escape_sequence", ref "string_interpolation"]),
    lit "\""]),
  ("_multiline_string_literal", .seq [lit "\"\"\"",
    .many (.oneOf [.shownAs "multiline_string_fragment" (ref "_multiline_string_fragment"),
      ref "_escape_sequence", ref "string_interpolation"]),
    lit "\"\"\""]),
  ("string_fragment", immediate (.some (noneOf "\"\\")) 1),
  ("_multiline_string_fragment", .oneOf [
    token (.some (noneOf "\"\\")),
    token (.seq [.text "\"", .many (.alt [noneOf "\"\\", .text "\\\""])])]),
  ("string_interpolation", .seq [lit "\\\x7b", ref "expression", lit "\x7d"]),
  ("_escape_sequence", .oneOf [
    .prec 2 (immediate (.seq [.text "\\", noneOf "bfnrts'\"\\"])),
    .prec 1 (ref "escape_sequence")]),
  ("escape_sequence", immediate escapeSequence),
  ("null_literal", lit "null")]

/-- Expressions that are not primary. -/
def expressionRules : List (String × Form) := [
  ("expression", .oneOf (["assignment_expression", "binary_expression", "instanceof_expression",
    "lambda_expression", "ternary_expression", "update_expression", "primary_expression",
    "unary_expression", "cast_expression", "switch_expression"].map ref)),
  ("cast_expression", .prec castPrec (.oneOf [
    .seq [lit "(", .field "type" (ref "_type"), lit ")", .field "value" (ref "expression")],
    .seq [lit "(", sepBy1 "&" (.field "type" (ref "_type")), lit ")",
      .field "value" (.oneOf [ref "primary_expression", ref "lambda_expression"])]])),
  ("assignment_expression", .precRight assignPrec (.seq [
    .field "left" (.oneOf [ref "identifier", ref "_reserved_identifier", ref "field_access",
      ref "array_access"]),
    .field "operator" (.oneOf (["=", "+=", "-=", "*=", "/=", "&=", "|=", "^=", "%=", "<<=",
      ">>=", ">>>="].map lit)),
    .field "right" (ref "expression")])),
  ("binary_expression", .oneOf (binaryOperators.map fun (operator, level) =>
    .precLeft level (.seq [.field "left" (ref "expression"), .field "operator" (lit operator),
      .field "right" (ref "expression")]))),
  ("instanceof_expression", .prec relationPrec (.seq [
    .field "left" (ref "expression"), lit "instanceof", .optional (lit "final"),
    .oneOf [
      .seq [.field "right" (ref "_type"), .optional (.field "name" nameWord)],
      .field "pattern" (ref "record_pattern")]])),
  ("lambda_expression", .seq [
    .field "parameters" (.oneOf [ref "identifier", ref "formal_parameters",
      ref "inferred_parameters", ref "_reserved_identifier"]),
    lit "->",
    .field "body" (.oneOf [ref "expression", ref "block"])]),
  ("inferred_parameters", .seq [lit "(", commaSep1 nameWord, lit ")"]),
  ("ternary_expression", .precRight ternaryPrec (.seq [
    .field "condition" (ref "expression"), lit "?", .field "consequence" (ref "expression"),
    lit ":", .field "alternative" (ref "expression")])),
  ("unary_expression", .oneOf (["+", "-", "!", "~"].map fun operator =>
    .precLeft unaryPrec (.seq [.field "operator" (lit operator),
      .field "operand" (ref "expression")]))),
  ("update_expression", .precLeft unaryPrec (.oneOf [
    .seq [ref "expression", lit "++"], .seq [ref "expression", lit "--"],
    .seq [lit "++", ref "expression"], .seq [lit "--", ref "expression"]]))]

/-- Primary expressions. -/
def primaryRules : List (String × Form) := [
  ("primary_expression", .oneOf (["_literal", "class_literal", "this", "identifier",
    "_reserved_identifier", "parenthesized_expression", "object_creation_expression",
    "field_access", "array_access", "method_invocation", "method_reference",
    "array_creation_expression", "template_expression"].map ref)),
  ("array_creation_expression", .precRight 0 (.seq [
    lit "new", annotations, .field "type" (ref "_simple_type"),
    .oneOf [
      .seq [.field "dimensions" (.some (ref "dimensions_expr")),
        .field "dimensions" (.optional (ref "dimensions"))],
      .seq [.field "dimensions" (ref "dimensions"), .field "value" (ref "array_initializer")]]])),
  ("dimensions_expr", .seq [annotations, lit "[", ref "expression", lit "]"]),
  ("parenthesized_expression", .seq [lit "(", ref "expression", lit ")"]),
  ("class_literal", .precDynamic classLiteralPrec
    (.seq [ref "_unannotated_type", lit ".", lit "class"])),
  ("object_creation_expression", .oneOf [
    ref "_unqualified_object_creation_expression",
    .seq [ref "primary_expression", lit ".", ref "_unqualified_object_creation_expression"]]),
  ("_unqualified_object_creation_expression", .precRight 0 (.seq [
    lit "new",
    .oneOf [
      .seq [annotations, .field "type_arguments" (ref "type_arguments"), annotations],
      annotations],
    .field "type" (ref "_simple_type"),
    .field "arguments" (ref "argument_list"),
    .optional (ref "class_body")])),
  ("field_access", .seq [
    .field "object" (.oneOf [ref "primary_expression", ref "super"]),
    .optional (.seq [lit ".", ref "super"]),
    lit ".",
    .field "field" (.oneOf [ref "identifier", ref "_reserved_identifier", ref "this"])]),
  ("template_expression", .seq [
    .field "template_processor" (ref "primary_expression"), lit ".",
    .field "template_argument" (ref "string_literal")]),
  ("array_access", .seq [
    .field "array" (ref "primary_expression"), lit "[", .field "index" (ref "expression"),
    lit "]"]),
  ("method_invocation", .seq [
    .oneOf [
      .field "name" nameWord,
      .seq [
        .field "object" (.oneOf [ref "primary_expression", ref "super"]), lit ".",
        .optional (.seq [ref "super", lit "."]),
        .field "type_arguments" (.optional (ref "type_arguments")),
        .field "name" nameWord]],
    .field "arguments" (ref "argument_list")]),
  ("argument_list", .seq [lit "(", commaSep (ref "expression"), lit ")"]),
  ("method_reference", .seq [
    .oneOf [ref "_type", ref "primary_expression", ref "super"], lit "::",
    .optional (ref "type_arguments"), .oneOf [lit "new", ref "identifier"]]),
  ("type_arguments", .seq [
    lit "<", commaSep (.oneOf [ref "_type", ref "wildcard"]), lit ">"]),
  ("wildcard", .seq [annotations, lit "?", .optional (ref "_wildcard_bounds")]),
  ("_wildcard_bounds", .oneOf [
    .seq [lit "extends", ref "_type"], .seq [ref "super", ref "_type"]]),
  ("dimensions", .precRight 0 (.some (.seq [annotations, lit "[", lit "]"]))),
  ("switch_expression", .seq [
    lit "switch", .field "condition" (ref "parenthesized_expression"),
    .field "body" (ref "switch_block")]),
  ("switch_block", .seq [
    lit "\x7b",
    .oneOf [.many (ref "switch_block_statement_group"), .many (ref "switch_rule")],
    lit "\x7d"]),
  ("switch_block_statement_group", .precLeft 0 (.seq [
    .some (.seq [ref "switch_label", lit ":"]), .many (ref "statement")])),
  ("switch_rule", .seq [
    ref "switch_label", lit "->",
    .oneOf [ref "expression_statement", ref "throw_statement", ref "block"]]),
  ("switch_label", .oneOf [
    .seq [lit "case", .oneOf [ref "pattern", commaSep1 (ref "expression")],
      .optional (ref "guard")],
    lit "default"]),
  ("pattern", .oneOf [ref "type_pattern", ref "record_pattern"]),
  ("type_pattern", .seq [ref "_unannotated_type", nameWord]),
  ("record_pattern", .seq [
    .oneOf [ref "identifier", ref "_reserved_identifier", ref "generic_type"],
    ref "record_pattern_body"]),
  ("record_pattern_body", .seq [
    lit "(", commaSep (.oneOf [ref "record_pattern_component", ref "record_pattern"]), lit ")"]),
  ("record_pattern_component", .oneOf [
    ref "underscore_pattern", .seq [ref "_unannotated_type", nameWord]]),
  ("underscore_pattern", lit "_"),
  ("guard", .seq [lit "when", ref "expression"])]

/-- Statements. -/
def statementRules : List (String × Form) := [
  ("statement", .oneOf [
    ref "declaration", ref "expression_statement", ref "labeled_statement", ref "if_statement",
    ref "while_statement", ref "for_statement", ref "enhanced_for_statement", ref "block",
    lit ";", ref "assert_statement", ref "do_statement", ref "break_statement",
    ref "continue_statement", ref "return_statement", ref "yield_statement",
    ref "switch_expression", ref "synchronized_statement", ref "local_variable_declaration",
    ref "throw_statement", ref "try_statement", ref "try_with_resources_statement"]),
  ("block", .seq [lit "\x7b", .many (ref "statement"), lit "\x7d"]),
  ("expression_statement", .seq [ref "expression", lit ";"]),
  ("labeled_statement", .seq [ref "identifier", lit ":", ref "statement"]),
  ("assert_statement", .oneOf [
    .seq [lit "assert", ref "expression", lit ";"],
    .seq [lit "assert", ref "expression", lit ":", ref "expression", lit ";"]]),
  ("do_statement", .seq [
    lit "do", .field "body" (ref "statement"), lit "while",
    .field "condition" (ref "parenthesized_expression"), lit ";"]),
  ("break_statement", .seq [lit "break", .optional (ref "identifier"), lit ";"]),
  ("continue_statement", .seq [lit "continue", .optional (ref "identifier"), lit ";"]),
  ("return_statement", .seq [lit "return", .optional (ref "expression"), lit ";"]),
  ("yield_statement", .seq [lit "yield", ref "expression", lit ";"]),
  ("synchronized_statement", .seq [
    lit "synchronized", ref "parenthesized_expression", .field "body" (ref "block")]),
  ("throw_statement", .seq [lit "throw", ref "expression", lit ";"]),
  ("try_statement", .seq [
    lit "try", .field "body" (ref "block"),
    .oneOf [
      .some (ref "catch_clause"),
      .seq [.many (ref "catch_clause"), ref "finally_clause"]]]),
  ("catch_clause", .seq [
    lit "catch", lit "(", ref "catch_formal_parameter", lit ")", .field "body" (ref "block")]),
  ("catch_formal_parameter", .seq [modifiers, ref "catch_type", ref "_variable_declarator_id"]),
  ("catch_type", sepBy1 "|" (ref "_unannotated_type")),
  ("finally_clause", .seq [lit "finally", ref "block"]),
  ("try_with_resources_statement", .seq [
    lit "try", .field "resources" (ref "resource_specification"), .field "body" (ref "block"),
    .many (ref "catch_clause"), .optional (ref "finally_clause")]),
  ("resource_specification", .seq [
    lit "(", sepBy1 ";" (ref "resource"), .optional (lit ";"), lit ")"]),
  ("resource", .oneOf [
    .seq [modifiers, .field "type" (ref "_unannotated_type"), ref "_variable_declarator_id",
      lit "=", .field "value" (ref "expression")],
    ref "identifier", ref "field_access"]),
  ("if_statement", .precRight 0 (.seq [
    lit "if", .field "condition" (ref "parenthesized_expression"),
    .field "consequence" (ref "statement"),
    .optional (.seq [lit "else", .field "alternative" (ref "statement")])])),
  ("while_statement", .seq [
    lit "while", .field "condition" (ref "parenthesized_expression"),
    .field "body" (ref "statement")]),
  ("for_statement", .seq [
    lit "for", lit "(",
    .oneOf [
      .field "init" (ref "local_variable_declaration"),
      .seq [commaSep (.field "init" (ref "expression")), lit ";"]],
    .field "condition" (.optional (ref "expression")), lit ";",
    commaSep (.field "update" (ref "expression")), lit ")",
    .field "body" (ref "statement")]),
  ("enhanced_for_statement", .seq [
    lit "for", lit "(", modifiers, .field "type" (ref "_unannotated_type"),
    ref "_variable_declarator_id", lit ":", .field "value" (ref "expression"), lit ")",
    .field "body" (ref "statement")])]

/-- Annotations. -/
def annotationRules : List (String × Form) := [
  ("_annotation", .oneOf [ref "marker_annotation", ref "annotation"]),
  ("marker_annotation", .seq [lit "@", .field "name" (ref "_name")]),
  ("annotation", .seq [
    lit "@", .field "name" (ref "_name"), .field "arguments" (ref "annotation_argument_list")]),
  ("annotation_argument_list", .seq [
    lit "(", .oneOf [ref "_element_value", commaSep (ref "element_value_pair")], lit ")"]),
  ("element_value_pair", .seq [
    .field "key" nameWord, lit "=", .field "value" (ref "_element_value")]),
  ("_element_value", .prec elementValuePrec (.oneOf [
    ref "expression", ref "element_value_array_initializer", ref "_annotation"])),
  ("element_value_array_initializer", .seq [
    lit "\x7b", commaSep (ref "_element_value"), .optional (lit ","), lit "\x7d"])]

/-- Modules, packages and imports. -/
def compilationRules : List (String × Form) := [
  ("declaration", .prec declPrec (.oneOf (["module_declaration", "package_declaration",
    "import_declaration", "class_declaration", "record_declaration", "interface_declaration",
    "annotation_type_declaration", "enum_declaration"].map ref))),
  ("module_declaration", .seq [
    annotations, .optional (lit "open"), lit "module", .field "name" (ref "_name"),
    .field "body" (ref "module_body")]),
  ("module_body", .seq [lit "\x7b", .many (ref "module_directive"), lit "\x7d"]),
  ("module_directive", .oneOf (["requires_module_directive", "exports_module_directive",
    "opens_module_directive", "uses_module_directive", "provides_module_directive"].map ref)),
  ("requires_module_directive", .seq [
    lit "requires", .many (.field "modifiers" (ref "requires_modifier")),
    .field "module" (ref "_name"), lit ";"]),
  ("requires_modifier", .oneOf [lit "transitive", lit "static"]),
  ("exports_module_directive", .seq [
    lit "exports", .field "package" (ref "_name"),
    .optional (.seq [lit "to", .field "modules" (ref "_name"),
      .many (.seq [lit ",", .field "modules" (ref "_name")])]),
    lit ";"]),
  ("opens_module_directive", .seq [
    lit "opens", .field "package" (ref "_name"),
    .optional (.seq [lit "to", .field "modules" (ref "_name"),
      .many (.seq [lit ",", .field "modules" (ref "_name")])]),
    lit ";"]),
  ("uses_module_directive", .seq [lit "uses", .field "type" (ref "_name"), lit ";"]),
  ("provides_module_directive", .seq [
    lit "provides", .field "provided" (ref "_name"), lit "with", ref "_name",
    .many (.seq [lit ",", .field "provider" (ref "_name")]), lit ";"]),
  ("package_declaration", .seq [annotations, lit "package", ref "_name", lit ";"]),
  ("import_declaration", .seq [
    lit "import", .optional (lit "static"), ref "_name",
    .optional (.seq [lit ".", ref "asterisk"]), lit ";"]),
  ("asterisk", lit "*")]

/-- Type declarations and their members. -/
def declarationRules : List (String × Form) := [
  ("enum_declaration", .seq [
    modifiers, lit "enum", .field "name" (ref "identifier"),
    .field "interfaces" (.optional (ref "super_interfaces")), .field "body" (ref "enum_body")]),
  ("enum_body", .seq [
    lit "\x7b", commaSep (ref "enum_constant"), .optional (lit ","),
    .optional (ref "enum_body_declarations"), lit "\x7d"]),
  ("enum_body_declarations", .seq [lit ";", .many (ref "_class_body_declaration")]),
  ("enum_constant", .seq [
    modifiers, .field "name" (ref "identifier"),
    .field "arguments" (.optional (ref "argument_list")),
    .field "body" (.optional (ref "class_body"))]),
  ("class_declaration", .seq [
    modifiers, lit "class", .field "name" (ref "identifier"),
    .optional (.field "type_parameters" (ref "type_parameters")),
    .optional (.field "superclass" (ref "superclass")),
    .optional (.field "interfaces" (ref "super_interfaces")),
    .optional (.field "permits" (ref "permits")),
    .field "body" (ref "class_body")]),
  ("modifiers", .some (.oneOf (ref "_annotation" :: (["public", "protected", "private",
    "abstract", "static", "final", "strictfp", "default", "synchronized", "native", "transient",
    "volatile", "sealed", "non-sealed"].map lit)))),
  ("type_parameters", .seq [lit "<", commaSep1 (ref "type_parameter"), lit ">"]),
  ("type_parameter", .seq [annotations, typeName, .optional (ref "type_bound")]),
  ("type_bound", .seq [
    lit "extends", ref "_type", .many (.seq [lit "&", ref "_type"])]),
  ("superclass", .seq [lit "extends", ref "_type"]),
  ("super_interfaces", .seq [lit "implements", ref "type_list"]),
  ("type_list", .seq [ref "_type", .many (.seq [lit ",", ref "_type"])]),
  ("permits", .seq [lit "permits", ref "type_list"]),
  ("class_body", .seq [lit "\x7b", .many (ref "_class_body_declaration"), lit "\x7d"]),
  ("_class_body_declaration", .oneOf [
    ref "field_declaration", ref "record_declaration", ref "method_declaration",
    ref "compact_constructor_declaration", ref "class_declaration", ref "interface_declaration",
    ref "annotation_type_declaration", ref "enum_declaration", ref "block",
    ref "static_initializer", ref "constructor_declaration", lit ";"]),
  ("static_initializer", .seq [lit "static", ref "block"]),
  ("constructor_declaration", .seq [
    modifiers, ref "_constructor_declarator", .optional (ref "throws"),
    .field "body" (ref "constructor_body")]),
  ("_constructor_declarator", .seq [
    .field "type_parameters" (.optional (ref "type_parameters")),
    .field "name" (ref "identifier"), .field "parameters" (ref "formal_parameters")]),
  ("constructor_body", .seq [
    lit "\x7b", .optional (ref "explicit_constructor_invocation"), .many (ref "statement"),
    lit "\x7d"]),
  ("explicit_constructor_invocation", .seq [
    .oneOf [
      .seq [.field "type_arguments" (.optional (ref "type_arguments")),
        .field "constructor" (.oneOf [ref "this", ref "super"])],
      .seq [.field "object" (.oneOf [ref "primary_expression"]), lit ".",
        .field "type_arguments" (.optional (ref "type_arguments")),
        .field "constructor" (ref "super")]],
    .field "arguments" (ref "argument_list"), lit ";"]),
  ("_name", .oneOf [ref "identifier", ref "_reserved_identifier", ref "scoped_identifier"]),
  ("scoped_identifier", .seq [
    .field "scope" (ref "_name"), lit ".", .field "name" (ref "identifier")]),
  ("field_declaration", .seq [
    modifiers, .field "type" (ref "_unannotated_type"), ref "_variable_declarator_list",
    lit ";"]),
  ("record_declaration", .seq [
    modifiers, lit "record", .field "name" (ref "identifier"),
    .optional (.field "type_parameters" (ref "type_parameters")),
    .field "parameters" (ref "formal_parameters"),
    .optional (.field "interfaces" (ref "super_interfaces")),
    .field "body" (ref "class_body")]),
  ("annotation_type_declaration", .seq [
    modifiers, lit "@interface", .field "name" (ref "identifier"),
    .field "body" (ref "annotation_type_body")]),
  ("annotation_type_body", .seq [
    lit "\x7b",
    .many (.oneOf [
      ref "annotation_type_element_declaration", ref "constant_declaration",
      ref "class_declaration", ref "interface_declaration", ref "enum_declaration",
      ref "annotation_type_declaration", lit ";"]),
    lit "\x7d"]),
  ("annotation_type_element_declaration", .seq [
    modifiers, .field "type" (ref "_unannotated_type"), .field "name" nameWord, lit "(", lit ")",
    .field "dimensions" (.optional (ref "dimensions")), .optional (ref "_default_value"),
    lit ";"]),
  ("_default_value", .seq [lit "default", .field "value" (ref "_element_value")]),
  ("interface_declaration", .seq [
    modifiers, lit "interface", .field "name" (ref "identifier"),
    .field "type_parameters" (.optional (ref "type_parameters")),
    .optional (ref "extends_interfaces"), .optional (.field "permits" (ref "permits")),
    .field "body" (ref "interface_body")]),
  ("extends_interfaces", .seq [lit "extends", ref "type_list"]),
  ("interface_body", .seq [
    lit "\x7b",
    .many (.oneOf [
      ref "constant_declaration", ref "enum_declaration", ref "method_declaration",
      ref "class_declaration", ref "interface_declaration", ref "record_declaration",
      ref "annotation_type_declaration", lit ";"]),
    lit "\x7d"]),
  ("constant_declaration", .seq [
    modifiers, .field "type" (ref "_unannotated_type"), ref "_variable_declarator_list",
    lit ";"]),
  ("_variable_declarator_list", commaSep1 (.field "declarator" (ref "variable_declarator"))),
  ("variable_declarator", .seq [
    ref "_variable_declarator_id",
    .optional (.seq [lit "=", .field "value" (ref "_variable_initializer")])]),
  ("_variable_declarator_id", .seq [
    .field "name" (.oneOf [ref "identifier", ref "_reserved_identifier",
      ref "underscore_pattern"]),
    .field "dimensions" (.optional (ref "dimensions"))]),
  ("_variable_initializer", .oneOf [ref "expression", ref "array_initializer"]),
  ("array_initializer", .seq [
    lit "\x7b", commaSep (ref "_variable_initializer"), .optional (lit ","), lit "\x7d"])]

/-- Types, parameters and methods. -/
def typeRules : List (String × Form) := [
  ("_type", .oneOf [ref "_unannotated_type", ref "annotated_type"]),
  ("_unannotated_type", .oneOf [ref "_simple_type", ref "array_type"]),
  ("_simple_type", .oneOf [
    ref "void_type", ref "integral_type", ref "floating_point_type", ref "boolean_type",
    typeName, ref "scoped_type_identifier", ref "generic_type"]),
  ("annotated_type", .seq [.some (ref "_annotation"), ref "_unannotated_type"]),
  ("scoped_type_identifier", .seq [
    .oneOf [typeName, ref "scoped_type_identifier", ref "generic_type"], lit ".", annotations,
    typeName]),
  ("generic_type", .precDynamic genericPrec (.seq [
    .oneOf [typeName, ref "scoped_type_identifier"], ref "type_arguments"])),
  ("array_type", .seq [
    .field "element" (ref "_unannotated_type"), .field "dimensions" (ref "dimensions")]),
  ("integral_type", .oneOf (["byte", "short", "int", "long", "char"].map lit)),
  ("floating_point_type", .oneOf [lit "float", lit "double"]),
  ("boolean_type", lit "boolean"),
  ("void_type", lit "void"),
  ("_method_header", .seq [
    .optional (.seq [.field "type_parameters" (ref "type_parameters"), annotations]),
    .field "type" (ref "_unannotated_type"), ref "_method_declarator",
    .optional (ref "throws")]),
  ("_method_declarator", .seq [
    .field "name" nameWord, .field "parameters" (ref "formal_parameters"),
    .field "dimensions" (.optional (ref "dimensions"))]),
  ("formal_parameters", .seq [
    lit "(",
    .oneOf [
      ref "receiver_parameter",
      .seq [.optional (.seq [ref "receiver_parameter", lit ","]),
        commaSep (.oneOf [ref "formal_parameter", ref "spread_parameter"])]],
    lit ")"]),
  ("formal_parameter", .seq [
    modifiers, .field "type" (ref "_unannotated_type"), ref "_variable_declarator_id"]),
  ("receiver_parameter", .seq [
    annotations, ref "_unannotated_type", .many (.seq [ref "identifier", lit "."]),
    ref "this"]),
  ("spread_parameter", .seq [
    modifiers, ref "_unannotated_type", lit "...", annotations, ref "variable_declarator"]),
  ("throws", .seq [lit "throws", commaSep1 (ref "_type")]),
  ("local_variable_declaration", .seq [
    modifiers, .field "type" (ref "_unannotated_type"), ref "_variable_declarator_list",
    lit ";"]),
  ("method_declaration", .seq [
    modifiers, ref "_method_header", .oneOf [.field "body" (ref "block"), lit ";"]]),
  ("compact_constructor_declaration", .seq [
    modifiers, .field "name" (ref "identifier"), .field "body" (ref "block")]),
  ("_reserved_identifier", .oneOf [
    .prec (-3) (.shownAs "identifier"
      (.oneOf [lit "open", lit "module", lit "record", lit "with", lit "sealed"])),
    .shownAs "identifier" (lit "yield")]),
  ("this", lit "this"),
  ("super", lit "super"),
  ("identifier", token identifier),
  ("line_comment", token (.seq [.text "//", .many (noneOf "\n")])),
  ("block_comment", token blockComment)]

/-- The grammar of Java source files. -/
def grammar : Spec where
  rules := literalRules ++ expressionRules ++ primaryRules ++ statementRules ++ annotationRules ++
    compilationRules ++ declarationRules ++ typeRules
  extras := ["line_comment", "block_comment"]
  blanks := (CodeRanges.between '\t' '\r').union (.ofChars " ")
  supertypes := ["expression", "declaration", "statement", "primary_expression", "_literal",
    "_type", "_simple_type", "_unannotated_type", "module_directive"]
  inlined := ["_name", "_simple_type", "_class_body_declaration", "_variable_initializer"]
  word := "identifier"

end JavaAtlas.Java
