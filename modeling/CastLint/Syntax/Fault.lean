import CastLint.Syntax.Span
import CastLint.Text.Quoted

/-! What can be wrong with a program text, and how each mistake is worded. -/

namespace CastLint
namespace Syntax

inductive Fault where
  | unexpectedEnd
  | unexpectedChar (c : Char)
  | unexpected (got wanted : String)
  | expected (wanted got : String)
  | expectedName | expectedIdentifier | expectedSemicolon | expectedStatementEnd
  | expressionExpected
  | unterminatedString | unterminatedTemplate | unterminatedComment | unterminatedRegex
  | expectedDigit (radix : Nat) | expectedExponent | nameAfterNumber | separatorMisplaced
  | legacyOctal | legacyDecimal | octalNumeral | badEscape (wanted : String)
  | unfinishedEscape | unicodeEscapeMalformed | unicodeEscapeExpected
  | escapedKeyword (word : String) | invalidNameChar
  | legacyComment | conflictMarker
  | unknownRegexFlags | repeatedRegexFlag (flag : Char)
  | breakAfterThrow | returnOutside | breakOutside | continueOutside
  | breakLabelUnknown | continueLabelUnknown | labelRepeated (name : String)
  | labelledFunction | labelledGenerator
  | constWithoutValue | patternWithoutValue | declarationNotAllowed
  | trailingComma | emptyDeclaration | manyBindingsInLoop | valueInLoopBinding | typeInLoopBinding
  | patternInForIn | asyncInForOf | awaitLoop | repeatedDefault
  | invalidTarget | notAssignable | assignmentTarget | reservedTarget
  | notPattern | notExpression | restNotLast | restParameterNotLast | commaAfterRest
  | restWithoutName | restWithValue | restOptional | optionalWithValue | patternOptional
  | shorthandValue | reservedShorthand
  | emptyParens | spreadInParens | arrowNotAllowed | breakBeforeArrow
  | reservedName (name : String) | awaitName | awaitOutside | awaitStar | argumentsInField
  | awaitParameter | yieldParameter | unaryInPower | mixedNullish | chainAfterNew | taggedChain
  | superOutside | superCallOutside | superCallOptional | newTargetOutside
  | nonNullNotAllowed (what : String)
  | importMisplaced | importComma
  | deleteName | deleteOperand
  | getterParameter | setterParameter | setterParameterRequired | setterRest
  | strictDirective | bodyInAmbient
  | spaceAfterHash | repeatedConstructor | fieldConstructor | generatorConstructor
  | asyncConstructor | accessorConstructor | readonlyMethod | readonlyAccessor
  | abstractBody | abstractOutside | abstractValue | overrideWithoutBase
  | privateConstructor | modifierOnPrivate (name : String) | privateInInterface
  | modifierRepeated (name : String) | modifierOrder (name before : String)
  | modifierClash (name other : String) | modifierOnConstructor (name : String)
  | modifierMisplaced | asyncMisplaced | declareMisplaced | abstractMisplaced | privateWithAccess
  | modifierOfFunctions (name : String) | modifierOfTypes (name : String)
  | modifierOnTypeParameter (name : String)
  | parameterProperty | parameterPropertyPattern | valueWithoutBody | typeBehindValue
  | constructorTypes | constructorTypeParameters
  | constructorReturnType | indexParameters | computedComma | optionalMember
  | repeatedExtends | manyBases | extendsAfterImplements | repeatedImplements
  | className | interfaceName | interfaceBase | emptyTypeArguments | tupleOrder
  | enumComputed | enumNumeric | importTypeText
  | decoratorOnExport | decoratorsTwice | exportNotAllowed
  | closingTag (name : String) | looseInMarkup (c : Char) | emptyMarkupValue | markupValue
  | withStatement | withInStrict | reservedBinding | invalidImport | reservedImport
  | typeOnTypeImport | typeOnTypeExport | importedText (text : String)
  | exportedText | exportWithoutSource (name : String)
  | usingNotAllowed | usingInForIn | usingDisabled | usingPattern | usingWithoutValue
  | declareInDeclare | abstractInterface
  | tooDeep
deriving DecidableEq, Repr, Inhabited

def digitName : Nat → String
  | 2 => "a binary"
  | 8 => "an octal"
  | 16 => "a hexadecimal"
  | _ => "a decimal"

/-- The names that are offered for a character which markup text cannot hold. -/
def looseInMarkupHint (c : Char) : String :=
  if c = '>' then "`\x7b'>'\x7d` or `&gt;`" else "`\x7b'\x7d'\x7d` or `&rbrace;`"

def Fault.message : Fault → String
  | unexpectedEnd => "Unexpected eof"
  | unexpectedChar c => "Unexpected character " ++ Text.quotedChar c
  | unexpected got wanted => "Unexpected token `" ++ got ++ "`. Expected " ++ wanted
  | expected wanted got => "Expected '" ++ wanted ++ "', got '" ++ got ++ "'"
  | expectedName => "Expected ident"
  | expectedIdentifier => "Expected an identifier"
  | expectedSemicolon => "Expected a semicolon"
  | expectedStatementEnd => "Expected ';', '\x7d' or <eof>"
  | expressionExpected => "Expression expected"
  | unterminatedString => "Unterminated string constant"
  | unterminatedTemplate => "Unterminated template"
  | unterminatedComment => "Unterminated block comment"
  | unterminatedRegex => "Unterminated regexp literal"
  | expectedDigit radix => "Expected " ++ digitName radix ++ " digit"
  | expectedExponent => "Expected +, - or decimal digit after e"
  | nameAfterNumber => "Identifier cannot follow number"
  | separatorMisplaced => "A numeric separator is only allowed between two digits"
  | legacyOctal => "Legacy octal escape is not permitted in strict mode"
  | legacyDecimal => "Legacy decimal escape is not permitted in strict mode"
  | octalNumeral =>
    "Legacy octal literals are not available when targeting ECMAScript 5 and higher"
  | badEscape wanted => "Bad character escape sequence, expected " ++ wanted
  | unfinishedEscape => "Invalid string escape"
  | unicodeEscapeMalformed => "Invalid unicode escape"
  | unicodeEscapeExpected => "Expected unicode escape"
  | invalidNameChar => "Invalid character in identifier"
  | escapedKeyword word => "Unexpected escape sequence in reserved word: " ++ word
  | legacyComment => "Legacy comments cannot be used in module code"
  | conflictMarker => "Merge conflict marker encountered."
  | unknownRegexFlags => "Unknown regular expression flags."
  | repeatedRegexFlag flag =>
    "Duplicated regular expression flag '" ++ String.ofList [flag] ++ "'."
  | breakAfterThrow => "LineBreak cannot follow 'throw'"
  | returnOutside => "Return statement is not allowed here"
  | breakOutside =>
    "A 'break' statement can only be used within an enclosing iteration or switch statement"
  | continueOutside =>
    "A 'continue' statement can only jump to a label of an enclosing iteration statement"
  | breakLabelUnknown => "A 'break' statement can only jump to a label of an enclosing statement"
  | continueLabelUnknown => "Jump target cannot cross function boundary"
  | labelRepeated name => "Label " ++ name ++ " is already declared"
  | labelledFunction =>
    "Function declarations cannot be labelled in strict mode"
  | labelledGenerator => "Generator or async function cannot be labelled"
  | constWithoutValue => "'const' declarations must be initialized"
  | patternWithoutValue => "Destructuring bindings require initializers"
  | declarationNotAllowed => "Declaration is not allowed"
  | trailingComma => "Trailing comma is not allowed"
  | emptyDeclaration => "Variable declaration list cannot be empty"
  | manyBindingsInLoop => "Expected one variable binding"
  | valueInLoopBinding => "Unexpected initializer in for in/of loop"
  | typeInLoopBinding =>
    "The left-hand side of a 'for...of' statement cannot use a type annotation"
  | patternInForIn =>
    "The left-hand side of a 'for...in' statement cannot be a destructuring pattern"
  | asyncInForOf => "The left-hand side of a `for...of` statement may not be `async`"
  | awaitLoop => "for await syntax is valid only for for-of statement"
  | repeatedDefault => "A switch block cannot have multiple defaults"
  | invalidTarget => "Invalid assignment target"
  | notAssignable => "Cannot assign to this"
  | assignmentTarget =>
    "The left-hand side of an assignment expression must be a variable or a property access."
  | reservedTarget => "Invalid use of 'arguments' in strict mode"
  | notPattern => "Not a pattern"
  | notExpression => "Not an expression"
  | restNotLast => "Rest element must be final element"
  | restParameterNotLast => "A rest parameter must be last in a parameter list"
  | commaAfterRest => "Trailing comma isn't permitted after a rest element"
  | restWithoutName => "`...` must be followed by an identifier in declaration contexts"
  | restWithValue => "A rest parameter cannot have an initializer"
  | restOptional => "A rest parameter cannot be optional"
  | optionalWithValue => "Parameter cannot have question mark and initializer"
  | patternOptional =>
    "A binding pattern parameter cannot be optional in an implementation signature."
  | shorthandValue => "assignment property is invalid syntax"
  | reservedShorthand => "Cannot use a reserved word as a shorthand property"
  | emptyParens => "Parenthesized expression cannot be empty"
  | spreadInParens => "Parenthesized expression cannot contain spread operator"
  | arrowNotAllowed => "An arrow function is not allowed here"
  | breakBeforeArrow => "Unexpected line break between arrow head and arrow"
  | reservedName name => "`" ++ name ++ "` cannot be used as an identifier in strict mode"
  | awaitName => "`await` cannot be used as an identifier in an async context"
  | awaitOutside => "await isn't allowed in non-async function"
  | awaitStar =>
    "await* has been removed from the async functions proposal. Use Promise.all() instead."
  | argumentsInField => "'arguments' is only allowed in functions and class methods"
  | awaitParameter => "'await' cannot be used as a parameter within async function"
  | yieldParameter => "'yield' cannot be used as a parameter within generator"
  | unaryInPower => "'**' cannot be applied to unary/await expression."
  | mixedNullish =>
    "Nullish coalescing operator(??) requires parens when mixing with logical operators"
  | chainAfterNew => "Constructor in/after an optional chaining is not allowed."
  | taggedChain => "Tagged template literal is not allowed in optional chain."
  | superOutside => "Invalid access to super"
  | superCallOutside => "Invalid `super()`"
  | superCallOptional => "Super call cannot be optional"
  | newTargetOutside =>
    "'new.target' is only allowed in the body of a function declaration, function expression, or " ++
    "class."
  | nonNullNotAllowed what => "Typescript non-null assertion operator is not allowed with '" ++
    what ++ "'"
  | importMisplaced => "'import', and 'export' cannot be used outside of module code"
  | importComma => "Trailing comma is disallowed inside import(...) arguments"
  | deleteName => "'delete' cannot be called on an identifier in strict mode"
  | deleteOperand => "The operand of a 'delete' operator must be a property reference."
  | getterParameter => "A `get` accessor cannot have parameters"
  | setterParameter => "A `set` accessor should have exactly one parameter"
  | setterParameterRequired => "A `set` accessor should have exactly one required parameter"
  | setterRest => "Rest pattern is not allowed in setter"
  | strictDirective =>
    "Illegal 'use strict' directive in function with non-simple parameter list."
  | bodyInAmbient => "An implementation cannot be declared in ambient contexts"
  | spaceAfterHash => "Unexpected space between # and identifier"
  | repeatedConstructor => "A class can only have one constructor"
  | fieldConstructor => "Classes may not have a non-static field named 'constructor'"
  | generatorConstructor => "A constructor cannot be generator"
  | asyncConstructor => "Constructor can't be an async function"
  | accessorConstructor => "Class constructor can't be an accessor."
  | readonlyMethod => "A method cannot be readonly"
  | readonlyAccessor => "A getter or a setter cannot be readonly"
  | abstractBody => "Abstract method cannot have an implementation."
  | abstractOutside => "Abstract methods can only appear within an abstract class."
  | abstractValue => "Abstract property cannot have an initializer."
  | privateConstructor => "Classes can't have a private field named '#constructor'."
  | modifierOnPrivate name => "'" ++ name ++ "' modifier cannot be used with a private identifier"
  | privateInInterface => "private names are not allowed in interface"
  | overrideWithoutBase =>
    "This member cannot have an 'override' modifier because its containing class does not extend " ++
    "another class."
  | modifierRepeated name => "'" ++ name ++ "' modifier already seen."
  | modifierOrder name before =>
    "'" ++ name ++ "' modifier must precede '" ++ before ++ "' modifier."
  | modifierClash name other =>
    "'" ++ name ++ "' modifier cannot be used with '" ++ other ++ "' modifier."
  | modifierOnConstructor name =>
    "'" ++ name ++ "' modifier cannot appear on a constructor declaration"
  | modifierMisplaced => "Modifiers cannot appear here"
  | asyncMisplaced => "`async` modifier cannot be used here"
  | declareMisplaced => "`declare` modifier cannot appear on class elements of this kind"
  | abstractMisplaced =>
    "`abstract` modifier can only appear on a class or method declaration"
  | privateWithAccess => "An accessibility modifier cannot be used with a private identifier."
  | modifierOfFunctions name =>
    "'" ++ name ++ "' modifier can only appear on a type parameter of a function, method or class"
  | modifierOfTypes name =>
    "'" ++ name ++ "' modifier can only appear on a type parameter of a class, interface or type " ++
    "alias"
  | modifierOnTypeParameter name =>
    "'" ++ name ++ "' modifier cannot appear on a type parameter"
  | parameterPropertyPattern =>
    "Typescript parameter property must be an identifier or assignment pattern"
  | parameterProperty =>
    "A parameter property is only allowed in a constructor implementation"
  | valueWithoutBody =>
    "A parameter initializer is only allowed in a function or constructor implementation"
  | typeBehindValue => "Type annotations must come before default assignments"
  | constructorTypes => "Type parameter list cannot be empty"
  | constructorTypeParameters =>
    "Type parameters cannot appear on a constructor declaration"
  | constructorReturnType => "Type annotation cannot appear on a constructor declaration"
  | indexParameters => "An index signature must have exactly one parameter"
  | computedComma => "A comma expression is not allowed in a computed property name"
  | optionalMember => "An object member cannot be declared optional"
  | repeatedExtends => "`extends` clause already seen."
  | manyBases => "Classes can only extend a single class"
  | extendsAfterImplements => "'extends' clause must precede 'implements' clause."
  | repeatedImplements => "`implements` clause already seen."
  | className => "Invalid class name"
  | interfaceName => "interface name is invalid"
  | interfaceBase =>
    "An interface can only extend an identifier/qualified-name with optional type arguments."
  | emptyTypeArguments => "Type argument list cannot be empty."
  | tupleOrder => "A required element cannot follow an optional element."
  | enumComputed => "Computed property names are not allowed in enums"
  | enumNumeric => "An enum member cannot have a numeric name"
  | importTypeText => "literal in an import type should be string literal"
  | decoratorOnExport =>
    "Using the export keyword between a decorator and a class is not allowed. Please use " ++
    "`export @dec class` instead."
  | decoratorsTwice =>
    "Decorators may not appear after `export` or `export default` if they also appear before " ++
    "`export`."
  | exportNotAllowed => "`export` is not allowed here"
  | closingTag name => "Expected corresponding JSX closing tag for <" ++ name ++ ">"
  | looseInMarkup c => "Unexpected token. Did you mean " ++ looseInMarkupHint c ++ "?"
  | emptyMarkupValue => "JSX attributes must only be assigned a non-empty expression"
  | markupValue => "JSX value should be either an expression or a quoted JSX text"
  | withStatement =>
    "The 'with' statement is not supported. All symbols in a 'with' block will have type 'any'."
  | withInStrict => "With statement are not allowed in strict mode"
  | reservedBinding =>
    "'eval' and 'arguments' cannot be used as a binding identifier in strict mode"
  | invalidImport => "Import is not allowed here"
  | reservedImport => "cannot import as reserved word"
  | typeOnTypeImport =>
    "The 'type' modifier cannot be used on a named import when 'import type' is used on its " ++
    "import statement."
  | importedText text =>
    "A string literal cannot be used as an imported binding.\n- Did you mean `import \x7b \"" ++
    text ++ "\" as foo \x7d`?"
  | typeOnTypeExport =>
    "The 'type' modifier cannot be used on a named export when 'export type' is used on its " ++
    "export statement."
  | exportedText => "A string literal cannot be used as an exported binding without `from`."
  | exportWithoutSource name => "`" ++ name ++ "` cannot be used without `from` clause"
  | usingNotAllowed => "Using declaration is not allowed"
  | usingInForIn => "Using declaration is not allowed in for-in loop"
  | usingDisabled =>
    "Using declaration is not enabled. Set jsc.parser.explicitResourceManagement to true"
  | usingPattern => "Using declaration only allows identifiers"
  | usingWithoutValue => "Using declaration requires initializer"
  | declareInDeclare => "`declare` modifier not allowed for code already in an ambient context"
  | abstractInterface =>
    "`abstract` modifier can only appear on a class or method declaration"
  | tooDeep => "Expression is nested too deeply"

def Fault.isStrict : Fault → Bool
  | legacyOctal | legacyDecimal | legacyComment => true
  | _ => false

/-- How the cause of a token that could not be read is named where the token itself is quoted. -/
def Fault.cause : Fault → String
  | unexpectedEnd => "Eof"
  | unexpectedChar c => "UnexpectedChar \x7b c: " ++ Text.quotedChar c ++ " \x7d"
  | unterminatedTemplate => "UnterminatedTpl"
  | unterminatedComment => "UnterminatedBlockComment"
  | unterminatedRegex => "UnterminatedRegExp"
  | expectedDigit radix => "ExpectedDigit \x7b radix: " ++ toString radix ++ " \x7d"
  | expectedExponent => "NumLitTerminatedWithExp"
  | nameAfterNumber => "IdentAfterNum"
  | badEscape wanted =>
    "BadCharacterEscapeSequence \x7b expected: " ++ Text.quoted wanted ++ " \x7d"
  | unfinishedEscape => "InvalidStrEscape"
  | unicodeEscapeMalformed => "InvalidUnicodeEscape"
  | unicodeEscapeExpected => "ExpectedUnicodeEscape"
  | escapedKeyword word => "EscapeInReservedWord \x7b word: " ++ Text.quoted word ++ " \x7d"
  | legacyOctal => "LegacyOctal"
  | fault => fault.message

structure Issue where
  span : Span
  fault : Fault
deriving DecidableEq, Repr, Inhabited

end Syntax
end CastLint
