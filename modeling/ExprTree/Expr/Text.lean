import ExprTree.Binary.Shortest
import ExprTree.Expr.Basic

/-!
# Printed expressions, values and failures

The readable rendering used in diagnostics. Expressions, values and failures print one another: a
constant prints its value, a quoted lambda its expression, a failure the expression it arose at.

## Main definitions

* `Expr.text`, `Value.text`, `EvalError.text`: the printed forms.
* `Expr.debugText`: an expression with its type.
* `BuildError.text`, `SubstituteError.text`: the messages of the failures that hold no expression.
-/

set_option autoImplicit false

namespace ExprTree

/-- Text in code quotes. -/
def codeQuoted (s : String) : String := "\x60" ++ s ++ "\x60"

/-- Texts separated by commas. -/
def commaSeparated (texts : List String) : String := String.intercalate ", " texts

/-- The message of a lambda that cannot be built. -/
def BuildError.text : BuildError → String
  | notAParameter i => "lambda parameter #" ++ toString i ++ " is not a parameter expression"
  | duplicateParameter n => "lambda parameter name " ++ codeQuoted n ++ " is declared twice"

/-- The name of the way in which a lambda cannot be built. -/
def BuildError.kindName : BuildError → String
  | notAParameter _ => "NotAParameter"
  | duplicateParameter _ => "DuplicateParameter"

/-- The message of replacements that do not fit. -/
def SubstituteError.text : SubstituteError → String
  | arityMismatch expected found =>
    "lambda takes " ++ toString expected ++ " parameters but " ++ toString found ++
      " replacements were given"
  | notAssignable i expected found =>
    "replacement #" ++ toString i ++ " of type " ++ codeQuoted found.text ++
      " is not assignable to parameter type " ++ codeQuoted expected.text

/-- The name of the way in which replacements do not fit. -/
def SubstituteError.kindName : SubstituteError → String
  | arityMismatch .. => "ArityMismatch"
  | notAssignable .. => "NotAssignable"

/-- The message of a rewrite rule that failed on a site. -/
def ruleFailureText (rule site cause : String) : String :=
  "rewrite rule " ++ codeQuoted rule ++ " failed on " ++ codeQuoted site ++ ": " ++ cause

/-- A binary operator between, or in front of, its printed operands. -/
def BinaryOp.textOf (op : BinaryOp) (method : Option MethodDef) (left right : String) : String :=
  match method, op with
  | some m, _ => m.name ++ "(" ++ left ++ ", " ++ right ++ ")"
  | none, .power => "pow(" ++ left ++ ", " ++ right ++ ")"
  | none, op => "(" ++ left ++ " " ++ op.symbol ++ " " ++ right ++ ")"

/-- A unary operator around its printed operand. Conversions show the type they lead to. -/
def UnaryOp.textOf (op : UnaryOp) (operand : String) (ty : Ty) : String :=
  match op with
  | .convert | .convertChecked => op.name ++ "(" ++ operand ++ ", " ++ ty.text ++ ")"
  | .typeAs => "(" ++ operand ++ " as " ++ ty.text ++ ")"
  | .negate | .negateChecked => "-" ++ operand
  | .not => "!" ++ operand
  | .onesComplement => "~" ++ operand
  | .unaryPlus => "+" ++ operand
  | .arrayLength => operand ++ ".len"

/-- A parameter list in front of a printed body. A single parameter has no parentheses. -/
def lambdaText (params : List Param) (body : String) : String :=
  match params with
  | [p] => p.name ++ " => " ++ body
  | ps => "(" ++ commaSeparated (ps.map Param.name) ++ ") => " ++ body

/-- The printed form of an enum value: its variant, or its raw value if no variant has it. -/
def EnumDef.textOf (d : EnumDef) (raw : Word) : String :=
  match d.variantName? raw with
  | some variant => d.name ++ "." ++ variant
  | none => d.name ++ "(" ++ raw.text ++ ")"

mutual

/-- The printed form of a value. -/
def Value.text : Value → String
  | .null => "null"
  | .void => "()"
  | .bool b => if b then "true" else "false"
  | .char c => Text.quoteChar c
  | .int w => w.text
  | .f32 bits => Binary.single.text bits.toNat
  | .f64 bits => Binary.double.text bits.toNat
  | .str s => Text.quoteString s
  | .ofEnum d raw => d.textOf raw
  | .array _ items => "[" ++ commaSeparated (Value.texts items) ++ "]"
  | .object _ c _ => "<" ++ c.name ++ ">"
  | .lambda e => e.text
  | .error d => "<error: " ++ d.text ++ ">"

/-- The printed forms of several values. -/
def Value.texts : List Value → List String
  | [] => []
  | v :: vs => v.text :: Value.texts vs

/-- The printed form of an expression. -/
def Expr.text : Expr → String
  | .constant _ v => v.text
  | .parameter p => p.name
  | .binary _ op _ method left right _ => op.textOf method left.text right.text
  | .unary s op _ _ operand => op.textOf operand.text s.ty
  | .conditional _ test ifTrue ifFalse =>
    "IIF(" ++ test.text ++ ", " ++ ifTrue.text ++ ", " ++ ifFalse.text ++ ")"
  | .member _ receiver d => Expr.receiverText receiver ++ d.name
  | .call _ receiver method args =>
    Expr.receiverText receiver ++ method.name ++ "(" ++ commaSeparated (Expr.texts args) ++ ")"
  | .new _ ctor args => "new " ++ ctor.ty.text ++ "(" ++ commaSeparated (Expr.texts args) ++ ")"
  | .newArray _ element items =>
    "new " ++ element.text ++ "[] \x7b" ++ commaSeparated (Expr.texts items) ++ "\x7d"
  | .index _ receiver _ args => receiver.text ++ "[" ++ commaSeparated (Expr.texts args) ++ "]"
  | .typeIs _ operand target => "(" ++ operand.text ++ " is " ++ target.text ++ ")"
  | .lambda _ params body => lambdaText params body.text
  | .raise _ payload => "raise(" ++ payload.text ++ ")"
  | .extension _ kind _ => "<" ++ kind.name ++ ">"

/-- The printed forms of several expressions. -/
def Expr.texts : List Expr → List String
  | [] => []
  | e :: es => e.text :: Expr.texts es

/-- A receiver in front of the member selected on it. -/
def Expr.receiverText : Option Expr → String
  | none => ""
  | some e => e.text ++ "."

/-- The message of a captured failure. -/
def Deferred.text : Deferred → String
  | .mk _ cause => cause.text

/-- The message of a failure that can be captured. -/
def Failure.text : Failure → String
  | .host message => message
  | .eval e => e.text
  | .expansion rule site cause =>
    ruleFailureText rule site.text cause.text

/-- The message of a failure of evaluation. -/
def EvalError.text : EvalError → String
  | .overflow operation => "arithmetic overflow in " ++ operation
  | .invalidCast value target => "cannot convert " ++ value ++ " to " ++ codeQuoted target.text
  | .divideByZero => "division by zero"
  | .nullReference context => "null reference in " ++ context
  | .indexOutOfRange i length =>
    "index " ++ toString i ++ " is out of range for length " ++ toString length
  | .unsupported what => what ++ " is not supported"
  | .unboundParameter name => "parameter " ++ codeQuoted name ++ " is not bound"
  | .argumentCount expected found =>
    "expected " ++ toString expected ++ " arguments, found " ++ toString found
  | .shapeMismatch expected found =>
    "lambda of type " ++ codeQuoted found.text ++ " does not have the shape " ++
      codeQuoted expected.text
  | .host message => message
  | .deferred d => d.text
  | .expansion rule site cause =>
    ruleFailureText rule site.text cause.text
  | .depthExceeded limit =>
    "expansion exceeded " ++ toString limit ++ " nested rule applications"
  | .structural e => e.text
  | .substitute e => e.text
  | .dynamic site cause => "evaluation of " ++ codeQuoted site.text ++ " failed: " ++ cause.text

/-- The message of trees that could not be compared. -/
def StructureError.text : StructureError → String
  | .unsupported kind => codeQuoted kind.name ++ " expressions are outside the supported subset"
  | .comparison left right _ =>
    "could not compare " ++ codeQuoted left.text ++ " and " ++ codeQuoted right.text

end

/-- An expression with its type. -/
def Expr.debugText (e : Expr) : String := "Expr(" ++ e.text ++ ": " ++ e.ty.text ++ ")"

end ExprTree
