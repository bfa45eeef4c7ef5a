import MarkupForms.Binding.Mode
import MarkupForms.Expression.Token

/-!
# Binding expressions

`{Binding Name}`, `{Binding Path=Name, Mode=TwoWay}`,
`{Binding Name, Converter={StaticResource upper}, Mode=OneWay}`: a path, and behind it at most one
converter clause and at most one mode clause in either order. `Path=` before the path may be left
out; without the equals sign, `Path` is a path like any other.
-/

namespace MarkupForms.Expression

/-- A binding as it is written: its path, the key of its converter, and its mode. -/
structure BindingExpr where
  path : String
  converter : Option String
  mode : Option BindingMode
  deriving Repr, DecidableEq

/-- What a place in an expression requires. -/
inductive Expectation where
  | bindingKeyword
  | path
  | comma
  | clauseName
  | resourceKeyword
  | resourceKey
  | modeName
  | mark (token : Token)
  deriving Repr, DecidableEq

/-- The text of a requirement. -/
def Expectation.print : Expectation → String
  | .bindingKeyword => "`Binding`"
  | .path => "binding path"
  | .comma => "`,`"
  | .clauseName => "clause name"
  | .resourceKeyword => "`StaticResource`"
  | .resourceKey => "resource key"
  | .modeName => "binding mode"
  | .mark token => token.print

/-- Why a text is no binding expression. -/
inductive Fault where
  | notBraced
  | unexpectedCharacter (c : Char)
  | missingPath
  /-- Another token, or the end, stands where something was required. -/
  | expected (what : Expectation) (found : Option Token)
  | unknownMode (name : String)
  | repeatedClause (name : String)
  | unknownClause (name : String)
  deriving Repr, DecidableEq

/-- The text of a fault. -/
def Fault.message : Fault → String
  | .notBraced => "expected `\x7bBinding ...\x7d`"
  | .unexpectedCharacter c => "unexpected character " ++ Text.quoteChar c
  | .missingPath => "missing binding path"
  | .expected what found =>
    "expected " ++ what.print ++ ", got " ++ (found.map Token.print).getD "Eof"
  | .unknownMode name => BindingMode.unknownMessage name
  | .repeatedClause name => "`" ++ name ++ "` given twice"
  | .unknownClause name => "unknown clause `" ++ name ++ "`"

/-! ## Clauses -/

/-- The complaint about tokens that are no `{StaticResource key}`. -/
def converterFault : List Token → Fault
  | .lbrace :: .ident "StaticResource" :: .ident _ :: rest => .expected (.mark .rbrace) rest.head?
  | .lbrace :: .ident "StaticResource" :: rest => .expected .resourceKey rest.head?
  | .lbrace :: rest => .expected .resourceKeyword rest.head?
  | rest => .expected (.mark .lbrace) rest.head?

/-- The complaint about tokens that do not begin with `, name =`. -/
def clauseFault : List Token → Fault
  | .comma :: .ident _ :: rest => .expected (.mark .eq) rest.head?
  | .comma :: rest => .expected .clauseName rest.head?
  | rest => .expected .comma rest.head?

/-- The expression `expr` with the clauses that the tokens spell. A clause that was given before is
refused before its value is looked at. -/
def withClauses (expr : BindingExpr) : List Token → Except Fault BindingExpr
  | [] => .ok expr
  | .comma :: .ident name :: .eq :: rest =>
    if name = "Converter" ∧ expr.converter = none then
      match rest with
      | .lbrace :: .ident "StaticResource" :: .ident key :: .rbrace :: more =>
        withClauses { expr with converter := some key } more
      | other => .error (converterFault other)
    else if name = "Mode" ∧ expr.mode = none then
      match rest with
      | .ident modeName :: more =>
        match BindingMode.ofName? modeName with
        | some mode => withClauses { expr with mode := some mode } more
        | none => .error (.unknownMode modeName)
      | other => .error (.expected .modeName other.head?)
    else if name = "Converter" ∨ name = "Mode" then .error (.repeatedClause name)
    else .error (.unknownClause name)
  | other => .error (clauseFault other)

/-! ## Whole expressions -/

/-- The expression whose path is next. -/
def withPath : List Token → Except Fault BindingExpr
  | .ident path :: rest => withClauses ⟨path, none, none⟩ rest
  | [] => .error .missingPath
  | other => .error (.expected .path other.head?)

/-- The expression that the tokens between the outer braces spell. -/
def ofTokens : List Token → Except Fault BindingExpr
  | .ident "Binding" :: .ident "Path" :: .eq :: rest => withPath rest
  | .ident "Binding" :: rest => withPath rest
  | other => .error (.expected .bindingKeyword other.head?)

/-- The text between an opening brace at the start and a closing brace at the end. -/
def unbrace? : List Char → Option (List Char)
  | '{' :: cs =>
    match cs.reverse with
    | '}' :: inner => some inner.reverse
    | _ => none
  | _ => none

/-- The binding expression that a text spells; blanks around it do not matter. -/
def BindingExpr.parse (text : String) : Except Fault BindingExpr :=
  match unbrace? (Text.trim text.toList) with
  | none => .error .notBraced
  | some inner =>
    match tokens inner with
    | .error c => .error (.unexpectedCharacter c)
    | .ok ts => ofTokens ts

end MarkupForms.Expression
