import MarkupForms.Text.Alphanumeric
import MarkupForms.Text.Blank
import MarkupForms.Text.Quoted

/-!
# Tokens of binding expressions

A word is a maximal run of alphanumeric characters and underscores. The four punctuation marks stand
for themselves, blanks only separate, and no other character may occur.
-/

namespace MarkupForms.Expression

/-- A token of a binding expression. -/
inductive Token where
  | ident (name : String)
  | eq
  | comma
  | lbrace
  | rbrace
  deriving Repr, DecidableEq

/-- The text of a token in messages. -/
def Token.print : Token → String
  | .ident name => "Ident(" ++ Text.quoteText name ++ ")"
  | .eq => "Eq"
  | .comma => "Comma"
  | .lbrace => "LBrace"
  | .rbrace => "RBrace"

/-- The characters that words consist of. -/
def isWordChar (c : Char) : Bool :=
  Text.isAlphanumeric c || c == '_'

/-- The punctuation mark that a character is. -/
def punctuation? (c : Char) : Option Token :=
  if c = '=' then some .eq
  else if c = ',' then some .comma
  else if c = '{' then some .lbrace
  else if c = '}' then some .rbrace
  else none

/-- The word whose characters were read in reverse, if any, before the tokens that follow it. -/
def closeWord (word : List Char) (tokens : List Token) : List Token :=
  if word.isEmpty then tokens else .ident (String.ofList word.reverse) :: tokens

/-- The tokens of a text in which the characters `word`, last one first, were read of a word. A
character that may not occur is the error. -/
def tokensFrom (word : List Char) : List Char → Except Char (List Token)
  | [] => .ok (closeWord word [])
  | c :: cs =>
    if isWordChar c then tokensFrom (c :: word) cs
    else if Text.isBlank c then (tokensFrom [] cs).map (closeWord word)
    else
      match punctuation? c with
      | some mark => (tokensFrom [] cs).map fun tokens => closeWord word (mark :: tokens)
      | none => .error c

/-- The tokens of a text. -/
def tokens (cs : List Char) : Except Char (List Token) :=
  tokensFrom [] cs

end MarkupForms.Expression
