import MarkupForms.Decimal.Shortest
import MarkupForms.Text.Quoted
import MarkupForms.Value.Basic

/-!
# Values and kinds in messages

Text is quoted, scalars and members are bare, a list shows its number of rows, and an object is
shown by a description that the graph supplies.
-/

namespace MarkupForms

/-- Floats are positional from a ten-thousandth up to sixteen digits before the point, and always
show a point or an exponent. -/
def floatStyle : Decimal.FloatStyle := ⟨-3, 16⟩

/-- The text of a value; `describe` gives the text of an object. -/
def Value.print (describe : ObjectId → String) : Value → String
  | .text s => Text.quoteText s
  | .int n => Decimal.ofInt n.toInt
  | .float x => floatStyle.write x
  | .bool b => if b then "true" else "false"
  | .enum m => m
  | .object id => describe id
  | .list rows => "[" ++ Decimal.ofNat rows.length ++ " rows]"

/-- The quoted members of an enumeration, between brackets. -/
def EnumInfo.printMembers (info : EnumInfo) : String :=
  "[" ++ ", ".intercalate (info.members.map Text.quoteText) ++ "]"

/-- The text of a kind. -/
def ValueKind.print : ValueKind → String
  | .text => "Str"
  | .int => "Int"
  | .float => "Float"
  | .bool => "Bool"
  | .enum info =>
    "Enum(EnumInfo \x7b name: " ++ Text.quoteText info.name ++ ", members: " ++ info.printMembers ++
      " \x7d)"
  | .object => "Object"
  | .list => "List"

end MarkupForms
