import MarkupForms.Forms.Framework
import MarkupForms.Text.UpperCase

/-!
# The showcase module

A module beside the framework: a page of its own type, a converter that puts text into capitals, and
the page's markup. It shows how types from outside the framework are declared: the page is a content
page in everything but its type, so complaints about its plain properties name the content page.
-/

namespace MarkupForms.Showcase

/-- The module of the showcase, and its namespace. -/
def moduleName : String := "Kiln.Sample"

/-- A type of the showcase: the `index`-th declaration, on top of `base`. -/
def declare (index : Nat) (name : String) (base : Option TypeInfo) (isManaged : Bool)
    (constructor : Option ObjectState) : TypeInfo :=
  TypeInfo.derive
    ⟨⟨moduleName, index⟩, moduleName, moduleName, name, isManaged, .none, [], constructor⟩ base

/-- A new page of the showcase. -/
def newCustomPage : ObjectState :=
  { Forms.newContentPage with implementation := .foreign "CustomPage" }

/-- Puts text into capitals; other values pass. -/
def upperCaseValue : Value → Value
  | .text s => .text (Text.upperCase s)
  | value => value

/-- A new converter to capitals. -/
def newUpperCaseConverter : ObjectState :=
  { ObjectState.bare (.foreign "UpperCaseConverter") "UpperCaseConverter" with
    converter := some upperCaseValue }

def customPage : TypeInfo := declare 0 "CustomPage" (some Forms.contentPage) true
    (some newCustomPage)

def upperCaseConverter : TypeInfo :=
  declare 1 "UpperCaseConverter" none false (some newUpperCaseConverter)

/-- The lines of the page's markup. -/
def markupLines : List String := [
  "<?xml version=\"1.0\" encoding=\"UTF-8\"?>",
  "<ContentPage xmlns=\"http://kiln.dev/forms\"",
  "             xmlns:x=\"http://schemas.microsoft.com/winfx/2006/xaml\"",
  "             xmlns:local=\"clr-namespace:Kiln.Sample\"",
  "             x:Class=\"Kiln.Sample.CustomPage\"",
  "             Title=\"Custom page\"",
  "             Padding=\"12\">",
  "  <ContentPage.Resources>",
  "    <ResourceDictionary>",
  "      <local:UpperCaseConverter x:Key=\"upper\"/>",
  "    </ResourceDictionary>",
  "  </ContentPage.Resources>",
  "  <ContentPage.Content>",
  "    <StackLayout Spacing=\"8\" Orientation=\"Vertical\">",
  "      <Label Id=\"Greeting\" Text=\"\x7bBinding LabelBinding\x7d\" XAlign=\"Center\"/>",
  "      <Label Id=\"Shout\" Text=\"\x7bBinding Name, " ++
    "Converter=\x7bStaticResource upper\x7d\x7d\" FontSize=\"24\"/>",
  "      <Entry Id=\"NameEntry\" Placeholder=\"Your name\" " ++
    "Text=\"\x7bBinding Name, Mode=TwoWay\x7d\"/>",
  "      <ListView Id=\"Items\" RowHeight=\"40\" Header=\"Items\" " ++
    "ItemsSource=\"\x7bBinding Items\x7d\">",
  "        <ListView.ItemTemplate>",
  "          <TextCell Text=\"\x7bBinding Title\x7d\" Detail=\"\x7bBinding Subtitle\x7d\"/>",
  "        </ListView.ItemTemplate>",
  "      </ListView>",
  "    </StackLayout>",
  "  </ContentPage.Content>",
  "</ContentPage>"]

/-- The page's markup. -/
def markup : String :=
  String.join (markupLines.map (· ++ "\n"))

/-- The types of the showcase in order of registration. -/
def types : List TypeInfo := [customPage, upperCaseConverter]

/-- The showcase module. -/
def typeModule : TypeModule := ⟨moduleName, types, [⟨"custom_page.xaml", markup⟩]⟩

/-- The catalogue with the framework and the showcase. -/
def catalog : Catalog := ⟨[Forms.typeModule, typeModule]⟩

/-- The showcase module passes the checks of registration beside the framework. -/
theorem register_typeModule : Forms.catalog.register typeModule = .ok catalog := by
  have hname : (Forms.catalog.module? moduleName).isSome = false := by decide +kernel
  have h : checkTypes moduleName [] types = none := by decide +kernel
  simp only [Catalog.register, typeModule, hname, Bool.false_eq_true, if_false, h]
  rfl

end MarkupForms.Showcase
