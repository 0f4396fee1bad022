import WidgetShorthand.Registry.Basic

/-!
# Stock patterns

Three form components that a registry can start with.
-/

namespace WidgetShorthand

namespace Stock

/-- A widget without children. -/
def leaf (typeName : String) (properties : List Property) : Widget :=
  ⟨typeName, properties, []⟩

def scalar (key : String) (s : Scalar) : Property :=
  ⟨key, .scalar s⟩

def nested (key : String) (w : Widget) : Property :=
  ⟨key, .widget w⟩

def icon (name : String) : Widget :=
  leaf "Icon" [scalar "$0" (.ident name)]

/-- The border that both input fields have. -/
def border : Property :=
  nested "border" (leaf "OutlineInputBorder" [])

def emailInput : Widget :=
  leaf "TextField" [
    scalar "controller" (.ident "controller"),
    nested "decoration" (leaf "InputDecoration" [
      scalar "labelText" (.string "Email"),
      scalar "hintText" (.string "you@example.com"),
      nested "prefixIcon" (icon "Icons.email"),
      border]),
    scalar "keyboardType" (.ident "TextInputType.emailAddress")]

def passwordInput : Widget :=
  leaf "TextField" [
    scalar "controller" (.ident "controller"),
    scalar "obscureText" (.bool true),
    nested "decoration" (leaf "InputDecoration" [
      scalar "labelText" (.string "Password"),
      nested "prefixIcon" (icon "Icons.lock"),
      border])]

def primaryButton : Widget :=
  leaf "ElevatedButton" [
    scalar "onPressed" (.ident "onPressed"),
    scalar "style" (.expr ("ElevatedButton.styleFrom(minimumSize: Size(double.infinity, 50), " ++
      "shape: RoundedRectangleBorder(borderRadius: BorderRadius.circular(8)))")),
    nested "child" (leaf "Text" [scalar "$0" (.ident "label")])]

def patterns : List Entry :=
  [.ofWidget "email_input" emailInput
    ⟨"Email Input", "Email text field with label, hint and icon", "forms",
      ["input", "email", "form", "validation"], "1.0.0"⟩,
   .ofWidget "password_input" passwordInput
    ⟨"Password Input", "Obscured password text field", "forms",
      ["input", "password", "form", "security"], "1.0.0"⟩,
   .ofWidget "primary_button" primaryButton
    ⟨"Primary Button", "Full-width primary action button", "buttons",
      ["button", "action", "primary"], "1.0.0"⟩]

end Stock

/-- A registry with the stock patterns. -/
def Registry.stock : Registry :=
  Stock.patterns.foldl Registry.push .empty

end WidgetShorthand
