import WidgetShorthand.Symbol.Table

/-!
# The stock vocabulary

Symbols for the widgets, properties, keywords and constants of everyday Flutter code. The common
widget types have one capital letter, the others two small ones; the letters Q, M and V are free.
-/

namespace WidgetShorthand

namespace Vocabulary

/-- Symbols of one category from long forms and short forms. -/
def symbols (category : Category) (pairs : List (String × String)) : List Symbol :=
  pairs.map fun (long, short) => ⟨category, long, short⟩

def types : List Symbol :=
  symbols .type
    [("Scaffold", "S"), ("Column", "C"), ("Row", "R"), ("SafeArea", "A"), ("Padding", "P"),
     ("Text", "T"), ("AppBar", "B"), ("SizedBox", "Z"), ("TextField", "F"), ("ElevatedButton", "E"),
     ("TextStyle", "Y"), ("InputDecoration", "D"), ("OutlineInputBorder", "O"),
     ("TextEditingController", "X"), ("Container", "K"), ("Center", "N"), ("ListView", "L"),
     ("Widget", "W"), ("int", "I"), ("double", "U"), ("String", "G"), ("bool", "H"), ("void", "J"),
     ("Expanded", "ex"), ("Stack", "st"), ("Positioned", "ps"), ("GridView", "gv"), ("Icon", "ic"),
     ("Image", "im"), ("Card", "cd"), ("TextButton", "tb"), ("IconButton", "ib"),
     ("FloatingActionButton", "fb"), ("Divider", "dv"), ("Align", "al"), ("Flexible", "fx"),
     ("SingleChildScrollView", "sv"), ("CircularProgressIndicator", "cp"),
     ("StatelessWidget", "sw"), ("StatefulWidget", "sf"), ("State", "se"), ("BuildContext", "bc")]

def properties : List Symbol :=
  symbols .property
    [("appBar", "a"), ("body", "b"), ("child", "c"), ("children", "h"), ("title", "t"),
     ("controller", "r"), ("padding", "p"), ("onPressed", "o"), ("style", "s"), ("fontSize", "z"),
     ("fontWeight", "w"), ("color", "l"), ("decoration", "d"), ("labelText", "L"),
     ("hintText", "H"), ("border", "B"), ("height", "e"), ("width", "W"), ("obscureText", "x"),
     ("centerTitle", "T"), ("mainAxisAlignment", "A"), ("crossAxisAlignment", "X"),
     ("minimumSize", "M"), ("margin", "m"), ("keyboardType", "k"), ("icon", "i"),
     ("prefixIcon", "P"), ("borderRadius", "R"), ("backgroundColor", "G")]

def keywords : List Symbol :=
  symbols .keyword
    [("final", "f"), ("const", "k"), ("static", "s"), ("late", "l"), ("override", "o"),
     ("return", "r"), ("await", "w"), ("async", "a"), ("var", "v"), ("required", "q"),
     ("break", "b")]

def literals : List Symbol :=
  symbols .literal
    [("MainAxisAlignment.center", "mc"), ("MainAxisAlignment.start", "ms"),
     ("MainAxisAlignment.end", "me"), ("MainAxisAlignment.spaceBetween", "mb"),
     ("MainAxisAlignment.spaceAround", "ma"), ("MainAxisAlignment.spaceEvenly", "mv"),
     ("CrossAxisAlignment.center", "xc"), ("CrossAxisAlignment.start", "xs"),
     ("CrossAxisAlignment.end", "xe"), ("CrossAxisAlignment.stretch", "xt"),
     ("FontWeight.bold", "fb"), ("FontWeight.normal", "fn"), ("Colors.blue", "cb"),
     ("Colors.white", "cw"), ("Colors.black", "ck"), ("Colors.red", "cr"), ("Colors.grey", "cg"),
     ("Colors.transparent", "ct"), ("double.infinity", "di"), ("EdgeInsets.zero", "ez"),
     ("TextInputType.emailAddress", "te"), ("TextInputType.number", "tn"),
     ("TextInputType.text", "tt"), ("TextAlign.center", "ac"), ("BoxFit.cover", "bc"),
     ("Icons.add", "ia"), ("Icons.email", "ie"), ("Icons.lock", "il")]

/-- All symbols of the vocabulary. -/
def all : List Symbol :=
  types ++ properties ++ keywords ++ literals

end Vocabulary

/-- The tables of the stock vocabulary, whose symbols do not collide. -/
def Symbols.stock : Symbols :=
  match Symbols.ofList Vocabulary.all with
  | .ok s => s
  | .error _ => .empty

end WidgetShorthand
