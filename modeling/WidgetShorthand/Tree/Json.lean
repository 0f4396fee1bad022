import WidgetShorthand.Json.Record
import WidgetShorthand.Tree.Slot

/-!
# Trees in JSON

The JSON form of trees and of slot paths, in both directions. A tree is a choice of its kind and the
record of its parts. Lists and types that are left out when a record is read are empty or missing;
when a record is written every field is there.
-/

namespace WidgetShorthand

/-! ## Reading -/

def LiteralKind.ofName? : String → Option LiteralKind
  | "string" => some .string
  | "number" => some .number
  | "bool" => some .bool
  | "null" => some .null
  | _ => none

def LiteralKind.ofJson? (levels : Nat) (j : Json) : Option LiteralKind :=
  (Json.name? levels j).bind LiteralKind.ofName?

def Literal.ofJson? : Nat → Json → Option Literal
  | 0, _ => none
  | levels + 1, j => do
    let found ← j.fields? ["kind", "raw"]
    let kind ← Json.required found "kind" (LiteralKind.ofJson? levels)
    let raw ← Json.required found "raw" Json.text?
    return ⟨kind, raw⟩

mutual

def TypeRef.ofJson? : Nat → Json → Option TypeRef
  | 0, _ => none
  | levels + 1, j => do
    let found ← j.fields? ["name", "args"]
    let name ← Json.required found "name" Json.text?
    let args ← Json.orElse found "args" [] (typeRefsOfJson? levels)
    return ⟨name, args⟩

def typeRefsOfJson? : Nat → Json → Option (List TypeRef)
  | levels + 1, .array items => items.mapM (TypeRef.ofJson? levels)
  | _, _ => none

end

mutual

def Widget.ofJson? : Nat → Json → Option Widget
  | 0, _ => none
  | levels + 1, j => do
    let found ← j.fields? ["type_name", "properties", "children"]
    let typeName ← Json.required found "type_name" Json.text?
    let properties ← Json.orElse found "properties" [] (propertiesOfJson? levels)
    let children ← Json.orElse found "children" [] (widgetsOfJson? levels)
    return ⟨typeName, properties, children⟩

def Property.ofJson? : Nat → Json → Option Property
  | 0, _ => none
  | levels + 1, j => do
    let found ← j.fields? ["key", "value"]
    let key ← Json.required found "key" Json.text?
    let value ← Json.required found "value" (Value.ofJson? levels)
    return ⟨key, value⟩

def Value.ofJson? : Nat → Json → Option Value
  | 0, _ => none
  | levels + 1, j => do
    match ← j.choice? with
    | ("literal", content) =>
      let l ← Literal.ofJson? levels content
      return .scalar (.literal l)
    | ("ident", content) =>
      let name ← content.text?
      return .scalar (.ident name)
    | ("expr", content) =>
      let text ← content.text?
      return .scalar (.expr text)
    | ("widget", content) =>
      let w ← Widget.ofJson? levels content
      return .widget w
    | ("list", content) =>
      let items ← valuesOfJson? levels content
      return .list items
    | _ => none

def propertiesOfJson? : Nat → Json → Option (List Property)
  | levels + 1, .array items => items.mapM (Property.ofJson? levels)
  | _, _ => none

def widgetsOfJson? : Nat → Json → Option (List Widget)
  | levels + 1, .array items => items.mapM (Widget.ofJson? levels)
  | _, _ => none

def valuesOfJson? : Nat → Json → Option (List Value)
  | levels + 1, .array items => items.mapM (Value.ofJson? levels)
  | _, _ => none

end

def Param.ofJson? : Nat → Json → Option Param
  | 0, _ => none
  | levels + 1, j => do
    let found ← j.fields? ["name", "type_ref"]
    let name ← Json.required found "name" Json.text?
    let typeRef ← Json.orElse found "type_ref" none (Json.optional (TypeRef.ofJson? levels))
    return ⟨name, typeRef⟩

def Field.ofJson? : Nat → Json → Option Field
  | 0, _ => none
  | levels + 1, j => do
    let found ← j.fields? ["modifiers", "name", "type_ref", "initializer"]
    let modifiers ← Json.orElse found "modifiers" [] (Json.texts levels)
    let name ← Json.required found "name" Json.text?
    let typeRef ← Json.orElse found "type_ref" none (Json.optional (TypeRef.ofJson? levels))
    let initializer ← Json.orElse found "initializer" none (Json.optional (Value.ofJson? levels))
    return ⟨modifiers, name, typeRef, initializer⟩

def Statement.ofJson? : Nat → Json → Option Statement
  | 0, _ => none
  | levels + 1, j => do
    let found ← j.fields? ["keywords", "value"]
    let keywords ← Json.orElse found "keywords" [] (Json.texts levels)
    let value ← Json.orElse found "value" none (Json.optional (Value.ofJson? levels))
    return ⟨keywords, value⟩

def MethodBody.ofJson? : Nat → Json → Option MethodBody
  | 0, _ => none
  | levels + 1, j => do
    match ← j.choice? with
    | ("widget", content) =>
      let w ← Widget.ofJson? levels content
      return .widget w
    | ("statements", content) =>
      let block ← Json.list Statement.ofJson? levels content
      return .statements block
    | _ => none

def Method.ofJson? : Nat → Json → Option Method
  | 0, _ => none
  | levels + 1, j => do
    let found ← j.fields? ["modifiers", "name", "params", "return_type", "body"]
    let modifiers ← Json.orElse found "modifiers" [] (Json.texts levels)
    let name ← Json.required found "name" Json.text?
    let params ← Json.orElse found "params" [] (Json.list Param.ofJson? levels)
    let returnType ← Json.orElse found "return_type" none (Json.optional (TypeRef.ofJson? levels))
    let body ← Json.required found "body" (MethodBody.ofJson? levels)
    return ⟨modifiers, name, params, returnType, body⟩

def ClassDecl.ofJson? : Nat → Json → Option ClassDecl
  | 0, _ => none
  | levels + 1, j => do
    let found ← j.fields? ["name", "super_type", "fields", "methods"]
    let name ← Json.required found "name" Json.text?
    let superType ← Json.orElse found "super_type" none (Json.optional (TypeRef.ofJson? levels))
    let fields ← Json.orElse found "fields" [] (Json.list Field.ofJson? levels)
    let methods ← Json.orElse found "methods" [] (Json.list Method.ofJson? levels)
    return ⟨name, superType, fields, methods⟩

mutual

def Node.ofJson? : Nat → Json → Option Node
  | 0, _ => none
  | levels + 1, j => do
    match ← j.choice? with
    | ("class", content) =>
      let c ← ClassDecl.ofJson? levels content
      return .classDecl c
    | ("method", content) =>
      let m ← Method.ofJson? levels content
      return .method m
    | ("widget", content) =>
      let w ← Widget.ofJson? levels content
      return .widget w
    | ("literal", content) =>
      let l ← Literal.ofJson? levels content
      return .literal l
    | ("unit", content) =>
      let items ← nodesOfJson? levels content
      return .unit items
    | _ => none

def nodesOfJson? : Nat → Json → Option (List Node)
  | levels + 1, .array items => items.mapM (Node.ofJson? levels)
  | _, _ => none

end

/-- A step from its tag and the fields besides the tag. -/
def Step.ofFound? (tag : String) (content : Json) : Option Step :=
  match tag with
  | "property" => do
    let found ← content.fields? ["index", "key"]
    let index ← Json.required found "index" Json.word?
    let key ← Json.required found "key" Json.text?
    return .property index key
  | "item" => do
    let found ← content.fields? ["index"]
    let index ← Json.required found "index" Json.word?
    return .item index
  | "child" => do
    let found ← content.fields? ["index"]
    let index ← Json.required found "index" Json.word?
    return .child index
  | _ => none

/-- The tag of a step and what else its object holds. The tag may stand anywhere, but only once. -/
def Step.untag? : Json → Option (String × Json)
  | .object members =>
    match members.filter (·.key == some "step") with
    | [⟨_, .string (some tag)⟩] => some (tag, .object (members.filter (·.key != some "step")))
    | _ => none
  | .array (.string (some tag) :: items) => some (tag, .array items)
  | _ => none

/-- A step is looked at as a whole, so every part of it has to be sound. -/
def Step.ofJson? (levels : Nat) (j : Json) : Option Step :=
  if Json.sound levels j then (Step.untag? j).bind fun (tag, content) => Step.ofFound? tag content
  else none

def slotPathOfJson? : Nat → Json → Option SlotPath :=
  Json.list Step.ofJson?

/-! ## Writing -/

def textsToJson (texts : List String) : Json :=
  .array (texts.map Json.ofString)

def optionToJson (write : α → Json) (x : Option α) : Json :=
  x.elim .null write

def Literal.toJson (l : Literal) : Json :=
  .object [Json.field "kind" (Json.ofString l.kind.name), Json.field "raw" (Json.ofString l.raw)]

def Scalar.toJson : Scalar → Json
  | .literal l => Json.tagged "literal" l.toJson
  | .ident name => Json.tagged "ident" (Json.ofString name)
  | .expr text => Json.tagged "expr" (Json.ofString text)

mutual

def TypeRef.toJson : TypeRef → Json
  | ⟨name, args⟩ =>
    .object [Json.field "name" (Json.ofString name),
      Json.field "args" (.array (typeRefsToJson args))]

def typeRefsToJson : List TypeRef → List Json
  | [] => []
  | t :: ts => t.toJson :: typeRefsToJson ts

end

mutual

def Widget.toJson : Widget → Json
  | ⟨typeName, properties, children⟩ =>
    .object [Json.field "type_name" (Json.ofString typeName),
      Json.field "properties" (.array (propertiesToJson properties)),
      Json.field "children" (.array (widgetsToJson children))]

def propertiesToJson : List Property → List Json
  | [] => []
  | ⟨key, v⟩ :: ps =>
    .object [Json.field "key" (Json.ofString key), Json.field "value" v.toJson] ::
      propertiesToJson ps

def widgetsToJson : List Widget → List Json
  | [] => []
  | w :: ws => w.toJson :: widgetsToJson ws

def Value.toJson : Value → Json
  | .scalar s => s.toJson
  | .widget w => Json.tagged "widget" w.toJson
  | .list items => Json.tagged "list" (.array (valuesToJson items))

def valuesToJson : List Value → List Json
  | [] => []
  | v :: vs => v.toJson :: valuesToJson vs

end

def Param.toJson (p : Param) : Json :=
  .object [Json.field "name" (Json.ofString p.name),
    Json.field "type_ref" (optionToJson TypeRef.toJson p.typeRef)]

def Field.toJson (f : Field) : Json :=
  .object [Json.field "modifiers" (textsToJson f.modifiers),
    Json.field "name" (Json.ofString f.name),
    Json.field "type_ref" (optionToJson TypeRef.toJson f.typeRef),
    Json.field "initializer" (optionToJson Value.toJson f.initializer)]

def Statement.toJson (s : Statement) : Json :=
  .object [Json.field "keywords" (textsToJson s.keywords),
    Json.field "value" (optionToJson Value.toJson s.value)]

def MethodBody.toJson : MethodBody → Json
  | .widget w => Json.tagged "widget" w.toJson
  | .statements block => Json.tagged "statements" (.array (block.map Statement.toJson))

def Method.toJson (m : Method) : Json :=
  .object [Json.field "modifiers" (textsToJson m.modifiers),
    Json.field "name" (Json.ofString m.name),
    Json.field "params" (.array (m.params.map Param.toJson)),
    Json.field "return_type" (optionToJson TypeRef.toJson m.returnType),
    Json.field "body" m.body.toJson]

def ClassDecl.toJson (c : ClassDecl) : Json :=
  .object [Json.field "name" (Json.ofString c.name),
    Json.field "super_type" (optionToJson TypeRef.toJson c.superType),
    Json.field "fields" (.array (c.fields.map Field.toJson)),
    Json.field "methods" (.array (c.methods.map Method.toJson))]

mutual

def Node.toJson : Node → Json
  | .classDecl c => Json.tagged "class" c.toJson
  | .method m => Json.tagged "method" m.toJson
  | .widget w => Json.tagged "widget" w.toJson
  | .literal l => Json.tagged "literal" l.toJson
  | .unit items => Json.tagged "unit" (.array (nodesToJson items))

def nodesToJson : List Node → List Json
  | [] => []
  | n :: ns => n.toJson :: nodesToJson ns

end

def Step.toJson : Step → Json
  | .property index key =>
    .object [Json.field "step" (Json.ofString "property"), Json.field "index" (Json.ofNat index),
      Json.field "key" (Json.ofString key)]
  | .item index =>
    .object [Json.field "step" (Json.ofString "item"), Json.field "index" (Json.ofNat index)]
  | .child index =>
    .object [Json.field "step" (Json.ofString "child"), Json.field "index" (Json.ofNat index)]

def slotPathToJson (path : SlotPath) : Json :=
  .array (path.map Step.toJson)

end WidgetShorthand
