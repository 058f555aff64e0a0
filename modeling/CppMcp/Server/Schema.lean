import CppMcp.Lib.SortedMap
import CppMcp.Protocol

namespace CppMcp

/-- The `type` keyword of `schema_validate`. An alternative of a list of types is checked
    in the source through a schema `{"type": alt}`, which has no other keyword. -/
def matchesType (value : Json) : Json → Bool
  | .string "object" => value.isObject
  | .string "array" => value.isArray
  | .string "string" => value.isString
  | .string "number" => value.isNumber
  | .string "integer" => value.isNumberInteger
  | .string "boolean" => value.isBoolean
  | .string "null" => value.isNull
  | .array alternatives => anyMatches value alternatives
  | _ => true
where
  anyMatches (value : Json) : List Json → Bool
    | [] => false
    | alternative :: rest => matchesType value alternative || anyMatches value rest

/-- The first property of `required` that the object lacks. -/
def missingRequired (value schema : Json) : Option String :=
  match schema.find? "required" with
  | some (.array required) => required.findSome? fun req =>
    match req with
    | .string name => if value.contains name then none else some name
    | _ => none
  | _ => none

def schemaKeywords (value schema : Json) (path : String) : String :=
  if !(match schema.find? "type" with
      | some t => matchesType value t
      | none => true) then
    if path = "" then "value does not match schema type"
    else "'" ++ path ++ "' does not match schema type"
  else if (match schema.find? "enum" with
      | some (.array allowed) => !allowed.any value.equals
      | _ => false) then
    (if path = "" then "value" else "'" ++ path ++ "'") ++ " is not one of the allowed values"
  else ""

mutual
/-- `schema_validate`: the empty text, or the first violation. -/
def schemaValidate : Json → Json → String → String
  | value, schema, path =>
    if !schema.isObject then "" else
    let own := schemaKeywords value schema path
    if own ≠ "" then own else
    match value with
    | .object members =>
      match missingRequired (.object members) schema with
      | some name => "missing required property '" ++ name ++ "'"
      | none =>
        match schema.find? "properties" with
        | some (.object properties) => validateMembers members properties path
        | _ => ""
    | .array elems =>
      match schema.find? "items" with
      | some (.object items) => validateItems elems (.object items) path 0
      | _ => ""
    | _ => ""

def validateMembers : List (String × Json) → List (String × Json) → String → String
  | [], _, _ => ""
  | (key, value) :: rest, properties, path =>
    match properties.lookup key with
    | some schema =>
      let sub := schemaValidate value schema (if path = "" then key else path ++ "." ++ key)
      if sub ≠ "" then sub else validateMembers rest properties path
    | none => validateMembers rest properties path

def validateItems : List Json → Json → String → Nat → String
  | [], _, _, _ => ""
  | value :: rest, schema, path, i =>
    let sub := schemaValidate value schema (path ++ "[" ++ toString i ++ "]")
    if sub ≠ "" then sub else validateItems rest schema path (i + 1)
end

/-- A piece of the pattern that `uri_template_to_regex` writes. -/
inductive TemplatePiece where
  | literal (b : UInt8)
  | variable
deriving DecidableEq

def isByte (c : Char) (b : UInt8) : Bool := b.toNat == c.toNat

/-- `uri_template_to_regex`. `name` is the variable being read, if one is. A brace that
    closes nothing and a variable without a name leave no trace. -/
def templatePieces : Option Bytes → Bytes → List TemplatePiece
  | _, [] => []
  | name, b :: rest =>
    if isByte '{' b then templatePieces (some []) rest
    else if isByte '}' b then
      match name with
      | some (_ :: _) => .variable :: templatePieces none rest
      | _ => templatePieces none rest
    else
      match name with
      | some name => templatePieces (some (name ++ [b])) rest
      | none => .literal b :: templatePieces none rest

/-- A byte of `[^/\?\#]`. -/
def inSegment (b : UInt8) : Bool := !isByte '/' b && !isByte '?' b && !isByte '#' b

/-- `std::regex_match` with that pattern: each variable takes as much as it can. -/
def matchPieces : List TemplatePiece → Bytes → Option (List Bytes)
  | [], [] => some []
  | [], _ :: _ => none
  | .literal _ :: _, [] => none
  | .literal b :: pieces, c :: rest => if b = c then matchPieces pieces rest else none
  | .variable :: pieces, bytes =>
    let longest := (bytes.takeWhile inSegment).length
    ((List.range longest).reverse.map (· + 1)).findSome? fun n =>
      (matchPieces pieces (bytes.drop n)).map (bytes.take n :: ·)

def isNameByte (b : UInt8) : Bool :=
  (isByte '_' b) || (48 ≤ b && b ≤ 57) || (65 ≤ b && b ≤ 90) || (97 ≤ b && b ≤ 122)

/-- The variable names `handle_resources_read` reads off a template. Text outside braces
    is collected too, and only an opening brace drops it. -/
def templateNames : Bytes → Bytes → List Bytes
  | _, [] => []
  | name, b :: rest =>
    if isByte '{' b then templateNames [] rest
    else if isByte '}' b then
      if name = [] then templateNames [] rest else name :: templateNames [] rest
    else if name ≠ [] ∨ isNameByte b then templateNames (name ++ [b]) rest
    else templateNames name rest

/-- The map that gives each name its capture. The last one of a name stands. -/
def templateVariables (names captures : List Bytes) : List (Bytes × Bytes) :=
  Lib.insertAll (names.zip captures) []

/-- The variables of a URI that matches the template, if it does. -/
def matchTemplate (template uri : Bytes) : Option (List (Bytes × Bytes)) :=
  (matchPieces (templatePieces none template) uri).map
    (templateVariables (templateNames [] template))

example : matchTemplate (ascii "weather://{city}/current") (ascii "weather://Oslo/current") =
    some [(ascii "city", ascii "Oslo")] := by decide

end CppMcp
