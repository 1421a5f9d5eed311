/-
TransitionRules/Expr/Encoding.lean

Expressions as JSON data.  Each expression is an object with one field, which names the kind of
expression and holds its parts; only null is a bare name.  `Expr.encode` lists the parts in their
order and `Expr.decode` reads the data back.
-/
import TransitionRules.Error
import TransitionRules.Expr.Basic
import TransitionRules.Json.Ordered

namespace TransitionRules

/-! ### Operators -/

/-- The name of an operator in data. -/
def UnaryOp.tag : UnaryOp → String
  | .not => "Not"
  | .neg => "Neg"

/-- The operator of a name. -/
def UnaryOp.ofTag? : String → Option UnaryOp
  | "Not" => some .not
  | "Neg" => some .neg
  | _ => none

/-- The name of an operator in data. -/
def BinaryOp.tag : BinaryOp → String
  | .add => "Add"
  | .sub => "Sub"
  | .mul => "Mul"
  | .div => "Div"
  | .mod => "Mod"
  | .eq => "Eq"
  | .ne => "Ne"
  | .lt => "Lt"
  | .le => "Le"
  | .gt => "Gt"
  | .ge => "Ge"
  | .and => "And"
  | .or => "Or"
  | .contains => "Contains"
  | .startsWith => "StartsWith"
  | .endsWith => "EndsWith"
  | .matches => "Matches"
  | .isIn => "In"

/-- The operator of a name. -/
def BinaryOp.ofTag? : String → Option BinaryOp
  | "Add" => some .add
  | "Sub" => some .sub
  | "Mul" => some .mul
  | "Div" => some .div
  | "Mod" => some .mod
  | "Eq" => some .eq
  | "Ne" => some .ne
  | "Lt" => some .lt
  | "Le" => some .le
  | "Gt" => some .gt
  | "Ge" => some .ge
  | "And" => some .and
  | "Or" => some .or
  | "Contains" => some .contains
  | "StartsWith" => some .startsWith
  | "EndsWith" => some .endsWith
  | "Matches" => some .matches
  | "In" => some .isIn
  | _ => none

namespace Expr

/-! ### Writing -/

/-- An expression of one kind with its parts. -/
def tagged (tag : String) (parts : OrderedJson) : OrderedJson := .record [(tag, parts)]

/-- A double as data: null if it is not finite. -/
def floatData (x : Float) : Json :=
  match Number.ofFloat? x with
  | some n => .number n
  | none => .null

/-- A word as a number. -/
def wordNumber (n : Int64) : Number :=
  .int n.toInt (Int64.le_toInt n) (Int.lt_trans (Int64.toInt_lt n) (by decide))

mutual

/-- An expression as data. -/
def encode : Expr → OrderedJson
  | .null => .string "Null"
  | .bool b => tagged "Bool" (.json (.bool b))
  | .int n => tagged "Int" (.json (.number (wordNumber n)))
  | .float x => tagged "Float" (.json (floatData x))
  | .string s => tagged "String" (.string s)
  | .list items => tagged "List" (.array (encodeItems items))
  | .map entries => tagged "Map" (.array (encodeEntries entries))
  | .ident name => tagged "Ident" (.string name)
  | .field base name => tagged "Field" (.array [encode base, .string name])
  | .index base key => tagged "Index" (.array [encode base, encode key])
  | .unary op operand => tagged "Unary" (.array [.string op.tag, encode operand])
  | .binary op left right =>
    tagged "Binary" (.array [.string op.tag, encode left, encode right])
  | .conditional test yes no => tagged "Ternary" (.array [encode test, encode yes, encode no])
  | .call function arguments =>
    tagged "Call" (.array [.string function, .array (encodeItems arguments)])
  | .all operands => tagged "All" (.array (encodeItems operands))
  | .any operands => tagged "Any" (.array (encodeItems operands))
  | .assign rules none =>
    tagged "Assign" (.record [("rules", .array (encodeRules rules)), ("patch", .json .null)])
  | .assign rules (some patch) =>
    tagged "Assign" (.record [("rules", .array (encodeRules rules)), ("patch", encode patch)])

def encodeItems : List Expr → List OrderedJson
  | [] => []
  | item :: rest => encode item :: encodeItems rest

def encodeEntries : List (String × Expr) → List OrderedJson
  | [] => []
  | (key, value) :: rest => .array [.string key, encode value] :: encodeEntries rest

def encodeRules : List (Expr × Expr) → List OrderedJson
  | [] => []
  | (condition, transform) :: rest =>
    .array [encode condition, encode transform] :: encodeRules rest

end

/-! ### Reading -/

/-- The name of a kind without parts, alone or as a field that holds null. -/
def bareTag? : Json → Option String
  | .string tag => some tag
  | .object (.cons tag _ .null .nil) => some tag
  | _ => none

/-- The word of a number that is an integer and fits one. -/
def word? : Number → Option Int64
  | .int n _ _ => if n < 0x8000000000000000 then some (Int64.ofInt n) else none
  | .float _ _ => none

/-- The expression of a kind whose parts hold no expressions. -/
def decodeLeaf? (tag : String) (parts : Json) : Option Expr :=
  match tag, parts with
  | "Null", .null => some .null
  | "Bool", .bool b => some (.bool b)
  | "Int", .number n => (word? n).map .int
  | "Float", .number n => some (.float n.toFloat)
  | "String", .string s => some (.string s)
  | "Ident", .string name => some (.ident name)
  | _, _ => none

mutual

/-- The expression of data. -/
def decode? : Json → Option Expr
  | .string tag => if tag = "Null" then some .null else none
  | .object (.cons tag _ parts .nil) => (decodeLeaf? tag parts).or (decodeParts? tag parts)
  | _ => none

/-- The expression of a kind and its parts. -/
def decodeParts? (tag : String) : Json → Option Expr
  | .array items =>
    match tag with
    | "List" => (decodeItems? items).map .list
    | "Map" => (decodeEntries? items).map .map
    | "All" => (decodeItems? items).map .all
    | "Any" => (decodeItems? items).map .any
    | "Field" =>
      match items with
      | [base, .string name] => (decode? base).map fun base => .field base name
      | _ => none
    | "Index" =>
      match items with
      | [base, key] => do
        let base ← decode? base
        let key ← decode? key
        some (.index base key)
      | _ => none
    | "Unary" =>
      match items with
      | [op, operand] => do
        let op ← (bareTag? op).bind UnaryOp.ofTag?
        let operand ← decode? operand
        some (.unary op operand)
      | _ => none
    | "Binary" =>
      match items with
      | [op, left, right] => do
        let op ← (bareTag? op).bind BinaryOp.ofTag?
        let left ← decode? left
        let right ← decode? right
        some (.binary op left right)
      | _ => none
    | "Ternary" =>
      match items with
      | [test, yes, no] => do
        let test ← decode? test
        let yes ← decode? yes
        let no ← decode? no
        some (.conditional test yes no)
      | _ => none
    | "Call" =>
      match items with
      | [.string function, .array arguments] =>
        (decodeItems? arguments).map fun arguments => .call function arguments
      | _ => none
    | _ => none
  | .object fields =>
    if tag = "Assign" then do
      let rules ← decodeRulesField? fields
      let patch ← decodePatchField? fields
      some (.assign rules patch)
    else none
  | _ => none

def decodeItems? : List Json → Option (List Expr)
  | [] => some []
  | item :: rest => do
    let item ← decode? item
    let rest ← decodeItems? rest
    some (item :: rest)

def decodeEntries? : List Json → Option (List (String × Expr))
  | [] => some []
  | .array [.string key, value] :: rest => do
    let value ← decode? value
    let rest ← decodeEntries? rest
    some ((key, value) :: rest)
  | _ => none

def decodeRules? : List Json → Option (List (Expr × Expr))
  | [] => some []
  | .array [condition, transform] :: rest => do
    let condition ← decode? condition
    let transform ← decode? transform
    let rest ← decodeRules? rest
    some ((condition, transform) :: rest)
  | _ => none

/-- The rules among the fields of an assignment. -/
def decodeRulesField? : {low : Option String} → FieldsAfter Json low →
    Option (List (Expr × Expr))
  | _, .nil => none
  | _, .cons name _ (.array rules) rest =>
    if name = "rules" then decodeRules? rules else decodeRulesField? rest
  | _, .cons name _ _ rest => if name = "rules" then none else decodeRulesField? rest

/-- The patch among the fields of an assignment; null stands for none. -/
def decodePatchField? : {low : Option String} → FieldsAfter Json low → Option (Option Expr)
  | _, .nil => some none
  | _, .cons name _ value rest =>
    if name = "patch" then
      if value.isNull then some none else (decode? value).map some
    else decodePatchField? rest

end

/-- Reads an expression from data. -/
def decode (data : Json) : Except SyntaxFault Expr :=
  match decode? data with
  | some e => .ok e
  | none => .error .encoding

end Expr

end TransitionRules
