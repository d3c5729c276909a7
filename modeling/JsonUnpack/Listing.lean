import JsonUnpack.Place

/-! The statements a generated program consists of, and the lines of a program in the making. Each
statement declares one variable and is written on one line; lines are only ever added at the end. -/
namespace JsonUnpack

open Json (Composite Scalar Value)

inductive Statement
  /-- The size of the buffer, an expression that is copied as it is. -/
  | bufferSize (expression : String)
  /-- The buffer that the document is parsed into. -/
  | buffer
  /-- The compact text of the document, as a literal. -/
  | document (compact : String)
  /-- The call that parses the document. A document that is nested deeply passes its depth. -/
  | parse (kind : Option Composite) (depth : Option Nat)
  /-- A variable for an array or object. -/
  | reference (kind : Composite) (name : String) (target : Access)
  /-- A variable for a scalar, with its value as a comment. -/
  | leaf (type : Cpp.LeafType) (name : String) (target : Access) (value : Scalar)
  deriving DecidableEq

/-- The C++ type of a reference to an array or object. -/
def referenceType : Composite → String
  | .array => "JsonArray&"
  | .object => "JsonObject&"

namespace Statement

/-- The type of the variable that holds the parsed document. -/
def rootType : Option Composite → String
  | some kind => referenceType kind
  | none => "JsonVariant"

/-- The method that parses a document of this kind. -/
def parseMethod : Option Composite → String
  | some .array => "parseArray"
  | some .object => "parseObject"
  | none => "parse"

/-- The arguments of the call that parses the document. -/
def parseArguments : Option Nat → String
  | some depth => "json, " ++ Nat.repr depth
  | none => "json"

/-- The variable that a statement declares. -/
def name : Statement → String
  | bufferSize _ => "bufferSize"
  | buffer => "jsonBuffer"
  | document _ => "json"
  | parse _ _ => Name.root
  | reference _ name _ => name
  | leaf _ name _ _ => name

def text : Statement → String
  | bufferSize expression => "const size_t bufferSize = " ++ expression ++ ";"
  | buffer => "DynamicJsonBuffer jsonBuffer(bufferSize);"
  | document compact => "const char* json = " ++ Cpp.literal compact ++ ";"
  | parse kind depth =>
    rootType kind ++ " " ++ Name.root ++ " = jsonBuffer." ++ parseMethod kind
      ++ "(" ++ parseArguments depth ++ ");"
  | reference kind name target => referenceType kind ++ " " ++ name ++ " = " ++ target.text ++ ";"
  | leaf type name target value =>
    type.text ++ " " ++ name ++ " = " ++ target.text ++ "; // " ++ value.compact

end Statement

/-- Lines so far and the depth of the next one. -/
structure Listing where
  lines : Array String
  depth : Nat

/-- What a program is made of before it is laid out. -/
inductive Item
  | blank
  | statement (s : Statement)
  deriving DecidableEq

/-- Two spaces for each level. -/
def indentation (depth : Nat) : String := .ofList (List.replicate (2 * depth) ' ')

namespace Listing

/-- No lines yet. A program starts one level in. -/
def empty : Listing := ⟨#[], 1⟩

/-- Adds a line at the present depth. The text is one line even if it holds line breaks. -/
def line (listing : Listing) (text : String) : Listing :=
  { listing with lines := listing.lines.push (indentation listing.depth ++ text) }

/-- Adds an empty line, but neither at the start nor after another one. -/
def blank (listing : Listing) : Listing :=
  match listing.lines.back? with
  | some last => if last = "" then listing else { listing with lines := listing.lines.push "" }
  | none => listing

def indent (listing : Listing) : Listing := { listing with depth := listing.depth + 1 }

/-- One level out, at most to the margin. -/
def unindent (listing : Listing) : Listing := { listing with depth := listing.depth - 1 }

/-- The text, with a line break between each two lines. -/
def render (listing : Listing) : String := "\n".intercalate listing.lines.toList

/-- Lays out one item. -/
def add (listing : Listing) : Item → Listing
  | .blank => listing.blank
  | .statement s => listing.line s.text

/-- Lays out items in order. -/
def addAll (listing : Listing) (items : List Item) : Listing := items.foldl add listing

end Listing

end JsonUnpack
