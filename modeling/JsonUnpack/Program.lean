import JsonUnpack.Json.Document
import JsonUnpack.Listing
import JsonUnpack.Settings

/-! Whole programs: a preamble that parses the document again at run time, and the declarations that
bind its scalars. A large array or object gets a variable of its own, which its children are then
reached from; of an array with a variable only so many elements are taken. -/
namespace JsonUnpack

open Json (Composite Value)

namespace Settings

/-- Whether an array or object with so many children gets a variable. -/
def names (settings : Settings) (place : Place) (children : Nat) : Bool :=
  place.canBeNamed && settings.maxInlineChildren.toNat < children

/-- What the children of an array or object are reached from. -/
def base (settings : Settings) (place : Place) (children : Nat) : Access :=
  if settings.names place children then .ofName place.variableName else place.access

/-- The variable of an array or object, if it gets one. -/
def reference (settings : Settings) (place : Place) (kind : Composite) (children : Nat) :
    List Item :=
  if settings.names place children then
    [.statement (.reference kind place.variableName place.access)]
  else []

/-- How many elements are taken from an array. -/
def taken (settings : Settings) (place : Place) (children : Nat) : Nat :=
  if settings.names place children then settings.maxNamedArrayElements.toNat else children

end Settings

mutual

/-- The declarations for all scalars below a place. Arrays and objects, also empty ones, are set off
by blank lines, and null has no declaration. -/
def declarations (settings : Settings) (place : Place) : Value → List Item
  | .null => []
  | .scalar s => [.statement (.leaf (.ofScalar s) place.variableName place.access s)]
  | .array items =>
    .blank :: settings.reference place .array items.length
      ++ elementDeclarations settings place (settings.base place items.length)
        (settings.taken place items.length) 0 items
      ++ [.blank]
  | .object members =>
    .blank :: settings.reference place .object members.length
      ++ memberDeclarations settings place (settings.base place members.length) members
      ++ [.blank]

/-- The declarations for the elements from an index on, up to a limit. -/
def elementDeclarations (settings : Settings) (place : Place) (base : Access) (limit index : Nat) :
    List Value → List Item
  | [] => []
  | item :: rest =>
    if index < limit then
      declarations settings (place.element base index) item
        ++ elementDeclarations settings place base limit (index + 1) rest
    else []

/-- The declarations for members. -/
def memberDeclarations (settings : Settings) (place : Place) (base : Access) :
    List (String × Value) → List Item
  | [] => []
  | (key, value) :: rest =>
    declarations settings (place.field base key) value
      ++ memberDeclarations settings place base rest

end

namespace Program

/-- The kind of a document, if it has children. -/
def rootKind : Value → Option Composite
  | .array _ => some .array
  | .object _ => some .object
  | _ => none

/-- The depth that the parser has to be told. -/
def depthHint (settings : Settings) (document : Value) : Option Nat :=
  if settings.nestingHintThreshold.toNat < document.nesting then some document.nesting else none

/-- The statements up to and including the one that parses the document. -/
def preamble (settings : Settings) (bufferSize : String) (document : Value) : List Item :=
  [.statement (.bufferSize bufferSize), .statement .buffer, .blank,
    .statement (.document document.compact), .blank,
    .statement (.parse (rootKind document) (depthHint settings document))]

/-- The stem of an array at the root. -/
def rootArrayStem : String := "root_"

/-- The declarations after the preamble. The variable of the document is a name for an object at the
root already, so that has no stem; a document without children has no declarations. -/
def body (settings : Settings) (document : Value) : List Item :=
  match document with
  | .array _ => declarations settings ⟨.ofName Name.root, some rootArrayStem⟩ document
  | .object _ => declarations settings ⟨.ofName Name.root, none⟩ document
  | _ => []

def items (settings : Settings) (bufferSize : String) (document : Value) : List Item :=
  preamble settings bufferSize document ++ body settings document

def listing (settings : Settings) (bufferSize : String) (document : Value) : Listing :=
  Listing.empty.addAll (items settings bufferSize document)

end Program

/-- The program that parses a document and binds its scalars. -/
def program (settings : Settings) (bufferSize : String) (document : Value) : String :=
  (Program.listing settings bufferSize document).render

/-- The program for the document that a text holds. -/
def generate (settings : Settings) (bufferSize : String) (text : String) :
    Except (Json.Fault Json.Cause) String :=
  (Json.read text).map fun document => program settings bufferSize document

/-- Why there is no program for a text. -/
def refusal (text : String) (fault : Json.Fault Json.Cause) : String :=
  "Failed to parse JSON: " ++ fault.message Json.Cause.message text

end JsonUnpack
