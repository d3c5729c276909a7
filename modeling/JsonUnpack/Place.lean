import JsonUnpack.Cpp

/-! Where a value lives: the C++ expression that reaches it and the name its variables start with.
The two grow together from parent to child, but the expression may start over from the variable of
a named ancestor. A key contributes its ASCII letters and digits to a name, with one underscore for
whatever stood between them; an index contributes its digits. A name may come out empty, start with
a digit or equal another one. -/
namespace JsonUnpack

namespace Name

/-- Squeezes each run of characters outside the ASCII letters and digits to one underscore. The flag
says that the underscore of the current run has been written. -/
def squeeze (gap : Bool) : List Char → List Char
  | [] => []
  | c :: rest =>
    if c.isAlphanum then c :: squeeze false rest
    else if gap then squeeze true rest
    else '_' :: squeeze true rest

/-- The part of a name that a key contributes. -/
def sanitize (key : String) : String := .ofList (squeeze false key.toList)

/-- The variable that holds the whole document, and a leaf that has no name of its own. -/
def root : String := "root"

/-- The name of an element: its index is glued onto the name of its array. -/
def element (stem : Option String) (index : Nat) : String :=
  stem.getD "" ++ Nat.repr index

/-- The name of a member, joined to the name of its object by an underscore. -/
def field (stem : Option String) (part : String) : String :=
  match stem with
  | none => part
  | some stem => stem ++ "_" ++ part

end Name

/-- A step from an array or object to a child. -/
inductive Step
  | index (n : Nat)
  | key (k : String)
  deriving DecidableEq

def Step.text : Step → String
  | index n => "[" ++ Nat.repr n ++ "]"
  | key k => "[" ++ Cpp.literal k ++ "]"

/-- A variable followed by steps. -/
structure Access where
  base : String
  steps : List Step
  deriving DecidableEq

namespace Access

/-- A variable by itself. -/
def ofName (name : String) : Access := ⟨name, []⟩

/-- One step further. -/
def push (access : Access) (step : Step) : Access :=
  { access with steps := access.steps ++ [step] }

def text (access : Access) : String :=
  access.base ++ String.join (access.steps.map Step.text)

end Access

/-- A place in a document. The root of an object has no stem: it contributes nothing to the names
of its members. -/
structure Place where
  access : Access
  stem : Option String
  deriving DecidableEq

namespace Place

/-- The place of an element, reached from `base`. -/
def element (place : Place) (base : Access) (index : Nat) : Place :=
  ⟨base.push (.index index), some (Name.element place.stem index)⟩

/-- The place of a member, reached from `base`. -/
def field (place : Place) (base : Access) (key : String) : Place :=
  ⟨base.push (.key key), some (Name.field place.stem (Name.sanitize key))⟩

/-- The name of the variable that holds the value here. -/
def variableName (place : Place) : String := place.stem.getD Name.root

/-- Whether an array or object here can have a variable: its stem must not be empty. -/
def canBeNamed (place : Place) : Bool := place.stem.any (· ≠ "")

end Place

end JsonUnpack
