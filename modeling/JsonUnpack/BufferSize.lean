import JsonUnpack.Json.Value

/-! The size of the buffer that a document needs, as a sum over its arrays and objects. Those of one
kind and size are counted together. -/
namespace JsonUnpack

open Json (Composite Value)

namespace Json.Value

mutual

/-- The arrays and objects of a value, itself included, each with its number of children. -/
def composites : Value → List (Composite × Nat)
  | null => []
  | scalar _ => []
  | array items => (.array, items.length) :: itemsComposites items
  | object members => (.object, members.length) :: membersComposites members

def itemsComposites : List Value → List (Composite × Nat)
  | [] => []
  | item :: rest => item.composites ++ itemsComposites rest

def membersComposites : List (String × Value) → List (Composite × Nat)
  | [] => []
  | (_, value) :: rest => value.composites ++ membersComposites rest

end

end Json.Value

namespace BufferSize

/-- The room for `count` arrays or objects of one size. -/
structure Term where
  kind : Composite
  size : Nat
  count : Nat
  deriving DecidableEq

/-- The macro that gives the room for one array or object. -/
def sizeMacro : Composite → String
  | .array => "JSON_ARRAY_SIZE"
  | .object => "JSON_OBJECT_SIZE"

/-- A factor is written only if it is more than one. -/
def Term.text (term : Term) : String :=
  let single := sizeMacro term.kind ++ "(" ++ Nat.repr term.size ++ ")"
  if term.count = 1 then single else Nat.repr term.count ++ "*" ++ single

/-- Counts one more of a size in a tally of sizes, which ascend. -/
def countSize (size : Nat) : List (Nat × Nat) → List (Nat × Nat)
  | [] => [(size, 1)]
  | (other, n) :: rest =>
    if size = other then (other, n + 1) :: rest
    else if size < other then (size, 1) :: (other, n) :: rest
    else (other, n) :: countSize size rest

/-- The distinct sizes in ascending order, each with how often it occurs. -/
def tally (sizes : List Nat) : List (Nat × Nat) :=
  sizes.foldl (fun counts size => countSize size counts) []

/-- The sizes of the composites of one kind. -/
def sizesOf (kind : Composite) (composites : List (Composite × Nat)) : List Nat :=
  composites.filterMap fun (other, size) => if other = kind then some size else none

/-- The terms for one kind. -/
def termsOf (kind : Composite) (composites : List (Composite × Nat)) : List Term :=
  (tally (sizesOf kind composites)).map fun (size, count) => ⟨kind, size, count⟩

/-- The terms for some composites, arrays first. -/
def terms (composites : List (Composite × Nat)) : List Term :=
  termsOf .array composites ++ termsOf .object composites

/-- A sum of terms. -/
def text : List Term → String
  | [] => "0"
  | terms => " + ".intercalate (terms.map Term.text)

end BufferSize

/-- The expression for the size of the buffer that a document needs. -/
def Json.Value.bufferSize (document : Value) : String :=
  BufferSize.text (BufferSize.terms document.composites)

end JsonUnpack
