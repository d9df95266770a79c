import YamlTypes.Number.Double

/-!
The nodes of a YAML document, resolved: scalars have become data, aliases what
they stand for, and tags that are not an application's own are gone.

Two keys of a mapping are the same key when their nodes are equal. Integers and
floats are never equal to each other; of the floats, zero equals minus zero and
not-a-number equals itself. The order of a mapping's entries does not matter.
-/

set_option autoImplicit false

namespace YamlTypes.Yaml

inductive Number where
  | int (n : Int)
  | float (x : Double)
  deriving DecidableEq, Repr

namespace Number

def toDouble : Number → Double
  | .int n => Double.ofInt n
  | .float x => x

def same : Number → Number → Bool
  | .int m, .int n => m == n
  | .float x, .float y => x.equal y || (x == .notANumber && y == .notANumber)
  | _, _ => false

end Number

inductive Node where
  | null
  | bool (b : Bool)
  | number (n : Number)
  | string (s : String)
  | sequence (items : List Node)
  | mapping (entries : List (Node × Node))
  /-- A node with an application's tag, without the exclamation mark that begins the tag; a lone
  exclamation mark is kept. -/
  | tagged (tag : String) (content : Node)
  deriving Inhabited

/-- The characters of a tag without one exclamation mark before them, if something is left. -/
def bareTag (tag : String) : List Char :=
  match tag.toList with
  | '!' :: c :: rest => c :: rest
  | cs => cs

namespace Node

mutual

def same : Node → Node → Bool
  | .null, .null => true
  | .bool a, .bool b => a == b
  | .number m, .number n => m.same n
  | .string s, .string t => s == t
  | .sequence xs, .sequence ys => sameItems xs ys
  | .mapping xs, .mapping ys => xs.length == ys.length && sameEntries xs ys
  | .tagged s x, .tagged t y => bareTag s == bareTag t && x.same y
  | _, _ => false

def sameItems : List Node → List Node → Bool
  | [], [] => true
  | x :: xs, y :: ys => x.same y && sameItems xs ys
  | _, _ => false

/-- Whether each of some entries has an equal one among others. -/
def sameEntries : List (Node × Node) → List (Node × Node) → Bool
  | [], _ => true
  | (k, x) :: rest, ys =>
    ys.any (fun entry => k.same entry.1 && x.same entry.2) && sameEntries rest ys

end

def hasKey (key : Node) (entries : List (Node × Node)) : Bool :=
  entries.any fun entry => key.same entry.1

end Node

end YamlTypes.Yaml
