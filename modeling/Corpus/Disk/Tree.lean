/-
Corpus/Disk/Tree.lean

File trees: files, directories and symbolic links, and the nodes at given places.

A place is a list of names from the top of a tree.  A directory lists its entries in the
order they were made; no rule of the library depends on that order but by sorting.
-/
import Corpus.Text.Utf8

namespace Corpus

/-- A node of a file tree. -/
inductive Node where
  | file (content : Bytes)
  | dir (entries : List (Bytes × Node))
  | link (target : Bytes)
  deriving Inhabited, Repr

/-- The names from the top of a tree down to a node. -/
abbrev Place := List Bytes

namespace Node

/-- The entries of a directory, none of anything else. -/
def entries : Node → List (Bytes × Node)
  | .dir es => es
  | _ => []

def isDir : Node → Bool
  | .dir _ => true
  | _ => false

def isFile : Node → Bool
  | .file _ => true
  | _ => false

/-- The entry of a directory with a given name. -/
def child? (n : Node) (name : Bytes) : Option Node := n.entries.lookup name

/-- The node at a place. -/
def at? (n : Node) : Place → Option Node
  | [] => some n
  | name :: rest =>
    match n.child? name with
    | some c => c.at? rest
    | none => none

/-- Puts an entry under a name, in the place of the old one or behind all others. -/
def putEntry (es : List (Bytes × Node)) (name : Bytes) (c : Node) : List (Bytes × Node) :=
  if es.any (·.1 == name) then es.map fun e => if e.1 == name then (name, c) else e
  else es ++ [(name, c)]

/-- Puts a node at a place below the top; the tree stays as it is if no directory holds that
place. -/
def put (n : Node) : Place → Node → Node
  | [], c => c
  | name :: rest, c =>
    match n with
    | .dir es =>
      match rest, es.lookup name with
      | [], _ => .dir (putEntry es name c)
      | _, some sub => .dir (putEntry es name (sub.put rest c))
      | _, none => .dir es
    | n => n

/-- Takes away the node at a place below the top. -/
def erase (n : Node) : Place → Node
  | [] => n
  | name :: rest =>
    match n with
    | .dir es =>
      match rest, es.lookup name with
      | [], _ => .dir (es.filter (·.1 != name))
      | _, some sub => .dir (putEntry es name (sub.erase rest))
      | _, none => .dir es
    | n => n

/-! ### Listings -/

/-- The order of names, byte by byte. -/
def nameLe (a b : Bytes) : Bool := decide (a ≤ b)

/-- Entries by the order of their names. -/
def sortEntries {α : Type} (es : List (Bytes × α)) : List (Bytes × α) :=
  es.mergeSort fun a b => nameLe a.1 b.1

mutual

/-- All nodes below a place with their places, each directory before what it holds. -/
def descendants (place : Place) : Node → List (Place × Node)
  | .dir es => descendantsAll place es
  | .file _ => []
  | .link _ => []

/-- All nodes among and below some entries. -/
def descendantsAll (place : Place) : List (Bytes × Node) → List (Place × Node)
  | [] => []
  | (name, c) :: rest =>
    ((place ++ [name], c) :: descendants (place ++ [name]) c) ++ descendantsAll place rest

end

end Node

end Corpus
