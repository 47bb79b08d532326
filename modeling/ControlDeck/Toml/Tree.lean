import ControlDeck.Settings.Data

namespace ControlDeck.Toml

/-- A document in the making. A table is implicit as long as only what lies within it has been
named, and dotted if that was by a dotted key. The tables of an array stand in it last first. -/
inductive Node where
  | value (d : Data)
  | table (implicit dotted : Bool) (entries : List (String × Node))
  | array (tables : List Node)

namespace Node

def empty : Node := .table false false []

mutual

def toData : Node → Data
  | .value d => d
  | .table _ _ entries => .table (entriesToData entries)
  | .array tables => .list (tablesToData tables).reverse true

def entriesToData : List (String × Node) → List (String × Data)
  | [] => []
  | (key, node) :: rest => (key, node.toData) :: entriesToData rest

def tablesToData : List Node → List Data
  | [] => []
  | node :: rest => node.toData :: tablesToData rest

end

/-- Puts a node under a key in place of what is there. -/
def setEntry (key : String) (node : Node) : List (String × Node) → List (String × Node)
  | [] => [(key, node)]
  | (k, n) :: rest => if k = key then (key, node) :: rest else (k, n) :: setEntry key node rest

/-- Changes the table at a path, through the last table of each array on the way; tables that are
not there yet are made. A dotted path does not lead into a table that has been written out. -/
def updateAt {α : Type} (dotted : Bool) (change : Node → Option (Node × α)) :
    List String → Node → Option (Node × α)
  | [], node => change node
  | key :: path, .table implicit isDotted entries => do
    let (child, result) ←
      match entries.lookup key with
      | none => updateAt dotted change path (.table true dotted [])
      | some (.value _) => none
      | some (.array []) => none
      | some (.array (last :: before)) =>
        (updateAt dotted change path last).map fun (last, result) =>
          (.array (last :: before), result)
      | some (.table childImplicit childDotted childEntries) =>
        if dotted ∧ ¬ childImplicit then none
        else updateAt dotted change path (.table childImplicit childDotted childEntries)
    return (.table implicit isDotted (setEntry key child entries), result)
  | _ :: _, _ => none

/-- Adds a value under a key path. The table it comes to lie in is dotted if and only if the path
has more than one key. -/
def insert (path : List String) (d : Data) (root : Node) : Option Node := do
  let key ← path.getLast?
  let (root, _) ← updateAt true (add key) path.dropLast root
  return root
where
  add (key : String) : Node → Option (Node × Unit)
    | .table implicit dotted entries =>
      if dotted == (path.length == 1) then none
      else if (entries.lookup key).isSome then none
      else some (.table implicit dotted (entries ++ [(key, .value d)]), ())
    | _ => none

end Node

end ControlDeck.Toml
