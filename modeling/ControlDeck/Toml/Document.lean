import ControlDeck.Toml.Scalar
import ControlDeck.Toml.Tree

namespace ControlDeck.Toml

/-- How deep arrays and inline tables may nest, and how long a key path may be. -/
def maxDepth : Nat := 79

/-- Reads a value at the start of a text and leaves the rest. -/
abbrev ValueReader := List Char → Option (Data × List Char)

/-- Skips spaces, line breaks and comments. The first argument bounds the number of comments. -/
def skipLines : Nat → List Char → List Char
  | 0, s => s
  | bound + 1, s =>
    match skipBlank s with
    | '#' :: rest => skipLines bound (skipComment ('#' :: rest))
    | rest => rest

/-- The elements of an array up to its closing bracket, at most `bound` of them. A comma may come
last. -/
def elements? (value : ValueReader) : Nat → List Char → Option (List Data × List Char)
  | 0, _ => none
  | bound + 1, s =>
    match skipLines s.length s with
    | ']' :: rest => some ([], rest)
    | s => do
      let (first, rest) ← value s
      match skipLines rest.length rest with
      | ',' :: rest => do
        let (others, rest) ← elements? value bound rest
        return (first :: others, rest)
      | ']' :: rest => return ([first], rest)
      | _ => none

/-- A key path, an equals sign and a value. -/
def pair? (value : ValueReader) (s : List Char) : Option (List String × Data × List Char) := do
  let (path, rest) ← key? maxDepth s
  match rest with
  | '=' :: rest => do
    let (d, rest) ← value (skipSpace rest)
    return (path, d, rest)
  | _ => none

/-- The entries of an inline table from the next pair up to its closing brace, at most `bound` of
them. -/
def entries? (value : ValueReader) : Nat → Node → List Char → Option (Node × List Char)
  | 0, _, _ => none
  | bound + 1, table, s => do
    let (path, d, rest) ← pair? value s
    let table ← table.insert path d
    match skipSpace rest with
    | ',' :: rest => entries? value bound table rest
    | '\x7d' :: rest => return (table, rest)
    | _ => none

def inlineTable? (value : ValueReader) (s : List Char) : Option (Data × List Char) :=
  match skipSpace s with
  | '\x7d' :: rest => some (.table [], rest)
  | s => (entries? value s.length .empty s).map fun (table, rest) => (table.toData, rest)

/-- A value in which at most the given number of levels is nested. -/
def value? : Nat → ValueReader
  | 0, s => scalar? s
  | room + 1, '[' :: rest =>
    (elements? (value? room) rest.length rest).map fun (ds, rest) => (.list ds true, rest)
  | room + 1, '\x7b' :: rest => inlineTable? (value? room) rest
  | _ + 1, s => scalar? s

/-- A document read so far: what the headers before the last one have completed, and the table of
the last header with its path. -/
structure Draft where
  root : Node := .empty
  current : Node := .empty
  path : List String := []
  isArray : Bool := false

namespace Draft

/-- Puts the table of the last header into its place. -/
def finish (d : Draft) : Option Node :=
  match d.path.getLast? with
  | none => some d.current
  | some key => (Node.updateAt false (place key) d.path.dropLast d.root).map (·.1)
where
  place (key : String) : Node → Option (Node × Unit)
    | .table implicit dotted entries =>
      if d.isArray then
        match entries.lookup key with
        | none => some (.table implicit dotted (Node.setEntry key (.array [d.current]) entries), ())
        | some (.array tables) =>
          some
            (.table implicit dotted (Node.setEntry key (.array (d.current :: tables)) entries), ())
        | _ => none
      else some (.table implicit dotted (Node.setEntry key d.current entries), ())
    | _ => none

/-- The table that a header opens: a new one, or an implicit one that is now written out. -/
def opened (key : String) : Node → Option (Node × Node)
  | .table implicit dotted entries =>
    match entries.lookup key with
    | none => some (.table implicit dotted entries, .empty)
    | some (.table true false children) =>
      some (.table implicit dotted entries, .table false false children)
    | _ => none
  | _ => none

/-- A header of an array needs its key to be free or an array of tables already. -/
def extended (key : String) : Node → Option (Node × Node)
  | .table implicit dotted entries =>
    match entries.lookup key with
    | none | some (.array _) => some (.table implicit dotted entries, .empty)
    | _ => none
  | _ => none

def start (isArray : Bool) (path : List String) (d : Draft) : Option Draft := do
  let root ← d.finish
  let key ← path.getLast?
  let change := if isArray then extended key else opened key
  let (root, current) ← Node.updateAt false change path.dropLast root
  return { root, current, path, isArray }

end Draft

/-- Reads a header after its opening bracket. -/
def header? (d : Draft) (s : List Char) : Option (Draft × List Char) :=
  match s with
  | '[' :: rest => do
    let (path, rest) ← key? maxDepth rest
    let d ← d.start true path
    return (d, ← lineEnd? (← Text.dropStart? [']', ']'] rest))
  | rest => do
    let (path, rest) ← key? maxDepth rest
    let d ← d.start false path
    return (d, ← lineEnd? (← Text.dropStart? [']'] rest))

/-- Reads the lines of a document, at most `bound` of them. -/
def lines? : Nat → Draft → List Char → Option Draft
  | 0, d, s => if s.isEmpty then some d else none
  | bound + 1, d, s =>
    match skipSpace s with
    | [] => some d
    | '[' :: rest => do
      let (d, rest) ← header? d rest
      lines? bound d rest
    | '#' :: rest => do lines? bound d (← lineEnd? ('#' :: rest))
    | '\n' :: rest => lines? bound d rest
    | '\r' :: rest => do lines? bound d (← newline? ('\r' :: rest))
    | rest => do
      let (path, value, rest) ← pair? (value? maxDepth) rest
      let current ← d.current.insert path value
      lines? bound { d with current } (← lineEnd? rest)

/-- The data of a document, which may start with a byte order mark. -/
def read? (text : String) : Option Data := do
  let s := text.toList
  let s := if s.head? = some (Char.ofNat 0xFEFF) then s.drop 1 else s
  let d ← lines? s.length.succ {} s
  return (← d.finish).toData

end ControlDeck.Toml
