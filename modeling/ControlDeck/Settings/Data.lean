namespace ControlDeck

/-- Structured data, before it is read as settings. -/
inductive Data where
  | null
  | boolean (b : Bool)
  | integer (n : Int)
  /-- A number of a notation in which unsigned numbers are kept apart. -/
  | natural (n : Nat)
  /-- A number that is not an integer; no setting is one. -/
  | decimal
  /-- A date or a time; no setting is one. -/
  | instant
  | text (s : String)
  /-- A list, and whether one that is read as a record may be longer than the record. -/
  | list (elements : List Data) (surplus : Bool)
  | table (entries : List (String × Data))
deriving Inhabited

end ControlDeck
