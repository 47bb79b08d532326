namespace ControlDeck.Text

/-- Whether a code point lies in one of the closed ranges of a table in ascending order. -/
def inRanges (table : Array (Nat × Nat)) (code : Nat) : Bool :=
  search 0 table.size
where
  search (low high : Nat) : Bool :=
    if low < high then
      let middle := (low + high) / 2
      match table[middle]? with
      | none => false
      | some (first, last) =>
        if code < first then search low middle
        else if last < code then search (middle + 1) high
        else true
    else false
  termination_by high - low

end ControlDeck.Text
