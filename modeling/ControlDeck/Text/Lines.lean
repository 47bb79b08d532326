namespace ControlDeck.Text

/-- The lines of a sequence, each with the line feed that ends it; what follows the last line feed
is a line too if it is not empty. -/
def rawLines {α : Type} [BEq α] (lineFeed : α) : List α → List (List α)
  | [] => []
  | a :: rest =>
    if a == lineFeed then [a] :: rawLines lineFeed rest
    else
      match rawLines lineFeed rest with
      | [] => [[a]]
      | line :: lines => (a :: line) :: lines

/-- A line without its line feed and one carriage return before that. -/
def chomp (line : List Char) : List Char :=
  match line.reverse with
  | '\n' :: '\r' :: rest => rest.reverse
  | '\n' :: rest => rest.reverse
  | _ => line

end ControlDeck.Text
