namespace ObserverLint.Text

/-- A line ends at a line feed, which may have one carriage return before it; what follows the last
line feed is a line unless it is empty. -/
def lines : List Char → List (List Char)
  | [] => []
  | '\r' :: '\n' :: cs => [] :: lines cs
  | '\n' :: cs => [] :: lines cs
  | c :: cs =>
    match lines cs with
    | [] => [[c]]
    | line :: rest => (c :: line) :: rest

/-- Line number `n`, counting from one. -/
def line? (text : String) (n : Nat) : Option (List Char) :=
  match n with
  | 0 => none
  | n + 1 => (lines text.toList)[n]?

end ObserverLint.Text
