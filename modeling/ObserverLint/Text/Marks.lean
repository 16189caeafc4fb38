namespace ObserverLint.Text.Marks

variable {α : Type}

/-- Texts are matched from their end. A list of marks says of each place in a text, and of the one
behind it, whether what follows is matched; before anything is read that is so at the end only. -/
def atEnd : List α → List Bool
  | [] => [true]
  | _ :: xs => false :: atEnd xs

/-- Each part of a pattern turns the marks for what comes after it into those for both together. -/
def one (p : α → Bool) : List α → List Bool → List Bool
  | x :: xs, _ :: later => (p x && later.headD false) :: one p xs later
  | _, _ => [false]

def many (p : α → Bool) : List α → List Bool → List Bool
  | x :: xs, here :: later =>
    let rest := many p xs later
    (here || (p x && rest.headD false)) :: rest
  | _, later => later

/-- Any items, the last of which passes a test. -/
def through (p : α → Bool) : List α → List Bool → List Bool
  | x :: xs, _ :: later =>
    let rest := through p xs later
    ((p x && later.headD false) || rest.headD false) :: rest
  | _, _ => [false]

def toEnd (later : List Bool) : List Bool := later.map fun _ => later.getLastD false

def either (these those : List Bool) : List Bool := List.zipWith (· || ·) these those

end ObserverLint.Text.Marks
