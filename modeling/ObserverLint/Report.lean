import ObserverLint.Violation

namespace ObserverLint

structure Report where
  violations : List Violation := []
  filesChecked : Nat := 0
deriving DecidableEq, Repr, Inhabited

namespace Violation

/-- By file, then line, then column. -/
def order (v w : Violation) : Ordering :=
  (v.location.file.order w.location.file).then <|
    (compare v.location.line w.location.line).then <|
      compare v.location.column w.location.column

def precedes (v w : Violation) : Bool := (v.order w).isLE

end Violation

namespace Report

def push (r : Report) (v : Violation) : Report := { r with violations := r.violations ++ [v] }

def append (r s : Report) : Report :=
  ⟨r.violations ++ s.violations, r.filesChecked + s.filesChecked⟩

/-- The report with its violations in order; those at the same position keep theirs. -/
def sort (r : Report) : Report := { r with violations := r.violations.mergeSort Violation.precedes }

def bySeverity (r : Report) (s : Severity) : List Violation :=
  r.violations.filter fun v => v.severity == s

def count (r : Report) (s : Severity) : Nat := (r.bySeverity s).length

def hasAtLeast (r : Report) (s : Severity) : Bool := r.violations.any fun v => s ≤ v.severity

def summary (r : Report) : String :=
  s!"Found {r.count .error} error(s), {r.count .warning} warning(s), {r.count .info} info(s) in " ++
    s!"{r.filesChecked} file(s)"

def format (r : Report) : String :=
  String.join (r.violations.map fun v => v.format ++ "\n") ++ r.summary ++ "\n"

end Report

end ObserverLint
