namespace ObserverLint

inductive Possibility where
  | yes
  | no
  | unknown
deriving DecidableEq, Repr, Inhabited

namespace Possibility

def couldBe (p : Possibility) : Bool := p != no

/-- One answer for two declarations of the same name; where they disagree nothing is known. -/
def merge (p q : Possibility) : Possibility := if p = q then p else unknown

def any (parts : List Possibility) : Possibility :=
  if yes ∈ parts then yes
  else if parts ≠ [] ∧ ∀ p ∈ parts, p = no then no
  else unknown

end Possibility

structure Shape where
  observable : Possibility
  function : Possibility
deriving DecidableEq, Repr, Inhabited

namespace Shape

def unknown : Shape := ⟨.unknown, .unknown⟩

def plain : Shape := ⟨.no, .no⟩

def ofFunction : Shape := ⟨.no, .yes⟩

def ofObservable : Shape := ⟨.yes, .no⟩

/-- A class itself, as opposed to its instances. -/
def ofClass : Shape := ⟨.no, .unknown⟩

def merge (s t : Shape) : Shape := ⟨s.observable.merge t.observable, s.function.merge t.function⟩

def any (parts : List Shape) : Shape :=
  ⟨.any (parts.map observable), .any (parts.map function)⟩

end Shape

end ObserverLint
