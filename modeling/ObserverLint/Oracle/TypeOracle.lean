import ObserverLint.Oracle.Collect

namespace ObserverLint

/-- Best guesses about the values of expressions. An oracle may say yes too often, never no. -/
structure TypeOracle where
  couldBeObservable : Place → Bool
  couldBeFunction : Place → Bool

namespace TypeOracle

def noTypeInfo : TypeOracle := ⟨fun _ => true, fun _ => true⟩

def ofDeclarations (d : Oracle.Declarations) (source : String) : TypeOracle where
  couldBeObservable p := (Oracle.exprShape d source p).observable.couldBe
  couldBeFunction p := (Oracle.exprShape d source p).function.couldBe

def ofFile (file : SourceFile) : TypeOracle :=
  ofDeclarations (Oracle.declarations file) file.text

end TypeOracle

end ObserverLint
