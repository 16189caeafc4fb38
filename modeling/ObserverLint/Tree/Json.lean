import ObserverLint.Json.Decode
import ObserverLint.Tree.Listing

namespace ObserverLint

def ListedNode.ofJson? : Json → Option ListedNode
  | .array [.nat depth, .string kind, .nat flags, .string field, .nat start, .nat stop] =>
    some {
      depth
      label := {
        kind := .ofSpelling kind
        field := if field.isEmpty then none else some (.ofSpelling field)
        named := flags % 2 == 1
        start
        stop } }
  | _ => none

/-- The tree in a JSON object, and whether its text has errors. The nodes are listed in document
order, each as an array of its depth, kind, flags, field and the bounds of its text. -/
def Node.ofJson? : Json → Option (Node × Bool)
  | .object fields =>
    match Json.required? "has_error" fields, Json.required? "nodes" fields with
    | some (.bool hasErrors), some (.array nodes) => do
      some (← Node.ofListing? (← nodes.mapM ListedNode.ofJson?), hasErrors)
    | _, _ => none
  | _ => none

end ObserverLint
