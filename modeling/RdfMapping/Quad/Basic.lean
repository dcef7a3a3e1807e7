/-
Quads: statements with the graph they belong to.

A quad has a subject, a predicate and an object, and belongs to a named graph or to the
default graph.  Its canonical text is its N-Quads line without the line end.  Sorting
goes by the four canonical texts one after the other; the default graph comes before
every named one, which the sort key expresses by leaving the fourth component out.
-/
import RdfMapping.Term.Canonical

namespace RdfMapping

/-- A statement in a graph. -/
structure Quad where
  /-- What the statement is about. -/
  subject : Term
  /-- How subject and object are related. -/
  predicate : Term
  /-- What the subject is related to. -/
  object : Term
  /-- The graph the statement belongs to, nothing for the default graph. -/
  graph : Option Term := none
deriving DecidableEq

namespace Quad

/-- The characters of the canonical text. -/
def render (q : Quad) : List Char :=
  q.subject.render ++ ' ' :: (q.predicate.render ++ ' ' :: (q.object.render ++
    (q.graph.elim [] fun g => ' ' :: g.render) ++ [' ', '.']))

/-- The canonical text: an N-Quads line without its line end.  It is the identity of the quad. -/
def canonical (q : Quad) : String :=
  let statement := q.object.write ((q.predicate.write ((q.subject.write "").push ' ')).push ' ')
  (match q.graph with
    | some g => g.write (statement.push ' ')
    | none => statement) ++ " ."

/-- The canonical text is what `render` says. -/
theorem canonical_eq (q : Quad) : q.canonical = String.ofList q.render := by
  rw [← String.toList_inj, String.toList_ofList]
  unfold canonical render
  cases q.graph <;> simp [Term.toList_write]

/-- The canonical texts of the components, the key that quads are sorted by. -/
def sortKey (q : Quad) : List String :=
  [q.subject.canonical, q.predicate.canonical, q.object.canonical]
    ++ (q.graph.map Term.canonical).toList

end Quad

/-- Compares two sort keys component by component; a key that ends first comes first. -/
def sortKeyLe : List String → List String → Bool
  | [], _ => true
  | _ :: _, [] => false
  | a :: as, b :: bs => a < b || (a == b && sortKeyLe as bs)

end RdfMapping
