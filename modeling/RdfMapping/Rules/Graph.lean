/-
The rule graph: the triples maps of a mapping in declaration order.

A triples map is found by its identity; where an identity is declared twice, the first
declaration counts.  Positions matter beyond lookup: they order the output and they keep
the blank nodes of different triples maps apart.

Whatever asks for something the graph does not hold, or finds something in it that cannot
be executed, blames one triples map for one fault; `GraphError` is that verdict.
-/
import RdfMapping.Rules.TriplesMap

namespace RdfMapping

/-- The places of a rule graph that must produce IRIs. -/
inductive IriPlace where
  /-- A graph map of subjects or statements. -/
  | graph
  /-- A predicate map. -/
  | predicate
deriving DecidableEq

/-- What is wrong with a triples map. -/
inductive GraphFault where
  /-- An earlier triples map has the same identity. -/
  | duplicateIdentity
  /-- It reads nothing. -/
  | missingLogicalSource
  /-- It makes no subjects. -/
  | missingSubjectMap
  /-- Its subjects would be literals. -/
  | literalSubject
  /-- Some statements would have no predicate. -/
  | missingPredicateMap
  /-- A predicate or graph would not be an IRI. -/
  | notIri (place : IriPlace)
  /-- A parent is not in the graph. -/
  | unknownParent (iri : String)
  /-- It was asked for but is not in the graph. -/
  | unknownTriplesMap
  /-- It was refused by another check, in that check's words. -/
  | refused (reason : String)
deriving DecidableEq

/-- A triples map that keeps the graph from being executed. -/
structure GraphError where
  /-- The identity of the triples map. -/
  triplesMap : String
  /-- What is wrong with it. -/
  fault : GraphFault
deriving DecidableEq

/-- The wording of a place. -/
def IriPlace.message : IriPlace → String
  | graph => "graph map"
  | predicate => "predicate map"

/-- The wording of a fault. -/
def GraphFault.message : GraphFault → String
  | duplicateIdentity => "duplicate TriplesMap identity"
  | missingLogicalSource => "missing logical source"
  | missingSubjectMap => "missing subject map"
  | literalSubject => "subject map cannot generate literals"
  | missingPredicateMap => "predicate-object map without predicate map"
  | notIri place => place.message ++ " must generate IRIs"
  | unknownParent iri => "unknown parent TriplesMap " ++ iri
  | unknownTriplesMap => "unknown TriplesMap"
  | refused reason => reason

/-- Triples maps in declaration order. -/
structure RuleGraph where
  /-- The triples maps, first declared first. -/
  triplesMaps : List TriplesMap := []

namespace RuleGraph

/-! ### Lookup -/

/-- The number of triples maps. -/
def size (g : RuleGraph) : Nat := g.triplesMaps.length

/-- The graph with one more triples map at the end. -/
def add (g : RuleGraph) (m : TriplesMap) : RuleGraph := ⟨g.triplesMaps ++ [m]⟩

/-- The position of the first triples map with an identity. -/
def position? (g : RuleGraph) (iri : String) : Option Nat :=
  g.triplesMaps.findIdx? fun m => m.iri == iri

/-- The first triples map with an identity. -/
def get? (g : RuleGraph) (iri : String) : Option TriplesMap :=
  g.triplesMaps.find? fun m => m.iri == iri

/-- The parent reference lists by which objects are taken from a triples map, each once, in order
of first use. -/
def keyLayouts (g : RuleGraph) (parent : String) : List (List String) :=
  ((g.triplesMaps.flatMap (·.parents)).filter fun r => r.parent == parent).foldl
    (fun layouts r =>
      if layouts.contains r.parentReferences then layouts else layouts ++ [r.parentReferences]) []

/-! ### Selection -/

/-- The positions of the triples maps asked for, each once, in declaration order; all of them if
nothing in particular is asked for. -/
def select (g : RuleGraph) : Option (List String) → Except GraphError (List Nat)
  | none => .ok (List.range g.size)
  | some iris => do
    let positions ← iris.mapM fun iri => match g.position? iri with
      | some position => .ok position
      | none => .error ⟨iri, .unknownTriplesMap⟩
    return (List.range g.size).filter positions.contains

end RuleGraph

end RdfMapping
