/-
Making terms from a term map and a record.

The values of a term map become terms one by one.  A value for an IRI must be an absolute
IRI or resolve to one, and is dropped otherwise; a constant is kept even then.  A value
for a blank node becomes part of a label, escaped and put behind the scope of the triples
map, so that equal values of one triples map share a node and different triples maps never
do.

Nothing but a function can fail here.  What is worth telling about, values dropped and
calls withheld, is noted on the side and has no influence on the terms.
-/
import RdfMapping.Rules.TermMap
import RdfMapping.Template.Expansion
import RdfMapping.Function.Call
import RdfMapping.Iri.Resolve
import RdfMapping.Term.Basic

namespace RdfMapping

/-- What is worth telling about the making of terms. -/
inductive GenerationNote where
  /-- A value that should have become an IRI is none. -/
  | dropped (value : String)
  /-- A call was withheld because a required parameter had no value. -/
  | withheld (function parameter : String)
deriving DecidableEq

/-! ### Blank nodes -/

/-- The scope of the blank nodes of the triples map at a position. -/
def blankScope (position : Nat) : String := "tm" ++ toString position

/-- The label of the blank node for a value in a scope. -/
def blankLabel (scope value : String) : String :=
  String.ofList (scope.toList ++ '-' :: ByteEscape.encode ByteEscape.isAlphanumeric '_' value)

/-! ### Terms from values -/

/-- The term that a value becomes, if it becomes one. -/
def TermMap.termOf? (m : TermMap) (base : Option Iri) (scope value : String) : Option Term :=
  match m.termType with
  | .iri => (absoluteIri? base value).map .iri
  | .blankNode => some (.blank (blankLabel scope value))
  | .literal => some (.normalLiteral value m.datatype m.language)

/-- The term of a constant, which is kept as it is if it does not become one otherwise. -/
def TermMap.constantTerm (m : TermMap) (base : Option Iri) (scope value : String) : Term :=
  (m.termOf? base scope value).getD (.iri value)

/-- The terms that values become and the values that become none, both in order. -/
def TermMap.convert (m : TermMap) (base : Option Iri) (scope : String) (values : List String) :
    List Term × List String :=
  values.foldr (fun v (terms, dropped) =>
    match m.termOf? base scope v with
    | some t => (t :: terms, dropped)
    | none => (terms, v :: dropped)) ([], [])

/-- Every value either becomes a term or is dropped. -/
theorem TermMap.convert_eq (m : TermMap) (base : Option Iri) (scope : String)
    (values : List String) :
    m.convert base scope values =
      (values.filterMap (m.termOf? base scope),
        values.filter fun v => (m.termOf? base scope v).isNone) := by
  unfold TermMap.convert
  induction values with
  | nil => rfl
  | cons v vs ih =>
    rw [List.foldr_cons, ih]
    cases h : m.termOf? base scope v with
    | none => simp [h]
    | some t => simp [h]

/-! ### Terms from records -/

/-- What the making of terms depends on besides the rule and the record. -/
structure Generator where
  /-- The functions that may be called. -/
  functions : Registry
  /-- What relative IRIs are resolved against. -/
  base : Option Iri := none

/-- A step that may be noted about and may fail only in a function. -/
abbrev Noting := EStateM FunctionError (Array GenerationNote)

/-- Adds notes in order. -/
def Noting.tell (notes : List GenerationNote) : Noting Unit :=
  modify fun told => told ++ notes.toArray

/-- The values of a call that ended, with a note if it was withheld. -/
def Noting.ofOutcome (function : String) (outcome : CallOutcome) : Noting (List String) := do
  if let .withheld parameter := outcome then
    Noting.tell [.withheld function parameter]
  match outcome.values function with
  | .ok values => return values
  | .error e => throw e

namespace Generator

/-- The terms that values become, with a note for each value that becomes none. -/
def keep (g : Generator) (m : TermMap) (scope : String) (values : List String) :
    Noting (List Term) := do
  let (terms, dropped) := m.convert g.base scope values
  Noting.tell (dropped.map .dropped)
  return terms

mutual

/-- The terms of a term map for a record, noting on the way. -/
def generate (g : Generator) (record : Record) (scope : String) : TermMap → Noting (List Term)
  | m@⟨.constant value, _, _, _⟩ => return [m.constantTerm g.base scope value]
  | m@⟨.reference name, _, _, _⟩ => g.keep m scope (record.get name)
  | m@⟨.template t, type, _, _⟩ => g.keep m scope (t.expand record (type == .iri))
  | m@⟨.function ⟨id, parameters⟩, _, _, _⟩ => do
    let outcome ← g.functions.call id (g.inputs record scope parameters)
    let values ← Noting.ofOutcome id outcome
    g.keep m scope values

/-- The parameters of a call, each evaluated to the lexical forms of its terms. -/
def inputs (g : Generator) (record : Record) (scope : String) :
    List Parameter → List (Input FunctionError (Array GenerationNote))
  | [] => []
  | ⟨name, value, required⟩ :: rest =>
    ⟨name, required, (·.map Term.lexical) <$> g.generate record scope value⟩
      :: g.inputs record scope rest

end

/-- The terms of a term map for a record or the function error that kept it from making any,
together with all that was noted. -/
def evaluate (g : Generator) (m : TermMap) (record : Record) (scope : String) :
    Except FunctionError (List Term) × Array GenerationNote :=
  match g.generate record scope m #[] with
  | .ok terms notes => (.ok terms, notes)
  | .error e notes => (.error e, notes)

/-- The terms of a term map for a record. -/
def terms (g : Generator) (m : TermMap) (record : Record) (scope : String) :
    Except FunctionError (List Term) :=
  (g.evaluate m record scope).1

/-- The lexical forms of the terms of a term map for a record. -/
def lexicalValues (g : Generator) (m : TermMap) (record : Record) (scope : String) :
    Except FunctionError (List String) :=
  (g.terms m record scope).map (·.map Term.lexical)

end Generator

end RdfMapping
