/-
The quads of a run are RDF.

RDF says which terms may stand where: a subject is no literal, a predicate is an IRI, and a
graph has an IRI for its name.  Beyond that a literal has one of its two normal forms, and a
blank node has a label that says which triples map it belongs to.  `Quad.Legal` is all of this.

That a run keeps to it needs three things.  Validation lets no triples map through that
would make a literal for a subject or something else than an IRI for a predicate or a graph;
a term map makes nothing but terms of its kind, whatever functions and records do; and objects
that are taken from a parent are the parent's subjects.  `RuleGraph.Makes` has all three of
every quad that is emitted, and what a store has was emitted.
-/
import RdfMapping.Proofs.Execution.SetAndBag

namespace RdfMapping

/-! ### Labels -/

/-- An upper-case hexadecimal digit. -/
def Hex.IsUpper (c : Char) : Prop := '0' ≤ c ∧ c ≤ '9' ∨ 'A' ≤ c ∧ c ≤ 'F'

theorem Hex.isUpper_digit {n : Nat} (h : n < 16) : IsUpper (digit n) := by
  have hall : ∀ n < 16, '0' ≤ digit n ∧ digit n ≤ '9' ∨ 'A' ≤ digit n ∧ digit n ≤ 'F' := by
    decide
  exact hall n h

namespace ByteEscape

/-- ASCII letters and digits, and escapes of an underscore with two upper-case digits. -/
inductive Escaped : List Char → Prop
  | nil : Escaped []
  | kept {c : Char} {cs : List Char} (hc : c.isAlphanum = true) (rest : Escaped cs) :
      Escaped (c :: cs)
  | escape {a b : Char} {cs : List Char} (ha : Hex.IsUpper a) (hb : Hex.IsUpper b)
      (rest : Escaped cs) : Escaped ('_' :: a :: b :: cs)

theorem isAlphanum_of_lt :
    ∀ n < 256, isAlphanumeric (UInt8.ofNat n) = true → (Char.ofNat n).isAlphanum = true := by
  decide +kernel

/-- One more byte in front is kept or escaped. -/
theorem Escaped.byte_append {cs : List Char} (h : Escaped cs) (b : UInt8) :
    Escaped (byte isAlphanumeric '_' b ++ cs) := by
  have hlt : b.toNat < 256 := b.toNat_lt
  unfold byte
  by_cases hkeep : isAlphanumeric b = true
  · rw [if_pos hkeep]
    refine .kept (isAlphanum_of_lt b.toNat hlt ?_) h
    rwa [UInt8.ofNat_toNat]
  · rw [if_neg hkeep]
    exact .escape (Hex.isUpper_digit (by omega)) (Hex.isUpper_digit (by omega)) h

theorem escaped_encode (value : String) : Escaped (encode isAlphanumeric '_' value) := by
  unfold encode
  induction utf8 value with
  | nil => exact .nil
  | cons b bytes ih => exact ih.byte_append b

end ByteEscape

/-- The label names a triples map of the graph by its position, and then some value. -/
def RuleGraph.HasLabel (g : RuleGraph) (label : String) : Prop :=
  ∃ position < g.size, ∃ escaped, ByteEscape.Escaped escaped ∧
    label = "tm" ++ toString position ++ "-" ++ String.ofList escaped

theorem RuleGraph.hasLabel_blankLabel {g : RuleGraph} {position : Nat} (h : position < g.size)
    (value : String) : g.HasLabel (blankLabel (blankScope position) value) := by
  refine ⟨position, h, _, ByteEscape.escaped_encode value, ?_⟩
  rw [← String.toList_inj]
  simp [blankLabel, blankScope]

/-! ### Terms and quads -/

/-- The term may stand in RDF: a literal with a tag is a language string, one without does not
name the datatype that it has anyway, and a blank node belongs to a triples map of the graph. -/
def Term.Legal (g : RuleGraph) : Term → Prop
  | .iri _ => True
  | .blank label => g.HasLabel label
  | .literal _ datatype (some _) => datatype = some Rdf.langString
  | .literal _ datatype none => datatype ≠ some Xsd.string

/-- The terms of a quad. -/
def Quad.terms (q : Quad) : List Term := [q.subject, q.predicate, q.object] ++ q.graph.toList

/-- The quad may stand in RDF: its terms do, each in a place where it may. -/
structure Quad.Legal (g : RuleGraph) (q : Quad) : Prop where
  subject : q.subject.isIri = true ∨ q.subject.isBlank = true
  predicate : q.predicate.isIri = true
  graph : ∀ t, q.graph = some t → ∃ iri, t = .iri iri ∧ iri ≠ Rr.defaultGraph
  terms : ∀ t ∈ q.terms, t.Legal g

theorem Term.legal_of_isIri {g : RuleGraph} {t : Term} (h : t.isIri = true) : t.Legal g := by
  cases t with
  | iri value => trivial
  | _ => cases h

theorem Term.legal_normalLiteral (g : RuleGraph) (value : String)
    (datatype language : Option String) : (normalLiteral value datatype language).Legal g := by
  cases language with
  | some tag => rfl
  | none =>
      show (datatype.filter fun dt => !Xsd.isString dt) ≠ some Xsd.string
      intro h
      have hkept := (Option.filter_eq_some_iff.mp h).2
      simp [Xsd.isString] at hkept

theorem TermMap.CanMake.legal {g : RuleGraph} {m : TermMap} {position : Nat} {t : Term}
    (h : m.CanMake (blankScope position) t) (hposition : position < g.size) : t.Legal g := by
  unfold TermMap.CanMake at h
  cases hm : m.termType with
  | iri => rw [hm] at h; obtain ⟨value, rfl⟩ := h; trivial
  | blankNode =>
      rw [hm] at h
      obtain ⟨value, rfl⟩ := h
      exact RuleGraph.hasLabel_blankLabel hposition value
  | literal =>
      rw [hm] at h
      obtain ⟨value, rfl⟩ := h
      exact Term.legal_normalLiteral g value _ _

namespace RuleGraph

variable {g : RuleGraph} {t : Term}

theorem MakesSubject.legal (h : g.MakesSubject t) : t.Legal g := by
  obtain ⟨position, m, subjectMap, hget, -, hmake⟩ := h
  exact hmake.legal (List.getElem?_eq_some_iff.mp hget).1

theorem MakesObject.legal (h : g.MakesObject t) : t.Legal g := by
  obtain ⟨position, m, p, map, hget, -, -, hmake⟩ := h
  exact hmake.legal (List.getElem?_eq_some_iff.mp hget).1

/-- What comes from where it should is legal. -/
theorem Makes.legal (hvalid : g.validate = .ok ()) {q : Quad} (h : g.Makes q) : q.Legal g where
  subject := by
    have hliteral := h.subject.isLiteral_eq_false hvalid
    cases hsubject : q.subject with
    | iri value => exact .inl rfl
    | blank label => exact .inr rfl
    | literal value datatype language => rw [hsubject] at hliteral; cases hliteral
  predicate := h.predicate
  graph := h.graph
  terms := by
    intro t ht
    simp only [Quad.terms, List.cons_append, List.nil_append, List.mem_cons,
      Option.mem_toList] at ht
    rcases ht with rfl | rfl | rfl | hgraph
    · exact h.subject.legal
    · exact Term.legal_of_isIri h.predicate
    · rcases h.object with hiri | hsubject | hobject
      · exact Term.legal_of_isIri hiri
      · exact hsubject.legal
      · exact hobject.legal
    · obtain ⟨iri, rfl, -⟩ := h.graph t hgraph
      trivial

end RuleGraph

/-! ### Runs -/

namespace Executor

variable {x : Executor} {graph : RuleGraph} {filter : Option (List String)} {session : Session}
  {execution : Execution}

/-- What a store has was emitted, whether repetitions are removed or not. -/
theorem mem_emitted_of_mem_store (h : (x.run graph filter session).result = .ok execution)
    {q : Quad} (hq : q ∈ execution.store.toList) : q ∈ x.emitted graph filter session := by
  cases hremove : x.config.removeDuplicates with
  | false => rwa [toList_eq_emitted h hremove] at hq
  | true =>
      rw [toList_eq_distinct_emitted h hremove] at hq
      obtain ⟨before, after, hsplit, -⟩ := mem_distinct_iff.mp hq
      rw [hsplit]
      simp

/-- **The quads of a run are RDF**, for any provider, functions, configuration and filter. -/
theorem store_legal (h : (x.run graph filter session).result = .ok execution) :
    ∀ q ∈ execution.store.toList, q.Legal graph := by
  intro q hq
  obtain ⟨hvalid, hmakes⟩ := makes_of_mem_emitted (mem_emitted_of_mem_store h hq)
  exact hmakes.legal hvalid

/-! ### A choir -/

/-- Two singers, one without a voice, and a list of songs that breaks off. -/
def choir : Executor where
  provider := FaultySources.provider
    { sources := ⟨[("singers", [.ofPairs [("name", "Ann B."), ("voice", "Alt")],
          .ofPairs [("name", "Éva")]]),
        ("songs", [.ofPairs [("title", "Abendlied")]])]⟩
      faults := [⟨"songs", .read "eof", some 1⟩] }
  config := { sourceErrors := .skipTriplesMap, removeDuplicates := false }

/-- Songs, and singers with a voice, a motto and one another, in the default graph by name. -/
def choirRules : RuleGraph := ⟨
  [{ iri := "ex:Song", logicalSource := some ⟨"songs", .csv, none, none⟩
     subjectMap := some { termMap := (TermMap.reference "title").asBlankNode } },
   { iri := "ex:Singer", logicalSource := some ⟨"singers", .csv, none, none⟩
     subjectMap := some
       { termMap := (TermMap.reference "name").asBlankNode
         graphMaps := [.constant Rr.defaultGraph] }
     predicateObjectMaps := [
       .constant "ex:voice" (.term ((TermMap.reference "voice").withLanguage "de")),
       .constant "ex:motto" (.term ((TermMap.constant "la").withDatatype Xsd.string)),
       .constant "ex:with" (.parent (.unconditional "ex:Singer"))] }]⟩

/-- Ann, whose name has a space and a full stop in it. -/
def ann : Term := .blank "tm1-Ann_20B_2E"

/-- Éva, whose first letter takes two bytes. -/
def eva : Term := .blank "tm1-_C3_89va"

/-- What there is to say of the two. -/
def choirQuads : List Quad :=
  [⟨ann, .iri "ex:voice", .langString "Alt" "de", none⟩,
    ⟨ann, .iri "ex:motto", .string "la", none⟩, ⟨ann, .iri "ex:with", ann, none⟩,
    ⟨eva, .iri "ex:motto", .string "la", none⟩, ⟨eva, .iri "ex:with", eva, none⟩]

theorem choir_emitted : choir.emitted choirRules none {} = choirQuads := by decide +kernel

theorem choir_store_legal :
    ∃ execution, (choir.run choirRules none {}).result = .ok execution ∧
      execution.store.toList = choirQuads ∧ ∀ q ∈ choirQuads, q.Legal choirRules := by
  obtain ⟨execution, hrun⟩ := exists_of_isOk
    (show (choir.run choirRules none {}).result.isOk = true by decide +kernel)
  have hstore := (toList_eq_emitted hrun rfl).trans choir_emitted
  have hlegal := store_legal hrun
  rw [hstore] at hlegal
  exact ⟨execution, hrun, hstore, hlegal⟩

end Executor

end RdfMapping
