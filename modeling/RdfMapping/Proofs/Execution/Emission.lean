/-
What the quads of a run are made of.

`RuleGraph.Makes` says of a quad where its terms may come from: the subject from the
subject map of some triples map, the object from an object map, from a parent's subject
map or from a class, predicate and graph from maps that make IRIs.  Every quad that is
collected in the course of a run is of this kind, for any provider, any functions and any
configuration, as long as the rule graph is valid.

The invariant has two halves.  The indexes hold nothing but subjects of parents, so that
objects taken from them are accounted for; and the quads collected so far are accounted
for themselves.
-/
import RdfMapping.Proofs.Execution.Keeps
import RdfMapping.Proofs.Generation
import RdfMapping.Proofs.Quad.Lookalike
import RdfMapping.Proofs.Rules.Selection

namespace RdfMapping

/-! ### Where terms come from -/

/-- A graph that a statement may go to: the default graph, or an IRI that does not stand for it. -/
def GraphName (graph : Option Term) : Prop :=
  ∀ t, graph = some t → ∃ iri, t = .iri iri ∧ iri ≠ Rr.defaultGraph

namespace RuleGraph

/-- Some triples map makes the term as a subject. -/
def MakesSubject (g : RuleGraph) (t : Term) : Prop :=
  ∃ position, ∃ m : TriplesMap, ∃ subjectMap : SubjectMap,
    g.triplesMaps[position]? = some m ∧ m.subjectMap = some subjectMap ∧
      subjectMap.termMap.CanMake (blankScope position) t

/-- Some triples map makes the term as an object. -/
def MakesObject (g : RuleGraph) (t : Term) : Prop :=
  ∃ position, ∃ m : TriplesMap, ∃ p : PredicateObjectMap, ∃ map : TermMap,
    g.triplesMaps[position]? = some m ∧ p ∈ m.predicateObjectMaps ∧
      ObjectMap.term map ∈ p.objectMaps ∧ map.CanMake (blankScope position) t

/-- The terms of the quad come from where they should. -/
structure Makes (g : RuleGraph) (q : Quad) : Prop where
  subject : g.MakesSubject q.subject
  predicate : q.predicate.isIri = true
  object : q.object.isIri = true ∨ g.MakesSubject q.object ∨ g.MakesObject q.object
  graph : GraphName q.graph

end RuleGraph

/-! ### Graphs of statements -/

theorem mem_newGraphs {graphs : List (Option Term)} {terms : List Term} {graph : Option Term}
    (h : graph ∈ newGraphs graphs terms) : ∃ t ∈ terms, graph = graphOfTerm t := by
  induction terms generalizing graphs with
  | nil => simp [newGraphs] at h
  | cons t ts ih =>
      unfold newGraphs at h
      dsimp only at h
      split at h
      · obtain ⟨u, hu, hgraph⟩ := ih h
        exact ⟨u, by simp [hu], hgraph⟩
      · rcases List.mem_cons.mp h with rfl | h
        · exact ⟨t, by simp, rfl⟩
        · obtain ⟨u, hu, hgraph⟩ := ih h
          exact ⟨u, by simp [hu], hgraph⟩

theorem graphName_graphOfTerm {t : Term} (h : t.isIri = true) : GraphName (graphOfTerm t) := by
  unfold graphOfTerm
  split
  · intro u hu
    cases hu
  · rename_i hne
    rintro u ⟨⟩
    cases t with
    | iri value => exact ⟨value, rfl, by simpa using hne⟩
    | _ => cases h

theorem graphName_of_mem_addGraphs {graphs : List (Option Term)} {terms : List Term}
    (hgraphs : ∀ graph ∈ graphs, GraphName graph) (hterms : ∀ t ∈ terms, t.isIri = true) :
    ∀ graph ∈ addGraphs graphs terms, GraphName graph := by
  intro graph hgraph
  rcases List.mem_append.mp hgraph with hgraph | hgraph
  · exact hgraphs graph hgraph
  · obtain ⟨t, ht, rfl⟩ := mem_newGraphs hgraph
    exact graphName_graphOfTerm (hterms t ht)

theorem graphName_of_mem_targetGraphs {declared : Bool} {graphs : List (Option Term)}
    (hgraphs : ∀ graph ∈ graphs, GraphName graph) :
    ∀ graph ∈ targetGraphs declared graphs, GraphName graph := by
  intro graph hgraph
  cases declared with
  | true => exact hgraphs graph hgraph
  | false =>
      rw [targetGraphs, if_neg (by simp), List.mem_singleton] at hgraph
      intro t ht
      rw [hgraph] at ht
      cases ht

/-! ### Indexes -/

theorem mem_find_ofRows {layouts : List (List String)} {rows : List ParentRow}
    {layout : List String} {key : JoinKey} {t : Term}
    (h : t ∈ (ParentIndex.ofRows layouts rows).find layout key) :
    ∃ row ∈ rows, t ∈ row.subjects := by
  by_cases hlayout : layout ∈ layouts
  · rw [ParentIndex.find_ofRows rows hlayout] at h
    obtain ⟨row, hrow, ht⟩ := List.mem_flatMap.mp h
    exact ⟨row, (List.mem_filter.mp hrow).1, ht⟩
  · have hcovers : ((ParentIndex.ofRows layouts rows).lookup layout).isSome = false := by
      rw [← ParentIndex.covers, ParentIndex.covers_ofRows]
      simpa using hlayout
    have hnone := Option.isNone_iff_eq_none.mp (Option.isSome_eq_false_iff.mp hcovers)
    rw [ParentIndex.find, hnone] at h
    cases h

namespace Engine

open Step

/-- Indexes hold subjects of the graph, and what is collected comes from where it should. -/
structure Accounted (g : RuleGraph) (s : RunState) : Prop where
  indexes : ∀ iri index, s.indexes.lookup iri = some index →
    ∀ layout key, ∀ t ∈ index.find layout key, g.MakesSubject t
  quads : ∀ q ∈ s.progress.quads, g.Makes q

theorem accounted_ofContents (g : RuleGraph) : OfContents (Accounted g) := by
  intro s s' hindexes hquads hs
  exact ⟨by rw [hindexes]; exact hs.indexes, by rw [hquads]; exact hs.quads⟩

variable {e : Engine} {I : RunState → Prop}

theorem position?_getElem? {g : RuleGraph} {iri : String} {position : Nat} {m : TriplesMap}
    (hposition : g.position? iri = some position) (hget : g.get? iri = some m) :
    g.triplesMaps[position]? = some m := by
  rw [RuleGraph.get?_eq_bind, hposition] at hget
  exact hget

theorem keeps_addRow {position : Nat} {parent : TriplesMap} {subjectMap : SubjectMap}
    (hI : OfContents I) (hget : e.graph.triplesMaps[position]? = some parent)
    (hsubject : parent.subjectMap = some subjectMap) (found : ParentScan) (n : Nat)
    (record : Record)
    (hfound : ∀ row ∈ found.rows, ∀ t ∈ row.subjects, e.graph.MakesSubject t) :
    Keeps I (e.addRow parent subjectMap (blankScope position) found n record) fun found =>
      ∀ row ∈ found.rows, ∀ t ∈ row.subjects, e.graph.MakesSubject t := by
  refine keeps_bind (keeps_evaluate hI e subjectMap.termMap record _) fun result hresult => ?_
  cases result with
  | error error =>
      refine keeps_bind (keeps_log hI _) fun _ _ => ?_
      refine keeps_bind (keeps_modify_of_same hI (fun _ => rfl) (fun _ => rfl)) fun _ _ => ?_
      exact keeps_pure hfound
  | ok terms =>
      cases terms with
      | nil => exact keeps_pure hfound
      | cons t ts =>
          refine keeps_pure ?_
          intro row hrow u hu
          rcases List.mem_cons.mp hrow with rfl | hrow
          · exact ⟨position, parent, subjectMap, hget, hsubject,
              Generator.canMake_of_terms hresult.symm u hu⟩
          · exact hfound row hrow u hu

theorem keeps_buildIndex {position : Nat} {parent : TriplesMap} (hI : OfContents I)
    (hget : e.graph.triplesMaps[position]? = some parent) (asked : List String) :
    Keeps I (e.buildIndex position parent asked) fun index =>
      ∀ layout key, ∀ t ∈ index.find layout key, e.graph.MakesSubject t := by
  refine keeps_inSpan hI _ ?_
  refine keeps_bind (keeps_sourceOf parent) fun source _ => ?_
  refine keeps_bind (keeps_subjectMapOf parent) fun subjectMap hsubject => ?_
  refine keeps_bind (keeps_openSource hI _ _ _) fun items _ => ?_
  refine keeps_bind (keeps_scan hI e parent.iri (fun found n record hfound =>
    keeps_addRow hI hget hsubject found n record hfound) items 0 {} (by simp)) fun found hfound => ?_
  refine keeps_bind (keeps_log hI _) fun _ _ => keeps_pure ?_
  intro layout key t ht
  obtain ⟨row, hrow, ht⟩ := mem_find_ofRows ht
  exact hfound row (List.mem_reverse.mp hrow) t ht

theorem keeps_indexFor {position : Nat} {parent : TriplesMap}
    (hget : e.graph.triplesMaps[position]? = some parent) (layout : List String) :
    Keeps (Accounted e.graph) (e.indexFor position parent layout) fun index =>
      ∀ layout key, ∀ t ∈ index.find layout key, e.graph.MakesSubject t := by
  rw [indexFor_eq]
  refine keeps_get_bind fun s hs => ?_
  cases hfound : (s.indexes.lookup parent.iri).filter (·.covers layout) with
  | some index =>
      obtain ⟨hlookup, -⟩ := Option.filter_eq_some_iff.mp hfound
      exact keeps_pure (hs.indexes _ _ hlookup)
  | none =>
      refine keeps_bind (keeps_buildIndex (accounted_ofContents _) hget layout)
        fun index hindex => ?_
      refine keeps_bind (keeps_modify fun s hs => ⟨?_, hs.quads⟩) fun _ _ => keeps_pure hindex
      intro iri index' hlookup
      rw [lookup_replace] at hlookup
      by_cases hiri : iri = parent.iri
      · rw [if_pos hiri, Option.some.injEq] at hlookup
        rw [← hlookup]
        exact hindex
      · rw [if_neg hiri] at hlookup
        exact hs.indexes iri index' hlookup

/-- What a reference to a parent gives are subjects of the graph. -/
theorem keeps_resolve (r : RefObjectMap) (child : TriplesMap) (record : Record) :
    Keeps (Accounted e.graph) (e.resolve r child record) fun result =>
      ∀ ts, result = .ok ts → ∀ t ∈ ts, e.graph.MakesSubject t := by
  refine keeps_bind (keeps_parentOf e r child) fun found hfound => ?_
  obtain ⟨position, parent⟩ := found
  have hget := position?_getElem? hfound.1 hfound.2
  dsimp only
  split
  · refine keeps_bind (keeps_subjectMapOf parent) fun subjectMap hsubject => ?_
    refine (keeps_evaluate (accounted_ofContents _) e _ _ _).mono ?_
    rintro result rfl ts hts t ht
    exact ⟨position, parent, subjectMap, hget, hsubject, Generator.canMake_of_terms hts t ht⟩
  · split
    · refine keeps_pure ?_
      rintro ts ⟨⟩ t ht
      cases ht
    · rename_i key _
      refine keeps_bind (keeps_indexFor hget _) fun index hindex => keeps_pure ?_
      rintro ts ⟨⟩ t ht
      exact hindex _ _ t ht

/-! ### Term maps and object maps -/

theorem keeps_survive (hI : OfContents I) (site : Site) {result : Except FunctionError (List Term)}
    {P : Term → Prop} (h : ∀ ts, result = .ok ts → ∀ t ∈ ts, P t) :
    Keeps I (survive site result) fun ts => ∀ t ∈ ts, P t := by
  cases result with
  | ok ts => exact keeps_pure (h ts rfl)
  | error error => exact keeps_bind (keeps_absorb hI _ _ _) fun _ _ => keeps_pure (by simp)

theorem keeps_termsAt (hI : OfContents I) (site : Site) (m : TermMap) :
    Keeps I (e.termsAt site m) fun ts => ∀ t ∈ ts, m.CanMake site.scope t := by
  refine keeps_bind (keeps_evaluate hI e m site.record site.scope) fun result hresult => ?_
  refine keeps_survive hI site ?_
  rintro ts rfl
  exact Generator.canMake_of_terms hresult.symm

theorem keeps_allTermsAt (hI : OfContents I) (site : Site) (ms : List TermMap) :
    Keeps I (e.allTermsAt site ms) fun ts => ∀ t ∈ ts, ∃ m ∈ ms, m.CanMake site.scope t := by
  induction ms with
  | nil => exact keeps_pure (by simp)
  | cons m ms ih =>
      refine keeps_bind (keeps_termsAt hI site m) fun ts hts => ?_
      refine keeps_bind ih fun us hus => keeps_pure ?_
      intro t ht
      rcases List.mem_append.mp ht with ht | ht
      · exact ⟨m, by simp, hts t ht⟩
      · obtain ⟨m', hm', hmake⟩ := hus t ht
        exact ⟨m', by simp [hm'], hmake⟩

/-- Maps that make IRIs make IRIs. -/
theorem keeps_irisAt (hI : OfContents I) (site : Site) {ms : List TermMap}
    (hms : ∀ m ∈ ms, m.termType = .iri) :
    Keeps I (e.allTermsAt site ms) fun ts => ∀ t ∈ ts, t.isIri = true := by
  refine (keeps_allTermsAt hI site ms).mono fun ts hts t ht => ?_
  obtain ⟨m, hm, hmake⟩ := hts t ht
  exact hmake.isIri (hms m hm)

theorem keeps_addGraphsAt (hI : OfContents I) (site : Site) {graphs : List (Option Term)}
    {ms : List TermMap} (hgraphs : ∀ graph ∈ graphs, GraphName graph)
    (hms : ∀ m ∈ ms, m.termType = .iri) :
    Keeps I (e.addGraphsAt site graphs ms) fun all => ∀ graph ∈ all, GraphName graph :=
  keeps_bind (keeps_irisAt hI site hms) fun _ hts =>
    keeps_pure (graphName_of_mem_addGraphs hgraphs hts)

theorem keeps_allObjectsAt {site : Site} {position : Nat} (hscope : site.scope = blankScope position)
    (hget : e.graph.triplesMaps[position]? = some site.triplesMap) {p : PredicateObjectMap}
    (hp : p ∈ site.triplesMap.predicateObjectMaps) {ms : List ObjectMap}
    (hms : ∀ o ∈ ms, o ∈ p.objectMaps) :
    Keeps (Accounted e.graph) (e.allObjectsAt site ms) fun ts =>
      ∀ t ∈ ts, e.graph.MakesSubject t ∨ e.graph.MakesObject t := by
  have hI := accounted_ofContents e.graph
  induction ms with
  | nil => exact keeps_pure (by simp)
  | cons o ms ih =>
      have hfirst : Keeps (Accounted e.graph) (e.objectsAt site o) fun ts =>
          ∀ t ∈ ts, e.graph.MakesSubject t ∨ e.graph.MakesObject t := by
        cases o with
        | term map =>
            refine (keeps_termsAt hI site map).mono fun ts hts t ht => .inr ?_
            exact ⟨position, site.triplesMap, p, map, hget, hp, hms _ (by simp), hscope ▸ hts t ht⟩
        | parent r =>
            refine keeps_bind (keeps_resolve r site.triplesMap site.record) fun result hresult => ?_
            exact keeps_survive hI site fun ts hts t ht => .inl (hresult ts hts t ht)
      refine keeps_bind hfirst fun ts hts => ?_
      refine keeps_bind (ih fun o' ho' => hms o' (by simp [ho'])) fun us hus => keeps_pure ?_
      intro t ht
      rcases List.mem_append.mp ht with ht | ht
      · exact hts t ht
      · exact hus t ht

/-! ### Statements -/

theorem keeps_emit {g : RuleGraph} {quads : List Quad} (h : ∀ q ∈ quads, g.Makes q) :
    Keeps (Accounted g) (Step.emit quads) fun _ => True := by
  refine keeps_modify fun s hs => ⟨hs.indexes, ?_⟩
  intro q hq
  simp only [Array.mem_append, List.mem_toArray] at hq
  rcases hq with hq | hq
  · exact hs.quads q hq
  · exact h q hq

theorem makes_of_mem_classQuads {g : RuleGraph} {subjects : List Term} {classes : List String}
    {graphs : List (Option Term)} (hsubjects : ∀ t ∈ subjects, g.MakesSubject t)
    (hgraphs : ∀ graph ∈ graphs, GraphName graph) :
    ∀ q ∈ classQuads subjects classes graphs, g.Makes q := by
  intro q hq
  simp only [classQuads, List.mem_flatMap, List.mem_map] at hq
  obtain ⟨t, ht, c, -, graph, hgraph, rfl⟩ := hq
  exact ⟨hsubjects t ht, rfl, .inl rfl, hgraphs graph hgraph⟩

theorem makes_of_mem_statementQuads {g : RuleGraph} {subjects predicates objects : List Term}
    {graphs : List (Option Term)} (hsubjects : ∀ t ∈ subjects, g.MakesSubject t)
    (hpredicates : ∀ t ∈ predicates, t.isIri = true)
    (hobjects : ∀ t ∈ objects, g.MakesSubject t ∨ g.MakesObject t)
    (hgraphs : ∀ graph ∈ graphs, GraphName graph) :
    ∀ q ∈ statementQuads subjects predicates objects graphs, g.Makes q := by
  intro q hq
  simp only [statementQuads, List.mem_flatMap, List.mem_map] at hq
  obtain ⟨t, ht, p, hp, o, ho, graph, hgraph, rfl⟩ := hq
  exact ⟨hsubjects t ht, hpredicates p hp, .inr (hobjects o ho), hgraphs graph hgraph⟩

theorem keeps_statementsAt {site : Site} {position : Nat} (hscope : site.scope = blankScope position)
    (hget : e.graph.triplesMaps[position]? = some site.triplesMap) (subjectMap : SubjectMap)
    {subjects : List Term} {graphs : List (Option Term)} {p : PredicateObjectMap}
    (hp : p ∈ site.triplesMap.predicateObjectMaps) (hexecutable : p.Executable e.graph)
    (hsubjects : ∀ t ∈ subjects, e.graph.MakesSubject t)
    (hgraphs : ∀ graph ∈ graphs, GraphName graph) :
    Keeps (Accounted e.graph) (e.statementsAt site subjectMap subjects graphs p) fun _ => True := by
  have hI := accounted_ofContents e.graph
  refine keeps_bind (keeps_irisAt hI site hexecutable.predicates) fun predicates hpredicates => ?_
  split
  · exact keeps_pure trivial
  refine keeps_bind (keeps_allObjectsAt hscope hget hp fun _ ho => ho) fun objects hobjects => ?_
  split
  · exact keeps_pure trivial
  refine keeps_bind (keeps_addGraphsAt hI site hgraphs hexecutable.graphs) fun all hall => ?_
  dsimp only
  split
  · exact keeps_pure trivial
  exact keeps_emit (makes_of_mem_statementQuads hsubjects hpredicates hobjects
    (graphName_of_mem_targetGraphs hall))

theorem keeps_describe (site : Site) {position : Nat} (hscope : site.scope = blankScope position)
    (hget : e.graph.triplesMaps[position]? = some site.triplesMap)
    (hexecutable : site.triplesMap.Executable e.graph position) {subjectMap : SubjectMap}
    (hsubject : subjectMap.Executable) {subjects : List Term}
    (hsubjects : ∀ t ∈ subjects, e.graph.MakesSubject t) :
    Keeps (Accounted e.graph) (e.describe site subjectMap subjects) fun _ => True := by
  have hI := accounted_ofContents e.graph
  refine keeps_bind (keeps_addGraphsAt hI site (by simp) hsubject.graphs) fun graphs hgraphs => ?_
  refine keeps_bind (keeps_emit (makes_of_mem_classQuads hsubjects
    (graphName_of_mem_targetGraphs hgraphs))) fun _ _ => ?_
  exact keeps_forM fun p hp =>
    keeps_statementsAt hscope hget subjectMap hp (hexecutable.statements p hp) hsubjects hgraphs

/-! ### Records and triples maps -/

theorem keeps_visitRecord (policy : SubjectErrorPolicy) {position : Nat} {m : TriplesMap}
    (hget : e.graph.triplesMaps[position]? = some m) (hexecutable : m.Executable e.graph position)
    {subjectMap : SubjectMap} (hsubject : m.subjectMap = some subjectMap) (n : Nat)
    (record : Record) :
    Keeps (Accounted e.graph)
      (e.visitRecord policy m (blankScope position) subjectMap n record) fun _ => True := by
  have hI := accounted_ofContents e.graph
  refine keeps_bind (keeps_countRecord hI) fun _ _ => ?_
  refine keeps_bind (keeps_evaluate hI e _ _ _) fun result hresult => ?_
  cases result with
  | error error =>
      cases policy with
      | skipRecord => exact keeps_bind (keeps_absorb hI _ _ _) fun _ _ => keeps_countSkipped hI
      | abortTriplesMap => exact keeps_throw _
  | ok subjects =>
      cases subjects with
      | nil => exact keeps_bind (keeps_log hI _) fun _ _ => keeps_countSkipped hI
      | cons t ts =>
          obtain ⟨subjectMap', hsubject', hmap⟩ := hexecutable.subject
          rw [hsubject, Option.some.injEq] at hsubject'
          refine keeps_describe ⟨m, blankScope position, n, record⟩ rfl hget hexecutable
            (hsubject' ▸ hmap) fun u hu => ?_
          exact ⟨position, m, subjectMap, hget, hsubject,
            Generator.canMake_of_terms hresult.symm u hu⟩

theorem keeps_runTriplesMap (policy : SubjectErrorPolicy) {position : Nat} {m : TriplesMap}
    (hget : e.graph.triplesMaps[position]? = some m) (hexecutable : m.Executable e.graph position) :
    Keeps (Accounted e.graph) (e.runTriplesMap policy position m) fun _ => True := by
  have hI := accounted_ofContents e.graph
  refine keeps_inSpan hI _ ?_
  refine keeps_bind (keeps_sourceOf m) fun source _ => ?_
  refine keeps_bind (keeps_subjectMapOf m) fun subjectMap hsubject => ?_
  refine keeps_bind (keeps_openSource hI _ _ _) fun items _ => ?_
  have hvisit : ∀ (_ : Unit) n record, True → Keeps (Accounted e.graph)
      (e.visitRecord policy m (blankScope position) subjectMap n record) fun _ => True :=
    fun _ n record _ => keeps_visitRecord policy hget hexecutable hsubject n record
  refine keeps_bind (keeps_scan hI e m.iri hvisit items 0 () trivial) fun _ _ => ?_
  exact keeps_get_bind fun s _ => keeps_log hI _

/-- The quads that a triples map leaves behind come from where they should. -/
theorem keeps_contribution (c : Config) {position : Nat} {m : TriplesMap}
    (hget : e.graph.triplesMaps[position]? = some m) (hexecutable : m.Executable e.graph position) :
    Keeps (Accounted e.graph) (e.contribution c position m) fun part =>
      ∀ q ∈ part.quads, e.graph.Makes q := by
  have hI := accounted_ofContents e.graph
  refine keeps_bind (keeps_modify fun s hs => ⟨hs.indexes, by simp⟩) fun _ _ => ?_
  refine keeps_bind (keeps_attempt (keeps_runTriplesMap _ hget hexecutable)) fun outcome _ => ?_
  refine keeps_get_bind fun s hs => ?_
  have hrestore : Keeps (Accounted e.graph) (set { s with parentDiagnostics := #[] }) fun _ => True :=
    fun t ht => ⟨hI s _ rfl rfl hs, trivial⟩
  refine keeps_bind hrestore fun _ _ => ?_
  cases outcome with
  | ok _ => exact keeps_pure fun q hq => hs.quads q (by simpa using hq)
  | error failure =>
      dsimp only
      split
      · exact keeps_bind (keeps_log hI _) fun _ _ => keeps_pure (by simp)
      · exact keeps_throw _

theorem keeps_contributions (c : Config) (hvalid : e.graph.validate = .ok ())
    {selected : List (Nat × TriplesMap)}
    (hselected : ∀ entry ∈ selected, e.graph.triplesMaps[entry.1]? = some entry.2) :
    Keeps (Accounted e.graph) (e.contributions c selected) fun parts =>
      ∀ part ∈ parts, ∀ q ∈ part.quads, e.graph.Makes q := by
  induction selected with
  | nil => exact keeps_pure (by simp)
  | cons entry selected ih =>
      obtain ⟨position, m⟩ := entry
      have hget := hselected (position, m) (by simp)
      have hexecutable := RuleGraph.validate_eq_ok_iff.mp hvalid position m hget
      refine keeps_bind (keeps_contribution c hget hexecutable) fun first hfirst => ?_
      refine keeps_bind (ih fun other hother => hselected other (by simp [hother])) fun rest hrest =>
        keeps_pure ?_
      intro part hpart
      rcases List.mem_cons.mp hpart with rfl | hpart
      · exact hfirst
      · exact hrest part hpart

end Engine

end RdfMapping
