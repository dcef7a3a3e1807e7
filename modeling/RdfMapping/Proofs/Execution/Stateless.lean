/-
Running a triples map performs its yield.

Each part of a triples map is matched with the part of its yield that says what it comes
to: term maps, object maps, predicate-object maps, records, the scan of the source.  The
matching goes by the structure of the program, and a failure of a parent on the way is a
failure of the yield at the same place.

The result is `yields_runTriplesMap`: what a triples map counts, which quads it makes and
how it ends is a function of the rules and the data alone.  The triples maps of a run share
one state, but none of them can tell.
-/
import RdfMapping.Proofs.Execution.JoinIndex

namespace RdfMapping

theorem statementQuads_nil_objects (subjects predicates : List Term)
    (graphs : List (Option Term)) : statementQuads subjects predicates [] graphs = [] := by
  simp [statementQuads]

theorem statementQuads_nil_graphs (subjects predicates objects : List Term) :
    statementQuads subjects predicates objects [] = [] := by
  simp [statementQuads]

namespace Engine

variable {e : Engine} {α : Type}

/-- The step performs what a yield says. -/
def Yields (e : Engine) (step : Step Unit) (y : Yield) : Prop :=
  e.Performs step y.tally y.outcome

/-! ### Yields one behind the other -/

theorem yields_andThen {x : Step Unit} {f : Unit → Step Unit} {y z : Yield}
    (hx : e.Yields x y) (hf : e.Yields (f ()) z) : e.Yields (x >>= f) (y.andThen z) := by
  unfold Yields Yield.outcome at *
  cases hy : y.failure with
  | none =>
      simp only [hy] at hx
      simpa [Yield.andThen, hy] using performs_bind hx hf
  | some failure =>
      simp only [hy] at hx
      simpa [Yield.andThen, hy] using performs_bind_error f hx

theorem yields_forM {f : α → Step Unit} {g : α → Yield} {as : List α}
    (h : ∀ a ∈ as, e.Yields (f a) (g a)) : e.Yields (as.forM f) (.all (as.map g)) := by
  induction as with
  | nil => exact performs_pure _
  | cons a as ih =>
      rw [List.forM]
      exact yields_andThen (h a (by simp)) (ih fun b hb => h b (by simp [hb]))

theorem yields_bind_of_silent {x : Step α} {f : α → Step Unit} {a : α} {y : Yield}
    (hx : e.Performs x {} (.ok a)) (hf : e.Yields (f a) y) : e.Yields (x >>= f) y :=
  performs_bind_of_silent hx hf

theorem yields_error {x : Step α} (f : α → Step Unit) {error : Error}
    (hx : e.Performs x {} (.error (.ofError error))) : e.Yields (x >>= f) (.ofError error) :=
  performs_bind_error f hx

theorem yields_empty : e.Yields (pure ()) {} := performs_pure _

theorem yields_emit (quads : List Quad) : e.Yields (Step.emit quads) (.ofQuads quads) :=
  performs_emit quads

/-! ### Term maps and object maps -/

theorem performs_survive (site : Site) (result : Except FunctionError (List Term)) :
    e.Performs (survive site result) {} (.ok (orNone result)) := by
  cases result with
  | ok terms => exact performs_pure _
  | error error => exact performs_bind_of_silent (performs_absorb _ _ _) (performs_pure _)

theorem performs_termsAt (site : Site) (m : TermMap) :
    e.Performs (e.termsAt site m) {}
      (.ok (orNone (e.generator.terms m site.record site.scope))) :=
  performs_bind_of_silent (performs_evaluate _ _ _) (performs_survive _ _)

theorem performs_allTermsAt (site : Site) (ms : List TermMap) :
    e.Performs (e.allTermsAt site ms) {} (.ok (e.termsOf site ms)) := by
  induction ms with
  | nil => exact performs_pure _
  | cons m ms ih =>
      refine performs_bind_of_silent (performs_termsAt site m) ?_
      exact performs_bind_of_silent ih (performs_pure _)

theorem performs_addGraphsAt (site : Site) (graphs : List (Option Term)) (ms : List TermMap) :
    e.Performs (e.addGraphsAt site graphs ms) {} (.ok (addGraphs graphs (e.termsOf site ms))) :=
  performs_bind_of_silent (performs_allTermsAt site ms) (performs_pure _)

theorem performs_objectsAt (he : e.Repeatable) (site : Site) (m : ObjectMap)
    (hknown : ∀ r, m.parent? = some r → (e.graph.get? r.parent).isSome) :
    e.Performs (e.objectsAt site m) {} ((e.objectsOf site m).mapError .ofError) := by
  cases m with
  | term m => exact performs_termsAt site m
  | parent r =>
      have hresolve := performs_resolve he r site.triplesMap site.record (hknown r rfl)
      rw [objectsOf]
      cases hjoined : e.joined r site.triplesMap site.record with
      | error error =>
          rw [hjoined] at hresolve
          exact performs_bind_error (survive site) hresolve
      | ok result =>
          rw [hjoined] at hresolve
          exact performs_bind_of_silent (f := survive site) hresolve (performs_survive site result)

theorem performs_allObjectsAt (he : e.Repeatable) (site : Site) (ms : List ObjectMap)
    (hknown : ∀ m ∈ ms, ∀ r, m.parent? = some r → (e.graph.get? r.parent).isSome) :
    e.Performs (e.allObjectsAt site ms) {} ((e.allObjectsOf site ms).mapError .ofError) := by
  induction ms with
  | nil => exact performs_pure _
  | cons m ms ih =>
      have hfirst := performs_objectsAt he site m (hknown m (by simp))
      have hrest := ih fun m' hm' => hknown m' (by simp [hm'])
      unfold allObjectsOf
      cases hobjects : e.objectsOf site m with
      | error error =>
          rw [hobjects] at hfirst
          exact performs_bind_error _ hfirst
      | ok objects =>
          rw [hobjects] at hfirst
          refine performs_bind_of_silent hfirst ?_
          cases hothers : e.allObjectsOf site ms with
          | error error =>
              rw [hothers] at hrest
              exact performs_bind_error _ hrest
          | ok others =>
              rw [hothers] at hrest
              exact performs_bind_of_silent hrest (performs_pure _)

/-! ### Records -/

/-- The parents that a triples map names are in the graph. -/
def KnowsParents (e : Engine) (m : TriplesMap) : Prop :=
  ∀ r ∈ m.parents, (e.graph.get? r.parent).isSome

theorem KnowsParents.of_mem {m : TriplesMap} (h : e.KnowsParents m) {p : PredicateObjectMap}
    (hp : p ∈ m.predicateObjectMaps) {o : ObjectMap} (ho : o ∈ p.objectMaps) {r : RefObjectMap}
    (hr : o.parent? = some r) : (e.graph.get? r.parent).isSome :=
  h r (List.mem_flatMap.mpr ⟨p, hp, List.mem_filterMap.mpr ⟨o, ho, hr⟩⟩)

/-- The early exits change nothing: without objects or graphs there is no statement anyway. -/
theorem yields_statementsAt (he : e.Repeatable) {site : Site}
    (hknown : e.KnowsParents site.triplesMap) (subjectMap : SubjectMap) (subjects : List Term)
    {m : PredicateObjectMap} (hm : m ∈ site.triplesMap.predicateObjectMaps) :
    e.Yields
      (e.statementsAt site subjectMap subjects
        (addGraphs [] (e.termsOf site subjectMap.graphMaps)) m)
      (e.statementsYield site subjectMap subjects m) := by
  refine yields_bind_of_silent (performs_allTermsAt site m.predicateMaps) ?_
  unfold statementsYield
  dsimp only
  by_cases hpredicates : (e.termsOf site m.predicateMaps).isEmpty
  · rw [if_pos hpredicates, if_pos hpredicates]
    exact yields_empty
  · rw [if_neg hpredicates, if_neg hpredicates]
    have hobjects := performs_allObjectsAt he site m.objectMaps
      (fun o ho r hr => hknown.of_mem hm ho hr)
    cases hall : e.allObjectsOf site m.objectMaps with
    | error error =>
        rw [hall] at hobjects
        exact yields_error _ hobjects
    | ok objects =>
        rw [hall] at hobjects
        refine yields_bind_of_silent hobjects ?_
        by_cases hempty : objects.isEmpty
        · rw [if_pos hempty, List.isEmpty_iff.mp hempty]
          dsimp only
          rw [statementQuads_nil_objects]
          exact yields_empty
        · rw [if_neg hempty]
          refine yields_bind_of_silent (performs_addGraphsAt site _ m.graphMaps) ?_
          dsimp only
          split
          · rename_i htargets
            rw [List.isEmpty_iff.mp htargets, statementQuads_nil_graphs]
            exact yields_empty
          · exact yields_emit _

theorem yields_describe (he : e.Repeatable) (site : Site)
    (hknown : e.KnowsParents site.triplesMap) (subjectMap : SubjectMap) (subjects : List Term) :
    e.Yields (e.describe site subjectMap subjects) (e.describeYield site subjectMap subjects) := by
  refine yields_bind_of_silent (performs_addGraphsAt site [] subjectMap.graphMaps) ?_
  refine yields_andThen (yields_emit _) ?_
  exact yields_forM fun m hm => yields_statementsAt he hknown subjectMap subjects hm

theorem yields_visitRecord (he : e.Repeatable) (policy : SubjectErrorPolicy) {m : TriplesMap}
    (hknown : e.KnowsParents m) (scope : String) (subjectMap : SubjectMap) (position : Nat)
    (record : Record) :
    e.Yields (e.visitRecord policy m scope subjectMap position record)
      (e.recordYield policy m scope subjectMap position record) := by
  unfold recordYield
  have hevaluate := performs_evaluate (e := e) subjectMap.termMap record scope
  cases hterms : e.generator.terms subjectMap.termMap record scope with
  | error error =>
      rw [hterms] at hevaluate
      cases policy with
      | skipRecord =>
          show e.Performs _ ({ records := 1 } ++ { skippedRecords := 1 }) (.ok ())
          refine performs_bind performs_countRecord ?_
          refine performs_bind_of_silent hevaluate ?_
          exact performs_bind_of_silent (performs_absorb _ _ _) performs_countSkipped
      | abortTriplesMap =>
          show e.Performs _ ({ records := 1 } ++ {}) (.error _)
          refine performs_bind performs_countRecord ?_
          exact performs_bind_of_silent hevaluate (performs_throw _)
  | ok subjects =>
      rw [hterms] at hevaluate
      cases subjects with
      | nil =>
          show e.Performs _ ({ records := 1 } ++ { skippedRecords := 1 }) (.ok ())
          refine performs_bind performs_countRecord ?_
          refine performs_bind_of_silent hevaluate ?_
          exact performs_bind_of_silent (performs_log _) performs_countSkipped
      | cons t ts =>
          refine yields_andThen performs_countRecord ?_
          refine yields_bind_of_silent hevaluate ?_
          exact yields_describe he ⟨m, scope, position, record⟩ hknown _ _

/-! ### Triples maps -/

theorem yields_scan (he : e.Repeatable) (triplesMap : String) {visit : Nat → Record → Step Unit}
    {y : Nat → Record → Yield} (hvisit : ∀ n record, e.Yields (visit n record) (y n record))
    (items : List Item) :
    ∀ n, e.Yields (e.scan triplesMap (fun _ => visit) n () items) (.scan triplesMap y n items) := by
  induction items with
  | nil => intro n; exact yields_empty
  | cons item items ih =>
      intro n
      refine yields_bind_of_silent (performs_receive he) ?_
      refine yields_bind_of_silent performs_checkCancelled ?_
      cases item with
      | error fault => exact performs_failWith _
      | ok record => exact yields_andThen (hvisit n record) (ih (n + 1))

/-- **Executing a triples map performs its yield**, whatever has been executed before it. -/
theorem yields_runTriplesMap (he : e.Repeatable) (policy : SubjectErrorPolicy) (position : Nat)
    {m : TriplesMap} (hm : m ∈ e.graph.triplesMaps) (hknown : e.KnowsParents m) :
    e.Yields (e.runTriplesMap policy position m) (e.mapYield policy position m) := by
  obtain ⟨hsome, hsome'⟩ := he.complete m hm
  obtain ⟨source, hsource⟩ := Option.isSome_iff_exists.mp hsome
  obtain ⟨subjectMap, hsubject⟩ := Option.isSome_iff_exists.mp hsome'
  have hopen := performs_openSource m.iri (he.reopens m hm source hsource)
  refine performs_inSpan _ ?_
  refine yields_bind_of_silent (performs_sourceOf hsource) ?_
  refine yields_bind_of_silent (performs_subjectMapOf hsubject) ?_
  rw [mapYield, hsource, hsubject]
  dsimp only
  cases hitems : e.provider.openAfter [] source with
  | error fault =>
      rw [hitems] at hopen
      exact yields_error _ hopen
  | ok items =>
      rw [hitems] at hopen
      refine yields_bind_of_silent hopen ?_
      dsimp only
      have hscan := yields_scan he m.iri
        (fun n record => yields_visitRecord he policy hknown (blankScope position) subjectMap n
          record) items 0
      rw [← Yield.andThen_empty (Yield.scan _ _ _ _)]
      exact yields_andThen hscan (performs_get_bind fun s _ => performs_log _)

end Engine

end RdfMapping
