/-
Which quads get lost when repetitions are removed.

A store takes quads of one canonical text for the same quad.  `emitted` are the quads
that a run made before any were taken for the same; the store keeps the first of each
text among them.  Since the quads of a run are plain, two that share a text are equal or
lookalikes, and `mem_store_iff` says exactly which quads a run loses: those that are
emitted behind a lookalike every time.

Lookalikes need a language tag with a space in it, since a tag is the only part of the
text that is not escaped or made up by the engine.  Over rules whose tags have none,
`mem_store_of_emitted`, nothing is lost.
-/
import RdfMapping.Proofs.Execution.Assembly
import RdfMapping.Proofs.Execution.Emission

namespace RdfMapping

/-! ### Emitted quads -/

/-- The quads that the completed triples maps of a run made, one triples map after the other and
with all repetitions. -/
def Executor.emitted (x : Executor) (graph : RuleGraph) (filter : Option (List String))
    (session : Session) : List Quad :=
  match x.prepare graph filter with
  | .error _ => []
  | .ok (engine, selected) =>
    match engine.contributions x.config selected (.atStart session selected) with
    | .ok parts _ => parts.flatMap (·.quads)
    | .error _ _ => []

namespace Executor

variable {x : Executor} {graph : RuleGraph} {filter : Option (List String)} {session : Session}

/-- The store of a run that removes repetitions keeps the first emitted quad of each text. -/
theorem toList_eq_distinct_emitted {execution : Execution}
    (h : (x.run graph filter session).result = .ok execution)
    (hremove : x.config.removeDuplicates = true) :
    execution.store.toList = distinct (x.emitted graph filter session) := by
  obtain ⟨engine, selected, parts, s, hprepare, hrun, rfl⟩ := exists_contributions_of_run h
  have hcontent := congrArg Prod.fst (Execution.content_ofContributions x.config parts)
  rw [Execution.content, Config.content, hremove] at hcontent
  rw [emitted, hprepare]
  dsimp only
  rw [hrun]
  dsimp only at hcontent ⊢
  rw [if_pos rfl, List.map_map, ← List.flatMap_def] at hcontent
  exact hcontent

/-- Every emitted quad comes from where it should. -/
theorem makes_of_mem_emitted {q : Quad} (h : q ∈ x.emitted graph filter session) :
    graph.validate = .ok () ∧ graph.Makes q := by
  unfold emitted at h
  cases hprepare : x.prepare graph filter with
  | error error => rw [hprepare] at h; cases h
  | ok prepared =>
      obtain ⟨engine, selected⟩ := prepared
      obtain ⟨base, positions, -, hvalid, -, hprepared⟩ := prepare_eq_ok_iff.mp hprepare
      cases hprepared
      have hstart : Engine.Accounted graph (.atStart session (graph.selected filter)) := by
        refine ⟨?_, by simp [RunState.atStart]⟩
        intro iri index hlookup
        cases hlookup
      have hselected : ∀ entry ∈ graph.selected filter,
          (x.engine graph base).graph.triplesMaps[entry.1]? = some entry.2 :=
        fun _ => RuleGraph.getElem?_of_mem_selected
      have hkeeps := Engine.keeps_contributions x.config hvalid hselected _ hstart
      rw [hprepare] at h
      dsimp only at h
      cases hrun : (x.engine graph base).contributions x.config (graph.selected filter)
          (.atStart session (graph.selected filter)) with
      | error failure s => rw [hrun] at h; cases h
      | ok parts s =>
          rw [hrun] at h hkeeps
          obtain ⟨part, hpart, hq⟩ := List.mem_flatMap.mp h
          exact ⟨hvalid, hkeeps.2 part hpart q hq⟩

end Executor

/-! ### Emitted quads are plain -/

namespace RuleGraph

variable {g : RuleGraph}

theorem MakesSubject.isLiteral_eq_false (hvalid : g.validate = .ok ()) {t : Term}
    (h : g.MakesSubject t) : t.isLiteral = false := by
  obtain ⟨position, m, subjectMap, hget, hsubject, hmake⟩ := h
  obtain ⟨subjectMap', hsubject', hexecutable⟩ :=
    (validate_eq_ok_iff.mp hvalid position m hget).subject
  rw [hsubject, Option.some.injEq] at hsubject'
  exact hmake.isLiteral_eq_false (hsubject' ▸ hexecutable.subject)

theorem MakesSubject.normal {t : Term} (h : g.MakesSubject t) : t.Normal ∧ t.Labelled := by
  obtain ⟨position, m, subjectMap, -, -, hmake⟩ := h
  exact ⟨hmake.normal, hmake.labelled⟩

theorem MakesObject.normal {t : Term} (h : g.MakesObject t) : t.Normal ∧ t.Labelled := by
  obtain ⟨position, m, p, map, -, -, -, hmake⟩ := h
  exact ⟨hmake.normal, hmake.labelled⟩

theorem Makes.plain (hvalid : g.validate = .ok ()) {q : Quad} (h : g.Makes q) : q.Plain := by
  have hobject : q.object.Normal ∧ q.object.Labelled := by
    rcases h.object with hiri | hsubject | hobject
    · cases hq : q.object with
      | iri value => exact ⟨trivial, trivial⟩
      | _ => rw [hq] at hiri; cases hiri
    · exact hsubject.normal
    · exact hobject.normal
  refine ⟨h.subject.isLiteral_eq_false hvalid, h.subject.normal.2, h.predicate, hobject.1,
    hobject.2, ?_⟩
  intro t ht
  obtain ⟨iri, rfl, -⟩ := h.graph t ht
  rfl

/-! ### Language tags -/

/-- The language tags that rules for objects ask for. -/
def languages (g : RuleGraph) : List String :=
  g.triplesMaps.flatMap fun m => m.predicateObjectMaps.flatMap fun p =>
    p.objectMaps.filterMap fun
      | .term map => map.language
      | .parent _ => none

/-- The language strings among the emitted quads have their tags from the rules. -/
theorem Makes.mem_languages (hvalid : g.validate = .ok ()) {q : Quad} (h : g.Makes q)
    {value tag : String} (hobject : q.object = .langString value tag) : tag ∈ g.languages := by
  have hliteral : q.object.isLiteral = true := by
    rw [hobject]
    rfl
  rcases h.object with hiri | hsubject | hmade
  · rw [hobject] at hiri
    cases hiri
  · rw [hsubject.isLiteral_eq_false hvalid] at hliteral
    cases hliteral
  · obtain ⟨position, m, p, map, hget, hp, hmap, hmake⟩ := hmade
    have hlanguage : map.language = some tag := by
      rw [TermMap.CanMake, hobject] at hmake
      cases htype : map.termType with
      | iri => rw [htype] at hmake; obtain ⟨v, hv⟩ := hmake; cases hv
      | blankNode => rw [htype] at hmake; obtain ⟨v, hv⟩ := hmake; cases hv
      | literal =>
          rw [htype] at hmake
          obtain ⟨v, hv⟩ := hmake
          cases hmap' : map.language with
          | none => simp [hmap', Term.langString, Term.normalLiteral] at hv
          | some tag' =>
              rw [hmap'] at hv
              simp only [Term.langString, Term.normalLiteral, Term.literal.injEq] at hv
              exact hv.2.2.symm
    refine List.mem_flatMap.mpr ⟨m, List.mem_of_getElem? hget, ?_⟩
    exact List.mem_flatMap.mpr ⟨p, hp, List.mem_filterMap.mpr ⟨.term map, hmap, hlanguage⟩⟩

/-- Without spaces in the tags of the rules there are no lookalikes. -/
theorem Makes.not_lookalike (hvalid : g.validate = .ok ())
    (htags : ∀ tag ∈ g.languages, ' ' ∉ tag.toList) {q r : Quad} (hq : g.Makes q)
    (hr : g.Makes r) : ¬ q.Lookalike r := by
  have hswallows : ∀ {p p' : Quad}, g.Makes p → ¬ p.Swallows p' := by
    rintro p p' hp ⟨value, tag, iri, -, -, hobject, -⟩
    refine htags _ (hp.mem_languages hvalid hobject) ?_
    rw [Quad.toList_langString_tag]
    simp
  rintro (hlookalike | hlookalike)
  · exact hswallows hq hlookalike
  · exact hswallows hr hlookalike

end RuleGraph

/-! ### What a run keeps -/

namespace Executor

variable {x : Executor} {graph : RuleGraph} {filter : Option (List String)} {session : Session}
  {execution : Execution}

theorem plain_of_mem_emitted {q : Quad} (h : q ∈ x.emitted graph filter session) : q.Plain :=
  (makes_of_mem_emitted h).2.plain (makes_of_mem_emitted h).1

/--
**Which quads a run keeps.**  Among the quads that the completed triples maps of a
successful run emitted, the store has exactly those that were emitted at some point
without a lookalike before them.  So it has all of them exactly if no two of them are
lookalikes.
-/
theorem mem_store_iff (h : (x.run graph filter session).result = .ok execution)
    (hremove : x.config.removeDuplicates = true) :
    (∀ q ∈ x.emitted graph filter session, q ∈ execution.store.toList ↔
        ∃ before after, x.emitted graph filter session = before ++ q :: after ∧
          ∀ r ∈ before, ¬ q.Lookalike r) ∧
      ((∀ q ∈ x.emitted graph filter session, q ∈ execution.store.toList) ↔
        ∀ q ∈ x.emitted graph filter session, ∀ r ∈ x.emitted graph filter session,
          ¬ q.Lookalike r) := by
  have hplain : ∀ q ∈ x.emitted graph filter session, q.Plain := fun _ => plain_of_mem_emitted
  rw [toList_eq_distinct_emitted h hremove]
  exact ⟨fun q _ => mem_distinct_iff_lookalike hplain, forall_mem_distinct_iff hplain⟩

/-! ### A graph in a language tag -/

/-- A single record without fields. -/
def tagger : Executor where
  provider := { openAfter := fun _ _ => .ok [.ok .empty] }

/-- The same word in the default graph, with a graph in its language tag, and in that graph. -/
def taggerRules : RuleGraph := ⟨
  [{ iri := "ex:M", logicalSource := some ⟨"rows", .csv, none, none⟩
     subjectMap := some { termMap := .constant "ex:s" }
     predicateObjectMaps := [
       .constant "ex:p" (.term ((TermMap.constant "x").withLanguage "en <ex:g>")),
       { PredicateObjectMap.constant "ex:p" (.term ((TermMap.constant "x").withLanguage "en")) with
         graphMaps := [.constant "ex:g"] }] }]⟩

def taggedQuad : Quad := ⟨.iri "ex:s", .iri "ex:p", .langString "x" "en <ex:g>", none⟩

def graphQuad : Quad := ⟨.iri "ex:s", .iri "ex:p", .langString "x" "en", some (.iri "ex:g")⟩

theorem tagger_emitted : tagger.emitted taggerRules none {} = [taggedQuad, graphQuad] := by
  decide +kernel

theorem exists_tagger_run :
    ∃ execution, (tagger.run taggerRules none {}).result = .ok execution := by
  have hok : (tagger.run taggerRules none {}).result.isOk = true := by decide +kernel
  cases hrun : (tagger.run taggerRules none {}).result with
  | error error => rw [hrun] at hok; cases hok
  | ok execution => exact ⟨execution, rfl⟩

theorem tagger_mem_store_iff :
    ∃ execution, (tagger.run taggerRules none {}).result = .ok execution ∧
      ((∀ q ∈ [taggedQuad, graphQuad], q ∈ execution.store.toList) ↔
        ∀ q ∈ [taggedQuad, graphQuad], ∀ r ∈ [taggedQuad, graphQuad], ¬ q.Lookalike r) := by
  obtain ⟨execution, hrun⟩ := exists_tagger_run
  have hkept := (mem_store_iff hrun rfl).2
  rw [tagger_emitted] at hkept
  exact ⟨execution, hrun, hkept⟩

/-- The second quad is emitted and lost. -/
theorem tagger_loses_graphQuad :
    ∃ execution, taggerRules.validate = .ok () ∧ tagger.config.removeDuplicates = true ∧
      (tagger.run taggerRules none {}).result = .ok execution ∧
      graphQuad ∈ tagger.emitted taggerRules none {} ∧ graphQuad ∉ execution.store.toList := by
  obtain ⟨execution, hrun⟩ := exists_tagger_run
  have hdistinct : distinct [taggedQuad, graphQuad] = [taggedQuad] := by
    rw [distinct_eq_eraseDupsBy_render]
    decide +kernel
  have hstore := toList_eq_distinct_emitted hrun rfl
  rw [tagger_emitted, hdistinct] at hstore
  refine ⟨execution, by decide +kernel, rfl, hrun, ?_, ?_⟩
  · rw [tagger_emitted]
    simp
  · rw [hstore]
    decide

/-! ### Tags without spaces -/

/-- If the language tags of the rules have no spaces, every emitted quad is kept. -/
theorem mem_store_of_emitted (h : (x.run graph filter session).result = .ok execution)
    (hremove : x.config.removeDuplicates = true)
    (htags : ∀ tag ∈ graph.languages, ' ' ∉ tag.toList) :
    ∀ q ∈ x.emitted graph filter session, q ∈ execution.store.toList := by
  rw [toList_eq_distinct_emitted h hremove,
    forall_mem_distinct_iff fun _ => plain_of_mem_emitted]
  intro q hq r hr
  have hq := makes_of_mem_emitted hq
  exact hq.2.not_lookalike hq.1 htags (makes_of_mem_emitted hr).2

end Executor

end RdfMapping
