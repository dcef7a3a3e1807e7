/-
The same rules declared in another order.

The position of a triples map gets into the quads of a run in one way: as the scope of the blank
nodes that it makes.  Other than that it only has a part in the order of the quads.  So if triples
maps are declared in another order, a run makes the same quads in another order, with the scope of
every blank node renamed, `declaration_order_only_renames`.

A position can be that of the triples map itself or, for an object, that of the parent.  Both are
renamed alike, so the proof goes down the nested loops and finds at each of them what it was
before, renamed.  It ends at the term maps, where no function may get to see a label, as it could
put the position that is in it anywhere.  Nor does it matter that repetitions are removed: quads of
one text are equal where no language tag has a space in it, and renaming keeps them apart.
-/
import RdfMapping.Function.Standard
import RdfMapping.Proofs.Execution.KeptQuads
import RdfMapping.Proofs.Execution.SetAndBag
import RdfMapping.Proofs.Rules.Rearrangement
import RdfMapping.Proofs.Scopes

namespace RdfMapping

/-- No call in the rules has a parameter that makes blank nodes. -/
def RuleGraph.CallsWithoutLabels (g : RuleGraph) : Prop :=
  ∀ m ∈ g.triplesMaps, ∀ map ∈ m.termMaps, map.CallsWithoutLabels

/-- Renaming that keeps values apart does not change which ones are repeated. -/
theorem eraseDups_map {α β : Type} [BEq α] [LawfulBEq α] [BEq β] [LawfulBEq β] {f : α → β}
    (hf : Function.Injective f) (as : List α) : (as.map f).eraseDups = as.eraseDups.map f := by
  -- What is left behind the first value is a filtered list, so the induction is on the length.
  induction hlength : as.length using Nat.strong_induction_on generalizing as with
  | _ n ih =>
      cases as with
      | nil => simp
      | cons a as =>
          have hsame : (fun b => !b == f a) ∘ f = fun b => !b == a := by
            funext b
            simp [hf.beq_eq]
          have hshorter : (as.filter fun b => !b == a).length < n := by
            rw [← hlength, List.length_cons, Nat.lt_succ_iff]
            exact List.length_filter_le _ as
          rw [List.map_cons, List.eraseDups_cons, List.eraseDups_cons, List.map_cons,
            List.filter_map, hsame, ih _ hshorter _ rfl]

theorem graphOfTerm_rescope {n : Nat} (p : Equiv.Perm (Fin n)) (t : Term) :
    graphOfTerm (t.rescope p) = (graphOfTerm t).map (Term.rescope p) := by
  unfold graphOfTerm
  cases t with
  | iri value =>
      rw [Term.rescope_iri]
      split
      · rfl
      · rfl
  | blank label => rfl
  | literal value datatype language => rfl

/-! ### The meaning of rules -/

namespace Mapping

/-- The same rules in another order over the same records. -/
def permute (d : Mapping) (p : Equiv.Perm (Fin d.graph.triplesMaps.length)) : Mapping :=
  { d with graph := d.graph.permute p }

theorem graph_permute (d : Mapping) (p : Equiv.Perm (Fin d.graph.triplesMaps.length)) :
    (d.permute p).graph = d.graph.permute p := rfl

section Permuted

variable {d : Mapping} (p : Equiv.Perm (Fin d.graph.triplesMaps.length))
  (i : Fin d.graph.triplesMaps.length) {m : TriplesMap} (record : Record)

theorem terms_permute {map : TermMap} (h : map.CallsWithoutLabels) :
    (d.permute p).terms (p i) record map = (d.terms i record map).map (Term.rescope p) := by
  unfold terms
  show orNone (d.generator.terms map record (blankScope (p i))) = _
  rw [d.generator.terms_rescope p record i h]
  cases d.generator.terms map record (blankScope i) <;> rfl

theorem allTerms_permute {maps : List TermMap} (h : ∀ map ∈ maps, map.CallsWithoutLabels) :
    maps.flatMap ((d.permute p).terms (p i) record)
      = (maps.flatMap (d.terms i record)).map (Term.rescope p) := by
  rw [List.map_flatMap]
  exact List.flatMap_congr fun map hmap => terms_permute p i record (h map hmap)

/-- Renaming and leaving out repeated graphs can be done in either order. -/
theorem graphs_permute {maps : List TermMap} (h : ∀ map ∈ maps, map.CallsWithoutLabels) :
    (d.permute p).graphs (p i) record maps
      = (d.graphs i record maps).map (Option.map (Term.rescope p)) := by
  unfold graphs
  rw [allTerms_permute p i record h]
  by_cases hempty : maps.isEmpty
  · rw [if_pos hempty, if_pos hempty]
    rfl
  · rw [if_neg hempty, if_neg hempty, List.map_map,
      ← eraseDups_map (Option.map_injective (Term.rescope_injective p)), List.map_map]
    simp only [Function.comp_def, graphOfTerm_rescope]

section Rules

variable (hcalls : d.graph.CallsWithoutLabels)

include hcalls

theorem subjects_permute (hm : m ∈ d.graph.triplesMaps) :
    (d.permute p).subjects (p i) m record = (d.subjects i m record).map (Term.rescope p) := by
  unfold subjects
  cases hsubject : m.subjectMap with
  | none => rfl
  | some subjectMap =>
      have hmap : subjectMap.termMap ∈ m.termMaps :=
        TriplesMap.mem_termMaps_subject hsubject (by simp)
      exact terms_permute p i record (hcalls m hm _ hmap)

theorem fails_permute (hm : m ∈ d.graph.triplesMaps) :
    (d.permute p).fails (p i) m record = d.fails i m record := by
  unfold fails
  cases hsubject : m.subjectMap with
  | none => rfl
  | some subjectMap =>
      have hmap : subjectMap.termMap ∈ m.termMaps :=
        TriplesMap.mem_termMaps_subject hsubject (by simp)
      show (!(d.generator.terms subjectMap.termMap record (blankScope (p i))).isOk) = _
      rw [d.generator.terms_rescope p record i (hcalls m hm _ hmap)]
      show _ = !(d.generator.terms subjectMap.termMap record (blankScope i)).isOk
      cases d.generator.terms subjectMap.termMap record (blankScope i) <;> rfl

variable (hvalid : d.graph.validate = .ok ())

include hvalid

/-- The parent is found at its new position. -/
theorem parentSubjects_permute (r : RefObjectMap) (child : TriplesMap) :
    (d.permute p).parentSubjects r child record
      = (d.parentSubjects r child record).map (Term.rescope p) := by
  unfold parentSubjects
  rw [graph_permute, RuleGraph.get?_permute p hvalid]
  cases hparent : d.graph.get? r.parent with
  | none =>
      cases (d.graph.permute p).position? r.parent <;> cases d.graph.position? r.parent <;> rfl
  | some parent =>
      have hknown : (d.graph.get? r.parent).isSome := by
        rw [hparent]
        rfl
      obtain ⟨position, _, hposition, -, hat, -⟩ := RuleGraph.exists_position_of_isSome hknown
      obtain ⟨hlt, -⟩ := List.getElem?_eq_some_iff.mp hat
      have hm : parent ∈ d.graph.triplesMaps := List.mem_of_find?_eq_some hparent
      have hsubjects := fun other : Record =>
        subjects_permute p ⟨position, hlt⟩ other hcalls hm
      rw [RuleGraph.position?_permute p hvalid (i := ⟨position, hlt⟩) hposition, hposition]
      dsimp only
      by_cases hsame : r.conditions.isEmpty && parent.logicalSource == child.logicalSource
      · rw [if_pos hsame, if_pos hsame]
        exact hsubjects record
      · rw [if_neg hsame, if_neg hsame]
        by_cases hanswerable : r.answerable record
        · rw [if_pos hanswerable, if_pos hanswerable, List.map_flatMap]
          exact List.flatMap_congr fun other _ => hsubjects other
        · rw [if_neg hanswerable, if_neg hanswerable, List.map_nil]

theorem objects_permute (hm : m ∈ d.graph.triplesMaps) {statement : PredicateObjectMap}
    (hstatement : statement ∈ m.predicateObjectMaps) {o : ObjectMap}
    (ho : o ∈ statement.objectMaps) :
    (d.permute p).objects (p i) m record o
      = (d.objects i m record o).map (Term.rescope p) := by
  cases o with
  | term map =>
      have hobject : map ∈ statement.objectMaps.filterMap (·.term?) :=
        List.mem_filterMap.mpr ⟨.term map, ho, rfl⟩
      have hmap : map ∈ statement.termMaps :=
        List.mem_append_left _ (List.mem_append_right _ hobject)
      have hmentioned := TriplesMap.mem_termMaps_statement hstatement hmap
      exact terms_permute p i record (hcalls m hm map hmentioned)
  | parent r => exact parentSubjects_permute p record hcalls hvalid r m

omit hvalid in
theorem memberships_permute (hm : m ∈ d.graph.triplesMaps) {subjectMap : SubjectMap}
    (hsubject : m.subjectMap = some subjectMap) :
    (d.permute p).memberships (p i) m subjectMap record
      = (d.memberships i m subjectMap record).map (Quad.rescope p) := by
  have hgraphs := graphs_permute p i record fun map (hmap : map ∈ subjectMap.graphMaps) =>
    hcalls m hm map (TriplesMap.mem_termMaps_subject hsubject (by simp [hmap]))
  unfold memberships
  rw [subjects_permute p i record hcalls hm, hgraphs]
  simp only [List.flatMap_map, List.map_flatMap, List.map_map, Function.comp_def, Quad.rescope,
    Term.rescope_iri]

theorem statements_permute (hm : m ∈ d.graph.triplesMaps) {subjectMap : SubjectMap}
    (hsubject : m.subjectMap = some subjectMap) {statement : PredicateObjectMap}
    (hstatement : statement ∈ m.predicateObjectMaps) :
    (d.permute p).statements (p i) m subjectMap record statement
      = (d.statements i m subjectMap record statement).map (Quad.rescope p) := by
  have hmentioned : ∀ map ∈ statement.termMaps, map.CallsWithoutLabels := fun map hmap =>
    hcalls m hm map (TriplesMap.mem_termMaps_statement hstatement hmap)
  have hpredicates := allTerms_permute p i record fun map (hmap : map ∈ statement.predicateMaps) =>
    hmentioned map (by simp [PredicateObjectMap.termMaps, hmap])
  have hobjects : statement.objectMaps.flatMap ((d.permute p).objects (p i) m record)
      = (statement.objectMaps.flatMap (d.objects i m record)).map (Term.rescope p) := by
    rw [List.map_flatMap]
    exact List.flatMap_congr fun o ho => objects_permute p i record hcalls hvalid hm hstatement ho
  have hgraphs : (d.permute p).graphs (p i) record (subjectMap.graphMaps ++ statement.graphMaps)
      = (d.graphs i record (subjectMap.graphMaps ++ statement.graphMaps)).map
        (Option.map (Term.rescope p)) := by
    refine graphs_permute p i record fun map hmap => ?_
    rcases List.mem_append.mp hmap with hmap | hmap
    · exact hcalls m hm map (TriplesMap.mem_termMaps_subject hsubject (by simp [hmap]))
    · exact hmentioned map (by simp [PredicateObjectMap.termMaps, hmap])
  unfold statements
  rw [subjects_permute p i record hcalls hm, hpredicates, hobjects, hgraphs]
  generalize statement.predicateMaps.flatMap (d.terms i record) = predicates
  generalize statement.objectMaps.flatMap (d.objects i m record) = objects
  simp only [List.flatMap_map, List.map_flatMap, List.map_map, Function.comp_def, Quad.rescope]

/-- What is said about a record is what was said about it, renamed. -/
theorem description_permute (hm : m ∈ d.graph.triplesMaps) :
    (d.permute p).description (p i) m record
      = (d.description i m record).map (Quad.rescope p) := by
  unfold description
  cases hsubject : m.subjectMap with
  | none => rfl
  | some subjectMap =>
      rw [Option.elim_some, Option.elim_some, List.map_append, List.map_flatMap,
        memberships_permute p i record hcalls hm hsubject]
      congr 1
      exact List.flatMap_congr fun statement hstatement =>
        statements_permute p i record hcalls hvalid hm hsubject hstatement

theorem kept_permute (policy : SubjectErrorPolicy) (hm : m ∈ d.graph.triplesMaps) :
    (d.permute p).kept policy ((p i).val, m) = (d.kept policy (i.val, m)).map (Quad.rescope p) := by
  have hfails : (d.permute p).fails (p i) m = d.fails i m :=
    funext fun record => fails_permute p i record hcalls hm
  have hrecords : (d.permute p).keptRecords policy ((p i).val, m)
      = d.keptRecords policy (i.val, m) := by
    unfold keptRecords
    dsimp only
    rw [hfails]
    rfl
  unfold kept
  rw [hrecords, List.map_flatMap]
  exact List.flatMap_congr fun record _ => description_permute p i record hcalls hvalid hm

/-- What is kept is what was kept, renamed and in another order. -/
theorem keptQuads_permute (policy : SubjectErrorPolicy) :
    ((d.permute p).keptQuads policy none).Perm
      ((d.keptQuads policy none).map (Quad.rescope p)) := by
  have hmoved := (RuleGraph.selected_permute p).flatMap_right ((d.permute p).kept policy)
  refine hmoved.trans (.of_eq ?_)
  rw [keptQuads, RuleGraph.selected_none_eq_ofFn, List.map_flatMap, List.ofFn_eq_map,
    List.ofFn_eq_map, List.flatMap_map, List.flatMap_map]
  refine List.flatMap_congr fun i _ => ?_
  exact kept_permute p i hcalls hvalid policy (List.getElem_mem i.isLt)

end Rules

end Permuted

end Mapping

/-! ### Runs -/

/-- Stores that get the same quads up to an order and a renaming keep the same ones, if nothing but
repetitions is left out. -/
theorem Config.keeps_rescope_perm (c : Config) {n : Nat} (p : Equiv.Perm (Fin n))
    {qs rs : List Quad} (hperm : rs.Perm (qs.map (Quad.rescope p)))
    (hqs : c.removeDuplicates = true → ∀ q, q ∈ distinct qs ↔ q ∈ qs)
    (hrs : c.removeDuplicates = true → ∀ r, r ∈ distinct rs ↔ r ∈ rs) :
    ((c.keeps qs).map (Quad.rescope p)).Perm (c.keeps rs) := by
  unfold keeps
  by_cases hremove : c.removeDuplicates = true
  · rw [if_pos hremove, if_pos hremove]
    have hnodup : ∀ qs, (distinct qs).Nodup := fun qs => (nodup_texts_distinct qs).of_map _
    refine (List.perm_ext_iff_of_nodup ((hnodup qs).map (Quad.rescope_injective p))
      (hnodup rs)).mpr fun r => ?_
    rw [hrs hremove, hperm.mem_iff, List.mem_map, List.mem_map]
    simp only [hqs hremove]
  · rw [if_neg hremove, if_neg hremove]
    exact hperm.symm

namespace Executor

variable {x : Executor} {graph : RuleGraph} {records : LogicalSource → List Record}
  {base : Option Iri} (p : Equiv.Perm (Fin graph.triplesMaps.length))

theorem Supplies.permute (h : x.Supplies graph records) : x.Supplies (graph.permute p) records :=
  ⟨fun m hm => h.gives m ((RuleGraph.mem_permute p).mp hm), h.silent⟩

/-- Whatever is kept has its terms from where the rules say. -/
theorem Supplies.makes_of_mem_keptQuads (h : x.Supplies graph records)
    (hbase : x.config.base = .ok base) (hvalid : graph.validate = .ok ()) {q : Quad}
    (hq : q ∈ (x.mapping graph base records).keptQuads x.config.subjectFunctionErrors none) :
    graph.Makes q := by
  -- A store with repetitions has all quads that are kept.
  have hbag : (x.withRemoveDuplicates false).Supplies graph records := ⟨h.gives, h.silent⟩
  have hselect : graph.select none = .ok (List.range graph.size) := rfl
  obtain ⟨execution, hrun, hstore⟩ := hbag.exists_run {} (fun _ => rfl) hbase hvalid hselect
  rw [toList_eq_emitted hrun rfl] at hstore
  have hemitted : q ∈ (x.withRemoveDuplicates false).emitted graph none {} := by
    rw [hstore]
    exact hq
  exact (makes_of_mem_emitted hemitted).2

/-- Where no language tag has a space in it, nothing but repetitions is left out of a store. -/
theorem Supplies.mem_distinct_keptQuads (h : x.Supplies graph records)
    (hbase : x.config.base = .ok base) (hvalid : graph.validate = .ok ())
    (htags : ∀ tag ∈ graph.languages, ' ' ∉ tag.toList) {q : Quad} :
    q ∈ distinct ((x.mapping graph base records).keptQuads x.config.subjectFunctionErrors none) ↔
      q ∈ (x.mapping graph base records).keptQuads x.config.subjectFunctionErrors none := by
  constructor
  · intro hq
    obtain ⟨before, after, hsplit, -⟩ := mem_distinct_iff.mp hq
    rw [hsplit]
    simp
  · refine (forall_mem_distinct_iff fun q hq => ?_).mpr (fun q hq r hr => ?_) q
    · exact (h.makes_of_mem_keptQuads hbase hvalid hq).plain hvalid
    · exact (h.makes_of_mem_keptQuads hbase hvalid hq).not_lookalike hvalid htags
        (h.makes_of_mem_keptQuads hbase hvalid hr)

variable (x graph records) (first second : Session)

/--
**The order of declarations only names blank nodes.**  If triples maps are declared in another order
and no function is given blank nodes, a run over all of them keeps the same quads, with the scope of
each blank node renamed from the old position of its triples map to the new one: as often as before
if repetitions are kept, and once each otherwise, provided that no language tag has a space in it.
Both runs succeed if the base is one, and fail in the same way if it is not.
-/
theorem declaration_order_only_renames (h : x.Supplies graph records)
    (hvalid : graph.validate = .ok ()) (hcalls : graph.CallsWithoutLabels)
    (htags : x.config.removeDuplicates = true → ∀ tag ∈ graph.languages, ' ' ∉ tag.toList)
    (hcalm : x.cancellable = true → first.cancelled = false ∧ second.cancelled = false) :
    (x.run graph none first).result.isOk = x.config.base.isOk ∧
      ExceptAlike (fun a b => (a.store.toList.map (Quad.rescope p)).Perm b.store.toList)
        (x.run graph none first).result (x.run (graph.permute p) none second).result := by
  have hvalid' := RuleGraph.validate_permute p hvalid
  cases hbase : x.config.base with
  | error cause =>
      have hprepare : ∀ g : RuleGraph, x.prepare g none = .error (.config cause) := fun g =>
        prepare_eq_error_iff.mpr (.inl ⟨cause, hbase, rfl⟩)
      rw [run_eq_of_prepare_eq_error (hprepare graph),
        run_eq_of_prepare_eq_error (hprepare (graph.permute p))]
      exact ⟨rfl, .error _⟩
  | ok base =>
      have hselect : ∀ g : RuleGraph, g.select none = .ok (List.range g.size) := fun _ => rfl
      have h' := h.permute p
      obtain ⟨a, ha, hstore⟩ := h.exists_run first (fun hc => (hcalm hc).1) hbase hvalid
        (hselect graph)
      obtain ⟨b, hb, hstore'⟩ := h'.exists_run second (fun hc => (hcalm hc).2) hbase hvalid'
        (hselect _)
      have htags' : x.config.removeDuplicates = true →
          ∀ tag ∈ (graph.permute p).languages, ' ' ∉ tag.toList := by
        intro hremove tag htag
        refine htags hremove tag ?_
        exact ((RuleGraph.perm_permute p).flatMap_right _).mem_iff.mp htag
      rw [ha, hb]
      refine ⟨rfl, .ok ?_⟩
      rw [hstore, hstore']
      refine x.config.keeps_rescope_perm p ?_
        (fun hremove q => h.mem_distinct_keptQuads hbase hvalid (htags hremove))
        (fun hremove q => h'.mem_distinct_keptQuads hbase hvalid' (htags' hremove))
      exact Mapping.keptQuads_permute (d := x.mapping graph base records) p hcalls hvalid _

/-! ### A theatre -/

/-- A play, and a stage in its hall. -/
def theatreRecords (source : LogicalSource) : List Record :=
  if source.source == "plays" then [.ofPairs [("hall", "A"), ("title", "Hamlet")]]
  else if source.source == "stages" then [.ofPairs [("hall", "A"), ("no", "1")]]
  else []

/-- Shows this play. -/
def theatre : Executor where
  provider := { openAfter := fun _ source => .ok ((theatreRecords source).map .ok) }
  functions := Registry.insert {} "ex:join" (StandardFunction.concat.register false)

/-- Plays are on at the stages of their hall, which are named by hall and number. -/
def theatreRules : RuleGraph := ⟨
  [{ iri := "ex:Play", logicalSource := some ⟨"plays", .csv, none, none⟩
     subjectMap := some { termMap := (TermMap.reference "title").asBlankNode }
     predicateObjectMaps := [
       .constant "ex:title" (.term ((TermMap.reference "title").withLanguage "en")),
       .constant "ex:at" (.parent (.single "ex:Stage" "hall" "hall"))] },
   { iri := "ex:Stage", logicalSource := some ⟨"stages", .csv, none, none⟩
     subjectMap := some { termMap := (TermMap.function (((FunctionCall.ofFunction "ex:join")
       |>.withParameter "a" (TermMap.reference "hall").asLiteral)
       |>.withParameter "b" (TermMap.reference "no").asLiteral)).asBlankNode } }]⟩

/-- The stages are declared first. -/
def stagesFirst : Equiv.Perm (Fin theatreRules.triplesMaps.length) := 
  Equiv.swap ⟨0, by decide⟩ ⟨1, by decide⟩

theorem theatre_supplies : theatre.Supplies theatreRules theatreRecords where
  gives := fun _ _ _ _ _ => rfl
  silent := fun _ _ => rfl

theorem theatreRules_callsWithoutLabels : theatreRules.CallsWithoutLabels := by
  intro m hm map hmap
  simp only [theatreRules, List.mem_cons, List.not_mem_nil, or_false] at hm
  rcases hm with rfl | rfl
  · change map ∈ [_, _, _, _] at hmap
    simp only [List.mem_cons, List.not_mem_nil, or_false] at hmap
    rcases hmap with rfl | rfl | rfl | rfl <;> trivial
  · have hone : map = _ := List.mem_singleton.mp hmap
    rw [hone]
    exact ⟨nofun, trivial, nofun, trivial, trivial⟩

/-- What is said about a play and a stage. -/
def playbill (play stage : String) : List Quad :=
  [⟨.blank play, .iri "ex:title", .langString "Hamlet" "en", none⟩,
    ⟨.blank play, .iri "ex:at", .blank stage, none⟩]

theorem theatre_only_renames :
    ∃ a b, (theatre.run theatreRules).result = .ok a ∧
      (theatre.run (theatreRules.permute stagesFirst)).result = .ok b ∧
      a.store.toList = playbill "tm0-Hamlet" "tm1-A1" ∧
      (playbill "tm1-Hamlet" "tm0-A1").Perm b.store.toList := by
  have hvalid : theatreRules.validate = .ok () := by decide +kernel
  have hselect : theatreRules.select none = .ok [0, 1] := rfl
  obtain ⟨a, ha, hstore⟩ := theatre_supplies.exists_run {} (fun _ => rfl) rfl hvalid hselect
  have htags : ∀ tag ∈ theatreRules.languages, ' ' ∉ tag.toList := by
    decide +kernel
  obtain ⟨-, hrenames⟩ := declaration_order_only_renames theatre theatreRules theatreRecords
    stagesFirst {} {} theatre_supplies hvalid theatreRules_callsWithoutLabels (fun _ => htags)
    fun _ => ⟨rfl, rfl⟩
  rw [ha] at hrenames
  obtain ⟨b, hb, hperm⟩ := hrenames.exists_of_ok
  have hkept : theatre.config.keeps ((theatre.mapping theatreRules none theatreRecords).keptQuads
      .skipRecord none) = playbill "tm0-Hamlet" "tm1-A1" := by
    show distinct _ = _
    rw [distinct_eq_eraseDupsBy_render]
    decide +kernel
  have hrenamed : (playbill "tm0-Hamlet" "tm1-A1").map (Quad.rescope stagesFirst)
      = playbill "tm1-Hamlet" "tm0-A1" := by
    decide +kernel
  rw [hstore.trans hkept, hrenamed] at hperm
  exact ⟨a, b, ha, hb, hstore.trans hkept, hperm⟩

end Executor

end RdfMapping
