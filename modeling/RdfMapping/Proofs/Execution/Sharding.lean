/-
Running a selection is running its triples maps one by one.

The triples maps of a run share the indexes for joins, the provider and the store.  Still
it makes no difference whether a selection is executed in one run or in one run for each
triples map, in the order of the declarations, with the stores put together afterwards:
`run_eq_combine`.  Quads and counts are the same, and the one run fails if and as the
first failing run of the others does.

By `Ready.run_eq` a run is put together from parts that do not know of each other.  What
remains is that a triples map asked for alone is selected alone, and that repetitions may
be removed before stores are put together as well as after.
-/
import Mathlib.Data.List.Nodup
import RdfMapping.Proofs.Execution.Assembly
import RdfMapping.Source.Memory

namespace RdfMapping

/-! ### Selecting a single triples map -/

namespace RuleGraph

/-- Asking for the identity of a triples map selects it alone. -/
theorem selected_singleton {g : RuleGraph} (hvalid : g.validate = .ok ()) {position : Nat}
    {m : TriplesMap} (hget : g.triplesMaps[position]? = some m) :
    g.selected (some [m.iri]) = [(position, m)] := by
  have hposition := (validate_eq_ok_iff.mp hvalid position m hget).identity
  have hselect : g.select (some [m.iri])
      = .ok ((List.range g.size).filter [position].contains) :=
    select_eq_ok_iff.mpr ⟨[position], .cons hposition .nil, rfl⟩
  have honly : (List.range g.size).filter [position].contains = [position] := by
    have hlt : position < g.size := (List.getElem?_eq_some_iff.mp hget).1
    have hcontains : [position].contains = (· == position) := by
      funext p
      rw [Bool.eq_iff_iff]
      simp
    have hcount : (List.range g.size).count position = 1 :=
      List.nodup_iff_count_eq_one.mp List.nodup_range position (List.mem_range.mpr hlt)
    rw [hcontains, List.filter_beq, hcount]
    rfl
  rw [← filterMap_select hvalid hselect, honly]
  simp [hget]

end RuleGraph

/-! ### Putting stores together -/

/-- Contents of executions may be put together as their parts were. -/
theorem Config.content_combine (c : Config) {executions : List Execution}
    {parts : List (List Quad × Stats)}
    (h : executions.map Execution.content = parts.map fun part => c.content [part]) :
    ((c.combine (executions.map (·.store))).toList, executions.flatMap (·.report.triplesMaps))
      = c.content parts := by
  have hstats : executions.flatMap (·.report.triplesMaps) = parts.map (·.2) := by
    have hsecond := congrArg (fun contents => (contents.map Prod.snd).flatten) h
    simp only [List.map_map, Function.comp_def, Execution.content, Config.content] at hsecond
    rw [List.flatMap_def, hsecond, ← List.flatMap_def]
    simp only [List.map_cons, List.map_nil]
    rw [← List.map_eq_flatMap]
  have hquads : (executions.map (·.store)).map Store.toList
      = parts.map fun part => (c.content [part]).1 := by
    have hfirst := congrArg (List.map Prod.fst) h
    simpa only [List.map_map, Function.comp_def, Execution.content] using hfirst
  rw [c.toList_combine, hquads, hstats, Config.content]
  by_cases hremove : c.removeDuplicates
  · have hdistinct : (parts.map fun part => (c.content [part]).1)
        = (parts.map (·.1)).map distinct := by
      simp [Config.content, hremove]
    rw [if_pos hremove, hdistinct, distinct_flatten_map_distinct]
    simp [hremove]
  · have hplain : (parts.map fun part => (c.content [part]).1) = parts.map (·.1) := by
      simp [Config.content, hremove]
    rw [if_neg hremove, hplain]
    simp [hremove]

/-! ### One run for each triples map -/

namespace Executor

variable {x : Executor} {graph : RuleGraph} {base : Option Iri}

/-- What a run of a single triples map comes to. -/
theorem Ready.run_singleton_eq (h : x.Ready graph base) {position : Nat} {m : TriplesMap}
    (hget : graph.triplesMaps[position]? = some m) {session : Session}
    (hcalm : x.cancellable = true → session.cancelled = false) :
    (x.run graph (some [m.iri]) session).result.map Execution.content
      = ((((x.engine graph base).mapYield x.config.subjectFunctionErrors position m).part
          x.config m.iri).mapError (·.error)).map fun part => x.config.content [part] := by
  have hposition := (RuleGraph.validate_eq_ok_iff.mp h.valid position m hget).identity
  rw [h.run_eq (RuleGraph.select_eq_ok_iff.mpr ⟨[position], .cons hposition .nil, rfl⟩) hcalm,
    RuleGraph.selected_singleton h.valid hget, Engine.partsOf, List.mapM_cons, List.mapM_nil]
  dsimp only
  cases ((x.engine graph base).mapYield x.config.subjectFunctionErrors position m).part
    x.config m.iri <;> rfl

/--
**A run can be split up into runs of single triples maps.**  Executing the triples maps
asked for gives what executing each of them alone gives, in the order of the
declarations, with the stores merged or, where repetitions are kept, put behind one
another.  If one of the single runs fails, the error of the first that does is the error
of the whole.
-/
theorem run_eq_combine (x : Executor) (graph : RuleGraph) {base : Option Iri}
    (h : x.Ready graph base) (iris : List String)
    (hknown : ∀ iri ∈ iris, (graph.get? iri).isSome) (session : Session)
    (alone : String → Session)
    (hcalm : x.cancellable = true →
      session.cancelled = false ∧ ∀ iri, (alone iri).cancelled = false) :
    (x.run graph (some iris) session).result.map
        (fun all => (all.store.toList, all.report.triplesMaps))
      = (((graph.triplesMaps.map (·.iri)).filter iris.contains).mapM fun iri =>
          (x.run graph (some [iri]) (alone iri)).result).map fun parts =>
            ((x.config.combine (parts.map (·.store))).toList,
              parts.flatMap (·.report.triplesMaps)) := by
  obtain ⟨positions, hselect⟩ := RuleGraph.exists_select_eq_ok hknown
  have hcalm' : x.cancellable = true → session.cancelled = false := fun hc => (hcalm hc).1
  have hwhole := h.run_eq hselect hcalm'
  have hsingles : ((graph.selected (some iris)).mapM fun entry =>
        (x.run graph (some [entry.2.iri]) (alone entry.2.iri)).result).map
          (List.map Execution.content)
      = (((x.engine graph base).partsOf x.config (graph.selected (some iris))).mapError
          (·.error)).map (List.map fun part => x.config.content [part]) := by
    rw [Engine.partsOf, mapM_mapError, mapM_map_view fun _ _ => rfl, mapM_map_view]
    intro entry hentry
    rw [h.run_singleton_eq (RuleGraph.getElem?_of_mem_selected hentry) fun hc => (hcalm hc).2 _]
  have hcombined := map_eq_map_of_view hsingles fun executions parts hcontents =>
    x.config.content_combine hcontents
  have hiris : (graph.selected (some iris)).map (·.2.iri)
      = (graph.triplesMaps.map (·.iri)).filter iris.contains := graph.map_iri_selected (some iris)
  rw [← hiris, List.mapM_map]
  refine hwhole.trans (Eq.trans ?_ hcombined.symm)
  cases (x.engine graph base).partsOf x.config (graph.selected (some iris)) <;> rfl

/-! ### An office -/

/-- People and departments, and rooms that cannot be opened, which costs only the rooms. -/
def office : Executor where
  provider := FaultySources.provider
    { sources := ⟨[("depts", [.ofPairs [("code", "ops")]]),
        ("people", [.ofPairs [("id", "ann"), ("dept", "ops")]])]⟩
      faults := [⟨"rooms", .read "eof", none⟩] }
  config := { sourceErrors := .skipTriplesMap }

/-- Rooms, departments, and people who work in a department. -/
def officeRules : RuleGraph := ⟨
  [{ iri := "ex:Room", logicalSource := some ⟨"rooms", .csv, none, none⟩
     subjectMap := some { termMap := (TermMap.reference "room").asBlankNode } },
   { iri := "ex:Dept", logicalSource := some ⟨"depts", .csv, none, none⟩
     subjectMap := some { termMap := (TermMap.reference "code").asBlankNode } },
   { iri := "ex:Person", logicalSource := some ⟨"people", .csv, none, none⟩
     subjectMap := some { termMap := (TermMap.reference "id").asBlankNode }
     predicateObjectMaps := [.constant "ex:in" (.parent (.single "ex:Dept" "dept" "code"))] }]⟩

theorem office_ready : office.Ready officeRules none where
  based := rfl
  valid := by decide +kernel
  reopens := fun _ _ _ _ _ => rfl
  silent := fun _ _ => rfl

/-- The rooms are given up and the person works in a department, in one run as in two. -/
theorem office_run_eq_combine :
    (office.run officeRules (some ["ex:Person", "ex:Room", "ex:Person"])).result.map
        (fun all => (all.store.toList, all.report.triplesMaps))
      = .ok ([⟨.blank "tm2-ann", .iri "ex:in", .blank "tm1-ops", none⟩],
          [⟨"ex:Room", 0, 0, 0, .skipped⟩, ⟨"ex:Person", 1, 0, 1, .completed⟩]) ∧
    ((["ex:Room", "ex:Person"].mapM fun iri => (office.run officeRules (some [iri])).result).map
        fun parts => ((office.config.combine (parts.map (·.store))).toList,
          parts.flatMap (·.report.triplesMaps)))
      = .ok ([⟨.blank "tm2-ann", .iri "ex:in", .blank "tm1-ops", none⟩],
          [⟨"ex:Room", 0, 0, 0, .skipped⟩, ⟨"ex:Person", 1, 0, 1, .completed⟩]) := by
  have hknown : ∀ iri ∈ ["ex:Person", "ex:Room", "ex:Person"],
      (officeRules.get? iri).isSome := by
    intro iri hiri
    simp only [List.mem_cons, List.not_mem_nil, or_false] at hiri
    rcases hiri with rfl | rfl | rfl <;> decide +kernel
  have hselect : officeRules.select (some ["ex:Person", "ex:Room", "ex:Person"]) = .ok [0, 2] := by
    decide +kernel
  have hparts : (office.engine officeRules none).partsOf office.config
        (officeRules.selected (some ["ex:Person", "ex:Room", "ex:Person"]))
      = .ok [([], ⟨"ex:Room", 0, 0, 0, .skipped⟩),
          ([⟨.blank "tm2-ann", .iri "ex:in", .blank "tm1-ops", none⟩],
            ⟨"ex:Person", 1, 0, 1, .completed⟩)] := by
    decide +kernel
  have hdistinct : distinct [⟨.blank "tm2-ann", .iri "ex:in", .blank "tm1-ops", none⟩]
      = [⟨.blank "tm2-ann", .iri "ex:in", .blank "tm1-ops", none⟩] := distinct_cons ..
  have hwhole : (office.run officeRules (some ["ex:Person", "ex:Room", "ex:Person"])
      {}).result.map Execution.content = _ := office_ready.run_eq hselect fun _ => rfl
  have hsplit := run_eq_combine office officeRules office_ready _ hknown {} (fun _ => {})
    fun _ => ⟨rfl, fun _ => rfl⟩
  rw [hparts] at hwhole
  have hgiven := hwhole.trans (congrArg (fun quads => Except.ok (quads, _)) hdistinct)
  exact ⟨hgiven, hsplit.symm.trans hgiven⟩

end Executor

end RdfMapping
