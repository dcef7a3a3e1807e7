/-
A source that cannot be read costs whole triples maps and nothing else.

There are two policies for such sources.  Either the run ends there, or the triples maps that
need the source are given up: those that read it, and those that refer to a parent that
does.  `source_errors_atomic` says that the two come to the same as far as they can.  What is
lost under the second policy is what the first one has to be run without, and the error that
ends the first one is the one that the report of the second one lists for the first triples
map that is lost.

A triples map may be lost in the middle, with quads made and indexes built.  That nothing of
it reaches the output or other triples maps follows from `Ready.run_eq`, by which a run is
put together from parts that depend on the rules and the sources only.  What has to be added
is which diagnostics belong to the triples maps that are lost.
-/
import Mathlib.Data.List.Nodup
import RdfMapping.Proofs.Execution.Losses
import RdfMapping.Source.Memory

namespace RdfMapping

/-- The diagnostics about sources. -/
def Report.sourceFailures (r : Report) : List Diagnostic :=
  r.diagnostics.filter (·.error.isSource)

/-- The triples maps that were given up because of a source. -/
def Report.lost (r : Report) : List String :=
  (r.triplesMaps.filter fun s =>
    s.status == .skipped && r.sourceFailures.any (·.triplesMap == s.triplesMap)).map (·.triplesMap)

/-- The identities that a filter asks for, but for some. -/
def RuleGraph.without (g : RuleGraph) (filter : Option (List String)) (lost : List String) :
    List String :=
  (filter.getD (g.triplesMaps.map (·.iri))).filter fun iri => !lost.contains iri

/-- The executor with another policy for sources. -/
def Executor.withSourceErrors (x : Executor) (policy : SourceErrorPolicy) : Executor :=
  { x with config := { x.config with sourceErrors := policy } }

/-! ### What the report says is lost -/

section Reports

variable {e : Engine} {policy : SubjectErrorPolicy} {selected : List (Nat × TriplesMap)}
  {r : Report}

/-- The triples maps that a report says are lost are those with a loss. -/
theorem Report.lost_eq (hdistinct : (selected.map (·.2.iri)).Nodup)
    (hstats : r.triplesMaps = selected.map fun entry => (e.keptOf policy entry).2)
    (hlosses : r.sourceFailures = selected.filterMap (e.lossOf policy)) :
    r.lost = (selected.filter fun entry => (e.lossOf policy entry).isSome).map (·.2.iri) := by
  have hlost : ∀ entry ∈ selected,
      ((e.keptOf policy entry).2.status == .skipped &&
          r.sourceFailures.any (·.triplesMap == (e.keptOf policy entry).2.triplesMap))
        = (e.lossOf policy entry).isSome := by
    intro entry hentry
    rw [Bool.eq_iff_iff, Bool.and_eq_true, List.any_eq_true, hlosses, Engine.keptOf_triplesMap]
    constructor
    · rintro ⟨-, d, hd, hname⟩
      -- The diagnostic of another triples map would have another identity.
      obtain ⟨other, hother, hloss⟩ := List.mem_filterMap.mp hd
      have hsame : other = entry := by
        refine List.inj_on_of_nodup_map hdistinct hother hentry ?_
        rw [← Engine.triplesMap_of_lossOf hloss]
        simpa using hname
      rw [← hsame, hloss]
      rfl
    · intro hsome
      obtain ⟨d, hloss⟩ := Option.isSome_iff_exists.mp hsome
      refine ⟨by rw [(Engine.keptOf_of_lossOf hloss).2]; rfl, d, ?_, ?_⟩
      · exact List.mem_filterMap.mpr ⟨entry, hentry, hloss⟩
      · rw [Engine.triplesMap_of_lossOf hloss]
        exact beq_self_eq_true _
  rw [lost, hstats, List.filter_map, List.map_map, ← List.filter_congr hlost]
  simp only [Function.comp_def, Engine.keptOf_triplesMap]

/-- Leaving out by name what a condition picks is leaving out what it picks. -/
theorem filter_not_named {α : Type} {name : α → String} {as : List α}
    (hdistinct : (as.map name).Nodup) (p : α → Bool) :
    as.filter (fun a => !((as.filter p).map name).contains (name a))
      = as.filter fun a => !p a := by
  refine List.filter_congr fun a ha => ?_
  have hmem : name a ∈ (as.filter p).map name ↔ p a = true := by
    rw [List.mem_map]
    constructor
    · rintro ⟨other, hother, hname⟩
      obtain ⟨hother, hp⟩ := List.mem_filter.mp hother
      rwa [← List.inj_on_of_nodup_map hdistinct hother ha hname]
    · intro hp
      exact ⟨a, List.mem_filter.mpr ⟨ha, hp⟩, rfl⟩
  rw [Bool.eq_iff_iff, Bool.not_eq_true', ← Bool.not_eq_true, List.contains_iff_mem, hmem]
  cases p a <;> simp

/-- What is left of a selection without what is lost. -/
theorem filter_lost_eq {lost : List String} (hdistinct : (selected.map (·.2.iri)).Nodup)
    (hlost : lost
      = (selected.filter fun entry => (e.lossOf policy entry).isSome).map (·.2.iri)) :
    selected.filter (fun entry => !lost.contains entry.2.iri)
      = selected.filter fun entry => (e.lossOf policy entry).isNone := by
  rw [hlost, filter_not_named hdistinct]
  refine List.filter_congr fun entry _ => ?_
  cases e.lossOf policy entry <;> rfl

/-- What is left without what is lost has all the quads, and the counts of the others. -/
theorem Config.content_spared (c : Config) {lost : List String}
    (hdistinct : (selected.map (·.2.iri)).Nodup)
    (hlost : lost
      = (selected.filter fun entry => (e.lossOf policy entry).isSome).map (·.2.iri)) :
    c.content ((selected.filter fun entry => (e.lossOf policy entry).isNone).map (e.keptOf policy))
      = ((c.content (selected.map (e.keptOf policy))).1,
          (selected.map fun entry => (e.keptOf policy entry).2).filter fun s =>
            !lost.contains s.triplesMap) := by
  refine Prod.ext ?_ ?_
  · simp only [content, List.map_map, Function.comp_def, Engine.flatten_keptOf_filter]
  · rw [← filter_lost_eq hdistinct hlost]
    simp only [content, List.filter_map, List.map_map, Function.comp_def,
      Engine.keptOf_triplesMap]

/-- A loss is the only one about its triples map. -/
theorem filter_triplesMap_head {d : Diagnostic} {ds : List Diagnostic}
    (hdistinct : ((d :: ds).map (·.triplesMap)).Nodup) :
    (d :: ds).filter (·.triplesMap == d.triplesMap) = [d] := by
  have hothers : ds.filter (·.triplesMap == d.triplesMap) = [] := by
    refine List.filter_eq_nil_iff.mpr fun other hother hname => ?_
    refine (List.nodup_cons.mp hdistinct).1 ?_
    exact List.mem_map.mpr ⟨other, hother, by simpa using hname⟩
  rw [List.filter_cons, if_pos (beq_self_eq_true _), hothers]

end Reports

/-- What is selected without some identities. -/
theorem RuleGraph.selected_without (g : RuleGraph) (filter : Option (List String))
    (lost : List String) :
    g.selected (some (g.without filter lost))
      = (g.selected filter).filter fun entry => !lost.contains entry.2.iri := by
  rw [selected, selected, List.filter_map, List.filter_filter]
  congr 1
  refine List.filter_congr fun entry hentry => ?_
  have hdeclared : entry.1.iri ∈ g.triplesMaps.map (·.iri) :=
    List.mem_map_of_mem (List.fst_mem_of_mem_zipIdx hentry)
  rw [Bool.eq_iff_iff]
  cases filter with
  | none => simpa [wanted, without] using fun _ => List.mem_map.mp hdeclared
  | some iris => simp [wanted, without, and_comm]

theorem RuleGraph.exists_select_without {g : RuleGraph} {filter : Option (List String)}
    {positions : List Nat} (hselect : g.select filter = .ok positions) (lost : List String) :
    ∃ positions, g.select (some (g.without filter lost)) = .ok positions := by
  refine exists_select_eq_ok fun iri hiri => ?_
  have hwanted := (List.mem_filter.mp hiri).1
  cases filter with
  | none =>
      obtain ⟨m, hm, rfl⟩ := List.mem_map.mp hwanted
      exact isSome_get?_of_mem hm
  | some iris => exact isSome_get?_of_select hselect iri hwanted

/-! ### Runs under the two policies -/

namespace Executor

variable {x : Executor} {graph : RuleGraph} {base : Option Iri} {filter : Option (List String)}
  {positions : List Nat} {session : Session}

theorem Ready.withSourceErrors (h : x.Ready graph base) (policy : SourceErrorPolicy) :
    (x.withSourceErrors policy).Ready graph base :=
  ⟨h.based, h.valid, h.reopens, h.silent⟩

/-- The diagnostics of a run that are about sources are the losses of its triples maps. -/
theorem Ready.sourceFailures_eq (h : x.Ready graph base)
    (hselect : graph.select filter = .ok positions)
    (hcalm : x.cancellable = true → session.cancelled = false) {execution : Execution}
    (hrun : (x.run graph filter session).result = .ok execution) :
    execution.report.sourceFailures = (graph.selected filter).filterMap
      ((x.engine graph base).lossOf x.config.subjectFunctionErrors) := by
  obtain ⟨engine, selected, parts, s, hprepare, hparts, rfl⟩ := exists_contributions_of_run hrun
  rw [h.prepare_eq hselect] at hprepare
  cases hprepare
  have hsound : (x.engine graph base).Sound (.atStart session (graph.selected filter)) :=
    Engine.sound_of_calm hcalm rfl
  exact Engine.sourceFailures_contributions h.repeatable h.valid
    (fun _ => RuleGraph.getElem?_of_mem_selected) hsound rfl hparts

/-- A run that skips sources succeeds with what its triples maps keep. -/
theorem Ready.exists_skipping (h : x.Ready graph base)
    (hselect : graph.select filter = .ok positions)
    (hcalm : x.cancellable = true → session.cancelled = false) :
    ∃ execution,
      ((x.withSourceErrors .skipTriplesMap).run graph filter session).result = .ok execution ∧
      execution.content = x.config.content ((graph.selected filter).map
        ((x.engine graph base).keptOf x.config.subjectFunctionErrors)) ∧
      execution.report.sourceFailures = (graph.selected filter).filterMap
        ((x.engine graph base).lossOf x.config.subjectFunctionErrors) := by
  have hready := h.withSourceErrors .skipTriplesMap
  have hparts : ((x.withSourceErrors .skipTriplesMap).engine graph base).partsOf
      (x.withSourceErrors .skipTriplesMap).config (graph.selected filter) = .ok _ :=
    Engine.partsOf_of_skip h.repeatable h.valid (fun _ => RuleGraph.getElem?_of_mem_selected) rfl
  have hrun := hready.run_eq hselect hcalm
  rw [hparts] at hrun
  obtain ⟨execution, hexecution, hcontent⟩ := map_eq_ok_iff.mp hrun
  exact ⟨execution, hexecution, hcontent, hready.sourceFailures_eq hselect hcalm hexecution⟩

/-- A run that does not skip sources ends with the first loss of its triples maps. -/
theorem Ready.failing_eq (h : x.Ready graph base) (hselect : graph.select filter = .ok positions)
    (hcalm : x.cancellable = true → session.cancelled = false) :
    ((x.withSourceErrors .fail).run graph filter session).result.map Execution.content
      = match (graph.selected filter).filterMap
            ((x.engine graph base).lossOf x.config.subjectFunctionErrors) with
        | [] => .ok (x.config.content ((graph.selected filter).map
            ((x.engine graph base).keptOf x.config.subjectFunctionErrors)))
        | d :: _ => .error d.error := by
  have hparts : (((x.withSourceErrors .fail).engine graph base).partsOf
      (x.withSourceErrors .fail).config (graph.selected filter)).mapError _ = _ :=
    Engine.partsOf_of_fail h.repeatable h.valid (fun _ => RuleGraph.getElem?_of_mem_selected) rfl
  rw [(h.withSourceErrors .fail).run_eq hselect hcalm, mapError_map, hparts]
  change Except.map _ (match (graph.selected filter).filterMap
    ((x.engine graph base).lossOf x.config.subjectFunctionErrors) with | [] => _ | d :: _ => _) = _
  cases (graph.selected filter).filterMap
    ((x.engine graph base).lossOf x.config.subjectFunctionErrors) <;> rfl

/--
**A source that cannot be read costs whole triples maps and nothing else.**  A run that skips
such sources succeeds, with the quads that a run has which fails for them but is spared the
triples maps that are lost, and with its counts for the others.  A run that fails for them
fails exactly if something is lost, with the error that is listed for the first loss.
-/
theorem source_errors_atomic (x : Executor) (graph : RuleGraph) {base : Option Iri}
    (h : x.Ready graph base) (filter : Option (List String)) {positions : List Nat}
    (hselect : graph.select filter = .ok positions) (first second third : Session)
    (hcalm : x.cancellable = true →
      first.cancelled = false ∧ second.cancelled = false ∧ third.cancelled = false) :
    ∃ skipping,
      ((x.withSourceErrors .skipTriplesMap).run graph filter first).result = .ok skipping ∧
      (∃ spared, ((x.withSourceErrors .fail).run graph
            (some (graph.without filter skipping.report.lost)) second).result = .ok spared ∧
          spared.store.toList = skipping.store.toList ∧
          spared.report.triplesMaps = skipping.report.triplesMaps.filter fun s =>
            !skipping.report.lost.contains s.triplesMap) ∧
      match skipping.report.lost with
      | [] => ∃ all, ((x.withSourceErrors .fail).run graph filter third).result = .ok all
      | iri :: _ => ∃ d, skipping.report.sourceFailures.filter (·.triplesMap == iri) = [d] ∧
          ((x.withSourceErrors .fail).run graph filter third).result = .error d.error := by
  obtain ⟨skipping, hskipping, hcontent, hlosses⟩ :=
    h.exists_skipping hselect (fun hc => (hcalm hc).1)
  have hstats : skipping.report.triplesMaps = (graph.selected filter).map fun entry =>
      ((x.engine graph base).keptOf x.config.subjectFunctionErrors entry).2 :=
    (congrArg Prod.snd hcontent).trans List.map_map
  have hdistinct : ((graph.selected filter).map (·.2.iri)).Nodup := by
    rw [RuleGraph.map_iri_selected]
    exact (RuleGraph.nodup_iris h.valid).filter _
  -- From here on, what the report lists as lost are the triples maps with a loss.
  have hlost := Report.lost_eq hdistinct hstats hlosses
  refine ⟨skipping, hskipping, ?_, ?_⟩
  · obtain ⟨positions', hselect'⟩ :=
      RuleGraph.exists_select_without hselect skipping.report.lost
    have hrun := h.failing_eq hselect' (fun hc => (hcalm hc).2.1)
    have hnone : ((graph.selected filter).filter fun entry =>
        ((x.engine graph base).lossOf x.config.subjectFunctionErrors entry).isNone).filterMap
          ((x.engine graph base).lossOf x.config.subjectFunctionErrors) = [] := by
      refine List.filterMap_eq_nil_iff.mpr fun entry hentry => ?_
      simpa using (List.mem_filter.mp hentry).2
    rw [RuleGraph.selected_without, filter_lost_eq hdistinct hlost, hnone] at hrun
    obtain ⟨spared, hspared, hcontent'⟩ := map_eq_ok_iff.mp hrun
    have hboth := hcontent'.trans (x.config.content_spared hdistinct hlost)
    refine ⟨spared, hspared, ?_, ?_⟩
    · exact (congrArg Prod.fst hboth).trans (congrArg Prod.fst hcontent).symm
    · rw [hstats]
      exact congrArg Prod.snd hboth
  · have hrun := h.failing_eq hselect (fun hc => (hcalm hc).2.2)
    have hnames : skipping.report.lost = skipping.report.sourceFailures.map (·.triplesMap) := by
      rw [hlost, Engine.map_iri_filter_lossOf, hlosses]
    have hnodup : (skipping.report.sourceFailures.map (·.triplesMap)).Nodup := by
      rw [← hnames, hlost]
      exact hdistinct.sublist (List.filter_sublist.map _)
    rw [← hlosses] at hrun
    rw [hnames]
    cases hfailures : skipping.report.sourceFailures with
    | nil =>
        rw [hfailures] at hrun
        obtain ⟨all, hall, -⟩ := map_eq_ok_iff.mp hrun
        exact ⟨all, hall⟩
    | cons d ds =>
        rw [hfailures] at hrun hnodup
        exact ⟨d, filter_triplesMap_head hnodup, map_eq_error_iff.mp hrun⟩

/-! ### An inn -/

/-- One guest, one meal, and rooms that cannot be read past the second one. -/
def inn : Executor where
  provider := FaultySources.provider
    { sources := ⟨[("guests", [.ofPairs [("name", "ann"), ("room", "1")]]),
        ("rooms", [.ofPairs [("no", "1")], .ofPairs [("no", "2")]]),
        ("meals", [.ofPairs [("dish", "soup")]])]⟩
      faults := [⟨"rooms", .read "eof", some 2⟩] }

/-- Guests are persons, are in rooms and have meals. -/
def innRules : RuleGraph := ⟨
  [{ iri := "ex:Guest", logicalSource := some ⟨"guests", .csv, none, none⟩
     subjectMap := some
       { termMap := (TermMap.reference "name").asBlankNode, classes := ["ex:Person"] }
     predicateObjectMaps := [.constant "ex:in" (.parent (.single "ex:Room" "room" "no"))] },
   { iri := "ex:Room", logicalSource := some ⟨"rooms", .csv, none, none⟩
     subjectMap := some { termMap := (TermMap.reference "no").asBlankNode } },
   { iri := "ex:Meal", logicalSource := some ⟨"meals", .csv, none, none⟩
     subjectMap := some
       { termMap := (TermMap.reference "dish").asBlankNode, classes := ["ex:Dish"] } }]⟩

theorem inn_ready : inn.Ready innRules none where
  based := rfl
  valid := by decide
  reopens := fun _ _ _ _ _ => rfl
  silent := fun _ _ => rfl

theorem inn_skipping :
    ((inn.withSourceErrors .skipTriplesMap).run innRules none {}).result.map (fun skipping =>
        (skipping.report.lost, skipping.report.sourceFailures, skipping.report.triplesMaps))
      = .ok (["ex:Guest", "ex:Room"],
          [⟨"ex:Guest", some 2, .source "ex:Room" (some 2) (.read "eof")⟩,
            ⟨"ex:Room", some 2, .source "ex:Room" (some 2) (.read "eof")⟩],
          [⟨"ex:Guest", 1, 0, 1, .skipped⟩, ⟨"ex:Room", 2, 0, 0, .skipped⟩,
            ⟨"ex:Meal", 1, 0, 1, .completed⟩]) := by
  decide +kernel

/-- The guests are lost with their rooms, although a quad was made for the one there is. -/
theorem inn_source_errors_atomic :
    (∃ spared,
        ((inn.withSourceErrors .fail).run innRules (some ["ex:Meal"]) {}).result = .ok spared ∧
          spared.report.triplesMaps = [⟨"ex:Meal", 1, 0, 1, .completed⟩]) ∧
      ((inn.withSourceErrors .fail).run innRules none {}).result
        = .error (.source "ex:Room" (some 2) (.read "eof")) := by
  obtain ⟨skipping, hskipping, ⟨spared, hspared, -, hstats⟩, hfailing⟩ :=
    source_errors_atomic inn innRules inn_ready none rfl {} {} {}
      fun _ => ⟨rfl, rfl, rfl⟩
  have hreport := inn_skipping
  rw [hskipping] at hreport
  obtain ⟨hlost, hfailures, hall⟩ : _ ∧ _ ∧ _ := by
    simpa only [Except.map, Except.ok.injEq, Prod.mk.injEq] using hreport
  rw [hlost] at hspared hstats hfailing
  rw [hall] at hstats
  obtain ⟨d, hd, hfailing⟩ := hfailing
  rw [hfailures] at hd
  refine ⟨⟨spared, hspared, hstats⟩, ?_⟩
  rw [hfailing, ← (List.cons.inj hd).1]

end Executor

end RdfMapping
