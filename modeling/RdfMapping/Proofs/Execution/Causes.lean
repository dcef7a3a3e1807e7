/-
Every step of a triples map proceeds.

In a valid rule graph the steps that make up a triples map, down to the scans of its parents,
do what `Proceeds` says of them, one lemma for each.  What validation has checked is used
where the engine would fail otherwise: sources and subject maps are there, and parents are
known.  So only the three causes are left for a triples map to fail, and a run adds up what
its triples maps report: see `Executor.run_proceeds`.
-/
import RdfMapping.Proofs.Execution.Blame
import RdfMapping.Proofs.Execution.Outcome

namespace RdfMapping

namespace Engine

variable {e : Engine} {start t u : Session} {policy : SubjectErrorPolicy} {m : TriplesMap}
  {position : Nat} {site : Site}

/-! ### Term maps -/

/-- The site is a record that the triples map at a position has been given. -/
structure Located (e : Engine) (start t : Session) (position : Nat) (m : TriplesMap)
    (site : Site) : Prop where
  declared : e.graph.triplesMaps[position]? = some m
  triplesMap : site.triplesMap = m
  scope : site.scope = blankScope position
  delivered : e.Delivers start t m site.position (.ok site.record)

theorem Located.mono (h : e.Located start t position m site) (htu : t.Before u) :
    e.Located start u position m site :=
  ⟨h.declared, h.triplesMap, h.scope, h.delivered.mono htu⟩

theorem proceeds_absorb {iri : String} {n : Nat} {error : FunctionError}
    (h : e.Notes start t ⟨iri, some n, .function error⟩) :
    e.Proceeds start policy m t (Step.absorb iri n error) fun _ _ => True := by
  refine proceeds_bind (proceeds_log _) fun _ u htu _ => ?_
  refine proceeds_modify fun s hus => ⟨.refl _, ?_, fun d hd => .inl hd⟩
  intro d hd
  rcases Array.mem_push.mp hd with hold | hnew
  · exact .inl hold
  · rw [hnew]
    exact .inr (h.mono (htu.trans hus))

theorem proceeds_survive (hsite : e.Located start t position m site)
    {result : Except FunctionError (List Term)}
    (h : ∀ error, result = .error error → e.Fails position m site.record error) :
    e.Proceeds start policy m t (survive site result) fun _ _ => True := by
  cases result with
  | ok terms => exact proceeds_pure fun _ _ => trivial
  | error error =>
      have hnote : e.Notes start t ⟨site.triplesMap.iri, some site.position, .function error⟩ :=
        ⟨site.position, error, rfl, rfl, position, m, _, hsite.declared,
          congrArg TriplesMap.iri hsite.triplesMap.symm, hsite.delivered, .failing (h error rfl)⟩
      refine proceeds_bind (proceeds_absorb hnote) fun _ _ _ _ => ?_
      exact proceeds_pure fun _ _ => trivial

theorem proceeds_termsAt (hsite : e.Located start t position m site) {map : TermMap}
    (hmap : e.graph.Evaluates position m map (blankScope position)) :
    e.Proceeds start policy m t (e.termsAt site map) fun _ _ => True := by
  refine proceeds_bind (proceeds_evaluate _ _ _) fun result u htu hresult => ?_
  refine proceeds_survive (hsite.mono htu) fun error herror => ?_
  rw [hresult, hsite.scope] at herror
  exact ⟨map, blankScope position, hmap, herror⟩

theorem proceeds_allTermsAt (hsite : e.Located start t position m site) {maps : List TermMap}
    (hmaps : ∀ map ∈ maps, e.graph.Evaluates position m map (blankScope position)) :
    e.Proceeds start policy m t (e.allTermsAt site maps) fun _ _ => True := by
  induction maps generalizing t with
  | nil => exact proceeds_pure fun _ _ => trivial
  | cons map maps ih =>
      refine proceeds_bind (proceeds_termsAt hsite (hmaps map (by simp))) fun _ u htu _ => ?_
      have hrest := ih (hsite.mono htu) fun other hother => hmaps other (by simp [hother])
      refine proceeds_bind hrest fun _ _ _ _ => ?_
      exact proceeds_pure fun _ _ => trivial

theorem proceeds_addGraphsAt (hsite : e.Located start t position m site)
    (graphs : List (Option Term)) {maps : List TermMap}
    (hmaps : ∀ map ∈ maps, e.graph.Evaluates position m map (blankScope position)) :
    e.Proceeds start policy m t (e.addGraphsAt site graphs maps) fun _ _ => True := by
  refine proceeds_bind (proceeds_allTermsAt hsite hmaps) fun _ _ _ _ => ?_
  exact proceeds_pure fun _ _ => trivial

/-! ### Parents -/

theorem proceeds_sourceOf {p : TriplesMap} (h : p.logicalSource.isSome) :
    e.Proceeds start policy m t (sourceOf p) fun source _ => p.logicalSource = some source := by
  unfold sourceOf
  cases hsource : p.logicalSource with
  | none => rw [hsource] at h; cases h
  | some source => exact proceeds_pure fun _ _ => rfl

theorem proceeds_subjectMapOf {p : TriplesMap} {subjectMap : SubjectMap}
    (h : p.subjectMap = some subjectMap) :
    e.Proceeds start policy m t (subjectMapOf p) fun found _ => found = subjectMap := by
  unfold subjectMapOf
  rw [h]
  exact proceeds_pure fun _ _ => rfl

/-- A parent's record whose subject fails is noted under the parent. -/
theorem proceeds_addRow {p : TriplesMap} {subjectMap : SubjectMap} {n : Nat} {record : Record}
    (hget : e.graph.triplesMaps[position]? = some p) (hsubject : p.subjectMap = some subjectMap)
    (hrecord : e.Delivers start t p n (.ok record)) (found : ParentScan) :
    e.Proceeds start policy m t (e.addRow p subjectMap (blankScope position) found n record)
      fun _ _ => True := by
  refine proceeds_bind (proceeds_evaluate _ _ _) fun result u htu hresult => ?_
  cases result with
  | error error =>
      have hfails : e.Fails position p record error := ⟨_, _, .subject hsubject, hresult.symm⟩
      have hnote : e.Notes start u ⟨p.iri, some n, .function error⟩ :=
        ⟨n, error, rfl, rfl, position, p, _, hget, rfl, hrecord.mono htu, .failing hfails⟩
      refine proceeds_bind (proceeds_log _) fun _ v huv _ => ?_
      refine proceeds_bind (proceeds_modify fun s hvs => ⟨.refl _, fun d hd => .inl hd, ?_⟩)
        fun _ _ _ _ => proceeds_pure fun _ _ => trivial
      intro d hd
      rcases Array.mem_push.mp hd with hold | hnew
      · exact .inl hold
      · rw [hnew]
        exact .inr (hnote.mono (huv.trans hvs))
  | ok terms =>
      cases terms with
      | nil => exact proceeds_pure fun _ _ => trivial
      | cons term terms => exact proceeds_pure fun _ _ => trivial

theorem proceeds_buildIndex (hvalid : e.graph.validate = .ok ()) {p : TriplesMap}
    (hget : e.graph.triplesMaps[position]? = some p) (hp : ∃ r ∈ m.parents, r.parent = p.iri)
    (asked : List String) :
    e.Proceeds start policy m t (e.buildIndex position p asked) fun _ _ => True := by
  have hexecutable := RuleGraph.validate_eq_ok_iff.mp hvalid position p hget
  obtain ⟨subjectMap, hsubject, -⟩ := hexecutable.subject
  refine proceeds_inSpan _ ?_
  refine proceeds_bind (proceeds_sourceOf hexecutable.source) fun source _ _ hsource => ?_
  refine proceeds_bind (proceeds_subjectMapOf hsubject) fun found _ _ hfound => ?_
  subst hfound
  refine proceeds_bind (proceeds_openSource (.inr hp)) fun items u _ hopening => ?_
  have hdelivers := delivers_of_opened hsource hopening
  have hscan : e.Proceeds start policy m u
      (e.scan p.iri (e.addRow p found (blankScope position)) 0 {} items) fun _ _ => True :=
    proceeds_scan hget (.inr hp)
      (fun found n record v hrecord _ => proceeds_addRow hget hsubject hrecord found)
      0 {} hdelivers trivial
  refine proceeds_bind hscan fun _ _ _ _ => ?_
  refine proceeds_bind (proceeds_log _) fun _ _ _ _ => ?_
  exact proceeds_pure fun _ _ => trivial

theorem proceeds_indexFor (hvalid : e.graph.validate = .ok ()) {p : TriplesMap}
    (hget : e.graph.triplesMaps[position]? = some p) (hp : ∃ r ∈ m.parents, r.parent = p.iri)
    (layout : List String) :
    e.Proceeds start policy m t (e.indexFor position p layout) fun _ _ => True := by
  rw [indexFor_eq]
  refine proceeds_get_bind fun s _ _ => ?_
  cases (s.indexes.lookup p.iri).filter (·.covers layout) with
  | some index => exact proceeds_pure fun _ _ => trivial
  | none =>
      refine proceeds_bind (proceeds_buildIndex hvalid hget hp layout) fun index _ _ _ => ?_
      refine proceeds_bind (proceeds_modify fun _ _ => evolves_of_same (.refl _) rfl rfl) ?_
      exact fun _ _ _ _ => proceeds_pure fun _ _ => trivial

/-- A reference fails for a record only where the parent's subject is made from that record. -/
theorem proceeds_resolve (hvalid : e.graph.validate = .ok ()) {r : RefObjectMap}
    (hr : r ∈ m.parents) (hknown : (e.graph.get? r.parent).isSome) (record : Record) :
    e.Proceeds start policy m t (e.resolve r m record) fun result _ =>
      ∀ error, result = .error error → e.Fails position m record error := by
  obtain ⟨other, p, hother, hparent, hget, hiri⟩ := RuleGraph.exists_position_of_isSome hknown
  have hp : ∃ r ∈ m.parents, r.parent = p.iri := ⟨r, hr, hiri.symm⟩
  obtain ⟨subjectMap, hsubject, -⟩ :=
    (RuleGraph.validate_eq_ok_iff.mp hvalid other p hget).subject
  have hparentOf : e.Proceeds start policy m t (e.parentOf r m) fun found _ =>
      found = (other, p) := by
    unfold parentOf
    rw [hother, hparent]
    exact proceeds_pure fun _ _ => rfl
  refine proceeds_bind hparentOf fun found _ _ hfound => ?_
  subst hfound
  dsimp only
  by_cases hsame : (!r.hasConditions && p.logicalSource == m.logicalSource) = true
  · rw [if_pos hsame]
    have hboth : r.hasConditions = false ∧ p.logicalSource = m.logicalSource := by
      simpa using hsame
    refine proceeds_bind (proceeds_subjectMapOf hsubject) fun found _ _ hfound => ?_
    subst hfound
    refine (proceeds_evaluate _ _ _).mono fun result _ hresult error herror => ?_
    rw [hresult] at herror
    exact ⟨_, _, .parent hr hother hparent hboth.1 hboth.2 hsubject, herror⟩
  · rw [if_neg hsame]
    cases record.key? r.childReferences with
    | none => exact proceeds_pure fun _ _ => nofun
    | some key =>
        refine proceeds_bind (proceeds_indexFor hvalid hget hp _) fun index _ _ _ => ?_
        exact proceeds_pure fun _ _ => nofun

/-! ### Records -/

theorem proceeds_allObjectsAt (hvalid : e.graph.validate = .ok ())
    (hsite : e.Located start t position m site) {p : PredicateObjectMap}
    (hp : p ∈ m.predicateObjectMaps) (hexecutable : p.Executable e.graph) {maps : List ObjectMap}
    (hmaps : ∀ map ∈ maps, map ∈ p.objectMaps) :
    e.Proceeds start policy m t (e.allObjectsAt site maps) fun _ _ => True := by
  induction maps generalizing t with
  | nil => exact proceeds_pure fun _ _ => trivial
  | cons map maps ih =>
      have hmap : map ∈ p.objectMaps := hmaps map (by simp)
      have hfirst : e.Proceeds start policy m t (e.objectsAt site map) fun _ _ => True := by
        cases map with
        | term map => exact proceeds_termsAt hsite (.object hp hmap)
        | parent r =>
            have hmem : r ∈ p.parents := List.mem_filterMap.mpr ⟨.parent r, hmap, rfl⟩
            have hr : r ∈ m.parents := List.mem_flatMap.mpr ⟨p, hp, hmem⟩
            have hsame := hsite.triplesMap
            subst hsame
            have hresolve : e.Proceeds start policy site.triplesMap t
                (e.resolve r site.triplesMap site.record) fun result _ =>
                  ∀ error, result = .error error →
                    e.Fails position site.triplesMap site.record error :=
              proceeds_resolve hvalid hr (hexecutable.parents r hmem) site.record
            exact proceeds_bind hresolve fun result u htu hfails =>
              proceeds_survive (hsite.mono htu) hfails
      refine proceeds_bind hfirst fun _ u htu _ => ?_
      have hrest := ih (hsite.mono htu) fun other hother => hmaps other (by simp [hother])
      refine proceeds_bind hrest fun _ _ _ _ => ?_
      exact proceeds_pure fun _ _ => trivial

theorem proceeds_statementsAt (hvalid : e.graph.validate = .ok ())
    (hsite : e.Located start t position m site) (subjectMap : SubjectMap) (subjects : List Term)
    (graphs : List (Option Term)) {p : PredicateObjectMap} (hp : p ∈ m.predicateObjectMaps) :
    e.Proceeds start policy m t (e.statementsAt site subjectMap subjects graphs p)
      fun _ _ => True := by
  have hexecutable :=
    (RuleGraph.validate_eq_ok_iff.mp hvalid position m hsite.declared).statements p hp
  refine proceeds_bind (proceeds_allTermsAt hsite fun _ hmap => .predicate hp hmap) ?_
  intro predicates u htu _
  by_cases hpredicates : predicates.isEmpty
  · rw [if_pos hpredicates]
    exact proceeds_pure fun _ _ => trivial
  rw [if_neg hpredicates]
  refine proceeds_bind
    (proceeds_allObjectsAt hvalid (hsite.mono htu) hp hexecutable fun _ hmap => hmap) ?_
  intro objects v huv _
  by_cases hobjects : objects.isEmpty
  · rw [if_pos hobjects]
    exact proceeds_pure fun _ _ => trivial
  rw [if_neg hobjects]
  refine proceeds_bind (proceeds_addGraphsAt (hsite.mono (htu.trans huv)) graphs
    fun _ hmap => .graph hp hmap) fun all _ _ _ => ?_
  dsimp only
  split
  · exact proceeds_pure fun _ _ => trivial
  · exact proceeds_emit _

theorem proceeds_describe (hvalid : e.graph.validate = .ok ())
    (hsite : e.Located start t position m site) {subjectMap : SubjectMap}
    (hsubject : m.subjectMap = some subjectMap) (subjects : List Term) :
    e.Proceeds start policy m t (e.describe site subjectMap subjects) fun _ _ => True := by
  refine proceeds_bind
    (proceeds_addGraphsAt hsite [] fun _ hmap => .subjectGraph hsubject hmap) ?_
  intro graphs u htu _
  refine proceeds_bind (proceeds_emit _) fun _ v huv _ => ?_
  have hlater := hsite.mono (htu.trans huv)
  rw [hsite.triplesMap]
  exact proceeds_forM fun p hp w hvw =>
    proceeds_statementsAt hvalid (hlater.mono hvw) subjectMap subjects graphs hp

theorem proceeds_visitRecord (hvalid : e.graph.validate = .ok ())
    (hget : e.graph.triplesMaps[position]? = some m) {subjectMap : SubjectMap}
    (hsubject : m.subjectMap = some subjectMap) {n : Nat} {record : Record}
    (hrecord : e.Delivers start t m n (.ok record)) :
    e.Proceeds start policy m t
      (e.visitRecord policy m (blankScope position) subjectMap n record) fun _ _ => True := by
  refine proceeds_bind proceeds_countRecord fun _ u htu _ => ?_
  refine proceeds_bind (proceeds_evaluate _ _ _) fun result v huv hresult => ?_
  have hlater : e.Delivers start v m n (.ok record) := hrecord.mono (htu.trans huv)
  cases result with
  | error error =>
      have hfails : e.Fails position m record error := ⟨_, _, .subject hsubject, hresult.symm⟩
      have hnames : e.Names start v m.iri n (.function error) :=
        ⟨position, m, _, hget, rfl, hlater, .failing hfails⟩
      cases policy with
      | skipRecord =>
          refine proceeds_bind (proceeds_absorb ⟨n, error, rfl, rfl, hnames⟩) fun _ _ _ _ => ?_
          exact proceeds_countSkipped
      | abortTriplesMap => exact proceeds_throw fun w hvw => .subject rfl (hnames.mono hvw)
  | ok subjects =>
      cases subjects with
      | nil => exact proceeds_bind (proceeds_log _) fun _ _ _ _ => proceeds_countSkipped
      | cons subject subjects =>
          have hsite : e.Located start v position m ⟨m, blankScope position, n, record⟩ :=
            ⟨hget, rfl, rfl, hlater⟩
          exact proceeds_describe hvalid hsite hsubject _

/-! ### Triples maps -/

/-- Executing a triples map of a valid rule graph only adds what `Evolves` says, and fails for
a cause. -/
theorem proceeds_runTriplesMap (policy : SubjectErrorPolicy) (hvalid : e.graph.validate = .ok ())
    (hget : e.graph.triplesMaps[position]? = some m) :
    e.Proceeds start policy m t (e.runTriplesMap policy position m) fun _ _ => True := by
  have hexecutable := RuleGraph.validate_eq_ok_iff.mp hvalid position m hget
  obtain ⟨subjectMap, hsubject, -⟩ := hexecutable.subject
  refine proceeds_inSpan _ ?_
  refine proceeds_bind (proceeds_sourceOf hexecutable.source) fun source _ _ hsource => ?_
  refine proceeds_bind (proceeds_subjectMapOf hsubject) fun found _ _ hfound => ?_
  subst hfound
  refine proceeds_bind (proceeds_openSource (.inl rfl)) fun items u _ hopening => ?_
  have hdelivers := delivers_of_opened hsource hopening
  have hscan : e.Proceeds start policy m u
      (e.scan m.iri (fun _ => e.visitRecord policy m (blankScope position) found) 0 () items)
      fun _ _ => True :=
    proceeds_scan hget (.inl rfl)
      (fun _ n record v hrecord _ => proceeds_visitRecord hvalid hget hsubject hrecord)
      0 () hdelivers trivial
  refine proceeds_bind hscan fun _ _ _ _ => ?_
  exact proceeds_get_bind fun s _ _ => proceeds_log _

/-! ### Contributions -/

/-- The diagnostics that a triples map may leave in the report: those it noted, and the failure
for which it was given up. -/
inductive Reports (e : Engine) (start : Session) (c : Config) (m : TriplesMap) (t : Session) :
    Diagnostic → Prop
  | note {d : Diagnostic} (h : e.Notes start t d) : Reports e start c m t d
  | givenUp {failure : Failure} (hsurvives : c.survives failure.error = true)
      (hcause : e.Cause start c.subjectFunctionErrors m t failure) :
      Reports e start c m t ⟨m.iri, failure.record, failure.error⟩

theorem Reports.mono {c : Config} {d : Diagnostic} (h : e.Reports start c m t d)
    (htu : t.Before u) : e.Reports start c m u d := by
  cases h with
  | note h => exact .note (h.mono htu)
  | givenUp hsurvives hcause => exact .givenUp hsurvives (hcause.mono htu)

/-- What is noted after a clean slate is all new. -/
theorem Evolves.notes {s s' : RunState} (h : e.Evolves start s s')
    (hown : s.progress.diagnostics = #[]) (hparents : s.parentDiagnostics = #[]) :
    ∀ d ∈ s'.noted, e.Notes start s'.session d := by
  intro d hd
  rcases List.mem_append.mp hd with hd | hd
  · have hsplit := h.own d (Array.mem_toList_iff.mp hd)
    rw [hown] at hsplit
    simpa using hsplit
  · have hsplit := h.parents d (Array.mem_toList_iff.mp hd)
    rw [hparents] at hsplit
    simpa using hsplit

theorem contribution_proceeds (hvalid : e.graph.validate = .ok ())
    (hget : e.graph.triplesMaps[position]? = some m) (c : Config) {s : RunState}
    (hs : start.Before s.session) (hclear : s.parentDiagnostics = #[]) :
    match e.contribution c position m s with
    | .ok part s' => s.session.Before s'.session ∧ s'.parentDiagnostics = #[] ∧
        ∀ d ∈ part.diagnostics, e.Reports start c m s'.session d
    | .error failure s' => s.session.Before s'.session ∧ ¬ c.survives failure.error ∧
        e.Cause start c.subjectFunctionErrors m s'.session failure := by
  have hrun := proceeds_runTriplesMap c.subjectFunctionErrors hvalid hget
    { s with progress := {} } hs (.refl _)
  rw [contribution_eq]
  cases hresult : e.runTriplesMap c.subjectFunctionErrors position m { s with progress := {} } with
  | ok _ s₁ =>
      rw [hresult] at hrun
      have hnotes := hrun.1.notes rfl hclear
      exact ⟨hrun.1.session, rfl, fun d hd => .note (hnotes d hd)⟩
  | error failure s₁ =>
      rw [hresult] at hrun
      obtain ⟨hevolves, hcause⟩ := hrun
      have hnotes := hevolves.notes rfl hclear
      dsimp only
      by_cases hsurvives : c.survives failure.error
      · rw [if_pos hsurvives]
        refine ⟨hevolves.session, rfl, fun d hd => ?_⟩
        rcases List.mem_append.mp hd with hd | hd
        · exact .note (hnotes d hd)
        · rw [List.mem_singleton.mp hd]
          exact .givenUp hsurvives hcause
      · rw [if_neg hsurvives]
        exact ⟨hevolves.session, hsurvives, hcause⟩

/-- Triples maps report one after the other, until a failure is not survived. -/
theorem contributions_proceed (hvalid : e.graph.validate = .ok ()) (c : Config)
    {selected : List (Nat × TriplesMap)}
    (hselected : ∀ entry ∈ selected, e.graph.triplesMaps[entry.1]? = some entry.2)
    {s : RunState} (hs : start.Before s.session) (hclear : s.parentDiagnostics = #[]) :
    match e.contributions c selected s with
    | .ok parts s' => s.session.Before s'.session ∧ ∀ part ∈ parts, ∀ d ∈ part.diagnostics,
        ∃ entry ∈ selected, e.Reports start c entry.2 s'.session d
    | .error failure s' => ¬ c.survives failure.error ∧
        ∃ entry ∈ selected, e.Cause start c.subjectFunctionErrors entry.2 s'.session failure := by
  induction selected generalizing s with
  | nil => exact ⟨.refl _, by simp⟩
  | cons entry selected ih =>
      obtain ⟨position, m⟩ := entry
      have hfirst := contribution_proceeds hvalid (hselected (position, m) (by simp)) c hs hclear
      rw [contributions_cons_apply]
      cases hrun : e.contribution c position m s with
      | error failure s₁ =>
          rw [hrun] at hfirst
          exact ⟨hfirst.2.1, (position, m), by simp, hfirst.2.2⟩
      | ok first s₁ =>
          rw [hrun] at hfirst
          -- What was reported so far stays true of the sessions to come.
          obtain ⟨hbefore, hclear₁, hreports⟩ := hfirst
          have hrest := ih (fun other hother => hselected other (by simp [hother]))
            (hs.trans hbefore) hclear₁
          dsimp only
          cases hrun' : e.contributions c selected s₁ with
          | error failure s₂ =>
              rw [hrun'] at hrest
              obtain ⟨hsurvives, other, hother, hcause⟩ := hrest
              exact ⟨hsurvives, other, by simp [hother], hcause⟩
          | ok rest s₂ =>
              rw [hrun'] at hrest
              refine ⟨hbefore.trans hrest.1, fun part hpart d hd => ?_⟩
              rcases List.mem_cons.mp hpart with rfl | hpart
              · exact ⟨(position, m), by simp, (hreports d hd).mono hrest.1⟩
              · obtain ⟨other, hother, hreport⟩ := hrest.2 part hpart d hd
                exact ⟨other, by simp [hother], hreport⟩

end Engine

/-! ### Runs -/

/-- A run that set out reports what its triples maps do, or ends with a failure that one of
them did not survive. -/
theorem Executor.run_proceeds {x : Executor} {graph : RuleGraph} {filter : Option (List String)}
    {base : Option Iri} {positions : List Nat} (hbase : x.config.base = .ok base)
    (hvalid : graph.validate = .ok ()) (hselect : graph.select filter = .ok positions)
    (session : Session) :
    match (x.run graph filter session).result with
    | .ok execution => ∀ d ∈ execution.report.diagnostics, ∃ m ∈ graph.triplesMaps,
        (x.engine graph base).Reports session x.config m (x.run graph filter session).session d
    | .error error => ¬ x.config.survives error ∧ ∃ failure, failure.error = error ∧
        ∃ m ∈ graph.triplesMaps, (x.engine graph base).Cause session
          x.config.subjectFunctionErrors m (x.run graph filter session).session failure := by
  have hselected : ∀ entry ∈ graph.selected filter,
      graph.triplesMaps[entry.1]? = some entry.2 :=
    fun _ => RuleGraph.getElem?_of_mem_selected
  have hparts := Engine.contributions_proceed (e := x.engine graph base) hvalid x.config
    hselected (s := .atStart session (graph.selected filter)) (Session.Before.refl session) rfl
  rw [run_eq_of_prepare (prepare_eq_ok_iff.mpr ⟨base, positions, hbase, hvalid, hselect, rfl⟩)]
  cases hrun : (x.engine graph base).contributions x.config (graph.selected filter)
      (.atStart session (graph.selected filter)) with
  | ok parts s =>
      rw [hrun] at hparts
      intro d hd
      obtain ⟨part, hpart, hd⟩ := List.mem_flatMap.mp hd
      obtain ⟨entry, hentry, hreport⟩ := hparts.2 part hpart d hd
      exact ⟨entry.2, RuleGraph.mem_of_mem_selected hentry, hreport⟩
  | error failure s =>
      rw [hrun] at hparts
      obtain ⟨hsurvives, entry, hentry, hcause⟩ := hparts
      exact ⟨hsurvives, failure, rfl, entry.2, RuleGraph.mem_of_mem_selected hentry, hcause⟩

end RdfMapping
