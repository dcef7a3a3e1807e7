/-
How often sources are opened.

What a run opens can be read off its landmarks (`run_orderly`), so the openings of a source can be
counted there: it is opened for the triples maps that it belongs to and for the children of
these.  Without a source failure every selected triples map comes up once, and every parent that
some of them consults is scanned once, whatever the layouts that it is asked by.  That is
`indexes_built_once`.

With source failures there is one thing less to be said: a parent that could not be scanned is
scanned again for the next child (`scans_apart`).
-/
import RdfMapping.Proofs.Execution.Atomicity
import RdfMapping.Proofs.Execution.Reopening

namespace RdfMapping

/-! ### Openings by name -/

/-- Whether the triples map reads a source of the name. -/
def TriplesMap.reads (m : TriplesMap) (name : String) : Bool :=
  m.logicalSource.any (·.source == name)

/-- Whether the first triples map of an identity reads a source of the name. -/
def RuleGraph.reads (g : RuleGraph) (name iri : String) : Bool :=
  (g.sourceOf? iri).any (·.source == name)

theorem RuleGraph.reads_iri {g : RuleGraph} (hvalid : g.validate = .ok ()) {m : TriplesMap}
    (hm : m ∈ g.triplesMaps) (name : String) : g.reads name m.iri = m.reads name := by
  rw [reads, sourceOf?, get?_of_mem hvalid hm]
  rfl

/-- The triples maps over a source can be counted by their identities. -/
theorem RuleGraph.length_filter_reads (g : RuleGraph) (hvalid : g.validate = .ok ()) (name : String)
    {α : Type} (as : List α) (f : α → TriplesMap) (h : ∀ a ∈ as, f a ∈ g.triplesMaps) :
    ((as.map fun a => (f a).iri).filter (g.reads name)).length
      = (as.filter fun a => (f a).reads name).length := by
  rw [List.filter_map, List.length_map]
  refine congrArg List.length (List.filter_congr fun a ha => ?_)
  exact RuleGraph.reads_iri hvalid (h a ha) name

theorem RuleGraph.length_filter_sourceOf? (g : RuleGraph) (name iri : String) :
    ((g.sourceOf? iri).toList.filter (·.source == name)).length
      = if g.reads name iri then 1 else 0 := by
  unfold reads
  cases g.sourceOf? iri with
  | none => rfl
  | some source => by_cases h : (source.source == name) = true <;> simp [h]

/-- Sources are opened for the triples maps that they belong to and for the children of these. -/
theorem RuleGraph.length_openings (g : RuleGraph) (name : String) (ls : List Landmark) :
    ((g.openings ls).filter (·.source == name)).length
      = ((owns ls).filter (g.reads name)).length + ((scanned ls).filter (g.reads name)).length := by
  induction ls with
  | nil => rfl
  | cons l ls ih =>
      have hopened : g.openings (l :: ls) = (l.opened? g).toList ++ g.openings ls := by
        unfold openings
        rw [List.filterMap_cons]
        cases l.opened? g <;> rfl
      rw [hopened, List.filter_append, List.length_append, ih]
      cases l with
      | own iri =>
          have howns : owns (.own iri :: ls) = iri :: owns ls := rfl
          have hscanned : scanned (.own iri :: ls) = scanned ls := rfl
          have hone := g.length_filter_sourceOf? name iri
          rw [howns, hscanned, Landmark.opened?, hone, List.filter_cons]
          by_cases hreads : g.reads name iri = true
          · rw [if_pos hreads, if_pos hreads, List.length_cons]
            omega
          · rw [if_neg hreads, if_neg hreads]
            omega
      | scan child parent =>
          have howns : owns (.scan child parent :: ls) = owns ls := rfl
          have hscanned : scanned (.scan child parent :: ls) = parent :: scanned ls := rfl
          have hone := g.length_filter_sourceOf? name parent
          rw [howns, hscanned, Landmark.opened?, hone, List.filter_cons]
          by_cases hreads : g.reads name parent = true
          · rw [if_pos hreads, if_pos hreads, List.length_cons]
            omega
          · rw [if_neg hreads, if_neg hreads]
            omega
      | built parent => exact Nat.zero_add _
      | lost iri error => exact Nat.zero_add _

/-! ### Settled runs -/

/-- A run sets out settled. -/
theorem Engine.settled_atStart (e : Engine) (c : Config) (session : Session)
    (selected : List (Nat × TriplesMap)) :
    e.Settled c session [] (.atStart session selected) where
  opened := (List.append_nil _).symm
  apart := .nil
  covering := nofun
  owns := rfl
  built := by
    intro parent
    simp [RunState.landmarks, RunState.Indexed, RunState.atStart, TraceEntry.landmark?]
  indexed := nofun
  known := nofun
  scans := nofun

variable {e : Engine} {c : Config} {start : Session} {selected : List (Nat × TriplesMap)}
  {parts : List Contribution} {s s' : RunState}

/-- The end of a run is no landmark. -/
theorem RunState.landmarks_finished (s : RunState) (quads triplesMaps diagnostics : Nat) :
    (s.trace.push (.logged (.finished quads triplesMaps diagnostics) s.span)).toList.filterMap
      (·.landmark?) = s.landmarks :=
  (s.landmarks_push (.logged (.finished quads triplesMaps diagnostics) s.span)).trans
    (List.append_nil _)

namespace Engine

/-- Without a source failure no parent is scanned twice. -/
theorem Settled.nodup_scanned {done : List String} (h : e.Settled c start done s')
    (hpasses : e.Passes c start selected parts s s') (hnone : s.landmarks = [])
    (hclean : ∀ d ∈ parts.flatMap (·.diagnostics), d.error.isSource = false) :
    (scanned s'.landmarks).Nodup := by
  refine List.Pairwise.filterMap _ ?_ h.apart
  intro a b hapart parent ha other hb heq
  subst heq
  cases a with
  | scan child p =>
      cases b with
      | scan child' p' =>
          obtain rfl : p = parent := by simpa using ha
          obtain rfl : p' = p := by simpa using hb
          obtain ⟨-, -, record, fault, hlost⟩ := hapart.scan child child' p' rfl rfl
          rcases hpasses.losses _ _ hlost with hbefore | ⟨d, hd, herror⟩
          · rw [hnone] at hbefore
            cases hbefore
          · have hfalse := hclean d hd
            rw [herror] at hfalse
            cases hfalse
      | _ => cases hb
  | _ => cases ha

/-- The parents that are scanned are those that are consulted. -/
theorem Settled.mem_scanned_iff (h : e.Settled c start (selected.map (·.2.iri)) s')
    (hpasses : e.Passes c start selected parts s s')
    (hclean : ∀ d ∈ parts.flatMap (·.diagnostics), d.error.isSource = false) (parent : String) :
    parent ∈ scanned s'.landmarks ↔ ∃ entry ∈ selected,
      e.ConsultedIn c.subjectFunctionErrors start s'.landmarks entry parent := by
  constructor
  · intro hparent
    obtain ⟨child, hscan⟩ := mem_scanned.mp hparent
    obtain ⟨entry, hentry, rfl⟩ := List.mem_map.mp (h.scans child parent hscan).1
    exact ⟨entry, hentry, (hpasses.consults hclean entry hentry parent).2 hscan⟩
  · intro ⟨entry, hentry, hconsulted⟩
    exact h.indexed parent ((hpasses.consults hclean entry hentry parent).1 hconsulted)

end Engine

/-- The parents that a triples map consults if nothing was opened before. -/
def Engine.parentsOf (e : Engine) (policy : SubjectErrorPolicy) (entry : Nat × TriplesMap) :
    List String :=
  match entry.2.logicalSource.map (e.provider.openAfter []) with
  | some (.ok items) => e.consultedOver policy entry.1 entry.2 0 items
  | _ => []

theorem Engine.mem_parentsOf {policy : SubjectErrorPolicy} {entry : Nat × TriplesMap}
    {parent : String} : parent ∈ e.parentsOf policy entry ↔
      ∃ source items, entry.2.logicalSource = some source ∧
        e.provider.openAfter [] source = .ok items ∧
        parent ∈ e.consultedOver policy entry.1 entry.2 0 items := by
  unfold parentsOf
  cases entry.2.logicalSource with
  | none => simp
  | some source => cases h : e.provider.openAfter [] source <;> simp [h]

namespace Executor

variable (x : Executor) (graph : RuleGraph) (filter : Option (List String)) (session : Session)

/-- The triples maps of a run that sets out leave it settled, or in order if it fails. -/
theorem settled_contributions (base : Option Iri) (hvalid : graph.validate = .ok ()) :
    match (x.engine graph base).contributions x.config (graph.selected filter)
        (.atStart session (graph.selected filter)) with
    | .ok parts s =>
      (x.engine graph base).Settled x.config session ((graph.selected filter).map (·.2.iri)) s ∧
      (x.engine graph base).Passes x.config session (graph.selected filter) parts
        (.atStart session (graph.selected filter)) s
    | .error _ s => (x.engine graph base).Orderly x.config session s := by
  refine ((x.engine graph base).settled_atStart x.config session _).contributions hvalid ?_ ?_
  · exact fun _ hentry => RuleGraph.mem_of_mem_selected hentry
  · rw [List.nil_append, RuleGraph.map_iri_selected]
    exact (RuleGraph.nodup_iris hvalid).filter _

/-- Every run is in order, whether it succeeds or not. -/
theorem run_orderly :
    (x.run graph filter session).session.opened
        = session.opened ++ graph.openings (x.run graph filter session).landmarks ∧
      (x.run graph filter session).landmarks.Pairwise
        (Landmark.Apart x.config (x.run graph filter session).landmarks) := by
  cases hprepare : x.prepare graph filter with
  | error error =>
      rw [run_eq_of_prepare_eq_error hprepare]
      exact ⟨(List.append_nil _).symm, .nil⟩
  | ok prepared =>
      obtain ⟨base, positions, -, hvalid, -, rfl⟩ := prepare_eq_ok_iff.mp hprepare
      have hsettled := x.settled_contributions graph filter session base hvalid
      rw [run_eq_of_prepare hprepare]
      cases hrun : (x.engine graph base).contributions x.config (graph.selected filter)
          (.atStart session (graph.selected filter)) with
      | error failure s =>
          rw [hrun] at hsettled
          exact ⟨hsettled.opened, hsettled.apart⟩
      | ok parts s =>
          rw [hrun] at hsettled
          dsimp only [Outcome.landmarks]
          rw [RunState.landmarks_finished]
          exact ⟨hsettled.1.opened, hsettled.1.apart⟩

/-- A selected triples map consults the parent when its turn comes in the run. -/
def Consulted (parent : String) : Prop :=
  ∃ base, x.config.base = .ok base ∧ ∃ entry ∈ graph.selected filter,
    (x.engine graph base).ConsultedIn x.config.subjectFunctionErrors session
      (x.run graph filter session).landmarks entry parent

variable {x graph filter session}

/-- A run without a source failure opens the sources of what is selected, and it scans what is
consulted. -/
theorem openings_of_clean_run {execution : Execution}
    (h : (x.run graph filter session).result = .ok execution)
    (hclean : ∀ d ∈ execution.report.diagnostics, d.error.isSource = false) :
    graph.validate = .ok () ∧
      owns (x.run graph filter session).landmarks = (graph.selected filter).map (·.2.iri) ∧
      (scanned (x.run graph filter session).landmarks).Nodup ∧
      ∀ parent, (parent ∈ scanned (x.run graph filter session).landmarks →
          (graph.get? parent).isSome = true) ∧
        (parent ∈ scanned (x.run graph filter session).landmarks ↔
          x.Consulted graph filter session parent) := by
  obtain ⟨engine, selected, parts, s, hprepare, hrun, rfl⟩ := exists_contributions_of_run h
  obtain ⟨base, positions, hbase, hvalid, -, hprepared⟩ := prepare_eq_ok_iff.mp hprepare
  obtain ⟨rfl, rfl⟩ := Prod.mk.inj hprepared
  have hsettled := x.settled_contributions graph filter session base hvalid
  have hlandmarks : (x.run graph filter session).landmarks = s.landmarks := by
    rw [run_eq_of_prepare hprepare, hrun]
    exact s.landmarks_finished _ _ _
  rw [hrun] at hsettled
  obtain ⟨hsettled, hpasses⟩ := hsettled
  rw [hlandmarks]
  refine ⟨hvalid, hsettled.owns, hsettled.nodup_scanned hpasses rfl hclean, fun parent => ?_⟩
  refine ⟨hsettled.known parent, ?_⟩
  rw [hsettled.mem_scanned_iff hpasses hclean, ← hlandmarks]
  constructor
  · intro hconsulted
    exact ⟨base, hbase, hconsulted⟩
  · intro ⟨base', hbase', hconsulted⟩
    obtain rfl : base = base' := Except.ok.inj (hbase.symm.trans hbase')
    exact hconsulted

/--
**Every use of a source opens it once.**  What a run opens is what its landmarks speak of, and
once the index of a parent is there no scan of the parent follows.  So a run without a source
failure opens a source once for each selected triples map over it and once for each parent over
it that is consulted.
-/
theorem indexes_built_once (x : Executor) (graph : RuleGraph) (filter : Option (List String))
    (session : Session) :
    (x.run graph filter session).session.opened
        = session.opened ++ graph.openings (x.run graph filter session).landmarks ∧
      (x.run graph filter session).landmarks.Pairwise (fun earlier later =>
        ∀ child parent, earlier = .built parent → later ≠ .scan child parent) ∧
      ∀ execution, (x.run graph filter session).result = .ok execution →
        (∀ d ∈ execution.report.diagnostics, d.error.isSource = false) →
        ∃ parents : List TriplesMap, parents.Nodup ∧
          (∀ m, m ∈ parents ↔
            m ∈ graph.triplesMaps ∧ x.Consulted graph filter session m.iri) ∧
          ∀ name, (x.run graph filter session).session.openCount name
            = session.openCount name
              + ((graph.selected filter).filter (·.2.reads name)).length
              + (parents.filter (·.reads name)).length := by
  obtain ⟨hopened, hapart⟩ := x.run_orderly graph filter session
  refine ⟨hopened, hapart.imp fun h => h.built, fun execution h hclean => ?_⟩
  obtain ⟨hvalid, howns, hnodup, hscanned⟩ := openings_of_clean_run h hclean
  have hdistinct := RuleGraph.nodup_iris hvalid
  let ls := (x.run graph filter session).landmarks
  let parents := graph.triplesMaps.filter fun m => decide (m.iri ∈ scanned ls)
  have hmem : ∀ m, m ∈ parents ↔ m ∈ graph.triplesMaps ∧ m.iri ∈ scanned ls := by
    intro m
    rw [List.mem_filter, decide_eq_true_iff]
  have hperm : (parents.map (·.iri)).Perm (scanned ls) := by
    have hsub : (parents.map (·.iri)).Nodup := hdistinct.sublist (List.filter_sublist.map _)
    refine (List.perm_ext_iff_of_nodup hsub hnodup).mpr fun iri => ?_
    constructor
    · intro hiri
      obtain ⟨m, hm, rfl⟩ := List.mem_map.mp hiri
      exact ((hmem m).mp hm).2
    · intro hiri
      obtain ⟨_, m, -, hget, -, rfl⟩ :=
        RuleGraph.exists_position_of_isSome ((hscanned iri).1 hiri)
      exact List.mem_map_of_mem ((hmem m).mpr ⟨List.mem_of_find?_eq_some hget, hiri⟩)
  refine ⟨parents, hdistinct.of_map.filter _, fun m => ?_, fun name => ?_⟩
  · rw [hmem, (hscanned m.iri).2]
  · have hown := graph.length_filter_reads hvalid name (graph.selected filter) (·.2)
      fun _ hentry => RuleGraph.mem_of_mem_selected hentry
    have hparents := graph.length_filter_reads hvalid name parents id fun m hm => ((hmem m).mp hm).1
    unfold Session.openCount
    rw [hopened, List.filter_append, List.length_append, RuleGraph.length_openings, howns, hown,
      ← (hperm.filter _).length_eq]
    rw [← Nat.add_assoc]
    exact congrArg _ hparents

/-- Where sources always give the same, what is consulted does not depend on the run. -/
theorem Ready.consulted_iff {base : Option Iri} (h : x.Ready graph base)
    (filter : Option (List String)) (session : Session) (parent : String) :
    x.Consulted graph filter session parent ↔
      parent ∈ (graph.selected filter).flatMap
        ((x.engine graph base).parentsOf x.config.subjectFunctionErrors) := by
  have hopen : ∀ entry ∈ graph.selected filter, ∀ source, entry.2.logicalSource = some source →
      ∀ opened, x.provider.openAfter opened source = x.provider.openAfter [] source :=
    fun entry hentry => h.reopens entry.2 (RuleGraph.mem_of_mem_selected hentry)
  rw [List.mem_flatMap]
  constructor
  · intro ⟨base', hbase', entry, hentry, source, items, hsource, hitems, hparent⟩
    obtain rfl : base = base' := Except.ok.inj (h.based.symm.trans hbase')
    have hfirst := (hopen entry hentry source hsource _).symm.trans hitems
    refine ⟨entry, hentry, ?_⟩
    rw [Engine.mem_parentsOf]
    exact ⟨source, items, hsource, hfirst, hparent⟩
  · intro ⟨entry, hentry, hparent⟩
    obtain ⟨source, items, hsource, hitems, hparent⟩ := Engine.mem_parentsOf.mp hparent
    refine ⟨base, h.based, entry, hentry, source, items, hsource, ?_, hparent⟩
    exact (hopen entry hentry source hsource _).trans hitems

/-! ### A school -/

/-- Pupils and teachers, and rooms, which may be locked. -/
def school (faults : List Fault) : Executor where
  provider := FaultySources.provider
    { sources := ⟨[("pupils", [.ofPairs [("name", "ann"), ("room", "1")],
          .ofPairs [("name", "ben"), ("room", "2")]]),
        ("teachers", [.ofPairs [("name", "eve"), ("room", "1")]]),
        ("rooms", [.ofPairs [("no", "1")], .ofPairs [("no", "2")]])]⟩
      faults := faults }
  config := { sourceErrors := .skipTriplesMap }

/-- Pupils and teachers are in rooms. -/
def schoolRules : RuleGraph := ⟨
  [("ex:Pupil", "pupils"), ("ex:Teacher", "teachers")].map (fun (iri, source) =>
    { iri := iri, logicalSource := some ⟨source, .csv, none, none⟩
      subjectMap := some { termMap := (TermMap.reference "name").asBlankNode }
      predicateObjectMaps := [.constant "ex:in" (.parent (.single "ex:Room" "room" "no"))] }) ++
  [{ iri := "ex:Room", logicalSource := some ⟨"rooms", .csv, none, none⟩
     subjectMap := some { termMap := (TermMap.reference "no").asBlankNode } }]⟩

theorem school_ready (faults : List Fault) : (school faults).Ready schoolRules none where
  based := rfl
  valid := by decide
  reopens := fun _ _ _ _ _ => rfl
  silent := fun _ _ => rfl

/-- Pupils and teachers look for their rooms, the rooms for nothing. -/
theorem school_consulted (iri : String) :
    (school []).Consulted schoolRules none {} iri ↔ iri = "ex:Room" := by
  have hparents : (schoolRules.selected none).flatMap
      (((school []).engine schoolRules none).parentsOf .skipRecord)
        = ["ex:Room", "ex:Room", "ex:Room"] := by decide +kernel
  rw [(school_ready []).consulted_iff]
  show iri ∈ (schoolRules.selected none).flatMap
      (((school []).engine schoolRules none).parentsOf .skipRecord) ↔ _
  rw [hparents]
  simp

/-- The rooms are opened for themselves, and once for the pupils and the teachers. -/
theorem school_indexes_built_once :
    ∃ execution, ((school []).run schoolRules none {}).result = .ok execution ∧
      execution.report.sourceFailures = [] ∧
      ((school []).run schoolRules none {}).session.openCount "rooms" = 2 := by
  have hselect : schoolRules.select none = .ok [0, 1, 2] := by decide
  have hcalm : (school []).cancellable = true → ({} : Session).cancelled = false := fun _ => rfl
  obtain ⟨execution, hrun, -, hlosses⟩ := (school_ready []).exists_skipping hselect hcalm
  have hfailures : execution.report.sourceFailures = [] := by
    rw [hlosses]
    decide +kernel
  refine ⟨execution, hrun, hfailures, ?_⟩
  have hclean : ∀ d ∈ execution.report.diagnostics, d.error.isSource = false := by
    intro d hd
    simpa using List.filter_eq_nil_iff.mp hfailures d hd
  obtain ⟨parents, hnodup, hparents, hopens⟩ :=
    (indexes_built_once (school []) schoolRules none {}).2.2 execution hrun hclean
  have hrooms : parents.Perm (schoolRules.triplesMaps.filter (·.iri == "ex:Room")) := by
    have hdistinct := (RuleGraph.nodup_iris (school_ready []).valid).of_map
    refine (List.perm_ext_iff_of_nodup hnodup (hdistinct.filter _)).mpr fun m => ?_
    rw [hparents, school_consulted, List.mem_filter, beq_iff_eq]
  have hown : ((schoolRules.selected none).filter (·.2.reads "rooms")).length = 1 := by decide
  have hscanned : (parents.filter (·.reads "rooms")).length = 1 := by
    rw [(hrooms.filter _).length_eq]
    decide
  rw [hopens, hown, hscanned]
  rfl

/-! ### Failed scans -/

/--
**A parent is scanned twice only if the first scan cost its child.**  The second scan is then for
another child, and it can only come if the run goes on after failures of sources.
-/
theorem scans_apart (x : Executor) (graph : RuleGraph) (filter : Option (List String))
    (session : Session) :
    (x.run graph filter session).landmarks.Pairwise fun earlier later =>
      ∀ child other parent, earlier = .scan child parent → later = .scan other parent →
        child ≠ other ∧ x.config.sourceErrors = .skipTriplesMap ∧
          ∃ record fault,
            .lost child (.source parent record fault) ∈ (x.run graph filter session).landmarks :=
  (x.run_orderly graph filter session).2.imp fun h => h.scan

/-- The rooms are locked when the pupils are looked for, and they are tried again for the
teachers. -/
theorem lockedSchool_scans_again :
    ((school [⟨"rooms", .read "locked", none⟩]).run schoolRules
        (some ["ex:Pupil", "ex:Teacher"]) {}).landmarks
      = [.own "ex:Pupil", .scan "ex:Pupil" "ex:Room",
          .lost "ex:Pupil" (.source "ex:Room" none (.read "locked")),
          .own "ex:Teacher", .scan "ex:Teacher" "ex:Room",
          .lost "ex:Teacher" (.source "ex:Room" none (.read "locked"))] ∧
    ((school [⟨"rooms", .read "locked", none⟩]).run schoolRules
        (some ["ex:Pupil", "ex:Teacher"]) {}).session.openCount "rooms" = 2 := by
  decide +kernel

end Executor

end RdfMapping
