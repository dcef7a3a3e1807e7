/-
What a run can see of its records.

Rules mention references: a term map names one, has them as the placeholders of its template, or
leaves them to the term maps of its parameters, and a reference to a parent names those that have
to agree.  `RuleGraph.references` are all of these, those of triples maps that are not selected
included, since an index is built for whatever any child may ask of the parent.

Nothing else of a record has any influence.  Two providers that fail alike and otherwise give
records that agree on what is mentioned are providers of twins, so by `Twins.contributions` the
two runs end in the same way and leave the same behind.  `unmentioned_without_influence` says so
for any configuration, rule graph and filter, and with the trace as well: what is not mentioned is
not logged either.
-/
import RdfMapping.Function.Standard
import RdfMapping.Proofs.Execution.Identity
import RdfMapping.Proofs.Execution.Twins
import RdfMapping.Proofs.Quad.Reached
import RdfMapping.Source.Memory

namespace RdfMapping

/-! ### References that are mentioned -/

mutual

/-- The references that the values of a term map come from. -/
def TermMap.references : TermMap → List String
  | ⟨.constant _, _, _, _⟩ => []
  | ⟨.reference name, _, _, _⟩ => [name]
  | ⟨.template t, _, _, _⟩ => t.references
  | ⟨.function ⟨_, parameters⟩, _, _, _⟩ => Parameter.allReferences parameters

/-- The references that the values of some parameters come from. -/
def Parameter.allReferences : List Parameter → List String
  | [] => []
  | ⟨_, value, _⟩ :: rest => value.references ++ Parameter.allReferences rest

end

/-- The references that must agree between records, the child's and the parent's. -/
def RefObjectMap.references (r : RefObjectMap) : List String :=
  r.childReferences ++ r.parentReferences

/-- The references that a triples map mentions. -/
def TriplesMap.references (m : TriplesMap) : List String :=
  m.termMaps.flatMap (·.references) ++ m.parents.flatMap (·.references)

/-- The references that a rule graph mentions. -/
def RuleGraph.references (g : RuleGraph) : List String := g.triplesMaps.flatMap (·.references)

theorem RuleGraph.mem_references_of_termMap {g : RuleGraph} {m : TriplesMap}
    (hm : m ∈ g.triplesMaps) {map : TermMap} (hmap : map ∈ m.termMaps) {name : String}
    (h : name ∈ map.references) : name ∈ g.references :=
  List.mem_flatMap.mpr ⟨m, hm, List.mem_append_left _ (List.mem_flatMap.mpr ⟨map, hmap, h⟩)⟩

theorem RuleGraph.mem_references_of_parent {g : RuleGraph} {m : TriplesMap}
    (hm : m ∈ g.triplesMaps) {r : RefObjectMap} (hr : r ∈ m.parents) {name : String}
    (h : name ∈ r.references) : name ∈ g.references :=
  List.mem_flatMap.mpr ⟨m, hm, List.mem_append_right _ (List.mem_flatMap.mpr ⟨r, hr, h⟩)⟩

/-! ### Records that agree -/

/-- The records have the same values for some references. -/
def Record.AgreeOn (names : List String) (r r' : Record) : Prop :=
  ∀ name ∈ names, r'.get name = r.get name

variable {r r' : Record}

theorem Record.AgreeOn.mono {names fewer : List String} (h : Record.AgreeOn names r r')
    (hfewer : ∀ name ∈ fewer, name ∈ names) : Record.AgreeOn fewer r r' :=
  fun name hname => h name (hfewer name hname)

theorem Segment.expand_congr {values values' : String → List String} {segments : List Segment}
    (h : ∀ name ∈ segments.filterMap Segment.reference?, values' name = values name) :
    Segment.expand values' segments = Segment.expand values segments := by
  induction segments with
  | nil => rfl
  | cons segment rest ih =>
      cases segment with
      | text chars =>
          have hrest := ih fun name hname => h name (by simpa [reference?] using hname)
          rw [expand_text, expand_text, hrest]
      | reference name =>
          have hfirst := h name (by simp [reference?])
          have hrest := ih fun other hother => h other (by simp [reference?, hother])
          rw [expand_reference, expand_reference, hfirst, hrest]

/-- A template yields the same for records that agree on its references. -/
theorem Template.expand_congr {t : Template} (h : Record.AgreeOn t.references r r')
    (encoded : Bool) : t.expand r' encoded = t.expand r encoded := by
  refine Segment.expand_congr fun name hname => ?_
  rw [h name hname]

/-- Records that agree on the references of a layout have the same key. -/
theorem Record.key?_congr {layout : List String} (h : Record.AgreeOn layout r r') :
    r'.key? layout = r.key? layout := by
  induction layout with
  | nil => rfl
  | cons name rest ih =>
      have hfirst := h name (by simp)
      have hrest := ih (h.mono fun other hother => by simp [hother])
      unfold Record.key?
      rw [hfirst, hrest]

namespace Generator

variable (g : Generator) (scope : String)

mutual

/-- A term map makes the same, and the same is noted, of records that agree on its references. -/
theorem generate_congr :
    ∀ m : TermMap, Record.AgreeOn m.references r r' → g.generate r' scope m = g.generate r scope m
  | ⟨.constant _, _, _, _⟩, _ => by rw [generate, generate]
  | ⟨.reference name, _, _, _⟩, h => by
    rw [generate, generate, h name (by simp [TermMap.references])]
  | ⟨.template t, _, _, _⟩, h => by
    rw [TermMap.references] at h
    rw [generate, generate, Template.expand_congr h]
  | ⟨.function ⟨id, parameters⟩, _, _, _⟩, h => by
    rw [TermMap.references] at h
    rw [generate, generate, inputs_congr parameters h]

/-- So do the parameters of a call. -/
theorem inputs_congr :
    ∀ parameters : List Parameter, Record.AgreeOn (Parameter.allReferences parameters) r r' →
      g.inputs r' scope parameters = g.inputs r scope parameters
  | [], _ => by rw [inputs, inputs]
  | ⟨name, value, required⟩ :: rest, h => by
    rw [Parameter.allReferences] at h
    have hvalue := generate_congr value (h.mono fun _ hname => by simp [hname])
    have hrest := inputs_congr rest (h.mono fun _ hname => by simp [hname])
    rw [inputs, inputs, hvalue, hrest]

end

theorem evaluate_congr {m : TermMap} (h : Record.AgreeOn m.references r r') :
    g.evaluate m r' scope = g.evaluate m r scope := by
  unfold evaluate
  rw [g.generate_congr scope m h]

end Generator

/-! ### Providers that agree -/

/-- What two providers give for the sources of a rule graph differs at most in what is not
mentioned there: whatever has been opened, both fail to open a source in the same way, or both
give items that fail to be read in the same way or are records that agree. -/
def Provider.AgreeFor (p p' : Provider) (graph : RuleGraph) : Prop :=
  ∀ m ∈ graph.triplesMaps, ∀ source, m.logicalSource = some source → ∀ opened,
    ExceptAlike (List.Forall₂ (ExceptAlike (Record.AgreeOn graph.references)))
      (p.openAfter opened source) (p'.openAfter opened source)

/-- The sessions are the same as far as a run can tell: the same was opened, and a signal that is
heeded is up in both or in neither, after as many items. -/
def Session.SeenAlike (heeded : Bool) (t t' : Session) : Prop :=
  t'.opened = t.opened ∧
    (heeded = true → t'.yielded = t.yielded ∧ t'.cancelled = t.cancelled)

namespace Executor

/-- The executor with another provider. -/
def withProvider (x : Executor) (provider : Provider) : Executor := { x with provider }

/-- Nothing that is checked before anything is read has to do with the provider. -/
theorem prepare_withProvider (x : Executor) (provider : Provider) (graph : RuleGraph)
    (filter : Option (List String)) :
    (x.withProvider provider).prepare graph filter
      = (x.prepare graph filter).map
        fun prepared => ({ prepared.1 with provider }, prepared.2) := by
  cases hprepare : x.prepare graph filter with
  | error error =>
      have hcauses := prepare_eq_error_iff.mp hprepare
      exact prepare_eq_error_iff.mpr hcauses
  | ok prepared =>
      obtain ⟨base, positions, hbase, hvalid, hselect, rfl⟩ := prepare_eq_ok_iff.mp hprepare
      exact prepare_eq_ok_iff.mpr ⟨base, positions, hbase, hvalid, hselect, rfl⟩

/-- Engines whose providers agree are twins. -/
theorem twins_withProvider (x : Executor) (provider : Provider) (graph : RuleGraph)
    (base : Option Iri) (hagree : x.provider.AgreeFor provider graph)
    (hcancels : x.cancellable = true → ∀ n, provider.cancelsAt n = x.provider.cancelsAt n) :
    Engine.Twins (x.engine graph base) ((x.withProvider provider).engine graph base)
      (Session.SeenAlike x.cancellable) (Record.AgreeOn graph.references) where
  graph := rfl
  terms := by
    intro m hm map hmap r r' hr scope
    refine Generator.evaluate_congr _ scope (hr.mono fun name hname => ?_)
    exact RuleGraph.mem_references_of_termMap hm hmap hname
  keys := by
    intro m hm p hp r r' hr
    have hmentioned : ∀ name ∈ p.references, name ∈ graph.references := fun name hname =>
      RuleGraph.mem_references_of_parent hm hp hname
    have hboth : Record.AgreeOn p.references r r' := hr.mono hmentioned
    refine ⟨Record.key?_congr (hboth.mono fun name hname => ?_),
      Record.key?_congr (hboth.mono fun name hname => ?_)⟩
    · exact List.mem_append_left _ hname
    · exact List.mem_append_right _ hname
  opens := by
    intro m hm source hsource t t' ht
    refine ⟨?_, ?_, ht.2⟩
    · rw [ht.1]
      exact hagree m hm source hsource t.opened
    · show t'.opened ++ [source] = t.opened ++ [source]
      rw [ht.1]
  receives := by
    intro t t' ht
    refine ⟨ht.1, fun hheeded => ?_⟩
    obtain ⟨hyielded, hcancelled⟩ := ht.2 hheeded
    refine ⟨?_, ?_⟩
    · show t'.yielded + 1 = t.yielded + 1
      rw [hyielded]
    · show (t'.cancelled || provider.cancelsAt (t'.yielded + 1))
        = (t.cancelled || x.provider.cancelsAt (t.yielded + 1))
      rw [hyielded, hcancelled, hcancels hheeded]
  signal := by
    intro t t' ht
    show (x.cancellable && t'.cancelled) = (x.cancellable && t.cancelled)
    by_cases hheeded : x.cancellable = true
    · rw [(ht.2 hheeded).2]
    · simp [hheeded]

/-! ### Runs -/

/-- Two runs that set out with triples maps that stay together end alike. -/
theorem run_eq_of_together {x y : Executor} {graph : RuleGraph} {filter : Option (List String)}
    {e e' : Engine} {selected : List (Nat × TriplesMap)} {R : Session → Session → Prop}
    {session : Session} (hx : x.prepare graph filter = .ok (e, selected))
    (hy : y.prepare graph filter = .ok (e', selected)) (hconfig : y.config = x.config)
    (htogether : Step.Together R Eq (e.contributions x.config selected)
      (e'.contributions x.config selected))
    (hsession : R session session) :
    (y.run graph filter session).result = (x.run graph filter session).result ∧
      R (x.run graph filter session).session (y.run graph filter session).session ∧
      (y.run graph filter session).trace = (x.run graph filter session).trace := by
  have hstart : (RunState.atStart session selected).Alike R (.atStart session selected) :=
    ⟨hsession, rfl⟩
  have hmeets := htogether _ _ hstart
  rw [run_eq_of_prepare hx, run_eq_of_prepare hy, hconfig]
  revert hmeets
  generalize e.contributions x.config selected (.atStart session selected) = r
  generalize e'.contributions x.config selected (.atStart session selected) = r'
  intro hmeets
  cases hmeets with
  | ok hparts hs =>
      subst hparts
      rw [hs.rest]
      exact ⟨rfl, hs.session, rfl⟩
  | error failure hs =>
      rw [hs.rest]
      exact ⟨rfl, hs.session, rfl⟩

/--
**What rules do not mention has no influence.**  If two providers fail alike and their records
agree on every reference that the rule graph mentions, two runs end with the same error, or with
the same quads, counts and diagnostics.  They open the same sources and leave the same trace.
-/
theorem unmentioned_without_influence (x : Executor) (provider : Provider) (graph : RuleGraph)
    (filter : Option (List String)) (session : Session)
    (hagree : x.provider.AgreeFor provider graph)
    (hcancels : x.cancellable = true → ∀ n, provider.cancelsAt n = x.provider.cancelsAt n) :
    ((x.withProvider provider).run graph filter session).result
        = (x.run graph filter session).result ∧
      ((x.withProvider provider).run graph filter session).session.opened
        = (x.run graph filter session).session.opened ∧
      ((x.withProvider provider).run graph filter session).trace
        = (x.run graph filter session).trace := by
  have hother := x.prepare_withProvider provider graph filter
  cases hprepare : x.prepare graph filter with
  | error error =>
      rw [hprepare] at hother
      rw [run_eq_of_prepare_eq_error hprepare, run_eq_of_prepare_eq_error hother]
      exact ⟨rfl, rfl, rfl⟩
  | ok prepared =>
      obtain ⟨base, positions, -, -, -, rfl⟩ := prepare_eq_ok_iff.mp hprepare
      rw [hprepare] at hother
      have hselected : ∀ entry ∈ graph.selected filter,
          entry.2 ∈ (x.engine graph base).graph.triplesMaps :=
        fun _ hentry => RuleGraph.mem_of_mem_selected hentry
      have htogether : Step.Together (Session.SeenAlike x.cancellable) Eq
          ((x.engine graph base).contributions x.config (graph.selected filter))
          (((x.withProvider provider).engine graph base).contributions x.config
            (graph.selected filter)) :=
        (x.twins_withProvider provider graph base hagree hcancels).contributions rfl rfl hselected
      have hsession : Session.SeenAlike x.cancellable session session :=
        ⟨rfl, fun _ => ⟨rfl, rfl⟩⟩
      obtain ⟨hresult, ⟨hopened, -⟩, htrace⟩ :=
        run_eq_of_together hprepare hother rfl htogether hsession
      exact ⟨hresult, hopened, htrace⟩

/-! ### A clinic -/

/-- A patient with a remark, a ward with a colour, and an archive that breaks off. -/
def clinicData (remark colour : String) : Provider := FaultySources.provider
  { sources := ⟨[
      ("patients",
        [.ofPairs [("id", "7"), ("first", "Ada"), ("last", "Byron"), ("ward", "w"),
          ("remark", remark)]]),
      ("wards", [.ofPairs [("no", "w"), ("name", "west"), ("colour", colour)]]),
      ("archive", [.ofPairs [("id", "3"), ("remark", remark)]])]⟩
    faults := [⟨"archive", .read "eof", some 1⟩] }

/-- The clinic on a good day, with triples maps given up where the data breaks off. -/
def clinic : Executor where
  provider := clinicData "well" "blue"
  functions := Registry.insert {} "ex:join" (StandardFunction.concat.register false)
  config := { sourceErrors := .skipTriplesMap }

/-- Terms with an identity in them. -/
def clinicTemplate : Template := ⟨"p\x7bid\x7d", [.text "p", .reference "id"], rfl⟩

/-- Patients have a name in one word and lie in a ward; remarks and colours are not mentioned. -/
def clinicRules : RuleGraph := ⟨
  [{ iri := "ex:Patient", logicalSource := some ⟨"patients", .csv, none, none⟩
     subjectMap := some { termMap := (TermMap.ofSource (.template clinicTemplate)).asBlankNode }
     predicateObjectMaps := [
       .constant "ex:name" (.function (((FunctionCall.ofFunction "ex:join").withParameter "a"
         (TermMap.reference "first").asLiteral).withParameter "b"
         (TermMap.reference "last").asLiteral)),
       .constant "ex:in" (.parent (.single "ex:Ward" "ward" "no"))] },
   { iri := "ex:Ward", logicalSource := some ⟨"wards", .csv, none, none⟩
     subjectMap := some { termMap := (TermMap.reference "name").asBlankNode } },
   { iri := "ex:Former", logicalSource := some ⟨"archive", .csv, none, none⟩
     subjectMap := some
       { termMap := (TermMap.ofSource (.template clinicTemplate)).asBlankNode
         classes := ["ex:Old"] } }]⟩

theorem clinic_ready : clinic.Ready clinicRules none where
  based := rfl
  valid := by decide +kernel
  reopens := fun _ _ _ _ _ => rfl
  silent := fun _ _ => rfl

/-- Whatever the remarks and the colours, what the rules mention is the same. -/
theorem clinicData_agreeFor (remark colour remark' colour' : String) :
    (clinicData remark colour).AgreeFor (clinicData remark' colour') clinicRules := by
  have hmentioned : clinicRules.references
      = ["id", "first", "last", "ward", "no", "name", "id"] := by
    decide +kernel
  intro m hm source hsource opened
  simp only [clinicRules, List.mem_cons, List.not_mem_nil, or_false] at hm
  rcases hm with rfl | rfl | rfl <;> cases hsource
  · refine .ok (.cons (.ok ?_) .nil)
    simp [Record.AgreeOn, hmentioned, ValueMap.ofPairs, ValueMap.push, ValueMap.get_append]
  · refine .ok (.cons (.ok ?_) .nil)
    simp [Record.AgreeOn, hmentioned, ValueMap.ofPairs, ValueMap.push, ValueMap.get_append]
  · refine .ok (.cons (.ok ?_) (.cons (.error _) .nil))
    simp [Record.AgreeOn, hmentioned, ValueMap.ofPairs, ValueMap.push, ValueMap.get_append]

/-- The patient on record, and what the archive had of another one is given up. -/
def clinicQuads : List Quad :=
  [⟨.blank "tm0-p7", .iri "ex:name", .string "AdaByron", none⟩,
    ⟨.blank "tm0-p7", .iri "ex:in", .blank "tm1-west", none⟩]

theorem clinic_without_influence :
    ∃ execution,
      (clinic.run clinicRules (some ["ex:Patient", "ex:Former"]) {}).result = .ok execution ∧
      ((clinic.withProvider (clinicData "ill" "red")).run clinicRules
        (some ["ex:Patient", "ex:Former"]) {}).result = .ok execution ∧
      execution.store.toList = clinicQuads := by
  have hparts : (clinic.engine clinicRules none).partsOf clinic.config
        (clinicRules.selected (some ["ex:Patient", "ex:Former"]))
      = .ok [(clinicQuads, ⟨"ex:Patient", 1, 0, 2, .completed⟩),
          ([], ⟨"ex:Former", 1, 0, 1, .skipped⟩)] := by
    decide +kernel
  have hselect : clinicRules.select (some ["ex:Patient", "ex:Former"]) = .ok [0, 2] := by
    decide +kernel
  have hcontent : (clinic.run clinicRules (some ["ex:Patient", "ex:Former"]) {}).result.map
      Execution.content = _ := clinic_ready.run_eq hselect fun _ => rfl
  rw [hparts] at hcontent
  obtain ⟨execution, hrun, hcontent⟩ := map_eq_ok_iff.mp hcontent
  obtain ⟨hsame, -, -⟩ := unmentioned_without_influence clinic (clinicData "ill" "red") clinicRules
    (some ["ex:Patient", "ex:Former"]) {} (clinicData_agreeFor _ _ _ _) fun _ _ => rfl
  refine ⟨execution, hrun, hsame.trans hrun, ?_⟩
  have hstored : execution.store.toList = distinct clinicQuads := congrArg Prod.fst hcontent
  rw [hstored, distinct_eq_eraseDupsBy_render]
  decide +kernel

end Executor

end RdfMapping
