/-
What rules mean: quads by nested loops.

`Mapping.quads` says what a rule graph says about some data, without running anything.
It goes through the selected triples maps, their records, the subjects of a record and
whatever is said about them, one loop inside the other.  An object from a parent is found
by a loop over the parent's records, and the graphs of a statement are the union of what
its graph maps make.  There are no early exits: an empty list makes an empty loop.

`run_eq_nestedLoops` says that a run over sources without failures gives these quads, the
first of each canonical text, and that such a run succeeds.  The engine stops early,
collects graphs piecemeal and joins through indexes; by `Ready.run_eq` that comes down to
comparing two stateless descriptions, part by part.
-/
import RdfMapping.Proofs.Execution.Assembly
import RdfMapping.Source.Memory

namespace RdfMapping

/-! ### The meaning of rules -/

/-- Rules with the data they speak about. -/
structure Mapping where
  /-- The rules. -/
  graph : RuleGraph
  /-- How terms are made. -/
  generator : Generator
  /-- The records of every logical source. -/
  records : LogicalSource → List Record

namespace Mapping

variable (d : Mapping)

/-- The terms that a term map makes from a record; if its function fails, there are none. -/
def terms (position : Nat) (record : Record) (m : TermMap) : List Term :=
  orNone (d.generator.terms m record (blankScope position))

/-- The records of a triples map. -/
def recordsOf (m : TriplesMap) : List Record := m.logicalSource.elim [] d.records

/-- The subjects that the triples map at a position makes from a record. -/
def subjects (position : Nat) (m : TriplesMap) (record : Record) : List Term :=
  m.subjectMap.elim [] fun subjectMap => d.terms position record subjectMap.termMap

/-- The objects of a reference to a parent.  Without conditions and on the same source they are
the parent's subjects for the very record.  Otherwise the record must have a value for every
condition, and they are the subjects of the parent's records that agree with it. -/
def parentSubjects (r : RefObjectMap) (child : TriplesMap) (record : Record) : List Term :=
  match d.graph.position? r.parent, d.graph.get? r.parent with
  | some position, some parent =>
    if r.conditions.isEmpty && parent.logicalSource == child.logicalSource then
      d.subjects position parent record
    else if r.answerable record then
      ((d.recordsOf parent).filter (r.agree record)).flatMap (d.subjects position parent)
    else []
  | _, _ => []

/-- The objects that an object map of the triples map at a position makes from a record. -/
def objects (position : Nat) (m : TriplesMap) (record : Record) : ObjectMap → List Term
  | .term map => d.terms position record map
  | .parent r => d.parentSubjects r m record

/-- The graphs of a statement: the default graph without any graph map, else the graphs that the
graph maps make, each once. -/
def graphs (position : Nat) (record : Record) (maps : List TermMap) : List (Option Term) :=
  if maps.isEmpty then [none]
  else ((maps.flatMap (d.terms position record)).map graphOfTerm).eraseDups

/-- The statements that the subjects of a record belong to the classes. -/
def memberships (position : Nat) (m : TriplesMap) (subjectMap : SubjectMap) (record : Record) :
    List Quad :=
  (d.subjects position m record).flatMap fun s =>
    subjectMap.classes.flatMap fun c =>
      (d.graphs position record subjectMap.graphMaps).map fun g => ⟨s, .iri Rdf.type, .iri c, g⟩

/-- The statements of a predicate-object map about the subjects of a record. -/
def statements (position : Nat) (m : TriplesMap) (subjectMap : SubjectMap) (record : Record)
    (p : PredicateObjectMap) : List Quad :=
  (d.subjects position m record).flatMap fun s =>
    (p.predicateMaps.flatMap (d.terms position record)).flatMap fun v =>
      (p.objectMaps.flatMap (d.objects position m record)).flatMap fun o =>
        (d.graphs position record (subjectMap.graphMaps ++ p.graphMaps)).map fun g => ⟨s, v, o, g⟩

/-- All that the triples map at a position says about a record. -/
def description (position : Nat) (m : TriplesMap) (record : Record) : List Quad :=
  m.subjectMap.elim [] fun subjectMap =>
    d.memberships position m subjectMap record
      ++ m.predicateObjectMaps.flatMap (d.statements position m subjectMap record)

/-- All that the triples maps asked for say. -/
def quads (filter : Option (List String)) : List Quad :=
  (d.graph.selected filter).flatMap fun entry =>
    (d.recordsOf entry.2).flatMap (d.description entry.1 entry.2)

end Mapping

/-! ### Graphs -/

/-- New graphs are those that are left when the known ones are removed. -/
theorem newGraphs_eq_eraseDups (graphs : List (Option Term)) (terms : List Term) :
    newGraphs graphs terms = ((terms.map graphOfTerm).removeAll graphs).eraseDups := by
  induction terms generalizing graphs with
  | nil => simp [newGraphs, List.removeAll]
  | cons t ts ih =>
      unfold newGraphs
      rw [List.map_cons, List.removeAll, List.filter_cons, List.elem_eq_contains]
      dsimp only
      by_cases hknown : graphs.contains (graphOfTerm t)
      · rw [if_pos hknown, ih, hknown]
        rfl
      · have hnew : (!graphs.contains (graphOfTerm t)) = true := by simpa using hknown
        rw [if_neg hknown, ih, if_pos hnew, List.eraseDups_cons, List.filter_filter,
          List.removeAll]
        simp only [List.elem_eq_contains, List.contains_cons, Bool.not_or]

/-- Graphs are collected piece by piece as they would be at once. -/
theorem addGraphs_eq_eraseDups (graphs : List (Option Term)) (terms : List Term) :
    addGraphs graphs.eraseDups terms = (graphs ++ terms.map graphOfTerm).eraseDups := by
  have hcontains : ∀ g, graphs.eraseDups.elem g = graphs.elem g := by
    intro g
    simp
  rw [addGraphs, newGraphs_eq_eraseDups, List.eraseDups_append]
  simp only [List.removeAll, hcontains]

/-! ### Yields without failures -/

/-- The stretch comes to its end and adds exactly these quads. -/
structure Yield.Makes (y : Yield) (quads : List Quad) : Prop where
  completes : y.failure = none
  quads_eq : y.tally.quads = quads

namespace Yield

theorem makes_ofQuads (quads : List Quad) : (ofQuads quads).Makes quads := ⟨rfl, rfl⟩

theorem Makes.andThen {y z : Yield} {qs rs : List Quad} (hy : y.Makes qs) (hz : z.Makes rs) :
    (y.andThen z).Makes (qs ++ rs) := by
  refine ⟨?_, ?_⟩
  · rw [Yield.andThen, hy.completes, hz.completes]
  · rw [Yield.andThen, hy.completes, Tally.append_def, hy.quads_eq, hz.quads_eq]

theorem makes_all {α : Type} {f : α → Yield} {g : α → List Quad} {as : List α}
    (h : ∀ a ∈ as, (f a).Makes (g a)) : (all (as.map f)).Makes (as.flatMap g) := by
  induction as with
  | nil => exact ⟨rfl, rfl⟩
  | cons a as ih =>
      rw [List.flatMap_cons]
      exact (h a (by simp)).andThen (ih fun b hb => h b (by simp [hb]))

theorem makes_scan (triplesMap : String) {visit : Nat → Record → Yield}
    {f : Record → List Quad} (h : ∀ n record, (visit n record).Makes (f record))
    (records : List Record) :
    ∀ n, (scan triplesMap visit n (records.map .ok)).Makes (records.flatMap f) := by
  induction records with
  | nil => intro n; exact ⟨rfl, rfl⟩
  | cons record records ih =>
      intro n
      rw [List.flatMap_cons]
      exact (h n record).andThen (ih (n + 1))

end Yield

theorem readItems_map_ok (triplesMap : String) (records : List Record) :
    ∀ n, readItems triplesMap n (records.map .ok) = .ok records := by
  induction records with
  | nil => intro n; rfl
  | cons record records ih =>
      intro n
      rw [List.map_cons, readItems, ih]
      rfl

/-! ### The meaning of yields -/

namespace Mapping

/-- The engine works on these rules, and its sources give these records. -/
structure Describes (d : Mapping) (e : Engine) : Prop where
  graph_eq : e.graph = d.graph
  generator_eq : e.generator = d.generator
  sources : ∀ m ∈ d.graph.triplesMaps, ∀ source, m.logicalSource = some source →
    e.provider.openAfter [] source = .ok ((d.records source).map .ok)

variable {d : Mapping} {e : Engine}

theorem Describes.termsOf_eq (h : d.Describes e) (m : TriplesMap) (position n : Nat)
    (record : Record) (maps : List TermMap) :
    e.termsOf ⟨m, blankScope position, n, record⟩ maps
      = maps.flatMap (d.terms position record) := by
  rw [Engine.termsOf, h.generator_eq]
  rfl

theorem Describes.subjects_eq (h : d.Describes e) (position : Nat) (m : TriplesMap)
    (record : Record) : orNone (e.subjectsOf position m record) = d.subjects position m record := by
  unfold Engine.subjectsOf subjects
  rw [h.generator_eq]
  cases m.subjectMap <;> rfl

theorem Describes.recordsOf_eq (h : d.Describes e) {m : TriplesMap}
    (hm : m ∈ d.graph.triplesMaps) : e.recordsOf m = .ok (d.recordsOf m) := by
  unfold Engine.recordsOf recordsOf
  cases hsource : m.logicalSource with
  | none => rfl
  | some source =>
      dsimp only
      rw [h.sources m hm source hsource]
      exact readItems_map_ok m.iri _ 0

theorem Describes.joined_eq (h : d.Describes e) (r : RefObjectMap) (child : TriplesMap)
    (record : Record) :
    orNone <$> e.joined r child record = .ok (d.parentSubjects r child record) := by
  unfold Engine.joined parentSubjects
  rw [h.graph_eq]
  cases d.graph.position? r.parent with
  | none => rfl
  | some position =>
      cases hparent : d.graph.get? r.parent with
      | none => rfl
      | some parent =>
          have hmem : parent ∈ d.graph.triplesMaps := List.mem_of_find?_eq_some hparent
          dsimp only
          split
          · rw [← h.subjects_eq]
            rfl
          · split
            · rw [h.recordsOf_eq hmem, ← funext (h.subjects_eq position parent)]
              rfl
            · rfl

theorem Describes.allObjectsOf_eq (h : d.Describes e) (m : TriplesMap) (position n : Nat)
    (record : Record) (maps : List ObjectMap) :
    e.allObjectsOf ⟨m, blankScope position, n, record⟩ maps
      = .ok (maps.flatMap (d.objects position m record)) := by
  have hobjects : ∀ o, e.objectsOf ⟨m, blankScope position, n, record⟩ o
      = .ok (d.objects position m record o) := by
    intro o
    cases o with
    | term map => rw [Engine.objectsOf, h.generator_eq]; rfl
    | parent r => exact h.joined_eq r m record
  induction maps with
  | nil => rfl
  | cons o maps ih =>
      rw [Engine.allObjectsOf, hobjects, ih]
      rfl

/-- The graphs that the engine has collected for a statement are those of the statement. -/
theorem Describes.graphs_eq (h : d.Describes e) (m : TriplesMap) (position n : Nat)
    (record : Record) (maps others : List TermMap) :
    targetGraphs (!maps.isEmpty || !others.isEmpty)
        (addGraphs (addGraphs [] (e.termsOf ⟨m, blankScope position, n, record⟩ maps))
          (e.termsOf ⟨m, blankScope position, n, record⟩ others))
      = d.graphs position record (maps ++ others) := by
  have hempty : (!maps.isEmpty || !others.isEmpty) = !(maps ++ others).isEmpty := by
    cases maps <;> simp
  have hfirst := addGraphs_eq_eraseDups [] (e.termsOf ⟨m, blankScope position, n, record⟩ maps)
  rw [List.eraseDups_nil, List.nil_append] at hfirst
  rw [hempty, hfirst, addGraphs_eq_eraseDups, ← List.map_append, h.termsOf_eq, h.termsOf_eq,
    ← List.flatMap_append, targetGraphs, graphs]
  cases (maps ++ others).isEmpty <;> rfl

theorem Describes.statementsYield_makes (h : d.Describes e) (m : TriplesMap) (position n : Nat)
    (record : Record) (subjectMap : SubjectMap) (p : PredicateObjectMap) :
    (e.statementsYield ⟨m, blankScope position, n, record⟩ subjectMap
        (d.subjects position m record) p).Makes
      (d.statements position m subjectMap record p) := by
  unfold Engine.statementsYield statements
  dsimp only
  rw [h.termsOf_eq m position n record p.predicateMaps]
  by_cases hpredicates : (p.predicateMaps.flatMap (d.terms position record)).isEmpty
  · rw [if_pos hpredicates, List.isEmpty_iff.mp hpredicates]
    exact ⟨rfl, by simp⟩
  · rw [if_neg hpredicates, h.allObjectsOf_eq, ← h.graphs_eq m position n]
    exact Yield.makes_ofQuads _

theorem Describes.describeYield_makes (h : d.Describes e) {m : TriplesMap} (position n : Nat)
    (record : Record) {subjectMap : SubjectMap} (hsubject : m.subjectMap = some subjectMap) :
    (e.describeYield ⟨m, blankScope position, n, record⟩ subjectMap
        (d.subjects position m record)).Makes (d.description position m record) := by
  have hgraphs := h.graphs_eq m position n record subjectMap.graphMaps []
  have hnone : ∀ graphs, addGraphs graphs (e.termsOf ⟨m, blankScope position, n, record⟩ [])
      = graphs := List.append_nil
  simp only [List.append_nil, List.isEmpty_nil, Bool.not_true, Bool.or_false, hnone] at hgraphs
  rw [description, hsubject, Option.elim_some, Engine.describeYield]
  refine Yield.Makes.andThen ?_ (Yield.makes_all fun p _ =>
    h.statementsYield_makes m position n record subjectMap p)
  rw [memberships, ← hgraphs]
  exact Yield.makes_ofQuads _

/-- Nothing is said about a record without subjects. -/
theorem description_of_no_subjects {m : TriplesMap} {position : Nat} {record : Record}
    (h : d.subjects position m record = []) : d.description position m record = [] := by
  unfold description
  cases m.subjectMap with
  | none => rfl
  | some subjectMap => simp [memberships, statements, h]

/-- A record comes to what is said about it, if failing subjects cost no more than the record. -/
theorem Describes.recordYield_makes (h : d.Describes e) {m : TriplesMap} (position n : Nat)
    (record : Record) {subjectMap : SubjectMap} (hsubject : m.subjectMap = some subjectMap) :
    (e.recordYield .skipRecord m (blankScope position) subjectMap n record).Makes
      (d.description position m record) := by
  have hsubjects : d.subjects position m record
      = orNone (e.generator.terms subjectMap.termMap record (blankScope position)) := by
    rw [subjects, hsubject, h.generator_eq]
    rfl
  unfold Engine.recordYield
  cases hterms : e.generator.terms subjectMap.termMap record (blankScope position) with
  | error error =>
      rw [hterms] at hsubjects
      rw [description_of_no_subjects hsubjects]
      exact ⟨rfl, rfl⟩
  | ok terms =>
      rw [hterms] at hsubjects
      cases terms with
      | nil =>
          rw [description_of_no_subjects hsubjects]
          exact ⟨rfl, rfl⟩
      | cons t ts =>
          have hdescribe := h.describeYield_makes position n record hsubject
          rw [hsubjects] at hdescribe
          have hcount : (Yield.mk { records := 1 } none).Makes [] := ⟨rfl, rfl⟩
          exact hcount.andThen hdescribe

/-- A triples map comes to what is said about its records. -/
theorem Describes.mapYield_makes (h : d.Describes e) (position : Nat) {m : TriplesMap}
    (hm : m ∈ d.graph.triplesMaps) (hsource : m.logicalSource.isSome)
    (hsubject : m.subjectMap.isSome) :
    (e.mapYield .skipRecord position m).Makes
      ((d.recordsOf m).flatMap (d.description position m)) := by
  obtain ⟨source, hsource⟩ := Option.isSome_iff_exists.mp hsource
  obtain ⟨subjectMap, hsubject⟩ := Option.isSome_iff_exists.mp hsubject
  rw [Engine.mapYield, recordsOf, hsource, hsubject]
  dsimp only
  rw [h.sources m hm source hsource]
  exact Yield.makes_scan m.iri (fun n record => h.recordYield_makes position n record hsubject) _ 0

/-- Yields without failures make parts of completed triples maps. -/
theorem exists_part_eq {y : Yield} {quads : List Quad} (h : y.Makes quads) (c : Config)
    (triplesMap : String) : ∃ stats, y.part c triplesMap = .ok (quads, stats) := by
  refine ⟨y.tally.stats triplesMap .completed, ?_⟩
  rw [Yield.part, h.completes, h.quads_eq]

/-- The parts of triples maps hold what is said about their records. -/
theorem Describes.exists_partsOf_eq (h : d.Describes e) (he : e.Repeatable) {c : Config}
    (hskip : c.subjectFunctionErrors = .skipRecord) {selected : List (Nat × TriplesMap)}
    (hselected : ∀ entry ∈ selected, entry.2 ∈ d.graph.triplesMaps) :
    ∃ parts, e.partsOf c selected = .ok parts ∧
      (parts.map (·.1)).flatten = selected.flatMap fun entry =>
        (d.recordsOf entry.2).flatMap (d.description entry.1 entry.2) := by
  induction selected with
  | nil => exact ⟨[], rfl, rfl⟩
  | cons entry selected ih =>
      have hm := hselected entry (by simp)
      obtain ⟨hsource, hsubject⟩ := he.complete entry.2 (h.graph_eq ▸ hm)
      obtain ⟨stats, hpart⟩ :=
        exists_part_eq (h.mapYield_makes entry.1 hm hsource hsubject) c entry.2.iri
      obtain ⟨parts, hrest, hquads⟩ := ih fun other hother => hselected other (by simp [hother])
      refine ⟨((d.recordsOf entry.2).flatMap (d.description entry.1 entry.2), stats) :: parts,
        ?_, ?_⟩
      · rw [Engine.partsOf] at hrest
        rw [Engine.partsOf, List.mapM_cons, hrest, hskip, hpart]
        rfl
      · rw [List.map_cons, List.flatten_cons, List.flatMap_cons, hquads]

end Mapping

/-! ### Runs -/

/--
**A run gives the quads that the rules say.**  Over sources that give the same records
whenever they are opened, with failing subjects skipped and repetitions removed, a run
that was not cancelled succeeds, and its store holds the first quad of each canonical
text among those of `Mapping.quads`, in their order.
-/
theorem Executor.run_eq_nestedLoops (x : Executor) (graph : RuleGraph)
    (filter : Option (List String)) (base : Option Iri)
    (records : LogicalSource → List Record) (session : Session)
    (hbase : x.config.base = .ok base) (hvalid : graph.validate = .ok ())
    (hselect : ∃ positions, graph.select filter = .ok positions)
    (hrecords : ∀ m ∈ graph.triplesMaps, ∀ source, m.logicalSource = some source →
      ∀ opened, x.provider.openAfter opened source = .ok ((records source).map .ok))
    (hskip : x.config.subjectFunctionErrors = .skipRecord)
    (hremove : x.config.removeDuplicates = true)
    (hsilent : x.cancellable = true → ∀ n, x.provider.cancelsAt n = false)
    (hcalm : x.cancellable = true → session.cancelled = false) :
    ∃ execution, (x.run graph filter session).result = .ok execution ∧
      execution.store.toList
        = distinct (Mapping.quads ⟨graph, ⟨x.functions, base⟩, records⟩ filter) := by
  let d : Mapping := ⟨graph, ⟨x.functions, base⟩, records⟩
  obtain ⟨positions, hselect⟩ := hselect
  have hready : x.Ready graph base := by
    refine ⟨hbase, hvalid, ?_, hsilent⟩
    intro m hm source hsource opened
    rw [hrecords m hm source hsource opened, hrecords m hm source hsource []]
  have hdescribes : d.Describes (x.engine graph base) :=
    ⟨rfl, rfl, fun m hm source hsource => hrecords m hm source hsource []⟩
  obtain ⟨parts, hok, hquads⟩ := hdescribes.exists_partsOf_eq hready.repeatable hskip
    fun entry (hentry : entry ∈ graph.selected filter) => RuleGraph.mem_of_mem_selected hentry
  have hrun := hready.run_eq hselect hcalm
  rw [hok] at hrun
  cases hresult : (x.run graph filter session).result with
  | error error => rw [hresult] at hrun; cases hrun
  | ok execution =>
      rw [hresult] at hrun
      refine ⟨execution, rfl, ?_⟩
      have hcontent : execution.content = x.config.content parts := by
        simpa [Except.map, Except.mapError] using hrun
      have hstore := congrArg Prod.fst hcontent
      rw [Execution.content, Config.content, hremove, hquads] at hstore
      exact hstore

/-! ### A bookcase -/

namespace Executor

/-- Shelves, and books of which one has no number. -/
def shelved (source : LogicalSource) : List Record :=
  if source.source == "shelves" then [.ofPairs [("no", "1"), ("hall", "a")],
    .ofPairs [("no", "2"), ("hall", "a")]]
  else if source.source == "books" then [.ofPairs [("hall", "a")],
    .ofPairs [("no", "7"), ("hall", "a")]]
  else []

/-- Gives these shelves and books. -/
def bookcase : Executor where
  provider := { openAfter := fun _ source => .ok ((shelved source).map .ok) }

/-- A book is said to be on any shelf of its hall. -/
def bookcaseRules : RuleGraph := ⟨
  [{ iri := "ex:Book", logicalSource := some ⟨"books", .csv, none, none⟩
     subjectMap := some { termMap := (TermMap.reference "no").asBlankNode }
     predicateObjectMaps :=
      [.constant "ex:on" (.parent (.single "ex:Shelf" "hall" "hall"))] },
   { iri := "ex:Shelf", logicalSource := some ⟨"shelves", .csv, none, none⟩
     subjectMap := some { termMap := (TermMap.reference "no").asBlankNode } }]⟩

theorem bookcase_run_eq_nestedLoops :
    ∃ execution, (bookcase.run bookcaseRules).result = .ok execution ∧
      execution.store.toList =
        [⟨.blank "tm0-7", .iri "ex:on", .blank "tm1-1", none⟩,
          ⟨.blank "tm0-7", .iri "ex:on", .blank "tm1-2", none⟩] := by
  obtain ⟨execution, hresult, hstore⟩ := run_eq_nestedLoops bookcase bookcaseRules none none
    shelved {} rfl (by decide +kernel) ⟨[0, 1], rfl⟩ (fun _ _ _ _ _ => rfl) rfl rfl (fun _ _ => rfl)
    (fun _ => rfl)
  refine ⟨execution, hresult, ?_⟩
  rw [hstore]
  show distinct _ = _
  rw [distinct_eq_eraseDupsBy_render]
  decide +kernel

end Executor

end RdfMapping
