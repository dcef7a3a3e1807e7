/-
What a run over readable sources keeps, by nested loops.

`Mapping.quads` takes it that a record whose subject fails is skipped.  The other policy gives up
the whole triples map, so `Mapping.kept` looks first whether a triples map comes upon such a
record, and goes through its records only if it does not.

`Supplies.exists_run` says that a run over sources that give some records succeeds if it sets out at
all, and that its store has the quads of `Mapping.keptQuads`, or the first one of each text.  These
are lists that come from lists, with no order of execution and no index in them.  Two runs over
different records, `Supplies.alike`, are therefore compared by comparing such lists.
-/
import RdfMapping.Proofs.Execution.Mentions
import RdfMapping.Proofs.Execution.SubjectErrors

namespace RdfMapping

namespace Mapping

variable (d : Mapping)

/-! ### What is kept -/

/-- Whether the subject that the triples map at a position makes from a record ends in a function
error. -/
def fails (position : Nat) (m : TriplesMap) (record : Record) : Bool :=
  m.subjectMap.any fun subjectMap =>
    !(d.generator.terms subjectMap.termMap record (blankScope position)).isOk

/-- The records of a triples map that count: all of them, unless failing subjects give the triples
map up and there is one. -/
def keptRecords (policy : SubjectErrorPolicy) (entry : Nat × TriplesMap) : List Record :=
  match policy with
  | .skipRecord => d.recordsOf entry.2
  | .abortTriplesMap =>
    if (d.recordsOf entry.2).any (d.fails entry.1 entry.2) then [] else d.recordsOf entry.2

/-- What a triples map leaves in the store. -/
def kept (policy : SubjectErrorPolicy) (entry : Nat × TriplesMap) : List Quad :=
  (d.keptRecords policy entry).flatMap (d.description entry.1 entry.2)

/-- What the triples maps asked for leave in the store. -/
def keptQuads (policy : SubjectErrorPolicy) (filter : Option (List String)) : List Quad :=
  (d.graph.selected filter).flatMap (d.kept policy)

variable {d} {e : Engine}

theorem Describes.fails_eq_false_iff (h : d.Describes e) {position : Nat} {m : TriplesMap}
    {record : Record} :
    d.fails position m record = false ↔ ∃ ts, e.subjectsOf position m record = .ok ts := by
  unfold fails Engine.subjectsOf
  rw [← h.generator_eq]
  cases m.subjectMap with
  | none => simp
  | some subjectMap =>
      dsimp only [Option.any_some]
      cases e.generator.terms subjectMap.termMap record (blankScope position) <;> simp [Except.isOk,
        Except.toBool]

theorem Describes.fails_iff (h : d.Describes e) {position : Nat} {m : TriplesMap}
    {record : Record} :
    d.fails position m record = true ↔
      ∃ error, e.subjectsOf position m record = .error error := by
  rw [← Bool.not_eq_false, h.fails_eq_false_iff]
  cases e.subjectsOf position m record <;> simp

/-- What is read of a triples map are its records. -/
theorem Describes.reads_iff (h : d.Describes e) {m : TriplesMap} (hm : m ∈ d.graph.triplesMaps)
    {record : Record} : e.Reads m record ↔ record ∈ d.recordsOf m := by
  unfold Engine.Reads recordsOf
  cases hsource : m.logicalSource with
  | none => simp
  | some source => simp [h.sources m hm source hsource]

theorem Describes.unfailing (h : d.Describes e) : e.provider.Unfailing e.graph := by
  rw [h.graph_eq]
  exact fun m hm source hsource => ⟨_, h.sources m hm source hsource⟩

/-- The engine keeps what nested loops say, under either policy. -/
theorem Describes.keptOf_eq (h : d.Describes e) (he : e.Repeatable) (policy : SubjectErrorPolicy)
    {entry : Nat × TriplesMap} (hm : entry.2 ∈ d.graph.triplesMaps) :
    (e.keptOf policy entry).1 = d.kept policy entry := by
  have hgraph : entry.2 ∈ e.graph.triplesMaps := h.graph_eq ▸ hm
  obtain ⟨hsource, hsubject⟩ := he.complete entry.2 hgraph
  have hskip : (e.keptOf .skipRecord entry).1 = d.kept .skipRecord entry := by
    obtain ⟨hcompletes, hquads⟩ := h.mapYield_makes entry.1 hm hsource hsubject
    unfold Engine.keptOf
    dsimp only
    rw [hcompletes]
    exact hquads
  cases policy with
  | skipRecord => exact hskip
  | abortTriplesMap =>
      unfold kept keptRecords
      dsimp only
      -- Either no subject fails and the policies agree, or one does and nothing is kept.
      rcases Engine.mapYield_abortTriplesMap_cases h.unfailing he entry.1 hgraph with
        ⟨hall, hsame⟩ | ⟨⟨record, hreads, hfails⟩, n, error, -, hfailure⟩
      · have hnone : ¬ (d.recordsOf entry.2).any (d.fails entry.1 entry.2) = true := by
          rw [List.any_eq_true]
          rintro ⟨record, hrecord, hfails⟩
          have hsucceeds := h.fails_eq_false_iff.mpr (hall record ((h.reads_iff hm).mpr hrecord))
          rw [hsucceeds] at hfails
          cases hfails
        have hkept : e.keptOf .abortTriplesMap entry = e.keptOf .skipRecord entry := by
          rw [Engine.keptOf, Engine.keptOf, hsame]
        rw [if_neg hnone, hkept]
        exact hskip
      · have hsome : (d.recordsOf entry.2).any (d.fails entry.1 entry.2) = true :=
          List.any_eq_true.mpr ⟨record, (h.reads_iff hm).mp hreads, h.fails_iff.mpr hfails⟩
        have haborts : e.abortsAt entry = true := by
          rw [Engine.abortsAt, hfailure]
          rfl
        rw [if_pos hsome]
        exact (Engine.keptOf_of_abortsAt haborts).1

end Mapping

/-! ### Runs -/

/-- What a store keeps of the quads that it collects. -/
def Config.keeps (c : Config) (quads : List Quad) : List Quad :=
  if c.removeDuplicates then distinct quads else quads

namespace Executor

/-- For the sources of the graph the provider gives these records whenever they are opened, and it
never asks for a cancellation that is heeded. -/
structure Supplies (x : Executor) (graph : RuleGraph) (records : LogicalSource → List Record) :
    Prop where
  gives : ∀ m ∈ graph.triplesMaps, ∀ source, m.logicalSource = some source →
    ∀ opened, x.provider.openAfter opened source = .ok ((records source).map .ok)
  silent : x.cancellable = true → ∀ n, x.provider.cancelsAt n = false

/-- The rules of a run with some data. -/
def mapping (x : Executor) (graph : RuleGraph) (base : Option Iri)
    (records : LogicalSource → List Record) : Mapping :=
  ⟨graph, ⟨x.functions, base⟩, records⟩

variable {x : Executor} {graph : RuleGraph} {base : Option Iri}
  {records : LogicalSource → List Record} {filter : Option (List String)}

theorem Supplies.ready (h : x.Supplies graph records) (hbase : x.config.base = .ok base)
    (hvalid : graph.validate = .ok ()) : x.Ready graph base := by
  refine ⟨hbase, hvalid, ?_, h.silent⟩
  intro m hm source hsource opened
  rw [h.gives m hm source hsource opened, h.gives m hm source hsource []]

theorem Supplies.describes (h : x.Supplies graph records) (base : Option Iri) :
    (x.mapping graph base records).Describes (x.engine graph base) :=
  ⟨rfl, rfl, fun m hm source hsource => h.gives m hm source hsource []⟩

/-- **A run that sets out over readable sources keeps what nested loops say.** -/
theorem Supplies.exists_run (h : x.Supplies graph records) (session : Session)
    (hcalm : x.cancellable = true → session.cancelled = false)
    (hbase : x.config.base = .ok base) (hvalid : graph.validate = .ok ()) {positions : List Nat}
    (hselect : graph.select filter = .ok positions) :
    ∃ execution, (x.run graph filter session).result = .ok execution ∧
      execution.store.toList = x.config.keeps
        ((x.mapping graph base records).keptQuads x.config.subjectFunctionErrors filter) := by
  have hready := h.ready hbase hvalid
  have hdescribes := h.describes base
  obtain ⟨execution, hrun, hstore, -⟩ := hready.exists_run hdescribes.unfailing hselect hcalm
  refine ⟨execution, hrun, ?_⟩
  have hkept : (graph.selected filter).map (fun entry =>
        ((x.engine graph base).keptOf x.config.subjectFunctionErrors entry).1)
      = (graph.selected filter).map
        ((x.mapping graph base records).kept x.config.subjectFunctionErrors) :=
    List.map_congr_left fun entry hentry =>
      hdescribes.keptOf_eq hready.repeatable _ (RuleGraph.mem_of_mem_selected hentry)
  rw [hstore, Config.toList_assemble, hkept, ← List.flatMap_def]
  rfl

/-- Two runs of one rule graph over readable sources fail in the same way before anything is read,
or both succeed with stores that are related as the records make them. -/
theorem Supplies.alike {provider : Provider} {records' : LogicalSource → List Record}
    {session session' : Session} {P : List Quad → List Quad → Prop} (h : x.Supplies graph records)
    (h' : (x.withProvider provider).Supplies graph records')
    (hcalm : x.cancellable = true → session.cancelled = false ∧ session'.cancelled = false)
    (hP : ∀ base, P
      (x.config.keeps
        ((x.mapping graph base records).keptQuads x.config.subjectFunctionErrors filter))
      (x.config.keeps
        ((x.mapping graph base records').keptQuads x.config.subjectFunctionErrors filter))) :
    (x.run graph filter session).result.isOk = (x.prepare graph filter).isOk ∧
      ExceptAlike (fun a b => P a.store.toList b.store.toList)
        (x.run graph filter session).result
        ((x.withProvider provider).run graph filter session').result := by
  have hother := x.prepare_withProvider provider graph filter
  cases hprepare : x.prepare graph filter with
  | error error =>
      rw [hprepare] at hother
      rw [run_eq_of_prepare_eq_error hprepare, run_eq_of_prepare_eq_error hother]
      exact ⟨rfl, .error error⟩
  | ok prepared =>
      obtain ⟨base, positions, hbase, hvalid, hselect, -⟩ := prepare_eq_ok_iff.mp hprepare
      obtain ⟨a, ha, hstore⟩ := h.exists_run session (fun hc => (hcalm hc).1) hbase hvalid hselect
      obtain ⟨b, hb, hstore'⟩ :=
        h'.exists_run session' (fun hc => (hcalm hc).2) hbase hvalid hselect
      rw [ha, hb]
      refine ⟨rfl, .ok ?_⟩
      rw [hstore, hstore']
      exact hP base

end Executor

end RdfMapping
