/-
The same rules over other records.

The quads of a run are made by loops over records, and the loops have no memory.  So a relation
between lists that loops respect, `LoopRelation`, passes from the records of the sources to the
quads that are kept, through joins as well: there it passes from the records of the parent to the
objects of each record of the child.

Two such relations are of interest.  One list may be the other in another order; then two runs keep
the same lines, `record_order_without_influence`, and this holds under either policy for failing
subjects, as a failing subject is found in any order.  Or one list may have more than the other;
then a run that skips failing subjects keeps all that was kept before, `more_records_more_quads`.
Under the other policy this is not so, as one of the new records may give the triples map up.
-/
import Mathlib.Data.List.Flatten
import Mathlib.Data.List.Perm.Basic
import RdfMapping.Function.Standard
import RdfMapping.Proofs.Execution.KeptQuads
import RdfMapping.Proofs.Quad.Reached

namespace RdfMapping

/-! ### Relations that loops respect -/

/-- A relation between lists that passes from what is looped over to what the loops make. -/
structure LoopRelation (R : ∀ {α : Type}, List α → List α → Prop) : Prop where
  refl : ∀ {α : Type} (as : List α), R as as
  loop : ∀ {α β : Type} {as bs : List α} {f g : α → List β}, R as bs →
    (∀ a ∈ as, R (f a) (g a)) → R (as.flatMap f) (bs.flatMap g)

theorem loopRelation_perm : LoopRelation List.Perm where
  refl _ := .refl _
  loop h hf := h.flatMap hf

theorem loopRelation_sublist : LoopRelation List.Sublist where
  refl _ := .refl _
  loop {_ _ as _ _ g} h hf := (List.Sublist.flatMap_right as hf).trans (h.flatMap g)

theorem LoopRelation.append {R : ∀ {α : Type}, List α → List α → Prop} (hR : LoopRelation R)
    {α : Type} {as bs as' bs' : List α} (h : R as bs) (h' : R as' bs') :
    R (as ++ as') (bs ++ bs') := by
  have hboth : R ([true, false].flatMap fun b => if b then as else as')
      ([true, false].flatMap fun b => if b then bs else bs') := by
    refine hR.loop (hR.refl _) fun b _ => ?_
    cases b with
    | true => exact h
    | false => exact h'
  simpa using hboth

/-- Loops over some of the values skip the others. -/
theorem flatMap_filter_eq {α β : Type} (as : List α) (p : α → Bool) (f : α → List β) :
    (as.filter p).flatMap f = as.flatMap fun a => if p a then f a else [] := by
  induction as with
  | nil => rfl
  | cons a as ih =>
      rw [List.filter_cons, List.flatMap_cons, ← ih]
      cases p a <;> rfl

namespace Mapping

/-- The same rules over other records. -/
def withRecords (d : Mapping) (records : LogicalSource → List Record) : Mapping :=
  { d with records }

theorem graph_withRecords (d : Mapping) (records : LogicalSource → List Record) :
    (d.withRecords records).graph = d.graph := rfl

section Loops

variable {R : ∀ {α : Type}, List α → List α → Prop} (hR : LoopRelation R) {d : Mapping}
  {records : LogicalSource → List Record}
  (hrecords : ∀ m ∈ d.graph.triplesMaps, R (d.recordsOf m) ((d.withRecords records).recordsOf m))

include hR hrecords

/-- What a join gives is a loop over the records of the parent. -/
theorem parentSubjects_withRecords (r : RefObjectMap) (child : TriplesMap) (record : Record) :
    R (d.parentSubjects r child record)
      ((d.withRecords records).parentSubjects r child record) := by
  unfold parentSubjects
  rw [graph_withRecords]
  cases d.graph.position? r.parent with
  | none => exact hR.refl _
  | some position =>
      cases hparent : d.graph.get? r.parent with
      | none => exact hR.refl _
      | some parent =>
          dsimp only
          by_cases hsame : r.conditions.isEmpty && parent.logicalSource == child.logicalSource
          · rw [if_pos hsame, if_pos hsame]
            exact hR.refl _
          · rw [if_neg hsame, if_neg hsame]
            by_cases hanswerable : r.answerable record
            · rw [if_pos hanswerable, if_pos hanswerable, flatMap_filter_eq, flatMap_filter_eq]
              exact hR.loop (hrecords parent (List.mem_of_find?_eq_some hparent)) fun _ _ =>
                hR.refl _
            · rw [if_neg hanswerable, if_neg hanswerable]
              exact hR.refl _

theorem objects_withRecords (position : Nat) (m : TriplesMap) (record : Record) (o : ObjectMap) :
    R (d.objects position m record o) ((d.withRecords records).objects position m record o) := by
  cases o with
  | term map => exact hR.refl _
  | parent r => exact parentSubjects_withRecords hR hrecords r m record

theorem statements_withRecords (position : Nat) (m : TriplesMap) (subjectMap : SubjectMap)
    (record : Record) (p : PredicateObjectMap) :
    R (d.statements position m subjectMap record p)
      ((d.withRecords records).statements position m subjectMap record p) := by
  have hobjects : R (p.objectMaps.flatMap (d.objects position m record))
      (p.objectMaps.flatMap ((d.withRecords records).objects position m record)) :=
    hR.loop (hR.refl _) fun o _ => objects_withRecords hR hrecords position m record o
  refine hR.loop (hR.refl (d.subjects position m record)) fun s _ => ?_
  refine hR.loop (hR.refl (p.predicateMaps.flatMap (d.terms position record))) fun v _ => ?_
  exact hR.loop hobjects fun o _ => hR.refl _

/-- Of what is said about a record, only the objects from parents depend on other records. -/
theorem description_withRecords (position : Nat) (m : TriplesMap) (record : Record) :
    R (d.description position m record)
      ((d.withRecords records).description position m record) := by
  unfold description
  cases m.subjectMap with
  | none => exact hR.refl []
  | some subjectMap =>
      refine hR.append (hR.refl (d.memberships position m subjectMap record)) ?_
      exact hR.loop (hR.refl _) fun p _ =>
        statements_withRecords hR hrecords position m subjectMap record p

/-- What is kept is related as the records are, if those that count are related in this way. -/
theorem keptQuads_withRecords {policy : SubjectErrorPolicy}
    (hkept : ∀ entry, entry.2 ∈ d.graph.triplesMaps →
      R (d.keptRecords policy entry) ((d.withRecords records).keptRecords policy entry))
    (filter : Option (List String)) :
    R (d.keptQuads policy filter) ((d.withRecords records).keptQuads policy filter) := by
  refine hR.loop (hR.refl (d.graph.selected filter)) fun entry hentry => ?_
  refine hR.loop (hkept entry (RuleGraph.mem_of_mem_selected hentry)) fun record _ => ?_
  exact description_withRecords hR hrecords entry.1 entry.2 record

end Loops

/-- In whatever order records come, a failing subject among them is found. -/
theorem keptRecords_perm {d : Mapping} {records : LogicalSource → List Record}
    (policy : SubjectErrorPolicy) {entry : Nat × TriplesMap}
    (h : (d.recordsOf entry.2).Perm ((d.withRecords records).recordsOf entry.2)) :
    (d.keptRecords policy entry).Perm ((d.withRecords records).keptRecords policy entry) := by
  cases policy with
  | skipRecord => exact h
  | abortTriplesMap =>
      have hany : ((d.withRecords records).recordsOf entry.2).any (d.fails entry.1 entry.2)
          = (d.recordsOf entry.2).any (d.fails entry.1 entry.2) := h.any_eq.symm
      show List.Perm (if _ then _ else _) (if List.any _ (d.fails entry.1 entry.2) then _ else _)
      rw [hany]
      split
      · exact .refl _
      · exact h

end Mapping

/-! ### Records in another order -/

/-- Stores that get the same quads in different orders keep the same lines. -/
theorem Config.texts_keeps_perm (c : Config) {qs rs : List Quad} (h : qs.Perm rs) :
    (texts (c.keeps qs)).Perm (texts (c.keeps rs)) := by
  have htexts : (texts qs).Perm (texts rs) := h.map _
  unfold keeps
  split
  · refine (List.perm_ext_iff_of_nodup (nodup_texts_distinct qs) (nodup_texts_distinct rs)).mpr ?_
    intro line
    rw [mem_texts_distinct, mem_texts_distinct]
    exact htexts.mem_iff
  · exact htexts

/-- What a store keeps has the lines of what it gets. -/
theorem Config.texts_keeps_subset (c : Config) {qs rs : List Quad} (h : qs ⊆ rs) :
    texts (c.keeps qs) ⊆ texts (c.keeps rs) := by
  have htexts : texts qs ⊆ texts rs := List.map_subset _ h
  unfold keeps
  split
  · intro line
    rw [mem_texts_distinct, mem_texts_distinct]
    exact fun hline => htexts hline
  · exact htexts

namespace Executor

variable (x : Executor) (provider : Provider) (graph : RuleGraph)
  (records records' : LogicalSource → List Record) (filter : Option (List String))
  (first second : Session)

/-- What relates the records of sources relates the records of triples maps. -/
theorem recordsOf_of_sources {R : List Record → List Record → Prop} (hnil : R [] [])
    {base : Option Iri}
    (h : ∀ m ∈ graph.triplesMaps, ∀ source, m.logicalSource = some source →
      R (records source) (records' source)) {m : TriplesMap} (hm : m ∈ graph.triplesMaps) :
    R ((x.mapping graph base records).recordsOf m)
      (((x.mapping graph base records).withRecords records').recordsOf m) := by
  unfold Mapping.recordsOf
  cases hsource : m.logicalSource with
  | none => exact hnil
  | some source => exact h m hm source hsource

/--
**The order of records does not matter.**  If two providers give the same records for every source
of the graph, each in an order of its own, then two runs keep the same lines: each as often if
repetitions are kept, and else once.  Both succeed if they set out at all, and otherwise they fail
in the same way.
-/
theorem record_order_without_influence (h : x.Supplies graph records)
    (h' : (x.withProvider provider).Supplies graph records')
    (hperm : ∀ m ∈ graph.triplesMaps, ∀ source, m.logicalSource = some source →
      (records source).Perm (records' source))
    (hcalm : x.cancellable = true → first.cancelled = false ∧ second.cancelled = false) :
    (x.run graph filter first).result.isOk = (x.prepare graph filter).isOk ∧
      ExceptAlike (fun a b => (texts a.store.toList).Perm (texts b.store.toList))
        (x.run graph filter first).result
        ((x.withProvider provider).run graph filter second).result := by
  refine h.alike (P := fun qs rs => (texts qs).Perm (texts rs)) h' hcalm fun base => ?_
  let d : Mapping := x.mapping graph base records
  have hrecords : ∀ m ∈ d.graph.triplesMaps,
      (d.recordsOf m).Perm ((d.withRecords records').recordsOf m) :=
    fun _ hm => x.recordsOf_of_sources graph records records' .nil hperm hm
  have hkept : ∀ entry : Nat × TriplesMap, entry.2 ∈ d.graph.triplesMaps →
      (d.keptRecords x.config.subjectFunctionErrors entry).Perm
        ((d.withRecords records').keptRecords x.config.subjectFunctionErrors entry) :=
    fun entry hentry => Mapping.keptRecords_perm _ (hrecords entry.2 hentry)
  exact x.config.texts_keeps_perm
    (Mapping.keptQuads_withRecords loopRelation_perm hrecords hkept filter)

/-! ### An orchard -/

/-- Trees and plots. -/
def orchardRecords (trees plots : List Record) (source : LogicalSource) : List Record :=
  if source.source == "trees" then trees else if source.source == "plots" then plots else []

/-- An apple tree and a pear tree. -/
def apple : Record := .ofPairs [("name", "apple"), ("row", "1")]
def pear : Record := .ofPairs [("name", "pear"), ("row", "1")]

/-- Two plots in the row of the trees, and one that is not to be used. -/
def north : Record := .ofPairs [("row", "1"), ("name", "north")]
def south : Record := .ofPairs [("row", "1"), ("name", "south")]
def waste : Record := .ofPairs [("row", "2"), ("name", "waste")]

/-- Keeps books about these trees and plots. -/
def orchard (policy : SubjectErrorPolicy) (trees plots : List Record) : Executor where
  provider := { openAfter := fun _ source => .ok ((orchardRecords trees plots source).map .ok) }
  functions := Registry.insert {} "ex:usable" ((StandardFunction.failIf "waste").register false)
  config := { subjectFunctionErrors := policy, removeDuplicates := false }

/-- Trees stand on the plots of their row, and plots are places. -/
def orchardRules : RuleGraph := ⟨
  [{ iri := "ex:Tree", logicalSource := some ⟨"trees", .csv, none, none⟩
     subjectMap := some { termMap := (TermMap.reference "name").asBlankNode }
     predicateObjectMaps := [.constant "ex:on" (.parent (.single "ex:Plot" "row" "row"))] },
   { iri := "ex:Plot", logicalSource := some ⟨"plots", .csv, none, none⟩
     subjectMap := some
       { termMap := (TermMap.function ((FunctionCall.ofFunction "ex:usable").withParameter "in"
           (TermMap.reference "name").asLiteral)).asBlankNode
         classes := ["ex:Place"] } }]⟩

theorem orchard_supplies (policy : SubjectErrorPolicy) (trees plots : List Record) :
    (orchard policy trees plots).Supplies orchardRules (orchardRecords trees plots) where
  gives := fun _ _ _ _ _ => rfl
  silent := fun _ _ => rfl

/-- That a tree stands on a plot. -/
def stands (tree plot : String) : Quad := ⟨.blank tree, .iri "ex:on", .blank plot, none⟩

/-- The plots are given up in either order, and the tree stands on the same two. -/
theorem orchard_order_without_influence :
    ∃ a b,
      ((orchard .abortTriplesMap [apple] [north, south, waste]).run orchardRules).result = .ok a ∧
      ((orchard .abortTriplesMap [apple] [waste, south, north]).run orchardRules).result = .ok b ∧
      a.store.toList = [stands "tm0-apple" "tm1-north", stands "tm0-apple" "tm1-south"] ∧
      (texts a.store.toList).Perm (texts b.store.toList) := by
  let x : Executor := orchard .abortTriplesMap [apple] [north, south, waste]
  let y : Executor := orchard .abortTriplesMap [apple] [waste, south, north]
  have hx : x.Supplies orchardRules (orchardRecords [apple] [north, south, waste]) :=
    orchard_supplies _ _ _
  have hy : y.Supplies orchardRules (orchardRecords [apple] [waste, south, north]) :=
    orchard_supplies _ _ _
  have hselect : orchardRules.select none = .ok [0, 1] := rfl
  obtain ⟨a, ha, hstore⟩ := hx.exists_run {} (fun _ => rfl) rfl (by decide +kernel) hselect
  have hperm : ∀ m ∈ orchardRules.triplesMaps, ∀ source, m.logicalSource = some source →
      (orchardRecords [apple] [north, south, waste] source).Perm
        (orchardRecords [apple] [waste, south, north] source) := by
    intro m _ source _
    unfold orchardRecords
    split
    · exact .refl _
    · split
      · exact List.reverse_perm [waste, south, north]
      · exact .refl _
  obtain ⟨-, hsame⟩ := record_order_without_influence x y.provider orchardRules _ _ none {} {} hx hy
    hperm fun _ => ⟨rfl, rfl⟩
  rw [ha] at hsame
  obtain ⟨b, hb, hlines⟩ := hsame.exists_of_ok
  have hkept : x.config.keeps ((x.mapping orchardRules none (orchardRecords [apple]
      [north, south, waste])).keptQuads .abortTriplesMap none)
        = [stands "tm0-apple" "tm1-north", stands "tm0-apple" "tm1-south"] := by
    decide +kernel
  exact ⟨a, b, ha, hb, hstore.trans hkept, hlines⟩

/-! ### More records -/

/--
**More records give more quads.**  If failing subjects cost their records only and one provider
gives for every source of the graph all that the other gives and possibly more, in between or
behind, then every line that is kept over the fewer records is kept over the more records.  If
repetitions are kept, the quads are even kept in their order and as often.
-/
theorem more_records_more_quads (h : x.Supplies graph records)
    (h' : (x.withProvider provider).Supplies graph records')
    (hskip : x.config.subjectFunctionErrors = .skipRecord)
    (hmore : ∀ m ∈ graph.triplesMaps, ∀ source, m.logicalSource = some source →
      (records source).Sublist (records' source))
    (hcalm : x.cancellable = true → first.cancelled = false ∧ second.cancelled = false) :
    (x.run graph filter first).result.isOk = (x.prepare graph filter).isOk ∧
      ExceptAlike (fun a b => texts a.store.toList ⊆ texts b.store.toList ∧
          (x.config.removeDuplicates = false → a.store.toList.Sublist b.store.toList))
        (x.run graph filter first).result
        ((x.withProvider provider).run graph filter second).result := by
  refine h.alike (P := fun qs rs => texts qs ⊆ texts rs ∧
    (x.config.removeDuplicates = false → qs.Sublist rs)) h' hcalm fun base => ?_
  let d : Mapping := x.mapping graph base records
  have hrecords : ∀ m ∈ d.graph.triplesMaps,
      (d.recordsOf m).Sublist ((d.withRecords records').recordsOf m) :=
    fun _ hm => x.recordsOf_of_sources graph records records' .slnil hmore hm
  have hkept : ∀ entry : Nat × TriplesMap, entry.2 ∈ d.graph.triplesMaps →
      (d.keptRecords .skipRecord entry).Sublist
        ((d.withRecords records').keptRecords .skipRecord entry) :=
    fun entry hentry => hrecords entry.2 hentry
  have hquads := Mapping.keptQuads_withRecords loopRelation_sublist hrecords hkept filter
  rw [hskip]
  refine ⟨x.config.texts_keeps_subset hquads.subset, fun hkeep => ?_⟩
  rw [Config.keeps, Config.keeps, hkeep]
  exact hquads

/-- If failing subjects give their triples map up, a new plot may cost those that were there. -/
example :
    let plots (records : List Record) : List Quad :=
      ((orchard .abortTriplesMap [] records).mapping orchardRules none
        (orchardRecords [] records)).keptQuads .abortTriplesMap none
    plots [north] = [⟨.blank "tm1-north", .iri Rdf.type, .iri "ex:Place", none⟩] ∧
      plots [north, waste] = [] := by
  decide +kernel

/-- A pear tree and two plots come in, and the apple tree still stands where it stood. -/
theorem orchard_more_records :
    ∃ few many,
      ((orchard .skipRecord [apple] [south]).run orchardRules (some ["ex:Tree"])).result
        = .ok few ∧
      ((orchard .skipRecord [pear, apple] [north, waste, south]).run orchardRules
        (some ["ex:Tree"])).result = .ok many ∧
      few.store.toList = [stands "tm0-apple" "tm1-south"] ∧
      few.store.toList.Sublist many.store.toList := by
  let x : Executor := orchard .skipRecord [apple] [south]
  let y : Executor := orchard .skipRecord [pear, apple] [north, waste, south]
  have hx : x.Supplies orchardRules (orchardRecords [apple] [south]) := orchard_supplies _ _ _
  have hy : y.Supplies orchardRules (orchardRecords [pear, apple] [north, waste, south]) :=
    orchard_supplies _ _ _
  have hselect : orchardRules.select (some ["ex:Tree"]) = .ok [0] := by decide +kernel
  obtain ⟨few, hfew, hstore⟩ := hx.exists_run {} (fun _ => rfl) rfl (by decide +kernel) hselect
  have hmore : ∀ m ∈ orchardRules.triplesMaps, ∀ source, m.logicalSource = some source →
      (orchardRecords [apple] [south] source).Sublist
        (orchardRecords [pear, apple] [north, waste, south] source) := by
    intro m _ source _
    unfold orchardRecords
    split
    · exact .cons _ (.refl _)
    · split
      · exact .cons _ (.cons _ (.refl _))
      · exact .refl _
  obtain ⟨-, hsame⟩ := more_records_more_quads x y.provider orchardRules _ _ (some ["ex:Tree"])
    {} {} hx hy rfl hmore fun _ => ⟨rfl, rfl⟩
  rw [hfew] at hsame
  obtain ⟨many, hmany, -, hkeeps⟩ := hsame.exists_of_ok
  have hkept : x.config.keeps ((x.mapping orchardRules none (orchardRecords [apple]
      [south])).keptQuads .skipRecord (some ["ex:Tree"])) = [stands "tm0-apple" "tm1-south"] := by
    decide +kernel
  exact ⟨few, many, hfew, hmany, hstore.trans hkept, hkeeps rfl⟩

end Executor

end RdfMapping
