/-
Joining through an index is joining by nested loops.

The engine answers references to parents from indexes that it builds when they are first
needed, one for each parent, shared by all references to it.  An index that lacks what is
asked for is replaced.  None of this can be noticed: every reference gets the answer that
going through all records of its parent gives, whatever was asked before and whether it
was answered or failed.  `resolveAll_eq_joined` says so of any sequence of references.

The invariant is soundness of the state, by which every index is that of some layouts
over the rows of its parent.  What is left is to see that scanning finds these rows, and
that picking rows by key is picking records by agreement with the child.
-/
import RdfMapping.Proofs.Execution.Keeps
import RdfMapping.Proofs.Execution.Performs
import RdfMapping.Proofs.Rules.Executable
import RdfMapping.Source.Memory

namespace RdfMapping

/-! ### Keys and agreement -/

namespace RefObjectMap

/-- A child record has a key exactly if it is answerable, and the key lists its values. -/
theorem key?_childReferences (r : RefObjectMap) (child : Record) :
    child.key? r.childReferences =
      if r.answerable child then some (r.conditions.map fun c => child.get c.child) else none := by
  rw [Record.key?_eq_ite, childReferences, List.all_map, List.map_map]
  rfl

/-- A parent record has the child's key exactly if the two agree. -/
theorem key?_parentReferences (r : RefObjectMap) {child : Record} (h : r.answerable child = true)
    (parent : Record) :
    (parent.key? r.parentReferences == some (r.conditions.map fun c => child.get c.child))
      = r.agree child parent := by
  unfold answerable at h
  unfold agree
  rw [Record.key?_eq_ite, parentReferences, List.all_map, List.map_map, Bool.eq_iff_iff,
    beq_iff_eq]
  constructor
  · intro hkey
    split at hkey
    · simpa [Function.comp_def, List.map_inj_left] using hkey
    · cases hkey
  · intro hagree
    have heq : ∀ c ∈ r.conditions, parent.get c.parent = child.get c.child := by
      simpa using hagree
    -- Agreement hands the child's values on to the parent, so the parent lacks none.
    have hall : (r.conditions.all
        ((fun reference => !(parent.get reference).isEmpty) ∘ JoinCondition.parent)) = true := by
      rw [List.all_eq_true] at h ⊢
      intro c hc
      show (!(parent.get c.parent).isEmpty) = true
      rw [heq c hc]
      exact h c hc
    rw [if_pos hall]
    simpa [Function.comp_def, List.map_inj_left] using heq

end RefObjectMap

namespace Engine

variable {e : Engine}

/-- A record without subjects leaves no row; any other one leaves a row with just these. -/
theorem rowOf?_eq (position : Nat) (parent : TriplesMap) (record : Record) :
    e.rowOf? position parent record =
      match orNone (e.subjectsOf position parent record) with
      | [] => none
      | t :: ts => some ⟨record, t :: ts⟩ := by
  unfold rowOf?
  cases e.subjectsOf position parent record with
  | error error => rfl
  | ok terms => cases terms <;> rfl

/-- Picking rows by the child's key is picking records that agree with the child. -/
theorem matchingSubjects_rowsOf (position : Nat) (parent : TriplesMap) (records : List Record)
    (r : RefObjectMap) {child : Record} (h : r.answerable child = true) :
    matchingSubjects (e.rowsOf position parent records) r.parentReferences
        (r.conditions.map fun c => child.get c.child)
      = (records.filter (r.agree child)).flatMap fun other =>
          orNone (e.subjectsOf position parent other) := by
  unfold matchingSubjects rowsOf
  induction records with
  | nil => rfl
  | cons record records ih =>
      have hkey := r.key?_parentReferences h record
      rw [List.filterMap_cons, rowOf?_eq, List.filter_cons]
      cases hsubjects : orNone (e.subjectsOf position parent record) with
      | nil =>
          rw [ih]
          split <;> simp [hsubjects]
      | cons t ts =>
          rw [List.filter_cons, hkey]
          split
          · rw [List.flatMap_cons, List.flatMap_cons, ih, hsubjects]
          · exact ih

/-! ### Scanning a parent -/

theorem performs_addRow {parent : TriplesMap} {subjectMap : SubjectMap} (position : Nat)
    (hsubject : parent.subjectMap = some subjectMap) (found : ParentScan) (n : Nat)
    (record : Record) :
    e.Performs (e.addRow parent subjectMap (blankScope position) found n record) {}
      (.ok ⟨found.records + 1, (e.rowOf? position parent record).toList ++ found.rows⟩) := by
  have hsubjects : e.subjectsOf position parent record
      = e.generator.terms subjectMap.termMap record (blankScope position) := by
    rw [subjectsOf, hsubject]
  unfold addRow rowOf?
  rw [hsubjects]
  refine performs_bind_of_silent (performs_evaluate _ _ _) ?_
  cases e.generator.terms subjectMap.termMap record (blankScope position) with
  | error error =>
      refine performs_bind_of_silent (performs_log _) ?_
      refine performs_bind_of_silent (performs_modify (fun _ => rfl) (fun _ => rfl)
        (fun _ => (Tally.append_empty _).symm)) ?_
      exact performs_pure _
  | ok terms =>
      cases terms with
      | nil => exact performs_pure _
      | cons t ts => exact performs_pure _

/-- Scanning the items of a parent finds its rows, last one first, or ends at a read error. -/
theorem performs_scan_addRow (he : e.Repeatable) {parent : TriplesMap} {subjectMap : SubjectMap}
    (position : Nat) (hsubject : parent.subjectMap = some subjectMap) (items : List Item) :
    ∀ (n : Nat) (found : ParentScan),
      e.Performs
        (e.scan parent.iri (e.addRow parent subjectMap (blankScope position)) n found items) {}
        (match readItems parent.iri n items with
          | .error error => .error (.ofError error)
          | .ok records => .ok ⟨found.records + records.length,
              (e.rowsOf position parent records).reverse ++ found.rows⟩) := by
  induction items with
  | nil =>
      intro n found
      exact performs_pure _
  | cons item items ih =>
      intro n found
      refine performs_bind_of_silent (performs_receive he) ?_
      refine performs_bind_of_silent performs_checkCancelled ?_
      cases item with
      | error fault => exact performs_failWith _
      | ok record =>
          have hrest := ih (n + 1)
            ⟨found.records + 1, (e.rowOf? position parent record).toList ++ found.rows⟩
          refine performs_bind_of_silent (performs_addRow position hsubject found n record) ?_
          rw [readItems]
          cases hread : readItems parent.iri (n + 1) items with
          | error error =>
              rw [hread] at hrest
              exact hrest
          | ok records =>
              rw [hread] at hrest
              have hcount : found.records + 1 + records.length
                  = found.records + (record :: records).length := by
                rw [List.length_cons]
                omega
              have hrows : (e.rowsOf position parent records).reverse
                    ++ ((e.rowOf? position parent record).toList ++ found.rows)
                  = (e.rowsOf position parent (record :: records)).reverse ++ found.rows := by
                unfold rowsOf
                rw [List.filterMap_cons]
                cases e.rowOf? position parent record <;> simp
              dsimp only at hrest
              rw [hcount, hrows] at hrest
              exact hrest

/-- Building an index finds the rows of the parent's records, or fails as reading them does. -/
theorem performs_buildIndex (he : e.Repeatable) {parent : TriplesMap}
    (hparent : parent ∈ e.graph.triplesMaps) (position : Nat) (asked : List String) :
    e.Performs (e.buildIndex position parent asked) {}
      (match e.recordsOf parent with
        | .error error => .error (.ofError error)
        | .ok records => .ok (ParentIndex.ofRows (e.layoutsFor parent.iri asked)
            (e.rowsOf position parent records))) := by
  obtain ⟨hsome, hsome'⟩ := he.complete parent hparent
  obtain ⟨source, hsource⟩ := Option.isSome_iff_exists.mp hsome
  obtain ⟨subjectMap, hsubject⟩ := Option.isSome_iff_exists.mp hsome'
  have hopen := performs_openSource parent.iri (he.reopens parent hparent source hsource)
  refine performs_inSpan _ ?_
  refine performs_bind_of_silent (performs_sourceOf hsource) ?_
  refine performs_bind_of_silent (performs_subjectMapOf hsubject) ?_
  rw [recordsOf, hsource]
  dsimp only
  cases hitems : e.provider.openAfter [] source with
  | error fault =>
      rw [hitems] at hopen
      exact performs_bind_error _ hopen
  | ok items =>
      rw [hitems] at hopen
      refine performs_bind_of_silent hopen ?_
      have hscan := performs_scan_addRow he position hsubject items 0 {}
      dsimp only
      cases hread : readItems parent.iri 0 items with
      | error error =>
          rw [hread] at hscan
          exact performs_bind_error _ hscan
      | ok records =>
          rw [hread] at hscan
          refine performs_bind_of_silent hscan ?_
          refine performs_bind_of_silent (performs_log _) ?_
          simpa using performs_pure (e := e)
            (ParentIndex.ofRows (e.layoutsFor parent.iri asked) (e.rowsOf position parent records))

/-! ### Answering from an index -/

/-- An index that is that of its parent may be kept. -/
theorem performs_keepIndex {iri : String} {index : ParentIndex} (h : e.IndexOf iri index) :
    e.Performs
      (modify fun s => { s with indexes := (iri, index) :: s.indexes.filter fun i => i.1 != iri })
      {} (.ok ()) := by
  intro s hs
  refine ⟨{ s with indexes := (iri, index) :: s.indexes.filter fun i => i.1 != iri },
    ⟨hs.undisturbed, ?_⟩, (Tally.append_empty _).symm, rfl⟩
  intro iri' index' hlookup
  rw [lookup_replace] at hlookup
  by_cases hiri : iri' = iri
  · rw [if_pos hiri, Option.some.injEq] at hlookup
    rw [hiri, ← hlookup]
    exact h
  · rw [if_neg hiri] at hlookup
    exact hs.indexes iri' index' hlookup

theorem mem_layoutsFor (parent : String) (asked : List String) :
    asked ∈ e.layoutsFor parent asked := by
  unfold layoutsFor
  dsimp only
  split
  · rename_i hcontains
    simpa using hcontains
  · simp

theorem performs_freshIndex (he : e.Repeatable) {iri : String} {position : Nat}
    {parent : TriplesMap} (hposition : e.graph.position? iri = some position)
    (hparent : e.graph.get? iri = some parent) (layout : List String) :
    e.Performs (e.freshIndex position parent layout) {}
      (match e.recordsOf parent with
        | .error error => .error (.ofError error)
        | .ok records => .ok (ParentIndex.ofRows (e.layoutsFor parent.iri layout)
            (e.rowsOf position parent records))) := by
  have hiri : parent.iri = iri := by simpa using List.find?_some hparent
  have hbuild := performs_buildIndex he (List.mem_of_find?_eq_some hparent) position layout
  cases hrecords : e.recordsOf parent with
  | error error =>
      rw [hrecords] at hbuild
      exact performs_bind_error _ hbuild
  | ok records =>
      rw [hrecords] at hbuild
      refine performs_bind_of_silent hbuild ?_
      refine performs_bind_of_silent (performs_keepIndex ?_) (performs_pure _)
      exact ⟨position, parent, records, _, hiri ▸ hposition, hiri ▸ hparent, hrecords, rfl⟩

/-- An index that covers what is asked for is used as it is. -/
theorem indexFor_of_covers (position : Nat) {parent : TriplesMap} {layout : List String}
    {s : RunState} {index : ParentIndex} (hlookup : s.indexes.lookup parent.iri = some index)
    (hcovers : index.covers layout = true) :
    e.indexFor position parent layout s = .ok index s := by
  rw [indexFor_eq, Step.bind_apply]
  dsimp only [get, getThe, MonadStateOf.get, EStateM.get]
  rw [hlookup, Option.filter_some, if_pos hcovers]
  rfl

/-- Otherwise it is built, whether or not there is one. -/
theorem indexFor_of_not_covers (position : Nat) {parent : TriplesMap} {layout : List String}
    {s : RunState}
    (h : ∀ index, s.indexes.lookup parent.iri = some index → index.covers layout = false) :
    e.indexFor position parent layout s = e.freshIndex position parent layout s := by
  have hnone : (s.indexes.lookup parent.iri).filter (·.covers layout) = none := by
    refine Option.filter_eq_none_iff.mpr fun index hlookup => ?_
    simpa using h index hlookup
  rw [indexFor_eq, Step.bind_apply]
  dsimp only [get, getThe, MonadStateOf.get, EStateM.get]
  rw [hnone]

/-- What a kept index finds for a layout that it covers is what picking rows gives. -/
theorem Sound.find_eq {s : RunState} (hs : e.Sound s) {iri : String} {position : Nat}
    {parent : TriplesMap} (hposition : e.graph.position? iri = some position)
    (hparent : e.graph.get? iri = some parent) {index : ParentIndex}
    (hlookup : s.indexes.lookup iri = some index) {layout : List String}
    (hcovers : index.covers layout = true) (key : JoinKey) :
    ∃ records, e.recordsOf parent = .ok records ∧
      index.find layout key = matchingSubjects (e.rowsOf position parent records) layout key := by
  obtain ⟨position', parent', records, layouts, hposition', hparent', hrecords, rfl⟩ :=
    hs.indexes _ _ hlookup
  rw [hposition, Option.some.injEq] at hposition'
  rw [hparent, Option.some.injEq] at hparent'
  subst hposition' hparent'
  have hlayout : layout ∈ layouts := by
    rw [ParentIndex.covers_ofRows] at hcovers
    simpa using hcovers
  exact ⟨records, hrecords, ParentIndex.find_ofRows _ hlayout key⟩

/-- What is found in an index that is built for it is what picking rows gives. -/
theorem performs_findFresh (he : e.Repeatable) {iri : String} {position : Nat}
    {parent : TriplesMap} (hposition : e.graph.position? iri = some position)
    (hparent : e.graph.get? iri = some parent) (layout : List String) (key : JoinKey) :
    e.Performs
      (do
        let index ← e.freshIndex position parent layout
        return (.ok (index.find layout key) : Except FunctionError (List Term))) {}
      (match e.recordsOf parent with
        | .error error => .error (.ofError error)
        | .ok records =>
          .ok (.ok (matchingSubjects (e.rowsOf position parent records) layout key))) := by
  have hfresh := performs_freshIndex he hposition hparent layout
  cases hrecords : e.recordsOf parent with
  | error error =>
      rw [hrecords] at hfresh
      exact performs_bind_error _ hfresh
  | ok records =>
      rw [hrecords] at hfresh
      refine performs_bind_of_silent hfresh ?_
      rw [ParentIndex.find_ofRows _ (mem_layoutsFor parent.iri layout)]
      exact performs_pure _

/-- Whichever index is there or is built, what is found in it is what picking rows gives. -/
theorem performs_find (he : e.Repeatable) {iri : String} {position : Nat} {parent : TriplesMap}
    (hposition : e.graph.position? iri = some position) (hparent : e.graph.get? iri = some parent)
    (layout : List String) (key : JoinKey) :
    e.Performs
      (do
        let index ← e.indexFor position parent layout
        return (.ok (index.find layout key) : Except FunctionError (List Term))) {}
      (match e.recordsOf parent with
        | .error error => .error (.ofError error)
        | .ok records =>
          .ok (.ok (matchingSubjects (e.rowsOf position parent records) layout key))) := by
  have hiri : parent.iri = iri := by simpa using List.find?_some hparent
  intro s hs
  by_cases hcovered : ∃ index, s.indexes.lookup parent.iri = some index ∧ index.covers layout
  · obtain ⟨index, hlookup, hcovers⟩ := hcovered
    obtain ⟨records, hrecords, hfind⟩ :=
      hs.find_eq hposition hparent (hiri ▸ hlookup) hcovers key
    refine ⟨s, hs, (Tally.append_empty _).symm, ?_⟩
    rw [Step.bind_apply, indexFor_of_covers position hlookup hcovers, hrecords]
    dsimp only
    rw [hfind]
    rfl
  · have hbuilt : e.indexFor position parent layout s = e.freshIndex position parent layout s :=
      indexFor_of_not_covers position fun index hlookup => by
        simpa using fun hcovers => hcovered ⟨index, hlookup, hcovers⟩
    obtain ⟨s', hs', ht, hstep⟩ := performs_findFresh he hposition hparent layout key s hs
    refine ⟨s', hs', ht, ?_⟩
    rw [← hstep]
    rw [Step.bind_apply, Step.bind_apply, hbuilt]

/-- Resolving a reference to a known parent performs the join by nested loops. -/
theorem performs_resolve (he : e.Repeatable) (r : RefObjectMap) (child : TriplesMap)
    (record : Record) (hknown : (e.graph.get? r.parent).isSome) :
    e.Performs (e.resolve r child record) {} ((e.joined r child record).mapError .ofError) := by
  obtain ⟨position, parent, hposition, hparent, hget, -⟩ :=
    RuleGraph.exists_position_of_isSome hknown
  have hmem : parent ∈ e.graph.triplesMaps := List.mem_of_getElem? hget
  have hparentOf : e.Performs (e.parentOf r child) {} (.ok (position, parent)) := by
    rw [parentOf, hposition, hparent]
    exact performs_pure _
  refine performs_bind_of_silent hparentOf ?_
  unfold joined
  rw [hposition, hparent]
  dsimp only
  rw [show (!r.hasConditions) = r.conditions.isEmpty by simp [RefObjectMap.hasConditions]]
  split
  · obtain ⟨subjectMap, hsubject⟩ := Option.isSome_iff_exists.mp (he.complete parent hmem).2
    refine performs_bind_of_silent (performs_subjectMapOf hsubject) ?_
    rw [subjectsOf, hsubject]
    exact performs_evaluate _ _ _
  · rw [r.key?_childReferences]
    by_cases hanswerable : r.answerable record = true
    · rw [if_pos hanswerable, if_pos hanswerable]
      have hfind := performs_find he hposition hparent r.parentReferences
        (r.conditions.map fun c => record.get c.child)
      cases hrecords : e.recordsOf parent with
      | error error =>
          rw [hrecords] at hfind
          exact hfind
      | ok records =>
          rw [hrecords] at hfind
          dsimp only at hfind
          rw [matchingSubjects_rowsOf position parent records r hanswerable] at hfind
          exact hfind
    · rw [if_neg hanswerable, if_neg hanswerable]
      exact performs_pure _

/-! ### Sequences of references -/

/-- A reference to a parent that is to be resolved for a child's record. -/
structure Lookup where
  reference : RefObjectMap
  child : TriplesMap
  record : Record

/-- What looking a reference up gives by nested loops, as the result of a step. -/
def Lookup.answer (e : Engine) (l : Lookup) :
    Except Failure (Except FunctionError (List Term)) :=
  (e.joined l.reference l.child l.record).mapError .ofError

/-- Resolves references one after the other, each in the state that the one before left behind,
whether that one failed or not. -/
def resolveAll (e : Engine) (lookups : List Lookup) :
    Step (List (Except Failure (Except FunctionError (List Term)))) :=
  lookups.mapM fun l => Step.attempt (e.resolve l.reference l.child l.record)

theorem performs_resolveAll (he : e.Repeatable) {lookups : List Lookup}
    (hknown : ∀ l ∈ lookups, (e.graph.get? l.reference.parent).isSome) :
    e.Performs (e.resolveAll lookups) {} (.ok (lookups.map (·.answer e))) := by
  induction lookups with
  | nil => exact performs_pure _
  | cons l lookups ih =>
      unfold resolveAll
      rw [List.mapM_cons]
      have hfirst := performs_resolve he l.reference l.child l.record (hknown l (by simp))
      refine performs_bind_of_silent (performs_attempt hfirst) ?_
      exact performs_bind_of_silent (ih fun l' hl' => hknown l' (by simp [hl'])) (performs_pure _)

/--
**Joining through shared indexes is joining by nested loops.**  A resolver that starts
without any index gives every reference of a sequence what `joined` says, in whatever
order they come, whatever layouts they ask for and whichever of them fail.
-/
theorem resolveAll_eq_joined (e : Engine) (he : e.Repeatable) (lookups : List Lookup)
    (hknown : ∀ l ∈ lookups, (e.graph.get? l.reference.parent).isSome) (s : RunState)
    (hcalm : e.cancellable = true → s.session.cancelled = false) (hindexes : s.indexes = []) :
    ∃ s', e.resolveAll lookups s
      = .ok (lookups.map fun l => (e.joined l.reference l.child l.record).mapError .ofError) s' := by
  obtain ⟨s', -, -, hstep⟩ := performs_resolveAll he hknown s (sound_of_calm hcalm hindexes)
  exact ⟨s', hstep⟩

/-! ### Departments and a person -/

/-- People, departments, and rooms of which only the first can be read. -/
def departments : Engine where
  graph := ⟨
    [{ iri := "ex:Person", logicalSource := some ⟨"people", .csv, none, none⟩
       subjectMap := some { termMap := (TermMap.reference "id").asBlankNode } },
     { iri := "ex:Dept", logicalSource := some ⟨"depts", .csv, none, none⟩
       subjectMap := some { termMap := (TermMap.reference "code").asBlankNode } },
     { iri := "ex:Room", logicalSource := some ⟨"rooms", .csv, none, none⟩
       subjectMap := some { termMap := (TermMap.reference "room").asBlankNode } }]⟩
  provider := FaultySources.provider
    { sources := ⟨[("depts", [.ofPairs [("code", "eng"), ("site", "north")],
        .ofPairs [("code", "ops"), ("site", "north")]]),
        ("rooms", [.ofPairs [("room", "1")], .ofPairs [("room", "2")]])]⟩
      faults := [⟨"rooms", .read "eof", some 1⟩] }
  generator := ⟨{}, none⟩

theorem departments_repeatable : departments.Repeatable where
  complete := by
    intro m hm
    simp only [departments, List.mem_cons, List.not_mem_nil, or_false] at hm
    rcases hm with rfl | rfl | rfl <;> exact ⟨rfl, rfl⟩
  reopens := fun _ _ _ _ _ => rfl
  silent := fun _ _ => rfl

/-- What may be asked about a person: everyone at the same site, a room, the own department, a
department that the record does not name, and the person itself. -/
def questions : List Lookup :=
  let ann : Record := .ofPairs [("id", "ann"), ("site", "north"), ("dept", "ops")]
  let person : TriplesMap :=
    { iri := "ex:Person", logicalSource := some ⟨"people", .csv, none, none⟩ }
  [⟨.single "ex:Dept" "site" "site", person, ann⟩, ⟨.unconditional "ex:Room", person, ann⟩,
    ⟨.single "ex:Dept" "dept" "code", person, ann⟩, ⟨.single "ex:Dept" "boss" "code", person, ann⟩,
    ⟨.unconditional "ex:Person", person, ann⟩]

theorem resolveAll_questions :
    ∃ s', departments.resolveAll questions {} = .ok
      [.ok (.ok [.blank "tm1-eng", .blank "tm1-ops"]),
        .error ⟨some 1, .source "ex:Room" (some 1) (.read "eof")⟩,
        .ok (.ok [.blank "tm1-ops"]), .ok (.ok []), .ok (.ok [.blank "tm0-ann"])] s' := by
  have hknown : ∀ l ∈ questions, (departments.graph.get? l.reference.parent).isSome := by
    intro l hl
    simp only [questions, List.mem_cons, List.not_mem_nil, or_false] at hl
    rcases hl with rfl | rfl | rfl | rfl | rfl <;> decide +kernel
  have hanswers : (questions.map fun l =>
        (departments.joined l.reference l.child l.record).mapError Failure.ofError)
      = [.ok (.ok [.blank "tm1-eng", .blank "tm1-ops"]),
        .error ⟨some 1, .source "ex:Room" (some 1) (.read "eof")⟩,
        .ok (.ok [.blank "tm1-ops"]), .ok (.ok []), .ok (.ok [.blank "tm0-ann"])] := by decide +kernel
  rw [← hanswers]
  exact resolveAll_eq_joined departments departments_repeatable questions hknown {} (fun _ => rfl)
    rfl

end Engine

end RdfMapping
