/-
What fails in a triples map.

Functions may fail wherever terms are made.  `RecordFailures` are the failures at a record that a
triples map survives, in the order in which they are met, and `FailuresOver` are those over the
items of its source, up to the point where the triples map ends.  A parent whose index is built
has failures of its own: those of its subjects, `rowFailures`, up to the first item that cannot
be read, and `scanFailures` are those of all the scans that a stretch of a run makes.

All of this is said of the rules and the items alone.  There is one thing that depends on more:
whether an index has objects decides whether the graphs of a statement are looked for.
-/
import RdfMapping.Proofs.Execution.Books
import RdfMapping.Proofs.Execution.Consultation

namespace RdfMapping

/-- An error that ends a record because of a parent whose index is asked for: the signal, or the
source of the parent. -/
inductive Interrupts (asked : List String) : Error → Prop
  | cancelled (h : asked ≠ []) : Interrupts asked .cancelled
  | source {parent : String} (h : parent ∈ asked) (record : Option Nat) (fault : SourceError) :
      Interrupts asked (.source parent record fault)

theorem Interrupts.mono {asked asked' : List String} {error : Error} (h : Interrupts asked error)
    (hmore : ∀ parent ∈ asked, parent ∈ asked') : Interrupts asked' error := by
  cases h with
  | cancelled hne =>
      obtain ⟨parent, hparent⟩ := List.exists_mem_of_ne_nil asked hne
      exact .cancelled (List.ne_nil_of_mem (hmore parent hparent))
  | source hparent record fault => exact .source (hmore _ hparent) record fault

theorem Interrupts.ne_nil {asked : List String} {error : Error} (h : Interrupts asked error) :
    asked ≠ [] := by
  cases h with
  | cancelled hne => exact hne
  | source hparent record fault => exact List.ne_nil_of_mem hparent

namespace Engine

variable (e : Engine)

/-! ### Failures at a record -/

/-- The subjects that a reference takes from the very same record, none if it takes them from an
index. -/
def sharedSubjects (r : RefObjectMap) (child : TriplesMap) (record : Record) :
    Except FunctionError (List Term) :=
  match e.graph.position? r.parent, e.graph.get? r.parent with
  | some position, some parent =>
    if r.conditions.isEmpty && parent.logicalSource == child.logicalSource then
      e.subjectsOf position parent record
    else .ok []
  | _, _ => .ok []

/-- What an object map makes of a record without an index. -/
def ownObjects (site : Site) : ObjectMap → Except FunctionError (List Term)
  | .term m => e.generator.terms m site.record site.scope
  | .parent r => e.sharedSubjects r site.triplesMap site.record

/-- The failures of object maps at a record. -/
def objectFailures (site : Site) (ms : List ObjectMap) : List Diagnostic :=
  ms.flatMap fun m => site.noted (e.ownObjects site m)

/-- The parents that object maps consult at a record. -/
def consultedAmong (site : Site) (ms : List ObjectMap) : List String :=
  (ms.filterMap (·.parent?)).flatMap fun r => e.consultedFor r site.triplesMap site.record

/-- Some object may be found, be it in an index. -/
def MayFind (site : Site) (ms : List ObjectMap) : Prop :=
  (∃ m ∈ ms, orNone (e.ownObjects site m) ≠ []) ∨ e.consultedAmong site ms ≠ []

/-- No object is found without an index. -/
def FindsNoOwn (site : Site) (ms : List ObjectMap) : Prop :=
  ∀ m ∈ ms, orNone (e.ownObjects site m) = []

/-- The failures of a predicate-object map at a record.  Without predicate the objects are not
looked for, and without object not the graphs. -/
inductive StatementFailures (site : Site) (p : PredicateObjectMap) : List Diagnostic → Prop
  | unstated (h : (e.termsOf site p.predicateMaps).isEmpty = true) :
      StatementFailures site p (e.failuresOf site p.predicateMaps)
  | objectless (h : (e.termsOf site p.predicateMaps).isEmpty = false)
      (hnone : e.FindsNoOwn site p.objectMaps) :
      StatementFailures site p
        (e.failuresOf site p.predicateMaps ++ e.objectFailures site p.objectMaps)
  | stated (h : (e.termsOf site p.predicateMaps).isEmpty = false)
      (hsome : e.MayFind site p.objectMaps) :
      StatementFailures site p
        (e.failuresOf site p.predicateMaps ++
          (e.objectFailures site p.objectMaps ++ e.failuresOf site p.graphMaps))

/-- The failures of several predicate-object maps at a record, one after the other. -/
inductive AllStatementFailures (site : Site) : List PredicateObjectMap → List Diagnostic → Prop
  | nil : AllStatementFailures site [] []
  | cons {p : PredicateObjectMap} {ps : List PredicateObjectMap} {ds ds' : List Diagnostic}
      (h : e.StatementFailures site p ds) (hrest : AllStatementFailures site ps ds') :
      AllStatementFailures site (p :: ps) (ds ++ ds')

/-- The failures of all that is said about the subjects of a record. -/
def DescriptionFailures (site : Site) (subjectMap : SubjectMap) (ds : List Diagnostic) : Prop :=
  ∃ rest, e.AllStatementFailures site site.triplesMap.predicateObjectMaps rest ∧
    ds = e.failuresOf site subjectMap.graphMaps ++ rest

/-- The failures of a triples map at a record that are survived: a subject that fails, or whatever
fails in what is said about the subjects. -/
inductive RecordFailures (position : Nat) (m : TriplesMap) (n : Nat) (record : Record) :
    List Diagnostic → Prop
  | failed {error : FunctionError} (h : e.subjectsOf position m record = .error error) :
      RecordFailures position m n record [⟨m.iri, some n, .function error⟩]
  | subjectless (h : e.subjectsOf position m record = .ok []) :
      RecordFailures position m n record []
  | described {subjectMap : SubjectMap} {subject : Term} {subjects : List Term}
      {ds : List Diagnostic} (hsubject : m.subjectMap = some subjectMap)
      (h : e.subjectsOf position m record = .ok (subject :: subjects))
      (hdescription : e.DescriptionFailures ⟨m, blankScope position, n, record⟩ subjectMap ds) :
      RecordFailures position m n record ds

/-- The failures of a triples map over the items of its source that are survived, up to the error
that it ends in, if it does.  The record in which the scan of a parent ends it may have had more
of them. -/
inductive FailuresOver (policy : SubjectErrorPolicy) (position : Nat) (m : TriplesMap) :
    Nat → List Item → Option Error → List Diagnostic → Prop
  | done (n : Nat) : FailuresOver policy position m n [] none []
  | cancelled (n : Nat) (item : Item) (items : List Item) :
      FailuresOver policy position m n (item :: items) (some .cancelled) []
  | fault (n : Nat) (fault : SourceError) (items : List Item) :
      FailuresOver policy position m n (.error fault :: items)
        (some (.source m.iri (some n) fault)) []
  | abort {n : Nat} {record : Record} {error : FunctionError} (items : List Item)
      (hpolicy : policy = .abortTriplesMap)
      (hsubject : e.subjectsOf position m record = .error error) :
      FailuresOver policy position m n (.ok record :: items) (some (.function error)) []
  | scan {n : Nat} {record : Record} {error : Error} {ds ds' : List Diagnostic}
      (items : List Item) (h : e.RecordFailures position m n record ds') (hbefore : ds <+: ds')
      (hscan : Interrupts (e.consultedAt position m n record) error) :
      FailuresOver policy position m n (.ok record :: items) (some error) ds
  | record {n : Nat} {record : Record} {items : List Item} {ended : Option Error}
      {ds ds' : List Diagnostic} (hpasses : ¬ e.Aborts policy position m record)
      (h : e.RecordFailures position m n record ds)
      (hrest : FailuresOver policy position m (n + 1) items ended ds') :
      FailuresOver policy position m n (.ok record :: items) ended (ds ++ ds')

/-! ### Failures of parents -/

/-- The failures of the subjects of a parent, up to the first item that cannot be read. -/
def rowFailures (position : Nat) (m : TriplesMap) : Nat → List Item → List Diagnostic
  | _, [] => []
  | _, .error _ :: _ => []
  | n, .ok record :: items =>
    Site.noted ⟨m, blankScope position, n, record⟩ (e.subjectsOf position m record) ++
      rowFailures position m (n + 1) items

/-- The failures met at a landmark, when some sources have been opened before it. -/
def failuresAt (opened : List LogicalSource) : Landmark → List Diagnostic
  | .scan _ parent =>
    match e.graph.position? parent, e.graph.get? parent with
    | some position, some m =>
      match m.logicalSource.map (e.provider.openAfter opened) with
      | some (.ok items) => e.rowFailures position m 0 items
      | _ => []
    | _, _ => []
  | _ => []

/-- The failures of parents that are met along some landmarks. -/
def scanFailures (opened : List LogicalSource) : List Landmark → List Diagnostic
  | [] => []
  | l :: ls => e.failuresAt opened l ++ scanFailures (opened ++ (l.opened? e.graph).toList) ls

variable {e}

theorem scanFailures_append (opened : List LogicalSource) (ls ks : List Landmark) :
    e.scanFailures opened (ls ++ ks)
      = e.scanFailures opened ls ++ e.scanFailures (opened ++ e.graph.openings ls) ks := by
  induction ls generalizing opened with
  | nil =>
      change _ = e.scanFailures (opened ++ []) ks
      rw [List.append_nil]
      rfl
  | cons l ls ih =>
      have hopenings : e.graph.openings (l :: ls)
          = (l.opened? e.graph).toList ++ e.graph.openings ls :=
        e.graph.openings_append [l] ls
      rw [List.cons_append, scanFailures, scanFailures, ih, hopenings]
      simp only [List.append_assoc]

end Engine

end RdfMapping
