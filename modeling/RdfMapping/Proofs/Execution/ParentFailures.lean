/-
How the failures of parents are entered.

When an index is built a subject that fails costs its record and nothing else, but it is logged
and listed, whether the scan gets through or not.  `Told` is the relation of states that says so
of any stretch of a triples map: what is entered about parents are the failures of the scans that
the landmarks speak of.  Only the signal ends a scan without all of them.
-/
import RdfMapping.Proofs.Execution.Failures

namespace RdfMapping

namespace Engine

open Step

variable {e : Engine}

/-! ### What a stretch enters about parents -/

/-- Within a triples map the failures of parents are those of the scans that were made.  Only a
scan that the signal ends may lack some. -/
def Told (e : Engine) (child : String) (s s' : RunState) (a : Account) (ended : Option Error) :
    Prop :=
  s.Adds s' a ∧ (s.span = some (.triplesMap child) →
    a.opened = e.graph.openings a.log.landmarks ∧
      (ended ≠ some .cancelled →
        a.log.parentFailures = e.scanFailures s.session.opened a.log.landmarks))

theorem bookkeeping_told (e : Engine) (child : String) : Bookkeeping (e.Told child) where
  quiet := by
    intro s s' a hadds hquiet ended
    refine ⟨hadds, fun _ => ?_⟩
    rw [hquiet.landmarks, hquiet.parentFailures, hquiet.opened]
    exact ⟨rfl, fun _ => rfl⟩
  trans := by
    intro s s₁ s₂ a b ended ⟨hadds, hfirst⟩ ⟨hadds', hsecond⟩
    refine ⟨hadds.trans hadds', fun hspan => ?_⟩
    obtain ⟨hopened, hfailures⟩ := hfirst hspan
    obtain ⟨hopened', hfailures'⟩ := hsecond (hadds.span.trans hspan)
    refine ⟨?_, fun hended => ?_⟩
    · rw [Account.opened_append, Account.log_append, Log.landmarks_append,
        RuleGraph.openings_append, hopened, hopened']
    · rw [Account.log_append, Log.landmarks_append, Log.parentFailures_append,
        hfailures nofun, hfailures' hended, scanFailures_append, hadds.opened, hopened]

/-! ### Building an index -/

/-- The state was added to, and nothing happened that concerns parents. -/
def Quietly (s s' : RunState) (a : Account) (_ : Option Error) : Prop :=
  s.Adds s' a ∧ a.Quiet

theorem bookkeeping_quietly : Bookkeeping Quietly where
  quiet hadds hquiet _ := ⟨hadds, hquiet⟩
  trans := by
    intro s s₁ s₂ a b ended ⟨hadds, hquiet⟩ ⟨hadds', hquiet'⟩
    refine ⟨hadds.trans hadds', ?_, ?_, ?_⟩
    · simp [hquiet.parentFailures, hquiet'.parentFailures]
    · simp [hquiet.landmarks, hquiet'.landmarks]
    · simp [hquiet.opened, hquiet'.opened]

/-- The state was added to. -/
def Adding (s s' : RunState) (a : Account) (_ : Option Error) : Prop := s.Adds s' a

theorem bookkeeping_adding : Bookkeeping Adding where
  quiet hadds _ _ := hadds
  trans hadds hadds' := hadds.trans hadds'

/-- What is entered while an index is built: failures of the parent and maybe a landmark, and
nothing that concerns the child. -/
structure Rows (ds : List Diagnostic) (ls : List Landmark) (a : Account) : Prop
    extends a.Lists [] where
  parentFailures : a.log.parentFailures = ds
  landmarks : a.log.landmarks = ls
  opened : a.opened = []

theorem Rows.nil : Rows [] [] {} :=
  ⟨.nil, rfl, rfl, rfl⟩

theorem rows_of_quiet {a : Account} (hlists : a.Lists []) (hquiet : a.Quiet) : Rows [] [] a :=
  ⟨hlists, hquiet.parentFailures, hquiet.landmarks, hquiet.opened⟩

theorem Rows.append {a b : Account} {ds ds' : List Diagnostic} {ls ls' : List Landmark}
    (h : Rows ds ls a) (h' : Rows ds' ls' b) : Rows (ds ++ ds') (ls ++ ls') (a ++ b) where
  toLists := h.toLists.append h'.toLists
  parentFailures := by simp [h.parentFailures, h'.parentFailures]
  landmarks := by simp [h.landmarks, h'.landmarks]
  opened := by simp [h.opened, h'.opened]

theorem subjectsOf_eq {m : TriplesMap} {subjectMap : SubjectMap}
    (h : m.subjectMap = some subjectMap) (position : Nat) (record : Record) :
    e.subjectsOf position m record
      = e.generator.terms subjectMap.termMap record (blankScope position) := by
  rw [subjectsOf, h]

/-- A parent's record whose subject fails is logged and listed under the parent. -/
theorem books_addRow {position : Nat} {parent : TriplesMap} {subjectMap : SubjectMap}
    (hsubject : parent.subjectMap = some subjectMap) (found : ParentScan) (n : Nat)
    (record : Record) :
    Books Adding (e.addRow parent subjectMap (blankScope position) found n record)
      (fun _ => Rows (Site.noted ⟨parent, blankScope position, n, record⟩
        (e.subjectsOf position parent record)) []) fun _ _ => False := by
  intro s
  have hevaluate := e.lists_evaluate bookkeeping_quietly subjectMap.termMap record
    (blankScope position) s
  unfold addRow
  rw [bind_apply]
  cases hrun : e.evaluate subjectMap.termMap record (blankScope position) s with
  | error failure s₁ =>
      rw [hrun] at hevaluate
      obtain ⟨a, -, ds, -, hfalse⟩ := hevaluate
      exact hfalse.elim
  | ok result s₁ =>
      rw [hrun] at hevaluate
      obtain ⟨a, ⟨hadds, hquiet⟩, ds, hlists, rfl, rfl⟩ := hevaluate
      have hrows := rows_of_quiet hlists hquiet
      rw [← subjectsOf_eq hsubject]
      dsimp only
      cases e.subjectsOf position parent record with
      | ok subjects =>
          cases subjects with
          | nil => exact ⟨a, hadds, hrows⟩
          | cons subject subjects => exact ⟨a, hadds, hrows⟩
      | error error =>
          have hwarned : Rows [⟨parent.iri, some n, .function error⟩] []
              { log := [.logged (.parentFailed parent.iri n error) s₁.span] } :=
            ⟨⟨rfl, rfl, rfl⟩, rfl, rfl, rfl⟩
          refine ⟨a ++ { log := [.logged (.parentFailed parent.iri n error) s₁.span] }, ?_,
            hrows.append hwarned⟩
          refine hadds.trans ?_
          constructor <;> simp [Log.failures, Log.parentFailures, Log.losses, TraceEntry.failure?,
            TraceEntry.parentFailure?, TraceEntry.loss?]

/-- How going through a parent ends before its time: because of the signal, which may cut off
failures of its subjects, or because of an item that cannot be read. -/
def BreaksOff (e : Engine) (position : Nat) (parent : TriplesMap) (n : Nat) (items : List Item)
    (error : Error) (a : Account) : Prop :=
  Interrupts [parent.iri] error ∧
    ∃ ds, Rows ds [] a ∧ (error ≠ .cancelled → ds = e.rowFailures position parent n items)

/-- Going through a parent lists the failures of its subjects. -/
theorem books_scanRows {position : Nat} {parent : TriplesMap} {subjectMap : SubjectMap}
    (hsubject : parent.subjectMap = some subjectMap) (items : List Item) (found : ParentScan) :
    Books Adding
      (e.scan parent.iri (e.addRow parent subjectMap (blankScope position)) 0 found items)
      (fun _ => Rows (e.rowFailures position parent 0 items) [])
      (e.BreaksOff position parent 0 items) := by
  have hvisit : ∀ (found : ParentScan) (n : Nat) (record : Record) (items : List Item),
      Books Adding (e.addRow parent subjectMap (blankScope position) found n record)
        (fun _ => Rows (Site.noted ⟨parent, blankScope position, n, record⟩
          (e.subjectsOf position parent record)) [])
        (e.BreaksOff position parent n (.ok record :: items)) :=
    fun found n record _ => (books_addRow hsubject found n record).mono (fun _ _ => id)
      fun _ _ => False.elim
  refine e.books_scan bookkeeping_adding parent.iri
    (fun n items => Rows (e.rowFailures position parent n items) []) (e.BreaksOff position parent)
    hvisit ?_ ?_ ?_ ?_ ?_ items 0 found
  · intro n
    exact .nil
  · intro n item items
    exact ⟨.cancelled (by simp), [], .nil, fun h => absurd rfl h⟩
  · intro n fault items
    exact ⟨.source (by simp) _ fault, [], .nil, fun _ => rfl⟩
  · intro n record items a b ha hb
    exact ha.append hb
  · rintro n record items error a b ha ⟨hends, ds, hb, hds⟩
    refine ⟨hends, _, ha.append hb, fun hne => ?_⟩
    rw [hds hne, rowFailures]

/-- When all items were visited the index is a landmark. -/
theorem books_indexItems {position : Nat} {parent : TriplesMap} {subjectMap : SubjectMap}
    (hsubject : parent.subjectMap = some subjectMap) (layouts : List (List String))
    (items : List Item) :
    Books Adding (e.indexItems position parent subjectMap layouts items)
      (fun _ => Rows (e.rowFailures position parent 0 items) [.built parent.iri])
      (e.BreaksOff position parent 0 items) := by
  refine books_bind bookkeeping_adding (books_scanRows hsubject items {}) ?_ fun _ _ => id
  intro found a hrows s
  refine ⟨{ log := [.logged (.indexed parent.iri found.records layouts.length) s.span] }, ?_, ?_⟩
  · constructor <;> simp [Log.failures, Log.parentFailures, Log.losses, TraceEntry.failure?,
      TraceEntry.parentFailure?, TraceEntry.loss?]
  · have hbuilt : Rows [] [.built parent.iri]
        { log := [.logged (.indexed parent.iri found.records layouts.length) s.span] } :=
      ⟨⟨rfl, rfl, rfl⟩, rfl, rfl, rfl⟩
    have hall := hrows.append hbuilt
    rwa [List.append_nil] at hall

/-! ### Asking for an index -/

/-- The failures of a parent whose source gave this. -/
def givenRowFailures (e : Engine) (position : Nat) (parent : TriplesMap) :
    Except SourceError (List Item) → List Diagnostic
  | .ok items => e.rowFailures position parent 0 items
  | .error _ => []

section Parent

variable {child iri : String} {position : Nat} {parent : TriplesMap} {source : LogicalSource}
  {subjectMap : SubjectMap} (hposition : e.graph.position? iri = some position)
  (hparent : e.graph.get? iri = some parent) (hsource : parent.logicalSource = some source)
  (hsubject : parent.subjectMap = some subjectMap)

include hposition hparent hsource

theorem scanFailures_scan (opened : List LogicalSource) {ls : List Landmark}
    (hls : ls = [] ∨ ls = [.built iri]) :
    e.scanFailures opened (.scan child iri :: ls)
      = e.givenRowFailures position parent (e.provider.openAfter opened source) := by
  have hrest : ∀ opened, e.scanFailures opened ls = [] := by
    rcases hls with rfl | rfl <;> exact fun _ => rfl
  rw [scanFailures, hrest, List.append_nil, failuresAt]
  simp only [hposition, hparent, hsource, Option.map_some]
  cases e.provider.openAfter opened source <;> rfl

/-- What is entered once the source of the parent was opened makes a scan, which tells the child
nothing of its own. -/
theorem told_scan {s s₁ : RunState} {a : Account} {ended : Option Error} {ds : List Diagnostic}
    {ls : List Landmark} (hls : ls = [] ∨ ls = [.built iri]) (hrows : Rows ds ls a)
    (hds : ended ≠ some .cancelled →
      ds = e.givenRowFailures position parent (e.provider.openAfter s.session.opened source))
    (hadds : ((s.entering (.joinIndex iri)).opening source).Adds s₁ a) :
    e.Told child s { s₁ with span := s.span }
        (.opening (.joinIndex iri) s.span source ++ a) ended ∧
      (.opening (.joinIndex iri) s.span source ++ a : Account).Lists [] := by
  refine ⟨⟨hadds.inSpan, fun hspan => ?_⟩, Account.Lists.append ⟨rfl, rfl, rfl⟩ hrows.toLists⟩
  have hlandmarks : (.opening (.joinIndex iri) s.span source ++ a : Account).log.landmarks
      = .scan child iri :: ls := by
    rw [Account.log_append, Log.landmarks_append, hrows.landmarks, hspan]
    rfl
  have hopens : e.graph.openings (.scan child iri :: ls) = [source] := by
    rcases hls with rfl | rfl <;>
      simp [RuleGraph.openings, Landmark.opened?, RuleGraph.sourceOf?, hparent, hsource]
  rw [hlandmarks]
  refine ⟨?_, fun hended => ?_⟩
  · rw [hopens, Account.opened_append, hrows.opened]
    rfl
  · rw [scanFailures_scan hposition hparent hsource _ hls, ← hds hended, Account.log_append,
      Log.parentFailures_append, hrows.parentFailures]
    rfl

include hsubject

/-- Scanning a parent enters the failures of its subjects, also if the scan fails. -/
theorem tells_buildIndex (layout : List String) :
    Tells (e.Told child) (e.buildIndex position parent layout) (fun _ ds => ds = [])
      fun error ds => ds = [] ∧ Interrupts [iri] error := by
  obtain rfl : parent.iri = iri := by simpa using List.find?_some hparent
  intro s
  have hopened : (s.entering (.joinIndex parent.iri)).session.opened = s.session.opened := rfl
  rw [buildIndex_eq position hsource hsubject, Step.inSpan_apply, Step.bind_apply,
    Step.openSource_apply, hopened]
  cases hgiven : e.provider.openAfter s.session.opened source with
  | error fault =>
      obtain ⟨htold, hlists⟩ : e.Told child _ _ _ _ ∧ _ := told_scan hposition hparent hsource
        (.inl rfl) .nil (fun _ => by rw [hgiven, givenRowFailures]) (.refl _)
      exact ⟨_, htold, [], hlists, rfl, .source (by simp) none fault⟩
  | ok items =>
      have hbooks : Books Adding
          (e.indexItems position parent subjectMap (e.layoutsFor parent.iri layout) items) _ _ :=
        books_indexItems hsubject (e.layoutsFor parent.iri layout) items
      have hitems := hbooks ((s.entering (.joinIndex parent.iri)).opening source)
      dsimp only
      cases hrun : e.indexItems position parent subjectMap (e.layoutsFor parent.iri layout) items
          ((s.entering (.joinIndex parent.iri)).opening source) with
      | error failure s₁ =>
          rw [hrun] at hitems
          obtain ⟨a, hadds, hinterrupts, ds, hrows, hds⟩ := hitems
          have hcut : some failure.error ≠ some Error.cancelled → ds = e.givenRowFailures position
              parent (e.provider.openAfter s.session.opened source) := by
            intro hended
            rw [hgiven]
            exact hds fun heq => hended (congrArg some heq)
          obtain ⟨htold, hlists⟩ :=
            told_scan hposition hparent hsource (.inl rfl) hrows hcut hadds
          exact ⟨_, htold, [], hlists, rfl, hinterrupts⟩
      | ok index s₁ =>
          rw [hrun] at hitems
          obtain ⟨a, hadds, hrows⟩ := hitems
          obtain ⟨htold, hlists⟩ := told_scan hposition hparent hsource (.inr rfl) hrows
            (fun _ => by rw [hgiven, givenRowFailures]) hadds
          exact ⟨_, htold, [], hlists, rfl⟩

/-- An index that answers is used as it is. -/
theorem tells_indexFor (layout : List String) :
    Tells (e.Told child) (e.indexFor position parent layout) (fun _ ds => ds = [])
      fun error ds => ds = [] ∧ Interrupts [iri] error := by
  have hR := e.bookkeeping_told child
  have hfresh : Tells (e.Told child) (e.freshIndex position parent layout) (fun _ ds => ds = [])
      fun error ds => ds = [] ∧ Interrupts [iri] error := by
    refine tells_bind hR (tells_buildIndex hposition hparent hsource hsubject layout) ?_
      fun _ _ => id
    rintro index _ rfl
    exact lists_bind_tells hR
      (lists_modify hR fun _ => RunState.adds_of_same rfl rfl rfl rfl rfl rfl rfl)
      (tells_pure hR rfl)
  intro s
  rw [indexFor_eq, Step.bind_apply, Step.get_apply]
  dsimp only
  cases (s.indexes.lookup parent.iri).filter (·.covers layout) with
  | some index =>
      have hthere : Tells (e.Told child) (pure index) (fun _ ds => ds = [])
          fun error ds => ds = [] ∧ Interrupts [iri] error := tells_pure hR rfl
      exact hthere s
  | none => exact hfresh s

end Parent

end Engine

end RdfMapping
