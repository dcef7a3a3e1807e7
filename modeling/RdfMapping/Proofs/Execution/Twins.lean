/-
Two engines that go the same way.

Engines with the same rules are twins if the rules cannot tell apart what their providers give:
sources open and fail on both sides together, the records that come are alike wherever a rule
looks, and the signals go up at the same time.  States of twins are alike if they differ in
nothing but what the providers have been asked for.  `Twins.contributions` says that twins that
set out from states that are alike end in the same way, in states that are alike.

What it means for sessions and for records to be alike is left to whoever has twins: it is one
relation for each, which the conditions on twins keep in step.  There is one rule for each way
to put steps together and one lemma for each step of the engine.
-/
import Mathlib.Data.List.Forall2
import RdfMapping.Proofs.Execution.Outcome
import RdfMapping.Proofs.Rules.Executable

namespace RdfMapping

/-! ### Steps that stay together -/

/-- Values that are related, or the same error. -/
inductive ExceptAlike {ε α β : Type} (V : α → β → Prop) : Except ε α → Except ε β → Prop
  | ok {a : α} {b : β} (h : V a b) : ExceptAlike V (.ok a) (.ok b)
  | error (failure : ε) : ExceptAlike V (.error failure) (.error failure)

theorem ExceptAlike.refl {ε α : Type} {V : α → α → Prop} (h : ∀ a, V a a) (x : Except ε α) :
    ExceptAlike V x x := by
  cases x with
  | ok a => exact .ok (h a)
  | error failure => exact .error failure

theorem ExceptAlike.exists_of_ok {ε α β : Type} {V : α → β → Prop} {a : α} {y : Except ε β}
    (h : ExceptAlike V (.ok a) y) : ∃ b, y = .ok b ∧ V a b := by
  cases h with
  | ok hvalue => exact ⟨_, rfl, hvalue⟩

/-- States that differ at most in the session, and there only as the relation allows. -/
structure RunState.Alike (R : Session → Session → Prop) (s s' : RunState) : Prop where
  session : R s.session s'.session
  rest : s' = { s with session := s'.session }

namespace Step

variable {R : Session → Session → Prop} {α β γ δ : Type}

/-- Results that are related, or the same failure, in states that are alike. -/
inductive Meets (R : Session → Session → Prop) (V : α → β → Prop) :
    EStateM.Result Failure RunState α → EStateM.Result Failure RunState β → Prop
  | ok {a : α} {b : β} {s s' : RunState} (value : V a b) (alike : s.Alike R s') :
      Meets R V (.ok a s) (.ok b s')
  | error (failure : Failure) {s s' : RunState} (alike : s.Alike R s') :
      Meets R V (.error failure s) (.error failure s')

/-- Two steps that come to the same from states that are alike. -/
def Together (R : Session → Session → Prop) (V : α → β → Prop) (step : Step α)
    (step' : Step β) : Prop :=
  ∀ s s', s.Alike R s' → Meets R V (step s) (step' s')

theorem together_pure {V : α → β → Prop} {a : α} {b : β} (h : V a b) :
    Together R V (pure a) (pure b) :=
  fun _ _ hs => .ok h hs

theorem together_throw {V : α → β → Prop} (failure : Failure) :
    Together R V (throw failure) (throw failure) :=
  fun _ _ hs => .error failure hs

theorem together_bind {V : α → β → Prop} {W : γ → δ → Prop} {x : Step α} {x' : Step β}
    {f : α → Step γ} {f' : β → Step δ} (hx : Together R V x x')
    (hf : ∀ a b, V a b → Together R W (f a) (f' b)) : Together R W (x >>= f) (x' >>= f') := by
  intro s s' hs
  have hfirst := hx s s' hs
  rw [bind_apply, bind_apply]
  revert hfirst
  generalize x s = r
  generalize x' s' = r'
  intro hfirst
  cases hfirst with
  | ok hvalue hnext => exact hf _ _ hvalue _ _ hnext
  | error failure hnext => exact .error failure hnext

/-- What comes first may give the same on both sides. -/
theorem together_then {W : γ → δ → Prop} {x x' : Step α} {f : α → Step γ} {f' : α → Step δ}
    (hx : Together R Eq x x') (hf : ∀ a, Together R W (f a) (f' a)) :
    Together R W (x >>= f) (x' >>= f') := by
  apply together_bind hx
  intro a b hab
  rw [hab]
  exact hf b

theorem together_get_bind {V : α → β → Prop} {f : RunState → Step α} {f' : RunState → Step β}
    (h : ∀ s s', s.Alike R s' → Together R V (f s) (f' s')) :
    Together R V (get >>= f) (get >>= f') :=
  fun s s' hs => h s s' hs s s' hs

/-- A change that neither looks at the session nor touches it. -/
theorem together_modify {f : RunState → RunState} (hsession : ∀ s, (f s).session = s.session)
    (hrest : ∀ s t, f { s with session := t } = { f s with session := t }) :
    Together R Eq (modify f) (modify f) := by
  intro s s' hs
  refine .ok rfl ⟨?_, ?_⟩
  · rw [hsession, hsession]
    exact hs.session
  · rw [hsession, ← hrest, ← hs.rest]

theorem together_forM {f f' : α → Step Unit} (as : List α)
    (h : ∀ a ∈ as, Together R Eq (f a) (f' a)) : Together R Eq (as.forM f) (as.forM f') := by
  induction as with
  | nil => exact together_pure rfl
  | cons a as ih =>
      rw [List.forM, List.forM]
      apply together_then (h a (by simp))
      intro _
      exact ih fun b hb => h b (by simp [hb])

theorem together_inSpan {V : α → β → Prop} {step : Step α} {step' : Step β} (span : Span)
    (h : Together R V step step') : Together R V (inSpan span step) (inSpan span step') := by
  intro s s' hs
  have houter : s'.span = s.span := by rw [hs.rest]
  have hentering : (s.entering span).Alike R (s'.entering span) := by
    refine ⟨hs.session, ?_⟩
    rw [hs.rest]
    rfl
  have hleaving : ∀ u u' : RunState, u.Alike R u' →
      RunState.Alike R { u with span := s.span } { u' with span := s'.span } := by
    intro u u' hu
    refine ⟨hu.session, ?_⟩
    rw [hu.rest, houter]
  have hinner := h _ _ hentering
  rw [inSpan_apply, inSpan_apply]
  revert hinner
  generalize step (s.entering span) = r
  generalize step' (s'.entering span) = r'
  intro hinner
  cases hinner with
  | ok hvalue hu => exact .ok hvalue (hleaving _ _ hu)
  | error failure hu => exact .error failure (hleaving _ _ hu)

theorem together_log (event : Event) : Together R Eq (log event) (log event) :=
  together_modify (fun _ => rfl) (fun _ _ => rfl)

theorem together_absorb (triplesMap : String) (record : Nat) (error : FunctionError) :
    Together R Eq (absorb triplesMap record error) (absorb triplesMap record error) :=
  together_then (together_log _) fun _ => together_modify (fun _ => rfl) (fun _ _ => rfl)

end Step

/-! ### Twins -/

/-- The term map of an object map that is one. -/
def ObjectMap.term? : ObjectMap → Option TermMap
  | .term map => some map
  | .parent _ => none

/-- The term maps of a predicate-object map. -/
def PredicateObjectMap.termMaps (p : PredicateObjectMap) : List TermMap :=
  p.predicateMaps ++ p.objectMaps.filterMap (·.term?) ++ p.graphMaps

/-- The term maps of a triples map. -/
def TriplesMap.termMaps (m : TriplesMap) : List TermMap :=
  (m.subjectMap.toList.flatMap fun s => s.termMap :: s.graphMaps) ++
    m.predicateObjectMaps.flatMap (·.termMaps)

theorem TriplesMap.mem_termMaps_subject {m : TriplesMap} {s : SubjectMap} {map : TermMap}
    (hs : m.subjectMap = some s) (hmap : map ∈ s.termMap :: s.graphMaps) : map ∈ m.termMaps := by
  unfold termMaps
  rw [hs]
  exact List.mem_append_left _ (by simpa using hmap)

theorem TriplesMap.mem_termMaps_statement {m : TriplesMap} {p : PredicateObjectMap}
    {map : TermMap} (hp : p ∈ m.predicateObjectMaps) (hmap : map ∈ p.termMaps) :
    map ∈ m.termMaps :=
  List.mem_append_right _ (List.mem_flatMap.mpr ⟨p, hp, hmap⟩)

namespace Engine

/-- Engines with the same rules, which cannot tell apart what the providers give. -/
structure Twins (e e' : Engine) (R : Session → Session → Prop) (V : Record → Record → Prop) :
    Prop where
  graph : e'.graph = e.graph
  /-- Term maps make the same of records that are alike. -/
  terms : ∀ m ∈ e.graph.triplesMaps, ∀ map ∈ m.termMaps, ∀ r r', V r r' → ∀ scope,
    e'.generator.evaluate map r' scope = e.generator.evaluate map r scope
  /-- References to parents find the same keys in them. -/
  keys : ∀ m ∈ e.graph.triplesMaps, ∀ p ∈ m.parents, ∀ r r', V r r' →
    r'.key? p.childReferences = r.key? p.childReferences ∧
      r'.key? p.parentReferences = r.key? p.parentReferences
  /-- Sources give items that are alike, in sessions that are alike, and the sessions stay so. -/
  opens : ∀ m ∈ e.graph.triplesMaps, ∀ source, m.logicalSource = some source → ∀ t t', R t t' →
    ExceptAlike (List.Forall₂ (ExceptAlike V)) (e.provider.openAfter t.opened source)
        (e'.provider.openAfter t'.opened source) ∧
      R { t with opened := t.opened ++ [source] } { t' with opened := t'.opened ++ [source] }
  receives : ∀ t t', R t t' → R (t.received e.provider) (t'.received e'.provider)
  /-- A signal that is up is heeded on both sides or on neither. -/
  signal : ∀ t t', R t t' → (e'.cancellable && t'.cancelled) = (e.cancellable && t.cancelled)

/-- The site with another record. -/
def Site.withRecord (site : Site) (record : Record) : Site := { site with record }

namespace Twins

open Step

variable {e e' : Engine} {R : Session → Session → Prop} {V : Record → Record → Prop} {α : Type}
variable (h : Twins e e' R V)

include h

/-! ### Sources -/

theorem openSource {m : TriplesMap} (hm : m ∈ e.graph.triplesMaps) {source : LogicalSource}
    (hsource : m.logicalSource = some source) (iri : String) :
    Together R (List.Forall₂ (ExceptAlike V)) (Step.openSource e.provider iri source)
      (Step.openSource e'.provider iri source) := by
  intro s s' hs
  obtain ⟨hgiven, hsession⟩ := h.opens m hm source hsource _ _ hs.session
  have hopening : (s.opening source).Alike R (s'.opening source) := by
    refine ⟨hsession, ?_⟩
    rw [hs.rest]
    rfl
  rw [openSource_apply, openSource_apply]
  revert hgiven
  generalize e.provider.openAfter s.session.opened source = given
  generalize e'.provider.openAfter s'.session.opened source = given'
  intro hgiven
  cases hgiven with
  | ok hitems => exact .ok hitems hopening
  | error fault => exact .error _ hopening

theorem receive : Together R Eq (Step.receive e.provider) (Step.receive e'.provider) := by
  intro s s' hs
  refine .ok rfl ⟨h.receives _ _ hs.session, ?_⟩
  rw [hs.rest]

theorem checkCancelled : Together R Eq e.checkCancelled e'.checkCancelled := by
  intro s s' hs
  rw [checkCancelled_apply, checkCancelled_apply, h.signal _ _ hs.session]
  by_cases hup : (e.cancellable && s.session.cancelled) = true
  · rw [if_pos hup, if_pos hup]
    exact .error _ hs
  · rw [if_neg hup, if_neg hup]
    exact .ok rfl hs

theorem scan (iri : String) {W : α → α → Prop} {visit visit' : α → Nat → Record → Step α}
    (hvisit : ∀ a b n r r', W a b → V r r' → Together R W (visit a n r) (visit' b n r'))
    {items items' : List Item} (hitems : List.Forall₂ (ExceptAlike V) items items') :
    ∀ n a b, W a b → Together R W (e.scan iri visit n a items) (e'.scan iri visit' n b items') := by
  induction hitems with
  | nil => intro n a b hab; exact together_pure hab
  | cons hitem _ ih =>
      intro n a b hab
      refine together_then h.receive fun _ => ?_
      refine together_then h.checkCancelled fun _ => ?_
      cases hitem with
      | error fault => exact together_throw _
      | ok hrecord =>
          exact together_bind (hvisit a b n _ _ hab hrecord) fun a b => ih (n + 1) a b

/-! ### Term maps -/

theorem evaluate {m : TriplesMap} (hm : m ∈ e.graph.triplesMaps) {map : TermMap}
    (hmap : map ∈ m.termMaps) {r r' : Record} (hr : V r r') (scope : String) :
    Together R Eq (e.evaluate map r scope) (e'.evaluate map r' scope) := by
  unfold Engine.evaluate
  rw [h.terms m hm map hmap r r' hr scope]
  exact together_then (together_forM _ fun _ _ => together_log _) fun _ => together_pure rfl

omit h in
theorem survive (site : Site) (r' : Record) (result : Except FunctionError (List Term)) :
    Together R Eq (survive site result) (Engine.survive (site.withRecord r') result) := by
  cases result with
  | ok terms => exact together_pure rfl
  | error error => exact together_then (together_absorb _ _ _) fun _ => together_pure rfl

section Site

variable {site : Site} (hm : site.triplesMap ∈ e.graph.triplesMaps) {r' : Record}
  (hr : V site.record r')

include hm hr

theorem termsAt {map : TermMap} (hmap : map ∈ site.triplesMap.termMaps) :
    Together R Eq (e.termsAt site map) (e'.termsAt (site.withRecord r') map) :=
  together_then (h.evaluate hm hmap hr _) fun result => survive site r' result

theorem allTermsAt {maps : List TermMap} (hmaps : ∀ map ∈ maps, map ∈ site.triplesMap.termMaps) :
    Together R Eq (e.allTermsAt site maps) (e'.allTermsAt (site.withRecord r') maps) := by
  induction maps with
  | nil => exact together_pure rfl
  | cons map maps ih =>
      refine together_then (h.termsAt hm hr (hmaps map (by simp))) fun _ => ?_
      refine together_then (ih fun map' hmap' => hmaps map' (by simp [hmap'])) fun _ => ?_
      exact together_pure rfl

theorem addGraphsAt (graphs : List (Option Term)) {maps : List TermMap}
    (hmaps : ∀ map ∈ maps, map ∈ site.triplesMap.termMaps) :
    Together R Eq (e.addGraphsAt site graphs maps)
      (e'.addGraphsAt (site.withRecord r') graphs maps) :=
  together_then (h.allTermsAt hm hr hmaps) fun _ => together_pure rfl

end Site

/-! ### Parents -/

omit h in
theorem subjectMapOf (m : TriplesMap) :
    Together R (fun a b => a = b ∧ m.subjectMap = some a) (subjectMapOf m)
      (Engine.subjectMapOf m) := by
  unfold Engine.subjectMapOf
  cases m.subjectMap with
  | none => exact together_throw _
  | some subjectMap => exact together_pure ⟨rfl, rfl⟩

omit h in
theorem sourceOf (m : TriplesMap) :
    Together R (fun a b => a = b ∧ m.logicalSource = some a) (sourceOf m)
      (Engine.sourceOf m) := by
  unfold Engine.sourceOf
  cases m.logicalSource with
  | none => exact together_throw _
  | some source => exact together_pure ⟨rfl, rfl⟩

/-- Rows with the same subjects for records that are alike. -/
def RowAlike (V : Record → Record → Prop) (row row' : ParentRow) : Prop :=
  V row.record row'.record ∧ row'.subjects = row.subjects

/-- Scans that have found rows that are alike. -/
def ScanAlike (V : Record → Record → Prop) (found found' : ParentScan) : Prop :=
  found'.records = found.records ∧ List.Forall₂ (RowAlike V) found.rows found'.rows

theorem addRow {parent : TriplesMap} (hm : parent ∈ e.graph.triplesMaps)
    {subjectMap : SubjectMap} (hsubject : parent.subjectMap = some subjectMap) (scope : String)
    {found found' : ParentScan} (n : Nat) {r r' : Record} (hfound : ScanAlike V found found')
    (hr : V r r') :
    Together R (ScanAlike V) (e.addRow parent subjectMap scope found n r)
      (e'.addRow parent subjectMap scope found' n r') := by
  obtain ⟨hrecords, hrows⟩ := hfound
  have hmap : subjectMap.termMap ∈ parent.termMaps :=
    TriplesMap.mem_termMaps_subject hsubject (by simp)
  unfold Engine.addRow
  rw [hrecords]
  refine together_then (h.evaluate hm hmap hr scope) fun result => ?_
  cases result with
  | error error =>
      refine together_then (together_log _) fun _ => ?_
      refine together_then (together_modify (fun _ => rfl) (fun _ _ => rfl)) fun _ => ?_
      exact together_pure ⟨rfl, hrows⟩
  | ok subjects =>
      cases subjects with
      | nil => exact together_pure ⟨rfl, hrows⟩
      | cons t ts => exact together_pure ⟨rfl, .cons ⟨hr, rfl⟩ hrows⟩

/-- Rows that are alike have the same index under layouts that find the same keys. -/
theorem ofRows_congr {layouts : List (List String)} {rows rows' : List ParentRow}
    (hrows : List.Forall₂ (RowAlike V) rows rows')
    (hlayouts : ∀ layout ∈ layouts, ∃ m ∈ e.graph.triplesMaps, ∃ p ∈ m.parents,
      p.parentReferences = layout) :
    ParentIndex.ofRows layouts rows' = ParentIndex.ofRows layouts rows := by
  unfold ParentIndex.ofRows
  refine List.map_congr_left fun layout hlayout => ?_
  obtain ⟨m, hm, p, hp, rfl⟩ := hlayouts layout hlayout
  congr 1
  induction hrows with
  | nil => rfl
  | cons hrow _ ih =>
      obtain ⟨hrecord, hsubjects⟩ := hrow
      unfold KeyIndex.ofRows at ih ⊢
      rw [List.foldr_cons, List.foldr_cons, ih, KeyIndex.insertRow, KeyIndex.insertRow,
        (h.keys m hm p hp _ _ hrecord).2, hsubjects]

theorem layoutsFor_eq (parent : String) (asked : List String) :
    e'.layoutsFor parent asked = e.layoutsFor parent asked := by
  unfold layoutsFor
  rw [h.graph]

theorem buildIndex (position : Nat) {parent : TriplesMap} (hparent : parent ∈ e.graph.triplesMaps)
    {child : TriplesMap} (hchild : child ∈ e.graph.triplesMaps) {r : RefObjectMap}
    (hr : r ∈ child.parents) :
    Together R Eq (e.buildIndex position parent r.parentReferences)
      (e'.buildIndex position parent r.parentReferences) := by
  refine together_inSpan _ ?_
  refine together_bind (sourceOf parent) ?_
  rintro source _ ⟨rfl, hsource⟩
  refine together_bind (subjectMapOf parent) ?_
  rintro subjectMap _ ⟨rfl, hsubject⟩
  dsimp only
  rw [h.layoutsFor_eq]
  refine together_bind (h.openSource hparent hsource parent.iri) fun items items' hitems => ?_
  refine together_bind (h.scan parent.iri (fun found found' n _ _ hfound hrecord =>
    h.addRow hparent hsubject _ n hfound hrecord) hitems 0 {} {} ⟨rfl, .nil⟩) ?_
  intro found found' hfound
  obtain ⟨hrecords, hrows⟩ := hfound
  rw [hrecords]
  refine together_then (together_log _) fun _ => together_pure ?_
  have exists_asking : ∀ {layout}, layout ∈ e.graph.keyLayouts parent.iri →
      ∃ m ∈ e.graph.triplesMaps, ∃ p ∈ m.parents, p.parentReferences = layout := by
    intro layout hlayout
    obtain ⟨m, hm, p, hp, -, hreferences⟩ := RuleGraph.mem_keyLayouts.mp hlayout
    exact ⟨m, hm, p, hp, hreferences⟩
  have hlayouts : ∀ layout ∈ e.layoutsFor parent.iri r.parentReferences,
      ∃ m ∈ e.graph.triplesMaps, ∃ p ∈ m.parents, p.parentReferences = layout := by
    intro layout hlayout
    unfold layoutsFor at hlayout
    dsimp only at hlayout
    split at hlayout
    · exact exists_asking hlayout
    · rcases List.mem_append.mp hlayout with hlayout | hasked
      · exact exists_asking hlayout
      · exact ⟨child, hchild, r, hr, (List.mem_singleton.mp hasked).symm⟩
  exact (h.ofRows_congr (List.forall₂_reverse_iff.mpr hrows) hlayouts).symm

theorem indexFor (position : Nat) {parent : TriplesMap} (hparent : parent ∈ e.graph.triplesMaps)
    {child : TriplesMap} (hchild : child ∈ e.graph.triplesMaps) {r : RefObjectMap}
    (hr : r ∈ child.parents) :
    Together R Eq (e.indexFor position parent r.parentReferences)
      (e'.indexFor position parent r.parentReferences) := by
  rw [indexFor_eq, indexFor_eq]
  refine together_get_bind fun s s' hs => ?_
  have hindexes : s'.indexes = s.indexes := by rw [hs.rest]
  rw [hindexes]
  cases (s.indexes.lookup parent.iri).filter (·.covers r.parentReferences) with
  | some index => exact together_pure rfl
  | none =>
      refine together_then (h.buildIndex position hparent hchild hr) fun index => ?_
      exact together_then (together_modify (fun _ => rfl) (fun _ _ => rfl)) fun _ =>
        together_pure rfl

/-- Both sides find the same parent, and it is one of the graph. -/
theorem parentOf (r : RefObjectMap) (child : TriplesMap) :
    Together R (fun a b => a = b ∧ a.2 ∈ e.graph.triplesMaps) (e.parentOf r child)
      (e'.parentOf r child) := by
  unfold Engine.parentOf
  rw [h.graph]
  cases e.graph.position? r.parent with
  | none => exact together_throw _
  | some position =>
      cases hparent : e.graph.get? r.parent with
      | none => exact together_throw _
      | some parent => exact together_pure ⟨rfl, List.mem_of_find?_eq_some hparent⟩

theorem resolve {child : TriplesMap} (hchild : child ∈ e.graph.triplesMaps) {r : RefObjectMap}
    (hr : r ∈ child.parents) {record record' : Record} (hrecord : V record record') :
    Together R Eq (e.resolve r child record) (e'.resolve r child record') := by
  refine together_bind (h.parentOf r child) ?_
  rintro ⟨position, parent⟩ _ ⟨rfl, hparent⟩
  dsimp only
  by_cases hsame : (!r.hasConditions && parent.logicalSource == child.logicalSource) = true
  · rw [if_pos hsame, if_pos hsame]
    refine together_bind (subjectMapOf parent) ?_
    rintro subjectMap _ ⟨rfl, hsubject⟩
    exact h.evaluate hparent (TriplesMap.mem_termMaps_subject hsubject (by simp)) hrecord _
  · rw [if_neg hsame, if_neg hsame, (h.keys child hchild r hr _ _ hrecord).1]
    cases record.key? r.childReferences with
    | none => exact together_pure rfl
    | some key =>
        exact together_then (h.indexFor position hparent hchild hr) fun _ => together_pure rfl

/-! ### Statements -/

section Site

variable {site : Site} (hm : site.triplesMap ∈ e.graph.triplesMaps) {r' : Record}
  (hr : V site.record r')

include hm hr

theorem allObjectsAt {p : PredicateObjectMap} (hp : p ∈ site.triplesMap.predicateObjectMaps)
    {maps : List ObjectMap} (hmaps : ∀ map ∈ maps, map ∈ p.objectMaps) :
    Together R Eq (e.allObjectsAt site maps) (e'.allObjectsAt (site.withRecord r') maps) := by
  induction maps with
  | nil => exact together_pure rfl
  | cons map maps ih =>
      have hfirst : Together R Eq (e.objectsAt site map)
          (e'.objectsAt (site.withRecord r') map) := by
        cases map with
        | term map =>
            apply h.termsAt hm hr
            apply TriplesMap.mem_termMaps_statement hp
            have hobject : map ∈ p.objectMaps.filterMap (·.term?) :=
              List.mem_filterMap.mpr ⟨.term map, hmaps _ (by simp), rfl⟩
            exact List.mem_append_left _ (List.mem_append_right _ hobject)
        | parent r =>
            have hknown := RuleGraph.mem_parents hp (hmaps (.parent r) (by simp))
            exact together_then (h.resolve hm hknown hr) fun result => survive site r' result
      refine together_then hfirst fun _ => ?_
      refine together_then (ih fun map' hmap' => hmaps map' (by simp [hmap'])) fun _ => ?_
      exact together_pure rfl

theorem statementsAt (subjectMap : SubjectMap) (subjects : List Term)
    (graphs : List (Option Term)) {p : PredicateObjectMap}
    (hp : p ∈ site.triplesMap.predicateObjectMaps) :
    Together R Eq (e.statementsAt site subjectMap subjects graphs p)
      (e'.statementsAt (site.withRecord r') subjectMap subjects graphs p) := by
  have hmaps : ∀ map ∈ p.termMaps, map ∈ site.triplesMap.termMaps := fun map hmap =>
    TriplesMap.mem_termMaps_statement hp hmap
  refine together_then (h.allTermsAt hm hr fun map hmap =>
    hmaps map (by simp [PredicateObjectMap.termMaps, hmap])) fun predicates => ?_
  by_cases hpredicates : predicates.isEmpty = true
  · rw [if_pos hpredicates, if_pos hpredicates]
    exact together_pure rfl
  · rw [if_neg hpredicates, if_neg hpredicates]
    refine together_then (h.allObjectsAt hm hr hp fun _ hmap => hmap) fun objects => ?_
    by_cases hobjects : objects.isEmpty = true
    · rw [if_pos hobjects, if_pos hobjects]
      exact together_pure rfl
    · rw [if_neg hobjects, if_neg hobjects]
      refine together_then (h.addGraphsAt hm hr graphs fun map hmap =>
        hmaps map (by simp [PredicateObjectMap.termMaps, hmap])) fun all => ?_
      dsimp only
      split
      · exact together_pure rfl
      · exact together_modify (fun _ => rfl) (fun _ _ => rfl)

theorem describe {subjectMap : SubjectMap}
    (hsubject : site.triplesMap.subjectMap = some subjectMap) (subjects : List Term) :
    Together R Eq (e.describe site subjectMap subjects)
      (e'.describe (site.withRecord r') subjectMap subjects) := by
  refine together_then (h.addGraphsAt hm hr [] fun map hmap =>
    TriplesMap.mem_termMaps_subject hsubject (by simp [hmap])) fun graphs => ?_
  refine together_then (together_modify (fun _ => rfl) (fun _ _ => rfl)) fun _ => ?_
  exact together_forM _ fun p hp => h.statementsAt hm hr subjectMap subjects graphs hp

end Site

/-! ### Triples maps -/

theorem visitRecord (policy : SubjectErrorPolicy) {m : TriplesMap}
    (hm : m ∈ e.graph.triplesMaps) (scope : String) {subjectMap : SubjectMap}
    (hsubject : m.subjectMap = some subjectMap) (n : Nat) {r r' : Record} (hr : V r r') :
    Together R Eq (e.visitRecord policy m scope subjectMap n r)
      (e'.visitRecord policy m scope subjectMap n r') := by
  have hmap : subjectMap.termMap ∈ m.termMaps :=
    TriplesMap.mem_termMaps_subject hsubject (by simp)
  refine together_then (together_modify (fun _ => rfl) (fun _ _ => rfl)) fun _ => ?_
  refine together_then (h.evaluate hm hmap hr scope) fun result => ?_
  cases result with
  | error error =>
      cases policy with
      | skipRecord =>
          exact together_then (together_absorb _ _ _) fun _ =>
            together_modify (fun _ => rfl) (fun _ _ => rfl)
      | abortTriplesMap => exact together_throw _
  | ok subjects =>
      cases subjects with
      | nil =>
          exact together_then (together_log _) fun _ =>
            together_modify (fun _ => rfl) (fun _ _ => rfl)
      | cons t ts =>
          show Together R Eq (e.describe ⟨m, scope, n, r⟩ subjectMap (t :: ts))
            (e'.describe (Site.withRecord ⟨m, scope, n, r⟩ r') subjectMap (t :: ts))
          exact h.describe hm hr hsubject (t :: ts)

theorem runTriplesMap (policy : SubjectErrorPolicy) (position : Nat) {m : TriplesMap}
    (hm : m ∈ e.graph.triplesMaps) :
    Together R Eq (e.runTriplesMap policy position m) (e'.runTriplesMap policy position m) := by
  refine together_inSpan _ ?_
  refine together_bind (sourceOf m) ?_
  rintro source _ ⟨rfl, hsource⟩
  refine together_bind (subjectMapOf m) ?_
  rintro subjectMap _ ⟨rfl, hsubject⟩
  refine together_bind (h.openSource hm hsource m.iri) fun items items' hitems => ?_
  refine together_then (h.scan m.iri (fun _ _ n _ _ _ hrecord =>
    h.visitRecord policy hm _ hsubject n hrecord) hitems 0 () () rfl) fun _ => ?_
  refine together_get_bind fun s s' hs => ?_
  have hprogress : s'.progress = s.progress := by rw [hs.rest]
  rw [hprogress]
  exact together_log _

/-- Twins leave the same behind, under configurations that have the same policies. -/
theorem contribution {c c' : Config}
    (hsubjects : c'.subjectFunctionErrors = c.subjectFunctionErrors)
    (hsources : c'.sourceErrors = c.sourceErrors) (position : Nat) {m : TriplesMap}
    (hm : m ∈ e.graph.triplesMaps) :
    Together R Eq (e.contribution c position m) (e'.contribution c' position m) := by
  have hsurvives : c'.survives = c.survives := by
    funext error
    cases error <;> simp [Config.survives, hsubjects, hsources]
  intro s s' hs
  have hclean : RunState.Alike R { s with progress := {} } { s' with progress := {} } := by
    refine ⟨hs.session, ?_⟩
    rw [hs.rest]
  have hrun := h.runTriplesMap c.subjectFunctionErrors position hm _ _ hclean
  rw [contribution_eq, contribution_eq, hsubjects, hsurvives]
  revert hrun
  generalize e.runTriplesMap c.subjectFunctionErrors position m { s with progress := {} } = r
  generalize e'.runTriplesMap c.subjectFunctionErrors position m { s' with progress := {} } = r'
  intro hrun
  cases hrun with
  | @ok _ _ u u' _ hu =>
      have hprogress : u'.progress = u.progress := by rw [hu.rest]
      have hnoted : u'.noted = u.noted := by rw [hu.rest]; rfl
      dsimp only
      rw [hprogress, hnoted]
      refine .ok rfl ⟨hu.session, ?_⟩
      rw [hu.rest]
  | @error failure u u' hu =>
      have hprogress : u'.progress = u.progress := by rw [hu.rest]
      have hnoted : u'.noted = u.noted := by rw [hu.rest]; rfl
      dsimp only
      rw [hprogress, hnoted]
      split
      · refine .ok rfl ⟨hu.session, ?_⟩
        rw [hu.rest]
      · refine .error failure ⟨hu.session, ?_⟩
        rw [hu.rest]

/-- **Twins go the same way**: whatever triples maps are executed, they end in the same way and
leave the same behind. -/
theorem contributions {c c' : Config}
    (hsubjects : c'.subjectFunctionErrors = c.subjectFunctionErrors)
    (hsources : c'.sourceErrors = c.sourceErrors) {selected : List (Nat × TriplesMap)}
    (hselected : ∀ entry ∈ selected, entry.2 ∈ e.graph.triplesMaps) :
    Together R Eq (e.contributions c selected) (e'.contributions c' selected) := by
  induction selected with
  | nil => exact together_pure rfl
  | cons entry selected ih =>
      obtain ⟨position, m⟩ := entry
      have hm : m ∈ e.graph.triplesMaps := hselected (position, m) (by simp)
      refine together_then (h.contribution hsubjects hsources position hm) fun first => ?_
      refine together_then (ih fun other hother => hselected other (by simp [hother]))
        fun rest => ?_
      exact together_pure rfl

end Twins

end Engine

end RdfMapping
