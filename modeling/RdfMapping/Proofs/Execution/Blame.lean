/-
What failures and diagnostics are about.

A failure that is survived ends up in the report as a triples map, a position and an error.
`Names` says that such a pair leads to the item that is to blame: the source of the triples
map was opened, the item stood at this position, and the error is what came of processing
it.  Nothing is asked of the provider, which may give something else at every opening, so an
item is always one of a particular opening in the course of the run.

`Proceeds` is what can be said of any step inside a triples map, whatever state it is taken
in.  The session only moves forward, the diagnostics that are added name the records whose
functions failed, and if the step fails then for one of the three causes of `Cause`: the
signal was raised, a source could not be read, or a subject could not be made under the
policy that gives up a triples map for that.  In a valid rule graph there is no other cause.
-/
import RdfMapping.Proofs.Execution.Steps
import RdfMapping.Proofs.Rules.Selection

namespace RdfMapping

/-! ### Sessions only move forward -/

/-- The session may have become the other one. -/
structure Session.Before (t u : Session) : Prop where
  opened : t.opened <+: u.opened
  yielded : t.yielded ≤ u.yielded
  cancelled : t.cancelled = true → u.cancelled = true

theorem Session.Before.refl (t : Session) : t.Before t :=
  ⟨List.prefix_refl _, Nat.le_refl _, id⟩

theorem Session.Before.trans {t u v : Session} (htu : t.Before u) (huv : u.Before v) :
    t.Before v :=
  ⟨htu.opened.trans huv.opened, Nat.le_trans htu.yielded huv.yielded,
    fun h => huv.cancelled (htu.cancelled h)⟩

/-! ### Items and the errors that they cause -/

/-- The term maps that are evaluated for a record of the triples map at a position, each with
its scope.  A parent is asked for its subject only where it reads the same records. -/
inductive RuleGraph.Evaluates (g : RuleGraph) (position : Nat) (m : TriplesMap) :
    TermMap → String → Prop
  | subject {subjectMap : SubjectMap} (h : m.subjectMap = some subjectMap) :
      Evaluates g position m subjectMap.termMap (blankScope position)
  | subjectGraph {subjectMap : SubjectMap} {map : TermMap} (h : m.subjectMap = some subjectMap)
      (hmap : map ∈ subjectMap.graphMaps) : Evaluates g position m map (blankScope position)
  | predicate {p : PredicateObjectMap} {map : TermMap} (hp : p ∈ m.predicateObjectMaps)
      (hmap : map ∈ p.predicateMaps) : Evaluates g position m map (blankScope position)
  | object {p : PredicateObjectMap} {map : TermMap} (hp : p ∈ m.predicateObjectMaps)
      (hmap : .term map ∈ p.objectMaps) : Evaluates g position m map (blankScope position)
  | graph {p : PredicateObjectMap} {map : TermMap} (hp : p ∈ m.predicateObjectMaps)
      (hmap : map ∈ p.graphMaps) : Evaluates g position m map (blankScope position)
  | parent {r : RefObjectMap} {other : Nat} {parent : TriplesMap} {subjectMap : SubjectMap}
      (hr : r ∈ m.parents) (hother : g.position? r.parent = some other)
      (hparent : g.get? r.parent = some parent) (hconditions : r.hasConditions = false)
      (hsame : parent.logicalSource = m.logicalSource)
      (hsubject : parent.subjectMap = some subjectMap) :
      Evaluates g position m subjectMap.termMap (blankScope other)

namespace Engine

/-- Between two sessions the source of a triples map was opened and had the item at a
position. -/
def Delivers (e : Engine) (start t : Session) (m : TriplesMap) (n : Nat) (item : Item) : Prop :=
  ∃ source before items, m.logicalSource = some source ∧ start.opened <+: before ∧
    before ++ [source] <+: t.opened ∧ e.provider.openAfter before source = .ok items ∧
    items[n]? = some item

/-- A function fails for a record of the triples map at a position. -/
def Fails (e : Engine) (position : Nat) (m : TriplesMap) (record : Record)
    (error : FunctionError) : Prop :=
  ∃ map scope, e.graph.Evaluates position m map scope ∧
    e.generator.terms map record scope = .error error

/-- Processing an item of a triples map raises the error. -/
inductive Raises (e : Engine) (position : Nat) (m : TriplesMap) (n : Nat) :
    Item → Error → Prop
  | unreadable (fault : SourceError) :
      Raises e position m n (.error fault) (.source m.iri (some n) fault)
  | failing {record : Record} {error : FunctionError} (h : e.Fails position m record error) :
      Raises e position m n (.ok record) (.function error)

/-- The identity and the position lead to an item whose processing raised the error. -/
def Names (e : Engine) (start t : Session) (iri : String) (n : Nat) (error : Error) : Prop :=
  ∃ position m item, e.graph.triplesMaps[position]? = some m ∧ m.iri = iri ∧
    e.Delivers start t m n item ∧ e.Raises position m n item error

/-- The diagnostic is about a function that failed for the record that it names. -/
def Notes (e : Engine) (start t : Session) (d : Diagnostic) : Prop :=
  ∃ n error, d.record = some n ∧ d.error = .function error ∧
    e.Names start t d.triplesMap n d.error

/-- Why executing a triples map may fail.  A source that cannot be read is its own or that of a
parent, and the position is one in that source. -/
inductive Cause (e : Engine) (start : Session) (policy : SubjectErrorPolicy) (m : TriplesMap)
    (t : Session) : Failure → Prop
  | cancelled (hheeded : e.cancellable = true) (hraised : t.cancelled = true) :
      Cause e start policy m t ⟨none, .cancelled⟩
  | source {iri : String} {record : Option Nat} {fault : SourceError}
      (hiri : iri = m.iri ∨ ∃ r ∈ m.parents, r.parent = iri)
      (hnames : ∀ n, record = some n → e.Names start t iri n (.source iri record fault)) :
      Cause e start policy m t ⟨record, .source iri record fault⟩
  | subject {n : Nat} {error : FunctionError} (hpolicy : policy = .abortTriplesMap)
      (hnames : e.Names start t m.iri n (.function error)) :
      Cause e start policy m t ⟨some n, .function error⟩

variable {e : Engine} {start t u : Session} {policy : SubjectErrorPolicy} {m : TriplesMap}

theorem Delivers.mono {n : Nat} {item : Item} (h : e.Delivers start t m n item)
    (htu : t.Before u) : e.Delivers start u m n item := by
  obtain ⟨source, before, items, hsource, hstart, hopened, hitems, hitem⟩ := h
  exact ⟨source, before, items, hsource, hstart, hopened.trans htu.opened, hitems, hitem⟩

theorem Names.mono {iri : String} {n : Nat} {error : Error} (h : e.Names start t iri n error)
    (htu : t.Before u) : e.Names start u iri n error := by
  obtain ⟨position, m, item, hget, hiri, hdelivers, hraises⟩ := h
  exact ⟨position, m, item, hget, hiri, hdelivers.mono htu, hraises⟩

theorem Notes.mono {d : Diagnostic} (h : e.Notes start t d) (htu : t.Before u) :
    e.Notes start u d := by
  obtain ⟨n, error, hrecord, herror, hnames⟩ := h
  exact ⟨n, error, hrecord, herror, hnames.mono htu⟩

theorem Cause.mono {failure : Failure} (h : e.Cause start policy m t failure)
    (htu : t.Before u) : e.Cause start policy m u failure := by
  cases h with
  | cancelled hheeded hraised => exact .cancelled hheeded (htu.cancelled hraised)
  | source hiri hnames => exact .source hiri fun n hn => (hnames n hn).mono htu
  | subject hpolicy hnames => exact .subject hpolicy (hnames.mono htu)

/-! ### Steps -/

/-- The state moved forward, and every diagnostic in it is an old one or a note. -/
structure Evolves (e : Engine) (start : Session) (s s' : RunState) : Prop where
  session : s.session.Before s'.session
  own : ∀ d ∈ s'.progress.diagnostics,
    d ∈ s.progress.diagnostics ∨ e.Notes start s'.session d
  parents : ∀ d ∈ s'.parentDiagnostics,
    d ∈ s.parentDiagnostics ∨ e.Notes start s'.session d

theorem Evolves.trans {s s₁ s₂ : RunState} (h : e.Evolves start s s₁)
    (h' : e.Evolves start s₁ s₂) : e.Evolves start s s₂ := by
  refine ⟨h.session.trans h'.session, ?_, ?_⟩
  · intro d hd
    rcases h'.own d hd with hold | hnew
    · exact (h.own d hold).imp_right fun hnote => hnote.mono h'.session
    · exact .inr hnew
  · intro d hd
    rcases h'.parents d hd with hold | hnew
    · exact (h.parents d hold).imp_right fun hnote => hnote.mono h'.session
    · exact .inr hnew

/-- A change of the state that adds no diagnostic. -/
theorem evolves_of_same {s s' : RunState} (hsession : s.session.Before s'.session)
    (hown : s'.progress.diagnostics = s.progress.diagnostics)
    (hparents : s'.parentDiagnostics = s.parentDiagnostics) : e.Evolves start s s' := by
  refine ⟨hsession, ?_, ?_⟩
  · intro d hd
    exact .inl (hown ▸ hd)
  · intro d hd
    exact .inl (hparents ▸ hd)

/-- Taken at any time after the session `t` of a run that set out from `start`, the step only
moves the state forward; a value it gives is as the predicate says, and a failure has a
cause. -/
def Proceeds {α : Type} (e : Engine) (start : Session) (policy : SubjectErrorPolicy)
    (m : TriplesMap) (t : Session) (step : Step α) (post : α → Session → Prop) : Prop :=
  ∀ s, start.Before s.session → t.Before s.session → match step s with
    | .ok a s' => e.Evolves start s s' ∧ post a s'.session
    | .error failure s' => e.Evolves start s s' ∧ e.Cause start policy m s'.session failure

variable {α β : Type}

/-! ### Rules -/

theorem evolves_refl (s : RunState) : e.Evolves start s s :=
  evolves_of_same (.refl _) rfl rfl

theorem proceeds_pure {post : α → Session → Prop} {a : α} (h : ∀ u, t.Before u → post a u) :
    e.Proceeds start policy m t (pure a) post := by
  intro s _ ht
  exact ⟨evolves_refl s, h _ ht⟩

theorem proceeds_throw {post : α → Session → Prop} {failure : Failure}
    (h : ∀ u, t.Before u → e.Cause start policy m u failure) :
    e.Proceeds start policy m t (throw failure : Step α) post := by
  intro s _ ht
  exact ⟨evolves_refl s, h _ ht⟩

theorem Proceeds.mono {step : Step α} {post weaker : α → Session → Prop}
    (h : e.Proceeds start policy m t step post) (hweaker : ∀ a u, post a u → weaker a u) :
    e.Proceeds start policy m t step weaker := by
  intro s hs ht
  have hstep := h s hs ht
  cases hrun : step s with
  | ok a s' => rw [hrun] at hstep; exact ⟨hstep.1, hweaker a _ hstep.2⟩
  | error failure s' => rw [hrun] at hstep; exact hstep

/-- The second step may rely on the session that the first one left. -/
theorem proceeds_bind {x : Step α} {f : α → Step β} {post : α → Session → Prop}
    {post' : β → Session → Prop} (hx : e.Proceeds start policy m t x post)
    (hf : ∀ a u, t.Before u → post a u → e.Proceeds start policy m u (f a) post') :
    e.Proceeds start policy m t (x >>= f) post' := by
  intro s hs ht
  have hfirst := hx s hs ht
  rw [Step.bind_apply]
  cases hrun : x s with
  | error failure s₁ => rw [hrun] at hfirst; exact hfirst
  | ok a s₁ =>
      rw [hrun] at hfirst
      obtain ⟨hevolves, hpost⟩ := hfirst
      have hsecond := hf a s₁.session (ht.trans hevolves.session) hpost s₁
        (hs.trans hevolves.session) (.refl _)
      dsimp only
      cases hrun' : f a s₁ with
      | ok b s₂ => rw [hrun'] at hsecond; exact ⟨hevolves.trans hsecond.1, hsecond.2⟩
      | error failure s₂ => rw [hrun'] at hsecond; exact ⟨hevolves.trans hsecond.1, hsecond.2⟩

/-- What was read of the state is the state of the moment. -/
theorem proceeds_get_bind {f : RunState → Step α} {post : α → Session → Prop}
    (hf : ∀ s, start.Before s.session → t.Before s.session →
      e.Proceeds start policy m s.session (f s) post) :
    e.Proceeds start policy m t (get >>= f) post :=
  fun s hs ht => hf s hs ht s hs (.refl _)

theorem proceeds_modify {f : RunState → RunState}
    (h : ∀ s, t.Before s.session → e.Evolves start s (f s)) :
    e.Proceeds start policy m t (modify f) fun _ _ => True :=
  fun s _ ht => ⟨h s ht, trivial⟩

theorem proceeds_forM {f : α → Step Unit} {as : List α}
    (h : ∀ a ∈ as, ∀ u, t.Before u → e.Proceeds start policy m u (f a) fun _ _ => True) :
    e.Proceeds start policy m t (as.forM f) fun _ _ => True := by
  induction as generalizing t with
  | nil => exact proceeds_pure fun _ _ => trivial
  | cons a as ih =>
      rw [List.forM]
      refine proceeds_bind (h a (by simp) t (.refl t)) fun _ u htu _ => ih ?_
      intro b hb v huv
      exact h b (by simp [hb]) v (htu.trans huv)

theorem proceeds_inSpan {step : Step α} (span : Span) {post : α → Session → Prop}
    (h : e.Proceeds start policy m t step post) :
    e.Proceeds start policy m t (Step.inSpan span step) post := by
  intro s hs ht
  have hstep := h (s.entering span) hs ht
  rw [Step.inSpan_apply]
  cases hrun : step (s.entering span) with
  | ok a s' =>
      rw [hrun] at hstep
      exact ⟨⟨hstep.1.session, hstep.1.own, hstep.1.parents⟩, hstep.2⟩
  | error failure s' =>
      rw [hrun] at hstep
      exact ⟨⟨hstep.1.session, hstep.1.own, hstep.1.parents⟩, hstep.2⟩

/-! ### Elementary steps -/

theorem proceeds_log (event : Event) :
    e.Proceeds start policy m t (Step.log event) fun _ _ => True :=
  proceeds_modify fun _ _ => evolves_of_same (.refl _) rfl rfl

theorem proceeds_countRecord : e.Proceeds start policy m t Step.countRecord fun _ _ => True :=
  proceeds_modify fun _ _ => evolves_of_same (.refl _) rfl rfl

theorem proceeds_countSkipped : e.Proceeds start policy m t Step.countSkipped fun _ _ => True :=
  proceeds_modify fun _ _ => evolves_of_same (.refl _) rfl rfl

theorem proceeds_emit (quads : List Quad) :
    e.Proceeds start policy m t (Step.emit quads) fun _ _ => True :=
  proceeds_modify fun _ _ => evolves_of_same (.refl _) rfl rfl

theorem proceeds_receive (provider : Provider) :
    e.Proceeds start policy m t (Step.receive provider) fun _ _ => True := by
  refine proceeds_modify fun s _ => evolves_of_same ⟨List.prefix_refl _, ?_, ?_⟩ rfl rfl
  · exact Nat.le_succ _
  · intro h
    show (s.session.cancelled || provider.cancelsAt (s.session.yielded + 1)) = true
    rw [h, Bool.true_or]

theorem proceeds_checkCancelled :
    e.Proceeds start policy m t e.checkCancelled fun _ _ => True := by
  refine proceeds_get_bind fun s _ _ => ?_
  by_cases hstop : (e.cancellable && s.session.cancelled) = true
  · rw [if_pos hstop]
    obtain ⟨hheeded, hraised⟩ := Bool.and_eq_true_iff.mp hstop
    exact proceeds_throw fun u hu => .cancelled hheeded (hu.cancelled hraised)
  · rw [if_neg hstop]
    exact proceeds_pure fun _ _ => trivial

/-- Opening a source gives the items that it has after what was opened before. -/
theorem proceeds_openSource {iri : String} {source : LogicalSource}
    (hiri : iri = m.iri ∨ ∃ r ∈ m.parents, r.parent = iri) :
    e.Proceeds start policy m t (Step.openSource e.provider iri source) fun items u =>
      ∃ before, start.opened <+: before ∧ u.opened = before ++ [source] ∧
        e.provider.openAfter before source = .ok items := by
  intro s hs _
  have hevolves : e.Evolves start s (s.opening source) :=
    evolves_of_same ⟨List.prefix_append _ _, Nat.le_refl _, id⟩ rfl rfl
  rw [Step.openSource_apply]
  cases hitems : e.provider.openAfter s.session.opened source with
  | ok items => exact ⟨hevolves, s.session.opened, hs.opened, rfl, hitems⟩
  | error fault => exact ⟨hevolves, .source hiri nofun⟩

/-- The items of an opened source have been delivered. -/
theorem delivers_of_opened {p : TriplesMap} {source : LogicalSource} {items : List Item}
    (hsource : p.logicalSource = some source)
    (h : ∃ before, start.opened <+: before ∧ u.opened = before ++ [source] ∧
      e.provider.openAfter before source = .ok items) :
    ∀ i item, items[i]? = some item → e.Delivers start u p (0 + i) item := by
  obtain ⟨before, hstart, hopened, hitems⟩ := h
  intro i item hitem
  rw [Nat.zero_add]
  exact ⟨source, before, items, hsource, hstart, hopened ▸ List.prefix_refl _, hitems, hitem⟩

theorem proceeds_evaluate (map : TermMap) (record : Record) (scope : String) :
    e.Proceeds start policy m t (e.evaluate map record scope) fun result _ =>
      result = e.generator.terms map record scope := by
  refine proceeds_bind (proceeds_forM fun _ _ _ _ => proceeds_log _) fun _ _ _ _ => ?_
  exact proceeds_pure fun _ _ => rfl

/-- Going through the items of a source, all of which were handed out by one opening. -/
theorem proceeds_scan {p : TriplesMap} {position : Nat} {items : List Item}
    {visit : α → Nat → Record → Step α} {post : α → Prop}
    (hget : e.graph.triplesMaps[position]? = some p)
    (hp : p.iri = m.iri ∨ ∃ r ∈ m.parents, r.parent = p.iri)
    (hvisit : ∀ a n record u, e.Delivers start u p n (.ok record) → post a →
      e.Proceeds start policy m u (visit a n record) fun a _ => post a)
    (n : Nat) (a : α) (hitems : ∀ i item, items[i]? = some item → e.Delivers start t p (n + i) item)
    (ha : post a) :
    e.Proceeds start policy m t (e.scan p.iri visit n a items) fun a _ => post a := by
  induction items generalizing n a t with
  | nil => exact proceeds_pure fun _ _ => ha
  | cons item items ih =>
      have hfirst : e.Delivers start t p n item := hitems 0 item rfl
      refine proceeds_bind (proceeds_receive _) fun _ u htu _ => ?_
      refine proceeds_bind proceeds_checkCancelled fun _ v huv _ => ?_
      have hitem : e.Delivers start v p n item := hfirst.mono (htu.trans huv)
      cases item with
      | error fault =>
          refine proceeds_throw fun w hvw => .source hp ?_
          rintro k ⟨⟩
          exact ⟨position, p, _, hget, rfl, hitem.mono hvw, .unreadable fault⟩
      | ok record =>
          refine proceeds_bind (hvisit a n record v hitem ha) fun b w hvw hb => ?_
          refine ih (n + 1) b ?_ hb
          intro i other hother
          have hlater := hitems (i + 1) other hother
          rw [show n + (i + 1) = n + 1 + i by omega] at hlater
          exact hlater.mono (htu.trans (huv.trans hvw))

end Engine

end RdfMapping
