/-
Invariants of a run, whatever the provider does.

`Step.Keeps I step post` says that a step leaves the invariant `I` in place, whether it
ends in a value or in a failure, and that `post` is true of the value.  Unlike
`Engine.Performs` it does not say what a step comes to, and it needs nothing of the
provider: sources may change from one opening to the next and a cancellation may come at
any time.

The rules put the judgement together along the structure of a step.  The second half is
about invariants that only look at the indexes and the collected quads; for those the
steps that log, count, open and receive are settled once and for all.
-/
import RdfMapping.Proofs.Execution.Steps

namespace RdfMapping

/-- Replacing what is kept under a name changes nothing under other names. -/
theorem lookup_replace {β : Type} (l : List (String × β)) (name n : String) (b : β) :
    ((name, b) :: l.filter fun p => p.1 != name).lookup n
      = if n = name then some b else l.lookup n := by
  rw [lookup_cons_eq_ite]
  by_cases hn : n = name
  · rw [if_pos hn, if_pos hn]
  · rw [if_neg hn, if_neg hn]
    induction l with
    | nil => rfl
    | cons p l ih =>
        obtain ⟨m, v⟩ := p
        rw [List.filter_cons, lookup_cons_eq_ite]
        by_cases hm : m = name
        · have hne : n ≠ m := fun h => hn (h.trans hm)
          rw [if_neg (by simpa using hm), ih, if_neg hne]
        · rw [if_pos (by simpa using hm), lookup_cons_eq_ite, ih]

namespace Step

/-- The step keeps the invariant, and a value it gives is as the second predicate says. -/
def Keeps {α : Type} (I : RunState → Prop) (step : Step α) (post : α → Prop) : Prop :=
  ∀ s, I s → match step s with
    | .ok a s' => I s' ∧ post a
    | .error _ s' => I s'

variable {I : RunState → Prop} {α β : Type}

/-! ### Rules -/

theorem keeps_pure {post : α → Prop} {a : α} (h : post a) : Keeps I (pure a) post :=
  fun _ hs => ⟨hs, h⟩

theorem keeps_throw {post : α → Prop} (failure : Failure) :
    Keeps I (throw failure : Step α) post :=
  fun _ hs => hs

theorem Keeps.mono {step : Step α} {post weaker : α → Prop} (h : Keeps I step post)
    (hweaker : ∀ a, post a → weaker a) : Keeps I step weaker := by
  intro s hs
  have hstep := h s hs
  cases hrun : step s with
  | ok a s' => rw [hrun] at hstep; exact ⟨hstep.1, hweaker a hstep.2⟩
  | error failure s' => rw [hrun] at hstep; exact hstep

theorem keeps_bind {x : Step α} {f : α → Step β} {post : α → Prop} {post' : β → Prop}
    (hx : Keeps I x post) (hf : ∀ a, post a → Keeps I (f a) post') :
    Keeps I (x >>= f) post' := by
  intro s hs
  have hstep := hx s hs
  rw [bind_apply]
  cases hrun : x s with
  | ok a s' => rw [hrun] at hstep; exact hf a hstep.2 s' hstep.1
  | error failure s' => rw [hrun] at hstep; exact hstep

/-- What was read of the state may be taken to satisfy the invariant. -/
theorem keeps_get_bind {f : RunState → Step α} {post : α → Prop}
    (hf : ∀ s, I s → Keeps I (f s) post) : Keeps I (get >>= f) post :=
  fun s hs => hf s hs s hs

theorem keeps_modify {f : RunState → RunState} (h : ∀ s, I s → I (f s)) :
    Keeps I (modify f) fun _ => True :=
  fun s hs => ⟨h s hs, trivial⟩

theorem keeps_forM {f : α → Step Unit} {as : List α}
    (h : ∀ a ∈ as, Keeps I (f a) fun _ => True) : Keeps I (as.forM f) fun _ => True := by
  induction as with
  | nil => exact keeps_pure trivial
  | cons a as ih =>
      rw [List.forM]
      exact keeps_bind (h a (by simp)) fun _ _ => ih fun b hb => h b (by simp [hb])

theorem keeps_attempt {step : Step α} {post : α → Prop} (h : Keeps I step post) :
    Keeps I (attempt step) fun outcome => ∀ a, outcome = .ok a → post a := by
  intro s hs
  have hstep := h s hs
  rw [attempt]
  cases hrun : step s with
  | ok a s' =>
      rw [hrun] at hstep
      refine ⟨hstep.1, ?_⟩
      rintro a' ⟨⟩
      exact hstep.2
  | error failure s' =>
      rw [hrun] at hstep
      refine ⟨hstep, ?_⟩
      rintro a' ⟨⟩

/-! ### Invariants of indexes and quads -/

/-- Whether the invariant holds can be seen from the indexes and the collected quads. -/
def OfContents (I : RunState → Prop) : Prop :=
  ∀ s s', s'.indexes = s.indexes → s'.progress.quads = s.progress.quads → I s → I s'

section OfContents

variable (hI : OfContents I)

include hI

theorem keeps_modify_of_same {f : RunState → RunState} (hindexes : ∀ s, (f s).indexes = s.indexes)
    (hquads : ∀ s, (f s).progress.quads = s.progress.quads) :
    Keeps I (modify f) fun _ => True :=
  keeps_modify fun s hs => hI s (f s) (hindexes s) (hquads s) hs

theorem keeps_inSpan {step : Step α} (span : Span) {post : α → Prop} (h : Keeps I step post) :
    Keeps I (inSpan span step) post := by
  intro s hs
  have hstep := h (s.entering span) (hI s (s.entering span) rfl rfl hs)
  rw [inSpan_apply]
  cases hrun : step (s.entering span) with
  | ok a s' =>
      rw [hrun] at hstep
      exact ⟨hI s' { s' with span := s.span } rfl rfl hstep.1, hstep.2⟩
  | error failure s' =>
      rw [hrun] at hstep
      exact hI s' { s' with span := s.span } rfl rfl hstep

theorem keeps_log (event : Event) : Keeps I (log event) fun _ => True :=
  keeps_modify_of_same hI (fun _ => rfl) (fun _ => rfl)

theorem keeps_countRecord : Keeps I countRecord fun _ => True :=
  keeps_modify_of_same hI (fun _ => rfl) (fun _ => rfl)

theorem keeps_countSkipped : Keeps I countSkipped fun _ => True :=
  keeps_modify_of_same hI (fun _ => rfl) (fun _ => rfl)

theorem keeps_absorb (triplesMap : String) (record : Nat) (error : FunctionError) :
    Keeps I (absorb triplesMap record error) fun _ => True :=
  keeps_bind (keeps_log hI _) fun _ _ => keeps_modify_of_same hI (fun _ => rfl) (fun _ => rfl)

theorem keeps_receive (provider : Provider) : Keeps I (receive provider) fun _ => True :=
  keeps_modify_of_same hI (fun _ => rfl) (fun _ => rfl)

theorem keeps_openSource (provider : Provider) (triplesMap : String) (source : LogicalSource) :
    Keeps I (openSource provider triplesMap source) fun _ => True := by
  refine keeps_get_bind fun s _ => ?_
  refine keeps_bind (keeps_modify_of_same hI (fun _ => rfl) (fun _ => rfl)) fun _ _ => ?_
  cases provider.openAfter s.session.opened source with
  | ok items => exact keeps_pure trivial
  | error fault => exact keeps_throw _

end OfContents

end Step

namespace Engine

open Step

variable {I : RunState → Prop} {α : Type}

theorem keeps_sourceOf (m : TriplesMap) : Keeps I (sourceOf m) fun _ => True := by
  unfold sourceOf
  cases m.logicalSource with
  | some source => exact keeps_pure trivial
  | none => exact keeps_throw _

theorem keeps_subjectMapOf (m : TriplesMap) :
    Keeps I (subjectMapOf m) fun subjectMap => m.subjectMap = some subjectMap := by
  unfold subjectMapOf
  cases m.subjectMap with
  | some subjectMap => exact keeps_pure rfl
  | none => exact keeps_throw _

/-- The parent of a reference is the first triples map with the identity. -/
theorem keeps_parentOf (e : Engine) (r : RefObjectMap) (child : TriplesMap) :
    Keeps I (e.parentOf r child) fun found =>
      e.graph.position? r.parent = some found.1 ∧ e.graph.get? r.parent = some found.2 := by
  unfold parentOf
  cases hposition : e.graph.position? r.parent with
  | none => exact keeps_throw _
  | some position =>
      cases hparent : e.graph.get? r.parent with
      | none => exact keeps_throw _
      | some parent => exact keeps_pure ⟨rfl, rfl⟩

theorem keeps_checkCancelled (e : Engine) : Keeps I e.checkCancelled fun _ => True := by
  refine keeps_get_bind fun s _ => ?_
  split
  · exact keeps_throw _
  · exact keeps_pure trivial

variable (hI : OfContents I) (e : Engine)

include hI

theorem keeps_evaluate (m : TermMap) (record : Record) (scope : String) :
    Keeps I (e.evaluate m record scope) fun result =>
      result = e.generator.terms m record scope :=
  keeps_bind (keeps_forM fun _ _ => keeps_log hI _) fun _ _ => keeps_pure rfl

/-- Going through a source keeps what visiting a record keeps, for the result as well. -/
theorem keeps_scan (triplesMap : String) {visit : α → Nat → Record → Step α} {post : α → Prop}
    (hvisit : ∀ a n record, post a → Keeps I (visit a n record) post) (items : List Item) :
    ∀ n a, post a → Keeps I (e.scan triplesMap visit n a items) post := by
  induction items with
  | nil => intro n a ha; exact keeps_pure ha
  | cons item items ih =>
      intro n a ha
      refine keeps_bind (keeps_receive hI e.provider) fun _ _ => ?_
      refine keeps_bind (keeps_checkCancelled e) fun _ _ => ?_
      cases item with
      | error fault => exact keeps_throw _
      | ok record =>
          exact keeps_bind (hvisit a n record ha) fun b hb => ih (n + 1) b hb

end Engine

end RdfMapping
