/-
Which parents a triples map consults, and what that opens.

A parent is consulted through its index whenever a statement is made for a record that has a value
for every condition, unless the reference has no conditions and both read the same source.
`consultedOver` are the parents that a triples map consults over the items of its source; it
is a function of the rules and the items alone.

What consulting does depends on the indexes that are there.  A parent that has none is scanned,
which either leaves an index or ends the triples map.  `Engine.Consults` says this of the steps
within a record: of the parents that are consulted those that had no index are scanned, each
once, and in the end all of them have one.  It rests on an invariant of the indexes: each of
them covers every layout by which some reference in the graph asks for its parent, so one that is
there always answers.
-/
import RdfMapping.Proofs.Execution.Assembly
import RdfMapping.Proofs.Execution.Landmarks

namespace RdfMapping

/-! ### Parents that are consulted -/

namespace Engine

variable (e : Engine)

/-- The parent of a reference, if its index is asked for the objects. -/
def consultedFor (r : RefObjectMap) (child : TriplesMap) (record : Record) : List String :=
  match e.graph.get? r.parent with
  | none => []
  | some parent =>
    if r.conditions.isEmpty && parent.logicalSource == child.logicalSource then []
    else if r.answerable record then [r.parent] else []

/-- The parents that are consulted for the statements of a predicate-object map. -/
def consultedBy (site : Site) (p : PredicateObjectMap) : List String :=
  if (e.termsOf site p.predicateMaps).isEmpty then []
  else p.parents.flatMap fun r => e.consultedFor r site.triplesMap site.record

/-- The parents that a triples map consults at a record: none if the record makes no subject. -/
def consultedAt (position : Nat) (m : TriplesMap) (n : Nat) (record : Record) : List String :=
  match e.subjectsOf position m record with
  | .ok (_ :: _) =>
    m.predicateObjectMaps.flatMap (e.consultedBy ⟨m, blankScope position, n, record⟩)
  | _ => []

/-- The parents that a triples map consults over the items of its source, up to the first item
that cannot be read or whose subject gives the triples map up. -/
def consultedOver (policy : SubjectErrorPolicy) (position : Nat) (m : TriplesMap) :
    Nat → List Item → List String
  | _, [] => []
  | _, .error _ :: _ => []
  | n, .ok record :: items =>
    match policy, e.subjectsOf position m record with
    | .abortTriplesMap, .error _ => []
    | _, _ => e.consultedAt position m n record ++ consultedOver policy position m (n + 1) items

/-- The subject of the record gives the triples map up. -/
def Aborts (policy : SubjectErrorPolicy) (position : Nat) (m : TriplesMap) (record : Record) :
    Prop :=
  policy = .abortTriplesMap ∧ ∃ error, e.subjectsOf position m record = .error error

variable {e} {policy : SubjectErrorPolicy} {position : Nat} {m : TriplesMap} {record : Record}

theorem consultedOver_of_aborts (h : e.Aborts policy position m record) (n : Nat)
    (items : List Item) : e.consultedOver policy position m n (.ok record :: items) = [] := by
  obtain ⟨rfl, error, herror⟩ := h
  simp [consultedOver, herror]

theorem consultedOver_of_not_aborts (h : ¬ e.Aborts policy position m record) (n : Nat)
    (items : List Item) :
    e.consultedOver policy position m n (.ok record :: items)
      = e.consultedAt position m n record ++ e.consultedOver policy position m (n + 1) items := by
  rw [consultedOver]
  intro error hpolicy herror
  exact h ⟨hpolicy, error, herror⟩

end Engine

/-! ### States with more indexes -/

/-- There is an index for the parent. -/
def RunState.Indexed (s : RunState) (parent : String) : Prop :=
  (s.indexes.lookup parent).isSome = true

/-- The landmarks of scans for a child, all of which come to an end but for the last one. -/
def scans (child : String) (fresh : List String) (broken : Option String) : List Landmark :=
  fresh.flatMap (fun parent => [.scan child parent, .built parent]) ++
    broken.toList.map (.scan child)

theorem scans_append (child : String) (fresh fresh' : List String) (broken : Option String) :
    scans child (fresh ++ fresh') broken
      = scans child fresh none ++ scans child fresh' broken := by
  simp [scans, List.flatMap_append]

/-- How a triples map ends before its time, maybe in the middle of a scan: because of the scan,
because of its own source, or because of the signal. -/
inductive Halts (child : String) : Option String → Error → Prop
  | parent (iri : String) (record : Option Nat) (fault : SourceError) :
      Halts child (some iri) (.source iri record fault)
  | own (record : Option Nat) (fault : SourceError) :
      Halts child none (.source child record fault)
  | cancelled (broken : Option String) : Halts child broken .cancelled

namespace Engine

/-- Every index covers all layouts by which the graph asks for its parent. -/
def Covering (e : Engine) (s : RunState) : Prop :=
  ∀ parent index, s.indexes.lookup parent = some index →
    ∀ layout ∈ e.graph.keyLayouts parent, index.covers layout = true

/-- From one state to the other some landmarks were passed and the sources that belong to them
opened; there is an index more for each fresh parent, and for nothing else.  Neither the fresh
parents nor the broken one had an index before. -/
structure Grown (e : Engine) (marks : List Landmark) (fresh : List String)
    (broken : Option String) (s s' : RunState) : Prop where
  landmarks : s'.landmarks = s.landmarks ++ marks
  opened : s'.session.opened = s.session.opened ++ e.graph.openings marks
  indexed : ∀ parent, s'.Indexed parent ↔ s.Indexed parent ∨ parent ∈ fresh
  new : ∀ parent ∈ fresh ++ broken.toList, ¬ s.Indexed parent
  known : ∀ parent ∈ fresh ++ broken.toList, (e.graph.get? parent).isSome = true
  nodup : (fresh ++ broken.toList).Nodup
  covering : e.Covering s'

variable {e : Engine} {s s₁ s₂ : RunState}

theorem grown_of_unmoved (h : s.Unmoved s₁) (hcovering : e.Covering s) :
    e.Grown [] [] none s s₁ where
  landmarks := by rw [h.landmarks, List.append_nil]
  opened := h.opened.trans (List.append_nil _).symm
  indexed := by simp [RunState.Indexed, h.indexes]
  new := by simp
  known := by simp
  nodup := by simp
  covering := by
    intro parent index hlookup
    rw [h.indexes] at hlookup
    exact hcovering parent index hlookup

theorem Grown.mem_landmarks {marks : List Landmark} {fresh : List String}
    {broken : Option String} (h : e.Grown marks fresh broken s s₁) {l : Landmark} :
    l ∈ s₁.landmarks ↔ l ∈ s.landmarks ∨ l ∈ marks := by
  rw [h.landmarks, List.mem_append]

theorem Grown.trans {marks marks' : List Landmark} {fresh fresh' : List String}
    {broken : Option String} (h : e.Grown marks fresh none s s₁)
    (h' : e.Grown marks' fresh' broken s₁ s₂) :
    e.Grown (marks ++ marks') (fresh ++ fresh') broken s s₂ := by
  have hnodup : fresh.Nodup := by simpa using h.nodup
  -- What was scanned first has an index by then, so it is not among what is scanned next.
  have hdisjoint : ∀ parent ∈ fresh, parent ∉ fresh' ++ broken.toList := by
    intro parent hfirst hsecond
    exact h'.new parent hsecond ((h.indexed parent).mpr (.inr hfirst))
  refine ⟨?_, ?_, fun parent => ?_, fun parent hparent => ?_, fun parent hparent => ?_, ?_,
    h'.covering⟩
  · rw [h'.landmarks, h.landmarks, List.append_assoc]
  · rw [h'.opened, h.opened, List.append_assoc, RuleGraph.openings_append]
  · rw [h'.indexed, h.indexed, List.mem_append, or_assoc]
  · rw [List.append_assoc, List.mem_append] at hparent
    rcases hparent with hfirst | hsecond
    · exact h.new parent (List.mem_append_left _ hfirst)
    · exact fun hindexed => h'.new parent hsecond ((h.indexed parent).mpr (.inl hindexed))
  · rw [List.append_assoc, List.mem_append] at hparent
    rcases hparent with hfirst | hsecond
    · exact h.known parent (List.mem_append_left _ hfirst)
    · exact h'.known parent hsecond
  · rw [List.append_assoc, List.nodup_append]
    refine ⟨hnodup, h'.nodup, fun parent hfirst other hsecond heq => ?_⟩
    exact hdisjoint parent hfirst (heq ▸ hsecond)

/-- Only landmarks, openings and indexes count. -/
theorem Grown.of_same {marks : List Landmark} {fresh : List String} {broken : Option String}
    (h : e.Grown marks fresh broken s s₁) (hlandmarks : s₂.landmarks = s₁.landmarks)
    (hopened : s₂.session.opened = s₁.session.opened) (hindexes : s₂.indexes = s₁.indexes) :
    e.Grown marks fresh broken s s₂ where
  landmarks := hlandmarks.trans h.landmarks
  opened := hopened.trans h.opened
  indexed := by simpa [RunState.Indexed, hindexes] using h.indexed
  new := h.new
  known := h.known
  nodup := h.nodup
  covering := by
    intro parent index hlookup
    rw [hindexes] at hlookup
    exact h.covering parent index hlookup

/-- The fresh parents were asked for, and whatever was asked for has an index. -/
def Serves (fresh asked : List String) (s : RunState) : Prop :=
  (∀ parent ∈ fresh, parent ∈ asked) ∧ ∀ parent ∈ asked, s.Indexed parent

/-- What was served stays so, and more may be asked for. -/
theorem Serves.append {marks : List Landmark} {fresh fresh' asked asked' : List String}
    {broken : Option String} (h : Serves fresh asked s₁)
    (hgrown : e.Grown marks fresh' broken s₁ s₂) (h' : Serves fresh' asked' s₂) :
    Serves (fresh ++ fresh') (asked ++ asked') s₂ := by
  refine ⟨fun parent hparent => ?_, fun parent hparent => ?_⟩
  · rcases List.mem_append.mp hparent with hparent | hparent
    · exact List.mem_append_left _ (h.1 parent hparent)
    · exact List.mem_append_right _ (h'.1 parent hparent)
  · rcases List.mem_append.mp hparent with hparent | hparent
    · exact (hgrown.indexed parent).mpr (.inl (h.2 parent hparent))
    · exact h'.2 parent hparent

/-! ### Steps that consult parents -/

/-- Within a triples map the step consults the parents that are asked for: it scans those that
have no index, or ends with a scan or with the signal. -/
def Consults {α : Type} (e : Engine) (child : String) (step : Step α) (asked : List String)
    (post : α → Prop) : Prop :=
  ∀ s, s.span = some (.triplesMap child) → e.Covering s → match step s with
    | .ok a s' => post a ∧ s'.span = s.span ∧
      ∃ fresh, e.Grown (scans child fresh none) fresh none s s' ∧ Serves fresh asked s'
    | .error failure s' => ∃ fresh broken,
      e.Grown (scans child fresh broken) fresh broken s s' ∧ Halts child broken failure.error

variable {α β : Type} {child : String}

theorem consults_of_calm {step : Step α} {post : α → Prop}
    (h : step.Calm post fun _ => False) : e.Consults child step [] post := by
  intro s hspan hcovering
  have hstep := h s
  cases hrun : step s with
  | ok a s' =>
      rw [hrun] at hstep
      exact ⟨hstep.2, hstep.1.span, [], grown_of_unmoved hstep.1 hcovering, by simp [Serves]⟩
  | error failure s' =>
      rw [hrun] at hstep
      exact absurd hstep.2 id

theorem consults_pure {post : α → Prop} {a : α} (h : post a) :
    e.Consults child (pure a) [] post :=
  consults_of_calm (Step.calm_pure h)

theorem consults_bind {x : Step α} {f : α → Step β} {asked asked' : List String}
    {post : α → Prop} {post' : β → Prop} (hx : e.Consults child x asked post)
    (hf : ∀ a, post a → e.Consults child (f a) asked' post') :
    e.Consults child (x >>= f) (asked ++ asked') post' := by
  intro s hspan hcovering
  have hfirst := hx s hspan hcovering
  rw [Step.bind_apply]
  cases hrun : x s with
  | error failure s₁ => rw [hrun] at hfirst; exact hfirst
  | ok a s₁ =>
      rw [hrun] at hfirst
      obtain ⟨hpost, hspan₁, fresh, hgrown, hserves⟩ := hfirst
      have hsecond := hf a hpost s₁ (hspan₁.trans hspan) hgrown.covering
      dsimp only
      cases hrun' : f a s₁ with
      | error failure s₂ =>
          rw [hrun'] at hsecond
          obtain ⟨fresh', broken, hgrown', hhalts⟩ := hsecond
          refine ⟨fresh ++ fresh', broken, ?_, hhalts⟩
          rw [scans_append]
          exact hgrown.trans hgrown'
      | ok b s₂ =>
          rw [hrun'] at hsecond
          obtain ⟨hpost', hspan₂, fresh', hgrown', hserves'⟩ := hsecond
          refine ⟨hpost', hspan₂.trans hspan₁, fresh ++ fresh', ?_, hserves.append hgrown' hserves'⟩
          rw [scans_append]
          exact hgrown.trans hgrown'

/-- A calm step may go first. -/
theorem consults_calm_bind {x : Step α} {f : α → Step β} {asked : List String}
    {post : α → Prop} {post' : β → Prop} (hx : x.Calm post fun _ => False)
    (hf : ∀ a, post a → e.Consults child (f a) asked post') :
    e.Consults child (x >>= f) asked post' :=
  consults_bind (consults_of_calm hx) hf

/-- A calm step may come last. -/
theorem consults_bind_calm {x : Step α} {f : α → Step β} {asked : List String}
    {post : α → Prop} {post' : β → Prop} (hx : e.Consults child x asked post)
    (hf : ∀ a, post a → (f a).Calm post' fun _ => False) :
    e.Consults child (x >>= f) asked post' := by
  rw [← List.append_nil asked]
  exact consults_bind hx fun a ha => consults_of_calm (hf a ha)

theorem consults_forM {f : α → Step Unit} {g : α → List String} (as : List α)
    (h : ∀ a ∈ as, e.Consults child (f a) (g a) fun _ => True) :
    e.Consults child (as.forM f) (as.flatMap g) fun _ => True := by
  induction as with
  | nil => exact consults_pure trivial
  | cons a as ih =>
      rw [List.forM, List.flatMap_cons]
      exact consults_bind (h a (by simp)) fun _ _ => ih fun b hb => h b (by simp [hb])

/-! ### Scanning a parent -/

theorem sourceOf_eq {m : TriplesMap} {source : LogicalSource}
    (h : m.logicalSource = some source) : sourceOf m = pure source := by
  rw [sourceOf, h]

theorem subjectMapOf_eq {m : TriplesMap} {subjectMap : SubjectMap}
    (h : m.subjectMap = some subjectMap) : subjectMapOf m = pure subjectMap := by
  rw [subjectMapOf, h]

/-- What is left of building an index when the source of the parent is open. -/
def indexItems (e : Engine) (position : Nat) (parent : TriplesMap) (subjectMap : SubjectMap)
    (layouts : List (List String)) (items : List Item) : Step ParentIndex := do
  let found ← e.scan parent.iri (e.addRow parent subjectMap (blankScope position)) 0 {} items
  Step.log (.indexed parent.iri found.records layouts.length)
  return ParentIndex.ofRows layouts found.rows.reverse

theorem buildIndex_eq (position : Nat) {parent : TriplesMap} {source : LogicalSource}
    (hsource : parent.logicalSource = some source) {subjectMap : SubjectMap}
    (hsubject : parent.subjectMap = some subjectMap) (layout : List String) :
    e.buildIndex position parent layout = Step.inSpan (.joinIndex parent.iri)
      (Step.openSource e.provider parent.iri source >>=
        e.indexItems position parent subjectMap (e.layoutsFor parent.iri layout)) := by
  unfold buildIndex
  rw [sourceOf_eq hsource, subjectMapOf_eq hsubject, pure_bind, pure_bind]
  rfl

theorem indexItems_scans (child : String) (position : Nat) (parent : TriplesMap)
    (subjectMap : SubjectMap) (layouts : List (List String)) (items : List Item) (s : RunState) :
    match e.indexItems position parent subjectMap layouts items s with
    | .ok index s' => s'.landmarks = s.landmarks ++ [.built parent.iri] ∧
      s'.session.opened = s.session.opened ∧ s'.indexes = s.indexes ∧
      ∃ rows, index = ParentIndex.ofRows layouts rows
    | .error failure s' => s.Unmoved s' ∧ Halts child (some parent.iri) failure.error := by
  have hcalm := e.calm_scan parent.iri
    (fun found n record => e.calm_addRow parent subjectMap (blankScope position) found n record)
    (.cancelled _ : Halts child (some parent.iri) .cancelled) (fun n fault => .parent _ _ fault)
    items 0 {} s
  unfold indexItems
  rw [Step.bind_apply]
  cases hrun : e.scan parent.iri (e.addRow parent subjectMap (blankScope position)) 0 {} items
      s with
  | error failure s' =>
      rw [hrun] at hcalm
      exact hcalm
  | ok found s' =>
      rw [hrun] at hcalm
      obtain ⟨hunmoved, -⟩ := hcalm
      refine ⟨?_, hunmoved.opened, hunmoved.indexes, found.rows.reverse, rfl⟩
      rw [← hunmoved.landmarks]
      exact s'.landmarks_push (.logged (.indexed parent.iri found.records layouts.length) s'.span)

theorem mem_layoutsFor_of_mem {parent : String} {asked layout : List String}
    (h : layout ∈ e.graph.keyLayouts parent) : layout ∈ e.layoutsFor parent asked := by
  unfold layoutsFor
  dsimp only
  split
  · exact h
  · exact List.mem_append_left _ h

/-- Scanning a parent without an index gives it one that covers what the graph asks for, or ends
the triples map. -/
theorem freshIndex_scans (position : Nat) {iri : String} {parent : TriplesMap}
    (hparent : e.graph.get? iri = some parent) {source : LogicalSource}
    (hsource : parent.logicalSource = some source) {subjectMap : SubjectMap}
    (hsubject : parent.subjectMap = some subjectMap) (layout : List String)
    (hspan : s.span = some (.triplesMap child)) (hcovering : e.Covering s)
    (hnone : ¬ s.Indexed iri) :
    match e.freshIndex position parent layout s with
    | .ok _ s' => s'.span = s.span ∧ e.Grown (scans child [iri] none) [iri] none s s'
    | .error failure s' => e.Grown (scans child [] (some iri)) [] (some iri) s s' ∧
      Halts child (some iri) failure.error := by
  obtain rfl : parent.iri = iri := by simpa using List.find?_some hparent
  have hopens : e.graph.sourceOf? parent.iri = some source := by
    rw [RuleGraph.sourceOf?, hparent]
    exact hsource
  have hentering : (s.entering (.joinIndex parent.iri)).landmarks
      = s.landmarks ++ [.scan child parent.iri] := by
    rw [RunState.landmarks_entering, hspan]
    rfl
  have hbroken : ∀ s' : RunState, s'.landmarks = s.landmarks ++ [.scan child parent.iri] →
      s'.session.opened = s.session.opened ++ [source] → s'.indexes = s.indexes →
      e.Grown (scans child [] (some parent.iri)) [] (some parent.iri) s s' := by
    intro s' hlandmarks hopened hindexes
    refine ⟨hlandmarks, ?_, ?_, ?_, ?_, by simp, ?_⟩
    · rw [hopened]
      simp [scans, RuleGraph.openings, Landmark.opened?, hopens]
    · simp [RunState.Indexed, hindexes]
    · simpa using hnone
    · simp [hparent]
    · intro parent index hlookup
      rw [hindexes] at hlookup
      exact hcovering parent index hlookup
  have hfresh : ∀ (rows : List ParentRow) (s' : RunState),
      s'.landmarks = s.landmarks ++ [.scan child parent.iri, .built parent.iri] →
      s'.session.opened = s.session.opened ++ [source] →
      s'.indexes = (parent.iri, ParentIndex.ofRows (e.layoutsFor parent.iri layout) rows) ::
        s.indexes.filter (fun i => i.1 != parent.iri) →
      e.Grown (scans child [parent.iri] none) [parent.iri] none s s' := by
    intro rows s' hlandmarks hopened hindexes
    refine ⟨hlandmarks, ?_, ?_, ?_, ?_, by simp, ?_⟩
    · rw [hopened]
      simp [scans, RuleGraph.openings, Landmark.opened?, hopens]
    · intro other
      rw [RunState.Indexed, hindexes, lookup_replace, List.mem_singleton]
      by_cases hother : other = parent.iri
      · simp [hother]
      · rw [if_neg hother]
        simp [hother, RunState.Indexed]
    · simpa using hnone
    · simp [hparent]
    · intro other index hlookup asked hasked
      rw [hindexes, lookup_replace] at hlookup
      by_cases hother : other = parent.iri
      · rw [if_pos hother, Option.some.injEq] at hlookup
        rw [← hlookup, ParentIndex.covers_ofRows, List.contains_iff_mem]
        exact mem_layoutsFor_of_mem (hother ▸ hasked)
      · rw [if_neg hother] at hlookup
        exact hcovering other index hlookup asked hasked
  unfold freshIndex
  rw [Step.bind_apply, buildIndex_eq position hsource hsubject, Step.inSpan_apply,
    Step.bind_apply, Step.openSource_apply]
  cases e.provider.openAfter (s.entering (.joinIndex parent.iri)).session.opened source with
  | error fault => exact ⟨hbroken _ hentering rfl rfl, .parent _ _ _⟩
  | ok items =>
      have hscans := e.indexItems_scans child position parent subjectMap
        (e.layoutsFor parent.iri layout) items
        ((s.entering (.joinIndex parent.iri)).opening source)
      dsimp only
      cases hrun : e.indexItems position parent subjectMap (e.layoutsFor parent.iri layout) items
          ((s.entering (.joinIndex parent.iri)).opening source) with
      | error failure s' =>
          rw [hrun] at hscans
          obtain ⟨hunmoved, hhalts⟩ := hscans
          refine ⟨hbroken _ ?_ hunmoved.opened hunmoved.indexes, hhalts⟩
          exact hunmoved.landmarks.trans hentering
      | ok index s' =>
          rw [hrun] at hscans
          obtain ⟨hlandmarks, hopened, hindexes, rows, rfl⟩ := hscans
          dsimp only
          rw [Step.bind_apply, Step.modify_apply]
          refine ⟨rfl, hfresh rows _ ?_ hopened ?_⟩
          · show s'.landmarks = _
            rw [hlandmarks]
            show (s.entering (.joinIndex parent.iri)).landmarks ++ _ = _
            rw [hentering, List.append_assoc]
            rfl
          · show _ :: s'.indexes.filter _ = _ :: s.indexes.filter _
            rw [hindexes]
            rfl

/-! ### Records -/

section Valid

variable (hvalid : e.graph.validate = .ok ())

include hvalid

/-- After an index was asked for there is one. -/
theorem consults_indexFor (position : Nat) {child parent : TriplesMap}
    (hchild : child ∈ e.graph.triplesMaps) {r : RefObjectMap} (hr : r ∈ child.parents)
    (hparent : e.graph.get? r.parent = some parent) :
    e.Consults child.iri (e.indexFor position parent r.parentReferences) [r.parent]
      fun _ => True := by
  intro s hspan hcovering
  have hiri : parent.iri = r.parent := by simpa using List.find?_some hparent
  by_cases hindexed : s.Indexed r.parent
  · obtain ⟨index, hlookup⟩ := Option.isSome_iff_exists.mp hindexed
    have hcovers := hcovering r.parent index hlookup r.parentReferences
      (RuleGraph.mem_keyLayouts.mpr ⟨child, hchild, r, hr, rfl, rfl⟩)
    rw [indexFor_of_covers position (hiri ▸ hlookup) hcovers]
    refine ⟨trivial, rfl, [], grown_of_unmoved (.refl s) hcovering, by simp, ?_⟩
    simpa using hindexed
  · have hnone : s.indexes.lookup parent.iri = none := by
      rw [hiri]
      exact Option.not_isSome_iff_eq_none.mp hindexed
    have hmem := List.mem_of_find?_eq_some hparent
    obtain ⟨source, hsource⟩ := RuleGraph.exists_source_of_mem hvalid hmem
    obtain ⟨subjectMap, hsubject⟩ := RuleGraph.exists_subjectMap_of_mem hvalid hmem
    rw [indexFor_of_not_covers position fun index hlookup => by simp [hnone] at hlookup]
    have hscans := freshIndex_scans position hparent hsource hsubject r.parentReferences hspan
      hcovering hindexed
    cases hrun : e.freshIndex position parent r.parentReferences s with
    | ok index s' =>
        rw [hrun] at hscans
        obtain ⟨hspan', hgrown⟩ := hscans
        refine ⟨trivial, hspan', [r.parent], hgrown, by simp, ?_⟩
        intro iri hiri
        exact (hgrown.indexed iri).mpr (.inr hiri)
    | error failure s' =>
        rw [hrun] at hscans
        exact ⟨[], some r.parent, hscans⟩

theorem consults_resolve {child : TriplesMap} (hchild : child ∈ e.graph.triplesMaps)
    {r : RefObjectMap} (hr : r ∈ child.parents) (record : Record) :
    e.Consults child.iri (e.resolve r child record) (e.consultedFor r child record)
      fun _ => True := by
  obtain ⟨position, parent, hposition, hparent, -⟩ :=
    RuleGraph.exists_position_of_isSome (knowsParents_of_validate hvalid hchild r hr)
  have hfound : e.parentOf r child = pure (position, parent) := by
    rw [parentOf, hposition, hparent]
  have hconditions : (!r.hasConditions) = r.conditions.isEmpty := by
    simp [RefObjectMap.hasConditions]
  unfold resolve consultedFor
  rw [hfound, pure_bind, hparent, hconditions]
  dsimp only
  by_cases hsame : (r.conditions.isEmpty && parent.logicalSource == child.logicalSource) = true
  · rw [if_pos hsame, if_pos hsame]
    obtain ⟨subjectMap, hsubject⟩ :=
      RuleGraph.exists_subjectMap_of_mem hvalid (List.mem_of_find?_eq_some hparent)
    rw [subjectMapOf_eq hsubject, pure_bind]
    exact consults_of_calm ((e.calm_evaluate _ _ _).mono fun _ _ => trivial)
  · rw [if_neg hsame, if_neg hsame, r.key?_childReferences]
    by_cases hanswerable : r.answerable record = true
    · rw [if_pos hanswerable, if_pos hanswerable]
      exact consults_bind_calm (consults_indexFor hvalid position hchild hr hparent) fun _ _ =>
        Step.calm_pure trivial
    · rw [if_neg hanswerable, if_neg hanswerable]
      exact consults_pure trivial

theorem consults_allObjectsAt {site : Site} (hm : site.triplesMap ∈ e.graph.triplesMaps)
    {p : PredicateObjectMap} (hp : p ∈ site.triplesMap.predicateObjectMaps)
    {maps : List ObjectMap} (hmaps : ∀ map ∈ maps, map ∈ p.objectMaps) :
    e.Consults site.triplesMap.iri (e.allObjectsAt site maps)
      ((maps.filterMap (·.parent?)).flatMap fun r =>
        e.consultedFor r site.triplesMap site.record) fun _ => True := by
  induction maps with
  | nil => exact consults_pure trivial
  | cons map maps ih =>
      have hrest := ih fun map' hmap' => hmaps map' (by simp [hmap'])
      cases map with
      | term map =>
          refine consults_calm_bind (e.calm_termsAt site map) fun _ _ => ?_
          exact consults_bind_calm hrest fun _ _ => Step.calm_pure trivial
      | parent r =>
          have hr := RuleGraph.mem_parents hp (hmaps (.parent r) (by simp))
          have hfirst : e.Consults site.triplesMap.iri (e.objectsAt site (.parent r))
              (e.consultedFor r site.triplesMap site.record) fun _ => True :=
            consults_bind_calm (consults_resolve hvalid hm hr site.record) fun result _ =>
              (calm_survive site result).mono fun _ _ => trivial
          refine consults_bind hfirst fun _ _ => ?_
          exact consults_bind_calm hrest fun _ _ => Step.calm_pure trivial

theorem consults_statementsAt {site : Site} (hm : site.triplesMap ∈ e.graph.triplesMaps)
    (subjectMap : SubjectMap) (subjects : List Term) (graphs : List (Option Term))
    {p : PredicateObjectMap} (hp : p ∈ site.triplesMap.predicateObjectMaps) :
    e.Consults site.triplesMap.iri (e.statementsAt site subjectMap subjects graphs p)
      (e.consultedBy site p) fun _ => True := by
  refine consults_calm_bind (e.calm_allTermsAt site p.predicateMaps) ?_
  rintro predicates rfl
  unfold consultedBy
  by_cases hnone : (e.termsOf site p.predicateMaps).isEmpty = true
  · rw [if_pos hnone, if_pos hnone]
    exact consults_pure trivial
  · rw [if_neg hnone, if_neg hnone]
    refine consults_bind_calm (consults_allObjectsAt hvalid hm hp fun _ hmap => hmap) ?_
    -- What is left is put together from terms.
    intro objects _
    by_cases hobjects : objects.isEmpty = true
    · rw [if_pos hobjects]
      exact Step.calm_pure trivial
    · rw [if_neg hobjects]
      refine Step.calm_bind (e.calm_addGraphsAt site graphs p.graphMaps) fun _ _ => ?_
      dsimp only
      split
      · exact Step.calm_pure trivial
      · exact Step.calm_modify fun _ => ⟨rfl, rfl, rfl, rfl⟩

theorem consults_describe {site : Site} (hm : site.triplesMap ∈ e.graph.triplesMaps)
    (subjectMap : SubjectMap) (subjects : List Term) :
    e.Consults site.triplesMap.iri (e.describe site subjectMap subjects)
      (site.triplesMap.predicateObjectMaps.flatMap (e.consultedBy site)) fun _ => True := by
  refine consults_calm_bind (e.calm_addGraphsAt site [] subjectMap.graphMaps) fun graphs _ => ?_
  refine consults_calm_bind (Step.calm_modify fun _ => ⟨rfl, rfl, rfl, rfl⟩) fun _ _ => ?_
  exact consults_forM _ fun p hp => consults_statementsAt hvalid hm subjectMap subjects graphs hp

theorem consults_visitRecord {policy : SubjectErrorPolicy} {position : Nat} {m : TriplesMap}
    (hm : m ∈ e.graph.triplesMaps) {subjectMap : SubjectMap}
    (hsubject : m.subjectMap = some subjectMap) (n : Nat) {record : Record}
    (hgoes : ¬ e.Aborts policy position m record) :
    e.Consults m.iri (e.visitRecord policy m (blankScope position) subjectMap n record)
      (e.consultedAt position m n record) fun _ => True := by
  have hsubjects : e.subjectsOf position m record
      = e.generator.terms subjectMap.termMap record (blankScope position) := by
    rw [subjectsOf, hsubject]
  refine consults_calm_bind (Step.calm_modify fun _ => ⟨rfl, rfl, rfl, rfl⟩) fun _ _ => ?_
  refine consults_calm_bind (e.calm_evaluate subjectMap.termMap record (blankScope position)) ?_
  rintro result rfl
  unfold consultedAt Aborts at *
  rw [← hsubjects]
  cases hresult : e.subjectsOf position m record with
  | error error =>
      cases policy with
      | skipRecord =>
          apply consults_of_calm
          exact Step.calm_bind (Step.calm_absorb _ _ _) fun _ _ =>
            Step.calm_modify fun _ => ⟨rfl, rfl, rfl, rfl⟩
      | abortTriplesMap => exact absurd ⟨rfl, error, hresult⟩ hgoes
  | ok subjects =>
      cases subjects with
      | nil =>
          apply consults_of_calm
          exact Step.calm_bind (Step.calm_log fun _ => rfl) fun _ _ =>
            Step.calm_modify fun _ => ⟨rfl, rfl, rfl, rfl⟩
      | cons t ts =>
          show e.Consults (Site.mk m (blankScope position) n record).triplesMap.iri
            (e.describe ⟨m, blankScope position, n, record⟩ subjectMap (t :: ts)) _ _
          exact consults_describe hvalid hm subjectMap (t :: ts)

/-! ### Triples maps -/

omit hvalid in
/-- A record whose subject gives the triples map up does so before any parent is consulted. -/
theorem visitRecord_of_aborts {policy : SubjectErrorPolicy} {position : Nat} {m : TriplesMap}
    {subjectMap : SubjectMap} (hsubject : m.subjectMap = some subjectMap) (n : Nat)
    {record : Record} (h : e.Aborts policy position m record) (s : RunState) :
    ∃ failure s', e.visitRecord policy m (blankScope position) subjectMap n record s
        = .error failure s' ∧ s.Unmoved s' ∧ ∃ error, failure.error = .function error := by
  obtain ⟨rfl, error, herror⟩ := h
  have hterms : e.generator.terms subjectMap.termMap record (blankScope position)
      = .error error := by
    rw [← herror, subjectsOf, hsubject]
  have hcalm : (e.visitRecord .abortTriplesMap m (blankScope position) subjectMap n record).Calm
      (fun _ => False) fun error => ∃ cause, error = .function cause := by
    refine Step.calm_bind (Step.calm_modify fun _ => ⟨rfl, rfl, rfl, rfl⟩) fun _ _ => ?_
    refine Step.calm_bind (e.calm_evaluate subjectMap.termMap record (blankScope position)) ?_
    rintro result rfl
    rw [hterms]
    exact Step.calm_throw ⟨error, rfl⟩
  have hstep := hcalm s
  cases hrun : e.visitRecord .abortTriplesMap m (blankScope position) subjectMap n record s with
  | ok a s' =>
      rw [hrun] at hstep
      exact absurd hstep.2 id
  | error failure s' =>
      rw [hrun] at hstep
      exact ⟨failure, s', rfl, hstep⟩

/-- Within a triples map the step consults the parents that are asked for, up to its end or up to
a subject that gives the triples map up, unless it ends with a source or with the signal. -/
def Traverses (e : Engine) (child : String) (step : Step Unit) (asked : List String) : Prop :=
  ∀ s, s.span = some (.triplesMap child) → e.Covering s → match step s with
    | .ok _ s' => ∃ fresh,
      e.Grown (scans child fresh none) fresh none s s' ∧ Serves fresh asked s'
    | .error failure s' => ∃ fresh broken,
      e.Grown (scans child fresh broken) fresh broken s s' ∧
        (Halts child broken failure.error ∨
          broken = none ∧ (∃ error, failure.error = .function error) ∧ Serves fresh asked s')

omit hvalid in
theorem traverses_bind {x : Step α} {f : α → Step Unit} {asked asked' : List String}
    {post : α → Prop} (hx : e.Consults child x asked post)
    (hf : ∀ a, post a → e.Traverses child (f a) asked') :
    e.Traverses child (x >>= f) (asked ++ asked') := by
  intro s hspan hcovering
  have hfirst := hx s hspan hcovering
  rw [Step.bind_apply]
  cases hrun : x s with
  | error failure s₁ =>
      rw [hrun] at hfirst
      obtain ⟨fresh, broken, hgrown, hhalts⟩ := hfirst
      exact ⟨fresh, broken, hgrown, .inl hhalts⟩
  | ok a s₁ =>
      rw [hrun] at hfirst
      obtain ⟨hpost, hspan₁, fresh, hgrown, hserves⟩ := hfirst
      have hsecond := hf a hpost s₁ (hspan₁.trans hspan) hgrown.covering
      dsimp only
      cases hrun' : f a s₁ with
      | error failure s₂ =>
          rw [hrun'] at hsecond
          obtain ⟨fresh', broken, hgrown', hends⟩ := hsecond
          refine ⟨fresh ++ fresh', broken, ?_, ?_⟩
          · rw [scans_append]
            exact hgrown.trans hgrown'
          · refine hends.imp_right fun ⟨hnone, hfunction, hserves'⟩ => ?_
            exact ⟨hnone, hfunction, hserves.append hgrown' hserves'⟩
      | ok b s₂ =>
          rw [hrun'] at hsecond
          obtain ⟨fresh', hgrown', hserves'⟩ := hsecond
          refine ⟨fresh ++ fresh', ?_, hserves.append hgrown' hserves'⟩
          rw [scans_append]
          exact hgrown.trans hgrown'

omit hvalid in
theorem consults_checkCancelled : e.Consults child e.checkCancelled [] fun _ => True := by
  intro s hspan hcovering
  rw [checkCancelled_apply]
  by_cases hup : (e.cancellable && s.session.cancelled) = true
  · rw [if_pos hup]
    exact ⟨[], none, grown_of_unmoved (.refl s) hcovering, .cancelled none⟩
  · rw [if_neg hup]
    exact ⟨trivial, rfl, [], grown_of_unmoved (.refl s) hcovering, by simp [Serves]⟩

theorem traverses_scan (policy : SubjectErrorPolicy) (position : Nat) {m : TriplesMap}
    (hm : m ∈ e.graph.triplesMaps) {subjectMap : SubjectMap}
    (hsubject : m.subjectMap = some subjectMap) (items : List Item) :
    ∀ n, e.Traverses m.iri
      (e.scan m.iri (fun _ => e.visitRecord policy m (blankScope position) subjectMap) n () items)
      (e.consultedOver policy position m n items) := by
  induction items with
  | nil =>
      intro n s hspan hcovering
      exact ⟨[], grown_of_unmoved (.refl s) hcovering, by simp [Serves, consultedOver]⟩
  | cons item items ih =>
      intro n
      refine traverses_bind (consults_of_calm (Step.calm_receive e.provider)) fun _ _ => ?_
      refine traverses_bind consults_checkCancelled fun _ _ => ?_
      cases item with
      | error fault =>
          intro s hspan hcovering
          exact ⟨[], none, grown_of_unmoved (.refl s) hcovering, .inl (.own (some n) fault)⟩
      | ok record =>
          by_cases haborts : e.Aborts policy position m record
          · intro s hspan hcovering
            obtain ⟨failure, s', hrun, hunmoved, hfunction⟩ :=
              visitRecord_of_aborts hsubject n haborts s
            rw [consultedOver_of_aborts haborts]
            dsimp only
            rw [Step.bind_apply, hrun]
            refine ⟨[], none, grown_of_unmoved hunmoved hcovering, .inr ⟨rfl, hfunction, ?_⟩⟩
            simp [Serves]
          · rw [consultedOver_of_not_aborts haborts]
            exact traverses_bind (consults_visitRecord hvalid hm hsubject n haborts) fun _ _ =>
              ih (n + 1)

end Valid

end Engine

end RdfMapping
