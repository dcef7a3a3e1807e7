/-
When a parent is scanned again.

A triples map opens its own source and then scans the parents that it consults and that have no
index yet; `stretch` are the landmarks of this.  Most scans leave an index, and then no later
triples map scans the parent.  One that leaves none ends its triples map, and if the run goes on
all the same the next triples map that consults the parent scans it anew.

`Engine.Settled` says this of a run between two triples maps: there is an index for each scan but
for those that cost their child.  It is what one triples map preserves, and with it what a run
preserves, together with where its triples maps got by (`Engine.Passes`).
-/
import RdfMapping.Proofs.Execution.Consultation
import RdfMapping.Proofs.Execution.Losses

namespace RdfMapping

/-! ### Triples maps -/

/-- The landmarks of a triples map. -/
def stretch (iri : String) (fresh : List String) (broken : Option String) (lost : Option Error) :
    List Landmark :=
  .own iri :: (scans iri fresh broken ++ lost.toList.map (.lost iri))

theorem stretch_none (iri : String) (fresh : List String) (broken : Option String) :
    stretch iri fresh broken none = [.own iri] ++ scans iri fresh broken := by
  simp [stretch]

namespace Engine

/-- Being given up opens nothing. -/
theorem Grown.lost {e : Engine} {iri : String} {fresh : List String} {broken : Option String}
    {error : Error} {s s₁ s₂ : RunState}
    (h : e.Grown (stretch iri fresh broken none) fresh broken s s₁)
    (hlandmarks : s₂.landmarks = s₁.landmarks ++ [.lost iri error])
    (hopened : s₂.session.opened = s₁.session.opened) (hindexes : s₂.indexes = s₁.indexes) :
    e.Grown (stretch iri fresh broken (some error)) fresh broken s s₂ := by
  have hmarks : stretch iri fresh broken (some error)
      = stretch iri fresh broken none ++ [.lost iri error] := by
    simp [stretch]
  have hindexed : ∀ parent, s₂.Indexed parent ↔ s.Indexed parent ∨ parent ∈ fresh := by
    simpa [RunState.Indexed, hindexes] using h.indexed
  refine ⟨?_, ?_, hindexed, h.new, h.known, h.nodup, ?_⟩
  · rw [hlandmarks, h.landmarks, hmarks, List.append_assoc]
  · have hnone : e.graph.openings [.lost iri error] = [] := rfl
    rw [hopened, h.opened, hmarks, RuleGraph.openings_append, hnone, List.append_nil]
  · intro parent index hlookup
    rw [hindexes] at hlookup
    exact h.covering parent index hlookup

/-- The triples map went through the items of its source and consulted what it had to. -/
def Visits (e : Engine) (policy : SubjectErrorPolicy) (position : Nat) (m : TriplesMap)
    (fresh : List String) (s s' : RunState) : Prop :=
  ∃ source items, m.logicalSource = some source ∧
    e.provider.openAfter s.session.opened source = .ok items ∧
    Serves fresh (e.consultedOver policy position m 0 items) s'

/-- How a triples map ends with an error: by a source, by the signal, or after all it had to visit
by a subject that gives it up. -/
def GivesUp (e : Engine) (policy : SubjectErrorPolicy) (position : Nat) (m : TriplesMap)
    (fresh : List String) (broken : Option String) (error : Error) (s s' : RunState) : Prop :=
  Halts m.iri broken error ∨
    broken = none ∧ (∃ cause, error = .function cause) ∧ e.Visits policy position m fresh s s'

variable {e : Engine}

/-- A triples map opens its own source, and then consults parents. -/
theorem runTriplesMap_visits (hvalid : e.graph.validate = .ok ()) (policy : SubjectErrorPolicy)
    (position : Nat) {m : TriplesMap} (hm : m ∈ e.graph.triplesMaps) {s : RunState}
    (hcovering : e.Covering s) :
    match e.runTriplesMap policy position m s with
    | .ok _ s' => ∃ fresh, e.Grown (stretch m.iri fresh none none) fresh none s s' ∧
      e.Visits policy position m fresh s s'
    | .error failure s' => ∃ fresh broken,
      e.Grown (stretch m.iri fresh broken none) fresh broken s s' ∧
        e.GivesUp policy position m fresh broken failure.error s s' := by
  obtain ⟨source, hsource⟩ := RuleGraph.exists_source_of_mem hvalid hm
  obtain ⟨subjectMap, hsubject⟩ := RuleGraph.exists_subjectMap_of_mem hvalid hm
  -- Behind the opening of its own source the triples map is in its span.
  have hopening : e.Grown [.own m.iri] [] none s
      ((s.entering (.triplesMap m.iri)).opening source) := by
    refine ⟨?_, ?_, by simp [RunState.Indexed, RunState.opening, RunState.entering], by simp,
      by simp, by simp, hcovering⟩
    · exact s.landmarks_entering (.triplesMap m.iri)
    · have hopened : e.graph.openings [.own m.iri] = [source] := by
        simp [RuleGraph.openings, Landmark.opened?, RuleGraph.sourceOf?,
          RuleGraph.get?_of_mem hvalid hm, hsource]
      rw [hopened]
      rfl
  unfold runTriplesMap
  rw [Step.inSpan_apply, sourceOf_eq hsource, subjectMapOf_eq hsubject, pure_bind, pure_bind,
    Step.bind_apply, Step.openSource_apply]
  cases hitems : e.provider.openAfter (s.entering (.triplesMap m.iri)).session.opened source with
  | error fault =>
      exact ⟨[], none, hopening.of_same rfl rfl rfl, .inl (.own none fault)⟩
  | ok items =>
      have htraverses := traverses_scan hvalid policy position hm hsubject items 0
        ((s.entering (.triplesMap m.iri)).opening source) rfl hopening.covering
      dsimp only
      rw [Step.bind_apply]
      cases hrun : e.scan m.iri (fun _ => e.visitRecord policy m (blankScope position) subjectMap)
          0 () items ((s.entering (.triplesMap m.iri)).opening source) with
      | error failure s' =>
          rw [hrun] at htraverses
          obtain ⟨fresh, broken, hgrown, hends⟩ := htraverses
          have hall := hopening.trans hgrown
          rw [← stretch_none] at hall
          refine ⟨fresh, broken, hall.of_same rfl rfl rfl, ?_⟩
          rcases hends with hhalts | ⟨hnone, hfunction, hserves⟩
          · exact .inl hhalts
          · exact .inr ⟨hnone, hfunction, source, items, hsource, hitems, hserves⟩
      | ok _ s' =>
          rw [hrun] at htraverses
          obtain ⟨fresh, hgrown, hserves⟩ := htraverses
          have hall := hopening.trans hgrown
          rw [← stretch_none] at hall
          refine ⟨fresh, hall.of_same ?_ rfl rfl, source, items, hsource, hitems, hserves⟩
          have hlogged := s'.landmarks_push
            (.logged (.completed (s'.progress.stats m.iri .completed)) s'.span)
          exact hlogged.trans (List.append_nil _)

/-- What a triples map leaves behind is what it passed, and one landmark more if it was given up
and that was survived, which is then among its diagnostics. -/
theorem contribution_visits (hvalid : e.graph.validate = .ok ()) (c : Config) (position : Nat)
    {m : TriplesMap} (hm : m ∈ e.graph.triplesMaps) {s : RunState}
    (hcovering : e.Covering s) :
    match e.contribution c position m s with
    | .ok part s' => ∃ fresh broken lost,
      e.Grown (stretch m.iri fresh broken lost) fresh broken s s' ∧
        match lost with
        | none => broken = none ∧ e.Visits c.subjectFunctionErrors position m fresh s s'
        | some error => c.survives error = true ∧ (∃ d ∈ part.diagnostics, d.error = error) ∧
          e.GivesUp c.subjectFunctionErrors position m fresh broken error s s'
    | .error _ s' => ∃ fresh broken,
      e.Grown (stretch m.iri fresh broken none) fresh broken s s' := by
  have hvisits := runTriplesMap_visits hvalid c.subjectFunctionErrors position hm
    (show e.Covering { s with progress := {} } from hcovering)
  -- A clean slate has the landmarks, openings and indexes there were.
  have hslate : ∀ {marks fresh broken} {s' : RunState},
      e.Grown marks fresh broken { s with progress := {} } s' → e.Grown marks fresh broken s s' :=
    fun h => ⟨h.landmarks, h.opened, h.indexed, h.new, h.known, h.nodup, h.covering⟩
  rw [contribution_eq]
  cases hrun : e.runTriplesMap c.subjectFunctionErrors position m { s with progress := {} } with
  | ok _ s' =>
      rw [hrun] at hvisits
      obtain ⟨fresh, hgrown, hvisits⟩ := hvisits
      exact ⟨fresh, none, none, (hslate hgrown).of_same rfl rfl rfl, rfl, hvisits⟩
  | error failure s' =>
      rw [hrun] at hvisits
      obtain ⟨fresh, broken, hgrown, hends⟩ := hvisits
      dsimp only
      by_cases hsurvives : c.survives failure.error = true
      · rw [if_pos hsurvives]
        refine ⟨fresh, broken, some failure.error, ?_, hsurvives, ?_, hends⟩
        · exact (hslate hgrown).lost (s'.landmarks_push _) rfl rfl
        · exact ⟨⟨m.iri, failure.record, failure.error⟩, by simp, rfl⟩
      · rw [if_neg hsurvives]
        exact ⟨fresh, broken, (hslate hgrown).of_same rfl rfl rfl⟩

end Engine

/-! ### Landmarks of a stretch -/

/-- The triples maps that open their own source at some landmarks. -/
def owns (ls : List Landmark) : List String :=
  ls.filterMap fun
    | .own iri => some iri
    | _ => none

/-- The parents that are scanned at some landmarks. -/
def scanned (ls : List Landmark) : List String :=
  ls.filterMap fun
    | .scan _ parent => some parent
    | _ => none

variable {iri : String} {fresh : List String} {broken : Option String} {lost : Option Error}

theorem owns_append (ls ks : List Landmark) : owns (ls ++ ks) = owns ls ++ owns ks :=
  List.filterMap_append

theorem mem_owns {ls : List Landmark} : iri ∈ owns ls ↔ .own iri ∈ ls := by
  unfold owns
  rw [List.mem_filterMap]
  constructor
  · rintro ⟨l, hl, hown⟩
    cases l <;> simp_all
  · intro h
    exact ⟨.own iri, h, rfl⟩

theorem mem_scanned {ls : List Landmark} {parent : String} :
    parent ∈ scanned ls ↔ ∃ child, .scan child parent ∈ ls := by
  unfold scanned
  rw [List.mem_filterMap]
  constructor
  · rintro ⟨l, hl, hscan⟩
    cases l with
    | scan child other =>
        obtain rfl : other = parent := by simpa using hscan
        exact ⟨child, hl⟩
    | _ => simp at hscan
  · rintro ⟨child, h⟩
    exact ⟨.scan child parent, h, rfl⟩

theorem owns_stretch : owns (stretch iri fresh broken lost) = [iri] := by
  have hnone : ∀ l ∈ scans iri fresh broken ++ lost.toList.map (.lost iri),
      (match l with | .own other => some other | _ => none) = none := by
    intro l hl
    simp only [scans, List.mem_append, List.mem_flatMap, List.mem_map] at hl
    rcases hl with (⟨parent, -, hl⟩ | ⟨parent, -, rfl⟩) | ⟨error, -, rfl⟩
    · rcases List.mem_pair.mp hl with rfl | rfl <;> rfl
    · rfl
    · rfl
  unfold owns stretch
  rw [List.filterMap_cons, List.filterMap_eq_nil_iff.mpr hnone]

theorem scan_mem_scans {child parent : String} :
    .scan child parent ∈ scans iri fresh broken ↔
      child = iri ∧ parent ∈ fresh ++ broken.toList := by
  simp [scans, eq_comm (a := iri), and_or_left, and_comm]

theorem built_mem_stretch {parent : String} :
    .built parent ∈ stretch iri fresh broken lost ↔ parent ∈ fresh := by
  simp [stretch, scans]

theorem scan_mem_stretch {child parent : String} :
    .scan child parent ∈ stretch iri fresh broken lost ↔
      child = iri ∧ parent ∈ fresh ++ broken.toList := by
  rw [← scan_mem_scans]
  simp [stretch]

theorem lost_mem_stretch {child : String} {error : Error} :
    .lost child error ∈ stretch iri fresh broken lost ↔ child = iri ∧ lost = some error := by
  simp [stretch, scans, eq_comm (a := iri), and_comm]

/-! ### Scans of the same parent -/

/-- The child was given up because the source of the parent failed, which cost only the child. -/
def Config.Spares (c : Config) (ls : List Landmark) (child parent : String) : Prop :=
  c.sourceErrors = .skipTriplesMap ∧
    ∃ record fault, .lost child (.source parent record fault) ∈ ls

/-- What may not follow one landmark: a scan behind the index, and a scan of the same parent unless
it is for another child and the first child was given up. -/
structure Landmark.Apart (c : Config) (ls : List Landmark) (a b : Landmark) : Prop where
  built : ∀ child parent, a = .built parent → b ≠ .scan child parent
  scan : ∀ child other parent, a = .scan child parent → b = .scan other parent →
    child ≠ other ∧ c.Spares ls child parent

theorem Config.Spares.mono {c : Config} {ls ks : List Landmark} {child parent : String}
    (h : c.Spares ls child parent) (hsub : ∀ l ∈ ls, l ∈ ks) : c.Spares ks child parent := by
  obtain ⟨hskips, record, fault, hlost⟩ := h
  exact ⟨hskips, record, fault, hsub _ hlost⟩

theorem Landmark.Apart.mono {c : Config} {ls ks : List Landmark} {a b : Landmark}
    (h : Apart c ls a b) (hsub : ∀ l ∈ ls, l ∈ ks) : Apart c ks a b where
  built := h.built
  scan := by
    intro child other parent ha hb
    obtain ⟨hne, hspares⟩ := h.scan child other parent ha hb
    exact ⟨hne, hspares.mono hsub⟩

/-- Nothing is in the way of a landmark that is no scan. -/
theorem Landmark.apart_of_not_scan {c : Config} {ls : List Landmark} {a b : Landmark}
    (h : ∀ child parent, b ≠ .scan child parent) : Apart c ls a b :=
  ⟨fun child parent _ => h child parent, fun _ other parent _ hb => absurd hb (h other parent)⟩

theorem apart_scans (c : Config) (ls : List Landmark) (hnodup : (fresh ++ broken.toList).Nodup) :
    (scans iri fresh broken).Pairwise (Landmark.Apart c ls) := by
  induction fresh with
  | nil =>
      cases broken with
      | none => exact .nil
      | some parent => exact List.pairwise_singleton _ _
  | cons parent fresh ih =>
      obtain ⟨hparent, hrest⟩ := List.nodup_cons.mp hnodup
      have hlater : ∀ child, .scan child parent ∉ scans iri fresh broken :=
        fun child hscan => hparent (scan_mem_scans.mp hscan).2
      show List.Pairwise _ (.scan iri parent :: .built parent :: scans iri fresh broken)
      refine .cons (fun b hb => ⟨?_, ?_⟩) (.cons (fun b hb => ⟨?_, ?_⟩) (ih hrest))
      · rintro child other ⟨⟩
      · rintro child other p ⟨⟩ rfl
        exact absurd (by simpa using hb) (hlater other)
      · rintro child p ⟨⟩ rfl
        exact hlater child hb
      · rintro child other p ⟨⟩

theorem apart_stretch (c : Config) (ls : List Landmark)
    (hnodup : (fresh ++ broken.toList).Nodup) :
    (stretch iri fresh broken lost).Pairwise (Landmark.Apart c ls) := by
  have hlost : ∀ a, ∀ b ∈ lost.toList.map (Landmark.lost iri), Landmark.Apart c ls a b := by
    intro a b hb
    obtain ⟨error, -, rfl⟩ := List.mem_map.mp hb
    exact Landmark.apart_of_not_scan nofun
  refine .cons (fun b _ => ⟨nofun, nofun⟩) (List.pairwise_append.mpr ⟨?_, ?_, ?_⟩)
  · exact apart_scans c ls hnodup
  · exact List.pairwise_of_forall_mem_list fun a _ b hb => hlost a b hb
  · exact fun a _ b hb => hlost a b hb

/-! ### Between triples maps -/

namespace Engine

/-- A run up to a state: its sources were opened where the landmarks say, and scans of the same
parent are apart. -/
structure Orderly (e : Engine) (c : Config) (start : Session) (s : RunState) : Prop where
  opened : s.session.opened = start.opened ++ e.graph.openings s.landmarks
  apart : s.landmarks.Pairwise (Landmark.Apart c s.landmarks)

/-- A run up to a state between two triples maps: the indexes are those that the landmarks speak
of, and each scan left an index or cost its child. -/
structure Settled (e : Engine) (c : Config) (start : Session) (done : List String)
    (s : RunState) : Prop extends e.Orderly c start s where
  covering : e.Covering s
  owns : owns s.landmarks = done
  built : ∀ parent, .built parent ∈ s.landmarks ↔ s.Indexed parent
  indexed : ∀ parent, s.Indexed parent → parent ∈ scanned s.landmarks
  known : ∀ parent ∈ scanned s.landmarks, (e.graph.get? parent).isSome = true
  scans : ∀ child parent, .scan child parent ∈ s.landmarks →
    child ∈ done ∧ (s.Indexed parent ∨ c.Spares s.landmarks child parent)

variable {e : Engine} {c : Config} {start : Session} {done : List String} {s s' : RunState}

theorem Settled.orderly_next (h : e.Settled c start done s) (hnew : iri ∉ done)
    (hgrown : e.Grown (stretch iri fresh broken lost) fresh broken s s') :
    e.Orderly c start s' := by
  refine ⟨?_, ?_⟩
  · rw [hgrown.opened, h.opened, hgrown.landmarks, RuleGraph.openings_append, List.append_assoc]
  · have hsub : ∀ l ∈ s.landmarks, l ∈ s'.landmarks :=
      fun l hl => hgrown.mem_landmarks.mpr (.inl hl)
    have hbefore := h.apart.imp fun hab => Landmark.Apart.mono hab hsub
    rw [hgrown.landmarks] at hbefore hsub ⊢
    refine List.pairwise_append.mpr ⟨hbefore, apart_stretch c _ hgrown.nodup, ?_⟩
    -- What is scanned now had no index, so it was not scanned before except for lost children.
    intro a ha b hb
    refine ⟨?_, ?_⟩
    · rintro child parent rfl rfl
      exact hgrown.new parent (scan_mem_stretch.mp hb).2 ((h.built parent).mp ha)
    · rintro child other parent rfl rfl
      obtain ⟨rfl, hparent⟩ := scan_mem_stretch.mp hb
      obtain ⟨hchild, hkept⟩ := h.scans child parent ha
      rcases hkept with hindexed | hspares
      · exact absurd hindexed (hgrown.new parent hparent)
      · exact ⟨fun heq => hnew (heq ▸ hchild), hspares.mono hsub⟩

theorem Settled.next (h : e.Settled c start done s) (hnew : iri ∉ done)
    (hgrown : e.Grown (stretch iri fresh broken lost) fresh broken s s')
    (hbroken : ∀ parent, broken = some parent → c.Spares s'.landmarks iri parent) :
    e.Settled c start (done ++ [iri]) s' := by
  have hsub : ∀ l ∈ s.landmarks, l ∈ s'.landmarks :=
    fun l hl => hgrown.mem_landmarks.mpr (.inl hl)
  have hscan : ∀ child parent, .scan child parent ∈ s'.landmarks ↔
      .scan child parent ∈ s.landmarks ∨ child = iri ∧ parent ∈ fresh ++ broken.toList := by
    intro child parent
    rw [hgrown.mem_landmarks, scan_mem_stretch]
  refine ⟨h.orderly_next hnew hgrown, hgrown.covering, ?_, fun parent => ?_, fun parent => ?_,
    fun parent => ?_, fun child parent => ?_⟩
  · rw [hgrown.landmarks, owns_append, h.owns, owns_stretch]
  · rw [hgrown.mem_landmarks, h.built, built_mem_stretch, hgrown.indexed]
  · rw [hgrown.indexed, mem_scanned]
    rintro (hindexed | hfresh)
    · obtain ⟨child, hold⟩ := mem_scanned.mp (h.indexed parent hindexed)
      exact ⟨child, hsub _ hold⟩
    · exact ⟨iri, (hscan iri parent).mpr (.inr ⟨rfl, List.mem_append_left _ hfresh⟩)⟩
  · rw [mem_scanned]
    rintro ⟨child, hmem⟩
    rcases (hscan child parent).mp hmem with hold | ⟨-, hfresh⟩
    · exact h.known parent (mem_scanned.mpr ⟨child, hold⟩)
    · exact hgrown.known parent hfresh
  · rw [hscan, hgrown.indexed]
    rintro (hold | ⟨rfl, hfresh⟩)
    · obtain ⟨hchild, hkept⟩ := h.scans child parent hold
      exact ⟨List.mem_append_left _ hchild, hkept.imp .inl fun hspares => hspares.mono hsub⟩
    · refine ⟨by simp, ?_⟩
      rcases List.mem_append.mp hfresh with hfresh | hparent
      · exact .inl (.inr hfresh)
      · exact .inr (hbroken parent (by simpa using hparent))

/-! ### Going through triples maps -/

variable {policy : SubjectErrorPolicy} {position : Nat} {m : TriplesMap} {error : Error}

/-- What broke a triples map that the run survives was the source of the parent. -/
theorem GivesUp.spares (h : e.GivesUp policy position m fresh broken error s s')
    (hsurvives : c.survives error = true) {ls : List Landmark} (hlost : .lost m.iri error ∈ ls) :
    ∀ parent, broken = some parent → c.Spares ls m.iri parent := by
  intro parent hbroken
  rcases h with hhalts | ⟨hnone, -⟩
  · cases hhalts with
    | parent iri record fault =>
        obtain rfl : iri = parent := by simpa using hbroken
        rw [c.survives_of_isSource rfl] at hsurvives
        exact ⟨by simpa using hsurvives, record, fault, hlost⟩
    | own record fault => cases hbroken
    | cancelled => cases hsurvives
  · rw [hnone] at hbroken
    cases hbroken

/-- A triples map that is given up for anything else than a source visited all it had to. -/
theorem GivesUp.visits (h : e.GivesUp policy position m fresh broken error s s')
    (hsurvives : c.survives error = true) (hclean : error.isSource = false) :
    broken = none ∧ e.Visits policy position m fresh s s' := by
  rcases h with hhalts | ⟨hnone, -, hvisits⟩
  · cases hhalts with
    | parent iri record fault => cases hclean
    | own record fault => cases hclean
    | cancelled => cases hsurvives
  · exact ⟨hnone, hvisits⟩

/-- What is known of a triples map that the run went through or survived. -/
structure Passed (e : Engine) (c : Config) (position : Nat) (m : TriplesMap) (part : Contribution)
    (fresh : List String) (broken : Option String) (lost : Option Error) (s s' : RunState) :
    Prop where
  grown : e.Grown (stretch m.iri fresh broken lost) fresh broken s s'
  lost : ∀ error, lost = some error → ∃ d ∈ part.diagnostics, d.error = error
  visits : (∀ d ∈ part.diagnostics, d.error.isSource = false) →
    broken = none ∧ e.Visits c.subjectFunctionErrors position m fresh s s'

theorem Settled.contribution (h : e.Settled c start done s) (hvalid : e.graph.validate = .ok ())
    (position : Nat) (hm : m ∈ e.graph.triplesMaps) (hnew : m.iri ∉ done) :
    match e.contribution c position m s with
    | .ok part s' => e.Settled c start (done ++ [m.iri]) s' ∧
      ∃ fresh broken lost, e.Passed c position m part fresh broken lost s s'
    | .error _ s' => e.Orderly c start s' := by
  have hvisits := contribution_visits hvalid c position hm h.covering
  cases hrun : e.contribution c position m s with
  | error failure s' =>
      rw [hrun] at hvisits
      obtain ⟨fresh, broken, hgrown⟩ := hvisits
      exact h.orderly_next hnew hgrown
  | ok part s' =>
      rw [hrun] at hvisits
      obtain ⟨fresh, broken, lost, hgrown, hends⟩ := hvisits
      cases lost with
      | none =>
          obtain ⟨rfl, hvisits⟩ := hends
          refine ⟨h.next hnew hgrown nofun, fresh, none, none, hgrown, nofun, ?_⟩
          exact fun _ => ⟨rfl, hvisits⟩
      | some error =>
          obtain ⟨hsurvives, ⟨d, hd, rfl⟩, hgivesUp⟩ := hends
          have hlost : .lost m.iri d.error ∈ s'.landmarks :=
            hgrown.mem_landmarks.mpr (.inr (lost_mem_stretch.mpr ⟨rfl, rfl⟩))
          have hspares := hgivesUp.spares hsurvives hlost
          refine ⟨h.next hnew hgrown hspares, fresh, broken, some d.error, hgrown, ?_, ?_⟩
          · intro error herror
            exact ⟨d, hd, Option.some.inj herror⟩
          · intro hclean
            exact hgivesUp.visits hsurvives (hclean d hd)

/-- The triples map consults the parent, over the items that its source has when its turn comes in
a run with these landmarks. -/
def ConsultedIn (e : Engine) (policy : SubjectErrorPolicy) (start : Session) (ls : List Landmark)
    (entry : Nat × TriplesMap) (parent : String) : Prop :=
  ∃ source items, entry.2.logicalSource = some source ∧
    e.provider.openAfter
      (start.opened ++ e.graph.openings (ls.takeWhile (· != .own entry.2.iri))) source = .ok items ∧
    parent ∈ e.consultedOver policy entry.1 entry.2 0 items

/-- Where a run gets by going through some triples maps. -/
structure Passes (e : Engine) (c : Config) (start : Session) (selected : List (Nat × TriplesMap))
    (parts : List Contribution) (s s' : RunState) : Prop where
  grows : s.landmarks <+: s'.landmarks
  indexed : ∀ parent, s.Indexed parent → s'.Indexed parent
  scans : ∀ child parent, .scan child parent ∈ s'.landmarks →
    .scan child parent ∈ s.landmarks ∨ child ∈ selected.map (·.2.iri)
  losses : ∀ child error, .lost child error ∈ s'.landmarks →
    .lost child error ∈ s.landmarks ∨ ∃ d ∈ parts.flatMap (·.diagnostics), d.error = error
  consults : (∀ d ∈ parts.flatMap (·.diagnostics), d.error.isSource = false) →
    ∀ entry ∈ selected, ∀ parent,
      (e.ConsultedIn c.subjectFunctionErrors start s'.landmarks entry parent → s'.Indexed parent) ∧
      (.scan entry.2.iri parent ∈ s'.landmarks →
        e.ConsultedIn c.subjectFunctionErrors start s'.landmarks entry parent)

theorem Passes.nil : e.Passes c start [] [] s s :=
  ⟨List.prefix_refl _, fun _ => id, fun _ _ => .inl, fun _ _ => .inl, fun _ _ h => nomatch h⟩

variable {part : Contribution} {selected : List (Nat × TriplesMap)} {parts : List Contribution}
  {s₁ : RunState}

/-- The turn of a triples map comes after the landmarks before it. -/
theorem Passed.takeWhile_landmarks (h : e.Passed c position m part fresh broken lost s s₁)
    (hnew : .own m.iri ∉ s.landmarks) (hgrows : s₁.landmarks <+: s'.landmarks) :
    s'.landmarks.takeWhile (· != .own m.iri) = s.landmarks := by
  obtain ⟨later, hlater⟩ := hgrows
  rw [← hlater, h.grown.landmarks, stretch, List.append_assoc, List.cons_append]
  rw [List.takeWhile_append_of_pos, List.takeWhile_cons_of_neg (by simp), List.append_nil]
  intro l hl
  have hne : l ≠ .own m.iri := fun heq => hnew (heq ▸ hl)
  simpa using hne

/-- The first triples map consults what it visits. -/
theorem Passed.consultedIn_iff (h : e.Passed c position m part fresh broken lost s s₁)
    (hsettled : e.Settled c start done s) (hnew : m.iri ∉ done)
    (hgrows : s₁.landmarks <+: s'.landmarks) {source : LogicalSource} {items : List Item}
    (hsource : m.logicalSource = some source)
    (hitems : e.provider.openAfter s.session.opened source = .ok items) (parent : String) :
    e.ConsultedIn policy start s'.landmarks (position, m) parent ↔
      parent ∈ e.consultedOver policy position m 0 items := by
  have hown : .own m.iri ∉ s.landmarks := by
    rw [← mem_owns, hsettled.owns]
    exact hnew
  unfold ConsultedIn
  rw [h.takeWhile_landmarks hown hgrows, ← hsettled.opened]
  constructor
  · rintro ⟨source', items', hsource', hitems', hparent⟩
    obtain rfl : source = source' := Option.some.inj (hsource.symm.trans hsource')
    obtain rfl : items = items' := Except.ok.inj (hitems.symm.trans hitems')
    exact hparent
  · intro hparent
    exact ⟨source, items, hsource, hitems, hparent⟩

theorem Passed.cons (hfirst : e.Passed c position m part fresh broken lost s s₁)
    (hrest : e.Passes c start selected parts s₁ s') (hsettled : e.Settled c start done s)
    (hnew : m.iri ∉ done) (hothers : m.iri ∉ selected.map (·.2.iri)) :
    e.Passes c start ((position, m) :: selected) (part :: parts) s s' := by
  refine ⟨?_, fun parent hparent => ?_, fun child parent hscan => ?_, fun child error hlost => ?_,
    fun hclean => ?_⟩
  · exact List.IsPrefix.trans ⟨_, hfirst.grown.landmarks.symm⟩ hrest.grows
  · exact hrest.indexed parent ((hfirst.grown.indexed parent).mpr (.inl hparent))
  · rcases hrest.scans child parent hscan with hscan | hchild
    · rw [hfirst.grown.mem_landmarks, scan_mem_stretch] at hscan
      exact hscan.imp_right fun h => by simp [h.1]
    · exact .inr (List.mem_cons_of_mem _ hchild)
  · rw [List.flatMap_cons]
    rcases hrest.losses child error hlost with hlost | ⟨d, hd, herror⟩
    · rw [hfirst.grown.mem_landmarks, lost_mem_stretch] at hlost
      refine hlost.imp_right fun ⟨_, hsome⟩ => ?_
      obtain ⟨d, hd, herror⟩ := hfirst.lost error hsome
      exact ⟨d, List.mem_append_left _ hd, herror⟩
    · exact .inr ⟨d, List.mem_append_right _ hd, herror⟩
  · rw [List.flatMap_cons] at hclean
    have hclean₁ := fun d hd => hclean d (List.mem_append_left _ hd)
    have hlater := hrest.consults fun d hd => hclean d (List.mem_append_right _ hd)
    obtain ⟨rfl, source, items, hsource, hitems, hserves⟩ := hfirst.visits hclean₁
    intro entry hentry parent
    rcases List.mem_cons.mp hentry with rfl | hentry
    · rw [hfirst.consultedIn_iff hsettled hnew hrest.grows hsource hitems]
      refine ⟨fun hparent => hrest.indexed parent (hserves.2 parent hparent), fun hscan => ?_⟩
      -- A scan for this triples map belongs to none of the others, before it or behind it.
      have hscan₁ := (hrest.scans _ parent hscan).resolve_right hothers
      rw [hfirst.grown.mem_landmarks, scan_mem_stretch] at hscan₁
      rcases hscan₁ with hold | ⟨-, hfresh⟩
      · exact absurd (hsettled.scans _ parent hold).1 hnew
      · exact hserves.1 parent (by simpa using hfresh)
    · exact hlater entry hentry parent

/-- **A run that goes through triples maps stays settled, and one that fails was in order.** -/
theorem Settled.contributions (h : e.Settled c start done s) (hvalid : e.graph.validate = .ok ())
    (hselected : ∀ entry ∈ selected, entry.2 ∈ e.graph.triplesMaps)
    (hdistinct : (done ++ selected.map (·.2.iri)).Nodup) :
    match e.contributions c selected s with
    | .ok parts s' => e.Settled c start (done ++ selected.map (·.2.iri)) s' ∧
      e.Passes c start selected parts s s'
    | .error _ s' => e.Orderly c start s' := by
  induction selected generalizing s done with
  | nil =>
      rw [List.map_nil, List.append_nil]
      exact ⟨h, .nil⟩
  | cons entry selected ih =>
      obtain ⟨position, m⟩ := entry
      obtain ⟨-, hrest, hdisjoint⟩ := List.nodup_append.mp hdistinct
      have hnew : m.iri ∉ done := fun hdone => hdisjoint m.iri hdone m.iri (by simp) rfl
      have hothers : m.iri ∉ selected.map (·.2.iri) := (List.nodup_cons.mp hrest).1
      have hm : m ∈ e.graph.triplesMaps := hselected (position, m) (by simp)
      have hfirst := h.contribution hvalid position hm hnew
      rw [contributions_cons_apply]
      cases hrun : e.contribution c position m s with
      | error failure s₁ =>
          rw [hrun] at hfirst
          exact hfirst
      | ok part s₁ =>
          rw [hrun] at hfirst
          obtain ⟨hsettled, fresh, broken, lost, hpassed⟩ := hfirst
          rw [List.map_cons, List.append_cons] at hdistinct ⊢
          have hlater := ih hsettled (fun entry hentry => hselected entry (by simp [hentry]))
            hdistinct
          dsimp only
          cases hrun' : e.contributions c selected s₁ with
          | error failure s' =>
              rw [hrun'] at hlater
              exact hlater
          | ok parts s' =>
              rw [hrun'] at hlater
              exact ⟨hlater.1, hpassed.cons hlater.2 h hnew hothers⟩

end Engine

end RdfMapping
