/-
Which rule graphs validation accepts, and what it says about the others.

A triples map is `Complete` among some identities if it has all it needs and its parents are
among them; a graph is accepted exactly if all its triples maps are complete among the
identities it declares and no identity is declared twice.  In a graph that is not accepted
there is a `FirstFlaw`: a triples map that is not complete or repeats an identity, behind
triples maps of which neither can be said.  It is the one that the error names, and it has the
fault that the error tells, `TriplesMap.HasFault`.

Neither notion mentions positions.  They enter through `executable_after_iff`, on a triples map
behind those declared before it, from which `executable_before_iff` follows by adding one
triples map after the other.
-/
import Mathlib.Data.List.Nodup
import RdfMapping.Proofs.Rules.Indexed

namespace RdfMapping

/-! ### Complete triples maps -/

namespace TriplesMap

/-- The rules for the predicates of all statements. -/
def predicateMaps (m : TriplesMap) : List TermMap := m.predicateObjectMaps.flatMap (·.predicateMaps)

/-- The rules for graphs, of the subjects and of all statements. -/
def graphMaps (m : TriplesMap) : List TermMap :=
  m.subjectMap.elim [] (·.graphMaps) ++ m.predicateObjectMaps.flatMap (·.graphMaps)

theorem mem_predicateMaps {m : TriplesMap} {t : TermMap} :
    t ∈ m.predicateMaps ↔ ∃ p ∈ m.predicateObjectMaps, t ∈ p.predicateMaps :=
  List.mem_flatMap

theorem mem_graphMaps {m : TriplesMap} {t : TermMap} :
    t ∈ m.graphMaps ↔ (∃ s, m.subjectMap = some s ∧ t ∈ s.graphMaps) ∨
      ∃ p ∈ m.predicateObjectMaps, t ∈ p.graphMaps := by
  rw [graphMaps, List.mem_append, List.mem_flatMap]
  cases m.subjectMap <;> simp

/-- A triples map has all it needs, and its parents are among the known identities. -/
structure Complete (known : List String) (m : TriplesMap) : Prop where
  source : m.logicalSource.isSome
  subject : ∃ s, m.subjectMap = some s ∧ s.termMap.termType ≠ .literal
  statements : ∀ p ∈ m.predicateObjectMaps, p.predicateMaps ≠ []
  predicates : ∀ t ∈ m.predicateMaps, t.termType = .iri
  graphs : ∀ t ∈ m.graphMaps, t.termType = .iri
  parents : ∀ r ∈ m.parents, r.parent ∈ known

/-- What a fault says about a triples map, given the identities declared before it and all that are
known. -/
def HasFault (earlier known : List String) (m : TriplesMap) : GraphFault → Prop
  | .duplicateIdentity => m.iri ∈ earlier
  | .missingLogicalSource => m.logicalSource = none
  | .missingSubjectMap => m.subjectMap = none
  | .literalSubject => ∃ s, m.subjectMap = some s ∧ s.termMap.termType = .literal
  | .missingPredicateMap => ∃ p ∈ m.predicateObjectMaps, p.predicateMaps = []
  | .notIri .graph => ∃ t ∈ m.graphMaps, t.termType ≠ .iri
  | .notIri .predicate => ∃ t ∈ m.predicateMaps, t.termType ≠ .iri
  | .unknownParent iri => (∃ r ∈ m.parents, r.parent = iri) ∧ iri ∉ known
  | .unknownTriplesMap => False
  | .refused _ => False

end TriplesMap

namespace RuleGraph

/-- The graph of some triples maps, added in order. -/
def ofList (ms : List TriplesMap) : RuleGraph := ms.foldl add {}

/-- Adding triples maps one by one keeps them as they are. -/
theorem ofList_eq (ms : List TriplesMap) : ofList ms = ⟨ms⟩ := by
  unfold ofList
  induction ms using List.reverseRecOn with
  | nil => rfl
  | append_singleton ms m ih => rw [List.foldl_append, ih, List.foldl_cons, List.foldl_nil, add]

/-! ### Complete triples maps can be executed -/

theorem complete_of_executable {g : RuleGraph} {position : Nat} {m : TriplesMap}
    (h : m.Executable g position) : m.Complete (g.triplesMaps.map (·.iri)) := by
  obtain ⟨s, hsubject, hs⟩ := h.subject
  refine ⟨h.source, ⟨s, hsubject, hs.subject⟩, fun p hp => (h.statements p hp).nonempty,
    fun t ht => ?predicates, fun t ht => ?graphs, fun r hr => ?parents⟩
  case predicates =>
    obtain ⟨p, hp, htp⟩ := TriplesMap.mem_predicateMaps.mp ht
    exact (h.statements p hp).predicates t htp
  case graphs =>
    rcases TriplesMap.mem_graphMaps.mp ht with ⟨s', hsubject', hts⟩ | ⟨p, hp, htp⟩
    · obtain rfl : s = s' := Option.some.inj (hsubject.symm.trans hsubject')
      exact hs.graphs t hts
    · exact (h.statements p hp).graphs t htp
  case parents =>
    obtain ⟨p, hp, hrp⟩ := List.mem_flatMap.mp hr
    exact isSome_get?_iff.mp ((h.statements p hp).parents r hrp)

theorem executable_of_complete {g : RuleGraph} {position : Nat} {m : TriplesMap}
    (hidentity : g.position? m.iri = some position)
    (h : m.Complete (g.triplesMaps.map (·.iri))) : m.Executable g position := by
  obtain ⟨s, hsubject, hliteral⟩ := h.subject
  have hgraphs : ∀ t ∈ s.graphMaps, t.termType = .iri := fun t ht =>
    h.graphs t (TriplesMap.mem_graphMaps.mpr (.inl ⟨s, hsubject, ht⟩))
  refine ⟨hidentity, h.source, ⟨s, hsubject, hliteral, hgraphs⟩, fun p hp => ?_⟩
  refine ⟨h.statements p hp, fun t ht => ?predicates, fun t ht => ?graphs, fun r hr => ?parents⟩
  case predicates => exact h.predicates t (TriplesMap.mem_predicateMaps.mpr ⟨p, hp, ht⟩)
  case graphs => exact h.graphs t (TriplesMap.mem_graphMaps.mpr (.inr ⟨p, hp, ht⟩))
  case parents => exact isSome_get?_iff.mpr (h.parents r (List.mem_flatMap.mpr ⟨p, hp, hr⟩))

section Split

variable {before after : List TriplesMap} {m : TriplesMap}

/-- A triples map has its position to itself unless its identity was declared before. -/
theorem position?_after_iff :
    position? ⟨before ++ m :: after⟩ m.iri = some before.length ↔ m.iri ∉ before.map (·.iri) := by
  simp [position?_eq_some_iff]

theorem executable_after_iff :
    m.Executable ⟨before ++ m :: after⟩ before.length ↔
      m.iri ∉ before.map (·.iri) ∧ m.Complete ((before ++ m :: after).map (·.iri)) := by
  rw [← position?_after_iff]
  constructor
  · intro h
    exact ⟨h.identity, complete_of_executable h⟩
  · rintro ⟨hidentity, hcomplete⟩
    exact executable_of_complete hidentity hcomplete

/-- The triples maps that are declared first can be executed if they are complete and differ from
each other; those behind them only have to be there as parents. -/
theorem executable_before_iff :
    (∀ entry ∈ before.zipIdx, entry.1.Executable ⟨before ++ after⟩ entry.2) ↔
      (before.map (·.iri)).Nodup ∧
        ∀ b ∈ before, b.Complete ((before ++ after).map (·.iri)) := by
  -- What is moved from the one list to the other leaves the graph as it is.
  induction before using List.reverseRecOn generalizing after with
  | nil => simp
  | append_singleton before m ih =>
      have hdistinct : ((before ++ [m]).map (·.iri)).Nodup ↔
          (before.map (·.iri)).Nodup ∧ m.iri ∉ before.map (·.iri) := by
        rw [List.map_append, List.map_singleton, ← List.concat_eq_append, List.nodup_concat,
          and_comm]
      have hlast : (∀ entry ∈ [m].zipIdx before.length,
          entry.1.Executable ⟨before ++ m :: after⟩ entry.2) ↔
            m.iri ∉ before.map (·.iri) ∧ m.Complete ((before ++ m :: after).map (·.iri)) := by
        rw [List.zipIdx_singleton, List.forall_mem_singleton, executable_after_iff]
      rw [List.append_assoc, List.singleton_append, List.zipIdx_append, List.forall_mem_append, ih,
        Nat.zero_add, hlast, hdistinct, List.forall_mem_append, List.forall_mem_singleton]
      exact and_and_and_comm

end Split

/-- Validation succeeds exactly if all triples maps are complete and none repeats an identity. -/
theorem accepted_iff {ms : List TriplesMap} :
    validate ⟨ms⟩ = .ok () ↔
      (ms.map (·.iri)).Nodup ∧ ∀ m ∈ ms, m.Complete (ms.map (·.iri)) := by
  have hall := @executable_before_iff ms []
  rw [List.append_nil] at hall
  rw [← hall, validate_eq_ok_iff]
  simp only [Prod.forall, List.mem_zipIdx_iff_getElem?]
  exact forall_comm

/-! ### Faults -/

section Faults

variable {g : RuleGraph} {m : TriplesMap} {earlier known : List String} {fault : GraphFault}

theorem checkIris_eq_error_iff {place : IriPlace} {maps : List TermMap} :
    checkIris place maps = .error fault ↔
      (∃ t ∈ maps, t.termType ≠ .iri) ∧ fault = .notIri place := by
  unfold checkIris
  split
  · rename_i hany
    have hother : ∃ t ∈ maps, t.termType ≠ .iri := by simpa using hany
    rw [and_iff_right hother, Except.error.injEq, eq_comm]
  · rename_i hany
    have hall : ¬ ∃ t ∈ maps, t.termType ≠ .iri := by simpa using hany
    exact iff_of_false nofun fun h => hall h.1

theorem checkObjectMap_eq_error_iff {o : ObjectMap} :
    g.checkObjectMap o = .error fault ↔
      ∃ r, o.parent? = some r ∧ ¬ (g.get? r.parent).isSome ∧ fault = .unknownParent r.parent := by
  cases o with
  | term t => simp [checkObjectMap, ObjectMap.parent?]
  | parent r =>
      simp only [checkObjectMap, ObjectMap.parent?, Option.some.injEq, exists_eq_left']
      by_cases hknown : (g.get? r.parent).isSome
      · simp [hknown]
      · rw [if_neg hknown, and_iff_right hknown, Except.error.injEq, eq_comm]

theorem hasFault_of_checkSubjectMap {s : SubjectMap} (hs : m.subjectMap = some s)
    (h : checkSubjectMap s = .error fault) : m.HasFault earlier known fault := by
  unfold checkSubjectMap at h
  split at h
  · rename_i hliteral
    cases h
    exact ⟨s, hs, hliteral⟩
  · obtain ⟨⟨t, ht, hother⟩, rfl⟩ := checkIris_eq_error_iff.mp h
    exact ⟨t, TriplesMap.mem_graphMaps.mpr (.inl ⟨s, hs, ht⟩), hother⟩

theorem hasFault_of_checkPredicateObjectMap {p : PredicateObjectMap}
    (hp : p ∈ m.predicateObjectMaps) (h : g.checkPredicateObjectMap p = .error fault) :
    m.HasFault earlier (g.triplesMaps.map (·.iri)) fault := by
  unfold checkPredicateObjectMap at h
  split at h
  · rename_i hempty
    cases h
    exact ⟨p, hp, List.isEmpty_iff.mp hempty⟩
  · rcases bind_eq_error_iff.mp h with hpredicates | ⟨-, -, h⟩
    · obtain ⟨⟨t, ht, hother⟩, rfl⟩ := checkIris_eq_error_iff.mp hpredicates
      exact ⟨t, TriplesMap.mem_predicateMaps.mpr ⟨p, hp, ht⟩, hother⟩
    rcases bind_eq_error_iff.mp h with hgraphs | ⟨-, -, h⟩
    · obtain ⟨⟨t, ht, hother⟩, rfl⟩ := checkIris_eq_error_iff.mp hgraphs
      exact ⟨t, TriplesMap.mem_graphMaps.mpr (.inr ⟨p, hp, ht⟩), hother⟩
    obtain ⟨_, o, _, hobjects, -, hparent⟩ := forM_eq_error_iff.mp h
    obtain ⟨r, hr, hunknown, rfl⟩ := checkObjectMap_eq_error_iff.mp hparent
    have ho : o ∈ p.objectMaps := by
      rw [hobjects]
      exact List.mem_append_cons_self
    have hrp : r ∈ m.parents :=
      List.mem_flatMap.mpr ⟨p, hp, List.mem_filterMap.mpr ⟨o, ho, hr⟩⟩
    exact ⟨⟨r, hrp, rfl⟩, fun hknown => hunknown (isSome_get?_iff.mpr hknown)⟩

/-- A triples map has the fault that it is refused for. -/
theorem hasFault_of_checkTriplesMap {position : Nat}
    (hposition : g.position? m.iri ≠ some position → m.iri ∈ earlier)
    (h : g.checkTriplesMap position m = .error fault) :
    m.HasFault earlier (g.triplesMaps.map (·.iri)) fault := by
  unfold checkTriplesMap at h
  by_cases hidentity : g.position? m.iri = some position
  · rw [if_neg (not_not.mpr hidentity)] at h
    by_cases hsource : m.logicalSource.isNone
    · rw [if_pos hsource] at h
      cases h
      exact Option.isNone_iff_eq_none.mp hsource
    · rw [if_neg hsource] at h
      cases hsubject : m.subjectMap with
      | none =>
          rw [hsubject] at h
          cases h
          exact hsubject
      | some s =>
          rw [hsubject] at h
          rcases bind_eq_error_iff.mp h with hs | ⟨_, -, hrest⟩
          · exact hasFault_of_checkSubjectMap hsubject hs
          · obtain ⟨_, p, _, hstatements, -, hp⟩ := forM_eq_error_iff.mp hrest
            have hmem : p ∈ m.predicateObjectMaps := by
              rw [hstatements]
              exact List.mem_append_cons_self
            exact hasFault_of_checkPredicateObjectMap hmem hp
  · rw [if_pos hidentity] at h
    cases h
    exact hposition hidentity

end Faults

/-! ### The verdict -/

/-- The first of some triples maps that is not complete or repeats an identity, with those before
and after it. -/
structure FirstFlaw (ms before : List TriplesMap) (m : TriplesMap) (after : List TriplesMap) :
    Prop where
  split : ms = before ++ m :: after
  distinct : (before.map (·.iri)).Nodup
  complete : ∀ b ∈ before, b.Complete (ms.map (·.iri))
  flawed : m.iri ∈ before.map (·.iri) ∨ ¬ m.Complete (ms.map (·.iri))

/-- Validation stops at the first triples map that cannot be executed. -/
theorem validate_eq_error_iff {ms : List TriplesMap} {error : GraphError} :
    validate ⟨ms⟩ = .error error ↔ ∃ before m after, ms = before ++ m :: after ∧
      (∀ entry ∈ before.zipIdx, entry.1.Executable ⟨ms⟩ entry.2) ∧ m.iri = error.triplesMap ∧
      checkTriplesMap ⟨ms⟩ before.length m = .error error.fault := by
  unfold validate
  rw [forM_eq_error_iff]
  simp only [mapError_eq_ok_iff, mapError_eq_error_iff, checkTriplesMap_eq_ok_iff]
  constructor
  · rintro ⟨earlier, ⟨m, position⟩, later, hzip, hearlier, fault, hfault, rfl⟩
    obtain ⟨before, rest, hms, rfl, hrest⟩ := List.zipIdx_eq_append_iff.mp hzip
    obtain ⟨m', after, rfl, hentry, -⟩ := List.zipIdx_eq_cons_iff.mp hrest.symm
    cases hentry
    rw [Nat.zero_add] at hfault
    exact ⟨before, m, after, hms, hearlier, rfl, hfault⟩
  · rintro ⟨before, m, after, hms, hbefore, hiri, hfault⟩
    refine ⟨before.zipIdx, (m, before.length), after.zipIdx (before.length + 1), ?_, hbefore,
      error.fault, hfault, by rw [hiri]⟩
    rw [hms, List.zipIdx_append, List.zipIdx_cons, Nat.zero_add]

/-- A first flaw is a triples map that cannot be executed behind some that can. -/
theorem firstFlaw_iff {ms before : List TriplesMap} {m : TriplesMap} {after : List TriplesMap} :
    FirstFlaw ms before m after ↔ ms = before ++ m :: after ∧
      (∀ entry ∈ before.zipIdx, entry.1.Executable ⟨ms⟩ entry.2) ∧
      ¬ m.Executable ⟨ms⟩ before.length := by
  constructor
  · rintro ⟨rfl, hdistinct, hcomplete, hflawed⟩
    rw [executable_before_iff, executable_after_iff, not_and_or, not_not]
    exact ⟨rfl, ⟨hdistinct, hcomplete⟩, hflawed⟩
  · rintro ⟨rfl, hbefore, hm⟩
    rw [executable_before_iff] at hbefore
    rw [executable_after_iff, not_and_or, not_not] at hm
    exact ⟨rfl, hbefore.1, hbefore.2, hm⟩

/-- The error names a first flaw and tells a fault that it has. -/
theorem exists_firstFlaw_of_error {ms : List TriplesMap} {error : GraphError}
    (h : validate ⟨ms⟩ = .error error) :
    ∃ before m after, FirstFlaw ms before m after ∧ m.iri = error.triplesMap ∧
      m.HasFault (before.map (·.iri)) (ms.map (·.iri)) error.fault := by
  obtain ⟨before, m, after, rfl, hbefore, hiri, hfault⟩ := validate_eq_error_iff.mp h
  have hm : ¬ m.Executable ⟨before ++ m :: after⟩ before.length := by
    rw [← checkTriplesMap_eq_ok_iff, hfault]
    nofun
  have hrepeated : position? ⟨before ++ m :: after⟩ m.iri ≠ some before.length →
      m.iri ∈ before.map (·.iri) := by
    rw [ne_eq, position?_after_iff, not_not]
    exact id
  exact ⟨before, m, after, firstFlaw_iff.mpr ⟨rfl, hbefore, hm⟩, hiri,
    hasFault_of_checkTriplesMap hrepeated hfault⟩

/-- A first flaw is named. -/
theorem FirstFlaw.named {ms before : List TriplesMap} {m : TriplesMap} {after : List TriplesMap}
    (h : FirstFlaw ms before m after) : ∃ fault, validate ⟨ms⟩ = .error ⟨m.iri, fault⟩ := by
  obtain ⟨hms, hbefore, hm⟩ := firstFlaw_iff.mp h
  rw [← checkTriplesMap_eq_ok_iff] at hm
  cases hcheck : checkTriplesMap ⟨ms⟩ before.length m with
  | ok _ => exact absurd hcheck hm
  | error fault =>
      exact ⟨fault, validate_eq_error_iff.mpr ⟨before, m, after, hms, hbefore, rfl, hcheck⟩⟩

/--
**Validation accepts exactly the graphs that can be executed**, whatever triples maps are added to
a graph.  Of any other graph it names the first triples map that is not complete or repeats an
identity, with a fault that this triples map has.  Identities are found where they are declared
first, as in the index that is filled along with the graph.
-/
theorem accepted_or_first_flaw_named (ms : List TriplesMap) :
    ((ofList ms).validate = .ok () ↔
        (ms.map (·.iri)).Nodup ∧ ∀ m ∈ ms, m.Complete (ms.map (·.iri))) ∧
      (∀ iri, (∃ fault, (ofList ms).validate = .error ⟨iri, fault⟩) ↔
        ∃ before m after, FirstFlaw ms before m after ∧ m.iri = iri) ∧
      (∀ error, (ofList ms).validate = .error error →
        ∃ before m after, FirstFlaw ms before m after ∧ m.iri = error.triplesMap ∧
          m.HasFault (before.map (·.iri)) (ms.map (·.iri)) error.fault) ∧
      ∀ iri,
        (∀ position, (ofList ms).position? iri = some position ↔
          (ms.map (·.iri))[position]? = some iri ∧ iri ∉ (ms.map (·.iri)).take position) ∧
        (Indexed.ofList ms).position? iri = (ofList ms).position? iri ∧
        (Indexed.ofList ms).get? iri = (ofList ms).get? iri := by
  rw [ofList_eq]
  refine ⟨accepted_iff, fun iri => ⟨?_, ?_⟩, fun error => exists_firstFlaw_of_error,
    fun iri => ⟨fun position => position?_eq_some_iff, Indexed.position?_ofList ms iri,
      Indexed.get?_ofList ms iri⟩⟩
  · rintro ⟨fault, h⟩
    obtain ⟨before, m, after, hflaw, hiri, -⟩ := exists_firstFlaw_of_error h
    exact ⟨before, m, after, hflaw, hiri⟩
  · rintro ⟨before, m, after, hflaw, rfl⟩
    exact hflaw.named

/-- A repeated identity is a flaw of the later triples map, and what comes behind that is not looked
at. -/
example :
    let room : TriplesMap :=
      (TriplesMap.ofSource "ex:Room" ⟨"rooms", .csv, none, none⟩).withSubjectMap (.reference "no")
    (ofList [room, room, { iri := "ex:Desk" }]).validate =
      .error ⟨"ex:Room", .duplicateIdentity⟩ := by
  rfl

end RuleGraph

end RdfMapping
