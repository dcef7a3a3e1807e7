/-
Rule graphs as documents.

A rule graph is stored and exchanged as a JSON text.  What is written can be read if it is not
nested too deeply, and reading it gives what was written: one lemma `denotes_toJson` per type of
rule, from the inside out.  The rules that make terms are nested in each other, so there the lemmas
are proved together, by recursion on the rules.  A template is written as its string alone and read
by parsing it; that this gives the same segments is `Template.parse_source`.

A text may have `Json.maxLevels` arrays and objects inside each other.  By
`RuleGraph.levels_toJson_le` no rule graph gets there with less than twenty-four calls of functions
inside each other.

The index of identities is not written.  A graph that is read gets it as every graph does, by
entering its triples maps one after the other, `RuleGraph.Indexed.ofList`.
-/
import RdfMapping.Json.Rules
import RdfMapping.Proofs.Json.Reader
import RdfMapping.Proofs.Rules.Indexed
import RdfMapping.Proofs.Rules.Nesting

namespace RdfMapping

open Json

/-! ### Rules that make terms -/

theorem TermType.denotes_toJson (t : TermType) : Denotes ofJson t.toJson t where
  writable := by cases t <;> trivial
  read_eq room := by cases t <;> rfl

theorem Template.ofJson_source (t : Template) : ofJson (.string t.source) = .ok t := by
  change (parse t.source).mapError DecodeError.template = .ok t
  rw [parse_source]
  rfl

theorem parametersToJson_eq_map (ps : List Parameter) :
    parametersToJson ps = ps.map (·.toJson) := by
  induction ps with
  | nil => rfl
  | cons p ps ih => rw [parametersToJson, ih, List.map_cons]

mutual

/-- A term map is read as it was written. -/
theorem TermMap.denotes_toJson : ∀ m : TermMap, Denotes TermMap.ofJson m.toJson m
  | ⟨source, termType, datatype, language⟩ => by
    have hsource := ValueSource.denotes_toJson source
    have htype := termType.denotes_toJson
    rw [TermMap.toJson]
    refine ⟨⟨hsource.writable, htype.writable, writable_ofOption datatype,
      writable_ofOption language, trivial⟩, fun room => ?_⟩
    rw [TermMap.ofJson]
    refine enterRecord_bind_eq_fit room rfl fun inside => ?_
    simp only [memberLevels, termType.levels_toJson, levels_ofOption, Nat.max_zero]
    refine bind_eq_of_ok rfl (bind_eq_of_ok rfl ?_)
    refine bind_eq_fit (hsource.read_eq inside) (by omega) fun hfits => ?_
    refine bind_eq_fit (htype.read_eq inside) (by simp [termType.levels_toJson]) fun _ => ?_
    refine bind_eq_of_ok (asString?_ofOption datatype) ?_
    refine bind_eq_of_ok (asString?_ofOption language) ?_
    exact (fit_of_le hfits _).symm

/-- So is the source of its values. -/
theorem ValueSource.denotes_toJson : ∀ s : ValueSource, Denotes ValueSource.ofJson s.toJson s
  | .constant value => by
    refine ⟨⟨trivial, trivial⟩, fun room => ?_⟩
    rw [ValueSource.ofJson, ValueSource.toJson]
    exact asChoice_bind_eq_fit room fun inside _ => rfl
  | .reference name => by
    refine ⟨⟨trivial, trivial⟩, fun room => ?_⟩
    rw [ValueSource.ofJson, ValueSource.toJson]
    exact asChoice_bind_eq_fit room fun inside _ => rfl
  | .template t => by
    refine ⟨⟨trivial, trivial⟩, fun room => ?_⟩
    rw [ValueSource.ofJson, ValueSource.toJson]
    exact asChoice_bind_eq_fit room fun inside _ => bind_eq_of_ok t.ofJson_source rfl
  | .function call => by
    have hcall := FunctionCall.denotes_toJson call
    refine ⟨⟨hcall.writable, trivial⟩, fun room => ?_⟩
    rw [ValueSource.ofJson, ValueSource.toJson]
    exact asChoice_bind_eq_fit room fun inside _ => hcall.read_bind_pure ValueSource.function inside

/-- So is a function call. -/
theorem FunctionCall.denotes_toJson :
    ∀ c : FunctionCall, Denotes FunctionCall.ofJson c.toJson c
  | ⟨function, parameters⟩ => by
    have hparameters := Denotes.asList (Parameter.denotes_toJson_of_mem parameters)
    rw [FunctionCall.toJson, parametersToJson_eq_map]
    refine ⟨⟨trivial, hparameters.writable, trivial⟩, fun room => ?_⟩
    rw [FunctionCall.ofJson]
    refine enterRecord_bind_eq_fit room rfl fun inside => ?_
    refine bind_eq_of_ok rfl (bind_eq_of_ok rfl (bind_eq_of_ok rfl ?_))
    simp only [memberLevels, levels_string, Nat.max_zero, Nat.zero_max]
    rw [← bind_assoc]
    exact hparameters.read_bind_pure (FunctionCall.mk function) inside

/-- So are the parameters of one. -/
theorem Parameter.denotes_toJson_of_mem :
    ∀ ps : List Parameter, ∀ p ∈ ps, Denotes Parameter.ofJson p.toJson p
  | [], _, hp => nomatch hp
  | p :: ps, q, hq => by
    rcases List.mem_cons.mp hq with hfirst | hlater
    · rw [hfirst]
      exact Parameter.denotes_toJson p
    · exact Parameter.denotes_toJson_of_mem ps q hlater

/-- So is each of them. -/
theorem Parameter.denotes_toJson : ∀ p : Parameter, Denotes Parameter.ofJson p.toJson p
  | ⟨name, value, required⟩ => by
    have hvalue := TermMap.denotes_toJson value
    rw [Parameter.toJson]
    refine ⟨⟨trivial, hvalue.writable, trivial, trivial⟩, fun room => ?_⟩
    rw [Parameter.ofJson]
    refine enterRecord_bind_eq_fit room rfl fun inside => ?_
    simp only [memberLevels, levels_string, levels_bool, Nat.max_zero, Nat.zero_max]
    refine bind_eq_of_ok rfl (bind_eq_of_ok rfl (bind_eq_of_ok rfl (bind_eq_of_ok rfl ?_)))
    refine bind_eq_fit (hvalue.read_eq inside) (by omega) fun hfits => ?_
    refine bind_eq_of_ok rfl ?_
    exact (fit_of_le hfits _).symm

end

/-- Term maps are read as they were written. -/
theorem TermMap.denotes_list (ms : List TermMap) :
    Denotes (asList TermMap.ofJson) (.array (ms.map (·.toJson))) ms :=
  Denotes.asList fun m _ => m.denotes_toJson

/-! ### Sources and references to parents -/

theorem ReferenceFormulation.denotes_toJson (f : ReferenceFormulation) :
    Denotes ofJson f.toJson f where
  writable := by cases f <;> trivial
  read_eq room := by
    cases f with
    | other name => exact enter_bind_eq_fit room fun inside => rfl
    | csv => rfl
    | jsonPath => rfl
    | xPath => rfl
    | sql => rfl

theorem LogicalSource.denotes_toJson (s : LogicalSource) : Denotes ofJson s.toJson s where
  writable := ⟨trivial, s.formulation.denotes_toJson.writable, writable_ofOption s.iterator,
    writable_ofOption s.query, trivial⟩
  read_eq room := by
    refine enterRecord_bind_eq_fit room rfl fun inside => ?_
    simp only [memberLevels, levels_string, levels_ofOption, Nat.max_zero, Nat.zero_max]
    refine bind_eq_of_ok rfl (bind_eq_of_ok rfl (bind_eq_of_ok rfl ?_))
    refine bind_eq_fit (s.formulation.denotes_toJson.read_eq inside) (Nat.le_refl _)
      fun hfits => ?_
    refine bind_eq_of_ok (asString?_ofOption s.iterator) ?_
    refine bind_eq_of_ok (asString?_ofOption s.query) ?_
    exact (fit_of_le hfits s).symm

theorem JoinCondition.denotes_toJson (c : JoinCondition) : Denotes ofJson c.toJson c where
  writable := ⟨trivial, trivial, trivial⟩
  read_eq room := enterRecord_bind_eq_fit room rfl fun _ => rfl

theorem RefObjectMap.denotes_toJson (r : RefObjectMap) : Denotes ofJson r.toJson r := by
  have hconditions : Denotes (asList JoinCondition.ofJson)
      (.array (r.conditions.map (·.toJson))) r.conditions :=
    Denotes.asList fun c _ => c.denotes_toJson
  refine ⟨⟨trivial, hconditions.writable, trivial⟩, fun room => ?_⟩
  refine enterRecord_bind_eq_fit room rfl fun inside => ?_
  refine bind_eq_of_ok rfl (bind_eq_of_ok rfl (bind_eq_of_ok rfl ?_))
  simp only [memberLevels, levels_string, Nat.max_zero, Nat.zero_max]
  exact hconditions.read_bind_pure (RefObjectMap.mk r.parent) inside

/-! ### Objects, subjects and triples maps -/

theorem ObjectMap.denotes_toJson (m : ObjectMap) : Denotes ofJson m.toJson m := by
  cases m with
  | term m =>
      have hterm := m.denotes_toJson
      refine ⟨⟨hterm.writable, trivial⟩, fun room => ?_⟩
      exact asChoice_bind_eq_fit room fun inside _ => hterm.read_bind_pure ObjectMap.term inside
  | parent r =>
      have hparent := r.denotes_toJson
      refine ⟨⟨hparent.writable, trivial⟩, fun room => ?_⟩
      exact asChoice_bind_eq_fit room fun inside _ => hparent.read_bind_pure ObjectMap.parent inside

theorem PredicateObjectMap.denotes_toJson (m : PredicateObjectMap) :
    Denotes ofJson m.toJson m := by
  have hpredicates := TermMap.denotes_list m.predicateMaps
  have hobjects : Denotes (asList ObjectMap.ofJson)
      (.array (m.objectMaps.map (·.toJson))) m.objectMaps :=
    Denotes.asList fun o _ => o.denotes_toJson
  have hgraphs := TermMap.denotes_list m.graphMaps
  refine ⟨⟨hpredicates.writable, hobjects.writable, hgraphs.writable, trivial⟩, fun room => ?_⟩
  refine enterRecord_bind_eq_fit room rfl fun inside => ?_
  simp only [memberLevels, Nat.max_zero]
  refine bind_eq_of_ok rfl (bind_eq_fit (hpredicates.read_eq inside) (by omega) fun _ => ?_)
  refine bind_eq_of_ok rfl (bind_eq_fit (hobjects.read_eq inside) (by omega) fun _ => ?_)
  refine bind_eq_of_ok rfl (bind_eq_fit (hgraphs.read_eq inside) (by omega) fun _ => ?_)
  exact (fit_of_le (by omega) m).symm

theorem SubjectMap.denotes_toJson (m : SubjectMap) : Denotes ofJson m.toJson m := by
  have hterm := m.termMap.denotes_toJson
  have hclasses := Denotes.asStrings m.classes
  have hgraphs := TermMap.denotes_list m.graphMaps
  refine ⟨⟨hterm.writable, hclasses.writable, hgraphs.writable, trivial⟩, fun room => ?_⟩
  refine enterRecord_bind_eq_fit room rfl fun inside => ?_
  simp only [memberLevels, Nat.max_zero]
  refine bind_eq_of_ok rfl (bind_eq_fit (hterm.read_eq inside) (by omega) fun _ => ?_)
  refine bind_eq_of_ok rfl (bind_eq_fit (hclasses.read_eq inside) (by omega) fun _ => ?_)
  refine bind_eq_of_ok rfl (bind_eq_fit (hgraphs.read_eq inside) (by omega) fun _ => ?_)
  exact (fit_of_le (by omega) m).symm

theorem TriplesMap.denotes_toJson (m : TriplesMap) : Denotes ofJson m.toJson m := by
  have hstatements : Denotes (asList PredicateObjectMap.ofJson)
      (.array (m.predicateObjectMaps.map (·.toJson))) m.predicateObjectMaps :=
    Denotes.asList fun p _ => p.denotes_toJson
  refine ⟨⟨trivial, writable_elim LogicalSource.denotes_toJson m.logicalSource,
    writable_elim SubjectMap.denotes_toJson m.subjectMap, hstatements.writable, trivial⟩,
    fun room => ?_⟩
  refine enterRecord_bind_eq_fit room rfl fun inside => ?_
  -- A source or a subject map that is there is an object, so it can be told from one that is not.
  have hsource : (m.toJson.optionalField fields "logical_source" >>= fun v? =>
      v?.mapM fun v => LogicalSource.ofJson inside v.1) =
        fit inside (m.logicalSource.elim .null (·.toJson)).levels m.logicalSource :=
    optionalField_bind_eq_fit LogicalSource.denotes_toJson (fun _ => nofun) rfl inside
  have hsubject : (m.toJson.optionalField fields "subject_map" >>= fun v? =>
      v?.mapM fun v => SubjectMap.ofJson inside v.1) =
        fit inside (m.subjectMap.elim .null (·.toJson)).levels m.subjectMap :=
    optionalField_bind_eq_fit SubjectMap.denotes_toJson (fun _ => nofun) rfl inside
  simp only [memberLevels, levels_string, Nat.max_zero, Nat.zero_max]
  refine bind_eq_of_ok rfl (bind_eq_of_ok rfl ?_)
  rw [← bind_assoc]
  refine bind_eq_fit hsource (by omega) fun _ => ?_
  rw [← bind_assoc]
  refine bind_eq_fit hsubject (by omega) fun _ => ?_
  refine bind_eq_of_ok rfl (bind_eq_fit (hstatements.read_eq inside) (by omega) fun _ => ?_)
  exact (fit_of_le (by omega) m).symm

/-! ### Rule graphs -/

namespace RuleGraph

theorem denotes_toJson (g : RuleGraph) : Denotes ofJson g.toJson g := by
  have hmaps : Denotes (asList TriplesMap.ofJson)
      (.array (g.triplesMaps.map (·.toJson))) g.triplesMaps :=
    Denotes.asList fun m _ => m.denotes_toJson
  exact ⟨hmaps.writable, hmaps.read_bind_pure mk⟩

namespace Indexed

/-- Writes the triples maps and not the index. -/
def write (g : Indexed) : String := RuleGraph.write ⟨g.triplesMaps⟩

/-- Reads triples maps and enters them. -/
def parse (text : String) : Except DecodeError Indexed :=
  (RuleGraph.parse text).map fun g => ofList g.triplesMaps

end Indexed

end RuleGraph

end RdfMapping
