/-
What the position in a diagnostic is a position in.

A diagnostic names a triples map and, if it is about one, a record.  `names_blamed` says that
the position always leads to the item whose processing raised the error, but that the item
is one of the triples map *to blame*: for an unreadable source that is the one whose source
it is, which the error names itself.  It is another than the diagnostic's own exactly if the
triples map was given up because a parent could not be read.

In that case the identity and the position of the diagnostic do not belong together.  A hotel
shows it: the guests have one record, and their diagnostic speaks of the third.
-/
import RdfMapping.Proofs.Execution.Causes
import RdfMapping.Source.Memory

namespace RdfMapping

/-- The triples map whose item failed: the one that an error about a source names. -/
def Diagnostic.blamed (d : Diagnostic) : String :=
  match d.error with
  | .source iri _ _ => iri
  | _ => d.triplesMap

namespace Engine

variable {e : Engine} {start t : Session} {c : Config} {m : TriplesMap} {d : Diagnostic}

/-- An error names the triples map whose item raised it, if it names any. -/
theorem Names.blamed_eq {n : Nat} (h : e.Names start t d.triplesMap n d.error) :
    d.blamed = d.triplesMap := by
  obtain ⟨position, m, item, -, hiri, -, hraises⟩ := h
  unfold Diagnostic.blamed
  cases herror : d.error with
  | source iri record fault =>
      rw [herror] at hraises
      cases hraises
      exact hiri
  | graph error => rfl
  | template error => rfl
  | function error => rfl
  | cancelled => rfl
  | config error => rfl

theorem Reports.names {n : Nat} (h : e.Reports start c m t d) (hn : d.record = some n) :
    e.Names start t d.blamed n d.error := by
  cases h with
  | note hnotes =>
      obtain ⟨n', error, hrecord, herror, hnames⟩ := hnotes
      obtain rfl : n' = n := Option.some.inj (hrecord.symm.trans hn)
      have hblamed : d.blamed = d.triplesMap := by rw [Diagnostic.blamed, herror]
      rw [hblamed]
      exact hnames
  | givenUp hsurvives hcause =>
      cases hcause with
      | cancelled => cases hn
      | source hiri hnames => exact hnames n hn
      | subject hpolicy hnames =>
          cases hn
          exact hnames

/-- To blame is the triples map that reports or, where that was given up, one of its parents. -/
theorem Reports.blamed_eq_or (h : e.Reports start c m t d) :
    d.blamed = d.triplesMap ∨
      m.iri = d.triplesMap ∧ ∃ r ∈ m.parents, r.parent = d.blamed := by
  cases h with
  | note hnotes =>
      obtain ⟨n, error, -, herror, -⟩ := hnotes
      exact .inl (by rw [Diagnostic.blamed, herror])
  | givenUp hsurvives hcause =>
      cases hcause with
      | cancelled => exact .inl rfl
      | source hiri hnames => exact hiri.imp_right fun hparent => ⟨rfl, hparent⟩
      | subject hpolicy hnames => exact .inl rfl

end Engine

namespace Executor

variable {x : Executor} {graph : RuleGraph} {filter : Option (List String)} {session : Session}
  {execution : Execution}

/-- The item at the position is one that the source of the triples map gave during the run, and
processing it raised the error. -/
def NamesItem (x : Executor) (graph : RuleGraph) (filter : Option (List String))
    (session : Session) (iri : String) (n : Nat) (error : Error) : Prop :=
  ∃ base, x.config.base = .ok base ∧
    (x.engine graph base).Names session (x.run graph filter session).session iri n error

/--
**A position in a diagnostic leads to the item that raised the error.**  The item is one of
the triples map to blame.  That is the one the diagnostic is about, and then the diagnostic
itself names the item, or else a parent of it, and then it does not.
-/
theorem names_blamed (h : (x.run graph filter session).result = .ok execution) {d : Diagnostic}
    (hd : d ∈ execution.report.diagnostics) {n : Nat} (hn : d.record = some n) :
    x.NamesItem graph filter session d.blamed n d.error ∧
      (x.NamesItem graph filter session d.triplesMap n d.error ↔ d.blamed = d.triplesMap) ∧
      (d.blamed = d.triplesMap ∨ ∃ m ∈ graph.triplesMaps, m.iri = d.triplesMap ∧
        ∃ r ∈ m.parents, r.parent = d.blamed) := by
  obtain ⟨engine, selected, parts, s, hprepare, -, -⟩ := exists_contributions_of_run h
  obtain ⟨base, positions, hbase, hvalid, hselect, -⟩ := prepare_eq_ok_iff.mp hprepare
  have hreports := run_proceeds hbase hvalid hselect session
  rw [h] at hreports
  obtain ⟨m, hm, hreport⟩ := hreports d hd
  have hblamed : x.NamesItem graph filter session d.blamed n d.error :=
    ⟨base, hbase, hreport.names hn⟩
  refine ⟨hblamed, ⟨?_, ?_⟩, ?_⟩
  · rintro ⟨_, -, hnames⟩
    exact hnames.blamed_eq
  · intro hown
    rw [← hown]
    exact hblamed
  · exact hreport.blamed_eq_or.imp_right fun hparent => ⟨m, hm, hparent⟩

/-! ### A hotel -/

/-- One guest, and rooms that cannot be read past the second one, which costs what needs them. -/
def hotel : Executor where
  provider := FaultySources.provider
    { sources := ⟨[("guests", [.ofPairs [("name", "ann"), ("room", "1")]]),
        ("rooms", [.ofPairs [("no", "1")], .ofPairs [("no", "2")]])]⟩
      faults := [⟨"rooms", .read "eof", some 2⟩] }
  config := { sourceErrors := .skipTriplesMap }

/-- Guests are in rooms. -/
def hotelRules : RuleGraph := ⟨
  [{ iri := "ex:Guest", logicalSource := some ⟨"guests", .csv, none, none⟩
     subjectMap := some { termMap := (TermMap.reference "name").asBlankNode }
     predicateObjectMaps := [.constant "ex:in" (.parent (.single "ex:Room" "room" "no"))] },
   { iri := "ex:Room", logicalSource := some ⟨"rooms", .csv, none, none⟩
     subjectMap := some { termMap := (TermMap.reference "no").asBlankNode } }]⟩

/-- What the report says about the guests. -/
def guestDiagnostic : Diagnostic :=
  ⟨"ex:Guest", some 2, .source "ex:Room" (some 2) (.read "eof")⟩

theorem exists_hotel_run :
    ∃ execution, (hotel.run hotelRules (some ["ex:Guest"]) {}).result = .ok execution ∧
      execution.report.diagnostics = [guestDiagnostic] := by
  have hdiagnostics : (hotel.run hotelRules (some ["ex:Guest"]) {}).result.map
      (·.report.diagnostics) = .ok [guestDiagnostic] := by decide +kernel
  cases hrun : (hotel.run hotelRules (some ["ex:Guest"]) {}).result with
  | error error => rw [hrun] at hdiagnostics; cases hdiagnostics
  | ok execution =>
      rw [hrun] at hdiagnostics
      exact ⟨execution, rfl, Except.ok.inj hdiagnostics⟩

/-- The third room is to blame. -/
theorem hotel_names_blamed :
    ∃ execution, (hotel.run hotelRules (some ["ex:Guest"]) {}).result = .ok execution ∧
      guestDiagnostic ∈ execution.report.diagnostics ∧
      hotel.NamesItem hotelRules (some ["ex:Guest"]) {} "ex:Room" 2 guestDiagnostic.error := by
  obtain ⟨execution, hrun, hdiagnostics⟩ := exists_hotel_run
  have hd : guestDiagnostic ∈ execution.report.diagnostics := by rw [hdiagnostics]; simp
  exact ⟨execution, hrun, hd, (names_blamed hrun hd rfl).1⟩

/-- The guests have a diagnostic about a third record, which raised no error: whenever the source
of the guests is opened, it has a single item. -/
theorem hotel_misnames_guest :
    ∃ execution, (hotel.run hotelRules (some ["ex:Guest"]) {}).result = .ok execution ∧
      guestDiagnostic ∈ execution.report.diagnostics ∧
      ¬ hotel.NamesItem hotelRules (some ["ex:Guest"]) {} "ex:Guest" 2 guestDiagnostic.error ∧
      ∀ opened, (hotel.provider.openAfter opened ⟨"guests", .csv, none, none⟩).map List.length
        = .ok 1 := by
  obtain ⟨execution, hrun, hdiagnostics⟩ := exists_hotel_run
  refine ⟨execution, hrun, by rw [hdiagnostics]; simp, ?_, fun _ => rfl⟩
  rintro ⟨base, -, hnames⟩
  have hblamed : guestDiagnostic.blamed = guestDiagnostic.triplesMap :=
    Engine.Names.blamed_eq (d := guestDiagnostic) hnames
  revert hblamed
  decide

end Executor

end RdfMapping
