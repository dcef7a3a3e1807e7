/-
What the counts of a report stand for.

A report has an entry for every triples map that was selected, in the order of declaration.  For
one that was completed the records are the items of its source and the quads are those that it
emitted; for one that was given up they say how far it got, and none of its quads are kept.  So
the quads of the completed entries add up to the quads of the store, or, if repetitions are
removed, to at least as many.
-/
import Mathlib.Algebra.GroupWithZero.Nat
import Mathlib.Data.Finset.Card
import RdfMapping.Function.Standard
import RdfMapping.Proofs.Execution.SetAndBag
import RdfMapping.Proofs.Execution.Turns

namespace RdfMapping

/-- The quads of the triples maps that were completed, added up. -/
def Report.completedQuads (r : Report) : Nat :=
  ((r.triplesMaps.filter (·.status == .completed)).map (·.quads)).sum

/-- The entry counts these quads if they were kept, and otherwise there are none. -/
def Stats.CountsQuads (stats : Stats) (quads : List Quad) : Prop :=
  match stats.status with
  | .completed => stats.quads = quads.length
  | .skipped => quads = []

/-- Quads that are counted by entries are counted by the sum over the completed ones. -/
theorem Report.completedQuads_eq {r : Report} {parts : List (List Quad)}
    (h : List.Forall₂ Stats.CountsQuads r.triplesMaps parts) :
    r.completedQuads = parts.flatten.length := by
  obtain ⟨entries, diagnostics⟩ := r
  unfold completedQuads
  dsimp only at h ⊢
  induction h with
  | nil => rfl
  | @cons stats quads entries parts hcounts _ ih =>
      rw [List.flatten_cons, List.length_append, ← ih, List.filter_cons]
      unfold Stats.CountsQuads at hcounts
      cases hstatus : stats.status with
      | completed =>
          rw [hstatus] at hcounts
          rw [if_pos (by decide), List.map_cons, List.sum_cons, hcounts]
      | skipped =>
          rw [hstatus] at hcounts
          rw [if_neg (by decide), hcounts, List.length_nil, Nat.zero_add]

/-- As many quads stay as there are texts. -/
theorem length_distinct (qs : List Quad) :
    (distinct qs).length = (texts qs).toFinset.card := by
  have hsame : (texts (distinct qs)).toFinset = (texts qs).toFinset := by
    ext k
    rw [List.mem_toFinset, List.mem_toFinset, mem_texts_distinct]
  rw [← hsame, List.toFinset_card_of_nodup (nodup_texts_distinct qs), texts, List.length_map]

namespace Executor

/-- What an entry of the report says about its triples map: the records that made no subject are
some of the records, and if the triples map was completed, the records are the items that its
source gave when it was opened in the course of the run. -/
structure Accounts (x : Executor) (graph : RuleGraph) (session : Session) (ls : List Landmark)
    (entry : Nat × TriplesMap) (stats : Stats) : Prop where
  triplesMap : stats.triplesMap = entry.2.iri
  skippedRecords : stats.skippedRecords ≤ stats.records
  records : stats.status = .completed → ∃ source items, entry.2.logicalSource = some source ∧
    x.provider.openAfter (graph.openedBefore session ls entry.2.iri) source = .ok items ∧
    stats.records = items.length

theorem accounts_of_turn {x : Executor} {graph : RuleGraph} {base : Option Iri}
    {session : Session} {ls : List Landmark} {entry : Nat × TriplesMap} {part : Contribution}
    {log : Log} (h : (x.engine graph base).Turn x.config
      (graph.openedBefore session ls entry.2.iri) entry part log) :
    x.Accounts graph session ls entry part.stats ∧ part.stats.CountsQuads part.quads := by
  refine ⟨⟨h.triplesMap, h.skippedRecords, fun hcompleted => ?_⟩, ?_⟩
  · cases h.ends with
    | completed hstatus hitems hrecords hquads hlosses hfailures =>
        obtain ⟨source, hsource, hgiven⟩ := Option.map_eq_some_iff.mp hitems
        exact ⟨source, _, hsource, hgiven, hrecords⟩
    | skipped hstatus hquads hlosses hsurvives hfailures =>
        rw [hcompleted] at hstatus
        cases hstatus
  · unfold Stats.CountsQuads
    cases h.ends with
    | completed hstatus hitems hrecords hquads hlosses hfailures =>
        rw [hstatus]
        exact hquads
    | skipped hstatus hquads hlosses hsurvives hfailures =>
        rw [hstatus]
        exact hquads

/-- The entries of the turns account for them, and count the quads that they leave behind. -/
theorem accounts_of_turns {x : Executor} {graph : RuleGraph} {base : Option Iri}
    {session : Session} {ls : List Landmark} {opened : List LogicalSource}
    {selected : List (Nat × TriplesMap)} {turns : List (Contribution × Log)}
    (h : (x.engine graph base).Turns x.config session ls opened selected turns) :
    List.Forall₂ (x.Accounts graph session ls) selected (turns.map (·.1.stats)) ∧
      List.Forall₂ Stats.CountsQuads (turns.map (·.1.stats)) (turns.map (·.1.quads)) := by
  constructor
  · rw [List.forall₂_map_right_iff]
    exact h.each.imp fun _ _ hturn => (accounts_of_turn hturn).1
  · rw [List.forall₂_map_left_iff, List.forall₂_map_right_iff, List.forall₂_same]
    exact h.forall_mem fun _ _ hturn => (accounts_of_turn hturn).2

/--
**The report accounts for a run that succeeds.**  It has one entry for each triples map that was
selected, in the order of declaration.  The records of a completed entry are the items that its
source gave.  The quads of the completed entries are those that were emitted: as many as the store
has if repetitions are kept, and otherwise the store has one for each text among them.
-/
theorem report_accounts (x : Executor) (graph : RuleGraph) (filter : Option (List String))
    (session : Session) {execution : Execution}
    (h : (x.run graph filter session).result = .ok execution) :
    List.Forall₂ (x.Accounts graph session (x.run graph filter session).landmarks)
        (graph.selected filter) execution.report.triplesMaps ∧
      (∃ parts, x.emitted graph filter session = parts.flatten ∧
        List.Forall₂ Stats.CountsQuads execution.report.triplesMaps parts) ∧
      (x.config.removeDuplicates = false →
        execution.store.size = execution.report.completedQuads) ∧
      (x.config.removeDuplicates = true →
        execution.store.size = (texts (x.emitted graph filter session)).toFinset.card ∧
          execution.store.size ≤ execution.report.completedQuads) := by
  obtain ⟨base, turns, span, -, hexecution, hemitted, -, hturns⟩ := exists_turns h
  obtain ⟨haccounts, hcounts⟩ := accounts_of_turns hturns
  have hstats : execution.report.triplesMaps = turns.map (·.1.stats) := by
    rw [hexecution]
    exact List.map_map ..
  rw [← hstats] at haccounts hcounts
  have hparts : x.emitted graph filter session = (turns.map (·.1.quads)).flatten :=
    hemitted.trans (List.flatMap_def ..)
  have hcompleted : execution.report.completedQuads = (x.emitted graph filter session).length := by
    rw [Report.completedQuads_eq hcounts, hparts]
  have hstore : execution.store.size = (if x.config.removeDuplicates then
      distinct (x.emitted graph filter session) else x.emitted graph filter session).length := by
    rw [hemitted, ← List.flatMap_map, ← Execution.toList_ofContributions, ← hexecution]
    exact Array.length_toList.symm
  refine ⟨haccounts, ⟨_, hparts, hcounts⟩, fun hkeep => ?_, fun hremove => ?_⟩
  · rw [hstore, hkeep, if_neg Bool.false_ne_true, hcompleted]
  · rw [hstore, hremove, if_pos rfl, length_distinct, hcompleted]
    exact ⟨rfl, (List.toFinset_card_le _).trans_eq (List.length_map _)⟩

/-! ### A market -/

/-- Stalls, visitors of which the first one is not to be named, and a list of goods that breaks off
after two of them. -/
def market : Executor where
  provider := FaultySources.provider
    { sources := ⟨[("stalls", [.ofPairs [("no", "1"), ("sells", "tea")],
          .ofPairs [("no", "1"), ("sells", "tea")], .ofPairs [("sells", "figs")]]),
        ("visitors", [.ofPairs [("name", "x"), ("buys", "tea")],
          .ofPairs [("name", "ann"), ("buys", "tea")]]),
        ("goods", [.ofPairs [("what", "x")], .ofPairs [("what", "tea")]])]⟩
      faults := [⟨"goods", .read "eof", some 2⟩] }
  functions := Registry.insert {} "ex:usable" ((StandardFunction.failIf "x").register false)
  config := { sourceErrors := .skipTriplesMap }

/-- A blank node for what is in a field and fit to be used. -/
def usable (reference : String) : TermMap :=
  (TermMap.function ((FunctionCall.ofFunction "ex:usable").withParameter "in"
    (TermMap.reference reference).asLiteral)).asBlankNode

/-- Stalls sell something, and visitors buy goods. -/
def marketRules : RuleGraph := ⟨
  [{ iri := "ex:Stall", logicalSource := some ⟨"stalls", .csv, none, none⟩
     subjectMap := some { termMap := (TermMap.reference "no").asBlankNode }
     predicateObjectMaps := [.constant "ex:sells" (.reference "sells")] },
   { iri := "ex:Visitor", logicalSource := some ⟨"visitors", .csv, none, none⟩
     subjectMap := some { termMap := usable "name", classes := ["ex:Person"] }
     predicateObjectMaps := [.constant "ex:buys" (.parent (.single "ex:Good" "buys" "what"))] },
   { iri := "ex:Good", logicalSource := some ⟨"goods", .csv, none, none⟩
     subjectMap := some { termMap := usable "what", classes := ["ex:Thing"] } }]⟩

/-- Only the stalls are completed, without the one that has no number. -/
theorem exists_market_run : ∃ execution, (market.run marketRules none {}).result = .ok execution ∧
    execution.report.triplesMaps = [⟨"ex:Stall", 3, 1, 2, .completed⟩,
      ⟨"ex:Visitor", 2, 1, 1, .skipped⟩, ⟨"ex:Good", 2, 1, 1, .skipped⟩] := by
  have hstats : (market.run marketRules none {}).result.toOption.map (·.report.triplesMaps)
      = some [⟨"ex:Stall", 3, 1, 2, .completed⟩, ⟨"ex:Visitor", 2, 1, 1, .skipped⟩,
        ⟨"ex:Good", 2, 1, 1, .skipped⟩] := by decide +kernel
  cases hrun : (market.run marketRules none {}).result with
  | error error =>
      rw [hrun] at hstats
      cases hstats
  | ok execution =>
      rw [hrun] at hstats
      exact ⟨execution, rfl, Option.some.inj hstats⟩

/-- Two quads were emitted by what was completed, and they have one text. -/
theorem market_report_accounts :
    ∃ execution, (market.run marketRules none {}).result = .ok execution ∧
      execution.report.completedQuads = 2 ∧ execution.store.size = 1 := by
  obtain ⟨execution, hrun, hstats⟩ := exists_market_run
  have hemitted : market.emitted marketRules none {}
      = List.replicate 2 ⟨.blank "tm0-1", .iri "ex:sells", .string "tea", none⟩ := by
    decide +kernel
  obtain ⟨-, -, -, hremoved⟩ := report_accounts market marketRules none {} hrun
  obtain ⟨hsize, -⟩ := hremoved rfl
  refine ⟨execution, hrun, ?_, ?_⟩
  · rw [Report.completedQuads, hstats]
    rfl
  · rw [hsize, hemitted]
    simp [texts]

end Executor

end RdfMapping
