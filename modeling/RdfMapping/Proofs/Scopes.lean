/-
Blank nodes whose triples map has moved.

The label of a blank node begins with the scope of its triples map, and the scope is made from the
position of the triples map and nothing else.  No scope has a hyphen in it, so a label can be taken
apart again at its first one: `relabel` puts the scope of another position in its place, and undoing
a permutation of positions undoes the renaming, `relabel_symm`.

A term map used at another position makes the same terms as before with their labels renamed,
`terms_rescope`.  This needs that labels do not get into anything but labels, and there is one way
in which they could: a function is given the labels of the blank nodes that a parameter makes.
`TermMap.CallsWithoutLabels` rules that out.
-/
import Mathlib.Logic.Equiv.Basic
import Mathlib.Data.List.FinRange
import RdfMapping.Proofs.Generation
import RdfMapping.Quad.Basic

namespace RdfMapping

variable {n : Nat} (p : Equiv.Perm (Fin n))

/-! ### Labels -/

theorem toList_blankScope (position : Nat) :
    (blankScope position).toList = 't' :: 'm' :: Nat.toDigits 10 position := by
  simp [blankScope, Nat.toString_eq_repr, Nat.toList_repr]

theorem hyphen_notMem_blankScope (position : Nat) : '-' ∉ (blankScope position).toList := by
  have hdigits : '-' ∉ Nat.toDigits 10 position := by
    intro hmem
    have := Nat.isDigit_of_mem_toDigits (by decide) (by decide) hmem
    exact absurd this (by decide)
  simp [toList_blankScope, hdigits]

theorem blankScope_injective : Function.Injective blankScope := by
  intro i j h
  rw [← String.toList_inj, toList_blankScope, toList_blankScope, List.cons.injEq,
    List.cons.injEq] at h
  calc
    i = Nat.ofDigitChars 10 (Nat.toDigits 10 i) 0 := Nat.ofDigitChars_ten_toDigits.symm
    _ = Nat.ofDigitChars 10 (Nat.toDigits 10 j) 0 := by rw [h.2.2]
    _ = j := Nat.ofDigitChars_ten_toDigits

/--
**Blank nodes never collide.**  A label is made for one position and one value only, whatever other
labels, escapes or scopes the value looks like.
-/
theorem blankLabel_blankScope_inj {i j : Nat} {value value' : String} :
    blankLabel (blankScope i) value = blankLabel (blankScope j) value' ↔
      i = j ∧ value = value' := by
  constructor
  · intro h
    -- The first hyphen ends the scope; there may be others in no value, since it is escaped.
    obtain ⟨hscope, hvalue⟩ := append_cons_cancel (hyphen_notMem_blankScope i)
      (hyphen_notMem_blankScope j) (String.ofList_inj.mp h)
    exact ⟨blankScope_injective (String.toList_inj.mp hscope),
      ByteEscape.escapes_alphanumeric.encode_injective hvalue⟩
  · intro h
    obtain ⟨rfl, rfl⟩ := h
    rfl

/-- The characters of a label before its first hyphen, and those from there on. -/
def splitLabel (label : String) : String × List Char :=
  (String.ofList (label.toList.takeWhile (· != '-')), label.toList.dropWhile (· != '-'))

/-- The label with the scope of the new position in place of that of the old one; a label with any
other scope stays as it is. -/
def relabel (label : String) : String :=
  let (scope, rest) := splitLabel label
  match (List.finRange n).find? fun i : Fin n => blankScope i == scope with
  | some i => String.ofList ((blankScope (p i)).toList ++ rest)
  | none => label

theorem splitLabel_ofList {scope : String} {rest : List Char} (hscope : '-' ∉ scope.toList)
    (hrest : ∀ c ∈ rest.head?, c = '-') :
    splitLabel (String.ofList (scope.toList ++ rest)) = (scope, rest) := by
  have hall : ∀ c ∈ scope.toList, (c != '-') = true := by
    intro c hc
    rw [bne_iff_ne]
    rintro rfl
    exact hscope hc
  have htake : rest.takeWhile (· != '-') = [] ∧ rest.dropWhile (· != '-') = rest := by
    cases rest with
    | nil => exact ⟨rfl, rfl⟩
    | cons c rest => simp [hrest c rfl]
  rw [splitLabel, String.toList_ofList, List.takeWhile_append_of_pos hall,
    List.dropWhile_append_of_pos hall, htake.1, htake.2, List.append_nil, String.ofList_toList]

theorem ofList_splitLabel (label : String) :
    String.ofList ((splitLabel label).1.toList ++ (splitLabel label).2) = label := by
  rw [splitLabel, String.toList_ofList, List.takeWhile_append_dropWhile, String.ofList_toList]

theorem hyphen_of_mem_head?_splitLabel (label : String) :
    ∀ c ∈ (splitLabel label).2.head?, c = '-' := by
  intro c hc
  have hhead := List.head?_dropWhile_not (· != '-') label.toList
  rw [Option.mem_def, splitLabel] at hc
  rw [hc] at hhead
  simpa using hhead

theorem find?_blankScope (i : Fin n) :
    (List.finRange n).find? (fun j : Fin n => blankScope j == blankScope i) = some i := by
  cases hfind : (List.finRange n).find? fun j : Fin n => blankScope j == blankScope i with
  | none => exact absurd (List.find?_eq_none.mp hfind i (List.mem_finRange i)) (by simp)
  | some j =>
      have hsame := List.find?_some hfind
      rw [beq_iff_eq] at hsame
      rw [Fin.ext (blankScope_injective hsame)]

/-- A label with the scope of a position gets that of the new one. -/
theorem relabel_ofList (i : Fin n) {rest : List Char} (hrest : ∀ c ∈ rest.head?, c = '-') :
    relabel p (String.ofList ((blankScope i).toList ++ rest))
      = String.ofList ((blankScope (p i)).toList ++ rest) := by
  rw [relabel, splitLabel_ofList (hyphen_notMem_blankScope i) hrest]
  dsimp only
  rw [find?_blankScope]

theorem relabel_blankLabel (i : Fin n) (value : String) :
    relabel p (blankLabel (blankScope i) value) = blankLabel (blankScope (p i)) value :=
  relabel_ofList p i (by simp)

/-- Undoing the permutation undoes the renaming. -/
theorem relabel_symm (label : String) : relabel p.symm (relabel p label) = label := by
  have hsplit := ofList_splitLabel label
  cases hfind : (List.finRange n).find? fun i : Fin n => blankScope i == (splitLabel label).1 with
  | none =>
      -- A scope that belongs to no position is not touched by any renaming.
      have hsame : ∀ q : Equiv.Perm (Fin n), relabel q label = label := by
        intro q
        rw [relabel]
        dsimp only
        rw [hfind]
      rw [hsame, hsame]
  | some i =>
      have hscope := List.find?_some hfind
      rw [beq_iff_eq] at hscope
      rw [← hscope] at hsplit
      have hmoved := relabel_ofList p i (hyphen_of_mem_head?_splitLabel label)
      have hback := relabel_ofList p.symm (p i) (hyphen_of_mem_head?_splitLabel label)
      rw [Equiv.symm_apply_apply, hsplit] at hback
      rw [hsplit] at hmoved
      rw [hmoved, hback]

theorem relabel_injective : Function.Injective (relabel p) :=
  Function.LeftInverse.injective (relabel_symm p)

/-! ### Terms and quads -/

/-- The term with its label renamed, if it is a blank node. -/
def Term.rescope : Term → Term
  | .blank label => .blank (relabel p label)
  | t => t

/-- The quad with all its labels renamed. -/
def Quad.rescope (q : Quad) : Quad where
  subject := q.subject.rescope p
  predicate := q.predicate.rescope p
  object := q.object.rescope p
  graph := q.graph.map (Term.rescope p)

@[simp] theorem Term.rescope_iri (value : String) : (Term.iri value).rescope p = .iri value := rfl

@[simp] theorem Term.rescope_normalLiteral (value : String) (datatype language : Option String) :
    (Term.normalLiteral value datatype language).rescope p
      = .normalLiteral value datatype language := by
  cases language <;> rfl

theorem Term.rescope_injective : Function.Injective (Term.rescope p) := by
  intro t u h
  cases t <;> cases u <;> simp only [rescope, reduceCtorEq, iri.injEq, blank.injEq] at h ⊢
  · exact h
  · exact relabel_injective p h
  · exact h

theorem Quad.rescope_injective : Function.Injective (Quad.rescope p) := by
  rintro ⟨s, v, o, g⟩ ⟨s', v', o', g'⟩ h
  simp only [rescope, Quad.mk.injEq] at h
  obtain ⟨hs, hv, ho, hg⟩ := h
  rw [Term.rescope_injective p hs, Term.rescope_injective p hv, Term.rescope_injective p ho,
    Option.map_injective (Term.rescope_injective p) hg]

/-! ### Parameters without labels -/

mutual

/-- No parameter of a call in the term map makes blank nodes, however deeply calls are nested. -/
def TermMap.CallsWithoutLabels : TermMap → Prop
  | ⟨.constant _, _, _, _⟩ => True
  | ⟨.reference _, _, _, _⟩ => True
  | ⟨.template _, _, _, _⟩ => True
  | ⟨.function ⟨_, parameters⟩, _, _, _⟩ => Parameter.AllWithoutLabels parameters

/-- None of the parameters makes blank nodes, and neither do those of calls in them. -/
def Parameter.AllWithoutLabels : List Parameter → Prop
  | [] => True
  | ⟨_, value, _⟩ :: rest =>
    value.termType ≠ .blankNode ∧ value.CallsWithoutLabels ∧ Parameter.AllWithoutLabels rest

end

/-! ### Terms in another scope -/

theorem TermMap.termOf?_of_ne_blankNode {m : TermMap} (h : m.termType ≠ .blankNode)
    (base : Option Iri) (scope scope' value : String) :
    m.termOf? base scope' value = m.termOf? base scope value := by
  unfold termOf?
  cases htype : m.termType with
  | iri => rfl
  | blankNode => exact absurd htype h
  | literal => rfl

theorem TermMap.termOf?_rescope (m : TermMap) (base : Option Iri) (i : Fin n) (value : String) :
    m.termOf? base (blankScope (p i)) value
      = (m.termOf? base (blankScope i) value).map (Term.rescope p) := by
  unfold termOf?
  cases m.termType with
  | iri => rw [Option.map_map]; rfl
  | blankNode => rw [Option.map_some, Term.rescope, relabel_blankLabel]
  | literal => rw [Option.map_some, Term.rescope_normalLiteral]

namespace Generator

variable (g : Generator) (record : Record)

theorem keep_of_ne_blankNode {m : TermMap} (h : m.termType ≠ .blankNode) (scope scope' : String)
    (values : List String) : g.keep m scope' values = g.keep m scope values := by
  unfold keep
  have hsame : m.termOf? g.base scope' = m.termOf? g.base scope :=
    funext fun value => m.termOf?_of_ne_blankNode h g.base scope scope' value
  rw [m.convert_eq, m.convert_eq, hsame]

theorem keep_rescope (m : TermMap) (i : Fin n) (values : List String) :
    g.keep m (blankScope (p i)) values
      = List.map (Term.rescope p) <$> g.keep m (blankScope i) values := by
  unfold keep
  have hsame : m.termOf? g.base (blankScope (p i))
      = fun value => (m.termOf? g.base (blankScope i) value).map (Term.rescope p) :=
    funext fun value => m.termOf?_rescope p g.base i value
  rw [m.convert_eq, m.convert_eq, hsame, ← List.map_filterMap]
  simp only [Option.isNone_map, map_bind, map_pure]

mutual

/-- What makes no blank nodes itself and calls nothing with them does not depend on the scope. -/
theorem generate_of_ne_blankNode (scope scope' : String) :
    ∀ m : TermMap, m.termType ≠ .blankNode → m.CallsWithoutLabels →
      g.generate record scope' m = g.generate record scope m
  | ⟨.constant value, _, _, _⟩, h, _ => by
    rw [generate, generate, TermMap.constantTerm, TermMap.constantTerm,
      TermMap.termOf?_of_ne_blankNode h g.base scope scope']
  | ⟨.reference name, _, _, _⟩, h, _ => by
    rw [generate, generate, keep_of_ne_blankNode g h scope scope']
  | ⟨.template t, _, _, _⟩, h, _ => by
    rw [generate, generate, keep_of_ne_blankNode g h scope scope']
  | ⟨.function ⟨id, parameters⟩, _, _, _⟩, h, hcalls => by
    rw [TermMap.CallsWithoutLabels] at hcalls
    rw [generate, generate, inputs_of_allWithoutLabels scope scope' parameters hcalls]
    simp only [keep_of_ne_blankNode g h scope scope']

/-- So do the parameters of a call. -/
theorem inputs_of_allWithoutLabels (scope scope' : String) :
    ∀ parameters : List Parameter, Parameter.AllWithoutLabels parameters →
      g.inputs record scope' parameters = g.inputs record scope parameters
  | [], _ => by rw [inputs, inputs]
  | ⟨name, value, required⟩ :: rest, h => by
    rw [Parameter.AllWithoutLabels] at h
    obtain ⟨htype, hvalue, hrest⟩ := h
    rw [inputs, inputs, generate_of_ne_blankNode scope scope' value htype hvalue,
      inputs_of_allWithoutLabels scope scope' rest hrest]

end

/-- A term map at a new position makes the same terms with their labels renamed. -/
theorem generate_rescope (i : Fin n) {m : TermMap} (h : m.CallsWithoutLabels) :
    g.generate record (blankScope (p i)) m
      = List.map (Term.rescope p) <$> g.generate record (blankScope i) m := by
  obtain ⟨source, termType, datatype, language⟩ := m
  cases source with
  | constant value =>
      rw [generate, generate, TermMap.constantTerm, TermMap.constantTerm, TermMap.termOf?_rescope,
        map_pure, List.map_singleton, ← Term.rescope_iri p value, Option.getD_map]
      rfl
  | reference name => rw [generate, generate, keep_rescope]
  | template t => rw [generate, generate, keep_rescope]
  | function call =>
      obtain ⟨id, parameters⟩ := call
      rw [TermMap.CallsWithoutLabels] at h
      rw [generate, generate,
        inputs_of_allWithoutLabels g record (blankScope i) (blankScope (p i)) parameters h]
      simp only [map_bind, keep_rescope]

theorem terms_rescope (i : Fin n) {m : TermMap} (h : m.CallsWithoutLabels) :
    g.terms m record (blankScope (p i))
      = (g.terms m record (blankScope i)).map (List.map (Term.rescope p)) := by
  unfold terms evaluate
  rw [g.generate_rescope p record i h]
  cases hgenerate : g.generate record (blankScope i) m #[] <;>
    simp [Functor.map, EStateM.map, hgenerate, Except.map]

end Generator

end RdfMapping
