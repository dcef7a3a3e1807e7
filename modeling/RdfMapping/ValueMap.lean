/-
Ordered values under names.

A record binds references to values and a function call binds parameter names to
values.  Both are a `ValueMap`: each bound name has a list of values, possibly empty,
and the names are kept in increasing order.  Because the order is part of the type, two
maps that bind the same names to the same values are equal.  A name bound to no value
differs from a name that is not bound, although reading either gives no value.

`get_append` and `get_set` say what can be read after binding.  Both rest on
`lookup_adjust`, which is where the order is used: a name that sorts before the first one
is not bound at all.
-/

namespace RdfMapping

/-- Looking something up in a list that starts with a binding. -/
theorem lookup_cons_eq_ite {α β : Type} [BEq α] [LawfulBEq α] [DecidableEq α] (a k : α) (b : β)
    (rest : List (α × β)) :
    ((k, b) :: rest).lookup a = if a = k then some b else rest.lookup a := by
  rw [List.lookup_cons]
  by_cases h : a = k
  · simp [h]
  · simp [h, beq_false_of_ne h]

namespace ValueMap

/-- Applies `f` to the values bound to `name`, or to nothing if it is not bound, and binds the
result in its place in the order. -/
def adjust (name : String) (f : List String → List String) :
    List (String × List String) → List (String × List String)
  | [] => [(name, f [])]
  | (n, vs) :: rest =>
    if name < n then (name, f []) :: (n, vs) :: rest
    else if n < name then (n, vs) :: adjust name f rest
    else (name, f vs) :: rest

/-- A name is bound after `adjust` only if it was bound before or is the adjusted one. -/
theorem mem_adjust {name : String} {f : List String → List String} {p : String × List String} :
    ∀ {entries : List (String × List String)},
      p ∈ adjust name f entries → p.1 = name ∨ ∃ q ∈ entries, q.1 = p.1
  | [], h => by
    simp only [adjust, List.mem_singleton] at h
    exact .inl (by rw [h])
  | (n, vs) :: rest, h => by
    unfold adjust at h
    split at h
    · rcases List.mem_cons.1 h with rfl | h
      · exact .inl rfl
      · exact .inr ⟨p, h, rfl⟩
    · split at h
      · rcases List.mem_cons.1 h with rfl | h
        · exact .inr ⟨_, List.mem_cons_self .., rfl⟩
        · rcases mem_adjust h with h | ⟨q, hq, h⟩
          · exact .inl h
          · exact .inr ⟨q, List.mem_cons_of_mem _ hq, h⟩
      · rcases List.mem_cons.1 h with rfl | h
        · exact .inl rfl
        · exact .inr ⟨p, List.mem_cons_of_mem _ h, rfl⟩

/-- Adjusting keeps the names in increasing order. -/
theorem sorted_adjust (name : String) (f : List String → List String) :
    ∀ {entries : List (String × List String)},
      entries.Pairwise (·.1 < ·.1) → (adjust name f entries).Pairwise (·.1 < ·.1)
  | [], _ => by simp [adjust]
  | (n, vs) :: rest, h => by
    have ⟨hn, hrest⟩ := List.pairwise_cons.1 h
    unfold adjust
    split
    · rename_i hlt
      refine List.pairwise_cons.2 ⟨fun p hp => ?_, h⟩
      rcases List.mem_cons.1 hp with rfl | hp
      · exact hlt
      · exact String.lt_trans hlt (hn p hp)
    · split
      · rename_i hlt
        refine List.pairwise_cons.2 ⟨fun p hp => ?_, sorted_adjust name f hrest⟩
        rcases mem_adjust hp with h | ⟨q, hq, h⟩
        · exact h ▸ hlt
        · exact h ▸ hn q hq
      · rename_i hge hle
        have heq : name = n := by
          rcases Std.lt_trichotomy name n with h | h | h
          · exact absurd h hge
          · exact h
          · exact absurd h hle
        subst heq
        exact List.pairwise_cons.2 ⟨hn, hrest⟩

/-- A name that sorts before the first one of a sorted list is not bound. -/
theorem lookup_eq_none_of_lt {n m : String} {vs : List String}
    {rest : List (String × List String)} (h : ((m, vs) :: rest).Pairwise (·.1 < ·.1))
    (hn : n < m) : ((m, vs) :: rest).lookup n = none := by
  refine List.lookup_eq_none_iff.2 fun p hp => ?_
  have hlt : n < p.1 := by
    rcases List.mem_cons.1 hp with rfl | hp
    · exact hn
    · exact String.lt_trans hn ((List.pairwise_cons.1 h).1 p hp)
  exact bne_iff_ne.2 fun e => String.lt_irrefl p.1 (e ▸ hlt)

/-- Adjusting changes the values of its name only; if that was not bound, they were none. -/
theorem lookup_adjust (name n : String) (f : List String → List String) :
    ∀ {entries : List (String × List String)}, entries.Pairwise (·.1 < ·.1) →
      (adjust name f entries).lookup n =
        if n = name then some (f ((entries.lookup name).getD [])) else entries.lookup n
  | [], _ => by simp [adjust, lookup_cons_eq_ite]
  | (m, vs) :: rest, h => by
    unfold adjust
    split
    · rename_i hlt
      rw [lookup_cons_eq_ite, lookup_eq_none_of_lt h hlt]
      rfl
    · split
      · rename_i hlt
        have hne : name ≠ m := fun e => String.lt_irrefl m (e ▸ hlt)
        simp only [lookup_cons_eq_ite, if_neg hne,
          lookup_adjust name n f (List.pairwise_cons.1 h).2]
        by_cases hn : n = m
        · simp [hn, hne.symm]
        · simp [hn]
      · rename_i hge hle
        have heq : name = m := by
          rcases Std.lt_trichotomy name m with h | h | h
          · exact absurd h hge
          · exact h
          · exact absurd h hle
        subst heq
        simp only [lookup_cons_eq_ite, if_pos, Option.getD_some]
        split <;> rfl

end ValueMap

/-- Names with their ordered values. -/
structure ValueMap where
  /-- The bound names in increasing order, each with its values. -/
  entries : List (String × List String) := []
  /-- No name is bound twice, and the names are in code point order. -/
  sorted : entries.Pairwise (·.1 < ·.1) := by simp
deriving DecidableEq

namespace ValueMap

/-- The map that binds no name. -/
def empty : ValueMap := {}

/-- The values of a name, none if it is not bound. -/
def get (m : ValueMap) (name : String) : List String :=
  (m.entries.lookup name).getD []

/-- The first value of a name. -/
def first? (m : ValueMap) (name : String) : Option String := (m.get name).head?

/-- Adds values after those that a name already has. -/
def append (m : ValueMap) (name : String) (values : List String) : ValueMap where
  entries := adjust name (· ++ values) m.entries
  sorted := sorted_adjust _ _ m.sorted

/-- Binds a name to exactly the given values. -/
def set (m : ValueMap) (name : String) (values : List String) : ValueMap where
  entries := adjust name (fun _ => values) m.entries
  sorted := sorted_adjust _ _ m.sorted

/-- Adds one value after those that a name already has. -/
def push (m : ValueMap) (name value : String) : ValueMap := m.append name [value]

/-- The number of bound names. -/
def size (m : ValueMap) : Nat := m.entries.length

/-- Adds the values of each pair in turn, one value a pair. -/
def ofPairs (pairs : List (String × String)) : ValueMap :=
  pairs.foldl (fun m p => m.push p.1 p.2) empty

/-! ### Reading back what was bound -/

@[simp] theorem get_empty (name : String) : empty.get name = [] := rfl

/-- Appended values come after those that were there; other names are untouched. -/
theorem get_append (m : ValueMap) (name n : String) (values : List String) :
    (m.append name values).get n = if n = name then m.get n ++ values else m.get n := by
  simp only [get, append, lookup_adjust name n _ m.sorted]
  split
  · rename_i h
    simp [h]
  · rfl

/-- Set values take the place of those that were there; other names are untouched. -/
theorem get_set (m : ValueMap) (name n : String) (values : List String) :
    (m.set name values).get n = if n = name then values else m.get n := by
  simp only [get, set, lookup_adjust name n _ m.sorted]
  split <;> rfl

end ValueMap

/-- A unit of input data: references with their values in order. -/
abbrev Record := ValueMap

/-- The inputs of a function call: parameter names with their values in order. -/
abbrev Arguments := ValueMap

end RdfMapping
