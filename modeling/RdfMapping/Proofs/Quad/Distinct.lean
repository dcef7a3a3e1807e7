/-
Keeping the first quad of each canonical text.

A store that is built by adding quads never looks at them again: whether a quad is new
is decided by a hash lookup of its canonical text.  What such a store holds can be said
without any hashing, as the list of all quads that were ever added with every quad left
out whose text occurred earlier.  `distinct` is that list, and `Collects` says that a
store is what adding certain quads gives.

The main lemmas follow the store's operations: adding, adding many and merging.  The one
fact they rest on is `distinct_concat`, which says what one more quad at the end does.
-/
import Mathlib.Data.List.Induction
import RdfMapping.Quad.Store

namespace RdfMapping

/-- Whether two quads have the same canonical text. -/
def sameText (q r : Quad) : Bool := q.canonical == r.canonical

/-- The quads without those whose canonical text occurred earlier. -/
def distinct (qs : List Quad) : List Quad := qs.eraseDupsBy sameText

theorem sameText_iff {q r : Quad} : sameText q r = true ↔ q.canonical = r.canonical := by
  simp [sameText]

theorem distinct_nil : distinct [] = [] := rfl

theorem distinct_cons (q : Quad) (qs : List Quad) :
    distinct (q :: qs) = q :: distinct (qs.filter fun r => !sameText r q) := by
  simp [distinct, List.eraseDupsBy_cons]

/-- One more quad at the end stays exactly if its text is new. -/
theorem distinct_concat (qs : List Quad) (q : Quad) :
    distinct (qs ++ [q]) = if qs.any (sameText q) then distinct qs else distinct qs ++ [q] := by
  -- The tail of the list is filtered before it is gone through, hence the strong induction.
  induction hn : qs.length using Nat.strongRecOn generalizing qs with
  | _ n ih =>
      cases qs with
      | nil => simp [distinct_cons, distinct_nil]
      | cons a as =>
          have hlen : (as.filter fun r => !sameText r a).length < n := by
            have := List.length_filter_le (fun r => !sameText r a) as
            simp only [List.length_cons] at hn
            omega
          rw [List.cons_append, distinct_cons, distinct_cons, List.filter_append]
          by_cases hqa : q.canonical = a.canonical
          · have hsame : sameText q a = true := sameText_iff.mpr hqa
            simp [hsame]
          · have hdiff : sameText q a = false := by simpa [sameText] using hqa
            have hany : (as.filter fun r => !sameText r a).any (sameText q)
                = as.any (sameText q) := by
              rw [List.any_filter]
              congr 1
              funext r
              by_cases hqr : q.canonical = r.canonical
              · have : sameText r a = false := by simpa [sameText, ← hqr] using hqa
                simp [this]
              · have : sameText q r = false := by simpa [sameText] using hqr
                simp [this]
            have htail : ([q].filter fun r => !sameText r a) = [q] := by simp [hdiff]
            rw [htail, ih _ hlen _ rfl, hany, List.any_cons, hdiff, Bool.false_or]
            split <;> rfl

/-- Every quad is represented by one with its text. -/
theorem exists_mem_distinct (qs : List Quad) (k : String) :
    (∃ q ∈ distinct qs, q.canonical = k) ↔ ∃ q ∈ qs, q.canonical = k := by
  induction qs using List.reverseRecOn with
  | nil => simp [distinct_nil]
  | append_singleton qs q ih =>
      rw [distinct_concat]
      split
      · rename_i hany
        obtain ⟨r, hr, hqr⟩ := List.any_eq_true.mp hany
        rw [ih]
        constructor
        · rintro ⟨x, hx, rfl⟩
          exact ⟨x, by simp [hx], rfl⟩
        · rintro ⟨x, hx, rfl⟩
          rcases List.mem_append.mp hx with hx | hx
          · exact ⟨x, hx, rfl⟩
          · rw [List.mem_singleton.mp hx]
            exact ⟨r, hr, (sameText_iff.mp hqr).symm⟩
      · simp only [List.mem_append, List.mem_singleton, or_and_right, exists_or, ih]

theorem any_distinct (qs : List Quad) (q : Quad) :
    (distinct qs).any (sameText q) = qs.any (sameText q) := by
  rw [Bool.eq_iff_iff, List.any_eq_true, List.any_eq_true]
  simpa only [sameText_iff, eq_comm (a := q.canonical)] using
    exists_mem_distinct qs q.canonical

/-- What was kept once before may be kept once again. -/
theorem distinct_append_distinct (qs rs : List Quad) :
    distinct (qs ++ distinct rs) = distinct (qs ++ rs) := by
  induction rs using List.reverseRecOn with
  | nil => rfl
  | append_singleton rs r ih =>
      have hany : (qs ++ distinct rs).any (sameText r) = (qs ++ rs).any (sameText r) := by
        rw [List.any_append, List.any_append, any_distinct]
      rw [distinct_concat, ← List.append_assoc, distinct_concat, ← hany]
      by_cases hr : rs.any (sameText r)
      · have hleft : (qs ++ distinct rs).any (sameText r) = true := by
          rw [hany, List.any_append, hr, Bool.or_true]
        rw [if_pos hr, if_pos hleft, ih]
      · rw [if_neg hr, ← List.append_assoc, distinct_concat, ih]

/-- What follows a list only depends on what was kept of it. -/
theorem distinct_append_congr {as bs : List Quad} (h : distinct as = distinct bs)
    (rs : List Quad) : distinct (as ++ rs) = distinct (bs ++ rs) := by
  induction rs using List.reverseRecOn with
  | nil => simpa using h
  | append_singleton rs r ih =>
      have hany : (as ++ rs).any (sameText r) = (bs ++ rs).any (sameText r) := by
        rw [List.any_append, List.any_append, ← any_distinct as, h, any_distinct]
      rw [← List.append_assoc, ← List.append_assoc, distinct_concat, distinct_concat, hany, ih]

/-- Lists may be cleared of repetitions one by one before they are put together. -/
theorem distinct_flatten_map_distinct (parts : List (List Quad)) :
    distinct (parts.map distinct).flatten = distinct parts.flatten := by
  -- The quads in front of the remaining parts are carried along.
  have key : ∀ qs, distinct (qs ++ (parts.map distinct).flatten)
      = distinct (qs ++ parts.flatten) := by
    induction parts with
    | nil => intro qs; rfl
    | cons part parts ih =>
        intro qs
        rw [List.map_cons, List.flatten_cons, List.flatten_cons, ← List.append_assoc,
          ← List.append_assoc, ih]
        exact distinct_append_congr (distinct_append_distinct qs part) parts.flatten
  exact key []

/-- No two of the quads that are kept have the same text. -/
theorem pairwise_distinct (qs : List Quad) :
    (distinct qs).Pairwise fun q r => q.canonical ≠ r.canonical := by
  induction qs using List.reverseRecOn with
  | nil => exact .nil
  | append_singleton qs q ih =>
      rw [distinct_concat]
      split
      · exact ih
      · rename_i hnew
        refine List.pairwise_append.mpr ⟨ih, by simp, ?_⟩
        intro r hr q' hq' heq
        rw [List.mem_singleton.mp hq'] at heq
        rw [← any_distinct, List.any_eq_true] at hnew
        exact hnew ⟨r, hr, sameText_iff.mpr heq.symm⟩

/-- A quad is kept exactly if it stands somewhere without its text having occurred before. -/
theorem mem_distinct_iff {qs : List Quad} {q : Quad} :
    q ∈ distinct qs ↔
      ∃ before after, qs = before ++ q :: after ∧ ∀ r ∈ before, q.canonical ≠ r.canonical := by
  induction qs using List.reverseRecOn with
  | nil => simp [distinct_nil]
  | append_singleton qs p ih =>
      constructor
      · intro hq
        rw [distinct_concat] at hq
        have hold : q ∈ distinct qs → ∃ before after, qs ++ [p] = before ++ q :: after ∧
            ∀ r ∈ before, q.canonical ≠ r.canonical := by
          intro hmem
          obtain ⟨before, after, rfl, hbefore⟩ := ih.mp hmem
          exact ⟨before, after ++ [p], by simp, hbefore⟩
        split at hq
        · exact hold hq
        · rename_i hnew
          rcases List.mem_append.mp hq with hq | hq
          · exact hold hq
          · obtain rfl := List.mem_singleton.mp hq
            refine ⟨qs, [], rfl, fun r hr heq => hnew ?_⟩
            exact List.any_eq_true.mpr ⟨r, hr, sameText_iff.mpr heq⟩
      · rintro ⟨before, after, hsplit, hbefore⟩
        rw [distinct_concat]
        rcases List.eq_nil_or_concat after with rfl | ⟨after, p', rfl⟩
        · obtain ⟨rfl, hp⟩ := List.append_inj' hsplit rfl
          obtain rfl : p = q := by simpa using hp
          rw [if_neg]
          · simp
          · rintro hany
            obtain ⟨r, hr, heq⟩ := List.any_eq_true.mp hany
            exact hbefore r hr (sameText_iff.mp heq)
        · have hshift : qs ++ [p] = (before ++ q :: after) ++ [p'] := by simpa using hsplit
          obtain ⟨rfl, -⟩ := List.append_inj' hshift rfl
          have hmem := ih.mpr ⟨before, after, rfl, hbefore⟩
          split
          · exact hmem
          · exact List.mem_append_left _ hmem

/-! ### Stores that were added to -/

/-- A component that never looks at the other one is gathered independently of it. -/
theorem foldl_snd_congr {α β γ : Type} {f : α × β → γ → α × β}
    (hf : ∀ a b c, a.2 = b.2 → (f a c).2 = (f b c).2) (cs : List γ) {a b : α × β}
    (hab : a.2 = b.2) : (cs.foldl f a).2 = (cs.foldl f b).2 := by
  induction cs generalizing a b with
  | nil => exact hab
  | cons c cs ih => exact ih (hf a b c hab)

namespace Store

/-- The store is what adding some quads one by one to the empty store gives. -/
structure Collects (s : Store) (qs : List Quad) : Prop where
  /-- It holds the first quad of each text. -/
  toList_eq : s.toList = distinct qs
  /-- It knows the texts of all of them. -/
  contains_iff : ∀ k, s.keys.contains k = true ↔ ∃ q ∈ qs, q.canonical = k

theorem collects_empty : empty.Collects [] where
  toList_eq := rfl
  contains_iff := by simp [empty]

theorem Collects.contains_eq {s : Store} {qs : List Quad} (h : s.Collects qs) (q : Quad) :
    s.contains q = qs.any (sameText q) := by
  rw [Bool.eq_iff_iff, List.any_eq_true, contains, h.contains_iff]
  simp only [sameText_iff, eq_comm (a := q.canonical)]

theorem Collects.add {s : Store} {qs : List Quad} (h : s.Collects qs) (q : Quad) :
    (s.add q).2.Collects (qs ++ [q]) := by
  refine ⟨?_, ?_⟩
  · rw [toList_add, distinct_concat, h.contains_eq, h.toList_eq]
  · intro k
    have hk := h.contains_iff
    simp only [Store.add]
    split
    · rename_i hq
      rw [hk]
      constructor
      · rintro ⟨r, hr, rfl⟩
        exact ⟨r, by simp [hr], rfl⟩
      · rintro ⟨r, hr, rfl⟩
        rcases List.mem_append.mp hr with hr | hr
        · exact ⟨r, hr, rfl⟩
        · rw [List.mem_singleton.mp hr]
          exact (hk _).mp hq
    · simp [Std.HashSet.contains_insert, hk, or_and_right, exists_or, or_comm]

/-- The number that is counted along does not matter for the store. -/
theorem addAll_cons (s : Store) (q : Quad) (qs : List Quad) :
    (s.addAll (q :: qs)).2 = ((s.add q).2.addAll qs).2 := by
  unfold addAll
  rw [List.foldl_cons]
  refine foldl_snd_congr ?_ qs rfl
  rintro ⟨m, t⟩ ⟨n, _⟩ r rfl
  rfl

theorem Collects.addAll {s : Store} {qs : List Quad} (h : s.Collects qs) (rs : List Quad) :
    (s.addAll rs).2.Collects (qs ++ rs) := by
  induction rs generalizing s qs with
  | nil => simpa [Store.addAll] using h
  | cons r rs ih =>
      rw [addAll_cons, show qs ++ r :: rs = (qs ++ [r]) ++ rs by simp]
      exact ih (h.add r)

/-- Adding the quads of several lists is adding all of them. -/
theorem Collects.foldl_addAll {s : Store} {qs : List Quad} (h : s.Collects qs)
    (parts : List (List Quad)) :
    (parts.foldl (fun store quads => (store.addAll quads).2) s).Collects
      (qs ++ parts.flatten) := by
  induction parts generalizing s qs with
  | nil => simpa using h
  | cons quads parts ih =>
      rw [List.foldl_cons, List.flatten_cons, ← List.append_assoc]
      exact ih (h.addAll quads)

theorem toList_foldl_pushAll (s : Store) (parts : List (List Quad)) :
    (parts.foldl pushAll s).toList = s.toList ++ parts.flatten := by
  induction parts generalizing s with
  | nil => simp
  | cons quads parts ih => simp [ih]

end Store

end RdfMapping
