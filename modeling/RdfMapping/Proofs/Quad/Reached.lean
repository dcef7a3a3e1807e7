/-
Stores keep their books.

Two of a store's three fields say nothing of their own: the texts, by which quads are looked
up, and the mark that some text is there twice, without which removing duplicates does no work.
Both are right in every store that the operations lead to, `Reached.faithful`, in whatever order
they come and whatever stores are merged.  What the operations answer and what they make of the
list of quads is then read off the list alone.
-/
import Mathlib.Data.List.Nodup
import Mathlib.Tactic.ByContra
import Mathlib.Tactic.Tauto
import RdfMapping.Proofs.Quad.Distinct

namespace RdfMapping

/-! ### Lists without repetition -/

/-- The canonical texts of some quads. -/
def texts (qs : List Quad) : List String := qs.map Quad.canonical

@[simp] theorem texts_nil : texts [] = [] := rfl

@[simp] theorem texts_concat (qs : List Quad) (q : Quad) :
    texts (qs ++ [q]) = texts qs ++ [q.canonical] := by
  simp [texts]

theorem mem_texts {qs : List Quad} {k : String} : k ∈ texts qs ↔ ∃ q ∈ qs, q.canonical = k := by
  simp [texts]

theorem any_sameText {qs : List Quad} {q : Quad} :
    qs.any (sameText q) = true ↔ q.canonical ∈ texts qs := by
  simp only [List.any_eq_true, sameText_iff, mem_texts, eq_comm (a := q.canonical)]

theorem nodup_texts_concat {qs : List Quad} {q : Quad} :
    (texts (qs ++ [q])).Nodup ↔ (texts qs).Nodup ∧ q.canonical ∉ texts qs := by
  have happend : (texts qs ++ [q.canonical]).Nodup ↔
      (texts qs).Nodup ∧ ∀ k ∈ texts qs, k ≠ q.canonical := by
    simp [List.nodup_append]
  rw [texts_concat, happend]
  refine and_congr_right fun _ => ⟨fun h hmem => h _ hmem rfl, ?_⟩
  rintro h k hk rfl
  exact h hk

theorem nodup_texts_distinct (qs : List Quad) : (texts (distinct qs)).Nodup :=
  List.pairwise_map.mpr (pairwise_distinct qs)

theorem distinct_of_nodup {qs : List Quad} (h : (texts qs).Nodup) : distinct qs = qs := by
  induction qs using List.reverseRecOn with
  | nil => rfl
  | append_singleton qs q ih =>
      obtain ⟨hqs, hq⟩ := nodup_texts_concat.mp h
      rw [distinct_concat, if_neg (fun hany => hq (any_sameText.mp hany)), ih hqs]

/-- Texts are the same if their characters are, so what is kept can be worked out without making
texts. -/
theorem distinct_eq_eraseDupsBy_render (qs : List Quad) :
    distinct qs = qs.eraseDupsBy fun q r => q.render == r.render := by
  have hsame : sameText = fun q r => q.render == r.render := by
    funext q r
    rw [sameText, q.canonical_eq, r.canonical_eq, Bool.eq_iff_iff, beq_iff_eq, beq_iff_eq,
      String.ofList_inj]
  rw [distinct, hsame]

theorem distinct_distinct (qs : List Quad) : distinct (distinct qs) = distinct qs :=
  distinct_of_nodup (nodup_texts_distinct qs)

theorem mem_texts_distinct {qs : List Quad} {k : String} :
    k ∈ texts (distinct qs) ↔ k ∈ texts qs := by
  rw [mem_texts, mem_texts]
  exact exists_mem_distinct qs k

/-- Walking through a list with the texts that were seen keeps what a walk without them would,
less the quads with these texts. -/
theorem firstOccurrences_eq (seen : Std.HashSet String) (qs : List Quad) :
    firstOccurrences seen qs = distinct (qs.filter fun q => !seen.contains q.canonical) := by
  induction qs generalizing seen with
  | nil => rfl
  | cons q qs ih =>
      unfold firstOccurrences
      dsimp only
      by_cases hseen : seen.contains q.canonical
      · rw [if_pos hseen, ih]
        simp [hseen]
      · rw [if_neg hseen, ih]
        have hfilter : ((q :: qs).filter fun r => !seen.contains r.canonical)
            = q :: qs.filter fun r => !seen.contains r.canonical := by
          simp [hseen]
        rw [hfilter, distinct_cons, List.filter_filter]
        congr 2
        apply List.filter_congr
        intro r _
        rw [Std.HashSet.contains_insert, Bool.not_or, sameText, BEq.comm]

namespace Store

/-! ### What the books say -/

/-- The texts that are kept are those of the quads, and repetitions are marked. -/
structure Faithful (s : Store) : Prop where
  keys : ∀ k, s.keys.contains k = true ↔ k ∈ texts s.toList
  marked : s.hasDuplicates = true ↔ ¬ (texts s.toList).Nodup

variable {s : Store}

theorem faithful_empty : empty.Faithful where
  keys := by simp [empty, toList]
  marked := by simp [empty, toList]

theorem Faithful.contains_iff (h : s.Faithful) (q : Quad) :
    s.contains q = true ↔ q.canonical ∈ texts s.toList := h.keys q.canonical

/-- One more quad at the end asks for its text, and for the mark if the text was there. -/
theorem Faithful.concat (h : s.Faithful) {s' : Store} {q : Quad}
    (hlist : s'.toList = s.toList ++ [q])
    (hkeys : ∀ k, s'.keys.contains k = (s.keys.contains k || q.canonical == k))
    (hmarked : s'.hasDuplicates = (s.hasDuplicates || s.keys.contains q.canonical)) :
    s'.Faithful := by
  refine ⟨fun k => ?_, ?_⟩
  · rw [hkeys, hlist, texts_concat, Bool.or_eq_true, h.keys, beq_iff_eq, List.mem_append,
      List.mem_singleton, eq_comm]
  · rw [hmarked, hlist, nodup_texts_concat, Bool.or_eq_true, h.marked, h.keys]
    tauto

theorem Faithful.add (h : s.Faithful) (q : Quad) : (s.add q).2.Faithful := by
  by_cases hq : s.keys.contains q.canonical = true
  · have hadd : (s.add q).2 = s := by simp [Store.add, hq]
    rw [hadd]
    exact h
  · refine h.concat (q := q) ?_ (fun k => ?_) ?_
    · rw [toList_add, contains, if_neg hq]
    · simp [Store.add, hq, Std.HashSet.contains_insert, Bool.or_comm]
    · simp [Store.add, hq]

theorem Faithful.push (h : s.Faithful) (q : Quad) : (s.push q).Faithful := by
  refine h.concat (toList_push s q) (fun k => ?_) ?_
  · by_cases hq : s.keys.contains q.canonical = true
    · by_cases hk : q.canonical = k
      · simp [Store.push, ← hk, hq]
      · simp [Store.push, hq, hk]
    · simp [Store.push, hq, Std.HashSet.contains_insert, Bool.or_comm]
  · by_cases hq : s.keys.contains q.canonical = true <;> simp [Store.push, hq]

theorem Faithful.addAll (h : s.Faithful) (qs : List Quad) : (s.addAll qs).2.Faithful := by
  induction qs generalizing s with
  | nil => exact h
  | cons q qs ih =>
      rw [addAll_cons]
      exact ih (h.add q)

theorem Faithful.pushAll (h : s.Faithful) (qs : List Quad) : (s.pushAll qs).Faithful := by
  induction qs generalizing s with
  | nil => exact h
  | cons q qs ih => exact ih (h.push q)

/-- Only a marked store is gone through, and an unmarked one has nothing to remove. -/
theorem Faithful.toList_removeDuplicates (h : s.Faithful) :
    s.removeDuplicates.toList = distinct s.toList := by
  unfold removeDuplicates
  by_cases hmarked : s.hasDuplicates = true
  · rw [if_pos hmarked]
    show (firstOccurrences ∅ s.toList).toArray.toList = distinct s.toList
    have hall : (s.toList.filter fun q => !(∅ : Std.HashSet String).contains q.canonical)
        = s.toList := by
      apply List.filter_eq_self.mpr
      intro q _
      simp
    rw [firstOccurrences_eq, hall]
  · rw [if_neg hmarked]
    have hnodup : (texts s.toList).Nodup := by
      by_contra hrepeats
      exact hmarked (h.marked.mpr hrepeats)
    exact (distinct_of_nodup hnodup).symm

theorem Faithful.removeDuplicates (h : s.Faithful) : s.removeDuplicates.Faithful := by
  have hlist := h.toList_removeDuplicates
  have hfields : s.removeDuplicates.keys = s.keys ∧ s.removeDuplicates.hasDuplicates = false := by
    unfold Store.removeDuplicates
    split
    · exact ⟨rfl, rfl⟩
    · rename_i hmarked
      exact ⟨rfl, by simpa using hmarked⟩
  refine ⟨fun k => ?_, ?_⟩
  · rw [hfields.1, hlist, h.keys, mem_texts_distinct]
  · rw [hfields.2, hlist]
    simp [nodup_texts_distinct]

/-! ### Stores that operations lead to -/

/-- The stores that the operations lead to from the empty one. -/
inductive Reached : Store → Prop
  | empty : Reached empty
  | add {s : Store} (h : Reached s) (q : Quad) : Reached (s.add q).2
  | push {s : Store} (h : Reached s) (q : Quad) : Reached (s.push q)
  | merge {s other : Store} (h : Reached s) (h' : Reached other) : Reached (s.merge other).2
  | extend {s other : Store} (h : Reached s) (h' : Reached other) : Reached (s.extend other)
  | ofList (qs : List Quad) : Reached (ofList qs)
  | removeDuplicates {s : Store} (h : Reached s) : Reached s.removeDuplicates

theorem Reached.faithful (h : s.Reached) : s.Faithful := by
  induction h with
  | empty => exact faithful_empty
  | add _ q ih => exact ih.add q
  | push _ q ih => exact ih.push q
  | merge _ _ ih _ => exact ih.addAll _
  | extend _ _ ih _ => exact ih.pushAll _
  | ofList qs => exact faithful_empty.addAll qs
  | removeDuplicates _ ih => exact ih.removeDuplicates

/-- Adding one more quad and counting it if it was not present. -/
def countAdd (counted : Nat × Store) (q : Quad) : Nat × Store :=
  (if (counted.2.add q).1 then counted.1 + 1 else counted.1, (counted.2.add q).2)

theorem addAll_eq_foldl (s : Store) (qs : List Quad) : s.addAll qs = qs.foldl countAdd (0, s) :=
  rfl

theorem size_add (s : Store) (q : Quad) :
    (s.add q).2.size = s.size + if (s.add q).1 then 1 else 0 := by
  rw [← length_toList, ← length_toList, toList_add, fst_add]
  by_cases hq : s.contains q = true <;> simp [hq]

/-- A store grows by the quads that are counted. -/
theorem size_addAll (s : Store) (qs : List Quad) :
    (s.addAll qs).2.size = s.size + (s.addAll qs).1 := by
  -- The number that is reached when a quad's turn comes is what the store has grown by so far.
  have hgrown : ∀ counted : Nat × Store, counted.2.size = s.size + counted.1 →
      (qs.foldl countAdd counted).2.size = s.size + (qs.foldl countAdd counted).1 := by
    induction qs with
    | nil => intro counted h; exact h
    | cons q qs ih =>
        intro counted h
        rw [List.foldl_cons]
        apply ih
        simp only [countAdd]
        rw [size_add, h]
        split <;> omega
  rw [addAll_eq_foldl]
  exact hgrown (0, s) rfl

/--
**A store keeps its books right.**  After any operations the texts that are kept are those of the
quads, and repetitions are marked exactly if there are some.  So a quad is found exactly if one
with its text is there, it is added at the end exactly if it is not found, merging tells by how
many quads the store grows, and removing duplicates leaves the first quad of each text.
-/
theorem Reached.books {s : Store} (h : s.Reached) :
    (∀ k, s.keys.contains k = true ↔ ∃ q ∈ s.toList, q.canonical = k) ∧
      (s.hasDuplicates = true ↔ ¬ (s.toList.map Quad.canonical).Nodup) ∧
      (∀ q, s.contains q = true ↔ ∃ r ∈ s.toList, r.canonical = q.canonical) ∧
      (∀ q, (s.add q).1 = !s.contains q ∧
        (s.add q).2.toList = if s.contains q then s.toList else s.toList ++ [q]) ∧
      (∀ other, (s.merge other).2.size = s.size + (s.merge other).1) ∧
      s.removeDuplicates.toList = distinct s.toList := by
  have hfaithful := h.faithful
  refine ⟨fun k => ?_, hfaithful.marked, fun q => ?_, fun q => ?_, fun other => ?_, ?_⟩
  · rw [hfaithful.keys, mem_texts]
  · rw [hfaithful.contains_iff, mem_texts]
  · exact ⟨fst_add s q, toList_add s q⟩
  · exact size_addAll s other.toList
  · exact hfaithful.toList_removeDuplicates

/-! ### Gossip -/

/-- Someone likes someone. -/
def likes (who whom : String) : Quad := ⟨.iri who, .iri "likes", .iri whom, none⟩

/-- That Ann likes Bob was heard three times, that Bob likes Ann once. -/
def gossip : Store :=
  let annLikesBob := likes "ann" "bob"
  ((empty.push annLikesBob).push annLikesBob).extend
    ((ofList [annLikesBob]).push (likes "bob" "ann"))

theorem gossip_books :
    gossip.Reached ∧ gossip.hasDuplicates = true ∧
      (gossip.add (likes "bob" "ann")).1 = false ∧
      (gossip.add (likes "bob" "cat")).1 = true ∧
      gossip.removeDuplicates.toList = [likes "ann" "bob", likes "bob" "ann"] := by
  have hreached : gossip.Reached := .extend (.push (.push .empty _) _) (.push (.ofList _) _)
  have hlist : gossip.toList
      = List.replicate 3 (likes "ann" "bob") ++ [likes "bob" "ann"] := by
    have hheard := (collects_empty.addAll [likes "ann" "bob"]).toList_eq
    simp only [gossip, toList_extend, toList_push, toList_empty, ofList, hheard]
    rfl
  have hother : ∀ q r : Quad, q.render ≠ r.render → q.canonical ≠ r.canonical := by
    intro q r hne heq
    rw [q.canonical_eq, r.canonical_eq, String.ofList_inj] at heq
    exact hne heq
  have hbob : (likes "ann" "bob").canonical ≠ (likes "bob" "cat").canonical :=
    hother _ _ (by decide +kernel)
  have hann : (likes "bob" "ann").canonical ≠ (likes "bob" "cat").canonical :=
    hother _ _ (by decide +kernel)
  have hdistinct : distinct (List.replicate 3 (likes "ann" "bob") ++
      [likes "bob" "ann"]) = [likes "ann" "bob", likes "bob" "ann"] := by
    rw [distinct_eq_eraseDupsBy_render]
    decide +kernel
  obtain ⟨-, hmarked, hcontains, hadd, -, hremove⟩ := Reached.books hreached
  rw [hlist] at hmarked hcontains hremove
  have hold : gossip.contains (likes "bob" "ann") = true := by
    rw [hcontains]
    exact ⟨likes "bob" "ann", by simp, rfl⟩
  have hnew : gossip.contains (likes "bob" "cat") = false := by
    rw [Bool.eq_false_iff, Ne, hcontains]
    simp [hbob, hann]
  refine ⟨hreached, ?_, ?_, ?_, hremove.trans hdistinct⟩
  · rw [hmarked]
    simp
  · rw [(hadd _).1, hold]
    rfl
  · rw [(hadd _).1, hnew]
    rfl

end Store

end RdfMapping
