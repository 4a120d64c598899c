import Mathlib.Data.List.DropRight
import Mathlib.Data.List.Infix

/-!
# Searching a stream

A stream that comes in chunks is searched window by window, where the last elements of each window
are carried into the next one.  A token that no window has seen so far and that is at most one
element longer than what is carried lies in the next window (`infix_append_iff`), so the search
finds what a search of the whole stream finds, however the stream was cut (`search_iff`).
-/

namespace Chunks

variable {α : Type*}

/-- Search the chunks for one of the tokens, with the last `n` elements of each window carried into
the next one.  An empty chunk is the end of the stream. -/
def search [DecidableEq α] (tokens : List (List α)) (n : ℕ) : List α → List (List α) → Bool
  | _, [] => false
  | carried, chunk :: chunks =>
    if chunk = [] then false
    else
      let window := carried ++ chunk
      if tokens.any fun token => token <:+: window then true
      else search tokens n (window.rtake n) chunks

/-- What is carried on depends only on what was read, not on how it was cut. -/
theorem rtake_rtake_append (front chunk : List α) (n : ℕ) :
    (front.rtake n ++ chunk).rtake n = (front ++ chunk).rtake n := by
  simp only [List.rtake, List.length_append, List.length_drop, List.drop_append, List.drop_drop]
  congr 2 <;> omega

/-- A token that ends in the new chunk begins in what is carried. -/
theorem infix_append_iff {token front chunk : List α} {n : ℕ} (h : token.length ≤ n + 1) :
    token <:+: front ++ chunk ↔ token <:+: front ∨ token <:+: front.rtake n ++ chunk := by
  have hwindow : front.rtake n ++ chunk = (front ++ chunk).drop (front.length - n) := by
    rw [List.rtake, List.drop_append_of_le_length (Nat.sub_le _ _)]
  constructor
  · rintro ⟨before, after, he⟩
    by_cases hend : (before ++ token).length ≤ front.length
    · have hprefix : before ++ token <+: front :=
        List.prefix_of_prefix_length_le ⟨after, he⟩ (List.prefix_append front chunk) hend
      exact .inl ((List.suffix_append before token).isInfix.trans hprefix.isInfix)
    · refine .inr ⟨before.drop (front.length - n), after, ?_⟩
      rw [List.length_append] at hend
      rw [hwindow, ← he, List.append_assoc before, List.drop_append_of_le_length (by omega),
        List.append_assoc]
  · rintro (hin | hin)
    · exact hin.trans (List.prefix_append front chunk).isInfix
    · rw [hwindow] at hin
      exact hin.trans (List.drop_suffix _ _).isInfix

variable [DecidableEq α] {tokens : List (List α)} {n : ℕ}

/-- The search of the rest of a stream whose beginning has no token in it. -/
theorem search_rtake_iff (htokens : ∀ token ∈ tokens, token.length ≤ n + 1)
    {chunks : List (List α)} (hchunks : ∀ chunk ∈ chunks, chunk ≠ []) {front : List α}
    (hfront : ∀ token ∈ tokens, ¬token <:+: front) :
    search tokens n (front.rtake n) chunks = true ↔
      ∃ token ∈ tokens, token <:+: front ++ chunks.flatten := by
  induction chunks generalizing front with
  | nil =>
    rw [search, List.flatten_nil, List.append_nil]
    simpa using hfront
  | cons chunk chunks ih =>
    rw [List.forall_mem_cons] at hchunks
    rw [search, if_neg hchunks.1, List.flatten_cons, ← List.append_assoc]
    by_cases hfound : ∃ token ∈ tokens, token <:+: front.rtake n ++ chunk
    · rw [if_pos (by simpa using hfound)]
      obtain ⟨token, ht, hin⟩ := hfound
      refine iff_of_true rfl ⟨token, ht, ?_⟩
      exact ((infix_append_iff (htokens token ht)).2 (.inr hin)).trans
        (List.prefix_append _ _).isInfix
    · rw [if_neg (by simpa using hfound), rtake_rtake_append]
      refine ih hchunks.2 fun token ht hin => ?_
      rcases (infix_append_iff (htokens token ht)).1 hin with hin | hin
      · exact hfront token ht hin
      · exact hfound ⟨token, ht, hin⟩

/-- The search finds a token if and only if the whole stream has one. -/
theorem search_iff (htokens : ∀ token ∈ tokens, token ≠ [] ∧ token.length ≤ n + 1)
    {chunks : List (List α)} (hchunks : ∀ chunk ∈ chunks, chunk ≠ []) :
    search tokens n [] chunks = true ↔ ∃ token ∈ tokens, token <:+: chunks.flatten := by
  have hempty : ∀ token ∈ tokens, ¬token <:+: [] := fun token ht hin =>
    (htokens token ht).1 (List.infix_nil.1 hin)
  have h : search tokens n ([].rtake n) chunks = true ↔
      ∃ token ∈ tokens, token <:+: [] ++ chunks.flatten :=
    search_rtake_iff (fun token ht => (htokens token ht).2) hchunks hempty
  rwa [List.rtake_nil, List.nil_append] at h

end Chunks
