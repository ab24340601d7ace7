import Mathlib.Data.List.Chain
import Mathlib.Data.List.DropRight
import TenderPricing.Text.Blank
/-!
The words of a text.

`words` are the pieces between blanks and `spaced` puts single spaces between words again.  What is
trimmed off has no words in it, and a tidy text whose only blanks are spaces is one that its words
give back.
-/
namespace TenderPricing.Text

/-- The pieces of a text between blanks, as far as they are not empty. -/
def words (t : List Char) : List (List Char) := (t.splitOnP isBlank).filter (· ≠ [])

/-- Words with single spaces between them. -/
def spaced (ws : List (List Char)) : List Char := [' '].intercalate ws

/-- A piece of text without a blank. -/
def Solid (w : List Char) : Prop := ∀ c ∈ w, isBlank c = false

/-- A text that neither begins nor ends with a blank and has no two blanks in a row. -/
structure Tidy (t : List Char) : Prop where
  head : ∀ c ∈ t.head?, isBlank c = false
  last : ∀ c ∈ t.getLast?, isBlank c = false
  single : t.IsChain fun c d => isBlank c = false ∨ isBlank d = false

/-! ## Words -/

section Words

variable {c : Char} {s t w : List Char}

theorem words_nil : words [] = [] := rfl

theorem words_append_blank (hc : isBlank c = true) (s t : List Char) :
    words (s ++ c :: t) = words s ++ words t := by
  rw [words, List.splitOnP_append_cons s t hc, List.filter_append]
  rfl

theorem words_cons_blank (hc : isBlank c = true) (t : List Char) : words (c :: t) = words t :=
  words_append_blank hc [] t

theorem words_of_solid (h : Solid w) : words w = [w].filter (· ≠ []) := by
  rw [words, List.splitOnP_eq_singleton h]

theorem words_append_of_solid (hw : w ≠ []) (hsolid : Solid w) (hc : isBlank c = true)
    (t : List Char) : words (w ++ c :: t) = w :: words t := by
  rw [words_append_blank hc, words_of_solid hsolid, List.filter_cons_of_pos (by simpa using hw)]
  rfl

theorem words_cons_ne_nil (hc : isBlank c = false) (t : List Char) : words (c :: t) ≠ [] := by
  obtain ⟨first, rest, hsplit⟩ := List.exists_cons_of_ne_nil (List.splitOnP_ne_nil isBlank t)
  rw [words, List.splitOnP_cons_eq_if_modifyHead, if_neg (by rw [hc]; exact Bool.false_ne_true),
    hsplit, List.modifyHead_cons, List.filter_cons_of_pos (by simp)]
  exact List.cons_ne_nil _ _

theorem mem_splitOnP (h : w ∈ t.splitOnP isBlank) : ∀ c ∈ w, isBlank c = false ∧ c ∈ t := by
  induction t generalizing w with
  | nil =>
    rw [List.splitOnP_nil, List.mem_singleton] at h
    rw [h]
    exact List.forall_mem_nil _
  | cons d t ih =>
    have hlater {v : List Char} (hv : v ∈ t.splitOnP isBlank) :
        ∀ c ∈ v, isBlank c = false ∧ c ∈ d :: t :=
      fun c hc => (ih hv c hc).imp_right (List.mem_cons_of_mem d)
    rw [List.splitOnP_cons_eq_if_modifyHead] at h
    by_cases hd : isBlank d = true
    · rw [if_pos hd, List.mem_cons] at h
      rcases h with h | h
      · rw [h]
        exact List.forall_mem_nil _
      · exact hlater h
    · rw [if_neg hd] at h
      obtain ⟨first, rest, hsplit⟩ := List.exists_cons_of_ne_nil (List.splitOnP_ne_nil isBlank t)
      rw [hsplit] at h hlater
      rw [List.modifyHead_cons, List.mem_cons] at h
      rcases h with h | h
      · rw [h, List.forall_mem_cons]
        exact ⟨⟨by simpa using hd, List.mem_cons_self⟩, hlater List.mem_cons_self⟩
      · exact hlater (List.mem_cons_of_mem first h)

theorem ne_nil_of_mem_words (h : w ∈ words t) : w ≠ [] :=
  of_decide_eq_true (List.mem_filter.mp h).2

theorem solid_of_mem_words (h : w ∈ words t) : Solid w :=
  fun c hc => (mem_splitOnP (List.mem_filter.mp h).1 c hc).1

theorem mem_of_mem_words (h : w ∈ words t) (hc : c ∈ w) : c ∈ t :=
  (mem_splitOnP (List.mem_filter.mp h).1 c hc).2

theorem words_trimChars (t : List Char) : words (trimChars t) = words t := by
  have hleft : words (t.dropWhile isBlank) = words t := by
    induction t with
    | nil => rfl
    | cons c t ih =>
      by_cases hc : isBlank c = true
      · rw [List.dropWhile_cons_of_pos hc, ih, words_cons_blank hc]
      · rw [List.dropWhile_cons_of_neg hc]
  have hright (s : List Char) : words (s.rdropWhile isBlank) = words s := by
    induction s using List.reverseRecOn with
    | nil => rfl
    | append_singleton s c ih =>
      by_cases hc : isBlank c = true
      · rw [List.rdropWhile_concat_pos _ _ _ hc, ih, words_append_blank hc, words_nil,
          List.append_nil]
      · rw [List.rdropWhile_concat_neg _ _ _ hc]
  exact (hright _).trans hleft

end Words

/-! ## Trimming -/

section Trimming

variable {t : List Char}

theorem getLast?_trimChars : ∀ c ∈ (trimChars t).getLast?, isBlank c = false := by
  intro c hc
  obtain ⟨hne, hlast⟩ := List.mem_getLast?_eq_getLast hc
  have hnot := List.rdropWhile_last_not isBlank (t.dropWhile isBlank) hne
  rw [hlast]
  exact Bool.eq_false_iff.mpr hnot

theorem head?_trimChars : ∀ c ∈ (trimChars t).head?, isBlank c = false := by
  intro c hc
  have hfirst := List.head?_dropWhile_not isBlank t
  obtain ⟨rest, hrest⟩ := List.rdropWhile_prefix isBlank (t.dropWhile isBlank)
  change c ∈ ((t.dropWhile isBlank).rdropWhile isBlank).head? at hc
  rw [← hrest, List.head?_append, Option.mem_def.mp hc] at hfirst
  exact hfirst

end Trimming

/-! ## Spacing -/

section Spacing

variable {c : Char} {w : List Char} {ws : List (List Char)}

theorem spaced_singleton (w : List Char) : spaced [w] = w := List.intercalate_singleton

theorem spaced_cons_cons (v w : List Char) (ws : List (List Char)) :
    spaced (v :: w :: ws) = v ++ ' ' :: spaced (w :: ws) := by
  rw [spaced, List.intercalate_cons_cons, List.append_assoc]
  rfl

theorem spaced_cons_of_ne_nil (w : List Char) (h : ws ≠ []) :
    spaced (w :: ws) = w ++ ' ' :: spaced ws := by
  obtain ⟨v, rest, rfl⟩ := List.exists_cons_of_ne_nil h
  exact spaced_cons_cons w v rest

theorem mem_spaced (h : c ∈ spaced ws) : c = ' ' ∨ ∃ w ∈ ws, c ∈ w := by
  induction ws with
  | nil => cases h
  | cons v ws ih =>
    cases ws with
    | nil =>
      rw [spaced_singleton] at h
      exact .inr ⟨v, List.mem_cons_self, h⟩
    | cons w ws =>
      rw [spaced_cons_cons, List.mem_append, List.mem_cons] at h
      rcases h with h | h | h
      · exact .inr ⟨v, List.mem_cons_self, h⟩
      · exact .inl h
      · apply (ih h).imp_right
        intro ⟨u, hu, hc⟩
        exact ⟨u, List.mem_cons_of_mem v hu, hc⟩

theorem words_spaced (h : ∀ w ∈ ws, Solid w) : words (spaced ws) = ws.filter (· ≠ []) := by
  induction ws with
  | nil => rfl
  | cons v ws ih =>
    obtain ⟨hv, hws⟩ := List.forall_mem_cons.mp h
    cases ws with
    | nil =>
      rw [spaced_singleton, words_of_solid hv]
    | cons w ws =>
      rw [spaced_cons_cons, words_append_blank (by decide), words_of_solid hv, ih hws,
        ← List.filter_append]
      rfl

theorem length_spaced (ws : List (List Char)) :
    (spaced ws).length = ws.flatten.length + (ws.length - 1) := by
  induction ws with
  | nil => rfl
  | cons v ws ih =>
    cases ws with
    | nil => rw [spaced_singleton, List.flatten_singleton]; rfl
    | cons w ws =>
      have hflat : (v :: w :: ws).flatten.length = v.length + (w :: ws).flatten.length := by
        rw [List.flatten_cons, List.length_append]
      rw [spaced_cons_cons, List.length_append, List.length_cons, ih, hflat]
      simp only [List.length_cons]
      omega

/-- Empty words leave a mark, except for a single one. -/
theorem spaced_filter_eq_iff (ws : List (List Char)) :
    spaced (ws.filter (· ≠ [])) = spaced ws ↔ [] ∉ ws ∨ ws.length ≤ 1 := by
  constructor
  · intro h
    by_cases hmem : [] ∈ ws
    · have hlength := congrArg List.length h
      have hdropped : (ws.filter (· ≠ [])).length < ws.length :=
        List.length_filter_lt_length_iff_exists.mpr ⟨[], hmem, by simp⟩
      rw [length_spaced, length_spaced, List.flatten_filter_ne_nil] at hlength
      right
      omega
    · exact .inl hmem
  · rintro (h | h)
    · rw [List.filter_eq_self.mpr]
      intro w hw
      exact decide_eq_true fun hnil => h (hnil ▸ hw)
    · cases ws with
      | nil => rfl
      | cons w ws =>
        obtain rfl : ws = [] := List.eq_nil_of_length_eq_zero (by simpa using h)
        cases w with
        | nil => rfl
        | cons c w => rfl

theorem tidy_of_solid (h : Solid w) : Tidy w := by
  refine ⟨fun c hc => h c (List.mem_of_mem_head? hc), fun c hc => h c (List.mem_of_mem_getLast? hc),
    ?_⟩
  apply List.Pairwise.isChain
  exact List.pairwise_of_forall_mem_list fun c hc _ _ => .inl (h c hc)

theorem Tidy.append_space {s t : List Char} (hs : Tidy s) (hsne : s ≠ []) (ht : Tidy t)
    (htne : t ≠ []) : Tidy (s ++ ' ' :: t) := by
  refine ⟨fun c hc => ?_, fun c hc => ?_, ?_⟩
  · rw [List.head?_append_of_ne_nil s hsne] at hc
    exact hs.head c hc
  · rw [List.getLast?_append_of_ne_nil s (List.cons_ne_nil _ _),
      List.getLast?_cons_of_ne_nil htne] at hc
    exact ht.last c hc
  · apply hs.single.append
    · rw [List.isChain_cons]
      exact ⟨fun d hd => .inr (ht.head d hd), ht.single⟩
    · exact fun c hc _ _ => .inl (hs.last c hc)

theorem spaced_ne_nil (hw : w ≠ []) (ws : List (List Char)) : spaced (w :: ws) ≠ [] := by
  cases ws with
  | nil =>
    rw [spaced_singleton]
    exact hw
  | cons v ws =>
    rw [spaced_cons_cons]
    exact List.append_ne_nil_of_left_ne_nil hw _

theorem tidy_spaced (hne : ∀ w ∈ ws, w ≠ []) (hsolid : ∀ w ∈ ws, Solid w) : Tidy (spaced ws) := by
  induction ws with
  | nil => exact tidy_of_solid (List.forall_mem_nil _)
  | cons v ws ih =>
    obtain ⟨hv, hrest⟩ := List.forall_mem_cons.mp hne
    obtain ⟨hvsolid, hrestSolid⟩ := List.forall_mem_cons.mp hsolid
    cases ws with
    | nil =>
      rw [spaced_singleton]
      exact tidy_of_solid hvsolid
    | cons w ws =>
      rw [spaced_cons_cons]
      exact (tidy_of_solid hvsolid).append_space hv (ih hrest hrestSolid)
        (spaced_ne_nil (hrest w List.mem_cons_self) ws)

end Spacing

end TenderPricing.Text
