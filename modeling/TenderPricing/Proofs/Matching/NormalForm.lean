import TenderPricing.Matching.Similarity
import TenderPricing.Proofs.Text.SmallLetters
import TenderPricing.Proofs.Text.Words
/-!
How tidy a normalized name is.

Blanks are trimmed and collapsed before the punctuation goes.  So a normalized name consists of the
words of the name, each without its punctuation, and a word of nothing but punctuation leaves the
spaces around it behind.  Normalizing once more takes these spaces away, and then nothing is left to
do.
-/
namespace TenderPricing
namespace Matching

open Text

/-! ## Collapsing -/

section Collapsing

variable {t w : List Char}

theorem collapseBlanks_of_not_blank {c : Char} (hc : isBlank c = false) (t : List Char) :
    collapseBlanks (c :: t) = c :: collapseBlanks t := by
  cases t with
  | nil => simp [collapseBlanks, hc]
  | cons d t => simp [collapseBlanks, hc]

theorem collapseBlanks_blanks {c d : Char} (hc : isBlank c = true) (hd : isBlank d = true)
    (t : List Char) : collapseBlanks (c :: d :: t) = collapseBlanks (d :: t) := by
  rw [collapseBlanks, if_pos hc, if_pos hd]

theorem collapseBlanks_blank {c d : Char} (hc : isBlank c = true) (hd : isBlank d = false)
    (t : List Char) : collapseBlanks (c :: d :: t) = ' ' :: collapseBlanks (d :: t) := by
  rw [collapseBlanks, if_pos hc, if_neg (by rw [hd]; exact Bool.false_ne_true)]

/-- Where no blank ends the text, collapsing puts single spaces between the words.  A word may have
begun already; otherwise the text begins with one. -/
theorem collapseBlanks_spaced (hlast : ∀ c ∈ t.getLast?, isBlank c = false) (hsolid : Solid w)
    (hbegins : w = [] → ∀ c ∈ t.head?, isBlank c = false) :
    w ++ collapseBlanks t = spaced (words (w ++ t)) := by
  induction t generalizing w with
  | nil =>
    rw [List.append_nil, words_of_solid hsolid]
    cases w with
    | nil => rfl
    | cons c w => exact (List.append_nil _).trans (spaced_singleton _).symm
  | cons c t ih =>
    have hrest : ∀ d ∈ t.getLast?, isBlank d = false := by
      intro d hd
      apply hlast d
      rw [List.getLast?_cons, Option.mem_def.mp hd]
      rfl
    cases hblank : isBlank c with
    | false =>
      have hlonger : Solid (w ++ [c]) := by
        intro d hd
        rcases List.mem_append.mp hd with hd | hd
        · exact hsolid d hd
        · rw [List.mem_singleton.mp hd, hblank]
      have hword := ih hrest hlonger fun h =>
        absurd h (List.append_ne_nil_of_right_ne_nil w (List.cons_ne_nil c []))
      rw [List.append_assoc, List.append_assoc] at hword
      rw [collapseBlanks_of_not_blank hblank]
      exact hword
    | true =>
      have hbegun : w ≠ [] :=
        fun h => absurd ((hbegins h c rfl).symm.trans hblank) Bool.false_ne_true
      cases t with
      | nil => exact absurd ((hlast c rfl).symm.trans hblank) Bool.false_ne_true
      | cons d t =>
        rw [words_append_of_solid hbegun hsolid hblank]
        cases hnext : isBlank d with
        | true =>
          rw [collapseBlanks_blanks hblank hnext, ih hrest hsolid fun h => absurd h hbegun,
            words_append_of_solid hbegun hsolid hnext, words_cons_blank hnext]
        | false =>
          have hlater : collapseBlanks (d :: t) = spaced (words (d :: t)) := by
            apply ih hrest (List.forall_mem_nil _)
            intro _ e he
            rw [Option.mem_def, List.head?_cons, Option.some.injEq] at he
            rw [← he, hnext]
          rw [collapseBlanks_blank hblank hnext, hlater,
            spaced_cons_of_ne_nil w (words_cons_ne_nil hnext t)]

/-- The same of a text that neither begins nor ends with a blank. -/
theorem collapseBlanks_eq (hhead : ∀ c ∈ t.head?, isBlank c = false)
    (hlast : ∀ c ∈ t.getLast?, isBlank c = false) : collapseBlanks t = spaced (words t) :=
  collapseBlanks_spaced hlast (List.forall_mem_nil _) fun _ => hhead

theorem collapseBlanks_trimChars (t : List Char) :
    collapseBlanks (trimChars t) = spaced (words t) := by
  rw [collapseBlanks_eq head?_trimChars getLast?_trimChars, words_trimChars]

theorem collapseBlanks_of_single
    (hsingle : t.IsChain fun c d => isBlank c = false ∨ isBlank d = false)
    (hspace : ∀ c ∈ t, isBlank c = true → c = ' ') : collapseBlanks t = t := by
  induction t with
  | nil => rfl
  | cons c t ih =>
    obtain ⟨hc, ht⟩ := List.forall_mem_cons.mp hspace
    obtain ⟨hnext, hrest⟩ := List.isChain_cons.mp hsingle
    cases hblank : isBlank c with
    | false => rw [collapseBlanks_of_not_blank hblank, ih hrest ht]
    | true =>
      cases t with
      | nil => rw [hc hblank]; rfl
      | cons d t =>
        rcases hnext d rfl with hnot | hd
        · exact absurd (hnot.symm.trans hblank) Bool.false_ne_true
        · rw [collapseBlanks_blank hblank hd, ih hrest ht, hc hblank]

/-- A text whose only blanks are spaces is tidy exactly if its words give it back. -/
theorem tidy_iff (hspace : ∀ c ∈ t, isBlank c = true → c = ' ') :
    Tidy t ↔ spaced (words t) = t := by
  constructor
  · intro h
    rw [← collapseBlanks_eq h.head h.last, collapseBlanks_of_single h.single hspace]
  · intro h
    rw [← h]
    exact tidy_spaced (fun w => ne_nil_of_mem_words) (fun w => solid_of_mem_words)

end Collapsing

/-! ## Normalized names -/

section Names

variable (name : String)

/-- The words of a name in small letters and without punctuation.  A word of nothing but punctuation
is left empty. -/
def nameWords : List (List Char) :=
  (words (lowerChars name.toList)).map (·.filter staysInName)

theorem filter_spaced (ws : List (List Char)) :
    (spaced ws).filter staysInName = spaced (ws.map (·.filter staysInName)) := by
  induction ws with
  | nil => rfl
  | cons v ws ih =>
    cases ws with
    | nil => rw [spaced_singleton, List.map_singleton, spaced_singleton]
    | cons w ws =>
      rw [spaced_cons_cons, List.filter_append, List.filter_cons_of_pos (by decide), ih,
        List.map_cons, List.map_cons, List.map_cons, spaced_cons_cons]

theorem toList_normalize : (normalize name).toList = spaced (nameWords name) := by
  rw [normalize, String.toList_ofList, comparable, collapseBlanks_trimChars, filter_spaced]
  rfl

theorem mem_nameWords {w : List Char} {c : Char} (hw : w ∈ nameWords name) (hc : c ∈ w) :
    c ∈ lowerChars name.toList ∧ staysInName c = true ∧ isBlank c = false := by
  obtain ⟨v, hv, rfl⟩ := List.mem_map.mp hw
  obtain ⟨hc, hstays⟩ := List.mem_filter.mp hc
  exact ⟨mem_of_mem_words hv hc, hstays, solid_of_mem_words hv c hc⟩

theorem solid_of_mem_nameWords : ∀ w ∈ nameWords name, Solid w :=
  fun _ hw _ hc => (mem_nameWords name hw hc).2.2

theorem words_normalize : words (normalize name).toList = (nameWords name).filter (· ≠ []) := by
  rw [toList_normalize, words_spaced (solid_of_mem_nameWords name)]

/-- The only blanks of a normalized name are spaces. -/
theorem eq_space_of_mem_normalize {c : Char} (hc : c ∈ (normalize name).toList)
    (hblank : isBlank c = true) : c = ' ' := by
  rw [toList_normalize] at hc
  rcases mem_spaced hc with hspace | ⟨w, hw, hc⟩
  · exact hspace
  · have hnot := solid_of_mem_nameWords name w hw c hc
    exact absurd (hnot.symm.trans hblank) Bool.false_ne_true

end Names

/-! ## Normalizing again -/

section Again

/-- Where the characters of names are that are neither capitals nor Cyrillic. -/
def plainRanges : List (Nat × Nat) := (0x30, 0x39) :: (0x5F, 0x5F) :: (0x61, 0x7A) :: blankRanges

theorem lowerShift_plain : ∀ range ∈ plainRanges, ∀ k < range.2 - range.1 + 1,
    lowerShift capitalRuns (range.1 + k) = 0 := by
  decide +kernel

theorem lowerShift_of_plain {range : Nat × Nat} {n : Nat} (hrange : range ∈ plainRanges)
    (hfirst : range.1 ≤ n) (hlast : n ≤ range.2) : lowerShift capitalRuns n = 0 := by
  have hplain := lowerShift_plain range hrange (n - range.1) (by omega)
  rw [show range.1 + (n - range.1) = n by omega] at hplain
  exact hplain

theorem plain_or_cyrillic {c : Char} (h : staysInName c = true) :
    (∃ range ∈ plainRanges, range.1 ≤ c.toNat ∧ c.toNat ≤ range.2) ∨
      0x400 ≤ c.toNat ∧ c.toNat ≤ 0x4FF := by
  simp only [staysInName, Bool.or_eq_true, Bool.and_eq_true, decide_eq_true_eq] at h
  rcases h with (((hlower | hdigit) | hunderscore) | hblank) | hcyrillic
  · rw [Char.isLower, Bool.and_eq_true, decide_eq_true_iff, decide_eq_true_iff] at hlower
    exact .inl ⟨(0x61, 0x7A), by decide, hlower⟩
  · rw [Char.isDigit, Bool.and_eq_true, decide_eq_true_iff, decide_eq_true_iff] at hdigit
    exact .inl ⟨(0x30, 0x39), by decide, hdigit⟩
  · rw [hunderscore]
    exact .inl ⟨(0x5F, 0x5F), by decide, by decide⟩
  · obtain ⟨range, hrange, hin⟩ := exists_range_of_inRanges hblank
    refine .inl ⟨range, ?_, hin⟩
    exact List.mem_cons_of_mem _ (List.mem_cons_of_mem _ (List.mem_cons_of_mem _ hrange))
  · exact .inr hcyrillic

theorem isSmall_of_stays {t : List Char} {c : Char} (hc : c ∈ lowerChars t)
    (hstays : staysInName c = true) : IsSmall c := by
  have hdotted : c ≠ 'İ' := by
    intro h
    rw [h] at hstays
    exact absurd hstays (by decide)
  have hsigma : c ≠ 'Σ' := by
    intro h
    rw [h] at hstays
    exact absurd hstays (by decide)
  refine ⟨hdotted, hsigma, ?_⟩
  rcases plain_or_cyrillic hstays with ⟨range, hrange, hfirst, hlast⟩ | ⟨hlow, hhigh⟩
  · exact lowerChar_of_shift (lowerShift_of_plain hrange hfirst hlast)
  · rcases mem_lowerAfter hc with hspecial | ⟨d, rfl⟩
    · have hoff : ∀ d ∈ ['i', '\u0307', 'ς', 'σ'], d.toNat < 0x400 := by simp
      have hbelow := hoff c hspecial
      omega
    · exact lowerChar_cyrillic hlow hhigh

theorem lowerChars_normalize (name : String) :
    lowerChars (normalize name).toList = (normalize name).toList := by
  apply lowerChars_of_isSmall
  intro c hc
  rw [toList_normalize] at hc
  rcases mem_spaced hc with rfl | ⟨w, hw, hc⟩
  · exact ⟨by decide, by decide, by decide⟩
  · obtain ⟨hc, hstays, -⟩ := mem_nameWords name hw hc
    exact isSmall_of_stays hc hstays

/-- Normalizing again leaves the empty words out. -/
theorem nameWords_normalize (name : String) :
    nameWords (normalize name) = (nameWords name).filter (· ≠ []) := by
  rw [nameWords, lowerChars_normalize, words_normalize]
  have hkept (w) (hw : w ∈ (nameWords name).filter (· ≠ [])) : w.filter staysInName = w :=
    List.filter_eq_self.mpr fun c hc => (mem_nameWords name (List.mem_of_mem_filter hw) hc).2.1
  exact (List.map_congr_left hkept).trans (List.map_id _)

theorem tidy_normalize_normalize (name : String) : Tidy (normalize (normalize name)).toList := by
  rw [toList_normalize, nameWords_normalize]
  apply tidy_spaced
  · exact fun w hw => of_decide_eq_true (List.mem_filter.mp hw).2
  · exact fun w hw => solid_of_mem_nameWords name w (List.mem_of_mem_filter hw)

theorem normalize_normalize_iff_tidy (name : String) :
    normalize (normalize name) = normalize name ↔ Tidy (normalize name).toList := by
  rw [← String.toList_inj, toList_normalize (normalize name), nameWords_normalize,
    tidy_iff (fun c => eq_space_of_mem_normalize name), words_normalize]

theorem tidy_normalize_iff (name : String) :
    Tidy (normalize name).toList ↔ [] ∉ nameWords name ∨ (nameWords name).length ≤ 1 := by
  rw [tidy_iff (fun c => eq_space_of_mem_normalize name), words_normalize, toList_normalize,
    spaced_filter_eq_iff]

end Again

/-- A normalized name is the words of the name, each without its punctuation, with single spaces
between them.  It is tidy, and the same when normalized again, unless one of several words is
nothing but punctuation.  Normalized twice it is always tidy and stays as it is. -/
theorem normalize_tidiness (name : String) :
    (normalize name).toList = spaced (nameWords name) ∧
      (∀ c ∈ (normalize name).toList, isBlank c = true → c = ' ') ∧
      (Tidy (normalize name).toList ↔ [] ∉ nameWords name ∨ (nameWords name).length ≤ 1) ∧
      (normalize (normalize name) = normalize name ↔ Tidy (normalize name).toList) ∧
      Tidy (normalize (normalize name)).toList ∧
      normalize (normalize (normalize name)) = normalize (normalize name) :=
  ⟨toList_normalize name, fun _ => eq_space_of_mem_normalize name, tidy_normalize_iff name,
    normalize_normalize_iff_tidy name, tidy_normalize_normalize name,
    (normalize_normalize_iff_tidy (normalize name)).mpr (tidy_normalize_normalize name)⟩

/-- Dashes that stand alone leave their spaces at both ends and between the words. -/
theorem dashes_not_normal :
    normalize "- a - b -" = " a  b " ∧ ¬ Tidy (normalize "- a - b -").toList ∧
      normalize (normalize "- a - b -") ≠ normalize "- a - b -" := by
  have hname : normalize "- a - b -" = " a  b " := by decide +kernel
  have hagain : normalize (normalize "- a - b -") ≠ normalize "- a - b -" := by decide +kernel
  exact ⟨hname, mt (normalize_normalize_iff_tidy "- a - b -").mpr hagain, hagain⟩

end Matching
end TenderPricing
