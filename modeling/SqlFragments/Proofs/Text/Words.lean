import Mathlib.Data.List.Chain
import SqlFragments.Proofs.Text.Splitting
import SqlFragments.Text.Words

/-! # The words of a text and its normal form

A text in normal form is its words on one line. It is got by trimming the text and then shortening each
run of blanks, and both passes have to agree on what is between two words, in front of the first one and
behind the last one.

* `HasWords`: the words of a text as its maximal stretches without a blank; `hasWords_iff`: `words` reads
  them off;
* `HasWords.append`: blanks between two texts keep their words apart;
* `HasWords.collapse_trimEnd`, `toList_normalize`: the normal form is the words with one space between
  them;
* `normalize_canonical`: so it is the same for two texts just if they have the same words, whatever
  blanks stand around them. -/

namespace SqlFragments.Text

/-! ## Words -/

/-- A stretch of text that is not empty and has no blank in it. -/
structure IsWord (word : List Char) : Prop where
  ne_nil : word ≠ []
  solid : ∀ c ∈ word, isBlank c = false

/-- A word does not go on with this text: it is empty, or a blank comes first. -/
def EndsWord (cs : List Char) : Prop := ∀ c ∈ cs.head?, isBlank c

/-- The words of a text, in order. Each is as long as it can be: blanks or an end of the text stand on
both of its sides. -/
inductive HasWords : List Char → List (List Char) → Prop where
  | blank {cs : List Char} (h : ∀ c ∈ cs, isBlank c) : HasWords cs []
  | word {left word rest : List Char} {ws : List (List Char)} (hleft : ∀ c ∈ left, isBlank c)
      (hword : IsWord word) (hend : EndsWord rest) (hrest : HasWords rest ws) :
    HasWords (left ++ (word ++ rest)) (word :: ws)

section

variable {cs left word rest blanks : List Char} {ws vs : List (List Char)}

/-- A word ends where the text ends. -/
theorem endsWord_nil : EndsWord [] := by
  intro c hc
  cases hc

/-- Where a word ends it still ends if blanks and more text are appended. -/
theorem endsWord_append (hrest : EndsWord rest) (hne : blanks ≠ []) (hblanks : ∀ c ∈ blanks, isBlank c)
    (cs : List Char) : EndsWord (rest ++ (blanks ++ cs)) := by
  cases rest with
  | cons c rest => exact hrest
  | nil =>
    obtain ⟨b, blanks, rfl⟩ := List.exists_cons_of_ne_nil hne
    intro c hc
    obtain rfl := Option.some.inj hc
    exact hblanks b List.mem_cons_self

/-- Blanks in front of a text do not change its words. -/
theorem HasWords.append_left (h : HasWords cs ws) (hblanks : ∀ c ∈ blanks, isBlank c) :
    HasWords (blanks ++ cs) ws := by
  cases h with
  | blank h => exact .blank fun c hc => (List.mem_append.1 hc).elim (hblanks c) (h c)
  | @word left _ _ _ hleft hword hend hrest =>
    rw [← List.append_assoc]
    refine .word (fun c hc => ?_) hword hend hrest
    exact (List.mem_append.1 hc).elim (hblanks c) (hleft c)

/-- A text that begins with a word. -/
theorem HasWords.cons (hword : IsWord word) (hend : EndsWord rest) (hrest : HasWords rest ws) :
    HasWords (word ++ rest) (word :: ws) :=
  .word (List.forall_mem_nil _) hword hend hrest

/-- **Blanks keep words apart.** -/
theorem HasWords.append (h : HasWords cs ws) (hne : blanks ≠ []) (hblanks : ∀ c ∈ blanks, isBlank c)
    {ds : List Char} (hds : HasWords ds vs) : HasWords (cs ++ (blanks ++ ds)) (ws ++ vs) := by
  induction h with
  | blank h => exact (hds.append_left hblanks).append_left h
  | @word left word rest ws hleft hword hend hrest ih =>
    rw [List.append_assoc, List.append_assoc, List.cons_append]
    exact .word hleft hword (endsWord_append hend hne hblanks ds) ih

/-- The words of a text are words. -/
theorem HasWords.isWord (h : HasWords cs ws) : ∀ w ∈ ws, IsWord w := by
  induction h with
  | blank h => exact List.forall_mem_nil _
  | word hleft hword hend hrest ih => exact List.forall_mem_cons.2 ⟨hword, ih⟩

/-- Every text has words. -/
theorem exists_hasWords (cs : List Char) : ∃ ws, HasWords cs ws := by
  induction cs with
  | nil => exact ⟨[], .blank (List.forall_mem_nil _)⟩
  | cons c cs ih =>
    obtain ⟨ws, hcs⟩ := ih
    -- a blank goes to those in front; any other character begins a word or lengthens the first one
    cases hc : isBlank c with
    | true =>
      have hblank : ∀ b ∈ [c], isBlank b := List.forall_mem_singleton.2 hc
      exact ⟨ws, hcs.append_left hblank⟩
    | false =>
      have hsingle : IsWord [c] := ⟨List.cons_ne_nil _ _, List.forall_mem_singleton.2 hc⟩
      cases hcs with
      | blank h =>
        -- only blanks are left, and the character is a word of its own
        have hend : EndsWord cs := fun d hd => h d (List.mem_of_head? hd)
        exact ⟨[[c]], .cons hsingle hend (.blank h)⟩
      | @word left word rest ws hleft hword hend hrest =>
        cases left with
        | nil =>
          -- the character belongs to the first word
          have hlonger : IsWord (c :: word) :=
            ⟨List.cons_ne_nil _ _, List.forall_mem_cons.2 ⟨hc, hword.solid⟩⟩
          exact ⟨(c :: word) :: ws, .cons hlonger hend hrest⟩
        | cons b left =>
          -- a blank follows, so the character is a word of its own
          have hends : EndsWord (b :: left ++ (word ++ rest)) := by
            intro d hd
            obtain rfl := Option.some.inj hd
            exact hleft b List.mem_cons_self
          exact ⟨[c] :: word :: ws, .cons hsingle hends (.word hleft hword hend hrest)⟩

/-! ## Reading words off -/

/-- A blank in front changes nothing that is read off. -/
theorem words_cons_of_blank {c : Char} (hc : isBlank c) : words (c :: cs) = words cs := by
  cases cs <;> simp [words, hc]

/-- Nor do several blanks. -/
theorem words_append_of_blank (hleft : ∀ c ∈ left, isBlank c) : words (left ++ cs) = words cs := by
  induction left with
  | nil => rfl
  | cons c left ih =>
    rw [List.forall_mem_cons] at hleft
    rw [List.cons_append, words_cons_of_blank hleft.1, ih hleft.2]

/-- A word in front is read off first, if it ends there. -/
theorem words_append_of_isWord (hword : IsWord word) (hend : EndsWord rest) :
    words (word ++ rest) = word :: words rest := by
  obtain ⟨hne, hsolid⟩ := hword
  induction word with
  | nil => exact absurd rfl hne
  | cons c word ih =>
    rw [List.forall_mem_cons] at hsolid
    have hc : ¬ isBlank c = true := by simp [hsolid.1]
    -- the last character of the word looks at the rest, the others at the next one
    cases word with
    | nil =>
      cases rest with
      | nil => simp [words, hc]
      | cons d rest =>
        have hd : isBlank d := hend d rfl
        simp [words, hc, hd]
    | cons d word =>
      have hd : ¬ isBlank d = true := by simp [hsolid.2 d List.mem_cons_self]
      have hread := ih (List.cons_ne_nil d word) hsolid.2
      rw [List.cons_append] at hread
      rw [List.cons_append, List.cons_append, words, if_neg hc]
      simp only [if_neg hd, hread]

/-- What is read off are the words of the text. -/
theorem HasWords.words_eq (h : HasWords cs ws) : words cs = ws := by
  induction h with
  | @blank cs h =>
    have hread : words (cs ++ []) = words [] := words_append_of_blank h
    rwa [List.append_nil] at hread
  | word hleft hword hend _ ih =>
    rw [words_append_of_blank hleft, words_append_of_isWord hword hend, ih]

/-- **The words of a text are read off**, and it has no others. -/
theorem hasWords_iff : HasWords cs ws ↔ words cs = ws := by
  constructor
  · exact HasWords.words_eq
  · rintro rfl
    obtain ⟨ws, hws⟩ := exists_hasWords cs
    rwa [hws.words_eq]

/-- The stretches that are read off are the words of the text. -/
theorem hasWords_words (cs : List Char) : HasWords cs (words cs) := hasWords_iff.2 rfl

/-! ## Words on one line -/

/-- Words with one space between them are read back. -/
theorem hasWords_intercalate (h : ∀ w ∈ ws, IsWord w) : HasWords ([' '].intercalate ws) ws := by
  induction ws with
  | nil => exact .blank (List.forall_mem_nil _)
  | cons w ws ih =>
    rw [List.forall_mem_cons] at h
    have hspace : ∀ c ∈ [' '], isBlank c := List.forall_mem_singleton.2 (by decide)
    have halone : HasWords w [w] := by
      have hword := HasWords.cons h.1 endsWord_nil (.blank (List.forall_mem_nil _))
      rwa [List.append_nil] at hword
    -- the last word stands alone, every other one with a space behind it
    by_cases hws : ws = []
    · subst hws
      simpa [List.intercalate] using halone
    · rw [List.intercalate_cons_of_ne_nil hws, List.append_assoc]
      exact halone.append (List.cons_ne_nil _ _) hspace (ih h.2)

/-- A text on one line: no blank stands at either end, and the blanks inside are spaces no two of which
follow each other. -/
structure OnOneLine (cs : List Char) : Prop where
  starts : ∀ c ∈ cs.head?, isBlank c = false
  ends : ∀ c ∈ cs.getLast?, isBlank c = false
  spaces : ∀ c ∈ cs, isBlank c → c = ' '
  single : cs.IsChain fun c d => ¬ (isBlank c ∧ isBlank d)

/-- A word alone stands on one line. -/
theorem IsWord.onOneLine (h : IsWord word) : OnOneLine word where
  starts c hc := h.solid c (List.mem_of_head? hc)
  ends c hc := h.solid c (List.mem_of_getLast? hc)
  spaces c hc hblank := by
    rw [h.solid c hc] at hblank
    cases hblank
  single := by
    apply List.Pairwise.isChain
    apply List.pairwise_of_forall_mem_list
    rintro c hc d - ⟨hblank, -⟩
    rw [h.solid c hc] at hblank
    cases hblank

/-- Two texts on one line, with a space between them. -/
theorem OnOneLine.append_space {ds : List Char} (h : OnOneLine cs) (hcs : cs ≠ []) (hd : OnOneLine ds)
    (hds : ds ≠ []) : OnOneLine (cs ++ ' ' :: ds) := by
  refine ⟨fun c hc => ?_, fun c hc => ?_, fun c hc hblank => ?_, ?_⟩
  · rw [List.head?_append_of_ne_nil _ hcs] at hc
    exact h.starts c hc
  · rw [List.getLast?_append_of_ne_nil _ (List.cons_ne_nil _ _), List.getLast?_cons_of_ne_nil hds] at hc
    exact hd.ends c hc
  · rcases List.mem_append.1 hc with hc | hc
    · exact h.spaces c hc hblank
    · rcases List.mem_cons.1 hc with rfl | hc
      · rfl
      · exact hd.spaces c hc hblank
  · -- no blank stands on either side of the space
    rw [List.isChain_append, List.isChain_cons]
    refine ⟨h.single, ⟨fun d hd' hboth => ?_, hd.single⟩, fun c hc d _ hboth => ?_⟩
    · exact absurd hboth.2 (by simp [hd.starts d hd'])
    · exact absurd hboth.1 (by simp [h.ends c hc])

/-- Words with one space between them stand on one line. -/
theorem onOneLine_intercalate (h : ∀ w ∈ ws, IsWord w) : OnOneLine ([' '].intercalate ws) := by
  induction ws with
  | nil => exact ⟨by simp [List.intercalate], by simp [List.intercalate], List.forall_mem_nil _, .nil⟩
  | cons w ws ih =>
    rw [List.forall_mem_cons] at h
    cases ws with
    | nil => simpa [List.intercalate] using h.1.onOneLine
    | cons v ws =>
      have hne : [' '].intercalate (v :: ws) ≠ [] := by
        have hv := (h.2 v List.mem_cons_self).ne_nil
        cases ws <;> simp [List.intercalate, hv]
      rw [List.intercalate_cons_cons, List.append_assoc, List.singleton_append]
      exact h.1.onOneLine.append_space h.1.ne_nil (ih h.2) hne

/-! ## Shortening runs of blanks -/

/-- A run of blanks swallows the blanks that follow. -/
theorem collapse_append_of_blank (hleft : ∀ c ∈ left, isBlank c) :
    collapse true (left ++ cs) = collapse true cs := by
  induction left with
  | nil => rfl
  | cons c left ih =>
    rw [List.forall_mem_cons] at hleft
    rw [List.cons_append, collapse_true_of_blank hleft.1, ih hleft.2]

/-- A word stays as it is. -/
theorem collapse_append_of_isWord (hword : IsWord word) (inRun : Bool) :
    collapse inRun (word ++ cs) = word ++ collapse false cs := by
  obtain ⟨hne, hsolid⟩ := hword
  induction word generalizing inRun with
  | nil => exact absurd rfl hne
  | cons c word ih =>
    rw [List.forall_mem_cons] at hsolid
    rw [List.cons_append, collapse_of_not_blank inRun (by simp [hsolid.1])]
    cases word with
    | nil => rfl
    | cons d word => exact congrArg (c :: ·) (ih false (List.cons_ne_nil d word) hsolid.2)

/-- Behind a word a run of blanks is written as one space. -/
theorem collapse_of_endsWord (hend : EndsWord cs) (hne : cs ≠ []) :
    collapse false cs = ' ' :: collapse true cs := by
  obtain ⟨c, cs, rfl⟩ := List.exists_cons_of_ne_nil hne
  have hc : isBlank c := hend c rfl
  rw [collapse_false_of_blank hc, collapse_true_of_blank hc]

/-- Trimming the front of a text is entering it in the middle of a run of blanks. -/
theorem collapse_trim (cs : List Char) : collapse false (trim cs) = collapse true (trimEnd cs) := by
  induction cs with
  | nil => rfl
  | cons c cs ih =>
    -- a blank is dropped on both sides, and the first other character ends the run
    cases hc : isBlank c with
    | true =>
      have htrim : trim (c :: cs) = trim cs := by
        rw [trim, List.dropWhile_cons_of_pos hc, trim]
      rw [htrim, ih, trimEnd]
      cases trimEnd cs with
      | nil => simp [hc]
      | cons d ds => exact (collapse_true_of_blank hc).symm
    | false =>
      have hnot : ¬ isBlank c = true := by simp [hc]
      rw [trim, List.dropWhile_cons_of_neg hnot, trimEnd_cons hc, collapse_of_not_blank _ hnot,
        collapse_of_not_blank _ hnot]

/-- What stands up to the end of a word is not trimmed. -/
theorem trimEnd_append_of_isWord (hword : IsWord word) :
    trimEnd (left ++ (word ++ rest)) = left ++ (word ++ trimEnd rest) := by
  have hsolid : ∀ {word : List Char}, (∀ c ∈ word, isBlank c = false) →
      trimEnd (word ++ rest) = word ++ trimEnd rest := by
    intro word hsolid
    induction word with
    | nil => rfl
    | cons c word ih =>
      rw [List.forall_mem_cons] at hsolid
      rw [List.cons_append, trimEnd_cons hsolid.1, ih hsolid.2, List.cons_append]
  have hne : word ++ trimEnd rest ≠ [] := List.append_ne_nil_of_left_ne_nil hword.ne_nil _
  induction left with
  | nil => exact hsolid hword.solid
  | cons c left ih =>
    -- something is left behind the first character, so it is kept
    obtain ⟨d, ds, hds⟩ := List.exists_cons_of_ne_nil (List.append_ne_nil_of_right_ne_nil left hne)
    rw [List.cons_append, trimEnd, ih, hds]
    simp only [List.cons_append, hds]

/-- Where a word ends it still ends if what follows it is trimmed. -/
theorem endsWord_trimEnd (h : EndsWord cs) : EndsWord (trimEnd cs) := by
  obtain ⟨right, hcs, -⟩ := exists_trimEnd cs
  intro c hc
  refine h c ?_
  rw [hcs, List.head?_append, Option.mem_def.1 hc]
  rfl

/-- **Trimming and shortening leaves the words**, with one space between them. -/
theorem HasWords.collapse_trimEnd (h : HasWords cs ws) :
    collapse true (trimEnd cs) = [' '].intercalate ws := by
  induction h with
  | blank h =>
    rw [trimEnd_eq_nil_iff.2 h]
    rfl
  | @word left word rest ws hleft hword hend hrest ih =>
    rw [trimEnd_append_of_isWord hword, collapse_append_of_blank hleft,
      collapse_append_of_isWord hword]
    cases hrest with
    | blank h =>
      -- this was the last word
      rw [trimEnd_eq_nil_iff.2 h]
      simp [collapse, List.intercalate]
    -- another word follows, and the blanks in between become one space
    | @word left' word' rest' ws' _ hword' _ _ =>
      have hne : trimEnd (left' ++ (word' ++ rest')) ≠ [] := by
        rw [trimEnd_append_of_isWord hword']
        simp [hword'.ne_nil]
      rw [collapse_of_endsWord (endsWord_trimEnd hend) hne, ih, List.intercalate_cons_cons,
        List.append_assoc, List.singleton_append]

end

/-! ## Normal forms -/

section

variable {text other blanks : String}

/-- **The normal form is the words** with one space between them. -/
theorem toList_normalize (text : String) :
    (normalize text).toList = [' '].intercalate (words text.toList) := by
  rw [normalize, String.toList_ofList, collapse_trim]
  exact (hasWords_words text.toList).collapse_trimEnd

/-- A normal form has the words of the text. -/
theorem words_normalize (text : String) : words (normalize text).toList = words text.toList := by
  rw [toList_normalize]
  exact (hasWords_intercalate (hasWords_words text.toList).isWord).words_eq

/-- **The words decide.** -/
theorem normalize_eq_iff : normalize text = normalize other
    ↔ words text.toList = words other.toList := by
  constructor
  · intro h
    rw [← words_normalize text, h, words_normalize]
  · intro h
    apply String.toList_injective
    rw [toList_normalize, h, toList_normalize]

/-- The words of two texts with blanks between them. -/
theorem words_append (hne : blanks ≠ "") (hblanks : ∀ c ∈ blanks.toList, isBlank c) :
    words (text ++ blanks ++ other).toList = words text.toList ++ words other.toList := by
  have hne' : blanks.toList ≠ [] := fun h => hne (String.toList_eq_nil_iff.1 h)
  rw [String.toList_append, String.toList_append, List.append_assoc]
  exact ((hasWords_words _).append hne' hblanks (hasWords_words _)).words_eq

/-- **The normal form of a text is its words on one line.** The words are the maximal stretches without
a blank; the normal form has one space between them, and no other blank. It is its own normal form, and
that of every other text with the same words. Of blanks between two texts it matters only that there are
some, and of the texts themselves only their normal forms. -/
theorem normalize_canonical (text : String) :
    (∀ ws, HasWords text.toList ws ↔ words text.toList = ws) ∧
    (normalize text).toList = [' '].intercalate (words text.toList) ∧
    normalize (normalize text) = normalize text ∧
    OnOneLine (normalize text).toList ∧
    (∀ other, normalize text = normalize other ↔ words text.toList = words other.toList) ∧
    ∀ blanks other, blanks ≠ "" → (∀ c ∈ blanks.toList, isBlank c) →
      normalize (text ++ blanks ++ other) = normalize (normalize text ++ " " ++ normalize other) ∧
      ∀ more, more ≠ "" → (∀ c ∈ more.toList, isBlank c) →
        normalize (text ++ more ++ other) = normalize (text ++ blanks ++ other) := by
  refine ⟨fun ws => hasWords_iff, toList_normalize text, ?_, ?_, fun other => normalize_eq_iff, ?_⟩
  · rw [normalize_eq_iff, words_normalize]
  · rw [toList_normalize]
    exact onOneLine_intercalate (hasWords_words text.toList).isWord
  · intro blanks other hne hblanks
    have hspace : ∀ c ∈ " ".toList, isBlank c := List.all_eq_true.1 (by decide)
    refine ⟨?_, fun more hmore hmoreBlank => ?_⟩
    · rw [normalize_eq_iff, words_append hne hblanks, words_append (by decide) hspace,
        words_normalize, words_normalize]
    · rw [normalize_eq_iff, words_append hmore hmoreBlank, words_append hne hblanks]

/-- A line break, a space that does not break and an ideographic space, between two texts and around
them. -/
theorem normalize_canonical_mixedBlanks :
    normalize "\n\u00a0SELECT\u3000*\t" = "SELECT *" ∧
    (∀ c ∈ "\u2028 \u0085".toList, isBlank c) ∧
    normalize ("\n\u00a0SELECT\u3000*\t" ++ "\u2028 \u0085" ++ "FROM  t ") = "SELECT * FROM t" := by
  have hblanks : ∀ c ∈ "\u2028 \u0085".toList, isBlank c := List.all_eq_true.1 (by decide +kernel)
  have hfirst : normalize "\n\u00a0SELECT\u3000*\t" = "SELECT *" := by decide +kernel
  have hsecond : normalize "FROM  t " = "FROM t" := by decide +kernel
  obtain ⟨-, -, -, -, -, hbetween⟩ := normalize_canonical "\n\u00a0SELECT\u3000*\t"
  refine ⟨hfirst, hblanks, ?_⟩
  rw [(hbetween "\u2028 \u0085" "FROM  t " (by decide) hblanks).1, hfirst, hsecond]
  decide +kernel

end

end SqlFragments.Text
