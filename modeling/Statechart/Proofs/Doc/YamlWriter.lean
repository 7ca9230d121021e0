import Statechart.Proofs.Doc.YamlPieces
/-!
# YamlWriter — the writer of the library writes block style

It folds a plain text only at single blanks inside it, quotes what would be no text, and puts what does not fit on a
line one step deeper.  A step is at least two columns wide, which is the room that a dash and a blank take
(`inBlocks_dump`).
-/
namespace Statechart
namespace Yaml

open Doc (Open)
open Doc.Yaml (newLine scalar stacked runs isPlain plainRuns singleRuns doubleQuotes breaksAtBlank simpleKey isSimpleKey
  dashed keyed)

variable {w t : Text} {c : Char}

/-! ## Folds -/

theorem folded_refl : ∀ t : Text, Folded t t
  | [] => .nil
  | c :: t => .char c (folded_refl t)

theorem Folded.append {s t' s' : Text} (h : Folded t s) (h' : Folded t' s') : Folded (t ++ t') (s ++ s') := by
  induction h with
  | nil => exact h'
  | char c _ ih => exact .char c ih
  | fold indent hinside _ ih =>
    rw [List.append_assoc]
    exact .fold indent (List.append_ne_nil_of_left_ne_nil hinside t') ih

/-- **Runs are folded where they are single blanks**, unless the last one is. -/
theorem folded_plainRuns (place : Doc.Yaml.Place) : ∀ (column : Nat) {rs : List Text}, (∀ run ∈ rs, run ≠ []) →
    [' '] ∉ rs.getLast? → Folded rs.flatten (plainRuns place column rs)
  | _, [], _, _ => .nil
  | column, [run], _, hlast => by
    have hrun : run ≠ [' '] := fun h => hlast (congrArg some h)
    rw [plainRuns, if_neg fun h => hrun h.1, plainRuns, List.flatten_singleton, List.append_nil]
    exact folded_refl run
  | column, run :: next :: rest, hne, hlast => by
    have hrest : ∀ r ∈ next :: rest, r ≠ [] := fun r hr => hne r (List.mem_cons_of_mem run hr)
    rw [List.getLast?_cons_cons] at hlast
    rw [plainRuns, List.flatten_cons]
    by_cases h : run = [' '] ∧ Doc.Yaml.lineWidth < column ∧ place.folds
    · have hinside : (next :: rest).flatten ≠ [] :=
        List.flatten_ne_nil_iff.2 ⟨next, List.mem_cons_self, hrest next List.mem_cons_self⟩
      rw [if_pos h, h.1]
      exact .fold place.indent hinside (folded_plainRuns place place.indent hrest hlast)
    · rw [if_neg h]
      exact (folded_refl run).append (folded_plainRuns place (column + run.length) hrest hlast)

theorem flatten_runs (t : Text) : (runs t).flatten = t := List.flatten_splitBy _ t

theorem not_mem_getLast?_runs (h : t.getLast? ≠ some ' ') : [' '] ∉ (runs t).getLast? := by
  intro hlast
  obtain ⟨front, hruns⟩ := List.getLast?_eq_some_iff.1 hlast
  have hflat := flatten_runs t
  rw [hruns, List.flatten_append, List.flatten_singleton] at hflat
  rw [← hflat, List.getLast?_concat] at h
  exact h rfl

/-! ## Plain texts -/

/-- What a writer sees of a text before it leaves the quotes away. -/
structure PlainText (t : Text) : Prop where
  type : Doc.Yaml.isOther t = false
  inline : '\n' ∉ t
  starts : Doc.Yaml.startsOther t = false
  first : t.head? ≠ some ' '
  last : t.getLast? ≠ some ' '

theorem plainText_of_isPlain (h : isPlain t = true) : PlainText t := by
  simp only [isPlain, Bool.and_eq_true, Bool.not_eq_true', bne_iff_ne, ne_eq] at h
  obtain ⟨⟨⟨⟨⟨⟨⟨type, -⟩, breaks⟩, -⟩, starts⟩, -⟩, first⟩, last⟩ := h
  refine ⟨type, fun hc => ?_, starts, first, last⟩
  exact absurd rfl (List.any_eq_false.1 breaks '\n' hc)

/-- A blank separates, and so does the end. -/
theorem not_isGap_of_not_separates (h : Doc.Yaml.separates t = false) : isGap t = false := by
  cases t with
  | nil => cases h
  | cons c rest =>
    refine beq_eq_false_iff_ne.2 ?_
    rintro rfl
    cases h

namespace PlainText

variable (h : PlainText t)
include h

theorem ne_nil : t ≠ [] := by
  rintro rfl
  cases h.type

theorem startsPlain : startsPlain t = true := by
  cases t with
  | nil => exact absurd rfl h.ne_nil
  | cons c rest =>
    have hblank : c ≠ ' ' := fun hc => h.first (congrArg some hc)
    obtain ⟨hindicator, hmark⟩ := Bool.or_eq_false_iff.1 h.starts
    have hnot : indicators.contains c = false := by
      show (' ' :: Doc.Yaml.indicators).contains c = false
      rw [List.contains_cons, hindicator, Bool.or_false]
      exact beq_eq_false_iff_ne.2 hblank
    have hgap : (marks.contains c && isGap rest) = false := by
      rcases Bool.and_eq_false_iff.1 hmark with hother | hseparated
      · have hmarks : marks.contains c = false := by
          simp only [Bool.or_eq_false_iff, beq_eq_false_iff_ne] at hother
          simp [marks, hother]
        rw [hmarks, Bool.false_and]
      · rw [not_isGap_of_not_separates hseparated, Bool.and_false]
    rw [Yaml.startsPlain, hnot, hgap]
    rfl

theorem folded (place : Doc.Yaml.Place) (column : Nat) : Folded t (plainRuns place column (runs t)) := by
  have hne : ∀ run ∈ runs t, run ≠ [] := fun _ hrun => List.ne_nil_of_mem_splitBy hrun
  have hruns := folded_plainRuns place column hne (not_mem_getLast?_runs h.last)
  rwa [flatten_runs] at hruns

end PlainText

/-! ## Words -/

theorem isBreak_of_isWordChar (hc : isWordChar c = true) : Doc.Yaml.isBreak c = false := by
  simp only [Doc.Yaml.isBreak, Bool.or_eq_false_iff, beq_eq_false_iff_ne]
  exact ⟨⟨⟨ne_of_isWordChar hc (by decide), ne_of_isWordChar hc (by decide)⟩, ne_of_isWordChar hc (by decide)⟩,
    ne_of_isWordChar hc (by decide)⟩

namespace IsWord

theorem not_special (hw : IsWord w) : w.any Doc.Yaml.isSpecial = false := by
  refine List.any_eq_false.2 fun c hc => ?_
  simp [Doc.Yaml.isSpecial, isAscii_of_isWordChar (hw c hc)]

theorem not_break (hw : IsWord w) : w.any Doc.Yaml.isBreak = false := by
  refine List.any_eq_false.2 fun c hc => ?_
  simp [isBreak_of_isWordChar (hw c hc)]

theorem not_breaksAtBlank : ∀ {w : Text}, IsWord w → breaksAtBlank w = false
  | [], _ => rfl
  | [_], _ => rfl
  | c :: d :: w, hw => by
    rw [breaksAtBlank, isBreak_of_isWordChar (hw c (by simp)), isBreak_of_isWordChar (hw d (by simp)),
      not_breaksAtBlank hw.tail]
    simp

theorem runs_eq (hw : IsWord w) (hne : w ≠ []) : runs w = [w] := by
  have hclass : ∀ c ∈ w, Doc.Yaml.runClass c = 2 := by
    intro c hc
    rw [Doc.Yaml.runClass, if_neg (ne_of_isWordChar (hw c hc) (by decide)), isBreak_of_isWordChar (hw c hc)]
    rfl
  refine List.splitBy_of_isChain hne (List.Pairwise.isChain ?_)
  refine List.pairwise_of_forall_mem_list fun a ha b hb => ?_
  rw [hclass a ha, hclass b hb]
  rfl

theorem ne_blank (hw : IsWord w) : w ≠ [' '] := by
  rintro rfl
  exact absurd (hw ' ' (by simp)) (by decide)

theorem doubleQuotes_eq : ∀ {w : Text}, IsWord w → doubleQuotes w = w
  | [], _ => rfl
  | c :: w, hw => by
    have ih : doubleQuotes w = w := doubleQuotes_eq hw.tail
    have hc : c ≠ '\'' := ne_of_isWordChar (hw c List.mem_cons_self) (by decide)
    rw [doubleQuotes, List.flatMap_cons, if_neg hc, ← doubleQuotes, ih]
    rfl

/-- Between single quotes a word is one run, in which nothing changes. -/
theorem singleRuns_eq (hw : IsWord w) (place : Doc.Yaml.Place) (column : Nat) :
    singleRuns place true column (runs w) = w := by
  by_cases hne : w = []
  · rw [hne]
    rfl
  · rw [hw.runs_eq hne, singleRuns, if_neg fun h => hw.ne_blank h.1, hw.not_break, if_neg Bool.false_ne_true,
      hw.doubleQuotes_eq, singleRuns, List.append_nil]

end IsWord

/-! ## What is written -/

/-- **A text in any style**, wherever it begins and however it is folded. -/
theorem scalar_written (place : Doc.Yaml.Place) (column : Nat) (t : Text) : Scalar t (scalar place column t) := by
  unfold scalar Doc.Yaml.styleOf
  split
  · next hplain =>
    have h := plainText_of_isPlain hplain
    exact .bare h.startsPlain (Doc.open_of_inline h.ne_nil h.inline) (fun hw => plain_of_word hw h.type)
      (h.folded place column)
  · split
    · exact .single fun hw => hw.singleRuns_eq place (column + 1)
    · next hdouble =>
      refine .double fun hw => hdouble ?_
      rw [hw.not_special, hw.not_breaksAtBlank]
      rfl

/-- A word before a colon is at most as long as its quotes allow. -/
theorem length_simpleKey_lt (hw : IsWord w) (hsimple : isSimpleKey w = true) : (simpleKey w).length < keyLimit := by
  have hlength : w.length < Doc.Yaml.keyLimit := by
    simp only [isSimpleKey, Bool.and_eq_true, decide_eq_true_eq] at hsimple
    exact hsimple.2
  rw [Doc.Yaml.keyLimit] at hlength
  rw [keyLimit]
  rcases (scalar_written ⟨false, 0⟩ 0 w).cases_of_word hw with ⟨hkey, -, -⟩ | hkey
  · rw [simpleKey, hkey]
    omega
  · rw [simpleKey, hkey, List.length_cons, List.length_append, List.length_singleton]
    omega

mutual

theorem behindMark_written (gap column : Nat) : ∀ d : Doc, BehindMark column d (Doc.Yaml.behindMark (gap + 2) column d)
  | .text t => .leaf (.text (scalar_written _ _ t))
  | .int i => .leaf (.int i)
  | .flag b => .leaf (.flag b)
  | .list [] => .leaf .list
  | .list (item :: items) => by
    have hcolumn : column + (gap + 2) = column + 2 + gap := by omega
    rw [Doc.Yaml.behindMark, hcolumn]
    exact .lines (.list (List.cons_ne_nil item items) (items_dashed gap _ (item :: items)))
  | .map [] => .leaf .map
  | .map (entry :: entries) => by
    have hcolumn : column + (gap + 2) = column + 2 + gap := by omega
    rw [Doc.Yaml.behindMark, hcolumn]
    exact .lines (.map (List.cons_ne_nil entry entries) (entries_keyed gap _ (entry :: entries)))

theorem behindKey_written (gap column width : Nat) :
    ∀ d : Doc, BehindKey column d (Doc.Yaml.behindKey (gap + 2) column width d)
  | .text t => .leaf (.text (scalar_written _ _ t))
  | .int i => .leaf (.int i)
  | .flag b => .leaf (.flag b)
  | .list [] => .leaf .list
  | .list (item :: items) =>
    .deeper (.inr ⟨rfl, _, rfl⟩) (.list (List.cons_ne_nil item items) (items_dashed gap column (item :: items)))
  | .map [] => .leaf .map
  | .map (entry :: entries) =>
    .deeper (.inl (by omega)) (.map (List.cons_ne_nil entry entries) (entries_keyed gap _ (entry :: entries)))

theorem items_dashed (gap column : Nat) : ∀ items : List Doc, Items column items (dashed (gap + 2) column items)
  | [] => .nil
  | d :: rest => .cons (behindMark_written gap column d) (items_dashed gap column rest)

theorem entries_keyed (gap column : Nat) :
    ∀ entries : List (Text × Doc), Entries column entries (keyed (gap + 2) column entries)
  | [] => .nil
  | (key, d) :: rest => by
    rw [keyed]
    split
    · next hsimple =>
      exact .simple (scalar_written _ _ key) (fun hw => length_simpleKey_lt hw hsimple)
        (behindKey_written gap column _ d) (entries_keyed gap column rest)
    · rw [List.cons_append, List.cons_append, List.append_assoc]
      exact .asked (scalar_written _ _ key) (behindMark_written gap column d) (entries_keyed gap column rest)

end

theorem exists_stepOf (indent : Int) : ∃ gap, Doc.Yaml.stepOf indent = gap + 2 := by
  refine Nat.exists_eq_add_of_le' ?_
  unfold Doc.Yaml.stepOf
  split <;> omega

/-- **The writer of the library writes block style.** -/
theorem inBlocks_dump : InBlocks Doc.Yaml.dump := by
  intro indent entries hne
  obtain ⟨gap, hgap⟩ := exists_stepOf indent
  cases entries with
  | nil => exact absurd rfl hne
  | cons entry entries =>
    refine ⟨_, .map (List.cons_ne_nil entry entries) (entries_keyed gap 0 (entry :: entries)), ?_⟩
    rw [Doc.Yaml.dump, hgap]
    rfl

end Yaml
end Statechart
