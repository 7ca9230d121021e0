import Statechart.Proofs.Token.Outline
/-!
# Excerpt — the source lines that a refused indentation shows

A refusal keeps the number of its line and the whole source.  What it shows is cut twice: the lines around its own are
put together as a text, and that text is cut in lines again, which are counted from a number found anew.  Both ends of
the text may be nearer than the lines to show.  For every text the two agree: each line that is shown stands behind its
own number, and the mark stands under the first character behind the indentation.
-/
namespace Statechart

open Diagnostic (BadIndentation Context excerpt)
open LineByLine (blanks_of_isSignificant)

/-! ## The line of a refusal -/

namespace Outline

/-- **A clash is with one of the rows.** -/
theorem row_of_clash {c : Clash} : ∀ {rs : List Row} {stack : List Nat} {i : Nat}, clash stack i rs = some c →
    ∃ k r, rs[k]? = some r ∧ r.width = some c.width ∧ c.line = i + k
  | [], _, _, h => by cases h
  | r :: rs, stack, i, h => by
    rw [clash] at h
    cases hat : clashAt stack i r.width with
    | none =>
      rw [hat, Option.none_or] at h
      obtain ⟨k, s, hs, hwidth, hline⟩ := row_of_clash h
      exact ⟨k + 1, s, hs, hwidth, by omega⟩
    | some c' =>
      rw [hat, Option.some_or, Option.some.injEq] at h
      subst h
      cases hr : r.width with
      | none => simp [clashAt, hr] at hat
      | some w =>
        simp only [clashAt, hr, Option.ite_none_right_eq_some, Option.some.injEq] at hat
        obtain ⟨-, rfl⟩ := hat
        exact ⟨0, r, rfl, hr, rfl⟩

end Outline

/-- **A text is refused at one of its lines**, for the width of the spaces in front of a character of that line. -/
theorem line_of_refused {t : Text} {e : BadIndentation} (h : tokenize t = .error e) :
    ∃ (k w : Nat) (c : Char) (rest : Text), e.line = (k + 1 : Nat) ∧ e.width = w ∧ e.source = some t ∧
      (Text.lines t)[k]? = some (Text.blanks w ++ c :: rest) ∧ c ≠ ' ' := by
  have hshows := tokenize_outline t
  cases hclash : Outline.clash [0] 1 (outline t) with
  | none =>
    rw [hclash] at hshows
    obtain ⟨ts, hts, -⟩ := hshows
    rw [h] at hts
    cases hts
  | some x =>
    rw [hclash] at hshows
    obtain rfl : e = x.refusal t := Except.error.inj (h.symm.trans hshows)
    obtain ⟨k, r, hr, hwidth, hline⟩ := Outline.row_of_clash hclash
    unfold outline at hr
    rw [List.getElem?_map, Option.map_eq_some_iff] at hr
    obtain ⟨l, hl, rfl⟩ := hr
    simp only [Row.ofLine, Option.ite_none_right_eq_some, Option.some.injEq] at hwidth
    obtain ⟨hsignificant, hwidth⟩ := hwidth
    obtain ⟨c, rest, hc, hrest⟩ := blanks_of_isSignificant hsignificant
    refine ⟨k, x.width, c, rest, ?_, rfl, rfl, ?_, hc⟩
    · show ((x.line : Nat) : Int) = ((k + 1 : Nat) : Int)
      rw [hline, Nat.add_comm]
    · rw [hl, ← hwidth, ← hrest]

/-! ## Lines behind their numbers -/

/-- Line `n` of a text behind its number, which takes four places or more. -/
def numberedLine (t : Text) (n : Nat) : Text :=
  Text.padLeft 4 (Text.ofNat n) ++ " | ".toList ++ (Text.lines t).getD (n - 1) []

/-- The lines of a text from line `first` to line `last`, each behind its number. -/
def numberedLines (t : Text) (first last : Nat) : List Text :=
  (List.range' first (last + 1 - first)).map (numberedLine t)

theorem range'_split {first line last : Nat} (hfirst : first ≤ line) (hlast : line ≤ last) :
    List.range' first (last + 1 - first) =
      List.range' first (line - first) ++ line :: List.range' (line + 1) (last - line) := by
  have hbefore : first + (line - first) = line := by omega
  have hlength : last + 1 - first = (line - first) + (last - line + 1) := by omega
  rw [hlength, ← List.range'_append_1, hbefore, List.range'_succ]

theorem drop_take_eq_map_range' {α : Type} {xs : List α} (d : α) {a b : Nat} (hb : b ≤ xs.length) :
    (xs.take b).drop a = (List.range' (a + 1) (b - a)).map fun n => xs.getD (n - 1) d := by
  refine List.ext_getElem (by simp; omega) fun i hi hi' => ?_
  simp only [List.length_drop, List.length_take] at hi
  have hget : a + i < xs.length := by omega
  have hnumber : a + 1 + i - 1 = a + i := by omega
  simp [hnumber, hget]

/-- The lines that are at most two lines away from a line. -/
def linesAround (t : Text) (line : Nat) : List Text :=
  (List.range' (max 1 (line - 2)) (min (Text.lines t).length (line + 2) + 1 - max 1 (line - 2))).map
    fun n => (Text.lines t).getD (n - 1) []

theorem inline_of_mem_linesAround {t : Text} {line : Nat} : ∀ l ∈ linesAround t line, '\n' ∉ l := by
  intro l hl
  obtain ⟨n, hn, rfl⟩ := List.mem_map.1 hl
  have hn := List.mem_range'_1.1 hn
  have hget : n - 1 < (Text.lines t).length := by omega
  rw [List.getD_eq_getElem?_getD, List.getElem?_eq_getElem hget]
  exact Text.inline_of_mem_lines (List.getElem_mem hget)

theorem mem_linesAround {t l : Text} {k : Nat} (h : (Text.lines t)[k]? = some l) : l ∈ linesAround t (k + 1) := by
  have hk := (List.getElem?_eq_some_iff.1 h).1
  refine List.mem_map.2 ⟨k + 1, List.mem_range'_1.2 (by omega), ?_⟩
  simp [h]

/-- **A refusal cuts out the lines around its own.** -/
theorem excerpt_eq {t : Text} {line : Nat} (hline : line ≤ (Text.lines t).length) :
    excerpt t line Context.lead = Text.unlines (linesAround t line) := by
  have hfirst : Text.bound (Text.lines t).length (max 1 ((line : Int) - 2) - 1) = max 1 (line - 2) - 1 := by
    unfold Text.bound
    split <;> omega
  have hlast : Text.bound (Text.lines t).length (min ((Text.lines t).length : Int) (line + 2)) =
      min (Text.lines t).length (line + 2) := by
    unfold Text.bound
    split <;> omega
  have hone : max 1 (line - 2) - 1 + 1 = max 1 (line - 2) := by omega
  have hcount : min (Text.lines t).length (line + 2) - (max 1 (line - 2) - 1) =
      min (Text.lines t).length (line + 2) + 1 - max 1 (line - 2) := by omega
  unfold excerpt Text.slice Context.lead linesAround
  dsimp only
  rw [hfirst, hlast, drop_take_eq_map_range' [] (Nat.min_le_left _ _), hone, hcount]

namespace Diagnostic.Context

/-- Lines cut from a text get the numbers that they have in it. -/
theorem numberedFrom_map_range' (c : Context) (f : Nat → Text) : ∀ first count : Nat,
    c.numberedFrom first ((List.range' first count).map f) =
      (List.range' first count).flatMap fun n : Nat => c.numbered n (f n)
  | _, 0 => rfl
  | first, count + 1 => by
    rw [List.range'_succ, List.map_cons, List.flatMap_cons, numberedFrom]
    exact congrArg (c.numbered first (f first) ++ ·) (numberedFrom_map_range' c f (first + 1) count)

theorem numbered_here (c : Context) {n : Nat} (h : c.line = n) (l : Text) :
    c.numbered n l = [margin n ++ l, Text.blanks ((margin n).length + c.column - 1).toNat ++ "^^^".toList] :=
  if_pos h.symm

theorem numbered_elsewhere (c : Context) {n : Nat} (h : c.line ≠ n) (l : Text) : c.numbered n l = [margin n ++ l] :=
  if_neg (Ne.symm h)

theorem flatMap_elsewhere (c : Context) (t : Text) : ∀ {ns : List Nat}, (∀ n ∈ ns, c.line ≠ n) →
    (ns.flatMap fun n : Nat => c.numbered n ((Text.lines t).getD (n - 1) [])) = ns.map (numberedLine t)
  | [], _ => rfl
  | n :: ns, h => by
    obtain ⟨hn, hns⟩ := List.forall_mem_cons.1 h
    rw [List.flatMap_cons, List.map_cons, c.numbered_elsewhere hn, c.flatMap_elsewhere t hns]
    rfl

theorem flatMap_numbered {c : Context} {line : Nat} (h : c.line = line) (t : Text) {first last : Nat}
    (hfirst : first ≤ line) (hlast : line ≤ last) :
    ((List.range' first (last + 1 - first)).flatMap fun n : Nat => c.numbered n ((Text.lines t).getD (n - 1) [])) =
      numberedLines t first line ++
        (Text.blanks ((margin line).length + c.column - 1).toNat ++ "^^^".toList) ::
          numberedLines t (line + 1) last := by
  have hbefore : ∀ n ∈ List.range' first (line - first), c.line ≠ n := by
    intro n hn
    have hn := List.mem_range'_1.1 hn
    omega
  have hbehind : ∀ n ∈ List.range' (line + 1) (last - line), c.line ≠ n := by
    intro n hn
    have hn := List.mem_range'_1.1 hn
    omega
  have hcount : last + 1 - (line + 1) = last - line := by omega
  unfold numberedLines
  rw [range'_split hfirst hlast, range'_split hfirst (Nat.le_refl line), List.flatMap_append, List.flatMap_cons,
    c.flatMap_elsewhere t hbefore, c.flatMap_elsewhere t hbehind, c.numbered_here h, hcount]
  simp [numberedLine, margin, Text.ofInt]

theorem shown_of_snippet {c : Context} {s : Text} (hsource : c.source = none) (hsnippet : c.snippet = some s)
    (hs : s ≠ []) :
    c.shown = Text.ofInt c.line ++ ':' :: Text.ofInt c.column ++ '\n' ::
      Text.unlines (c.numberedFrom (max 1 (c.line - lead)) (Text.lines s)) := by
  unfold shown location shownSnippet
  cases s with
  | nil => exact absurd rfl hs
  | cons x s => rw [hsource, hsnippet]

/-- The lines around a line that is not empty are shown with the numbers that they have in the text. -/
theorem shown_of_excerpt {c : Context} {t l : Text} {k : Nat} (hsource : c.source = none)
    (hline : c.line = (k + 1 : Nat)) (hsnippet : c.snippet = some (excerpt t c.line lead))
    (hl : (Text.lines t)[k]? = some l) (hne : l ≠ []) :
    c.shown = Text.ofNat (k + 1) ++ ':' :: Text.ofInt c.column ++ '\n' ::
      Text.unlines (numberedLines t (max 1 (k + 1 - 2)) (k + 1) ++
        (Text.blanks ((margin (k + 1 : Nat)).length + c.column - 1).toNat ++ "^^^".toList) ::
          numberedLines t (k + 1 + 1) (min (Text.lines t).length (k + 1 + 2))) := by
  have hk : k + 1 ≤ (Text.lines t).length := (List.getElem?_eq_some_iff.1 hl).1
  have hmem := mem_linesAround hl
  have hlines := Text.lines_unlines (List.ne_nil_of_mem hmem) inline_of_mem_linesAround
  -- an empty excerpt would be one empty line
  have hsome : Text.unlines (linesAround t (k + 1)) ≠ [] := by
    intro hnil
    rw [← hlines, hnil] at hmem
    exact hne (List.mem_singleton.1 hmem)
  have hlead : max 1 (c.line - lead) = (max 1 (k + 1 - 2) : Nat) := by
    rw [hline]
    unfold lead
    omega
  rw [hline, excerpt_eq hk] at hsnippet
  rw [shown_of_snippet hsource hsnippet hsome, hlines, hlead, linesAround, numberedFrom_map_range',
    flatMap_numbered hline t (by omega) (by omega), hline]
  rfl

end Diagnostic.Context

/-- **A refused indentation shows the lines around it**, each behind its own number, and the mark once: below the line
of the refusal, under the first character behind the spaces of that line. -/
theorem shown_of_refused {t : Text} {e : BadIndentation} (h : tokenize t = .error e) :
    ∃ (line width : Nat) (before : Text) (c : Char) (rest : Text),
      e.line = line ∧ e.width = width ∧ 1 ≤ line ∧
      (Text.lines t)[line - 1]? = some (Text.blanks width ++ c :: rest) ∧ c ≠ ' ' ∧
      numberedLine t line = before ++ c :: rest ∧
      e.context.shown = Text.ofNat line ++ ':' :: Text.ofNat (width + 1) ++ '\n' ::
        Text.unlines (numberedLines t (max 1 (line - 2)) line ++
          (Text.blanks before.length ++ "^^^".toList) ::
            numberedLines t (line + 1) (min (Text.lines t).length (line + 2))) := by
  obtain ⟨k, w, c, rest, hline, hwidth, hsource, hl, hc⟩ := line_of_refused h
  refine ⟨k + 1, w, Context.margin (k + 1 : Nat) ++ Text.blanks w, c, rest, hline, hwidth, by omega, hl, hc, ?_, ?_⟩
  · unfold numberedLine
    rw [Nat.add_sub_cancel, List.getD_eq_getElem?_getD, hl, Option.getD_some, List.append_assoc (Context.margin _)]
    rfl
  · have hsnippet : e.context.snippet = some (excerpt t e.context.line Context.lead) := by
      unfold Diagnostic.BadIndentation.context
      rw [hsource]
      rfl
    have hcolumn : e.context.column = (w + 1 : Nat) := by
      unfold Diagnostic.BadIndentation.context
      rw [hwidth]
      rfl
    have hmark : ((Context.margin (k + 1 : Nat)).length + e.context.column - 1).toNat =
        (Context.margin (k + 1 : Nat) ++ Text.blanks w).length := by
      rw [hcolumn, List.length_append, Text.blanks, List.length_replicate]
      omega
    rw [Context.shown_of_excerpt rfl hline hsnippet hl (by simp), hmark, hcolumn]
    rfl

theorem shown_of_refused_fourthLine :
    ∃ e, tokenize "a\n  b\n      c\n    d\ne".toList = .error e ∧ e.line = 4 ∧ e.width = 4 ∧
      e.context.shown = "4:5\n   2 |   b\n   3 |       c\n   4 |     d\n           ^^^\n   5 | e".toList := by
  refine ⟨⟨4, [0, 2, 6], 4, some "a\n  b\n      c\n    d\ne".toList⟩, by decide +kernel, rfl, rfl, ?_⟩
  obtain ⟨line, width, before, c, rest, hline, hwidth, -, hl, -, hnumbered, hshown⟩ :=
    shown_of_refused (t := "a\n  b\n      c\n    d\ne".toList)
      (e := ⟨4, [0, 2, 6], 4, some "a\n  b\n      c\n    d\ne".toList⟩) (by decide +kernel)
  obtain rfl : line = 4 := Int.ofNat.inj hline.symm
  obtain rfl : width = 4 := Int.ofNat.inj hwidth.symm
  obtain ⟨rfl, rfl⟩ : 'd' = c ∧ [] = rest := by simpa [Text.blanks, Text.lines, Text.splitAt] using hl
  obtain rfl : "   4 |     ".toList = before := List.append_cancel_right (hnumbered : _ = before ++ ['d'])
  rw [hshown]
  decide +kernel

end Statechart
