import Statechart.Proofs.Grammar.Outcome
import Statechart.Proofs.Token.Outline
/-!
# Outermost — what a text is read as, from its outline

A text is read as its outermost states, from which the root is assembled, or it is refused, or it is a mismatch.  Which
states these are, and at which line with which widths it is refused, is said by the rows of the text alone
(`outermost_iff`, `refused_iff`).
-/
namespace Statechart

open Grammar
open Diagnostic (BadIndentation)

theorem biUnique_eq : Relator.BiUnique (@Eq Int) :=
  ⟨fun _ _ _ h h' => h.trans h'.symm, fun _ _ _ h h' => h.symm.trans h'⟩

/-- The rows are those of a chart with these outermost states. -/
def Charted (rows : List Row) (nodes : List Node) : Prop :=
  Outline.clash [0] 1 rows = none ∧ IsChart (Outline.tokens [0] 1 rows) nodes

namespace Reading

variable {rootId t : Text}

/-- The outermost states that a text is read as. -/
def outermost (t : Text) : Option (List Node) :=
  match tokenize t with
  | .error _ => none
  | .ok ts => match (chart.run (visible ts) 0).1 with
    | .matched nodes _ => some nodes
    | _ => none

theorem outermost_eq_some {nodes : List Node} : outermost t = some nodes ↔
    ∃ ts, tokenize t = .ok ts ∧ ∃ stop, chart.run.Gives (visible ts) 0 nodes stop := by
  unfold outermost
  cases htokens : tokenize t with
  | error e => exact ⟨nofun, nofun⟩
  | ok ts =>
    simp only [Except.ok.injEq, exists_eq_left', Matcher.Gives]
    cases (chart.run (visible ts) 0).1 with
    | matched ns stop => simp
    | failed f => simp
    | unfit => simp

/-- The text is read as a tree. -/
def Yields (rootId t : Text) (root : Node) : Prop := ∃ records, ofText rootId t = .ok (.tree root, records)

/-- The indentation of the text cannot be read. -/
def Refused (rootId t : Text) (e : BadIndentation) : Prop := ofText rootId t = .error (.indentation e)

/-- **A tree is the root of the outermost states.** -/
theorem yields_iff {root : Node} :
    Yields rootId t root ↔ ∃ nodes, outermost t = some nodes ∧ root = Assembly.root rootId nodes := by
  unfold Yields ofText outermost
  cases htokens : tokenize t with
  | error e => exact ⟨nofun, nofun⟩
  | ok ts =>
    simp only [ofTokens]
    rcases hrun : chart.run (visible ts) 0 with ⟨outcome, trace⟩
    cases outcome with
    | matched nodes stop => simp [eq_comm]
    | failed f => simp
    | unfit => simp

theorem refused_iff_tokenize {e : BadIndentation} : Refused rootId t e ↔ tokenize t = .error e := by
  unfold Refused ofText
  cases htokens : tokenize t with
  | error e' => simp
  | ok ts =>
    simp only [ofTokens]
    rcases chart.run (visible ts) 0 with ⟨outcome, trace⟩
    cases outcome <;> simp

/-- **A text is refused where a row of it clashes.** -/
theorem refused_iff {e : BadIndentation} :
    Refused rootId t e ↔ ∃ c, Outline.clash [0] 1 (outline t) = some c ∧ e = c.refusal t := by
  have hshows := tokenize_outline t
  rw [refused_iff_tokenize]
  cases hclash : Outline.clash [0] 1 (outline t) with
  | some c =>
    rw [hclash] at hshows
    have hshows : tokenize t = .error (c.refusal t) := hshows
    rw [hshows]
    simp [eq_comm]
  | none =>
    rw [hclash] at hshows
    obtain ⟨ts, hts, -⟩ := hshows
    rw [hts]
    simp

/-- The width and the open widths of a refusal, without its line. -/
theorem exists_refused_iff {width : Int} {stack : List Int} :
    (∃ e, Refused rootId t e ∧ e.width = width ∧ e.stack = stack) ↔
      ∃ p ∈ (Outline.clash [0] 1 (outline t)).map Clash.widths,
        Int.ofNat p.1 = width ∧ p.2.reverse.map Int.ofNat = stack := by
  simp only [refused_iff]
  constructor
  · rintro ⟨_, ⟨c, hc, rfl⟩, rfl, rfl⟩
    exact ⟨(c.width, c.stack), by rw [hc]; rfl, rfl, rfl⟩
  · rintro ⟨_, hp, rfl, rfl⟩
    obtain ⟨c, hc, rfl⟩ := Option.map_eq_some_iff.1 hp
    exact ⟨c.refusal t, ⟨c, hc, rfl⟩, rfl, rfl⟩

/-- **A text is read as the states that its rows are the chart of.** -/
theorem outermost_iff {nodes : List Node} : outermost t = some nodes ↔ Charted (outline t) nodes := by
  have hshows := tokenize_outline t
  rw [outermost_eq_some]
  unfold Charted
  cases hclash : Outline.clash [0] 1 (outline t) with
  | some c =>
    rw [hclash] at hshows
    have hshows : tokenize t = .error (c.refusal t) := hshows
    rw [hshows]
    exact ⟨nofun, nofun⟩
  | none =>
    rw [hclash] at hshows
    obtain ⟨ts, hts, hseen⟩ := hshows
    have hworded := worded_of_tokenize hts
    constructor
    · rintro ⟨ts', hts', stop, hgives⟩
      obtain rfl := Except.ok.inj (hts.symm.trans hts')
      obtain ⟨d, hd, he, htokens, rfl⟩ := chart_sound (allWorded_visible hworded) hgives
      exact ⟨rfl, (isChart_congr biUnique_eq hseen).1 ⟨d, hd, he, htokens.trans (toList_visible ts), rfl⟩⟩
    · rintro ⟨-, hchart⟩
      obtain ⟨d, hd, he, htokens, rfl⟩ := (isChart_congr biUnique_eq hseen).2 hchart
      exact ⟨ts, hts, _, chart_gives_of_derivation hworded hd he htokens⟩

theorem yields_congr {t t' : Text} (h : ∀ nodes, Charted (outline t) nodes ↔ Charted (outline t') nodes)
    (rootId : Text) (root : Node) : Yields rootId t root ↔ Yields rootId t' root := by
  rw [yields_iff, yields_iff]
  simp only [outermost_iff, h]

end Reading
end Statechart
