import Mathlib
import Statechart.Proofs.Grammar.Outermost
import Statechart.Proofs.Token.Comment
/-!
# Inert — what may be added to a text

A blank line or a comment line may be added anywhere: the lines behind it stand one lower, and nothing else changes
(`ofText_inserted`).  A comment may be added behind any line of a text that is read; to a text that is not read it may
give the name that a marker waits for, and nothing else (`ofText_trailed`).
-/
namespace Statechart

open Grammar Outline Reading
open Keyed (keys)

/-- From line `n` on the lines stand one lower. -/
def Lowered (n : Nat) (a b : Int) : Prop := (a < n ∧ b = a) ∨ (n ≤ a ∧ b = a + 1)

theorem biUnique_lowered (n : Nat) : Relator.BiUnique (Lowered n) := by
  constructor
  · intro a b c h h'
    unfold Lowered at h h'
    omega
  · intro a b c h h'
    unfold Lowered at h h'
    omega

section

variable (front back : List Row)

/-- **An empty row lowers the tokens behind it**, and changes nothing else. -/
theorem alike_inserted : List.Forall₂ (Token.Alike (Lowered (1 + front.length)))
    (tokens [0] 1 (front ++ back)) (tokens [0] 1 (front ++ ⟨none, []⟩ :: back)) := by
  rw [tokens_append, tokens_append, tokens_cons]
  refine List.rel_append (alike_body [0] fun k hk => ?_) (alike_tokens (leave [0] front) fun k _ => ?_)
  · exact .inl ⟨by omega, rfl⟩
  · exact .inr ⟨by omega, by omega⟩

theorem clash_inserted : (clash [0] 1 (front ++ ⟨none, []⟩ :: back)).map Clash.widths =
    (clash [0] 1 (front ++ back)).map Clash.widths := by
  rw [clash_append, clash_append, Option.map_or, Option.map_or]
  exact congrArg _ (clash_elsewhere (1 + front.length) (1 + front.length + 1) (leave [0] front) back)

theorem charted_inserted (nodes : List Node) :
    Charted (front ++ ⟨none, []⟩ :: back) nodes ↔ Charted (front ++ back) nodes := by
  have hclash : clash [0] 1 (front ++ ⟨none, []⟩ :: back) = none ↔ clash [0] 1 (front ++ back) = none := by
    rw [← Option.map_eq_none_iff (f := Clash.widths), clash_inserted, Option.map_eq_none_iff]
  exact and_congr hclash (isChart_congr (biUnique_lowered _) (alike_inserted front back)).symm

end

/-- The line is put at the start of the text, behind a line feed, or at the end. -/
inductive Inserts (line : Text) : Text → Text → Prop
  | first (t : Text) : Inserts line t (line ++ '\n' :: t)
  | behind (p q : Text) : Inserts line (p ++ '\n' :: q) (p ++ '\n' :: (line ++ '\n' :: q))
  | last (t : Text) : Inserts line t (t ++ '\n' :: line)

theorem outline_of_inserts {line t t' : Text} (h : Inserts line t t') (hline : '\n' ∉ line) :
    ∃ front back, outline t = front ++ back ∧ outline t' = front ++ Row.ofLine line :: back := by
  cases h with
  | first t => exact ⟨[], outline t, rfl, by rw [outline_append_cons, outline_of_inline hline]; rfl⟩
  | behind p q =>
    refine ⟨outline p, outline q, outline_append_cons p q, ?_⟩
    rw [outline_append_cons, outline_append_cons, outline_of_inline hline]
    rfl
  | last t => exact ⟨outline t, [], (List.append_nil _).symm, by rw [outline_append_cons, outline_of_inline hline]⟩

/-- **A blank line or a comment line is inert**, wherever it is put: the text is read as the same tree, or refused with
the same width and the same open widths, or neither. -/
theorem ofText_inserted {line t t' : Text} (hline : IsInert line) (h : Inserts line t t') (rootId : Text) :
    (∀ root, Yields rootId t' root ↔ Yields rootId t root) ∧
      ∀ width stack, (∃ e, Refused rootId t' e ∧ e.width = width ∧ e.stack = stack) ↔
        ∃ e, Refused rootId t e ∧ e.width = width ∧ e.stack = stack := by
  obtain ⟨front, back, ht, ht'⟩ := outline_of_inserts h hline.inline
  rw [hline.row] at ht'
  refine ⟨yields_congr (fun nodes => ?_) rootId, fun width stack => ?_⟩
  · rw [ht, ht']
    exact charted_inserted front back nodes
  · rw [exists_refused_iff, exists_refused_iff, ht, ht', clash_inserted]

/-- A wide comment line between a state and its child. -/
theorem ofText_inserted_remark :
    IsInert "    # c".toList ∧ Inserts "    # c".toList "a\n  b".toList "a\n    # c\n  b".toList ∧
      ∃ root, Yields [] "a\n    # c\n  b".toList root ∧ root.id = ['a'] ∧ keys root.children = [['b']] := by
  have hline : IsInert "    # c".toList :=
    ⟨Text.blanks 4, "# c".toList, rfl, fun _ => isBlank_of_mem_blanks, .inr ⟨" c".toList, rfl, by simp [isLineEnd]⟩⟩
  have hput : Inserts "    # c".toList "a\n  b".toList "a\n    # c\n  b".toList := .behind ['a'] "  b".toList
  have htokens : tokenize "a\n  b".toList = .ok [⟨.identifier, 1, 1, some ['a']⟩, ⟨.newline, 1, 2, none⟩,
      ⟨.indent, 2, 1, none⟩, ⟨.identifier, 2, 3, some ['b']⟩, ⟨.dedent, 2, 4, none⟩] := by
    cbv
  have h : ∃ root, Yields [] "a\n  b".toList root ∧ root.id = ['a'] ∧ keys root.children = [['b']] := by
    unfold Yields ofText
    rw [htokens]
    exact ⟨_, ⟨_, rfl⟩, rfl, rfl⟩
  obtain ⟨root, hread, hid, hkeys⟩ := h
  exact ⟨hline, hput, root, ((ofText_inserted hline hput []).1 root).2 hread, hid, hkeys⟩

/-! ## A comment behind a line -/

theorem mem_tokens {r : Row} {w : TokenKind × Option Text} (hw : w ∈ r.words) (i : Nat) :
    ∀ {rs : List Row} (stack : List Nat), r ∈ rs → ∃ t ∈ tokens stack i rs, t.kind = w.1 := by
  intro rs stack hr
  obtain ⟨front, back, rfl⟩ := List.append_of_mem hr
  rw [tokens_append, tokens_cons]
  refine ⟨⟨w.1, ↑(i + front.length), 1, w.2⟩, ?_, rfl⟩
  exact List.mem_append_right _ (List.mem_append_right _ (List.mem_append_left _ (List.mem_map_of_mem hw)))

/-- **Every word of a chart has a meaning.** -/
theorem Charted.known {rows : List Row} {nodes : List Node} (h : Charted rows nodes) :
    ∀ r ∈ rows, ∀ w ∈ r.words, w.1 ≠ .unknown := by
  obtain ⟨-, d, hd, -, htokens, -⟩ := h
  intro r hr w hw hunknown
  obtain ⟨t, ht, hkind⟩ := mem_tokens hw 1 [0] hr
  have hgrammatical := hd.grammatical t (htokens ▸ ht)
  rw [hkind, hunknown] at hgrammatical
  cases hgrammatical

/-- The text with a comment behind the line between two parts of it. -/
def trailed (front : List Text) (l x : Text) (back : List Text) : Text := Text.unlines (front ++ (l ++ trail x) :: back)

theorem outline_trailed {t : Text} {front back : List Text} {l x : Text} (ht : Text.lines t = front ++ l :: back)
    (hx : ∀ c ∈ x, isLineEnd c = false) :
    outline (trailed front l x back) = front.map Row.ofLine ++ Row.ofLine (l ++ trail x) :: back.map Row.ofLine := by
  have hinline : ∀ k ∈ front ++ l :: back, '\n' ∉ k := fun k hk => Text.inline_of_mem_lines (ht ▸ hk)
  obtain ⟨hfront, hl, hback⟩ : (∀ k ∈ front, '\n' ∉ k) ∧ '\n' ∉ l ∧ ∀ k ∈ back, '\n' ∉ k := by
    rw [List.forall_mem_append, List.forall_mem_cons] at hinline
    exact hinline
  have htrail : '\n' ∉ l ++ trail x := by
    intro hm
    rcases List.mem_append.1 hm with hm | hm
    · exact hl hm
    · have hxfeed : '\n' ∉ x := fun hm => absurd (hx _ hm) (by decide)
      simp [trail, hxfeed] at hm
  have hlines : Text.lines (trailed front l x back) = front ++ (l ++ trail x) :: back :=
    Text.lines_unlines (by simp) (List.forall_mem_append.2 ⟨hfront, List.forall_mem_cons.2 ⟨htrail, hback⟩⟩)
  unfold outline
  rw [hlines, List.map_append, List.map_cons]

/-- **A comment behind a line is inert** where the text is read.  Where it is not, the text with the comment is read only
if a `;` or `>` of the line found no name and finds one in the comment. -/
theorem ofText_trailed {t : Text} {front back : List Text} {l x : Text} (ht : Text.lines t = front ++ l :: back)
    (hx : ∀ c ∈ x, isLineEnd c = false) (rootId : Text) (root : Node) :
    (Yields rootId t root → Yields rootId (trailed front l x back) root) ∧
      (¬ (Dangles false l ∧ ∃ c ∈ x, isNameChar c = true) → Yields rootId (trailed front l x back) root →
        Yields rootId t root) := by
  have houtline : outline t = front.map Row.ofLine ++ Row.ofLine l :: back.map Row.ofLine := by
    unfold outline
    rw [ht, List.map_append, List.map_cons]
  have htrailed := outline_trailed ht hx
  rcases row_trail hx l with hrow | ⟨hdangles, w, hw, hunknown⟩
  · have hsame : outline t = outline (trailed front l x back) := by rw [houtline, htrailed, hrow]
    have hiff : Yields rootId t root ↔ Yields rootId (trailed front l x back) root :=
      yields_congr (fun nodes => by rw [hsame]) rootId root
    exact ⟨hiff.1, fun _ => hiff.2⟩
  -- a marker without a name has no place in a chart, so the text was not read
  · refine ⟨fun hread => ?_, fun h => absurd hdangles h⟩
    obtain ⟨nodes, hnodes, -⟩ := yields_iff.1 hread
    have hchart := outermost_iff.1 hnodes
    exact absurd hunknown (hchart.known (Row.ofLine l) (by simp [houtline]) w hw)

def guardLine : Text := "  b -> c; ok".toList

theorem ofText_trailed_guard :
    Text.lines ('a' :: '\n' :: guardLine) = [['a']] ++ guardLine :: [] ∧ (∀ c ∈ "why".toList, isLineEnd c = false) ∧
      trailed [['a']] guardLine "why".toList [] = "a\n  b -> c; ok # why".toList ∧
      ¬ (Dangles false guardLine ∧ ∃ c ∈ "why".toList, isNameChar c = true) ∧
      (∃ root, Yields [] ('a' :: '\n' :: guardLine) root) ∧
      ∀ root, Yields [] ('a' :: '\n' :: guardLine) root ↔ Yields [] (trailed [['a']] guardLine "why".toList []) root := by
  have hlines : Text.lines ('a' :: '\n' :: guardLine) = [['a']] ++ guardLine :: [] := rfl
  have hx : ∀ c ∈ "why".toList, isLineEnd c = false := by simp [isLineEnd]
  have hfree : ¬ (Dangles false guardLine ∧ ∃ c ∈ "why".toList, isNameChar c = true) :=
    fun h => absurd (h.1.last 'k' rfl) (by decide)
  have htokens : tokenize ('a' :: '\n' :: guardLine) = .ok [⟨.identifier, 1, 1, some ['a']⟩, ⟨.newline, 1, 2, none⟩,
      ⟨.indent, 2, 1, none⟩, ⟨.identifier, 2, 3, some ['b']⟩, ⟨.arrow, 2, 5, none⟩, ⟨.identifier, 2, 8, some ['c']⟩,
      ⟨.condition, 2, 9, some ['o', 'k']⟩, ⟨.dedent, 2, 13, none⟩] := by
    cbv
  have hread : ∃ root, Yields [] ('a' :: '\n' :: guardLine) root := by
    unfold Yields ofText
    rw [htokens]
    exact ⟨_, _, rfl⟩
  refine ⟨hlines, hx, rfl, hfree, hread, fun root => ?_⟩
  obtain ⟨hthere, hback⟩ := ofText_trailed hlines hx [] root
  exact ⟨hthere, hback hfree⟩

/-- A guard that is only a marker takes its name from the comment, and a text that was not read is read. -/
theorem not_inert_behind_marker :
    ¬ ∀ (t : Text) (front : List Text) (l : Text) (back : List Text) (x : Text), Text.lines t = front ++ l :: back →
      (∀ c ∈ x, isLineEnd c = false) → ∀ rootId root,
        (Yields rootId (trailed front l x back) root ↔ Yields rootId t root) := by
  intro hinert
  have htokens : tokenize "a\n  b -> c ;".toList = .ok [⟨.identifier, 1, 1, some ['a']⟩, ⟨.newline, 1, 2, none⟩,
      ⟨.indent, 2, 1, none⟩, ⟨.identifier, 2, 3, some ['b']⟩, ⟨.arrow, 2, 5, none⟩, ⟨.identifier, 2, 8, some ['c']⟩,
      ⟨.unknown, 2, 10, some [';']⟩, ⟨.dedent, 2, 11, none⟩] := by
    cbv
  have htokens' : tokenize (trailed [['a']] "  b -> c ;".toList "ok".toList []) = .ok
      [⟨.identifier, 1, 1, some ['a']⟩, ⟨.newline, 1, 2, none⟩, ⟨.indent, 2, 1, none⟩, ⟨.identifier, 2, 3, some ['b']⟩,
        ⟨.arrow, 2, 5, none⟩, ⟨.identifier, 2, 8, some ['c']⟩, ⟨.condition, 2, 10, some ['o', 'k']⟩,
        ⟨.dedent, 2, 16, none⟩] := by
    cbv
  have hread : ∃ root, Yields [] (trailed [['a']] "  b -> c ;".toList "ok".toList []) root := by
    unfold Yields ofText
    rw [htokens']
    exact ⟨_, _, rfl⟩
  have hunread : ∃ e records, ofText [] "a\n  b -> c ;".toList = .ok (.mismatch e, records) := by
    unfold ofText
    rw [htokens]
    exact ⟨_, _, rfl⟩
  obtain ⟨root, hread⟩ := hread
  have hline : Text.lines "a\n  b -> c ;".toList = [['a']] ++ "  b -> c ;".toList :: [] := rfl
  obtain ⟨records, htree⟩ := (hinert _ _ _ _ _ hline (by simp [isLineEnd]) [] root).1 hread
  obtain ⟨e, records', hmismatch⟩ := hunread
  rw [htree] at hmismatch
  cases hmismatch

end Statechart
