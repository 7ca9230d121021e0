import Mathlib
import Statechart.Proofs.Grammar.Leftmost
import Statechart.Proofs.Token.Comment
import Statechart.Proofs.Token.Widths
/-!
# Nesting — only the order of widths counts

A text and the text with its widths changed by a strictly increasing function are read as the same tree, also where that
puts a block around all states or takes it away (`ofText_respaced`).

One thing is in the way: a comment ends at a carriage return, and a line that begins with a comment is not measured,
whatever stands behind that carriage return.  If such a line with a word in it comes first, the blocks around it and
behind it differ.  So it is excluded (`Headed`), unless the width zero is kept.
-/
namespace Statechart

open Grammar Outline Reading
open Diagnostic (BadIndentation)
open Keyed (keys)

/-- No word comes before the first row that counts for the layout. -/
def Headed (rows : List Row) : Prop := ∀ r ∈ rows.takeWhile (fun r => r.width.isNone), r.words = []

theorem Headed.split {rows : List Row} (h : Headed rows) : ∃ front : List Row, (∀ s ∈ front, s = ⟨none, []⟩) ∧
    (rows = front ∨ ∃ r back w, rows = front ++ r :: back ∧ r.width = some w) := by
  refine ⟨rows.takeWhile (fun r => r.width.isNone), fun s hs => ?_, ?_⟩
  · have hnone := Option.isNone_iff_eq_none.1 (List.mem_takeWhile_imp (p := fun r : Row => r.width.isNone) hs)
    obtain ⟨width, words⟩ := s
    exact congrArg₂ Row.mk hnone (h _ hs)
  · have hsplit := List.takeWhile_append_dropWhile (p := fun r : Row => r.width.isNone) (l := rows)
    cases hd : rows.dropWhile (fun r => r.width.isNone) with
    | nil =>
      rw [hd, List.append_nil] at hsplit
      exact .inl hsplit.symm
    | cons r back =>
      have hsome := not_of_dropWhile_eq_cons (p := fun r : Row => r.width.isNone) hd
      obtain ⟨w, hw⟩ := Option.isSome_iff_exists.1 (by simpa using hsome)
      rw [hd] at hsplit
      exact .inr ⟨r, back, w, hsplit.symm, hw⟩

/-- Where a line ends with a line feed only, a line that is not measured has no word. -/
theorem headed_outline {t : Text} (h : '\r' ∉ t) : Headed (outline t) := by
  intro r hr
  have hnone := List.mem_takeWhile_imp hr
  obtain ⟨l, hl, rfl⟩ := List.mem_map.1 ((List.takeWhile_prefix _).subset hr)
  show signs false l = []
  unfold Row.ofLine LineByLine.isSignificant at hnone
  rw [← signs_dropWhile]
  cases hd : l.dropWhile isBlank with
  | nil => exact signs_of_blank rfl false
  | cons c rest =>
    obtain rfl : c = '#' := by
      rw [hd] at hnone
      by_contra hc
      simp [hc] at hnone
    have hends : ∀ c ∈ rest, isLineEnd c = false := by
      intro c hc
      have hmem : c ∈ l := mem_of_mem_dropWhile (hd ▸ List.mem_cons_of_mem _ hc)
      have hfeed : c ≠ '\n' := fun heq => Text.inline_of_mem_lines hl (heq ▸ hmem)
      have hreturn : c ≠ '\r' := fun heq => h (heq ▸ Text.mem_of_mem_splitAt hl hmem)
      simp [isLineEnd, hfeed, hreturn]
    exact signs_comment rfl hends

variable {front back : List Row} {r : Row} {w : Nat} {nodes : List Node}

/-! ## Rows at other widths -/

section

variable {f : Nat → Nat} {rows : List Row} (hf : StrictMono f)
include hf

theorem charted_widen_ground (h0 : f 0 = 0) (rows : List Row) :
    Charted (rows.map (Row.widen f)) nodes ↔ Charted rows nodes := by
  have hstack : [0].map f ++ [] = [0] := by rw [List.map_singleton, h0, List.append_nil]
  have hfloor := List.forall_mem_nil fun v => v < f 0
  have htokens := tokens_widen hf hfloor rows 1 (List.mem_singleton_self 0)
  have hclash := clash_widen hf hfloor rows 1 (List.mem_singleton_self 0)
  rw [hstack] at htokens hclash
  unfold Charted
  rw [htokens, hclash, Option.map_eq_none_iff, List.length_nil, List.replicate_zero, List.append_nil]

/-- Where no row stands at the width zero, it does not matter what becomes of that width. -/
theorem charted_widen_of_pos (hpos : ∀ r ∈ rows, ∀ w ∈ r.width, 0 < w) :
    Charted (rows.map (Row.widen f)) nodes ↔ Charted rows nodes := by
  let g : Nat → Nat := fun w => if w = 0 then 0 else f w
  have hg : StrictMono g := by
    intro a b hab
    have hb : g b = f b := if_neg (Nat.ne_zero_of_lt hab)
    rw [hb]
    by_cases ha : a = 0
    · show (if a = 0 then 0 else f a) < f b
      rw [if_pos ha]
      exact Nat.zero_lt_of_lt (hf hab)
    · show (if a = 0 then 0 else f a) < f b
      rw [if_neg ha]
      exact hf hab
  have hsame : rows.map (Row.widen f) = rows.map (Row.widen g) := by
    refine List.map_congr_left fun r hr => ?_
    cases hw : r.width with
    | none => simp [Row.widen, hw]
    | some w =>
      have hgw : g w = f w := if_neg (Nat.ne_zero_of_lt (hpos r hr w hw))
      simp [Row.widen, hw, hgw]
  rw [hsame]
  exact charted_widen_ground hg rfl rows

/-- Where the first row stands at the width zero and leaves it, there is one block more, around all the others. -/
theorem tokens_widen_first (h0 : 0 < f 0) (hr : r.width = some 0) (i : Nat) (back : List Row) :
    tokens [0] i ((r :: back).map (Row.widen f)) =
      ⟨.indent, i, 1, none⟩ :: (tokens [0] i (r :: back) ++ [⟨.dedent, ↑(i + 1 + back.length), 1, none⟩]) := by
  have hfloor : ∀ v ∈ [0], v < f 0 := fun v hv => (List.mem_singleton.1 hv) ▸ h0
  have hback := tokens_widen hf hfloor back (i + 1) (List.mem_singleton_self 0)
  have hr' : (r.widen f).width = some (f 0) := congrArg (Option.map f) hr
  rw [List.map_cons, tokens_cons, tokens_cons, hr, hr', entry_of_lt h0, after_of_lt h0]
  show _ :: (r.tokens i ++ tokens ([0].map f ++ [0]) (i + 1) (back.map (Row.widen f))) = _
  rw [hback, ← List.append_assoc]
  rfl

theorem clash_widen_first (h0 : 0 < f 0) (hr : r.width = some 0) (i : Nat) (back : List Row) :
    clash [0] i ((r :: back).map (Row.widen f)) = (clash [0] i (r :: back)).map (Clash.widen f [0]) := by
  have hfloor : ∀ v ∈ [0], v < f 0 := fun v hv => (List.mem_singleton.1 hv) ▸ h0
  have hr' : (r.widen f).width = some (f 0) := congrArg (Option.map f) hr
  rw [List.map_cons, clash, clash, hr, hr', clashAt_of_le (Nat.zero_le _), clashAt_of_le (Nat.le_refl 0), after_of_lt h0,
    Option.none_or, Option.none_or]
  exact clash_widen hf hfloor back (i + 1) (List.mem_singleton_self 0)

omit hf in
/-- A row at the width zero, as the first one, opens no block. -/
theorem head_tokens (hr : r.width = some 0) (hsound : r.Sound) (i : Nat) (back : List Row) :
    ∀ a ∈ (tokens [0] i (r :: back)).head?, a.kind ≠ .indent := by
  have hwords : r.words ≠ [] := hsound.counts (by rw [hr]; exact Option.some_ne_none 0)
  obtain ⟨w, ws, hw⟩ := List.exists_cons_of_ne_nil hwords
  have hhead : tokens [0] i (r :: back) = ⟨w.1, i, 1, w.2⟩ :: (ws.map (fun w => ⟨w.1, i, 1, w.2⟩) ++
      tokens (after [0] r.width) (i + 1) back) := by
    rw [tokens_cons, hr]
    unfold Row.tokens
    rw [hw]
    rfl
  intro a ha hkind
  rw [hhead] at ha
  obtain rfl := Option.some.inj ha
  have hword := hsound.words w (hw ▸ List.mem_cons_self)
  rw [show w.1 = .indent from hkind] at hword
  cases hword

omit hf in
theorem map_widen_empty (hfront : ∀ s ∈ front, s = ⟨none, []⟩) : front.map (Row.widen f) = front := by
  rw [List.map_congr_left (g := id) fun s hs => by rw [hfront s hs]; rfl, List.map_id]

theorem charted_widen_framed (h0 : 0 < f 0) (hfront : ∀ s ∈ front, s = ⟨none, []⟩) (hr : r.width = some 0)
    (hsound : r.Sound) : Charted ((front ++ r :: back).map (Row.widen f)) nodes ↔ Charted (front ++ r :: back) nodes := by
  unfold Charted
  rw [List.map_append, map_widen_empty hfront, tokens_empty_append [0] 1 hfront, tokens_empty_append [0] 1 hfront,
    clash_empty_append [0] 1 hfront, clash_empty_append [0] 1 hfront, tokens_widen_first hf h0 hr,
    clash_widen_first hf h0 hr, Option.map_eq_none_iff, isChart_framed_iff rfl rfl (head_tokens hr hsound _ back)]

/-- Where the first row stands behind spaces, no row stands at the width zero. -/
theorem charted_widen_right (hsound : ∀ s ∈ front ++ r :: back, s.Sound) (hfront : ∀ s ∈ front, s = ⟨none, []⟩)
    (hr : r.width = some w) (hw : 0 < w) :
    Charted ((front ++ r :: back).map (Row.widen f)) nodes ↔ Charted (front ++ r :: back) nodes := by
  have hpos : (∀ s ∈ back, ∀ v ∈ s.width, w ≤ v) → ∀ s ∈ front ++ r :: back, ∀ v ∈ s.width, 0 < v := by
    intro hback s hs v hv
    rcases List.mem_append.1 hs with hs | hs
    · rw [hfront s hs] at hv
      cases hv
    · rcases List.mem_cons.1 hs with rfl | hs
      · obtain rfl := Option.some.inj (hr.symm.trans hv)
        exact hw
      · exact Nat.lt_of_lt_of_le hw (hback s hs v hv)
  constructor
  · intro h
    have hleft : ∀ s ∈ back.map (Row.widen f), ∀ v ∈ s.width, f w ≤ v := by
      have hsound' := sound_widen hsound f
      rw [List.map_append, map_widen_empty hfront] at h hsound'
      exact h.leftmost hsound' hfront (congrArg (Option.map f) hr)
    refine (charted_widen_of_pos hf (hpos fun s hs v hv => ?_)).1 h
    exact hf.le_iff_le.1 (hleft (s.widen f) (List.mem_map_of_mem hs) (f v) (congrArg (Option.map f) hv))
  · intro h
    exact (charted_widen_of_pos hf (hpos (h.leftmost hsound hfront hr))).2 h

/-- **A strictly increasing change of widths changes no chart**, if it keeps the width zero, or if no word comes before
the first row that counts for the layout. -/
theorem charted_widen (hsound : ∀ r ∈ rows, r.Sound) (h : f 0 = 0 ∨ Headed rows) :
    Charted (rows.map (Row.widen f)) nodes ↔ Charted rows nodes := by
  rcases Nat.eq_zero_or_pos (f 0) with h0 | h0
  · exact charted_widen_ground hf h0 rows
  · obtain ⟨front, hfront, hrows⟩ := (h.resolve_left (Nat.ne_of_gt h0)).split
    rcases hrows with rfl | ⟨r, back, w, rfl, hr⟩
    · rw [map_widen_empty hfront]
    · rcases Nat.eq_zero_or_pos w with rfl | hw
      · exact charted_widen_framed hf h0 hfront hr (hsound r (by simp))
      · exact charted_widen_right hf hsound hfront hr hw

end

/-! ## Texts at other widths -/

/-- The refusal `e'` is the refusal `e` at other widths. -/
structure Moved (f : Nat → Nat) (e e' : BadIndentation) : Prop where
  line : e'.line = e.line
  widths : ∃ (w : Nat) (stack : List Nat), (e.width = w ∧ e.stack = stack.map Int.ofNat) ∧
    e'.width = f w ∧ e'.stack = (stack.map f).map Int.ofNat

theorem moved_refusal (f : Nat → Nat) (c : Clash) (source source' : Text) :
    Moved f (c.refusal source) ((c.widen f []).refusal source') := by
  refine ⟨rfl, c.width, c.stack.reverse, ⟨rfl, rfl⟩, rfl, ?_⟩
  show (c.stack.map f ++ []).reverse.map Int.ofNat = _
  rw [List.append_nil, List.map_reverse, List.map_reverse, List.map_reverse]

/-- **Only the order of widths counts.**  A text and the text with its leading spaces changed by a strictly increasing
function are read as the same tree, if a line without spaces stays one, or if no word comes before the first line that
is measured.  If a line without spaces stays one, both are refused or neither, at the same line. -/
theorem ofText_respaced {f : Nat → Nat} (hf : StrictMono f) {t : Text} (h : f 0 = 0 ∨ Headed (outline t))
    (rootId : Text) :
    (∀ root, Yields rootId (respaced f t) root ↔ Yields rootId t root) ∧
      (f 0 = 0 →
        (∀ e, Refused rootId t e → ∃ e', Refused rootId (respaced f t) e' ∧ Moved f e e') ∧
        ∀ e', Refused rootId (respaced f t) e' → ∃ e, Refused rootId t e ∧ Moved f e e') := by
  refine ⟨fun root => yields_congr (fun nodes => ?_) rootId root, fun h0 => ?_⟩
  · rw [outline_respaced]
    exact charted_widen hf (sound_outline t) h
  · have hstack : [0].map f ++ [] = [0] := by rw [List.map_singleton, h0, List.append_nil]
    have hclash := clash_widen hf (List.forall_mem_nil fun v => v < f 0) (outline t) 1 (List.mem_singleton_self 0)
    rw [hstack, ← outline_respaced] at hclash
    simp only [refused_iff, hclash, Option.map_eq_some_iff]
    constructor
    · rintro _ ⟨c, hc, rfl⟩
      exact ⟨_, ⟨_, ⟨c, hc, rfl⟩, rfl⟩, moved_refusal f c t _⟩
    · rintro _ ⟨_, ⟨c, hc, rfl⟩, rfl⟩
      exact ⟨_, ⟨c, hc, rfl⟩, moved_refusal f c t _⟩

/-- Every line is moved right, and further right the further right it stands. -/
def stretch (w : Nat) : Nat := 2 * w + 1

theorem ofText_respaced_block :
    StrictMono stretch ∧ Headed (outline "# c\na\n  b".toList) ∧
      respaced stretch "# c\na\n  b".toList = " # c\n a\n     b".toList ∧
      ∃ root, Yields [] (respaced stretch "# c\na\n  b".toList) root ∧ root.id = ['a'] ∧
        keys root.children = [['b']] := by
  have hf : StrictMono stretch := fun a b hab => by unfold stretch; omega
  have hheaded : Headed (outline "# c\na\n  b".toList) := headed_outline (by decide)
  have htokens : tokenize "# c\na\n  b".toList = .ok [⟨.comment, 1, 1, some "# c".toList⟩, ⟨.newline, 1, 4, none⟩,
      ⟨.identifier, 2, 1, some ['a']⟩, ⟨.newline, 2, 2, none⟩, ⟨.indent, 3, 1, none⟩, ⟨.identifier, 3, 3, some ['b']⟩,
      ⟨.dedent, 3, 4, none⟩] := by
    cbv
  have hread : ∃ root, Yields [] "# c\na\n  b".toList root ∧ root.id = ['a'] ∧ keys root.children = [['b']] := by
    unfold Yields ofText
    rw [htokens]
    exact ⟨_, ⟨_, rfl⟩, rfl, rfl⟩
  obtain ⟨root, hread, hid, hkeys⟩ := hread
  exact ⟨hf, hheaded, rfl, root, ((ofText_respaced hf (.inr hheaded) []).1 root).2 hread, hid, hkeys⟩

/-- A name behind a comment and a carriage return, and a line below it. -/
def unmeasured : Text := "# c\rb\nd".toList

theorem tokenize_unmeasured : tokenize unmeasured = .ok [⟨.comment, 1, 1, some "# c".toList⟩,
    ⟨.identifier, 1, 5, some ['b']⟩, ⟨.newline, 1, 6, none⟩, ⟨.identifier, 2, 1, some ['d']⟩] := by
  cbv

/-- **A word on a line that is not measured** is the name of the state around the others, once they are moved right. -/
theorem not_only_order_behind_return :
    ¬ ∀ (f : Nat → Nat) (t : Text), StrictMono f → ∀ rootId root,
      (Yields rootId (respaced f t) root ↔ Yields rootId t root) := by
  intro horder
  have htokens : tokenize (respaced (· + 1) unmeasured) = .ok [⟨.comment, 1, 2, some "# c".toList⟩,
      ⟨.identifier, 1, 6, some ['b']⟩, ⟨.newline, 1, 7, none⟩, ⟨.indent, 2, 1, none⟩, ⟨.identifier, 2, 2, some ['d']⟩,
      ⟨.dedent, 2, 3, none⟩] := by
    cbv
  have hread : ∃ root, Yields ['m'] unmeasured root ∧ root.id = ['m'] := by
    unfold Yields ofText
    rw [tokenize_unmeasured]
    exact ⟨_, ⟨_, rfl⟩, rfl⟩
  have hread' : ∃ root, Yields ['m'] (respaced (· + 1) unmeasured) root ∧ root.id = ['b'] := by
    unfold Yields ofText
    rw [htokens]
    exact ⟨_, ⟨_, rfl⟩, rfl⟩
  obtain ⟨root, ⟨records, hroot⟩, hid⟩ := hread
  obtain ⟨root', hyields, hid'⟩ := hread'
  have hstrict : StrictMono (fun w : Nat => w + 1) := fun a b hab => Nat.add_lt_add_right hab 1
  obtain ⟨records', hroot'⟩ := (horder (· + 1) unmeasured hstrict ['m'] root').1 hyields
  rw [hroot] at hroot'
  obtain ⟨⟨rfl⟩, -⟩ := Prod.mk.inj (Except.ok.inj hroot')
  rw [hid] at hid'
  cases hid'

end Statechart
