import Statechart.Proofs.Chart.RoundTrip
import Statechart.Proofs.Grammar.Nesting
/-!
# Enclosed — a root that is written

Several outermost states get a root that is not written.  It is the state that is read where its name is written on a
line of its own and all lines of the text stand behind it, further right (`ofText_enclosed`): the states are read by
another rule then, as statements of a block.
-/
namespace Statechart

open Grammar Outline Reading
open Keyed (keys)
open LineByLine (width isSignificant isSignificant_line width_line)

/-- **The text as the block of a state**: its name, and then every line `k` spaces further right. -/
def enclosed (name : Text) (k : Nat) (t : Text) : Text :=
  name ++ '\n' :: Text.unlines ((Text.lines t).map (Text.blanks k ++ ·))

theorem respaceLine_add (k : Nat) (l : Text) : respaceLine (· + k) l = Text.blanks k ++ l := by
  conv_rhs => rw [← LineByLine.blanks_append_dropWhile l]
  unfold respaceLine Text.blanks
  rw [← List.append_assoc, List.replicate_append_replicate, Nat.add_comm k]

theorem row_of_name {name : Text} (h : IsName name) : Row.ofLine name = ⟨some 0, [(.identifier, some name)]⟩ := by
  have hbegins := h.begins []
  rw [List.append_nil] at hbegins
  have hsignificant : isSignificant name = true := isSignificant_line hbegins 0
  have hwidth : width name = 0 := width_line hbegins 0
  have hwords : lineWords 1 false 1 name = [⟨.identifier, 1, 1, some name⟩] := by
    have hname := lineWords_name h endsName_nil 1 false 1
    rwa [List.append_nil, lineWords_of_blank (l := []) rfl] at hname
  unfold Row.ofLine signs
  rw [hsignificant, hwidth, hwords]
  rfl

theorem outline_enclosed {name : Text} (h : IsName name) (k : Nat) (t : Text) :
    outline (enclosed name k t) = ⟨some 0, [(.identifier, some name)]⟩ :: (outline t).map (Row.widen (· + k)) := by
  have hlines : Text.unlines ((Text.lines t).map (Text.blanks k ++ ·)) = respaced (· + k) t := by
    unfold respaced
    rw [List.map_congr_left fun l _ => respaceLine_add k l]
  unfold enclosed
  rw [hlines, outline_append_cons, outline_of_inline h.inline, row_of_name h, outline_respaced]
  rfl

theorem asRoot_withInitial {n : Node} (h : n.isInitial = none) :
    Assembly.asRoot (Assembly.withInitial n) = Assembly.withInitial n := by
  obtain ⟨id, kind, initial, isInitial, states, on⟩ := n
  obtain rfl : isInitial = none := h
  unfold Assembly.withInitial
  split <;> rfl

/-- **The root of several states is the state with these children**, and nothing else. -/
theorem root_of_states (name : Text) (token : Token) {ss : List StateTree} (h : 2 ≤ ss.length) :
    Assembly.asRoot (Assembly.assemble { heading := { name, token }, body := (BodyTree.ofStates ss).items }) =
      Assembly.root name (ss.map StateTree.node) := by
  have hentries : Assembly.entriesOf (BodyTree.ofStates ss).items = [] := entriesOf_parts ss []
  have hchildren : Assembly.childrenOf (BodyTree.ofStates ss).items = ss.map StateTree.node := childrenOf_parts ss []
  have hkind : Assembly.classify { name, token } (ss.map StateTree.node).length = .compound := by
    unfold Assembly.classify
    rw [if_neg Bool.false_ne_true, if_neg Bool.false_ne_true, List.length_map, if_pos (Nat.lt_of_lt_of_le Nat.two_pos h)]
  have hunsettled : Assembly.unsettled { heading := { name, token }, body := (BodyTree.ofStates ss).items } =
      Assembly.synthetic name (ss.map StateTree.node) := by
    unfold Assembly.unsettled
    rw [hentries, hchildren, hkind]
    rfl
  have hroot : Assembly.root name (ss.map StateTree.node) =
      Assembly.withInitial (Assembly.synthetic name (ss.map StateTree.node)) := by
    obtain ⟨s, s', ss, rfl⟩ : ∃ s s' ss', ss = s :: s' :: ss' := by
      match ss, h with
      | s :: s' :: ss', _ => exact ⟨s, s', ss', rfl⟩
    rfl
  unfold Assembly.assemble
  rw [hunsettled, hroot, asRoot_withInitial rfl]

theorem tokens_open {f : Nat → Nat} (hf : ∀ w, 0 < f w) {rows : List Row} (h : Headed rows) (i : Nat) :
    tokens [0] i (rows.map (Row.widen f)) = [] ∨
      ∃ line later, tokens [0] i (rows.map (Row.widen f)) = ⟨.indent, line, 1, none⟩ :: later := by
  obtain ⟨front, hfront, rfl | ⟨r, back, w, rfl, hr⟩⟩ := h.split
  · have hnil := tokens_empty_append [0] i hfront []
    rw [List.append_nil] at hnil
    rw [map_widen_empty hfront, hnil]
    exact .inl rfl
  · have hr' : (r.widen f).width = some (f w) := congrArg (Option.map f) hr
    rw [List.map_append, map_widen_empty hfront, tokens_empty_append [0] i hfront, List.map_cons, tokens_cons, hr',
      entry_of_lt (hf w)]
    exact .inr ⟨_, _, rfl⟩

/-- A chart whose rows all stand behind spaces is in a block, also below another row. -/
theorem charted_below {f : Nat → Nat} (hf : ∀ w, 0 < f w) {rows : List Row} (hheaded : Headed rows) {nodes : List Node}
    (h : Charted (rows.map (Row.widen f)) nodes) :
    clash [0] 2 (rows.map (Row.widen f)) = none ∧ ∃ (opening closing : Token) (ss : List StateTree),
      opening.kind = .indent ∧ closing.kind = .dedent ∧ (∀ s ∈ ss, s.Valid) ∧ (∀ s ∈ ss, s.Eager) ∧
      ss.map StateTree.node = nodes ∧
      tokens [0] 2 (rows.map (Row.widen f)) = opening :: (ss.flatMap StateTree.tokens ++ [closing]) := by
  obtain ⟨hclash, hchart⟩ := h
  have hnone : clash [0] 2 (rows.map (Row.widen f)) = none := by
    have hwidths := clash_elsewhere 1 2 [0] (rows.map (Row.widen f))
    rw [hclash] at hwidths
    exact Option.map_eq_none_iff.1 hwidths
  have hL : Relator.BiUnique (fun a b : Int => b = a + 1) :=
    ⟨fun a b c h h' => by omega, fun a b c h h' => by omega⟩
  have hlines : ∀ j < (rows.map (Row.widen f)).length, ((2 + j : Nat) : Int) = ↑(1 + j) + 1 := fun j _ => by omega
  have hlower := (isChart_congr hL (alike_tokens [0] hlines)).1 hchart
  refine ⟨hnone, ?_⟩
  rcases tokens_open hf hheaded 2 with hnil | ⟨line, later, hopen⟩
  · rw [hnil] at hlower
    exact absurd hlower not_isChart_nil
  · rw [hopen] at hlower ⊢
    obtain ⟨ss, closing, rfl, hc, hv, he, -, hnodes⟩ := hlower.framed rfl
    exact ⟨_, closing, ss, rfl, hc, hv, he, hnodes, rfl⟩

/-- **A chart below a name, further right, is the block of that name.** -/
theorem charted_enclosed {f : Nat → Nat} (hf : ∀ w, 0 < f w) {rows : List Row} (hheaded : Headed rows)
    {nodes : List Node} (h : Charted (rows.map (Row.widen f)) nodes) (htwo : 2 ≤ nodes.length) (name : Text) :
    ∃ node, Charted (⟨some 0, [(.identifier, some name)]⟩ :: rows.map (Row.widen f)) [node] ∧
      Assembly.asRoot node = Assembly.root name nodes := by
  obtain ⟨hclash, opening, closing, ss, ho, hc, hv, he, rfl, htokens⟩ := charted_below hf hheaded h
  have hname : HeadingTree.Valid ⟨⟨.identifier, 1, 1, some name⟩, none, none, none⟩ :=
    ⟨rfl, by simp, by simp, by simp⟩
  let s : StateTree :=
    .block ⟨⟨.identifier, 1, 1, some name⟩, none, none, none⟩ opening (BodyTree.ofStates ss) closing
  have hs : s.Valid := ⟨hname, ho, BodyTree.ofStates_valid hv, hc⟩
  have es : s.Eager := BodyTree.ofStates_eager hv he
  have hrow : tokens [0] 1 (⟨some 0, [(.identifier, some name)]⟩ :: rows.map (Row.widen f)) = s.tokens := by
    rw [tokens_cons]
    show ⟨.identifier, 1, 1, some name⟩ :: tokens [0] 2 (rows.map (Row.widen f)) = _
    rw [htokens, ← BodyTree.ofStates_tokens]
    rfl
  refine ⟨s.node, ⟨hclash, isChart_iff.2 ⟨[s], by simpa using hs, by simpa using es, by simp, rfl, .inl ?_⟩⟩, ?_⟩
  · rw [hrow, List.flatMap_singleton]
  · rw [List.length_map] at htwo
    exact root_of_states name ⟨.identifier, 1, 1, some name⟩ htwo

/-- **A root that is written is the root that is not.**  Where a text is read as several states, and no word comes before
its first line that is measured, a state that is written around them is the root that they get without it. -/
theorem ofText_enclosed {name : Text} (hname : IsName name) {k : Nat} (hk : 1 ≤ k) {t : Text} {nodes : List Node}
    (ht : outermost t = some nodes) (htwo : 2 ≤ nodes.length) (hheaded : Headed (outline t)) (rootId : Text) :
    ∃ root, Yields name t root ∧ Yields rootId (enclosed name k t) root := by
  have hstrict : StrictMono (· + k) := fun a b hab => Nat.add_lt_add_right hab k
  have hchart := (charted_widen hstrict (sound_outline t) (.inr hheaded)).2 (outermost_iff.1 ht)
  obtain ⟨node, hnode, hroot⟩ := charted_enclosed (fun w => by omega) hheaded hchart htwo name
  rw [← outline_enclosed hname] at hnode
  refine ⟨Assembly.root name nodes, yields_iff.2 ⟨nodes, ht, rfl⟩, yields_iff.2 ⟨[node], outermost_iff.2 hnode, ?_⟩⟩
  exact hroot.symm

/-- Two states, the first one with a child, below a name. -/
theorem ofText_enclosed_pair :
    IsName ['r'] ∧ Headed (outline "a\n  b\nc".toList) ∧
      enclosed ['r'] 2 "a\n  b\nc".toList = "r\n  a\n    b\n  c".toList ∧
      (∃ nodes, outermost "a\n  b\nc".toList = some nodes ∧ nodes.length = 2) ∧
      ∃ root, Yields ['r'] "a\n  b\nc".toList root ∧ Yields ['m'] (enclosed ['r'] 2 "a\n  b\nc".toList) root := by
  have hname : IsName ['r'] := by decide
  have hheaded : Headed (outline "a\n  b\nc".toList) := headed_outline (by decide)
  have htokens : tokenize "a\n  b\nc".toList = .ok [⟨.identifier, 1, 1, some ['a']⟩, ⟨.newline, 1, 2, none⟩,
      ⟨.indent, 2, 1, none⟩, ⟨.identifier, 2, 3, some ['b']⟩, ⟨.newline, 2, 4, none⟩, ⟨.dedent, 3, 1, none⟩,
      ⟨.identifier, 3, 1, some ['c']⟩] := by
    cbv
  have hread : ∃ nodes, outermost "a\n  b\nc".toList = some nodes ∧ nodes.length = 2 := by
    unfold outermost
    rw [htokens]
    exact ⟨_, rfl, rfl⟩
  obtain ⟨nodes, hnodes, htwo⟩ := hread
  exact ⟨hname, hheaded, rfl, ⟨nodes, hnodes, htwo⟩,
    ofText_enclosed hname (by decide) hnodes (Nat.le_of_eq htwo.symm) hheaded ['m']⟩

/-- **A word on a line that is not measured** stays outside of a state that is written around the text. -/
theorem not_enclosed_behind_return :
    ¬ ∀ (name : Text) (k : Nat) (t : Text) (nodes : List Node), IsName name → 1 ≤ k → outermost t = some nodes →
      2 ≤ nodes.length → ∀ rootId, ∃ root, Yields name t root ∧ Yields rootId (enclosed name k t) root := by
  intro hroot
  have htokens : tokenize (enclosed ['r'] 1 unmeasured) = .ok [⟨.identifier, 1, 1, some ['r']⟩, ⟨.newline, 1, 2, none⟩,
      ⟨.comment, 2, 2, some "# c".toList⟩, ⟨.identifier, 2, 6, some ['b']⟩, ⟨.newline, 2, 7, none⟩, ⟨.indent, 3, 1, none⟩,
      ⟨.identifier, 3, 2, some ['d']⟩, ⟨.dedent, 3, 3, none⟩] := by
    cbv
  have hread : ∃ nodes, outermost unmeasured = some nodes ∧ nodes.length = 2 := by
    unfold outermost
    rw [tokenize_unmeasured]
    exact ⟨_, rfl, rfl⟩
  have hread' : ∃ root records, ofText ['m'] (enclosed ['r'] 1 unmeasured) = .ok (.tree root, records) ∧
      root.id = ['m'] := by
    unfold ofText
    rw [htokens]
    exact ⟨_, _, rfl, rfl⟩
  have hwritten : ∃ root records, ofText ['r'] unmeasured = .ok (.tree root, records) ∧ root.id = ['r'] := by
    unfold ofText
    rw [tokenize_unmeasured]
    exact ⟨_, _, rfl, rfl⟩
  obtain ⟨nodes, hnodes, htwo⟩ := hread
  obtain ⟨root, ⟨records, h⟩, records', h'⟩ :=
    hroot ['r'] 1 unmeasured nodes (by decide) (Nat.le_refl 1) hnodes (Nat.le_of_eq htwo.symm) ['m']
  obtain ⟨root₁, _, h₁, hid₁⟩ := hwritten
  obtain ⟨root₂, _, h₂, hid₂⟩ := hread'
  obtain ⟨⟨rfl⟩, -⟩ := Prod.mk.inj (Except.ok.inj (h₁.symm.trans h))
  obtain ⟨⟨rfl⟩, -⟩ := Prod.mk.inj (Except.ok.inj (h₂.symm.trans h'))
  rw [hid₁] at hid₂
  cases hid₂

end Statechart
