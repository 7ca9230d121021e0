import Statechart.Proofs.Grammar.Nesting
/-!
# Joined — a text below a text

Two charts one below the other are one chart, with the states of the first and then those of the second
(`ofText_joined`).  Blocks that the first text leaves open end with it when it stands alone, and else before the first
measured line of the second: the grammar sees the same tokens.

The second text must not begin with a word on a line that is not measured (`Headed`), if the first one leaves a block
open.  Such a word would be in that block.
-/
namespace Statechart

open Grammar Outline Reading
open Keyed (keys)
open LineByLine (closes)

/-- The text is not in a block of its own. -/
def Flush (t : Text) : Prop := ∀ ts, tokenize t = .ok ts → ∀ a ∈ (seen ts).head?, a.kind ≠ .indent

namespace Outline

/-- **The ground level stays open**, and no other block is as wide. -/
theorem leave_ground : ∀ (rs : List Row) {stack : List Nat}, (∀ v ∈ stack, 0 < v) →
    ∃ stack', leave (stack ++ [0]) rs = stack' ++ [0] ∧ ∀ v ∈ stack', 0 < v
  | [], stack, h => ⟨stack, rfl, h⟩
  | r :: rs, stack, h => by
    have hafter : ∃ stack', after (stack ++ [0]) r.width = stack' ++ [0] ∧ ∀ v ∈ stack', 0 < v := by
      cases r.width with
      | none => exact ⟨stack, rfl, h⟩
      | some w =>
        by_cases hopen : (stack ++ [0]).headD 0 < w
        · exact ⟨w :: stack, after_of_lt hopen, List.forall_mem_cons.2 ⟨Nat.zero_lt_of_lt hopen, h⟩⟩
        · have hstays : ∀ u ∈ ([0] : List Nat).head?, closes w u = false := by simp [closes]
          rw [after_of_le (Nat.not_lt.1 hopen), dropWhile_append_of_head hstays]
          exact ⟨_, rfl, fun u hu => h u (mem_of_mem_dropWhile hu)⟩
    obtain ⟨stack', hafter, hstack'⟩ := hafter
    rw [leave, hafter]
    exact leave_ground rs hstack'

/-- A row at the width zero ends all blocks. -/
theorem entry_ground {stack : List Nat} (h : ∀ v ∈ stack, 0 < v) (i : Nat) :
    entry (stack ++ [0]) i (some 0) = ends (stack ++ [0]) i := by
  have hcloses : ∀ v ∈ stack, closes 0 v = true := fun v hv => decide_eq_true (h v hv)
  have hblocks : (stack ++ [0]).takeWhile (closes 0) = stack := by
    rw [List.takeWhile_append_of_pos hcloses]
    simp [closes]
  unfold entry ends
  simp [hblocks]

/-- **The blocks that are left open** end where the first measured row stands at the width zero. -/
theorem alike_ends {stack : List Nat} (h : ∀ v ∈ stack, 0 < v) (i j : Nat) {front : List Row}
    (hfront : ∀ s ∈ front, s = ⟨none, []⟩) {r : Row} (hr : r.width = some 0) (back : List Row) :
    List.Forall₂ (Token.Alike Eq) (tokens (stack ++ [0]) i (front ++ r :: back))
      (ends (stack ++ [0]) j ++ tokens [0] i (front ++ r :: back)) := by
  have hstart : tokens [0] i (front ++ r :: back) = r.tokens (i + front.length) ++
      tokens [0] (i + front.length + 1) back := by
    rw [tokens_empty_append [0] i hfront, tokens_cons, hr]
    rfl
  rw [hstart, tokens_empty_append _ i hfront, tokens_cons, hr, entry_ground h, after_ground h]
  exact List.rel_append (alike_dedents _ _ _ _ _) (List.forall₂_same.2 fun t _ => ⟨rfl, rfl, fun _ => rfl⟩)

theorem clash_ground {stack : List Nat} (h : ∀ v ∈ stack, 0 < v) (i : Nat) {front : List Row}
    (hfront : ∀ s ∈ front, s = ⟨none, []⟩) {r : Row} (hr : r.width = some 0) (back : List Row) :
    clash (stack ++ [0]) i (front ++ r :: back) = clash [0] i (front ++ r :: back) := by
  have hat : clashAt (stack ++ [0]) (i + front.length) (some 0) = none := if_neg fun hclash => hclash.2 (by simp)
  rw [clash_empty_append _ i hfront, clash_empty_append _ i hfront, clash, clash, hr, hat, after_ground h]
  rfl

end Outline

/-! ## Rows below rows -/

variable {rows rows' : List Row} {nodes nodes' : List Node}

/-- The rows have the same tokens below other rows as alone, and clash there no more than alone. -/
structure Apart (rows rows' : List Row) : Prop where
  tokens : List.Forall₂ (Token.Alike Eq) (Outline.tokens (leave [0] rows) (1 + rows.length) rows')
    (ends (leave [0] rows) (1 + rows.length) ++ Outline.tokens [0] (1 + rows.length) rows')
  clash : Outline.clash (leave [0] rows) (1 + rows.length) rows' = Outline.clash [0] (1 + rows.length) rows'

/-- **Where the first measured row stands at the width zero**, what is left open above does not matter. -/
theorem apart_of_headed (hheaded : Headed rows')
    (hflush : ∀ a ∈ (Outline.tokens [0] 1 rows').head?, a.kind ≠ .indent) (hne : Outline.tokens [0] 1 rows' ≠ []) :
    Apart rows rows' := by
  obtain ⟨stack, hleave, hstack⟩ := leave_ground rows (List.forall_mem_nil fun v => 0 < v)
  rw [List.nil_append] at hleave
  obtain ⟨front, hfront, rfl | ⟨r, back, w, rfl, hr⟩⟩ := hheaded.split
  · have hempty := tokens_empty_append [0] 1 hfront []
    rw [List.append_nil] at hempty
    exact absurd hempty hne
  · obtain rfl : w = 0 := by
      by_contra hw
      have hopen : Outline.tokens [0] 1 (front ++ r :: back) = ⟨.indent, ↑(1 + front.length), 1, none⟩ ::
          (r.tokens (1 + front.length) ++ Outline.tokens [w, 0] (1 + front.length + 1) back) := by
        have hpos : ([0] : List Nat).headD 0 < w := Nat.pos_of_ne_zero hw
        rw [tokens_empty_append [0] 1 hfront, tokens_cons, hr, entry_of_lt hpos, after_of_lt hpos]
        rfl
      rw [hopen] at hflush
      exact hflush _ rfl rfl
    refine ⟨?_, ?_⟩
    · rw [hleave]
      exact alike_ends hstack _ _ hfront hr back
    · rw [hleave]
      exact clash_ground hstack _ hfront hr back

/-- Where nothing is left open above, it does not matter where the first row stands. -/
theorem apart_of_closed (h : leave [0] rows = [0]) : Apart rows rows' := by
  refine ⟨?_, ?_⟩
  · rw [h]
    exact List.forall₂_same.2 fun t _ => ⟨rfl, rfl, fun _ => rfl⟩
  · rw [h]

/-- States that stand in no block of their own are a chart with the states behind them. -/
theorem Grammar.IsChart.append {ts us : List Token} (h : IsChart ts nodes) (h' : IsChart us nodes')
    (hts : ∀ a ∈ ts.head?, a.kind ≠ .indent) (hus : ∀ a ∈ us.head?, a.kind ≠ .indent) :
    IsChart (ts ++ us) (nodes ++ nodes') := by
  obtain ⟨ss, hv, he, hne, rfl, rfl | ⟨opening, closing, ho, -, rfl⟩⟩ := isChart_iff.1 h
  · obtain ⟨ss', hv', he', -, rfl, rfl | ⟨opening, closing, ho, -, rfl⟩⟩ := isChart_iff.1 h'
    · refine isChart_iff.2 ⟨ss ++ ss', List.forall_mem_append.2 ⟨hv, hv'⟩, List.forall_mem_append.2 ⟨he, he'⟩, ?_,
        List.map_append, .inl List.flatMap_append.symm⟩
      exact List.append_ne_nil_of_left_ne_nil hne _
    · exact absurd ho (hus _ rfl)
  · exact absurd ho (hts _ rfl)

theorem head_alike {L : Int → Int → Prop} {ts us : List Token} (h : List.Forall₂ (Token.Alike L) ts us) :
    (∀ a ∈ us.head?, a.kind ≠ .indent) ↔ ∀ a ∈ ts.head?, a.kind ≠ .indent := by
  cases h with
  | nil => exact Iff.rfl
  | cons hfirst _ => simp [hfirst.kind]

/-- **A chart below a chart is one chart**, with the states of both. -/
theorem Charted.append (h : Charted rows nodes) (h' : Charted rows' nodes') (hapart : Apart rows rows')
    (hflush : ∀ a ∈ (Outline.tokens [0] 1 rows).head?, a.kind ≠ .indent)
    (hflush' : ∀ a ∈ (Outline.tokens [0] 1 rows').head?, a.kind ≠ .indent) :
    Charted (rows ++ rows') (nodes ++ nodes') := by
  obtain ⟨hclash, hchart⟩ := h
  obtain ⟨hclash', hchart'⟩ := h'
  -- the rows below are the same chart where they stand
  have hL : Relator.BiUnique (fun a b : Int => b = a + rows.length) :=
    ⟨fun a b c h h' => by omega, fun a b c h h' => by omega⟩
  have hlower : List.Forall₂ (Token.Alike fun a b : Int => b = a + rows.length) (Outline.tokens [0] 1 rows')
      (Outline.tokens [0] (1 + rows.length) rows') := alike_tokens [0] fun k _ => by omega
  have hbelow := (isChart_congr hL hlower).1 hchart'
  have hnone : Outline.clash [0] (1 + rows.length) rows' = none := by
    have hwidths := clash_elsewhere 1 (1 + rows.length) [0] rows'
    rw [hclash'] at hwidths
    exact Option.map_eq_none_iff.1 hwidths
  have htokens : List.Forall₂ (Token.Alike Eq) (Outline.tokens [0] 1 (rows ++ rows'))
      (Outline.tokens [0] 1 rows ++ Outline.tokens [0] (1 + rows.length) rows') := by
    have halone : Outline.tokens [0] 1 rows = body [0] 1 rows ++ ends (leave [0] rows) (1 + rows.length) := rfl
    rw [tokens_append, halone, List.append_assoc]
    exact List.rel_append (List.forall₂_same.2 fun t _ => ⟨rfl, rfl, fun _ => rfl⟩) hapart.tokens
  refine ⟨?_, (isChart_congr biUnique_eq htokens).2 ?_⟩
  · rw [clash_append, hclash, hapart.clash, hnone]
    rfl
  · exact hchart.append hbelow hflush ((head_alike hlower).2 hflush')

/-! ## A text below a text -/

theorem Flush.head {t : Text} {nodes : List Node} (h : Flush t) (hread : outermost t = some nodes) :
    ∀ a ∈ (Outline.tokens [0] 1 (outline t)).head?, a.kind ≠ .indent := by
  have hshows := tokenize_outline t
  rw [(outermost_iff.1 hread).1] at hshows
  obtain ⟨ts, hts, hseen⟩ := hshows
  exact (head_alike hseen).2 (h ts hts)

/-- **Charts are joined by writing them below each other.**  If neither text is in a block of its own, and the second
does not begin with a word that is not measured or the first leaves no block open, then the text of both is read as the
states of the first and those of the second. -/
theorem ofText_joined {t t' : Text} {nodes nodes' : List Node} (h : outermost t = some nodes)
    (h' : outermost t' = some nodes') (hflush : Flush t) (hflush' : Flush t')
    (hseam : Headed (outline t') ∨ leave [0] (outline t) = [0]) (rootId : Text) :
    Yields rootId (t ++ '\n' :: t') (Assembly.root rootId (nodes ++ nodes')) := by
  have hchart := outermost_iff.1 h
  have hchart' := outermost_iff.1 h'
  have hhead := hflush.head h
  have hhead' := hflush'.head h'
  have hapart : Apart (outline t) (outline t') := by
    rcases hseam with hheaded | hclosed
    · refine apart_of_headed hheaded hhead' ?_
      intro hnil
      have hnone := hchart'.2
      rw [hnil] at hnone
      exact not_isChart_nil hnone
    · exact apart_of_closed hclosed
  refine yields_iff.2 ⟨nodes ++ nodes', ?_, rfl⟩
  rw [outermost_iff, outline_append_cons]
  exact hchart.append hchart' hapart hhead hhead'

/-- A state with a child, whose block the text leaves open. -/
def leftOpen : Text := "a\n  x".toList

theorem tokenize_leftOpen : tokenize leftOpen = .ok [⟨.identifier, 1, 1, some ['a']⟩, ⟨.newline, 1, 2, none⟩,
    ⟨.indent, 2, 1, none⟩, ⟨.identifier, 2, 3, some ['x']⟩, ⟨.dedent, 2, 4, none⟩] := by
  cbv

theorem flush_leftOpen : Flush leftOpen := by
  intro ts hts
  obtain rfl := Except.ok.inj (tokenize_leftOpen.symm.trans hts)
  rintro a ⟨⟩
  decide

/-- An open block, a comment below it and a state below that. -/
theorem ofText_joined_block :
    Flush leftOpen ∧ Flush "# c\nb".toList ∧ Headed (outline "# c\nb".toList) ∧
      ∃ nodes nodes', outermost leftOpen = some nodes ∧ outermost "# c\nb".toList = some nodes' ∧
        nodes.map Node.id = [['a']] ∧ nodes'.map Node.id = [['b']] ∧
        Yields ['m'] "a\n  x\n# c\nb".toList (Assembly.root ['m'] (nodes ++ nodes')) := by
  have htokens : tokenize "# c\nb".toList = .ok [⟨.comment, 1, 1, some "# c".toList⟩, ⟨.newline, 1, 4, none⟩,
      ⟨.identifier, 2, 1, some ['b']⟩] := by
    cbv
  have hflush : Flush "# c\nb".toList := by
    intro ts hts
    obtain rfl := Except.ok.inj (htokens.symm.trans hts)
    rintro a ⟨⟩
    decide
  have hheaded : Headed (outline "# c\nb".toList) := headed_outline (by decide)
  have hread : ∃ nodes, outermost leftOpen = some nodes ∧ nodes.map Node.id = [['a']] := by
    unfold outermost
    rw [tokenize_leftOpen]
    exact ⟨_, rfl, rfl⟩
  have hread' : ∃ nodes, outermost "# c\nb".toList = some nodes ∧ nodes.map Node.id = [['b']] := by
    unfold outermost
    rw [htokens]
    exact ⟨_, rfl, rfl⟩
  obtain ⟨nodes, hnodes, hids⟩ := hread
  obtain ⟨nodes', hnodes', hids'⟩ := hread'
  exact ⟨flush_leftOpen, hflush, hheaded, nodes, nodes', hnodes, hnodes', hids, hids',
    ofText_joined hnodes hnodes' flush_leftOpen hflush (.inl hheaded) ['m']⟩

/-- **A word on a line that is not measured** is read in a block that the text above leaves open. -/
theorem not_joined_behind_return :
    ¬ ∀ (t t' : Text) (nodes nodes' : List Node), outermost t = some nodes → outermost t' = some nodes' → Flush t →
      Flush t' → ∀ rootId, Yields rootId (t ++ '\n' :: t') (Assembly.root rootId (nodes ++ nodes')) := by
  intro hjoined
  have htokens : tokenize (leftOpen ++ '\n' :: unmeasured) = .ok [⟨.identifier, 1, 1, some ['a']⟩,
      ⟨.newline, 1, 2, none⟩, ⟨.indent, 2, 1, none⟩, ⟨.identifier, 2, 3, some ['x']⟩, ⟨.newline, 2, 4, none⟩,
      ⟨.comment, 3, 1, some "# c".toList⟩, ⟨.identifier, 3, 5, some ['b']⟩, ⟨.newline, 3, 6, none⟩,
      ⟨.dedent, 4, 1, none⟩, ⟨.identifier, 4, 1, some ['d']⟩] := by
    cbv
  have hflush : Flush unmeasured := by
    intro ts hts
    obtain rfl := Except.ok.inj (tokenize_unmeasured.symm.trans hts)
    rintro a ⟨⟩
    decide
  have hread : ∃ nodes, outermost leftOpen = some nodes ∧
      ∃ nodes', outermost unmeasured = some nodes' ∧
        keys (Assembly.root ['m'] (nodes ++ nodes')).children = [['a'], ['b'], ['d']] := by
    unfold outermost
    rw [tokenize_leftOpen, tokenize_unmeasured]
    exact ⟨_, rfl, _, rfl, rfl⟩
  have hbelow : ∃ root records, ofText ['m'] (leftOpen ++ '\n' :: unmeasured) = .ok (.tree root, records) ∧
      keys root.children = [['a'], ['d']] := by
    unfold ofText
    rw [htokens]
    exact ⟨_, _, rfl, rfl⟩
  obtain ⟨nodes, hnodes, nodes', hnodes', hkeys⟩ := hread
  obtain ⟨root, records, hroot, hkeys'⟩ := hbelow
  obtain ⟨records', hyields⟩ := hjoined leftOpen unmeasured nodes nodes' hnodes hnodes' flush_leftOpen hflush ['m']
  obtain ⟨⟨rfl⟩, -⟩ := Prod.mk.inj (Except.ok.inj (hroot.symm.trans hyields))
  rw [hkeys] at hkeys'
  cases hkeys'

end Statechart
