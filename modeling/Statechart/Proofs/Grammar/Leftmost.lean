import Statechart.Proofs.Grammar.Outermost
/-!
# Leftmost — the first line of a chart

If the first line of a chart stands behind spaces, it opens a block, and the chart is in that block up to its end.  A
line further left would close it.  So no line stands left of the first one (`Charted.leftmost`).
-/
namespace Statechart

open Grammar Outline
open LineByLine (closes)

namespace Grammar

variable {ts : List Token} {nodes : List Node}

theorem head_states {ss : List StateTree} (hv : ∀ s ∈ ss, s.Valid) :
    ∀ a ∈ (ss.flatMap StateTree.tokens).head?, a.kind = .identifier := by
  intro a ha
  cases ss with
  | nil => cases ha
  | cons s ss =>
    obtain ⟨tl, htl⟩ := s.tokens_eq
    rw [List.flatMap_cons, htl] at ha
    obtain rfl := Option.some.inj ha
    exact (hv s List.mem_cons_self).heading.name

theorem not_isChart_nil : ¬ IsChart [] nodes := by
  intro h
  obtain ⟨ss, -, -, hne, -, hts⟩ := isChart_iff.1 h
  rcases hts with hts | ⟨_, _, -, -, hts⟩
  · obtain ⟨s, ss, rfl⟩ := List.exists_cons_of_ne_nil hne
    obtain ⟨tl, htl⟩ := s.tokens_eq
    rw [List.flatMap_cons, htl] at hts
    cases hts
  · cases hts

/-- **A chart that begins with a block is in that block.** -/
theorem IsChart.framed {opening : Token} (ho : opening.kind = .indent) (h : IsChart (opening :: ts) nodes) :
    ∃ (ss : List StateTree) (closing : Token), ts = ss.flatMap StateTree.tokens ++ [closing] ∧ closing.kind = .dedent ∧
      (∀ s ∈ ss, s.Valid) ∧ (∀ s ∈ ss, s.Eager) ∧ ss ≠ [] ∧ ss.map StateTree.node = nodes := by
  obtain ⟨ss, hv, he, hne, hnodes, hts⟩ := isChart_iff.1 h
  rcases hts with hts | ⟨o, closing, -, hc, hts⟩
  · have hname := head_states hv opening (by rw [← hts]; rfl)
    rw [ho] at hname
    cases hname
  · exact ⟨ss, closing, (List.cons.inj hts).2, hc, hv, he, hne, hnodes⟩

/-- A block around a chart that is in no block makes no difference. -/
theorem isChart_framed_iff {opening closing : Token} (ho : opening.kind = .indent) (hc : closing.kind = .dedent)
    (hhead : ∀ a ∈ ts.head?, a.kind ≠ .indent) : IsChart (opening :: (ts ++ [closing])) nodes ↔ IsChart ts nodes := by
  constructor
  · intro h
    obtain ⟨ss, closing', hts, -, hv, he, hne, hnodes⟩ := h.framed ho
    obtain ⟨rfl, -⟩ := List.append_inj' hts rfl
    exact isChart_iff.2 ⟨ss, hv, he, hne, hnodes, .inl rfl⟩
  · intro h
    obtain ⟨ss, hv, he, hne, hnodes, rfl | ⟨o, c, ho', -, rfl⟩⟩ := isChart_iff.1 h
    · exact isChart_iff.2 ⟨ss, hv, he, hne, hnodes, .inr ⟨opening, closing, ho, hc, rfl⟩⟩
    · exact absurd ho' (hhead o rfl)

/-- **That block is open up to the last token.** -/
theorem IsChart.open_inside {opening : Token} (ho : opening.kind = .indent) {us : List Token}
    (h : IsChart (opening :: (ts ++ us)) nodes) (hus : us ≠ []) : closings (opening :: ts) < openings (opening :: ts) := by
  obtain ⟨ss, closing, hts, -, hv, -⟩ := h.framed ho
  refine (balanced_states hv).inside ho ?_
  refine (List.prefix_concat_iff.1 (hts ▸ List.prefix_append ts us)).resolve_left fun hall => ?_
  rw [← hall] at hts
  exact hus (List.append_right_eq_self.1 hts)

end Grammar

/-! ## Open blocks and open widths -/

namespace Outline

theorem balance_row {r : Row} (h : ∀ w ∈ r.words, w.1.isLayout = false) (i : Nat) :
    openings (r.tokens i) = 0 ∧ closings (r.tokens i) = 0 := by
  have hwords : ∀ t ∈ r.tokens i, t.kind.isLayout = false := by
    intro t ht
    obtain ⟨w, hw, rfl⟩ := List.mem_map.1 ht
    exact h w hw
  exact ⟨countP_kind_of_words rfl hwords, countP_kind_of_words rfl hwords⟩

theorem balance_entry (stack : List Nat) (i : Nat) (w : Option Nat) :
    openings (entry stack i w) + stack.length = closings (entry stack i w) + (after stack w).length := by
  cases w with
  | none => rfl
  | some w =>
    have hlen := length_takeWhile_add_length_dropWhile (closes w) stack
    unfold entry after
    simp only
    split
    · show 1 + stack.length = 0 + (stack.length + 1)
      omega
    · rw [openings_dedents, closings_dedents]
      omega

/-- **As many blocks are open as there are widths.** -/
theorem balance_body : ∀ {rs : List Row} (stack : List Nat) (i : Nat), (∀ r ∈ rs, r.Sound) →
    openings (body stack i rs) + stack.length = closings (body stack i rs) + (leave stack rs).length
  | [], _, _, _ => rfl
  | r :: rs, stack, i, h => by
    obtain ⟨hr, hrs⟩ := List.forall_mem_cons.1 h
    obtain ⟨hopen, hclose⟩ := balance_row hr.words i
    have hentry := balance_entry stack i r.width
    have ih := balance_body (after stack r.width) (i + 1) hrs
    rw [body, leave, openings_append, closings_append, openings_append, closings_append, hopen, hclose]
    omega

/-- Rows that stand no further left than `w` leave it open. -/
theorem leave_over {w : Nat} : ∀ {rs : List Row} {stack : List Nat}, (∀ r ∈ rs, ∀ v ∈ r.width, w ≤ v) →
    (∀ v ∈ stack, w < v) → ∃ stack', leave (stack ++ [w, 0]) rs = stack' ++ [w, 0] ∧ ∀ v ∈ stack', w < v
  | [], stack, _, hstack => ⟨stack, rfl, hstack⟩
  | r :: rs, stack, h, hstack => by
    obtain ⟨hr, hrs⟩ := List.forall_mem_cons.1 h
    have hafter : ∃ stack', after (stack ++ [w, 0]) r.width = stack' ++ [w, 0] ∧ ∀ v ∈ stack', w < v := by
      cases hw : r.width with
      | none => exact ⟨stack, rfl, hstack⟩
      | some v =>
        have hv : w ≤ v := hr v hw
        unfold after
        simp only
        split
        · rename_i hopen
          refine ⟨v :: stack, rfl, List.forall_mem_cons.2 ⟨?_, hstack⟩⟩
          cases stack with
          | nil => exact hopen
          | cons u stack => exact Nat.lt_trans (hstack u List.mem_cons_self) hopen
        · have hstays : ∀ u ∈ ([w, 0] : List Nat).head?, closes v u = false := by
            intro u hu
            obtain rfl := Option.some.inj hu
            exact decide_eq_false (Nat.not_lt.2 hv)
          rw [dropWhile_append_of_head hstays]
          exact ⟨_, rfl, fun u hu => hstack u (mem_of_mem_dropWhile hu)⟩
    obtain ⟨stack', hafter, hstack'⟩ := hafter
    rw [leave, hafter]
    exact leave_over hrs hstack'

/-- Behind rows that do not clash, a row stands further right than all open widths or at one of them. -/
theorem clashAt_of_clash {front back : List Row} {r : Row} {stack : List Nat} {i : Nat}
    (h : clash stack i (front ++ r :: back) = none) :
    clashAt (leave stack front) (i + front.length) r.width = none := by
  rw [clash_append, clash, Option.or_eq_none_iff, Option.or_eq_none_iff] at h
  exact h.2.1

/-- A row at the width zero closes all blocks. -/
theorem after_ground {stack : List Nat} (h : ∀ v ∈ stack, 0 < v) : after (stack ++ [0]) (some 0) = [0] := by
  have hcloses : ∀ v ∈ stack, closes 0 v = true := fun v hv => decide_eq_true (h v hv)
  rw [after_of_le (Nat.zero_le _), List.dropWhile_append_of_pos hcloses]
  rfl

end Outline

/-! ## No line stands left of the first one -/

variable {front back : List Row} {r : Row} {w : Nat} {nodes : List Node}

theorem exists_first_left (h : ¬ ∀ s ∈ back, ∀ v ∈ s.width, w ≤ v) : ∃ mid z rest v, back = mid ++ z :: rest ∧
    (∀ s ∈ mid, ∀ v ∈ s.width, w ≤ v) ∧ z.width = some v ∧ v < w := by
  cases hfind : back.find? (fun s => s.width.any (· < w)) with
  | none =>
    refine absurd (fun s hs v hv => ?_) h
    have hnot := List.find?_eq_none.1 hfind s hs
    rw [Option.mem_def.1 hv] at hnot
    simpa using hnot
  | some z =>
    obtain ⟨hz, mid, rest, rfl, hmid⟩ := List.find?_eq_some_iff_append.1 hfind
    cases hw : z.width with
    | none =>
      rw [hw] at hz
      cases hz
    | some v =>
      rw [hw] at hz
      refine ⟨mid, z, rest, v, rfl, fun s hs u hu => ?_, hw, by simpa using hz⟩
      have hnot := hmid s hs
      rw [Option.mem_def.1 hu] at hnot
      simpa using hnot

/-- A row left of all blocks stands at the ground, for else it would clash. -/
theorem eq_zero_of_clashAt {stack : List Nat} {v i : Nat} (hstack : ∀ u ∈ stack, w < u) (hv : v < w)
    (h : clashAt (stack ++ [w, 0]) i (some v) = none) : v = 0 := by
  have hhead : v < (stack ++ [w, 0]).headD 0 := by
    cases stack with
    | nil => exact hv
    | cons u stack => exact Nat.lt_trans hv (hstack u List.mem_cons_self)
  unfold clashAt at h
  simp only at h
  split at h
  · cases h
  · rename_i hnot
    have hmem : v ∈ stack ++ [w, 0] := Classical.byContradiction fun hout => hnot ⟨hhead, hout⟩
    rcases List.mem_append.1 hmem with hmem | hmem
    · exact absurd (hstack v hmem) (Nat.lt_asymm hv)
    · rcases List.mem_pair.1 hmem with rfl | rfl
      · exact absurd hv (Nat.lt_irrefl v)
      · rfl

/-- **No line of a chart stands left of the first one.** -/
theorem Charted.leftmost (h : Charted (front ++ r :: back) nodes) (hsound : ∀ s ∈ front ++ r :: back, s.Sound)
    (hfront : ∀ s ∈ front, s = ⟨none, []⟩) (hr : r.width = some w) : ∀ s ∈ back, ∀ v ∈ s.width, w ≤ v := by
  by_contra hleft
  obtain ⟨mid, z, rest, v, rfl, hmid, hz, hv⟩ := exists_first_left hleft
  have hassoc : front ++ r :: (mid ++ z :: rest) = (front ++ r :: mid) ++ z :: rest := by simp
  rw [hassoc] at h hsound
  obtain ⟨hclash, hchart⟩ := h
  obtain ⟨hbefore, hzsound, -⟩ : (∀ s ∈ front ++ r :: mid, s.Sound) ∧ z.Sound ∧ ∀ s ∈ rest, s.Sound := by
    rwa [List.forall_mem_append, List.forall_mem_cons] at hsound
  have hw : 0 < w := Nat.zero_lt_of_lt hv
  obtain ⟨hleave, hbody, -⟩ := empty_rows [0] 1 hfront
  obtain ⟨stack, hover, hstack⟩ := leave_over hmid (List.forall_mem_nil fun v => w < v)
  have hopen : leave [0] (front ++ r :: mid) = stack ++ [w, 0] := by
    rw [leave_append, hleave, leave, hr, after_of_lt hw]
    exact hover
  have hfirst : ∃ later, body [0] 1 (front ++ r :: mid) = ⟨.indent, ↑(1 + front.length), 1, none⟩ :: later := by
    rw [body_append, hleave, hbody, body, hr, entry_of_lt hw]
    exact ⟨_, rfl⟩
  obtain ⟨later, hfirst⟩ := hfirst
  -- the first row left of `r` stands at the ground, and closes the block that `r` opened
  have hat := clashAt_of_clash hclash
  rw [hopen, hz] at hat
  obtain rfl := eq_zero_of_clashAt hstack hv hat
  have hcount := balance_body [0] 1 hbefore
  have hcount' := balance_entry (stack ++ [w, 0]) (1 + (front ++ r :: mid).length) (some 0)
  rw [hopen, hfirst] at hcount
  have hground : after (stack ++ [w, 0]) (some 0) = [0] := by
    have hblocks : ∀ u ∈ stack ++ [w], 0 < u :=
      List.forall_mem_append.2 ⟨fun u hu => Nat.zero_lt_of_lt (hstack u hu), by simpa using hw⟩
    simpa using after_ground hblocks
  rw [hground] at hcount'
  -- but that block is open up to the end of the chart, and the row has a word
  rw [tokens_append, tokens_cons, hfirst, hopen, hz, List.cons_append, ← List.append_assoc] at hchart
  have hwords : z.words ≠ [] := hzsound.counts (by rw [hz]; exact Option.some_ne_none 0)
  have hinside := hchart.open_inside rfl fun hnil =>
    hwords (List.map_eq_nil_iff.1 (List.append_eq_nil_iff.1 hnil).1)
  rw [← List.cons_append, openings_append, closings_append] at hinside
  have hlen : (stack ++ [w, 0]).length = stack.length + 2 := List.length_append
  rw [hlen, List.length_singleton] at hcount hcount'
  omega

end Statechart
