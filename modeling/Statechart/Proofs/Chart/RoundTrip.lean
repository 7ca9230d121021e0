import Statechart.Grammar.Reading
import Statechart.Proofs.Chart.Reassembly
import Statechart.Proofs.Grammar.Blocks
import Statechart.Proofs.Grammar.Recognition
import Statechart.Proofs.Token.Calls
import Statechart.Proofs.Token.Segment
/-!
# RoundTrip — reading what was printed

The lines of a printed state are a segment, and its tokens, with as many block ends behind them as blocks are left open,
are derived by a tree whose state is the printed one.  The block ends of a state come where the next shallower line
begins, so a tree is only there once they are given (`Derives`).
-/
namespace Statechart

open Grammar
open LineByLine (Segment Begins BlockEnds entering entering_same blockEnds_entering)

namespace Grammar

/-- The statements of a block that holds transitions and then states. -/
def BodyTree.ofParts : List TransitionTree → List StateTree → BodyTree
  | [], ss => .ofStates ss
  | l :: ls, ss => .transition l (ofParts ls ss)

theorem BodyTree.ofParts_tokens (ss : List StateTree) : ∀ ls : List TransitionTree,
    (ofParts ls ss).tokens = ls.flatMap TransitionTree.tokens ++ ss.flatMap StateTree.tokens
  | [] => BodyTree.ofStates_tokens ss
  | l :: ls => by rw [ofParts, BodyTree.tokens, ofParts_tokens ss ls, List.flatMap_cons, List.append_assoc]

theorem BodyTree.ofParts_valid {ss : List StateTree} (hs : ∀ s ∈ ss, s.Valid) : ∀ {ls : List TransitionTree},
    (∀ l ∈ ls, l.Valid) → (ofParts ls ss).Valid
  | [], _ => BodyTree.ofStates_valid hs
  | l :: _, h => ⟨h l List.mem_cons_self, ofParts_valid hs fun l' hl' => h l' (List.mem_cons_of_mem l hl')⟩

theorem BodyTree.ofParts_eager {ss : List StateTree} (hv : ∀ s ∈ ss, s.Valid) (he : ∀ s ∈ ss, s.Eager) :
    ∀ ls : List TransitionTree, (ofParts ls ss).Eager
  | [] => BodyTree.ofStates_eager hv he
  | _ :: ls => ofParts_eager hv he ls

theorem entriesOf_parts (ss : List StateTree) : ∀ ls : List TransitionTree,
    Assembly.entriesOf (BodyTree.ofParts ls ss).items = ls.map TransitionTree.value
  | [] => by
    induction ss with
    | nil => rfl
    | cons s ss ih => exact ih
  | l :: ls => by
    rw [List.map_cons, ← entriesOf_parts ss ls]
    rfl

theorem childrenOf_parts (ss : List StateTree) : ∀ ls : List TransitionTree,
    Assembly.childrenOf (BodyTree.ofParts ls ss).items = ss.map StateTree.node
  | [] => by
    induction ss with
    | nil => rfl
    | cons s ss ih =>
      rw [List.map_cons, ← ih]
      rfl
  | l :: ls => by
    rw [← childrenOf_parts ss ls]
    rfl

theorem HeadingTree.Valid.seen {h : HeadingTree} (hv : h.Valid) : seen h.tokens = h.tokens :=
  seen_of_all fun t ht => not_ignored_of_grammatical (hv.words t ht).2

theorem TransitionTree.Valid.seen {l : TransitionTree} (hv : l.Valid) : seen l.tokens = l.tokens :=
  seen_of_all fun t ht => not_ignored_of_grammatical (hv.words t ht).2

end Grammar

theorem IsName.inline {w : Text} (h : IsName w) : '\n' ∉ w := by
  intro hm
  have := h.2 _ hm
  revert this
  decide

theorem IsTarget.inline {w : Text} (h : IsTarget w) : '\n' ∉ w := by
  rcases h with h | ⟨name, hname, rfl⟩
  · exact h.inline
  · intro hm
    rcases List.mem_cons.mp hm with hc | hm
    · cases hc
    · exact hname.inline hm

theorem IsName.begins {w : Text} (h : IsName w) (l : Text) : Begins (w ++ l) := by
  obtain ⟨hne, hall⟩ := h
  cases w with
  | nil => exact absurd rfl hne
  | cons c w =>
    have hc : isNameChar c = true := hall c List.mem_cons_self
    exact ⟨c, w ++ l, rfl, isBlank_of_isNameChar hc, ne_of_isNameChar hc (by decide)⟩

namespace Print

theorem inline_line {d : Nat} {w : Text} (h : '\n' ∉ w) : '\n' ∉ line d w := by
  intro hm
  rcases List.mem_append.mp hm with hm | hm
  · cases List.eq_of_mem_replicate hm
  · exact h hm

theorem inline_markers (kind : StateKind) (isInitial : Option Bool) : '\n' ∉ markers kind isInitial := by
  cases kind <;> rcases isInitial with _ | _ | _ <;> decide

theorem inline_actions : ∀ {names : List Text}, (∀ a ∈ names, IsName a) → '\n' ∉ actions names
  | [], _ => List.not_mem_nil
  | a :: names, h => by
    intro hm
    have hm : '\n' ∈ ' ' :: '>' :: ' ' :: (a ++ actions names) := hm
    simp only [List.mem_cons, List.mem_append] at hm
    rcases hm with hm | hm | hm | hm | hm
    · cases hm
    · cases hm
    · cases hm
    · exact (h a List.mem_cons_self).inline hm
    · exact inline_actions (fun x hx => h x (List.mem_cons_of_mem a hx)) hm

theorem inline_event {name : Text} (h : name = [] ∨ IsName name) : '\n' ∉ event name := by
  unfold event
  split
  · exact List.not_mem_nil
  · next hne =>
    intro hm
    rcases List.mem_append.mp hm with hm | hm
    · exact (h.resolve_left hne).inline hm
    · cases List.mem_singleton.mp hm

theorem inline_guard {cond : Option Text} (h : ∀ c ∈ cond, IsName c) : '\n' ∉ guard cond := by
  cases cond with
  | none => exact List.not_mem_nil
  | some c =>
    intro hm
    have hm : '\n' ∈ ';' :: ' ' :: c := hm
    simp only [List.mem_cons] at hm
    rcases hm with hm | hm | hm
    · cases hm
    · cases hm
    · exact (h c rfl).inline hm

theorem inline_entry {e : Entry} (he : e.Printable) : '\n' ∉ entry e := by
  obtain ⟨name, target, cond, names⟩ := e
  obtain ⟨hevent, ⟨htarget, hcond, hactions⟩, -⟩ := he
  have hnames : ∀ a ∈ names.getD [], IsName a := by
    cases names with
    | none => exact nofun
    | some names => exact (hactions names rfl).2
  intro hm
  have hm : '\n' ∈ event name ++ '-' :: '>' :: ' ' :: (target ++ (guard cond ++ actions (names.getD []))) := hm
  simp only [List.mem_append, List.mem_cons] at hm
  rcases hm with hm | hm | hm | hm | hm | hm | hm
  · exact inline_event hevent hm
  · cases hm
  · cases hm
  · cases hm
  · exact htarget.inline hm
  · exact inline_guard hcond hm
  · exact inline_actions hnames hm

theorem begins_entry {e : Entry} (he : e.Printable) : Begins (entry e) := by
  unfold entry event
  split
  · exact ⟨'-', _, rfl, by decide, by decide⟩
  · next hne =>
    rw [List.append_assoc]
    exact (he.event.resolve_left hne).begins _

theorem segment_entry {e : Entry} (he : e.Printable) (source : Text) (d i : Nat) :
    ∃ l : TransitionTree, l.Valid ∧ l.value = e ∧ Segment source d i [line d (entry e)] d l.tokens := by
  obtain ⟨l, hl, htokens, hvalue⟩ := lineWords_entry he i false (1 + 2 * d)
  have hseg := LineByLine.segment_line (d := d) (begins_entry he) (inline_line (inline_entry he)) source i
  have hwords : lineWords i false 1 (line d (entry e)) = l.tokens := by
    rw [← htokens]
    exact lineWords_blanks _ _ _ _ _
  rw [hwords, hl.seen] at hseg
  exact ⟨l, hl, hvalue, hseg⟩

theorem inline_heading {id : Text} (hid : IsName id) (kind : StateKind) (isInitial : Option Bool) (d : Nat) :
    '\n' ∉ line d (id ++ markers kind isInitial) := by
  refine inline_line ?_
  intro hm
  rcases List.mem_append.mp hm with hm | hm
  · exact hid.inline hm
  · exact inline_markers kind isInitial hm

theorem segment_heading {id : Text} (hid : IsName id) (kind : StateKind) (isInitial : Option Bool) (source : Text)
    (d i : Nat) :
    ∃ h : HeadingTree, h.Valid ∧ Segment source d i [line d (id ++ markers kind isInitial)] d h.tokens ∧
      h.name.word = id ∧ h.parallel.isSome = decide (kind = .parallel) ∧ h.final.isSome = decide (kind = .final) ∧
      h.initial.isSome = decide (isInitial = some true) := by
  obtain ⟨h, hv, htokens, hvalue⟩ := lineWords_heading hid kind isInitial i false (1 + 2 * d)
  have hseg := LineByLine.segment_line (hid.begins _) (inline_heading hid kind isInitial d) source i
  have hwords : lineWords i false 1 (line d (id ++ markers kind isInitial)) = h.tokens := by
    rw [← htokens]
    exact lineWords_blanks _ _ _ _ _
  rw [hwords, hv.seen] at hseg
  exact ⟨h, hv, hseg, hvalue⟩

/-- From these tokens, which leave `n` blocks open, states are derived that assemble to the given ones. -/
def Derives (vs : List Token) (n : Nat) (nodes : List Node) : Prop :=
  ∀ ends, BlockEnds n ends → ∃ ss : List StateTree,
    (∀ s ∈ ss, s.Valid ∧ s.Eager) ∧ ss.map StateTree.node = nodes ∧ ss.flatMap StateTree.tokens = vs ++ ends

theorem segment_entries (source : Text) (d : Nat) : ∀ (es : List Entry) (i : Nat), es ≠ [] →
    (∀ e ∈ es, e.Printable) → ∃ ls : List TransitionTree, (∀ l ∈ ls, l.Valid) ∧ ls.map TransitionTree.value = es ∧
      Segment source d i (es.map (fun e => line d (entry e))) d (ls.flatMap TransitionTree.tokens)
  | [], _, hne, _ => absurd rfl hne
  | [e], i, _, hes => by
    obtain ⟨l, hl, hvalue, hseg⟩ := segment_entry (hes e List.mem_cons_self) source d i
    refine ⟨[l], ?_, ?_, ?_⟩
    · intro l' hl'
      rw [List.mem_singleton.mp hl']
      exact hl
    · rw [List.map_singleton, hvalue]
    · rw [List.flatMap_singleton]
      exact hseg
  | e :: e' :: es, i, _, hes => by
    obtain ⟨l, hl, hvalue, hseg⟩ := segment_entry (hes e List.mem_cons_self) source d i
    obtain ⟨ls, hls, hvalues, hrest⟩ := segment_entries source d (e' :: es) (i + 1) (List.cons_ne_nil e' es)
      (fun x hx => hes x (List.mem_cons_of_mem e hx))
    refine ⟨l :: ls, ?_, ?_, ?_⟩
    · intro l' hl'
      rcases List.mem_cons.mp hl' with rfl | hl'
      · exact hl
      · exact hls l' hl'
    · rw [List.map_cons, hvalue, hvalues]
    · have happend := hseg.append (List.cons_ne_nil _ _) hrest (Nat.le_succ d)
      rw [entering_same] at happend
      exact happend

/-- The lines of a state that leave depth `o` open, with its tokens. -/
def Printed (source : Text) (d i : Nat) (ls : List Text) (nodes : List Node) : Prop :=
  ∃ o vs, d ≤ o ∧ Segment source d i ls o vs ∧ Derives vs (o - d) nodes

theorem flatMap_node_eq_cons (d : Nat) (c : Text × Node) (cs : List (Text × Node)) :
    ∃ l ls, (c :: cs).flatMap (fun c => node d c.2) = l :: ls := by
  rw [List.flatMap_cons, node_eq]
  exact ⟨_, _, rfl⟩

theorem node_ne_nil (d : Nat) (n : Node) : node d n ≠ [] := by
  rw [node_eq]
  exact List.cons_ne_nil _ _

/-- Printed states one after the other: each ends where the next one begins. -/
theorem printed_nodes {source : Text} {d : Nat} : ∀ {cs : List (Text × Node)} (i : Nat), cs ≠ [] →
    (∀ c ∈ cs, ∀ i, Printed source d i (node d c.2) [c.2]) →
    Printed source d i (cs.flatMap (fun c => node d c.2)) (cs.map Prod.snd)
  | [], _, hne, _ => absurd rfl hne
  | [c], i, _, h => by
    rw [List.flatMap_singleton]
    exact h c List.mem_cons_self i
  | c :: c' :: cs, i, _, h => by
    obtain ⟨o, vs, ho, hseg, hderives⟩ := h c List.mem_cons_self i
    obtain ⟨o', vs', ho', hseg', hderives'⟩ := printed_nodes (i + (node d c.2).length) (List.cons_ne_nil c' cs)
      (fun x hx => h x (List.mem_cons_of_mem c hx))
    obtain ⟨l, ls, hl⟩ := flatMap_node_eq_cons d c' cs
    rw [hl] at hseg'
    refine ⟨o', vs ++ (entering o d (i + (node d c.2).length) ++ vs'), ho', ?_, ?_⟩
    · rw [List.flatMap_cons, hl]
      exact hseg.append (node_ne_nil d c.2) hseg' (Nat.le_succ_of_le ho)
    · intro ends hends
      obtain ⟨ss, hss, hnodes, htokens⟩ := hderives _ (blockEnds_entering ho (i + (node d c.2).length))
      obtain ⟨ss', hss', hnodes', htokens'⟩ := hderives' ends hends
      refine ⟨ss ++ ss', ?_, ?_, ?_⟩
      · intro s hs
        rcases List.mem_append.mp hs with hs | hs
        · exact hss s hs
        · exact hss' s hs
      · rw [List.map_append, hnodes, hnodes']
        rfl
      · rw [List.flatMap_append, htokens, htokens']
        simp only [List.append_assoc]

/-- The lines of a block that leave depth `o` open, and the transitions and states that their tokens derive. -/
theorem printed_body {source : Text} {d : Nat} {es : List Entry} {cs : List (Text × Node)} (i : Nat)
    (hne : es ≠ [] ∨ cs ≠ []) (hes : ∀ e ∈ es, e.Printable)
    (hcs : ∀ c ∈ cs, ∀ i, Printed source d i (node d c.2) [c.2]) :
    ∃ o vs, d ≤ o ∧
      Segment source d i (es.map (fun e => line d (entry e)) ++ cs.flatMap (fun c => node d c.2)) o vs ∧
      ∀ ends, BlockEnds (o - d) ends → ∃ (ls : List TransitionTree) (ss : List StateTree),
        (∀ l ∈ ls, l.Valid) ∧ (∀ s ∈ ss, s.Valid ∧ s.Eager) ∧ ls.map TransitionTree.value = es ∧
          ss.map StateTree.node = cs.map Prod.snd ∧
          ls.flatMap TransitionTree.tokens ++ ss.flatMap StateTree.tokens = vs ++ ends := by
  by_cases hee : es = []
  · subst hee
    obtain ⟨o, vs, ho, hseg, hderives⟩ := printed_nodes i (hne.resolve_left (fun h => h rfl)) hcs
    refine ⟨o, vs, ho, hseg, ?_⟩
    intro ends hends
    obtain ⟨ss, hss, hnodes, htokens⟩ := hderives ends hends
    exact ⟨[], ss, (fun l hl => nomatch hl), hss, rfl, hnodes, htokens⟩
  · obtain ⟨ls, hls, hvalues, hseg⟩ := segment_entries source d es i hee hes
    cases cs with
    | nil =>
      refine ⟨d, _, Nat.le_refl d, by rw [List.flatMap_nil, List.append_nil]; exact hseg, ?_⟩
      intro ends hends
      have hnil : ends = [] := List.length_eq_zero_iff.mp (hends.1.trans (Nat.sub_self d))
      exact ⟨ls, [], hls, (fun s hs => nomatch hs), hvalues, rfl, by rw [hnil]; rfl⟩
    | cons c cs =>
      obtain ⟨o, vs, ho, hseg', hderives⟩ :=
        printed_nodes (i + (es.map (fun e => line d (entry e))).length) (List.cons_ne_nil c cs) hcs
      obtain ⟨l, lines, hl⟩ := flatMap_node_eq_cons d c cs
      rw [hl] at hseg'
      have happend := hseg.append (fun h => hee (List.map_eq_nil_iff.mp h)) hseg' (Nat.le_succ d)
      rw [entering_same, List.nil_append] at happend
      refine ⟨o, _, ho, by rw [hl]; exact happend, ?_⟩
      intro ends hends
      obtain ⟨ss, hss, hnodes, htokens⟩ := hderives ends hends
      exact ⟨ls, ss, hls, hss, hvalues, hnodes, by rw [htokens, List.append_assoc]⟩

theorem body_eq_cons (d : Nat) {es : List Entry} {cs : List (Text × Node)} (hne : es ≠ [] ∨ cs ≠ []) :
    ∃ l ls, es.map (fun e => line d (entry e)) ++ cs.flatMap (fun c => node d c.2) = l :: ls := by
  cases es with
  | cons e es => exact ⟨_, _, rfl⟩
  | nil =>
    cases cs with
    | cons c cs => exact flatMap_node_eq_cons d c cs
    | nil => exact absurd rfl (hne.resolve_left (fun h => h rfl))

/-- **A printed state is a segment that derives it.** -/
theorem printed_node {source : Text} {n : Node} (h : n.WellFormed) : ∀ d i, Printed source d i (node d n) [n] := by
  induction h with
  | @intro n fits _ ih =>
    intro d i
    obtain ⟨h, hv, hseg, hname, hparallel, hfinal, hinitial⟩ := segment_heading fits.id n.kind n.isInitial source d i
    rw [node_eq]
    by_cases hbody : n.entries = [] ∧ n.children = []
    · obtain ⟨hentries, hchildren⟩ := hbody
      rw [hentries, hchildren]
      refine ⟨d, h.tokens, Nat.le_refl d, hseg, ?_⟩
      intro ends hends
      have hnil : ends = [] := List.length_eq_zero_iff.mp (hends.1.trans (Nat.sub_self d))
      have hnode : (StateTree.bare h).node = n :=
        fits.assemble hname hparallel hfinal hinitial hentries.symm (by rw [hchildren]; rfl)
      refine ⟨[.bare h], ?_, ?_, ?_⟩
      · intro s hs
        rw [List.mem_singleton.mp hs]
        exact ⟨hv, trivial⟩
      · rw [List.map_singleton, hnode]
      · rw [List.flatMap_singleton, hnil, List.append_nil]
        rfl
    · have hne : n.entries ≠ [] ∨ n.children ≠ [] := by
        by_cases hentries : n.entries = []
        · exact .inr (fun hchildren => hbody ⟨hentries, hchildren⟩)
        · exact .inl hentries
      obtain ⟨o, vs, ho, hseg', hderives⟩ :=
        @printed_body source (d + 1) _ _ (i + 1) hne fits.printable_entries (fun c hc => ih c hc (d + 1))
      obtain ⟨l, lines, hl⟩ := body_eq_cons (d + 1) hne
      rw [hl] at hseg' ⊢
      have happend := hseg.append (List.cons_ne_nil _ _) hseg' (Nat.le_refl (d + 1))
      have hentering : entering d (d + 1) (i + 1) = [⟨.indent, ↑(i + 1), 1, none⟩] := if_pos (Nat.lt_succ_self d)
      refine ⟨o, _, Nat.le_of_succ_le ho, happend, ?_⟩
      intro ends hends
      have hcount : o - d = o - (d + 1) + 1 := by omega
      rw [hcount] at hends
      obtain ⟨inner, closing, rfl, hinner, hclosing⟩ := hends.split
      obtain ⟨ls, ss, hls, hss, hvalues, hnodes, htokens⟩ := hderives inner hinner
      have hnode : (StateTree.block h ⟨.indent, ↑(i + 1), 1, none⟩ (.ofParts ls ss) closing).node = n := by
        refine fits.assemble hname hparallel hfinal hinitial ?_ ?_
        · rw [entriesOf_parts, hvalues]
        · rw [childrenOf_parts, hnodes]
      refine ⟨[.block h ⟨.indent, ↑(i + 1), 1, none⟩ (.ofParts ls ss) closing], ?_, ?_, ?_⟩
      · intro s hs
        rw [List.mem_singleton.mp hs]
        exact ⟨⟨hv, rfl, BodyTree.ofParts_valid (fun s hs => (hss s hs).1) hls, hclosing⟩,
          BodyTree.ofParts_eager (fun s hs => (hss s hs).1) (fun s hs => (hss s hs).2) ls⟩
      · rw [List.map_singleton, hnode]
      · rw [List.flatMap_singleton, StateTree.tokens, BodyTree.ofParts_tokens, htokens]
        show _ = h.tokens ++ (entering d (d + 1) (i + 1) ++ vs) ++ (inner ++ [closing])
        rw [hentering]
        simp only [List.append_assoc, List.cons_append, List.nil_append]

theorem inline_node {n : Node} (h : n.WellFormed) : ∀ d, ∀ l ∈ node d n, '\n' ∉ l := by
  induction h with
  | @intro n fits _ ih =>
    intro d l hl
    rw [node_eq] at hl
    rcases List.mem_cons.mp hl with rfl | hl
    · exact inline_heading fits.id n.kind n.isInitial d
    · rcases List.mem_append.mp hl with hl | hl
      · obtain ⟨e, he, rfl⟩ := List.mem_map.mp hl
        exact inline_line (inline_entry (fits.printable_entries e he))
      · obtain ⟨c, hc, hl⟩ := List.mem_flatMap.mp hl
        exact ih c hc (d + 1) l hl

end Print

/-- The tokens of a printed chart are derived by a tree that assembles to it. -/
theorem tokenize_print {n : Node} (h : n.WellFormed) {t : Text} {rest : List Text} (hrest : rest = [] ∨ rest = [[]])
    (ht : Text.lines t = Print.node 0 n ++ rest) :
    ∃ ts, tokenize t = .ok ts ∧ ∃ s : StateTree, s.Valid ∧ s.Eager ∧ s.node = n ∧ s.tokens = seen ts := by
  obtain ⟨o, vs, -, hseg, hderives⟩ := @Print.printed_node t n h 0 1
  obtain ⟨ts, ends, hts, hseen, hends⟩ := hseg.closed hrest
  obtain ⟨ss, hss, hnodes, htokens⟩ := hderives ends hends
  refine ⟨ts, ?_, ?_⟩
  · rw [tokenize_eq_tokens]
    unfold LineByLine.tokens
    rw [ht, hts]
  · cases ss with
    | nil => cases hnodes
    | cons s ss =>
      obtain ⟨hnode, hnil⟩ := List.cons.inj hnodes
      have hnil : ss = [] := List.map_eq_nil_iff.mp hnil
      subst hnil
      rw [List.flatMap_singleton] at htokens
      obtain ⟨hv, he⟩ := hss s List.mem_cons_self
      exact ⟨s, hv, he, hnode, by rw [htokens, hseen]⟩

/-- One state that has an eager derivation is the root of the reading. -/
theorem ofTokens_of_state {ts : List Token} (hw : ∀ x ∈ ts, x.Worded) {s : StateTree} (hv : s.Valid) (he : s.Eager)
    (hs : s.tokens = seen ts) (rootId : Text) :
    ∃ records, Reading.ofTokens rootId ts = .ok (.tree (Assembly.asRoot s.node), records) := by
  have hd : ChartTree.Valid { first := s } := by
    refine ⟨?_, fun p hp => nomatch hp⟩
    intro s' hs'
    rw [List.mem_singleton.mp hs']
    exact hv
  have hde : ChartTree.Eager { first := s } := by
    intro s' hs'
    rw [List.mem_singleton.mp hs']
    exact he
  have htokens : ChartTree.tokens { first := s } = seen ts := by
    rw [← hs]
    exact List.flatMap_singleton _ _
  have hgives : (chart.run (visible ts) 0).1 = .matched [s.node] (visible ts).size :=
    chart_gives_of_derivation hw hd hde htokens
  unfold Reading.ofTokens
  generalize chart.run (visible ts) 0 = result at hgives
  obtain ⟨outcome, trace⟩ := result
  simp only at hgives
  subst hgives
  exact ⟨_, rfl⟩

/-- **Reading what was printed gives the chart again**, with a line feed at the end of the text or without. -/
theorem ofText_print {n : Node} (h : n.WellFormed) (hroot : n.isInitial = none) (rootId : Text) :
    ∀ ending ∈ [[], ['\n']], ∃ records, Reading.ofText rootId (n.print ++ ending) = .ok (.tree n, records) := by
  intro ending hending
  have hlines : ∃ rest, (rest = [] ∨ rest = [[]]) ∧ Text.lines (n.print ++ ending) = Print.node 0 n ++ rest := by
    have hne := Print.node_ne_nil 0 n
    have hinline := Print.inline_node h 0
    rcases List.mem_cons.mp hending with rfl | hending
    · refine ⟨[], .inl rfl, ?_⟩
      rw [List.append_nil, List.append_nil]
      exact Text.lines_unlines hne hinline
    · rw [List.mem_singleton.mp hending]
      refine ⟨[[]], .inr rfl, ?_⟩
      unfold Node.print
      rw [← Text.unlines_concat_nil hne]
      refine Text.lines_unlines (List.append_ne_nil_of_left_ne_nil hne _) ?_
      intro l hl
      rcases List.mem_append.mp hl with hl | hl
      · exact hinline l hl
      · rw [List.mem_singleton.mp hl]
        exact List.not_mem_nil
  obtain ⟨rest, hrest, hlines⟩ := hlines
  obtain ⟨ts, hts, s, hv, he, hnode, hs⟩ := tokenize_print h hrest hlines
  obtain ⟨records, hread⟩ := ofTokens_of_state (worded_of_tokenize hts) hv he hs rootId
  have hasRoot : Assembly.asRoot s.node = n := by
    rw [hnode]
    obtain ⟨id, kind, initial, isInitial, states, on⟩ := n
    cases hroot
    rfl
  rw [hasRoot] at hread
  unfold Reading.ofText
  rw [hts]
  simp only
  rw [hread]
  exact ⟨_, rfl⟩

/-- A door with a guarded move that needs no event, a move out of the chart, and a default child
that is not the first. -/
def door : Node where
  id := ['d']
  kind := .parallel
  initial := some ['s']
  states := some
    [(['o'],
      { id := ['o']
        kind := .atomic
        on := some
          [([], .all [{ target := ['s'], cond := some ['w'], actions := some [['x'], ['y']] }]),
            (['E'], .one { target := ['#', 'm', '.', 'z'] })] }),
      (['s'], { id := ['s'], kind := .final, isInitial := some true })]

theorem door_wellFormed : door.WellFormed := by
  refine .intro ⟨by decide, ?_, nofun, nofun, rfl, nofun, nofun⟩ ?_
  · rintro cs ⟨⟩
    exact ⟨List.cons_ne_nil _ _, by decide, by simp⟩
  · intro c hc
    rcases List.mem_cons.mp hc with rfl | hc
    · refine .intro ⟨by decide, nofun, nofun, fun _ => rfl, rfl, ?_, nofun⟩ nofun
      rintro hs ⟨⟩
      refine ⟨List.cons_ne_nil _ _, by decide, ?_⟩
      intro h hh
      rcases List.mem_cons.mp hh with rfl | hh
      · refine ⟨rfl, List.cons_ne_nil _ _, ?_⟩
        intro t ht
        rw [List.mem_singleton.mp ht]
        refine ⟨⟨.inl (by decide), ?_, ?_⟩, nofun⟩
        · rintro w ⟨⟩
          decide
        · rintro names ⟨⟩
          decide
      · rw [List.mem_singleton.mp hh]
        refine ⟨by decide, .inr ⟨['m', '.', 'z'], by decide, rfl⟩, nofun, nofun⟩
    · rw [List.mem_singleton.mp hc]
      exact .intro ⟨by decide, nofun, nofun, nofun, rfl, nofun, nofun⟩ nofun

theorem ofText_print_door :
    door.WellFormed ∧ door.isInitial = none ∧
      door.print = "d&\n  o\n    -> s; w > x > y\n    E -> #m.z\n  s$*".toList ∧
      ∀ ending ∈ [[], ['\n']],
        ∃ records, Reading.ofText defaultRootId (door.print ++ ending) = .ok (.tree door, records) :=
  ⟨door_wellFormed, rfl, rfl, ofText_print door_wellFormed rfl defaultRootId⟩

end Statechart
