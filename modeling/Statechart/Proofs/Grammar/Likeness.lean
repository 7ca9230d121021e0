import Mathlib.Data.List.Forall2
import Statechart.Proofs.Grammar.Blocks
/-!
# Likeness — tokens that stand at other places

The grammar reads the kinds and the texts of tokens.  Of their places it only asks whether two words stand on one line.
So tokens that differ in nothing else have the same derivations, up to the places, and are assembled to the same states
(`IsChart.transfer`).
-/
namespace Statechart

variable {L : Int → Int → Prop}

/-- The same token at another place.  The lines of the two correspond, unless the token opens or closes a block. -/
structure Token.Alike (L : Int → Int → Prop) (x y : Token) : Prop where
  kind : y.kind = x.kind
  text : y.text = x.text
  line : x.kind.isLayout = false → L x.line y.line

theorem Token.Alike.word {x y : Token} (h : x.Alike L y) : y.word = x.word := by
  unfold Token.word
  rw [h.text]

/-- **Words on one line stay on one line**, and words on two lines on two. -/
theorem Token.Alike.line_eq_iff (hL : Relator.BiUnique L) {x y x' y' : Token} (h : x.Alike L y) (h' : x'.Alike L y')
    (hx : x.kind.isLayout = false) (hx' : x'.kind.isLayout = false) : y.line = y'.line ↔ x.line = x'.line :=
  (Relator.rel_eq hL (h.line hx) (h'.line hx')).symm

theorem biUnique_swap (hL : Relator.BiUnique L) : Relator.BiUnique (flip L) :=
  ⟨fun _ _ _ h h' => hL.2 h h', fun _ _ _ h h' => hL.1 h h'⟩

theorem Token.alike_swap {ts us : List Token} (h : List.Forall₂ (Alike L) ts us) :
    List.Forall₂ (Alike (flip L)) us ts := by
  refine (h.imp fun x y hxy => ?_ : List.Forall₂ (fun x y => Alike (flip L) y x) ts us).flip
  exact ⟨hxy.kind.symm, hxy.text.symm, fun hk => hxy.line (by rwa [hxy.kind] at hk)⟩

theorem forall₂_append_left {α β : Type} {R : α → β → Prop} : ∀ {as as' : List α} {bs : List β},
    List.Forall₂ R (as ++ as') bs → ∃ cs cs', bs = cs ++ cs' ∧ List.Forall₂ R as cs ∧ List.Forall₂ R as' cs'
  | [], _, bs, h => ⟨[], bs, rfl, .nil, h⟩
  | _ :: _, _, b :: _, .cons hab h => by
    obtain ⟨cs, cs', rfl, hcs, hcs'⟩ := forall₂_append_left h
    exact ⟨b :: cs, cs', rfl, .cons hab hcs, hcs'⟩

theorem forall₂_toList {α β : Type} {R : α → β → Prop} : ∀ {o : Option α} {bs : List β}, List.Forall₂ R o.toList bs →
    ∃ o' : Option β, o'.toList = bs ∧ Option.Rel R o o'
  | none, _, .nil => ⟨none, rfl, .none⟩
  | some _, _, .cons hab .nil => ⟨some _, rfl, .some hab⟩

theorem exists_of_mem_right {α β : Type} {R : α → β → Prop} : ∀ {as : List α} {bs : List β}, List.Forall₂ R as bs →
    ∀ b ∈ bs, ∃ a ∈ as, R a b
  | _, _, .cons hab h, b, hb => by
    rcases List.mem_cons.1 hb with rfl | hb
    · exact ⟨_, List.mem_cons_self, hab⟩
    · obtain ⟨a, ha, hR⟩ := exists_of_mem_right h b hb
      exact ⟨a, List.mem_cons_of_mem _ ha, hR⟩

theorem Token.alike_option {o o' : Option Token} (h : Option.Rel (Alike L) o o') :
    o'.isSome = o.isSome ∧ o'.map word = o.map word ∧ ∀ {k : TokenKind}, (∀ t ∈ o, t.kind = k) → ∀ t ∈ o', t.kind = k := by
  cases h with
  | none => exact ⟨rfl, rfl, fun _ => nofun⟩
  | some hxy =>
    refine ⟨rfl, congrArg some hxy.word, fun hk t ht => ?_⟩
    obtain rfl := Option.some.inj ht
    exact hxy.kind.trans (hk _ rfl)

theorem Token.alike_words : ∀ {ts us : List Token}, List.Forall₂ (Alike L) ts us → us.map word = ts.map word
  | _, _, .nil => rfl
  | _, _, .cons hxy h => by rw [List.map_cons, List.map_cons, hxy.word, alike_words h]

namespace Grammar

variable {ts us : List Token}

/-- A state is assembled from the name and the markers of its heading, not from where they stand. -/
theorem assemble_congr {h h' : Heading} (hname : h'.name = h.name) (hparallel : h'.parallel = h.parallel)
    (hfinal : h'.final = h.final) (hinitial : h'.initial = h.initial) (body : List Item) :
    Assembly.assemble { heading := h', body } = Assembly.assemble { heading := h, body } := by
  unfold Assembly.assemble Assembly.unsettled Assembly.classify
  rw [hname, hparallel, hfinal, hinitial]

theorem HeadingTree.Valid.transfer {h : HeadingTree} (hv : h.Valid) (hus : List.Forall₂ (Token.Alike L) h.tokens us) :
    ∃ h' : HeadingTree, h'.Valid ∧ h'.tokens = us ∧ ∀ body,
      Assembly.assemble { heading := h'.value, body } = Assembly.assemble { heading := h.value, body } := by
  obtain ⟨name, parallel, final, initial⟩ := h
  cases hus with
  | @cons _ name' _ _ hname hmarkers =>
    obtain ⟨_, _, rfl, hps, hmarkers⟩ := forall₂_append_left hmarkers
    obtain ⟨_, _, rfl, hfs, his⟩ := forall₂_append_left hmarkers
    obtain ⟨parallel', rfl, hparallel⟩ := forall₂_toList hps
    obtain ⟨final', rfl, hfinal⟩ := forall₂_toList hfs
    obtain ⟨initial', rfl, hinitial⟩ := forall₂_toList his
    obtain ⟨hp, -, hpk⟩ := Token.alike_option hparallel
    obtain ⟨hf, -, hfk⟩ := Token.alike_option hfinal
    obtain ⟨hi, -, hik⟩ := Token.alike_option hinitial
    refine ⟨⟨name', parallel', final', initial'⟩,
      ⟨hname.kind.trans hv.name, hpk hv.parallel, hfk hv.final, hik hv.initial⟩, rfl, ?_⟩
    exact assemble_congr hname.word hp hf hi

theorem TransitionTree.Valid.transfer (hL : Relator.BiUnique L) {l : TransitionTree} (hv : l.Valid)
    (hus : List.Forall₂ (Token.Alike L) l.tokens us) :
    ∃ l' : TransitionTree, l'.Valid ∧ l'.tokens = us ∧ l'.value = l.value := by
  have hwords := hv.words
  have hline := hv.line
  have hall := exists_of_mem_right hus
  obtain ⟨event, arrow, target, guard, actions⟩ := l
  obtain ⟨_, _, rfl, hes, hback⟩ := forall₂_append_left hus
  obtain ⟨event', rfl, hevent⟩ := forall₂_toList hes
  cases hback with
  | @cons _ arrow' _ _ harrow hback =>
    cases hback with
    | @cons _ target' _ _ htarget hback =>
      obtain ⟨_, actions', rfl, hgs, hactions⟩ := forall₂_append_left hback
      obtain ⟨guard', rfl, hguard⟩ := forall₂_toList hgs
      obtain ⟨heq, hew, hek⟩ := Token.alike_option hevent
      obtain ⟨hgq, hgw, hgk⟩ := Token.alike_option hguard
      have harrowWord : arrow.kind.isLayout = false := (hwords arrow (by simp [tokens])).1
      refine ⟨⟨event', arrow', target', guard', actions'⟩, ⟨hek hv.event, harrow.kind.trans hv.arrow,
        htarget.kind.trans hv.target, hgk hv.guard, ?_, ?_, ?_⟩, rfl, ?_⟩
      · intro t ht
        obtain ⟨x, hx, hxt⟩ := exists_of_mem_right hactions t ht
        exact hxt.kind.trans (hv.actions x hx)
      · intro t ht
        obtain ⟨x, hx, hxt⟩ := hall t ht
        exact (hxt.line_eq_iff hL harrow (hwords x hx).1 harrowWord).2 (hline x hx)
      · rintro rfl hnone
        obtain rfl : guard' = none := hnone
        cases hevent
        cases hguard
        exact hv.guarded rfl rfl
      · have hempty : actions'.isEmpty = actions.isEmpty := by cases hactions <;> rfl
        unfold TransitionTree.value
        simp only [hew, hgw, htarget.word, Token.alike_words hactions, hempty]

theorem ArrowBehind.transfer (hL : Relator.BiUnique L) {x y : Token} (hxy : x.Alike L y) (hx : x.kind = .identifier)
    (hus : List.Forall₂ (Token.Alike L) ts us) (h : ArrowBehind y us) : ArrowBehind x ts := by
  obtain ⟨a, ha, hka, hla⟩ := h
  cases hus with
  | nil => cases ha
  | @cons b _ ts us hba hus =>
    obtain rfl := Option.some.inj ha
    have hkb : b.kind = .arrow := hba.kind.symm.trans hka
    exact ⟨b, rfl, hkb, (hba.line_eq_iff hL hxy (by rw [hkb]; rfl) (by rw [hx]; rfl)).1 hla⟩

theorem StateTree.transfer_behind (hL : Relator.BiUnique L) {s s' : StateTree} {rest rest' : List Token} (hs : s.Valid)
    (hss : List.Forall₂ (Token.Alike L) s.tokens s'.tokens) (hrest : List.Forall₂ (Token.Alike L) rest rest')
    (h : ¬ ArrowBehind s.heading.name (s.tokens ++ rest).tail) :
    ¬ ArrowBehind s'.heading.name (s'.tokens ++ rest').tail := by
  obtain ⟨tl, htl⟩ := s.tokens_eq
  obtain ⟨tl', htl'⟩ := s'.tokens_eq
  rw [htl, htl'] at hss
  rw [htl, List.cons_append, List.tail_cons] at h
  rw [htl', List.cons_append, List.tail_cons]
  cases hss with
  | cons hname htail =>
    exact fun ha => h (ha.transfer hL hname hs.heading.name (List.rel_append htail hrest))

mutual

/-- **A state can be moved**: tokens like those of a state are a state, and it is assembled to the same. -/
theorem StateTree.transfer (hL : Relator.BiUnique L) : ∀ {s : StateTree} {us : List Token}, s.Valid → s.Eager →
    List.Forall₂ (Token.Alike L) s.tokens us →
      ∃ s' : StateTree, s'.Valid ∧ s'.Eager ∧ s'.tokens = us ∧ s'.node = s.node
  | .bare h, us, hv, _, hus => by
    obtain ⟨h', hv', rfl, hsame⟩ := HeadingTree.Valid.transfer hv hus
    refine ⟨.bare h', hv', trivial, rfl, ?_⟩
    rw [StateTree.node, StateTree.node, hsame]
  | .block h opening body closing, us, ⟨hv, ho, hb, hc⟩, he, hus => by
    obtain ⟨_, _, rfl, hhead, hblock⟩ := forall₂_append_left hus
    obtain ⟨h', hv', rfl, hsame⟩ := hv.transfer hhead
    cases hblock with
    | @cons _ opening' _ _ hopen hinside =>
      obtain ⟨_, _, rfl, hbody, hlast⟩ := forall₂_append_left hinside
      obtain ⟨b', hb', eb', rfl, hitems⟩ := BodyTree.transfer hL hb he hbody
      cases hlast with
      | @cons _ closing' _ _ hclose hlast =>
        cases hlast
        refine ⟨.block h' opening' b' closing', ⟨hv', hopen.kind.trans ho, hb', hclose.kind.trans hc⟩, eb', rfl, ?_⟩
        rw [StateTree.node, StateTree.node, hitems, hsame]

theorem BodyTree.transfer (hL : Relator.BiUnique L) : ∀ {b : BodyTree} {us : List Token}, b.Valid → b.Eager →
    List.Forall₂ (Token.Alike L) b.tokens us →
      ∃ b' : BodyTree, b'.Valid ∧ b'.Eager ∧ b'.tokens = us ∧ b'.items = b.items
  | .nil, _, _, _, .nil => ⟨.nil, trivial, trivial, rfl, rfl⟩
  | .transition l rest, us, ⟨hl, hr⟩, he, hus => by
    obtain ⟨_, _, rfl, hline, hrest⟩ := forall₂_append_left hus
    obtain ⟨l', hl', rfl, hvalue⟩ := hl.transfer hL hline
    obtain ⟨r', hr', er', rfl, hitems⟩ := BodyTree.transfer hL hr he hrest
    refine ⟨.transition l' r', ⟨hl', hr'⟩, er', rfl, ?_⟩
    rw [BodyTree.items, BodyTree.items, hvalue, hitems]
  | .state s rest, us, ⟨hs, hr⟩, ⟨es, ha, er⟩, hus => by
    obtain ⟨_, _, rfl, hstate, hrest⟩ := forall₂_append_left hus
    obtain ⟨s', hs', es', rfl, hnode⟩ := StateTree.transfer hL hs es hstate
    obtain ⟨r', hr', er', rfl, hitems⟩ := BodyTree.transfer hL hr er hrest
    refine ⟨.state s' r', ⟨hs', hr'⟩, ⟨es', s.transfer_behind hL hs hstate hrest ha, er'⟩, rfl, ?_⟩
    rw [BodyTree.items, BodyTree.items, hnode, hitems]

end

theorem states_transfer (hL : Relator.BiUnique L) : ∀ {ss : List StateTree} {us : List Token}, (∀ s ∈ ss, s.Valid) →
    (∀ s ∈ ss, s.Eager) → List.Forall₂ (Token.Alike L) (ss.flatMap StateTree.tokens) us →
      ∃ ss' : List StateTree, (∀ s ∈ ss', s.Valid) ∧ (∀ s ∈ ss', s.Eager) ∧ ss'.flatMap StateTree.tokens = us ∧
        ss'.map StateTree.node = ss.map StateTree.node
  | [], _, _, _, .nil => ⟨[], by simp, by simp, rfl, rfl⟩
  | s :: ss, us, hss, ess, hus => by
    obtain ⟨hs, hss⟩ := List.forall_mem_cons.1 hss
    obtain ⟨es, ess⟩ := List.forall_mem_cons.1 ess
    obtain ⟨_, _, rfl, hstate, hrest⟩ := forall₂_append_left hus
    obtain ⟨s', hs', es', rfl, hnode⟩ := StateTree.transfer hL hs es hstate
    obtain ⟨ss', hss', ess', rfl, hnodes⟩ := states_transfer hL hss ess hrest
    exact ⟨s' :: ss', List.forall_mem_cons.2 ⟨hs', hss'⟩, List.forall_mem_cons.2 ⟨es', ess'⟩, rfl,
      by rw [List.map_cons, List.map_cons, hnode, hnodes]⟩

/-- The tokens are a chart with these outermost states. -/
def IsChart (ts : List Token) (nodes : List Node) : Prop :=
  ∃ d : ChartTree, d.Valid ∧ d.Eager ∧ d.tokens = ts ∧ d.nodes = nodes

/-- What a chart is made of: one state or more, in a block of their own or not. -/
theorem isChart_iff {nodes : List Node} : IsChart ts nodes ↔
    ∃ ss : List StateTree, (∀ s ∈ ss, s.Valid) ∧ (∀ s ∈ ss, s.Eager) ∧ ss ≠ [] ∧ ss.map StateTree.node = nodes ∧
      (ts = ss.flatMap StateTree.tokens ∨ ∃ opening closing : Token, opening.kind = .indent ∧ closing.kind = .dedent ∧
        ts = opening :: (ss.flatMap StateTree.tokens ++ [closing])) := by
  constructor
  · rintro ⟨⟨frame, first, rest⟩, hd, he, rfl, rfl⟩
    refine ⟨first :: rest, hd.states, he, List.cons_ne_nil _ _, rfl, ?_⟩
    cases frame with
    | none => exact .inl rfl
    | some p => exact .inr ⟨p.1, p.2, (hd.frame p rfl).1, (hd.frame p rfl).2, rfl⟩
  · rintro ⟨ss, hv, he, hne, rfl, hts⟩
    cases ss with
    | nil => exact absurd rfl hne
    | cons s ss =>
      rcases hts with rfl | ⟨opening, closing, ho, hc, rfl⟩
      · exact ⟨⟨none, s, ss⟩, ⟨hv, by simp⟩, he, rfl, rfl⟩
      · refine ⟨⟨some (opening, closing), s, ss⟩, ⟨hv, fun p hp => ?_⟩, he, rfl, rfl⟩
        obtain rfl := Option.some.inj hp
        exact ⟨ho, hc⟩

/-- **A chart can be moved.** -/
theorem IsChart.transfer (hL : Relator.BiUnique L) {nodes : List Node} (h : IsChart ts nodes)
    (hus : List.Forall₂ (Token.Alike L) ts us) : IsChart us nodes := by
  obtain ⟨ss, hv, he, hne, rfl, hts⟩ := isChart_iff.1 h
  rw [isChart_iff]
  rcases hts with rfl | ⟨opening, closing, ho, hc, rfl⟩
  · obtain ⟨ss', hv', he', rfl, hnodes⟩ := states_transfer hL hv he hus
    refine ⟨ss', hv', he', ?_, hnodes, .inl rfl⟩
    rintro rfl
    exact hne (List.map_eq_nil_iff.1 hnodes.symm)
  · cases hus with
    | @cons _ opening' _ _ hopen hus =>
      obtain ⟨_, _, rfl, hstates, hlast⟩ := forall₂_append_left hus
      obtain ⟨ss', hv', he', rfl, hnodes⟩ := states_transfer hL hv he hstates
      cases hlast with
      | @cons _ closing' _ _ hclose hlast =>
        cases hlast
        refine ⟨ss', hv', he', ?_, hnodes, .inr ⟨opening', closing', hopen.kind.trans ho, hclose.kind.trans hc, rfl⟩⟩
        rintro rfl
        exact hne (List.map_eq_nil_iff.1 hnodes.symm)

/-- **Tokens at other places are the same charts.** -/
theorem isChart_congr (hL : Relator.BiUnique L) {nodes : List Node} (h : List.Forall₂ (Token.Alike L) ts us) :
    IsChart ts nodes ↔ IsChart us nodes :=
  ⟨fun hts => hts.transfer hL h, fun hus => hus.transfer (biUnique_swap hL) (Token.alike_swap h)⟩

end Grammar
end Statechart
