import Statechart.Proofs.Grammar.Derivation
/-!
# Ambiguity — one eager derivation for each derivable list of tokens

A derivation is made eager by giving a bare name to the transition behind it as its event (`resolve`); no token moves.
And the tokens of an eager derivation decide it (`ChartTree.unique`): what a token can be is settled by its kind, by
the line it is on, and by the token behind it.
-/
namespace Statechart
namespace Grammar

/-! ## Making a derivation eager -/

/-- A state in front of statements.  A bare name becomes the event of a transition on its line that needs none. -/
def BodyTree.attach : StateTree → BodyTree → BodyTree
  | .bare ⟨name, none, none, none⟩, .transition l rest =>
    if l.event = none ∧ l.arrow.line = name.line then .transition { l with event := some name } rest
    else .state (.bare { name }) (.transition l rest)
  | s, rest => .state s rest

mutual

def StateTree.resolve : StateTree → StateTree
  | .bare d => .bare d
  | .block d opening body closing => .block d opening body.resolve closing

def BodyTree.resolve : BodyTree → BodyTree
  | .nil => .nil
  | .transition l rest => .transition l rest.resolve
  | .state s rest => .attach s.resolve rest.resolve

end

theorem BodyTree.attach_cases (s : StateTree) (rest : BodyTree) :
    BodyTree.attach s rest = .state s rest ∨
      ∃ name l rest', s = .bare { name } ∧ rest = .transition l rest' ∧ l.event = none ∧ l.arrow.line = name.line ∧
        BodyTree.attach s rest = .transition { l with event := some name } rest' := by
  unfold BodyTree.attach
  split
  · rename_i name l rest'
    split
    · rename_i h
      exact .inr ⟨name, l, rest', rfl, rfl, h.1, h.2, rfl⟩
    · exact .inl rfl
  · exact .inl rfl

theorem BodyTree.attach_tokens (s : StateTree) (rest : BodyTree) :
    (BodyTree.attach s rest).tokens = s.tokens ++ rest.tokens := by
  rcases BodyTree.attach_cases s rest with h | ⟨name, l, rest', rfl, rfl, he, -, h⟩
  · rw [h, BodyTree.tokens]
  · rw [h, BodyTree.tokens, BodyTree.tokens, TransitionTree.tokens, TransitionTree.tokens, he]
    rfl

theorem BodyTree.attach_valid {s : StateTree} {rest : BodyTree} (hs : s.Valid) (hr : rest.Valid) :
    (BodyTree.attach s rest).Valid := by
  rcases BodyTree.attach_cases s rest with h | ⟨name, l, rest', rfl, rfl, he, hline, h⟩
  · rw [h]
    exact ⟨hs, hr⟩
  · rw [h]
    obtain ⟨hl, hr⟩ := hr
    have hn : name.kind = .identifier := hs.heading.name
    refine ⟨⟨by simpa using hn, hl.arrow, hl.target, hl.guard, hl.actions, ?_, by simp⟩, hr⟩
    have hlines := hl.line
    rw [TransitionTree.tokens, he] at hlines
    exact List.forall_mem_cons.2 ⟨hline.symm, hlines⟩

/-- **Attaching leaves nothing to resolve.** -/
theorem BodyTree.attach_eager {s : StateTree} {rest : BodyTree} (hs : s.Valid) (hr : rest.Valid) (es : s.Eager)
    (er : rest.Eager) : (BodyTree.attach s rest).Eager := by
  rcases BodyTree.attach_cases s rest with h | ⟨name, l, rest', rfl, rfl, -, -, h⟩
  · rw [h]
    refine ⟨es, fun ha => ?_, er⟩
    obtain ⟨name, l, rest', rfl, rfl, he, hline⟩ := ha.shape hs hr
    rw [BodyTree.attach, if_pos ⟨he, hline⟩] at h
    cases h
  · rw [h]
    exact er

mutual

theorem StateTree.resolve_tokens : ∀ s : StateTree, s.resolve.tokens = s.tokens
  | .bare _ => rfl
  | .block d opening body closing => by
    rw [StateTree.resolve, StateTree.tokens, StateTree.tokens, body.resolve_tokens]

theorem BodyTree.resolve_tokens : ∀ b : BodyTree, b.resolve.tokens = b.tokens
  | .nil => rfl
  | .transition l rest => by rw [BodyTree.resolve, BodyTree.tokens, BodyTree.tokens, rest.resolve_tokens]
  | .state s rest => by
    rw [BodyTree.resolve, BodyTree.attach_tokens, BodyTree.tokens, s.resolve_tokens, rest.resolve_tokens]

end

mutual

theorem StateTree.resolve_valid : ∀ {s : StateTree}, s.Valid → s.resolve.Valid
  | .bare _, h => h
  | .block _ _ _ _, ⟨hd, ho, hb, hc⟩ => ⟨hd, ho, BodyTree.resolve_valid hb, hc⟩

theorem BodyTree.resolve_valid : ∀ {b : BodyTree}, b.Valid → b.resolve.Valid
  | .nil, _ => trivial
  | .transition _ _, ⟨hl, hr⟩ => ⟨hl, BodyTree.resolve_valid hr⟩
  | .state _ _, ⟨hs, hr⟩ => BodyTree.attach_valid (StateTree.resolve_valid hs) (BodyTree.resolve_valid hr)

end

mutual

theorem StateTree.resolve_eager : ∀ {s : StateTree}, s.Valid → s.resolve.Eager
  | .bare _, _ => trivial
  | .block _ _ _ _, ⟨_, _, hb, _⟩ => BodyTree.resolve_eager hb

theorem BodyTree.resolve_eager : ∀ {b : BodyTree}, b.Valid → b.resolve.Eager
  | .nil, _ => trivial
  | .transition _ rest, ⟨_, hr⟩ => @BodyTree.resolve_eager rest hr
  | .state _ _, ⟨hs, hr⟩ =>
    BodyTree.attach_eager (StateTree.resolve_valid hs) (BodyTree.resolve_valid hr) (StateTree.resolve_eager hs)
      (BodyTree.resolve_eager hr)

end

/-- **What has a derivation has an eager one.** -/
theorem ChartTree.exists_eager {d : ChartTree} (hd : d.Valid) :
    ∃ e : ChartTree, e.Valid ∧ e.Eager ∧ e.tokens = d.tokens := by
  obtain ⟨frame, first, rest⟩ := d
  have hstates : ∀ s ∈ first :: rest, s.Valid := hd.states
  have htokens : ((first :: rest).map StateTree.resolve).flatMap StateTree.tokens =
      (first :: rest).flatMap StateTree.tokens := by
    rw [List.flatMap_map]
    exact congrArg (List.flatMap · (first :: rest)) (funext StateTree.resolve_tokens)
  refine ⟨⟨frame, first.resolve, rest.map StateTree.resolve⟩, ⟨fun s hs => ?_, hd.frame⟩, fun s hs => ?_, ?_⟩
  · obtain ⟨s', hs', rfl⟩ := List.mem_map.1 (show s ∈ (first :: rest).map StateTree.resolve from hs)
    exact StateTree.resolve_valid (hstates s' hs')
  · obtain ⟨s', hs', rfl⟩ := List.mem_map.1 (show s ∈ (first :: rest).map StateTree.resolve from hs)
    exact StateTree.resolve_eager (hstates s' hs')
  · cases frame with
    | none => exact htokens
    | some p => exact congrArg (fun ts => p.1 :: (ts ++ [p.2])) htokens

/-! ## The tokens decide -/

/-- Nothing at the start of a list has one of some kinds. -/
def Clear (kinds : List TokenKind) (r : List Token) : Prop := ∀ t ∈ r.head?, t.kind ∉ kinds

/-- The kinds that go on with a heading or a transition. -/
def inner : List TokenKind := [.parallel, .final, .initial, .condition, .action, .indent]

theorem Clear.mono {kinds kinds' : List TokenKind} {r : List Token} (h : Clear kinds r) (hk : kinds' ⊆ kinds) :
    Clear kinds' r :=
  fun t ht hm => h t ht (hk hm)

theorem Clear.append {kinds : List TokenKind} {kind : TokenKind} {ts r : List Token} (hts : ∀ t ∈ ts, t.kind = kind)
    (hk : kind ∉ kinds) (hr : Clear kinds r) : Clear kinds (ts ++ r) := by
  cases ts with
  | nil => exact hr
  | cons t ts =>
    intro u hu
    obtain rfl : t = u := Option.some.inj hu
    rw [hts t List.mem_cons_self]
    exact hk

/-- **A run of tokens of one kind is as long as it can be.** -/
theorem run_unique {kind : TokenKind} : ∀ {ts ts' r r' : List Token}, (∀ t ∈ ts, t.kind = kind) →
    (∀ t ∈ ts', t.kind = kind) → Clear [kind] r → Clear [kind] r' → ts ++ r = ts' ++ r' → ts = ts' ∧ r = r'
  | [], [], _, _, _, _, _, _, h => ⟨rfl, h⟩
  | [], t' :: ts', r, r', _, hts', hr, _, h => by
    obtain rfl : r = t' :: ts' ++ r' := h
    exact absurd (List.mem_singleton.2 (hts' t' List.mem_cons_self)) (hr t' rfl)
  | t :: ts, [], r, r', hts, _, _, hr', h => by
    obtain rfl : t :: ts ++ r = r' := h
    exact absurd (List.mem_singleton.2 (hts t List.mem_cons_self)) (hr' t rfl)
  | t :: ts, t' :: ts', r, r', hts, hts', hr, hr', h => by
    obtain ⟨rfl, htail⟩ := List.cons.inj h
    obtain ⟨rfl, rfl⟩ := run_unique (List.forall_mem_cons.1 hts).2 (List.forall_mem_cons.1 hts').2 hr hr' htail
    exact ⟨rfl, rfl⟩

theorem option_unique {kind : TokenKind} {o o' : Option Token} {r r' : List Token} (ho : ∀ t ∈ o, t.kind = kind)
    (ho' : ∀ t ∈ o', t.kind = kind) (hr : Clear [kind] r) (hr' : Clear [kind] r')
    (h : o.toList ++ r = o'.toList ++ r') : o = o' ∧ r = r' := by
  obtain ⟨hto, rfl⟩ := run_unique (fun t ht => ho t (Option.mem_toList.1 ht))
    (fun t ht => ho' t (Option.mem_toList.1 ht)) hr hr' h
  refine ⟨?_, rfl⟩
  cases o <;> cases o' <;> simp_all

theorem HeadingTree.unique {d d' : HeadingTree} {r r' : List Token} (hd : d.Valid) (hd' : d'.Valid)
    (hr : Clear [.parallel, .final, .initial] r) (hr' : Clear [.parallel, .final, .initial] r')
    (h : d.tokens ++ r = d'.tokens ++ r') : d = d' ∧ r = r' := by
  obtain ⟨name, p, f, m⟩ := d
  obtain ⟨name', p', f', m'⟩ := d'
  have hm : ∀ t ∈ m.toList, t.kind = .initial := fun t ht => hd.initial t (Option.mem_toList.1 ht)
  have hm' : ∀ t ∈ m'.toList, t.kind = .initial := fun t ht => hd'.initial t (Option.mem_toList.1 ht)
  have hf : ∀ t ∈ f.toList, t.kind = .final := fun t ht => hd.final t (Option.mem_toList.1 ht)
  have hf' : ∀ t ∈ f'.toList, t.kind = .final := fun t ht => hd'.final t (Option.mem_toList.1 ht)
  have h : name :: (p.toList ++ (f.toList ++ (m.toList ++ r))) =
      name' :: (p'.toList ++ (f'.toList ++ (m'.toList ++ r'))) := by
    simpa [HeadingTree.tokens, HeadingTree.markers] using h
  obtain ⟨hname, h⟩ := List.cons.inj h
  obtain ⟨hparallel, h⟩ := option_unique hd.parallel hd'.parallel
    (.append hf (by decide) (.append hm (by decide) (hr.mono (by decide))))
    (.append hf' (by decide) (.append hm' (by decide) (hr'.mono (by decide)))) h
  obtain ⟨hfinal, h⟩ := option_unique hd.final hd'.final (.append hm (by decide) (hr.mono (by decide)))
    (.append hm' (by decide) (hr'.mono (by decide))) h
  obtain ⟨hinitial, h⟩ := option_unique hd.initial hd'.initial (hr.mono (by decide)) (hr'.mono (by decide)) h
  exact ⟨HeadingTree.mk.injEq .. ▸ ⟨hname, hparallel, hfinal, hinitial⟩, h⟩

theorem TransitionTree.unique {l l' : TransitionTree} {r r' : List Token} (hl : l.Valid) (hl' : l'.Valid)
    (hr : Clear [.condition, .action] r) (hr' : Clear [.condition, .action] r')
    (h : l.tokens ++ r = l'.tokens ++ r') : l = l' ∧ r = r' := by
  obtain ⟨event, arr, dest, guard, actions⟩ := l
  obtain ⟨event', arr', dest', guard', actions'⟩ := l'
  have noName : ∀ {a : Token} {ts : List Token}, a.kind = .arrow → Clear [.identifier] (a :: ts) := by
    intro a ts ha t ht
    obtain rfl : a = t := Option.some.inj ht
    rw [ha]
    decide
  have h : event.toList ++ arr :: dest :: (guard.toList ++ (actions ++ r)) =
      event'.toList ++ arr' :: dest' :: (guard'.toList ++ (actions' ++ r')) := by
    simpa [TransitionTree.tokens, TransitionTree.tail] using h
  obtain ⟨hevent, h⟩ := option_unique hl.event hl'.event (noName hl.arrow) (noName hl'.arrow) h
  obtain ⟨harr, h⟩ := List.cons.inj h
  obtain ⟨hto, h⟩ := List.cons.inj h
  obtain ⟨hguard, h⟩ := option_unique hl.guard hl'.guard (.append hl.actions (by decide) (hr.mono (by decide)))
    (.append hl'.actions (by decide) (hr'.mono (by decide))) h
  obtain ⟨hacts, h⟩ := run_unique hl.actions hl'.actions (hr.mono (by decide)) (hr'.mono (by decide)) h
  exact ⟨TransitionTree.mk.injEq .. ▸ ⟨hevent, harr, hto, hguard, hacts⟩, h⟩

/-- The end of a block, or of the input, comes first. -/
def Closing (r : List Token) : Prop := ∀ t ∈ r.head?, t.kind = .dedent

theorem Closing.nil : Closing [] := fun t ht => by cases ht

theorem Closing.cons {t : Token} {ts : List Token} (ht : t.kind = .dedent) : Closing (t :: ts) := by
  intro u hu
  obtain rfl : t = u := Option.some.inj hu
  exact ht

theorem Closing.clear {r : List Token} (h : Closing r) : Clear inner r := by
  intro t ht
  rw [h t ht]
  decide

theorem BodyTree.Valid.clear {b : BodyTree} {r : List Token} (hb : b.Valid) (hr : Closing r) :
    Clear inner (b.tokens ++ r) := by
  cases hts : b.tokens with
  | nil => exact hr.clear
  | cons a ts =>
    intro t ht
    obtain rfl : a = t := Option.some.inj ht
    rcases hb.head a (by simp [hts]) with hk | ⟨l, rest, rfl, -, rfl⟩
    · rw [hk]
      decide
    · rw [hb.1.arrow]
      decide

theorem BodyTree.Valid.eq_nil {b : BodyTree} {r r' : List Token} (hb : b.Valid) (hr : Closing r)
    (h : r = b.tokens ++ r') : b = .nil := by
  have hhead : ∀ a ∈ b.tokens.head?, a.kind = .dedent := by
    intro a ha
    refine hr a ?_
    rw [h, List.head?_append, ha]
    rfl
  cases b with
  | nil => rfl
  | transition l rest =>
    cases he : l.event with
    | none =>
      have := hhead l.arrow (by simp [BodyTree.tokens, TransitionTree.tokens, he])
      rw [hb.1.arrow] at this
      cases this
    | some e =>
      have := hhead e (by simp [BodyTree.tokens, TransitionTree.tokens, he])
      rw [hb.1.event e he] at this
      cases this
  | state s rest =>
    obtain ⟨tl, htl⟩ := s.tokens_eq
    have := hhead s.heading.name (by simp [BodyTree.tokens, htl])
    rw [hb.1.heading.name] at this
    cases this

/-- **No tokens are a transition and the state of an eager derivation.** -/
theorem transition_ne_state {l : TransitionTree} {s : StateTree} {rest : BodyTree} {r r' : List Token} (hl : l.Valid)
    (hs : s.Valid) (ha : ¬ ArrowBehind s.heading.name (s.tokens ++ rest.tokens).tail) (hr' : Closing r') :
    l.tokens ++ r ≠ s.tokens ++ (rest.tokens ++ r') := by
  intro h
  obtain ⟨tl, htl⟩ := s.tokens_eq
  have hname : s.heading.name.kind = .identifier := hs.heading.name
  rw [htl, TransitionTree.tokens] at h
  cases he : l.event with
  | none =>
    rw [he] at h
    have harr : l.arrow = s.heading.name := (List.cons.inj h).1
    rw [← harr, hl.arrow] at hname
    cases hname
  | some e =>
    rw [he] at h
    obtain ⟨rfl, h⟩ := List.cons.inj h
    have h : l.arrow :: (l.tail ++ r) = (tl ++ rest.tokens) ++ r' := by simpa using h
    rw [htl, List.cons_append, List.tail_cons] at ha
    cases hts : tl ++ rest.tokens with
    | nil =>
      rw [hts] at h
      have hk := hr' l.arrow (by rw [← List.nil_append r', ← h]; rfl)
      rw [hl.arrow] at hk
      cases hk
    | cons x xs =>
      rw [hts] at h ha
      obtain rfl : l.arrow = x := (List.cons.inj h).1
      have hline : s.heading.name.line = l.arrow.line := hl.line _ (by simp [TransitionTree.tokens, he])
      exact ha ⟨l.arrow, rfl, hl.arrow, hline.symm⟩

theorem clear_indent {o : Token} {r : List Token} (ho : o.kind = .indent) :
    Clear [.parallel, .final, .initial] (o :: r) := by
  intro t ht
  obtain rfl : o = t := Option.some.inj ht
  rw [ho]
  decide

theorem StateTree.tokens_block (d : HeadingTree) (o : Token) (b : BodyTree) (c : Token) (r : List Token) :
    (StateTree.block d o b c).tokens ++ r = d.tokens ++ (o :: (b.tokens ++ (c :: r))) := by
  simp [StateTree.tokens]

/-- **No tokens are a state without a block and one with a block.** -/
theorem bare_ne_block {d d' : HeadingTree} {o c : Token} {b : BodyTree} {r r' : List Token} (hd : d.Valid)
    (hs : (StateTree.block d' o b c).Valid) (hr : Clear inner r) :
    d.tokens ++ r ≠ (StateTree.block d' o b c).tokens ++ r' := by
  intro h
  rw [StateTree.tokens_block] at h
  obtain ⟨-, rfl⟩ := HeadingTree.unique hd hs.1 (hr.mono (by decide)) (clear_indent hs.2.1) h
  have ho := hr o rfl
  rw [hs.2.1] at ho
  exact ho (by decide)

mutual

theorem StateTree.unique : ∀ {s s' : StateTree} {r r' : List Token}, s.Valid → s.Eager → s'.Valid → s'.Eager →
    Clear inner r → Clear inner r' → s.tokens ++ r = s'.tokens ++ r' → s = s' ∧ r = r'
  | .bare d, .bare d', r, r', hs, _, hs', _, hr, hr', h => by
    obtain ⟨rfl, rfl⟩ := HeadingTree.unique hs hs' (hr.mono (by decide)) (hr'.mono (by decide)) h
    exact ⟨rfl, rfl⟩
  | .bare _, .block _ _ _ _, _, _, hs, _, hs', _, hr, _, h => absurd h (bare_ne_block hs hs' hr)
  | .block _ _ _ _, .bare _, _, _, hs, _, hs', _, _, hr', h => absurd h.symm (bare_ne_block hs' hs hr')
  | .block d o b c, .block d' o' b' c', r, r', hs, es, hs', es', _, _, h => by
    rw [StateTree.tokens_block, StateTree.tokens_block] at h
    obtain ⟨rfl, hblock⟩ := HeadingTree.unique hs.1 hs'.1 (clear_indent hs.2.1) (clear_indent hs'.2.1) h
    obtain ⟨rfl, hbody⟩ := List.cons.inj hblock
    obtain ⟨rfl, hend⟩ := BodyTree.unique hs.2.2.1 es hs'.2.2.1 es' (.cons hs.2.2.2) (.cons hs'.2.2.2) hbody
    obtain ⟨rfl, rfl⟩ := List.cons.inj hend
    exact ⟨rfl, rfl⟩

theorem BodyTree.unique : ∀ {b b' : BodyTree} {r r' : List Token}, b.Valid → b.Eager → b'.Valid → b'.Eager →
    Closing r → Closing r' → b.tokens ++ r = b'.tokens ++ r' → b = b' ∧ r = r'
  | .nil, b', r, r', _, _, hb', _, hr, _, h => by
    obtain rfl := hb'.eq_nil hr h
    exact ⟨rfl, h⟩
  | b, .nil, r, r', hb, _, _, _, _, hr', h => by
    obtain rfl := hb.eq_nil hr' h.symm
    exact ⟨rfl, h⟩
  | .transition l rest, .transition l' rest', r, r', hb, eb, hb', eb', hr, hr', h => by
    simp only [BodyTree.tokens, List.append_assoc] at h
    obtain ⟨rfl, hrest⟩ := TransitionTree.unique hb.1 hb'.1 ((hb.2.clear hr).mono (by decide))
      ((hb'.2.clear hr').mono (by decide)) h
    obtain ⟨rfl, rfl⟩ := BodyTree.unique hb.2 eb hb'.2 eb' hr hr' hrest
    exact ⟨rfl, rfl⟩
  | .transition l rest, .state s' rest', r, r', hb, _, hb', eb', _, hr', h => by
    simp only [BodyTree.tokens, List.append_assoc] at h
    exact absurd h (transition_ne_state hb.1 hb'.1 eb'.2.1 hr')
  | .state s rest, .transition l' rest', r, r', hb, eb, hb', _, hr, _, h => by
    simp only [BodyTree.tokens, List.append_assoc] at h
    exact absurd h.symm (transition_ne_state hb'.1 hb.1 eb.2.1 hr)
  | .state s rest, .state s' rest', r, r', hb, eb, hb', eb', hr, hr', h => by
    simp only [BodyTree.tokens, List.append_assoc] at h
    obtain ⟨rfl, hrest⟩ := StateTree.unique hb.1 eb.1 hb'.1 eb'.1 (hb.2.clear hr) (hb'.2.clear hr') h
    obtain ⟨rfl, rfl⟩ := BodyTree.unique hb.2 eb.2.2 hb'.2 eb'.2.2 hr hr' hrest
    exact ⟨rfl, rfl⟩

end

/-- States one behind another are a block without transitions. -/
def BodyTree.ofStates : List StateTree → BodyTree
  | [] => .nil
  | s :: ss => .state s (ofStates ss)

theorem BodyTree.ofStates_tokens : ∀ ss : List StateTree, (ofStates ss).tokens = ss.flatMap StateTree.tokens
  | [] => rfl
  | s :: ss => by rw [ofStates, BodyTree.tokens, ofStates_tokens ss, List.flatMap_cons]

theorem BodyTree.ofStates_valid : ∀ {ss : List StateTree}, (∀ s ∈ ss, s.Valid) → (ofStates ss).Valid
  | [], _ => trivial
  | s :: _, h => ⟨h s List.mem_cons_self, ofStates_valid fun s' hs' => h s' (List.mem_cons_of_mem s hs')⟩

theorem BodyTree.ofStates_eager : ∀ {ss : List StateTree}, (∀ s ∈ ss, s.Valid) → (∀ s ∈ ss, s.Eager) →
    (ofStates ss).Eager
  | [], _, _ => trivial
  | s :: ss, hv, he => by
    obtain ⟨hs, hss⟩ := List.forall_mem_cons.1 hv
    obtain ⟨es, ess⟩ := List.forall_mem_cons.1 he
    refine ⟨es, fun ha => ?_, ofStates_eager hss ess⟩
    obtain ⟨_, _, _, _, hrest, -, -⟩ := ha.shape hs (ofStates_valid hss)
    cases ss <;> cases hrest

theorem BodyTree.ofStates_inj : ∀ {ss ss' : List StateTree}, ofStates ss = ofStates ss' → ss = ss'
  | [], [], _ => rfl
  | s :: ss, s' :: ss', h => by
    obtain ⟨rfl, hss⟩ := BodyTree.state.inj h
    rw [ofStates_inj hss]

theorem states_unique {ss ss' : List StateTree} {r r' : List Token} (hv : ∀ s ∈ ss, s.Valid) (he : ∀ s ∈ ss, s.Eager)
    (hv' : ∀ s ∈ ss', s.Valid) (he' : ∀ s ∈ ss', s.Eager) (hr : Closing r) (hr' : Closing r')
    (h : ss.flatMap StateTree.tokens ++ r = ss'.flatMap StateTree.tokens ++ r') : ss = ss' ∧ r = r' := by
  rw [← BodyTree.ofStates_tokens, ← BodyTree.ofStates_tokens] at h
  obtain ⟨hss, hrest⟩ := BodyTree.unique (BodyTree.ofStates_valid hv) (BodyTree.ofStates_eager hv he)
    (BodyTree.ofStates_valid hv') (BodyTree.ofStates_eager hv' he') hr hr' h
  exact ⟨BodyTree.ofStates_inj hss, hrest⟩

/-- A chart without a frame does not begin as one with a frame does. -/
theorem frame_ne {d d' : ChartTree} {p : Token × Token} (hd : d.Valid) (hd' : d'.Valid) (hf : d.frame = none)
    (hf' : d'.frame = some p) : d.tokens ≠ d'.tokens := by
  intro h
  obtain ⟨tl, htl⟩ := d.first.tokens_eq
  have hname : d.first.heading.name.kind = .identifier := (hd.states _ List.mem_cons_self).heading.name
  have hp : p.1.kind = .indent := (hd'.frame p hf').1
  simp only [ChartTree.tokens, hf, hf', ChartTree.states, List.flatMap_cons, htl, List.cons_append] at h
  rw [(List.cons.inj h).1, hp] at hname
  cases hname

/-- **A list of tokens has one eager derivation at most.** -/
theorem ChartTree.unique {d d' : ChartTree} (hd : d.Valid) (he : d.Eager) (hd' : d'.Valid) (he' : d'.Eager)
    (h : d.tokens = d'.tokens) : d = d' := by
  have hstates : d.frame = d'.frame → d.states = d'.states → d = d' := by
    rintro hf hs
    obtain ⟨_, _, _⟩ := d
    obtain ⟨_, _, _⟩ := d'
    obtain ⟨rfl, rfl⟩ := List.cons.inj hs
    obtain rfl := hf
    rfl
  cases hf : d.frame with
  | none =>
    cases hf' : d'.frame with
    | some p' => exact absurd h (frame_ne hd hd' hf hf')
    | none =>
      simp only [ChartTree.tokens, hf, hf'] at h
      rw [← List.append_nil (d.states.flatMap _), ← List.append_nil (d'.states.flatMap _)] at h
      exact hstates (hf.trans hf'.symm) (states_unique hd.states he hd'.states he' .nil .nil h).1
  | some p =>
    cases hf' : d'.frame with
    | none => exact absurd h.symm (frame_ne hd' hd hf' hf)
    | some p' =>
      obtain ⟨o, c⟩ := p
      obtain ⟨o', c'⟩ := p'
      simp only [ChartTree.tokens, hf, hf'] at h
      obtain ⟨rfl, hblock⟩ := List.cons.inj h
      obtain ⟨hs, hc⟩ := states_unique hd.states he hd'.states he' (.cons (hd.frame (o, c) hf).2)
        (.cons (hd'.frame (o, c') hf').2) hblock
      obtain ⟨rfl, -⟩ := List.cons.inj hc
      exact hstates (hf.trans hf'.symm) hs

end Grammar
end Statechart
