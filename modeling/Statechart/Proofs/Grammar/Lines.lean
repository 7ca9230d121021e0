import Statechart.Grammar.Basic
import Statechart.Proofs.Grammar.Derivation
import Statechart.Proofs.Rule.Faults
import Statechart.Proofs.Rule.Spans
/-!
# Lines — what the rules for a heading and a transition read

Both rules read one line.  Each gives a value exactly for the tokens of a valid tree with that value, as far as what
follows does not belong to the line too (`heading_gives`, `transition_gives`).
-/
namespace Statechart
namespace Grammar

open Matcher (Gives Fails Repeats look fail)

variable {tokens : Array Token} {i j : Nat}

/-- Every name, guard and action of an array of tokens has its text. -/
def AllWorded (tokens : Array Token) : Prop := ∀ t ∈ tokens, t.Worded

theorem AllWorded.text_eq {t : Token} (hw : AllWorded tokens) (h : tokens[i]? = some t)
    (hk : t.kind = .identifier ∨ t.kind = .condition ∨ t.kind = .action) : t.text = some t.word :=
  (hw t (Array.mem_of_getElem? h)).text_eq hk

/-- The kind of the token at a position is not `kind`. -/
def Lacks (tokens : Array Token) (i : Nat) (kind : TokenKind) : Prop := ∀ t, tokens[i]? = some t → t.kind ≠ kind

theorem Lacks.of_kind {t : Token} {kind : TokenKind} (h : tokens[i]? = some t) (hk : t.kind ≠ kind) :
    Lacks tokens i kind := by
  intro u hu
  rw [h, Option.some.injEq] at hu
  exact hu ▸ hk

theorem gives_word {kind : TokenKind} {o : Option Text} :
    ((Rule.expect kind).map Token.text).run.Gives tokens i o j ↔
      ∃ t, tokens[i]? = some t ∧ t.kind = kind ∧ t.text = o ∧ j = i + 1 := by
  simp only [Rule.gives_map, Rule.expect, Matcher.gives_expect]
  constructor
  · rintro ⟨t, ⟨ht, hk, rfl⟩, rfl⟩
    exact ⟨t, ht, hk, rfl, rfl⟩
  · rintro ⟨t, ht, hk, rfl, rfl⟩
    exact ⟨t, ⟨ht, hk, rfl⟩, rfl⟩

theorem fails_word {kind : TokenKind} :
    ((Rule.expect kind).map Token.text).run.Fails tokens i ↔ Lacks tokens i kind := by
  rw [Rule.fails_map]
  exact Matcher.fails_expect

theorem fails_token {kind : TokenKind} : (Rule.expect kind).run.Fails tokens i ↔ Lacks tokens i kind :=
  Matcher.fails_expect

@[simp] theorem gives_present {o : Option Text} {s : Text} :
    (present o).Gives tokens i s j ↔ o = some s ∧ i = j := by
  cases o with
  | none => simp [present]
  | some t => simp [present]

theorem gives_mapM_present {l : List (Option Text)} {as : List Text} :
    (l.mapM present).Gives tokens i as j ↔ l = as.map some ∧ i = j := by
  have loop : ∀ (l : List (Option Text)) (before : List Text) {i : Nat},
      (List.mapM.loop present l before).Gives tokens i as j ↔
        (∃ bs, as = before.reverse ++ bs ∧ l = bs.map some) ∧ i = j := by
    intro l
    induction l with
    | nil =>
      intro before i
      simp only [List.mapM.loop, Matcher.gives_pure, List.nil_eq, List.map_eq_nil_iff, exists_eq_right, List.append_nil]
      exact and_congr_left fun _ => eq_comm
    | cons o l ih =>
      intro before i
      simp only [List.mapM.loop, Matcher.gives_bind, gives_present, ih, List.reverse_cons]
      constructor
      · rintro ⟨s, _, ⟨rfl, rfl⟩, ⟨bs, rfl, rfl⟩, rfl⟩
        exact ⟨⟨s :: bs, by simp, rfl⟩, rfl⟩
      · rintro ⟨⟨bs, rfl, hl⟩, rfl⟩
        obtain ⟨s, bs', rfl, rfl, rfl⟩ := List.map_eq_cons_iff.1 hl.symm
        exact ⟨s, i, ⟨rfl, rfl⟩, ⟨bs', by simp, rfl⟩, rfl⟩
  rw [List.mapM, loop]
  simp

/-- What the first token behind a position lacks, if neither the tokens up to the next position nor the one there are
of a kind. -/
theorem Lacks.of_spans {ts : List Token} {kind : TokenKind} (h : Spans tokens i ts j) (hts : ∀ t ∈ ts, t.kind ≠ kind)
    (hj : Lacks tokens j kind) : Lacks tokens i kind := by
  cases ts with
  | nil =>
    obtain rfl : i = j := h
    exact hj
  | cons t ts => exact .of_kind h.1 (hts t List.mem_cons_self)

/-! ## Headings -/

/-- Nothing at a position belongs to a heading in front of it. -/
structure NoMarker (tokens : Array Token) (i : Nat) : Prop where
  parallel : Lacks tokens i .parallel
  final : Lacks tokens i .final
  initial : Lacks tokens i .initial

/-- A marker, read if it is there. -/
theorem gives_marker {kind : TokenKind} {o : Option Token} :
    (Rule.expect kind).run.optional.Gives tokens i o j ↔
      (∀ t ∈ o, t.kind = kind) ∧ Spans tokens i o.toList j ∧ (o = none → Lacks tokens i kind) := by
  rw [Matcher.gives_optional, fails_token]
  cases o with
  | none => simp
  | some t =>
    simp only [Rule.expect, Option.some.injEq, Matcher.gives_expect, exists_eq_left', reduceCtorEq, false_and, or_false,
      Option.mem_def, forall_eq', Option.toList_some, spans_cons, spans_nil, false_imp_iff, and_true]
    constructor
    · rintro ⟨ht, hk, rfl⟩
      exact ⟨hk, ht, rfl⟩
    · rintro ⟨hk, ht, rfl⟩
      exact ⟨ht, hk, rfl⟩

theorem heading_run : heading.run = (look >>= fun o => match o with
    | none => fail (.wanted .identifier)
    | some token => headingAt token) := rfl

/-- **What the rule for a heading reads is a heading.** -/
theorem heading_sound (hw : AllWorded tokens) {h : Heading} (hg : heading.run.Gives tokens i h j) :
    ∃ d : HeadingTree, d.Valid ∧ Spans tokens i d.tokens j ∧ d.value = h := by
  simp only [heading_run, Matcher.gives_bind, Matcher.gives_look] at hg
  obtain ⟨o, _, ⟨ho, rfl⟩, hg⟩ := hg
  cases o with
  | none => exact absurd hg Matcher.not_gives_fail
  | some token =>
    simp only [headingAt, identifier, parallelMarker, finalMarker, initialMarker, Matcher.gives_bind, gives_word,
      gives_marker, gives_present, Matcher.gives_pure] at hg
    obtain ⟨_, _, ⟨t, ht, hk, rfl, rfl⟩, p, j₁, ⟨hp, sp, -⟩, f, j₂, ⟨hf, sf, -⟩, m, j₃, ⟨hm, sm, -⟩, _, _,
      ⟨hname, rfl⟩, rfl, rfl⟩ := hg
    rw [ho, Option.some.injEq] at ht
    subst ht
    rw [hw.text_eq ho (.inl hk), Option.some.injEq] at hname
    subst hname
    exact ⟨⟨token, p, f, m⟩, ⟨hk, hp, hf, hm⟩, ⟨ho, sp.append (sf.append sm)⟩, rfl⟩

/-- **A heading with no marker behind it is what the rule reads.** -/
theorem heading_complete (hw : AllWorded tokens) {d : HeadingTree} (hd : d.Valid) (h : Spans tokens i d.tokens j)
    (hj : NoMarker tokens j) : heading.run.Gives tokens i d.value j := by
  obtain ⟨ht, h⟩ := h
  obtain ⟨j₁, sp, h⟩ := spans_append.1 h
  obtain ⟨j₂, sf, sm⟩ := spans_append.1 h
  have noFinal : Lacks tokens j₁ .parallel := by
    refine .of_spans (sf.append sm) (fun t ht => ?_) hj.parallel
    rcases List.mem_append.1 ht with ht | ht
    · simp [hd.final t (Option.mem_toList.1 ht)]
    · simp [hd.initial t (Option.mem_toList.1 ht)]
  have noInitial : Lacks tokens j₂ .final :=
    .of_spans sm (fun t ht => by simp [hd.initial t (Option.mem_toList.1 ht)]) hj.final
  simp only [heading_run, Matcher.gives_bind, Matcher.gives_look]
  refine ⟨some d.name, i, ⟨ht, rfl⟩, ?_⟩
  simp only [headingAt, identifier, parallelMarker, finalMarker, initialMarker, Matcher.gives_bind, gives_word,
    gives_marker, gives_present, Matcher.gives_pure]
  have none_at : ∀ {o : Option Token} {k k' : Nat} {kind : TokenKind},
      Spans tokens k o.toList k' → Lacks tokens k' kind → o = none → Lacks tokens k kind := by
    rintro _ k k' kind hs hl rfl
    obtain rfl : k = k' := hs
    exact hl
  exact ⟨_, _, ⟨d.name, ht, hd.name, rfl, rfl⟩, d.parallel, j₁, ⟨hd.parallel, sp, none_at sp noFinal⟩, d.final, j₂,
    ⟨hd.final, sf, none_at sf noInitial⟩, d.initial, j, ⟨hd.initial, sm, none_at sm hj.initial⟩, d.name.word, j,
    ⟨hw.text_eq ht (.inl hd.name), rfl⟩, rfl, rfl⟩

theorem heading_fails (h : Lacks tokens i .identifier) : heading.run.Fails tokens i := by
  simp only [heading_run, Matcher.fails_bind, Matcher.gives_look]
  refine .inr ⟨tokens[i]?, i, ⟨rfl, rfl⟩, ?_⟩
  split
  · exact Matcher.fails_fail
  · exact Matcher.fails_bind.2 (.inl (fails_word.2 h))

/-! ## Transitions -/

/-- Nothing at a position belongs to a transition in front of it. -/
structure NoLabel (tokens : Array Token) (i : Nat) : Prop where
  condition : Lacks tokens i .condition
  action : Lacks tokens i .action

theorem gives_wordOn {kind : TokenKind} {line : Int} {o : Option Text} :
    (((Rule.expect kind).map Token.text).onLine line).run.Gives tokens i o j ↔
      ∃ t, tokens[i]? = some t ∧ t.kind = kind ∧ t.line = line ∧ t.text = o ∧ j = i + 1 := by
  rw [Rule.gives_onLine, gives_word]
  constructor
  · rintro ⟨hl, t, ht, hk, ho, hj⟩
    exact ⟨t, ht, hk, hl t ht, ho, hj⟩
  · rintro ⟨t, ht, hk, hl, ho, hj⟩
    refine ⟨fun u hu => ?_, t, ht, hk, ho, hj⟩
    rw [ht, Option.some.injEq] at hu
    exact hu ▸ hl

theorem gives_tokenOn {kind : TokenKind} {line : Int} {t : Token} :
    ((Rule.expect kind).onLine line).run.Gives tokens i t j ↔
      tokens[i]? = some t ∧ t.kind = kind ∧ t.line = line ∧ j = i + 1 := by
  rw [Rule.gives_onLine, Rule.expect, Matcher.gives_expect]
  constructor
  · rintro ⟨hl, ht, hk, hj⟩
    exact ⟨ht, hk, hl t ht, hj⟩
  · rintro ⟨ht, hk, hl, hj⟩
    refine ⟨fun u hu => ?_, ht, hk, hj⟩
    rw [ht, Option.some.injEq] at hu
    exact hu ▸ hl

theorem fails_wordOn {kind : TokenKind} {line : Int} (h : Lacks tokens i kind) :
    (((Rule.expect kind).map Token.text).onLine line).run.Fails tokens i :=
  Rule.fails_onLine.2 (.inr (fails_word.2 h))

/-- **A repetition of labels reads the labels of its kind and line.** -/
theorem spans_of_repeats {kind : TokenKind} {line : Int} {as : List (Option Text)}
    (h : Repeats (((Rule.expect kind).map Token.text).onLine line).run tokens i as j) :
    ∃ ts, Spans tokens i ts j ∧ (∀ t ∈ ts, t.kind = kind ∧ t.line = line) ∧ as = ts.map Token.text := by
  induction h with
  | nil i => exact ⟨[], rfl, by simp, rfl⟩
  | cons first inside moves rest ih =>
    obtain ⟨t, ht, hk, hl, rfl, rfl⟩ := gives_wordOn.1 first
    obtain ⟨ts, hs, hts, rfl⟩ := ih
    exact ⟨t :: ts, ⟨ht, hs⟩, List.forall_mem_cons.2 ⟨⟨hk, hl⟩, hts⟩, rfl⟩

theorem spans_of_many {kind : TokenKind} {line : Int} {as : List (Option Text)}
    (h : (((Rule.expect kind).map Token.text).onLine line).run.many.Gives tokens i as j) :
    ∃ ts, Spans tokens i ts j ∧ (∀ t ∈ ts, t.kind = kind ∧ t.line = line) ∧ as = ts.map Token.text := by
  refine spans_of_repeats (Matcher.repeats_of_gives_many ?_ h)
  intro k a k' hk
  obtain ⟨_, -, -, -, -, rfl⟩ := gives_wordOn.1 hk
  exact Nat.le_succ k

theorem repeats_of_spans {kind : TokenKind} {line : Int} : ∀ {ts : List Token} {i : Nat}, Spans tokens i ts j →
    (∀ t ∈ ts, t.kind = kind ∧ t.line = line) →
      Repeats (((Rule.expect kind).map Token.text).onLine line).run tokens i (ts.map Token.text) j
  | [], i, h, _ => by
    obtain rfl : i = j := h
    exact .nil i
  | t :: ts, i, ⟨ht, h⟩, hts => by
    obtain ⟨⟨hk, hl⟩, hts⟩ := List.forall_mem_cons.1 hts
    refine .cons (gives_wordOn.2 ⟨t, ht, hk, hl, rfl, rfl⟩) ?_ (Nat.lt_succ_self i) (repeats_of_spans h hts)
    exact (Array.getElem?_eq_some_iff.1 ht).1

/-- A label or a name, read if it is there. -/
theorem gives_optionalWord {kind : TokenKind} {o : Option (Option Text)} :
    ((Rule.expect kind).map Token.text).run.optional.Gives tokens i o j ↔
      ∃ m : Option Token, o = m.map Token.text ∧ (∀ t ∈ m, t.kind = kind) ∧ Spans tokens i m.toList j ∧
        (m = none → Lacks tokens i kind) := by
  rw [Matcher.gives_optional, fails_word]
  constructor
  · rintro (⟨a, rfl, h⟩ | ⟨rfl, rfl, h⟩)
    · obtain ⟨t, ht, hk, rfl, rfl⟩ := gives_word.1 h
      exact ⟨some t, rfl, by simp [hk], ⟨ht, rfl⟩, by simp⟩
    · exact ⟨none, rfl, by simp, rfl, fun _ => h⟩
  · rintro ⟨m, rfl, hk, hs, hl⟩
    cases m with
    | none => exact .inr ⟨rfl, hs, hl rfl⟩
    | some t =>
      obtain ⟨ht, rfl⟩ := hs
      exact .inl ⟨t.text, rfl, gives_word.2 ⟨t, ht, hk t rfl, rfl, rfl⟩⟩

theorem gives_optionalWordOn {kind : TokenKind} {line : Int} {m : Option Token}
    (hm : ∀ t ∈ m, t.kind = kind ∧ t.line = line) (h : Spans tokens i m.toList j) (hj : Lacks tokens j kind) :
    (((Rule.expect kind).map Token.text).onLine line).run.optional.Gives tokens i (m.map Token.text) j := by
  rw [Matcher.gives_optional]
  cases m with
  | none =>
    obtain rfl : i = j := h
    exact .inr ⟨rfl, rfl, fails_wordOn hj⟩
  | some t =>
    obtain ⟨ht, rfl⟩ := h
    obtain ⟨hk, hl⟩ := hm t rfl
    exact .inl ⟨t.text, rfl, gives_wordOn.2 ⟨t, ht, hk, hl, rfl, rfl⟩⟩

theorem spans_of_optionalWordOn {kind : TokenKind} {line : Int} {o : Option (Option Text)}
    (h : (((Rule.expect kind).map Token.text).onLine line).run.optional.Gives tokens i o j) :
    ∃ m : Option Token, o = m.map Token.text ∧ (∀ t ∈ m, t.kind = kind ∧ t.line = line) ∧ Spans tokens i m.toList j ∧
      (m = none → ∀ t, tokens[i]? = some t → t.kind = kind → t.line ≠ line) := by
  rcases Matcher.gives_optional.1 h with ⟨a, rfl, ha⟩ | ⟨rfl, rfl, hf⟩
  · obtain ⟨t, ht, hk, hl, rfl, rfl⟩ := gives_wordOn.1 ha
    exact ⟨some t, rfl, by simp [hk, hl], ⟨ht, rfl⟩, by simp⟩
  · refine ⟨none, rfl, by simp, rfl, fun _ t ht hk => ?_⟩
    rcases Rule.fails_onLine.1 hf with ⟨u, hu, hl⟩ | hf
    · rw [ht, Option.some.injEq] at hu
      exact hu ▸ hl
    · exact absurd hk (fails_word.1 hf t ht)

theorem map_text_eq {ts : List Token} (h : ∀ t ∈ ts, t.text = some t.word) :
    ts.map Token.text = (ts.map Token.word).map some := by
  rw [List.map_map]
  exact List.map_congr_left h

theorem map_text_join {m : Option Token} (h : ∀ t ∈ m, t.text = some t.word) :
    (m.map Token.text).join = m.map Token.word := by
  cases m with
  | none => rfl
  | some t => exact h t rfl

theorem map_text_getD {m : Option Token} (d : Text) (h : ∀ t ∈ m, t.text = some t.word) :
    (m.map Token.text).getD (some d) = some ((m.map Token.word).getD d) := by
  cases m with
  | none => rfl
  | some t => exact h t rfl

/-- The texts of a transition's labels and names are there. -/
theorem TransitionTree.Valid.texts {l : TransitionTree} (hw : AllWorded tokens) (hl : l.Valid)
    (h : Spans tokens i l.tokens j) :
    (∀ t ∈ l.event, t.text = some t.word) ∧ l.target.text = some l.target.word ∧
      (∀ t ∈ l.guard, t.text = some t.word) ∧ ∀ t ∈ l.actions, t.text = some t.word := by
  have hworded : ∀ t ∈ l.tokens, t.Worded := fun t ht => hw t (h.mem t ht)
  simp only [TransitionTree.tokens, TransitionTree.tail, List.mem_append, List.mem_cons, Option.mem_toList] at hworded
  refine ⟨fun t ht => ?_, ?_, fun t ht => ?_, fun t ht => ?_⟩
  · exact (hworded t (.inl ht)).text_eq (.inl (hl.event t ht))
  · exact (hworded _ (.inr (.inr (.inl rfl)))).text_eq (.inl hl.target)
  · exact (hworded t (.inr (.inr (.inr (.inl ht))))).text_eq (.inr (.inl (hl.guard t ht)))
  · exact (hworded t (.inr (.inr (.inr (.inr ht))))).text_eq (.inr (.inr (hl.actions t ht)))

/-- Tokens of one line make a transition. -/
theorem TransitionTree.Valid.of_line {line : Int} {event guard : Option Token} {arr dest : Token} {actions : List Token}
    (hevent : ∀ t ∈ event, t.kind = .identifier ∧ t.line = line) (harr : arr.kind = .arrow ∧ arr.line = line)
    (hto : dest.kind = .identifier ∧ dest.line = line) (hguard : ∀ t ∈ guard, t.kind = .condition ∧ t.line = line)
    (hacts : ∀ t ∈ actions, t.kind = .action ∧ t.line = line) (hguarded : event = none → guard ≠ none) :
    (TransitionTree.mk event arr dest guard actions).Valid := by
  refine ⟨fun t ht => (hevent t ht).1, harr.1, hto.1, fun t ht => (hguard t ht).1, fun t ht => (hacts t ht).1,
    fun t ht => ?_, hguarded⟩
  simp only [tokens, tail, List.mem_append, List.mem_cons, Option.mem_toList] at ht
  show t.line = arr.line
  rw [harr.2]
  rcases ht with ht | rfl | rfl | ht | ht
  · exact (hevent t ht).2
  · exact harr.2
  · exact hto.2
  · exact (hguard t ht).2
  · exact (hacts t ht).2

theorem isGuardOn_iff {line : Int} {o : Option Token} :
    isGuardOn line o = true ↔ ∃ t, o = some t ∧ t.kind = .condition ∧ t.line = line := by
  cases o with
  | none => simp [isGuardOn]
  | some t => simp [isGuardOn]

theorem gives_entryOf {event : Option (Option Text)} {target cond : Option Text} {actions : List (Option Text)}
    {e : Entry} :
    (entryOf event target cond actions).Gives tokens i e j ↔
      ∃ dest name names, target = some dest ∧ event.getD (some Keyed.collecting) = some name ∧
        actions = names.map some ∧
        e = ⟨name, { target := dest, cond, actions := if names.isEmpty then none else some names }⟩ ∧ i = j := by
  simp only [entryOf, Matcher.gives_bind, gives_present, gives_mapM_present, Matcher.gives_pure]
  constructor
  · rintro ⟨dest, _, ⟨hto, rfl⟩, name, _, ⟨hname, rfl⟩, names, _, ⟨hnames, rfl⟩, rfl, rfl⟩
    exact ⟨dest, name, names, hto, hname, hnames, rfl, rfl⟩
  · rintro ⟨dest, name, names, hto, hname, hnames, rfl, rfl⟩
    exact ⟨dest, i, ⟨hto, rfl⟩, name, i, ⟨hname, rfl⟩, names, i, ⟨hnames, rfl⟩, rfl, rfl⟩

theorem transition_run : transition.run = (look >>= fun first => identifier.run.optional >>= fun event =>
    (arrow.onLine (lineOf first)).run >>= fun _ => (identifier.onLine (lineOf first)).run >>= fun target =>
    look >>= fun next =>
      if event.join.getD [] = [] ∧ isGuardOn (lineOf first) next = false then fail (.unguarded target)
      else (condition.onLine (lineOf first)).run.optional >>= fun cond =>
        (action.onLine (lineOf first)).run.many >>= fun actions => entryOf event target cond.join actions) := rfl

/-- **What the rule for a transition reads is a transition.** -/
theorem transition_sound (hw : AllWorded tokens) {e : Entry} (h : transition.run.Gives tokens i e j) :
    ∃ l : TransitionTree, l.Valid ∧ Spans tokens i l.tokens j ∧ l.value = e := by
  rw [transition_run] at h
  simp only [identifier, arrow, Matcher.gives_bind, Matcher.gives_look, gives_optionalWord, gives_wordOn,
    gives_tokenOn] at h
  obtain ⟨first, _, ⟨hfirst, rfl⟩, _, j₁, ⟨event, rfl, hevent, sevent, -⟩, arr, j₂, ⟨harr, hkarr, hlarr, rfl⟩,
    target, j₃, ⟨dest, hto, hkto, hlto, rfl, rfl⟩, next, _, ⟨hnext, rfl⟩, h⟩ := h
  split at h
  · exact absurd h Matcher.not_gives_fail
  · rename_i hguarded
    simp only [condition, action, Matcher.gives_bind, gives_entryOf] at h
    obtain ⟨_, j₄, hcond, _, j₅, hactions, _, _, names, hto', hname, hnames, rfl, rfl⟩ := h
    obtain ⟨guard, rfl, hguard, sguard, lguard⟩ := spans_of_optionalWordOn hcond
    obtain ⟨actions, sactions, hacts, hnames'⟩ := spans_of_many hactions
    have hlarr' : ∀ t ∈ event, t.line = lineOf first := by
      rintro t ht
      obtain rfl : event = some t := ht
      rw [← hfirst, sevent.1, lineOf]
    have hl : TransitionTree.Valid ⟨event, arr, dest, guard, actions⟩ := by
      refine .of_line (fun t ht => ⟨hevent t ht, hlarr' t ht⟩) ⟨hkarr, hlarr⟩ ⟨hkto, hlto⟩ hguard hacts fun hn hg => ?_
      obtain rfl : event = none := hn
      have hgo : isGuardOn (lineOf first) next = true := by simpa using hguarded
      obtain ⟨t, rfl, hk, hl⟩ := isGuardOn_iff.1 hgo
      exact lguard hg t hnext hk hl
    have hs : Spans tokens i (TransitionTree.tokens ⟨event, arr, dest, guard, actions⟩) j₅ :=
      sevent.append ⟨harr, hto, sguard.append sactions⟩
    obtain ⟨wevent, wtarget, wguard, wactions⟩ := hl.texts hw hs
    refine ⟨_, hl, hs, ?_⟩
    rw [map_text_getD _ wevent, Option.some.injEq] at hname
    rw [hnames', map_text_eq wactions, List.map_inj_right fun _ _ => Option.some.inj] at hnames
    rw [wtarget, Option.some.injEq] at hto'
    subst hto' hname hnames
    rw [map_text_join wguard]
    simp [TransitionTree.value]

/-- **A transition with no label behind it is what the rule reads.** -/
theorem transition_complete (hw : AllWorded tokens) {l : TransitionTree} (hl : l.Valid) (h : Spans tokens i l.tokens j)
    (hj : NoLabel tokens j) : transition.run.Gives tokens i l.value j := by
  obtain ⟨wevent, wtarget, wguard, wactions⟩ := hl.texts hw h
  obtain ⟨event, arr, dest, guard, actions⟩ := l
  obtain ⟨j₁, sevent, harr, hto, h⟩ := spans_append.1 h
  obtain ⟨j₄, sguard, sactions⟩ := spans_append.1 h
  have hline : ∀ t ∈ event.toList ++ arr :: dest :: (guard.toList ++ actions), t.line = arr.line := hl.line
  have hkarr : arr.kind = .arrow := hl.arrow
  have hfirst : lineOf tokens[i]? = arr.line := by
    cases event with
    | none =>
      obtain rfl : i = j₁ := sevent
      rw [harr, lineOf]
    | some t =>
      rw [sevent.1, lineOf]
      exact hline t (by simp)
  have noEvent : event = none → Lacks tokens i .identifier := by
    rintro rfl
    obtain rfl : i = j₁ := sevent
    exact .of_kind harr (by simp [hkarr])
  have hguard : ∀ t ∈ guard, t.kind = .condition ∧ t.line = arr.line := fun t ht =>
    ⟨hl.guard t ht, hline t (by simp [Option.mem_def.1 ht])⟩
  have hacts : ∀ t ∈ actions, t.kind = .action ∧ t.line = arr.line := fun t ht =>
    ⟨hl.actions t ht, hline t (by simp [ht])⟩
  have noGuard : Lacks tokens j₄ .condition := .of_spans sactions (fun t ht => by simp [(hacts t ht).1]) hj.condition
  have guarded : ¬ ((event.map Token.text).join.getD [] = [] ∧ isGuardOn arr.line tokens[j₁ + 2]? = false) := by
    rintro ⟨he, hg⟩
    rw [map_text_join wevent] at he
    cases event with
    | some t =>
      refine hw t (Array.mem_of_getElem? sevent.1) (.inl (hl.event t rfl)) he
    | none =>
      obtain ⟨t, rfl⟩ := Option.ne_none_iff_exists'.1 (hl.guarded rfl)
      have hgo : isGuardOn arr.line tokens[j₁ + 2]? = true :=
        isGuardOn_iff.2 ⟨t, sguard.1, (hguard t rfl).1, (hguard t rfl).2⟩
      rw [hgo] at hg
      cases hg
  rw [transition_run]
  simp only [identifier, arrow, Matcher.gives_bind, Matcher.gives_look, gives_optionalWord, gives_wordOn, gives_tokenOn]
  refine ⟨tokens[i]?, i, ⟨rfl, rfl⟩, event.map Token.text, j₁, ⟨event, rfl, hl.event, sevent, noEvent⟩, arr, j₁ + 1,
    ⟨harr, hkarr, hfirst.symm, rfl⟩, dest.text, j₁ + 2, ⟨dest, hto, hl.target, ?_, rfl, rfl⟩, tokens[j₁ + 2]?, j₁ + 2,
    ⟨rfl, rfl⟩, ?_⟩
  · rw [hfirst]
    exact hline dest (by simp)
  · rw [hfirst, if_neg guarded]
    simp only [condition, action, Matcher.gives_bind, gives_entryOf]
    refine ⟨guard.map Token.text, j₄, gives_optionalWordOn hguard sguard noGuard, actions.map Token.text, j,
      Matcher.gives_many_of_repeats (repeats_of_spans sactions hacts) (.inr (fails_wordOn hj.action)), dest.word, _, _,
      wtarget, map_text_getD _ wevent, map_text_eq wactions, ?_, rfl⟩
    rw [map_text_join wguard]
    simp [TransitionTree.value]

/-- **Without an arrow behind a name, or in its place, there is no transition.** -/
theorem transition_fails (h : ∀ t, tokens[i]? = some t → t.kind ≠ .arrow ∧
    (t.kind = .identifier → ∀ a, tokens[i + 1]? = some a → a.kind = .arrow → a.line ≠ t.line)) :
    transition.run.Fails tokens i := by
  rw [transition_run, Matcher.fails_bind]
  refine .inr ⟨tokens[i]?, i, Matcher.gives_look.2 ⟨rfl, rfl⟩, ?_⟩
  rw [Matcher.fails_bind]
  by_cases hi : Lacks tokens i .identifier
  · refine .inr ⟨none, i, gives_optionalWord.2 ⟨none, rfl, by simp, rfl, fun _ => hi⟩, ?_⟩
    rw [Matcher.fails_bind]
    exact .inl (Rule.fails_onLine.2 (.inr (fails_token.2 fun t ht => (h t ht).1)))
  · obtain ⟨t, ht, hk⟩ : ∃ t, tokens[i]? = some t ∧ t.kind = .identifier := by simpa [Lacks] using hi
    refine .inr ⟨some t.text, i + 1, gives_optionalWord.2 ⟨some t, rfl, by simp [hk], ⟨ht, rfl⟩, by simp⟩, ?_⟩
    rw [Matcher.fails_bind]
    refine .inl (Rule.fails_onLine.2 ?_)
    by_cases ha : ∃ a, tokens[i + 1]? = some a ∧ a.kind = .arrow
    · obtain ⟨a, ha, hka⟩ := ha
      refine .inl ⟨a, ha, ?_⟩
      rw [ht]
      exact (h t ht).2 hk a ha hka
    · exact .inr (fails_token.2 fun a hat hka => ha ⟨a, hat, hka⟩)

theorem faults_present {o : Option Text} {F : Failure → Prop} : (present o).Faults tokens i F := by
  cases o with
  | none => exact Matcher.faults_unfit
  | some s => exact Matcher.faults_pure

/-- Making an entry of what was read leaves no failures. -/
theorem faults_entryOf {event : Option (Option Text)} {target cond : Option Text} {actions : List (Option Text)}
    {F : Failure → Prop} : (entryOf event target cond actions).Faults tokens i F := by
  have loop : ∀ (l : List (Option Text)) (before : List Text) {i : Nat},
      (List.mapM.loop present l before).Faults tokens i F := by
    intro l
    induction l with
    | nil =>
      intro before i
      exact Matcher.faults_pure
    | cons o l ih =>
      intro before i
      exact faults_present.bind fun _ _ _ => ih _
  refine faults_present.bind fun _ _ _ => ?_
  refine faults_present.bind fun _ _ _ => ?_
  exact (loop actions []).bind fun _ _ _ => Matcher.faults_pure

/-- **A name, an arrow and a target on one line are enough for a transition.** -/
theorem transition_not_fails (hw : AllWorded tokens) {name arr dest : Token} (hname : tokens[i]? = some name)
    (hkname : name.kind = .identifier) (harr : tokens[i + 1]? = some arr) (hkarr : arr.kind = .arrow)
    (hlarr : arr.line = name.line) (hto : tokens[i + 2]? = some dest) (hkto : dest.kind = .identifier)
    (hlto : dest.line = name.line) : ¬ transition.run.Fails tokens i := by
  have hevent : identifier.run.optional.Gives tokens i (some name.text) (i + 1) :=
    gives_optionalWord.2 ⟨some name, rfl, by simp [hkname], ⟨hname, rfl⟩, by simp⟩
  have harrow : (arrow.onLine (lineOf (some name))).run.Gives tokens (i + 1) arr (i + 2) :=
    gives_tokenOn.2 ⟨harr, hkarr, hlarr, rfl⟩
  have htarget : (identifier.onLine (lineOf (some name))).run.Gives tokens (i + 2) dest.text (i + 3) :=
    gives_wordOn.2 ⟨dest, hto, hkto, hlto, rfl, rfl⟩
  have hwname : name.text = some name.word := hw.text_eq hname (.inl hkname)
  rw [transition_run, (Matcher.gives_look.2 ⟨hname, rfl⟩).fails_bind_iff, hevent.fails_bind_iff, harrow.fails_bind_iff,
    htarget.fails_bind_iff, (Matcher.gives_look.2 ⟨rfl, rfl⟩).fails_bind_iff]
  rw [if_neg fun h => hw name (Array.mem_of_getElem? hname) (.inl hkname) (by simpa [hwname] using h.1)]
  refine Matcher.not_fails_bind Matcher.not_fails_optional fun _ _ _ => ?_
  exact Matcher.not_fails_bind Matcher.not_fails_many fun _ _ _ => faults_entryOf.not_fails

end Grammar
end Statechart
