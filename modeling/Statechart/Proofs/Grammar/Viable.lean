import Statechart.Proofs.Grammar.Blocks
import Statechart.Proofs.Grammar.Outcome
/-!
# Viable — how far into a chart a failure can lie

Tokens are viable when they begin a chart.  A rule is only tried where viable tokens end and what it reads may follow
them (`AtState`, `InBlock`), and wherever one of its parts fails, what it has read up to there can be completed.  So no
failure, not even one that was recorded and given up, lies behind the first token that no chart has there.
-/
namespace Statechart
namespace Grammar

open Diagnostic (Reason Report)
open Matcher (Faults Gives)

variable {tokens : Array Token} {ts us : List Token} {i j : Nat}

/-- Tokens that begin a chart. -/
def Viable (ts : List Token) : Prop :=
  ∃ rest, ∃ d : ChartTree, d.Valid ∧ (∀ t ∈ d.tokens, t.Worded) ∧ d.tokens = ts ++ rest

/-- Tokens behind which any states may stand. -/
def AtState (ts : List Token) : Prop :=
  ∀ (s : StateTree) (ss : List StateTree), (∀ s' ∈ s :: ss, s'.Valid) →
    (∀ t ∈ (s :: ss).flatMap StateTree.tokens, t.Worded) → Viable (ts ++ (s :: ss).flatMap StateTree.tokens)

/-- Tokens behind which any statements may stand. -/
def InBlock (ts : List Token) : Prop :=
  ∀ b : BodyTree, b.Valid → (∀ t ∈ b.tokens, t.Worded) → Viable (ts ++ b.tokens)

/-- A token to complete a chart with. -/
def filler (kind : TokenKind) (line : Int) : Token := ⟨kind, line, 1, some ['x']⟩

@[simp] theorem worded_filler (kind : TokenKind) (line : Int) : (filler kind line).Worded :=
  fun _ => List.cons_ne_nil _ _

theorem worded_of_block {t : Token} (h : t.kind = .indent ∨ t.kind = .dedent) : t.Worded := by
  rcases h with h | h <;> simp [Token.Worded, h]

theorem Viable.of_append (h : Viable (ts ++ us)) : Viable ts := by
  obtain ⟨rest, d, hd, hw, htokens⟩ := h
  exact ⟨us ++ rest, d, hd, hw, by rw [htokens, List.append_assoc]⟩

theorem AtState.viable_append (h : AtState ts) {s : StateTree} (hs : s.Valid) (hw : ∀ t ∈ s.tokens, t.Worded) :
    Viable (ts ++ s.tokens) := by
  simpa using h s [] (by simpa using hs) (by simpa using hw)

theorem AtState.viable (h : AtState ts) : Viable ts := by
  have hs := @AtState.viable_append ts h (.bare { name := filler .identifier 1 }) ⟨rfl, by simp, by simp, by simp⟩
    (by simp [StateTree.tokens, HeadingTree.tokens, HeadingTree.markers])
  exact hs.of_append

theorem AtState.state (h : AtState ts) {s : StateTree} (hs : s.Valid) (hw : ∀ t ∈ s.tokens, t.Worded) :
    AtState (ts ++ s.tokens) := by
  intro s' ss hss hws
  rw [List.append_assoc]
  exact h s (s' :: ss) (List.forall_mem_cons.2 ⟨hs, hss⟩) (List.forall_mem_append.2 ⟨hw, hws⟩)

theorem InBlock.viable (h : InBlock ts) : Viable ts := by
  simpa [BodyTree.tokens] using h .nil trivial (by simp [BodyTree.tokens])

theorem InBlock.transition (h : InBlock ts) {l : TransitionTree} (hl : l.Valid) (hw : ∀ t ∈ l.tokens, t.Worded) :
    InBlock (ts ++ l.tokens) := by
  intro b hb hwb
  rw [List.append_assoc]
  exact h (.transition l b) ⟨hl, hb⟩ (List.forall_mem_append.2 ⟨hw, hwb⟩)

theorem InBlock.state (h : InBlock ts) {s : StateTree} (hs : s.Valid) (hw : ∀ t ∈ s.tokens, t.Worded) :
    InBlock (ts ++ s.tokens) := by
  intro b hb hwb
  rw [List.append_assoc]
  exact h (.state s b) ⟨hs, hb⟩ (List.forall_mem_append.2 ⟨hw, hwb⟩)

theorem InBlock.atState (h : InBlock ts) : AtState ts := by
  intro s ss hss hw
  rw [← BodyTree.ofStates_tokens] at hw ⊢
  exact h _ (BodyTree.ofStates_valid hss) hw

/-- **A heading and the start of a block** lead into a block. -/
theorem AtState.block (h : AtState ts) {d : HeadingTree} {opening : Token} (hd : d.Valid)
    (hw : ∀ t ∈ d.tokens, t.Worded) (ho : opening.kind = .indent) : InBlock (ts ++ (d.tokens ++ [opening])) := by
  intro b hb hwb
  have hs : (StateTree.block d opening b (filler .dedent 1)).Valid := ⟨hd, ho, hb, rfl⟩
  have hstate := h.viable_append hs fun t ht => by
    simp only [StateTree.tokens, List.mem_append, List.mem_cons, List.mem_nil_iff, or_false] at ht
    rcases ht with ht | rfl | ht | rfl
    · exact hw t ht
    · exact worded_of_block (.inl ho)
    · exact hwb t ht
    · exact worded_filler _ _
  have hclosed : Viable ((ts ++ (d.tokens ++ [opening]) ++ b.tokens) ++ [filler .dedent 1]) := by
    simpa [StateTree.tokens] using hstate
  exact hclosed.of_append

/-- **Outermost states begin a chart**, with their frame still open or without one. -/
theorem atState_lead {lead : Option Token} (hlead : ∀ t ∈ lead, t.kind = .indent) : AtState lead.toList := by
  intro s ss hss hw
  cases lead with
  | none => exact ⟨[], ⟨none, s, ss⟩, ⟨hss, by simp⟩, hw, by rw [List.append_nil]; rfl⟩
  | some opening =>
    have ho : opening.kind = .indent := hlead opening rfl
    refine ⟨[filler .dedent 1], ⟨some (opening, filler .dedent 1), s, ss⟩, ⟨hss, ?_⟩, ?_, rfl⟩
    · rintro p ⟨⟩
      exact ⟨ho, rfl⟩
    · intro t ht
      rcases List.mem_cons.1 ht with rfl | ht
      · exact worded_of_block (.inl ho)
      · rcases List.mem_append.1 ht with ht | ht
        · exact hw t ht
        · rw [List.mem_singleton.1 ht]
          exact worded_filler _ _

/-! ## Failures -/

/-- A failure at the end of viable tokens, whose report is on the token behind viable tokens. -/
structure Reached (tokens : Array Token) (f : Failure) : Prop where
  pos : Viable (tokens.toList.take f.pos)
  report : ∃ reason k, Viable (tokens.toList.take k) ∧ f.error.report = Report.on reason tokens[k]?

theorem reached_plain {reason : Reason} (h : Viable (tokens.toList.take i)) :
    Reached tokens ⟨.plain (Report.on reason tokens[i]?), i⟩ := ⟨h, reason, i, h, rfl⟩

/-- Of the failures of a choice the one that got furthest counts. -/
theorem reached_exhausted {names : List Text} {failures : List Failure} (h : Viable (tokens.toList.take i))
    (hall : ∀ f ∈ failures, Reached tokens f) : Reached tokens (Rule.exhausted names failures tokens i) := by
  refine ⟨?_, .noneOf names, i, h, rfl⟩
  rcases Rule.pos_exhausted names failures tokens i with ⟨-, hpos⟩ | ⟨f, hf, hpos, -⟩
  · rwa [hpos]
  · rw [hpos]
    exact (hall f hf).pos

theorem faults_token {kind : TokenKind} (h : Viable (tokens.toList.take i)) :
    (Rule.expect kind).run.Faults tokens i (Reached tokens) := Matcher.faults_expect (reached_plain h)

theorem faults_word {kind : TokenKind} (h : Viable (tokens.toList.take i)) :
    ((Rule.expect kind).map Token.text).run.Faults tokens i (Reached tokens) := Rule.faults_map (faults_token h)

theorem faults_tokenOn {kind : TokenKind} {line : Int} (h : Viable (tokens.toList.take i)) :
    ((Rule.expect kind).onLine line).run.Faults tokens i (Reached tokens) :=
  Rule.faults_onLine (faults_token h) (reached_plain h)

theorem faults_wordOn {kind : TokenKind} {line : Int} (h : Viable (tokens.toList.take i)) :
    (((Rule.expect kind).map Token.text).onLine line).run.Faults tokens i (Reached tokens) :=
  Rule.faults_onLine (faults_word h) (reached_plain h)

/-- What was read of a transition can be completed. -/
theorem InBlock.viable_of_spans (hw : AllWorded tokens) (h : InBlock (tokens.toList.take i)) (hs : Spans tokens i us j)
    {l : TransitionTree} (hl : l.Valid) (rest : List Token) (htokens : l.tokens = us ++ rest)
    (hrest : ∀ t ∈ rest, t.Worded) : Viable (tokens.toList.take j) := by
  have hall : ∀ t ∈ l.tokens, t.Worded := by
    rw [htokens]
    exact List.forall_mem_append.2 ⟨fun t ht => hw t (hs.mem t ht), hrest⟩
  have hviable := (h.transition hl hall).viable
  rw [htokens, ← List.append_assoc, ← hs.take] at hviable
  exact hviable.of_append

/-- The start of a transition, completed by a guard. -/
theorem TransitionTree.Valid.completed {line : Int} {event : Option Token} {arr dest : Token}
    (hevent : ∀ t ∈ event, t.kind = .identifier ∧ t.line = line) (harr : arr.kind = .arrow ∧ arr.line = line)
    (hto : dest.kind = .identifier ∧ dest.line = line) :
    (TransitionTree.mk event arr dest (some (filler .condition line)) []).Valid := by
  refine .of_line hevent harr hto ?_ (by simp) (by simp)
  rintro t ⟨⟩
  exact ⟨rfl, rfl⟩

/-- Behind the target the labels fail where the transition can be completed. -/
theorem labels_faults (hw : AllWorded tokens) (h : InBlock (tokens.toList.take i)) {line : Int} {event : Option Token}
    {arr dest : Token} (hs : Spans tokens i (event.toList ++ [arr, dest]) j)
    (hevent : ∀ t ∈ event, t.kind = .identifier ∧ t.line = line) (harr : arr.kind = .arrow ∧ arr.line = line)
    (hto : dest.kind = .identifier ∧ dest.line = line) (hguarded : event = none → isGuardOn line tokens[j]? = true)
    {next : Option (Option Text) → List (Option Text) → Matcher Entry}
    (hnext : ∀ {cond names k}, (next cond names).Faults tokens k (Reached tokens)) :
    ((condition.onLine line).run.optional >>= fun cond => (action.onLine line).run.many >>= next cond).Faults tokens j
      (Reached tokens) := by
  have hj : Viable (tokens.toList.take j) :=
    h.viable_of_spans hw hs (.completed hevent harr hto) [filler .condition line]
      (by simp [TransitionTree.tokens, TransitionTree.tail]) (by simp)
  refine (faults_wordOn hj).optional.bind fun _ k hcond => ?_
  obtain ⟨guard, rfl, hguard, sguard, lguard⟩ := spans_of_optionalWordOn hcond
  have guarded : event = none → guard ≠ none := by
    intro hn hg
    obtain ⟨t, ht, hk, hl⟩ := isGuardOn_iff.1 (hguarded hn)
    exact lguard hg t ht hk hl
  -- the action that fails stands behind the guard and actions of the same line
  refine (Matcher.faults_many
    (I := fun m => ∃ acts, Spans tokens k acts m ∧ ∀ t ∈ acts, t.kind = .action ∧ t.line = line)
    ?_ ?_ ⟨[], rfl, by simp⟩).bind fun _ _ _ => hnext
  · rintro m ⟨acts, sacts, hacts⟩
    exact faults_wordOn (h.viable_of_spans hw (hs.append (sguard.append sacts))
      (.of_line hevent harr hto hguard hacts guarded) [] (by simp [TransitionTree.tokens, TransitionTree.tail]) (by simp))
  · rintro m _ _ ⟨acts, sacts, hacts⟩ hg
    obtain ⟨t, ht, hk, hl, -, rfl⟩ := gives_wordOn.1 hg
    exact ⟨acts ++ [t], sacts.append ⟨ht, rfl⟩, List.forall_mem_append.2 ⟨hacts, by simpa using ⟨hk, hl⟩⟩⟩

/-- **A transition fails where it can be completed.** -/
theorem transition_faults (hw : AllWorded tokens) (h : InBlock (tokens.toList.take i)) :
    transition.run.Faults tokens i (Reached tokens) := by
  rw [transition_run]
  refine Matcher.faults_look.bind fun first _ hlook => ?_
  obtain ⟨hfirst, rfl⟩ := Matcher.gives_look.1 hlook
  -- at each part: what was read before it, with the rest of a transition on the same line, is a transition
  have sample : ∀ kind, (filler kind (lineOf first)).kind = kind ∧ (filler kind (lineOf first)).line = lineOf first :=
    fun _ => ⟨rfl, rfl⟩
  refine (faults_word h.viable).optional.bind fun _ j hevent => ?_
  obtain ⟨event, rfl, hevent, sevent, -⟩ := gives_optionalWord.1 hevent
  have hevent : ∀ t ∈ event, t.kind = .identifier ∧ t.line = lineOf first := by
    rintro t ⟨⟩
    rw [← hfirst, sevent.1, lineOf]
    exact ⟨hevent t rfl, rfl⟩
  have hj : Viable (tokens.toList.take j) :=
    h.viable_of_spans hw sevent (.completed hevent (sample .arrow) (sample .identifier))
      [filler .arrow (lineOf first), filler .identifier (lineOf first), filler .condition (lineOf first)] rfl (by simp)
  refine (faults_tokenOn hj).bind fun arr _ harrow => ?_
  obtain ⟨harr, hkarr, hlarr, rfl⟩ := gives_tokenOn.1 harrow
  have sarrow : Spans tokens i (event.toList ++ [arr]) (j + 1) := sevent.append ⟨harr, rfl⟩
  have hj : Viable (tokens.toList.take (j + 1)) :=
    h.viable_of_spans hw sarrow (.completed hevent ⟨hkarr, hlarr⟩ (sample .identifier))
      [filler .identifier (lineOf first), filler .condition (lineOf first)]
      (by simp [TransitionTree.tokens, TransitionTree.tail]) (by simp)
  refine (faults_wordOn hj).bind fun _ _ htarget => ?_
  obtain ⟨dest, hto, hkto, hlto, rfl, rfl⟩ := gives_wordOn.1 htarget
  have starget : Spans tokens i (event.toList ++ [arr, dest]) (j + 2) := sevent.append ⟨harr, hto, rfl⟩
  have hj : Viable (tokens.toList.take (j + 2)) :=
    h.viable_of_spans hw starget (.completed hevent ⟨hkarr, hlarr⟩ ⟨hkto, hlto⟩) [filler .condition (lineOf first)]
      (by simp [TransitionTree.tokens, TransitionTree.tail]) (by simp)
  refine Matcher.faults_look.bind fun next _ hlook => ?_
  obtain ⟨rfl, rfl⟩ := Matcher.gives_look.1 hlook
  split
  · exact Matcher.faults_fail (reached_plain hj)
  · rename_i hguarded
    refine labels_faults hw h starget hevent ⟨hkarr, hlarr⟩ ⟨hkto, hlto⟩ ?_ faults_entryOf
    rintro rfl
    simpa using hguarded

/-! ## States and charts -/

theorem AtState.viable_of_spans (hw : AllWorded tokens) (h : AtState (tokens.toList.take i)) {d : HeadingTree}
    (hd : d.Valid) (hs : Spans tokens i d.tokens j) : Viable (tokens.toList.take j) := by
  have hstate : (StateTree.bare d).Valid := hd
  rw [hs.take]
  exact h.viable_append hstate fun t ht => hw t (hs.mem t ht)

/-- **A heading fails where it can be completed.** -/
theorem heading_faults (hw : AllWorded tokens) (h : AtState (tokens.toList.take i)) :
    heading.run.Faults tokens i (Reached tokens) := by
  rw [heading_run]
  refine Matcher.faults_look.bind fun o _ hlook => ?_
  obtain ⟨-, rfl⟩ := Matcher.gives_look.1 hlook
  cases o with
  | none => exact Matcher.faults_fail (reached_plain h.viable)
  | some token =>
    refine (faults_word h.viable).bind fun _ _ hword => ?_
    obtain ⟨name, hname, hk, rfl, rfl⟩ := gives_word.1 hword
    have hj := h.viable_of_spans hw (d := ⟨name, none, none, none⟩) ⟨hk, by simp, by simp, by simp⟩ ⟨hname, rfl⟩
    refine (faults_token hj).optional.bind fun parallel _ hp => ?_
    obtain ⟨hp, sp, -⟩ := gives_marker.1 hp
    have hj := h.viable_of_spans hw (d := ⟨name, parallel, none, none⟩) ⟨hk, hp, by simp, by simp⟩
      ⟨hname, sp.append rfl⟩
    refine (faults_token hj).optional.bind fun final _ hf => ?_
    obtain ⟨hf, sf, -⟩ := gives_marker.1 hf
    have hj := h.viable_of_spans hw (d := ⟨name, parallel, final, none⟩) ⟨hk, hp, hf, by simp⟩
      ⟨hname, sp.append (sf.append rfl)⟩
    refine (faults_token hj).optional.bind fun _ _ _ => ?_
    exact faults_present.bind fun _ _ _ => Matcher.faults_pure

/-- What a statement reads leaves the block open. -/
theorem Reads.inBlock (hw : AllWorded tokens) {item : Item} (h : Reads tokens i item j)
    (hi : InBlock (tokens.toList.take i)) : InBlock (tokens.toList.take j) := by
  rcases h with ⟨l, hl, sl, -⟩ | ⟨-, s, hs, -, ss, -⟩
  · rw [sl.take]
    exact hi.transition hl fun t ht => hw t (sl.mem t ht)
  · rw [ss.take]
    exact hi.state hs fun t ht => hw t (ss.mem t ht)

/-- **A state fails where it can be completed**, if its statements do. -/
theorem stateOf_faults (hw : AllWorded tokens) {st : Rule Item}
    (hsound : ∀ {i item j}, st.run.Gives tokens i item j → Reads tokens i item j)
    (hst : ∀ {i}, InBlock (tokens.toList.take i) → st.run.Faults tokens i (Reached tokens))
    (h : AtState (tokens.toList.take i)) : (stateOf st).run.Faults tokens i (Reached tokens) := by
  rw [stateOf_run]
  refine (Rule.faults_oneOf_pair ?_ ?_ fun _ _ => reached_exhausted h.viable).bind fun _ _ _ =>
    Matcher.faults_remark.bind fun _ _ _ => Matcher.faults_pure
  · rw [stateWithBody_run]
    refine (heading_faults hw h).bind fun _ j hh => ?_
    obtain ⟨d, hd, sd, rfl⟩ := heading_sound hw hh
    refine (faults_token (h.viable_of_spans hw hd sd)).bind fun opening _ hindent => ?_
    obtain ⟨hopen, hko, rfl⟩ := Matcher.gives_expect.1 hindent
    have sopen : Spans tokens i (d.tokens ++ [opening]) (j + 1) := sd.append ⟨hopen, rfl⟩
    have hblock : InBlock (tokens.toList.take (j + 1)) := by
      rw [sopen.take]
      exact h.block hd (fun t ht => hw t (sd.mem t ht)) hko
    -- between the statements of a block the block stays open, so the token that closes it may come at any of them
    have keeps : ∀ k item k', InBlock (tokens.toList.take k) → st.run.Gives tokens k item k' →
        InBlock (tokens.toList.take k') := fun k item k' hk hg => (hsound hg).inBlock hw hk
    refine (Matcher.faults_many (fun k hk => hst hk) keeps hblock).bind fun items k hmany => ?_
    have hk := (Matcher.repeats_of_gives_many (fun hg => (hsound hg).le) hmany).keeps keeps hblock
    exact (faults_token hk.viable).bind fun _ _ _ => Matcher.faults_pure
  · rw [stateNameOnly_run]
    exact (heading_faults hw h).bind fun _ _ _ => Matcher.faults_pure

/-- **A statement fails where it can be completed**, however deep it nests. -/
theorem statementUpTo_faults (hw : AllWorded tokens) : ∀ (n : Nat) {i : Nat}, InBlock (tokens.toList.take i) →
    (statementUpTo n).run.Faults tokens i (Reached tokens)
  | 0, _, _ => Matcher.faults_unfit
  | n + 1, i, h => by
    rw [statementUpTo_succ, statementOf_run]
    have hstate := stateOf_faults hw (statementUpTo_sound hw n) (statementUpTo_faults hw n) h.atState
    exact Rule.faults_oneOf_pair (Rule.faults_map (transition_faults hw h)) (Rule.faults_map hstate)
      fun _ _ => reached_exhausted h.viable

theorem state_faults (hw : AllWorded tokens) (h : AtState (tokens.toList.take i)) :
    state.run.Faults tokens i (Reached tokens) := by
  refine stateOf_faults hw (statement_sound hw) (fun {k} hk => ?_) h
  have hstatement := statementUpTo_faults hw (tokens.size + 1) hk
  rwa [Faults, ← statement_run] at hstatement

/-- **A chart fails where it can be completed.** -/
theorem chart_faults (hw : AllWorded tokens) : chart.run.Faults tokens 0 (Reached tokens) := by
  have keeps : ∀ i n j, AtState (tokens.toList.take i) → state.run.Gives tokens i n j →
      AtState (tokens.toList.take j) := by
    intro i n j h hg
    obtain ⟨s, hs, -, sp, -⟩ := state_sound hw hg
    rw [sp.take]
    exact h.state hs fun t ht => hw t (sp.mem t ht)
  rw [chart_run]
  have hnil : AtState (none : Option Token).toList := atState_lead (by simp)
  have hstart : Viable (tokens.toList.take 0) := hnil.viable
  refine (faults_token hstart).optional.bind fun lead i hmarker => ?_
  obtain ⟨hlead, slead, -⟩ := gives_marker.1 hmarker
  have hi : AtState (tokens.toList.take i) := by
    rw [slead.take]
    exact atState_lead hlead
  refine (state_faults hw hi).bind fun first j hfirst => ?_
  have hj := keeps i first j hi hfirst
  refine (Matcher.faults_many (fun _ => state_faults hw) keeps hj).bind fun rest k hrest => ?_
  have hrest := Matcher.repeats_of_gives_many (state_le hw) hrest
  have hk : Viable (tokens.toList.take k) := (hrest.keeps keeps hj).viable
  cases lead with
  | none =>
    refine Matcher.faults_pure.bind fun _ _ hclose => ?_
    obtain ⟨-, rfl⟩ := Matcher.gives_pure.1 hclose
    exact (Matcher.faults_atEnd (reached_plain hk)).bind fun _ _ _ => Matcher.faults_pure
  | some opening =>
    have hclosing : (closeLead (some opening)).Faults tokens k (Reached tokens) :=
      (faults_token hk).bind fun _ _ _ => Matcher.faults_pure
    refine hclosing.bind fun _ _ hclose => ?_
    simp only [closeLead, dedent, Rule.expect, Matcher.gives_bind, Matcher.gives_expect, Matcher.gives_pure] at hclose
    obtain ⟨closing, _, ⟨hcl, hkc, rfl⟩, -, rfl⟩ := hclose
    obtain ⟨s, hs, -, sp, -⟩ := state_sound hw hfirst
    obtain ⟨ss, hss, -, sps, -⟩ := states_of_repeats hw hrest
    have hall : Spans tokens 0 (opening :: ((s :: ss).flatMap StateTree.tokens ++ [closing])) (k + 1) :=
      slead.append ((sp.append sps).append ⟨hcl, rfl⟩)
    have hend : Viable (tokens.toList.take (k + 1)) := by
      rw [hall.take]
      refine ⟨[], ⟨some (opening, closing), s, ss⟩, ⟨List.forall_mem_cons.2 ⟨hs, hss⟩, ?_⟩,
        fun t ht => hw t (hall.mem t ht), (List.append_nil _).symm⟩
      rintro p ⟨⟩
      exact ⟨hlead opening rfl, hkc⟩
    exact (Matcher.faults_atEnd (reached_plain hend)).bind fun _ _ _ => Matcher.faults_pure

theorem blamed_reached {tokens : List Token} (hw : ∀ t ∈ tokens, t.Worded) {f : Failure} {t : Trace}
    (h : chart.run (visible tokens) 0 = (.failed f, t)) : Reached (visible tokens) (Reading.blamed f t) := by
  have hfaults := chart_faults (allWorded_visible hw)
  rw [Faults, h] at hfaults
  exact Reading.blamed_of_leaves hfaults

/-- **A reported error is never behind the point of no return**: the tokens in front of it begin a chart that is read. -/
theorem chart_matches_of_blamed {tokens : List Token} (hw : ∀ t ∈ tokens, t.Worded) {f : Failure} {t : Trace}
    (h : chart.run (visible tokens) 0 = (.failed f, t)) :
    Reading.reported f t = (Reading.blamed f t).error ∧
      ∃ rest, (∀ t ∈ rest, t.Worded) ∧ ∃ nodes stop,
        (chart.run (visible ((visible tokens).toList.take (Reading.blamed f t).pos ++ rest)) 0).1 =
          .matched nodes stop := by
  obtain ⟨rest, d, hd, hwd, htokens⟩ := (blamed_reached hw h).pos
  obtain ⟨e, hv, he, hsame⟩ := ChartTree.exists_eager hd
  have hworded := List.forall_mem_append.1 (htokens ▸ hwd)
  have hseen : seen d.tokens = d.tokens := seen_of_all hd.not_ignored
  rw [htokens] at hseen hsame
  exact ⟨Reading.reported_eq f t, rest, hworded.2, e.nodes, _,
    chart_gives_of_derivation (htokens ▸ hwd) hv he (hsame.trans hseen.symm)⟩

/-- A state `a` with a line `b ->` below it. -/
def unfinishedLine : List Token :=
  [⟨.identifier, 1, 1, some ['a']⟩, ⟨.newline, 1, 2, none⟩, ⟨.indent, 2, 1, none⟩, ⟨.identifier, 2, 3, some ['b']⟩,
    ⟨.arrow, 2, 5, none⟩, ⟨.dedent, 2, 7, none⟩]

/-- The rule fails at the block, the error is behind the arrow, and up to there the tokens begin a chart. -/
theorem chart_matches_of_blamed_unfinishedLine : (∀ t ∈ unfinishedLine, t.Worded) ∧
    ∃ f t, chart.run (visible unfinishedLine) 0 = (.failed f, t) ∧ f.pos = 1 ∧ (Reading.blamed f t).pos = 4 ∧
      ∃ rest, (∀ t ∈ rest, t.Worded) ∧ ∃ nodes stop,
        (chart.run (visible ((visible unfinishedLine).toList.take 4 ++ rest)) 0).1 = .matched nodes stop := by
  have hw : ∀ t ∈ unfinishedLine, t.Worded := by decide
  have hrun : ∃ f t, chart.run (visible unfinishedLine) 0 = (.failed f, t) ∧ f.pos = 1 ∧
      (Reading.blamed f t).pos = 4 := ⟨_, _, rfl, rfl, by cbv⟩
  obtain ⟨f, t, h, hf, hblamed⟩ := hrun
  obtain ⟨-, rest, hrest, nodes, stop, hmatch⟩ := chart_matches_of_blamed hw h
  refine ⟨hw, f, t, h, hf, hblamed, rest, hrest, nodes, stop, ?_⟩
  rw [hblamed] at hmatch
  exact hmatch

end Grammar
end Statechart
