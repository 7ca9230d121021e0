import Statechart.Grammar.Phrase
import Statechart.Proofs.Grammar.Ending
/-!
# Contract — what every rule keeps to

Rules are built from tokens, choices, options and repetitions and from the rules of the notation (`Rule.Built`).  All of
them keep one contract.  Evaluating a rule ends, and with one outcome, whichever failure was known before; what it
matched or where it failed lies between its position and the end of the tokens; and the failure known afterwards is the
first of the furthest on record, if one of those lies further than the one known before.
-/
namespace Statechart

/-! ## One evaluation -/

namespace Grammar

variable {tokens : Array Token}

mutual

/-- **An evaluation is the run of its matcher.** -/
theorem Evaluates.sound : ∀ {α : Type} {p : Matcher α} {i : Nat} {known : Option Failure} {o : Outcome α}
    {rs : List Failure} {known' : Option Failure}, Evaluates tokens p i known o rs known' →
      ∃ t, p tokens i = (o, t) ∧ t.failures = rs ∧ t.furthest known = known'
  | _, _, _, _, _, _, _, .done a => ⟨{}, rfl, rfl, rfl⟩
  | _, _, _, _, _, _, _, .look => ⟨{}, rfl, rfl, rfl⟩
  | _, _, _, _, _, _, _, .remark => ⟨_, rfl, rfl, rfl⟩
  | _, _, _, _, _, _, _, .fail => ⟨_, rfl, rfl, rfl⟩
  | _, _, _, _, _, _, _, .decline => ⟨{}, rfl, rfl, rfl⟩
  | _, _, _, _, _, _, _, .token there of => ⟨{}, by simp only [Matcher.expect, there, if_pos of], rfl, rfl⟩
  | _, _, i, _, _, _, _, .noToken other fails => by
    obtain ⟨t, hrun, h⟩ := fails.sound
    refine ⟨t, ?_, h⟩
    rw [← hrun]
    unfold Matcher.expect
    cases ht : tokens[i]? with
    | none => rfl
    | some u => simp only [if_neg (other u ht)]
  | _, _, _, _, _, _, _, .atEnd done => ⟨{}, by simp only [Matcher.atEnd, done], rfl, rfl⟩
  | _, _, _, _, _, _, _, .trailing there fails => by
    obtain ⟨t, hrun, h⟩ := fails.sound
    refine ⟨t, ?_, h⟩
    rw [← hrun]
    simp only [Matcher.atEnd, there]
  | _, _, _, _, _, _, _, .stop first => by
    obtain ⟨t, hrun, h⟩ := first.sound
    exact ⟨t, by simp only [Bind.bind, Matcher.andThen, hrun], h⟩
  | _, _, _, _, _, _, _, .andThen first second => by
    obtain ⟨t, hrun, hrs, hk⟩ := first.sound
    obtain ⟨t', hrun', hrs', hk'⟩ := second.sound
    subst hrs hk hrs' hk'
    exact ⟨t ++ t', by simp only [Bind.bind, Matcher.andThen, hrun, hrun'], rfl, Trace.furthest_append _ _ _⟩
  | _, _, _, _, _, _, _, .found inner => by
    obtain ⟨t, hrun, h⟩ := inner.sound
    exact ⟨t, by simp only [Matcher.optional, hrun], h⟩
  | _, _, _, _, _, _, _, .missing inner => by
    obtain ⟨t, hrun, h⟩ := inner.sound
    exact ⟨t, by simp only [Matcher.optional, hrun], h⟩
  | _, _, i, _, _, _, _, .many turns => turns.sound (tokens.size - i) (Nat.le_refl _)
  | _, _, i, _, _, _, _, .onLine here inner => by
    obtain ⟨t, hrun, h⟩ := inner.sound
    refine ⟨t, ?_, h⟩
    rw [← hrun]
    unfold Rule.onLine
    cases ht : tokens[i]? with
    | none => simp only [ht]
    | some u => simp only [ht, if_pos (here u ht)]
  | _, _, _, _, _, _, _, .offLine there off declines => by
    obtain ⟨t, hrun, h⟩ := declines.sound
    refine ⟨t, ?_, h⟩
    rw [← hrun]
    simp only [Rule.onLine, there, if_neg off]
  | _, _, _, _, _, _, _, .exhausted => ⟨{}, rfl, rfl, rfl⟩
  | _, _, _, _, _, _, _, .chosen inner => by
    obtain ⟨t, hrun, h⟩ := inner.sound
    exact ⟨t, by simp only [Rule.firstOf, hrun], h⟩
  | _, _, _, _, _, _, _, .passed inner others => by
    obtain ⟨t, hrun, hrs, hk⟩ := inner.sound
    obtain ⟨t', hrun', hrs', hk'⟩ := others.sound
    subst hrs hk hrs' hk'
    exact ⟨t ++ t', by simp only [Rule.firstOf, hrun, hrun'], rfl, Trace.furthest_append _ _ _⟩
  | _, _, i, _, _, _, _, .statement inner => by
    obtain ⟨t, hrun, h⟩ := inner.sound
    exact ⟨t, by rw [statement_eq, hrun], h⟩

theorem Repetition.sound : ∀ {α : Type} {p : Matcher α} {i : Nat} {known : Option Failure} {as : List α} {k : Nat}
    {rs : List Failure} {known' : Option Failure}, Repetition tokens p i known as k rs known' →
      ∀ limit, tokens.size - i ≤ limit →
        ∃ t, Matcher.repeatUpTo p limit tokens i = (.matched as k, t) ∧ t.failures = rs ∧ t.furthest known = known'
  | _, _, _, _, _, _, _, _, .spent h => fun limit _ => by
    refine ⟨{}, ?_, rfl, rfl⟩
    cases limit with
    | zero => rfl
    | succ limit => simp only [Matcher.repeatUpTo, if_pos h]
  | _, _, _, _, _, _, _, _, .failed inside last => fun limit hlimit => by
    obtain ⟨t, hrun, h⟩ := last.sound
    cases limit with
    | zero => omega
    | succ limit => exact ⟨t, by simp only [Matcher.repeatUpTo, if_neg (Nat.not_le.2 inside), hrun], h⟩
  | _, _, _, _, _, _, _, _, .idle inside last => fun limit hlimit => by
    obtain ⟨t, hrun, h⟩ := last.sound
    cases limit with
    | zero => omega
    | succ limit => exact ⟨t, by simp only [Matcher.repeatUpTo, if_neg (Nat.not_le.2 inside), hrun, if_pos], h⟩
  | _, _, _, _, _, _, _, _, .turn inside first reads rest => fun limit hlimit => by
    obtain ⟨t, hrun, hrs, hk⟩ := first.sound
    cases limit with
    | zero => omega
    | succ limit =>
      obtain ⟨t', hrest, hrs', hk'⟩ := rest.sound limit (by omega)
      subst hrs hk hrs' hk'
      refine ⟨t ++ t', ?_, rfl, Trace.furthest_append _ _ _⟩
      simp only [Matcher.repeatUpTo, if_neg (Nat.not_le.2 inside), hrun, if_neg (Nat.ne_of_gt reads), hrest]

end

end Grammar

open Grammar
open Matcher (Ends)

/-- **What ends has one evaluation**: its run, with the failure that the record tells to know afterwards. -/
theorem Matcher.Ends.evaluates_iff {α : Type} {p : Matcher α} {tokens : Array Token} {i : Nat} (h : p.Ends tokens i)
    (known : Option Failure) {o : Outcome α} {rs : List Failure} {known' : Option Failure} :
    Evaluates tokens p i known o rs known' ↔
      o = (p tokens i).1 ∧ rs = (p tokens i).2.failures ∧ known' = (p tokens i).2.furthest known := by
  constructor
  · intro hev
    obtain ⟨t, hrun, hrs, hk⟩ := hev.sound
    rw [hrun]
    exact ⟨rfl, hrs.symm, hk.symm⟩
  · rintro ⟨rfl, rfl, rfl⟩
    exact h.evaluates known

/-! ## Rules that are built -/

/-- Rules made of tokens, the end of the input and the rules of the notation, whatever is made of what they read. -/
inductive Rule.Built : {α : Type} → Rule α → Prop where
  | expect (kind : TokenKind) : Built (Rule.expect kind)
  | endOfInput : Built Rule.endOfInput
  | map {α β : Type} {r : Rule α} (f : α → β) (h : Built r) : Built (r.map f)
  | oneOf {α : Type} {rules : List (Rule α)} (h : ∀ r ∈ rules, Built r) : Built (Rule.oneOf rules)
  | optional {α : Type} {r : Rule α} (h : Built r) : Built r.optional
  | many {α : Type} {r : Rule α} (h : Built r) : Built r.many
  | named {α : Type} {r : Rule α} (name : Text) (h : Built r) : Built (r.named name)
  | onLine {α : Type} {r : Rule α} (line : Int) (h : Built r) : Built (r.onLine line)
  | transition : Built transition
  | heading : Built heading
  | stateWithBody : Built (stateWithBody statement)
  | stateNameOnly : Built stateNameOnly
  | state : Built state
  | statement : Built statement
  | chart : Built chart

theorem Named.built : ∀ r : Named, r.rule.Built
  | identifier | condition | action => .map _ (.map _ (.expect _))
  | arrow | indent | dedent | parallelMarker | finalMarker | initialMarker => .map _ (.expect _)
  | transition => .map _ .transition
  | heading => .map _ .heading
  | stateWithBody => .map _ .stateWithBody
  | stateNameOnly => .map _ .stateNameOnly
  | state => .map _ .state
  | statement => .map _ .statement
  | chart => .map _ .chart

mutual

/-- **Every phrase stands for a rule that is built.** -/
theorem Phrase.built : ∀ p : Phrase, p.toRule.Built
  | .expect _ _ => .map _ (.expect _)
  | .oneOf alternatives => .oneOf (Phrase.built_toRules alternatives)
  | .optional p => .map _ (.optional p.built)
  | .many p => .map _ (.many p.built)
  | .named name p => .named name p.built
  | .onLine p line => .onLine line p.built
  | .endOfInput => .map _ .endOfInput
  | .rule r => r.built

theorem Phrase.built_toRules : ∀ (ps : List Phrase), ∀ r ∈ Phrase.toRules ps, r.Built
  | [], _, hr => by cases hr
  | p :: ps, r, hr => by
    rcases List.mem_cons.1 hr with rfl | hr
    · exact p.built
    · exact Phrase.built_toRules ps r hr

end

namespace Rule

variable {tokens : Array Token} {i : Nat}

/-- **Every rule ends**: by induction on how it is built. -/
theorem Built.ends (hl : AllLabelled tokens) {α : Type} {r : Rule α} (h : r.Built) :
    ∀ {i : Nat}, i ≤ tokens.size → r.run.Ends tokens i := by
  induction h with
  | expect kind => exact fun hi => Matcher.ends_expect hi
  | endOfInput => exact fun hi => Matcher.ends_atEnd hi
  | map f _ ih => exact fun hi => ends_map (ih hi)
  | oneOf _ ih => exact fun hi => ends_oneOf hi fun r hr => ih r hr hi
  | optional _ ih => exact fun hi => .optional hi (ih hi)
  | many _ ih => exact fun hi => Matcher.ends_many (fun _ _ hsize => ih (Nat.le_of_lt hsize)) hi
  | named _ _ ih => exact ih
  | onLine _ _ ih => exact fun hi => ends_onLine hi (ih hi)
  | transition => exact transition_ends hl
  | heading => exact heading_ends hl
  | stateWithBody =>
    exact fun hi => stateWithBody_ends hl (fun _ _ hsize => statement_ends hl (Nat.le_of_lt hsize)) hi
  | stateNameOnly => exact stateNameOnly_ends hl
  | state => exact state_ends hl
  | statement => exact statement_ends hl
  | chart => exact chart_ends hl

/-- What a rule keeps to from a position on. -/
structure Contract {α : Type} (r : Rule α) (tokens : Array Token) (i : Nat) : Prop where
  /-- A match goes on, and a failure lies, between the position and the end. -/
  within : (r.run tokens i).1.Within i tokens.size
  /-- Evaluation ends, always with the same outcome, and the record tells the failure known afterwards. -/
  evaluation : ∀ known, ∃ known', Trace.Recalls known (r.run tokens i).2.failures known' ∧ ∀ o rs k,
    Evaluates tokens r.run i known o rs k ↔ o = (r.run tokens i).1 ∧ rs = (r.run tokens i).2.failures ∧ k = known'
  option : ∃ a j, r.optional.run.Gives tokens i a j
  repetition : ∃ as j, r.many.run.Gives tokens i as j

theorem exists_gives_of_ends {α : Type} {p : Matcher α} (h : p.Ends tokens i) (hf : ¬ p.Fails tokens i) :
    ∃ a j, p.Gives tokens i a j := by
  have hin := h.within
  cases hrun : (p tokens i).1 with
  | matched a j => exact ⟨a, j, hrun⟩
  | failed f => exact absurd ⟨f, hrun⟩ hf
  | unfit =>
    rw [hrun] at hin
    exact hin.elim

theorem Built.contract (hl : AllLabelled tokens) {α : Type} {r : Rule α} (h : r.Built) (hi : i ≤ tokens.size) :
    r.Contract tokens i where
  within := (h.ends hl hi).within
  evaluation known := ⟨_, Trace.recalls_foldl_further _ known, fun _ _ _ => (h.ends hl hi).evaluates_iff known⟩
  option := exists_gives_of_ends (h.optional.ends hl hi) Matcher.not_fails_optional
  repetition := exists_gives_of_ends (h.many.ends hl hi) Matcher.not_fails_many

/-- **Every rule keeps the contract**, and transitions, states, statements and headings read a token. -/
theorem contract_of_built (hl : AllLabelled tokens) (hi : i ≤ tokens.size) :
    (∀ (α : Type) (r : Rule α), r.Built → r.Contract tokens i) ∧
      (∀ e j, transition.run.Gives tokens i e j → i < j) ∧ (∀ n j, state.run.Gives tokens i n j → i < j) ∧
      (∀ item j, statement.run.Gives tokens i item j → i < j) ∧ ∀ h j, heading.run.Gives tokens i h j → i < j := by
  refine ⟨fun _ _ hr => hr.contract hl hi, ?_, ?_, ?_, ?_⟩
  · exact fun _ _ => transition_moves
  · exact fun _ _ => state_moves
  · exact fun _ _ => statement_moves
  · exact fun _ _ => heading_moves

/-- A state `a` with a line `b ->` in its block. -/
def unfinished : Array Token :=
  #[⟨.identifier, 1, 1, some ['a']⟩, ⟨.indent, 2, 1, none⟩, ⟨.identifier, 2, 3, some ['b']⟩, ⟨.arrow, 2, 5, none⟩,
    ⟨.dedent, 2, 7, none⟩]

/-- Only `a` is read as a state; the failure known afterwards is the missing target, four tokens behind it. -/
theorem contract_of_built_unfinished : AllLabelled unfinished ∧ 0 ≤ unfinished.size ∧ state.Built ∧
    ∃ n f, Evaluates unfinished state.run 0 none (.matched n 1) (state.run unfinished 0).2.failures (some f) ∧
      Trace.Recalls none (state.run unfinished 0).2.failures (some f) ∧ f.pos = 4 ∧ 0 < 1 := by
  have hl : AllLabelled unfinished := by
    show ∀ t ∈ unfinished, t.Labelled
    decide
  have hi : 0 ≤ unfinished.size := Nat.zero_le _
  obtain ⟨hrules, -, hstate, -⟩ := contract_of_built hl hi
  obtain ⟨known, hrecalls, hone⟩ := (hrules Node state .state).evaluation none
  have hrun : (state.run unfinished 0).1 = .matched { id := ['a'], kind := .atomic } 1 := rfl
  have hknown : (state.run unfinished 0).2.furthest none =
      some ⟨.plain (.on (.wanted .identifier) (some ⟨.dedent, 2, 7, none⟩)), 4⟩ := rfl
  obtain ⟨-, -, hsame⟩ := (hone _ _ _).1 ((Built.state.ends hl hi).evaluates none)
  rw [hknown] at hsame
  subst hsame
  exact ⟨hl, hi, .state, _, _, (hone _ _ _).2 ⟨hrun.symm, rfl, rfl⟩, hrecalls, rfl, hstate _ 1 hrun⟩

end Rule
end Statechart
