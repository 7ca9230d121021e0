import Statechart.Proofs.Chart.Printing
import Statechart.Proofs.Grammar.Derivation
import Statechart.Proofs.Token.Calls
import Statechart.Proofs.Token.LineByLine
/-!
# Words — how a printed line is lexed

A name is one token when no name character stands behind it; the guard and the actions of a transition are one token
each.  So a printed heading is lexed as a heading, and a printed transition as a transition.
-/
namespace Statechart

theorem of_mem_takeWhile {p : Char → Bool} {l : Text} : ∀ c ∈ l.takeWhile p, p c = true :=
  List.all_eq_true.1 List.all_takeWhile

/-- The name that a text begins with. -/
theorem isName_takeWhile {l : Text} (h : Lexeme.startsName l = true) : IsName (l.takeWhile isNameChar) := by
  refine ⟨?_, of_mem_takeWhile⟩
  cases l with
  | nil => cases h
  | cons c l =>
    rw [List.takeWhile_cons, if_pos (show isNameChar c = true from h)]
    exact List.cons_ne_nil _ _

theorem Lexeme.worded_label {kind : TokenKind} (c : Char) (rest : Text) (line col : Int) :
    Token.Worded ⟨(label kind c rest).kind, line, col, (label kind c rest).text⟩ := by
  unfold label
  cases hl : label? (c :: rest) with
  | none => rintro (h | h | h) <;> cases h
  | some p =>
    obtain ⟨skipped, name⟩ := p
    have hname : name ≠ [] := by
      unfold label? at hl
      simp only at hl
      split at hl
      · cases hl
      · next hne =>
        cases hl
        exact hne
    exact fun _ => hname

/-- **What the lexer takes for a name, a guard or an action is not empty.** -/
theorem Lexeme.worded_first (b : Bool) (c : Char) (rest : Text) (line col : Int) :
    Token.Worded ⟨(first b c rest).kind, line, col, (first b c rest).text⟩ := by
  unfold first
  split
  · rintro (h | h | h) <;> cases h
  · split
    · split
      · exact fun _ => List.cons_ne_nil _ _
      · rintro (h | h | h) <;> cases h
    · split
      · next kind hm =>
        unfold marker? at hm
        repeat' split at hm
        all_goals cases hm
        all_goals rintro (h | h | h) <;> cases h
      · split
        · exact worded_label c rest line col
        · unfold word
          repeat' split
          · rintro (h | h | h) <;> cases h
          · exact fun _ => List.cons_ne_nil _ _
          · rintro (h | h | h) <;> cases h

theorem worded_of_tokenize {t : Text} {ts : List Token} (h : tokenize t = .ok ts) : ∀ x ∈ ts, x.Worded := by
  refine Lexer.forall_of_tokenize ⟨fun b c rest line col _ _ => Lexeme.worded_first b c rest line col, ?_⟩ h
  rintro kind line col (rfl | rfl) - -
  all_goals rintro (hk | hk | hk) <;> cases hk

/-- No name goes on here. -/
def EndsName (l : Text) : Prop := ∀ c ∈ l.head?, isNameChar c = false

theorem endsName_nil : EndsName [] := by
  intro c hc
  cases hc

theorem endsName_cons {c : Char} (hc : isNameChar c = false) (l : Text) : EndsName (c :: l) := by
  intro x hx
  cases hx
  exact hc

theorem ne_of_isNameChar {c x : Char} (hc : isNameChar c = true) (hx : isNameChar x = false) : c ≠ x := by
  rintro rfl
  rw [hc] at hx
  cases hx

theorem isBlank_of_isNameChar {c : Char} (hc : isNameChar c = true) : isBlank c = false := by
  have h1 : c ≠ ' ' := ne_of_isNameChar hc (by decide)
  have h2 : c ≠ '\t' := ne_of_isNameChar hc (by decide)
  have h3 : c ≠ '\r' := ne_of_isNameChar hc (by decide)
  simp [isBlank, h1, h2, h3]

namespace Lexeme

/-- A text that begins with a name character begins with a name. -/
theorem first_of_name {c : Char} {w l : Text} (hw : ∀ x ∈ c :: w, isNameChar x = true) (hl : EndsName l) (b : Bool) :
    first b c (w ++ l) = ⟨.identifier, some (c :: w), (c :: w).length⟩ := by
  have hc : isNameChar c = true := hw c List.mem_cons_self
  have htake : (w ++ l).takeWhile isNameChar = w :=
    takeWhile_eq_of_all hl (fun x hx => hw x (List.mem_cons_of_mem c hx))
  have hmarker : marker? c = none := by
    unfold marker?
    rw [if_neg (ne_of_isNameChar hc (by decide)), if_neg (ne_of_isNameChar hc (by decide)),
      if_neg (ne_of_isNameChar hc (by decide))]
  have hlabel : labelKind? c = none := by
    unfold labelKind?
    rw [if_neg (ne_of_isNameChar hc (by decide)), if_neg (ne_of_isNameChar hc (by decide))]
  unfold first
  rw [if_neg (ne_of_isNameChar hc (by decide)), if_neg (ne_of_isNameChar hc (by decide)), hmarker, hlabel]
  show word c (w ++ l) = _
  unfold word
  rw [if_neg (fun h => ne_of_isNameChar hc (by decide) h.1), if_pos hc, htake]

theorem first_of_target {w l : Text} (hw : IsName w) (hl : EndsName l) :
    first true '#' (w ++ l) = ⟨.identifier, some ('#' :: w), ('#' :: w).length⟩ := by
  obtain ⟨hne, hall⟩ := hw
  have htake : (w ++ l).takeWhile isNameChar = w := takeWhile_eq_of_all hl hall
  have hstart : startsName (w ++ l) = true := by
    cases w with
    | nil => exact absurd rfl hne
    | cons c w => exact hall c List.mem_cons_self
  unfold first
  rw [if_neg (by decide), if_pos rfl, hstart]
  show target (w ++ l) = _
  unfold target
  rw [htake]
  rfl

theorem eq_of_labelKind {c : Char} {kind : TokenKind} (h : labelKind? c = some kind) : c = ';' ∨ c = '>' := by
  unfold labelKind? at h
  split at h
  · next hc => exact .inl hc
  · split at h
    · next hc => exact .inr hc
    · cases h

/-- A guard or an action is its marker, a blank and its name. -/
theorem first_of_label {c : Char} {kind : TokenKind} (hc : labelKind? c = some kind) {w l : Text} (hw : IsName w)
    (hl : EndsName l) (b : Bool) : first b c (' ' :: (w ++ l)) = ⟨kind, some w, (c :: ' ' :: w).length⟩ := by
  obtain ⟨hne, hall⟩ := hw
  have htake : (w ++ l).takeWhile isNameChar = w := takeWhile_eq_of_all hl hall
  have hstop : ∀ x ∈ (w ++ l).head?, isFiller x = false := by
    cases w with
    | nil => exact absurd rfl hne
    | cons x w =>
      intro y hy
      cases hy
      unfold isFiller
      rw [hall x List.mem_cons_self]
      rfl
  have hfill : (' ' :: (w ++ l)).takeWhile isFiller = [' '] := by
    refine takeWhile_eq_of_all (w := [' ']) hstop ?_
    intro x hx
    rw [List.mem_singleton.mp hx]
    rfl
  have hdrop : (' ' :: (w ++ l)).dropWhile isFiller = w ++ l := by
    have h := List.takeWhile_append_dropWhile (p := isFiller) (l := ' ' :: (w ++ l))
    rw [hfill] at h
    exact (List.cons.inj h).2
  have hfirst : first b c (' ' :: (w ++ l)) = label kind c (' ' :: (w ++ l)) := by
    rcases eq_of_labelKind hc with rfl | rfl <;> cases hc <;> rfl
  rw [hfirst]
  unfold label label?
  rw [List.tail_cons, hdrop, hfill, htake, if_neg hne]
  show (⟨kind, some w, 2 + w.length⟩ : Lexeme) = _
  rw [Nat.add_comm]
  rfl

end Lexeme

theorem lineWords_cons {c : Char} (hc : isBlank c = false) (number : Int) (b : Bool) (column : Nat) (l : Text) :
    lineWords number b column (c :: l) =
      ⟨(Lexeme.first b c l).kind, number, column, (Lexeme.first b c l).text⟩ ::
        lineWords number ((Lexeme.first b c l).kind == .arrow) (column + (Lexeme.first b c l).length)
          ((c :: l).drop (Lexeme.first b c l).length) := by
  have hd : (c :: l).dropWhile isBlank = c :: l := by rw [List.dropWhile_cons, hc]; rfl
  have ht : (c :: l).takeWhile isBlank = [] := by rw [List.takeWhile_cons, hc]; rfl
  rw [lineWords_of_lexeme hd, ht]
  rfl

theorem lineWords_blank {c : Char} (hc : isBlank c = true) (number : Int) (b : Bool) (column : Nat) (l : Text) :
    lineWords number b column (c :: l) = lineWords number b (column + 1) l := by
  have hd : (c :: l).dropWhile isBlank = l.dropWhile isBlank := by rw [List.dropWhile_cons, if_pos hc]
  have ht : ((c :: l).takeWhile isBlank).length = (l.takeWhile isBlank).length + 1 := by
    rw [List.takeWhile_cons, if_pos hc, List.length_cons]
  cases hl : l.dropWhile isBlank with
  | nil => rw [lineWords_of_blank (hd.trans hl), lineWords_of_blank hl]
  | cons x rest =>
    rw [lineWords_of_lexeme (hd.trans hl), lineWords_of_lexeme hl, ht]
    have hcolumn : column + ((l.takeWhile isBlank).length + 1) = column + 1 + (l.takeWhile isBlank).length := by omega
    rw [hcolumn]

theorem isBlank_of_mem_blanks {n : Nat} {c : Char} (hc : c ∈ Text.blanks n) : isBlank c = true := by
  rw [List.eq_of_mem_replicate hc]
  rfl

theorem dropWhile_blanks (n : Nat) (l : Text) : (Text.blanks n ++ l).dropWhile isBlank = l.dropWhile isBlank :=
  List.dropWhile_append_of_pos fun _ => isBlank_of_mem_blanks

theorem lineWords_blanks (number : Int) (b : Bool) (l : Text) : ∀ (n column : Nat),
    lineWords number b column (Text.blanks n ++ l) = lineWords number b (column + n) l
  | 0, column => rfl
  | n + 1, column => by
    show lineWords number b column (' ' :: (Text.blanks n ++ l)) = _
    rw [lineWords_blank rfl, lineWords_blanks number b l n, Nat.add_assoc, Nat.add_comm 1]

theorem lineWords_name {w l : Text} (hw : IsName w) (hl : EndsName l) (number : Int) (b : Bool) (column : Nat) :
    lineWords number b column (w ++ l) =
      ⟨.identifier, number, column, some w⟩ :: lineWords number false (column + w.length) l := by
  obtain ⟨hne, hall⟩ := hw
  cases w with
  | nil => exact absurd rfl hne
  | cons c w =>
    rw [List.cons_append, lineWords_cons (isBlank_of_isNameChar (hall c List.mem_cons_self)),
      Lexeme.first_of_name hall hl]
    show _ :: lineWords number _ _ ((c :: w ++ l).drop (c :: w).length) = _
    rw [List.drop_left]
    rfl

theorem lineWords_target {w l : Text} (hw : IsTarget w) (hl : EndsName l) (number : Int) (column : Nat) :
    lineWords number true column (w ++ l) =
      ⟨.identifier, number, column, some w⟩ :: lineWords number false (column + w.length) l := by
  rcases hw with hw | ⟨name, hname, rfl⟩
  · exact lineWords_name hw hl number true column
  · rw [List.cons_append, lineWords_cons (by decide), Lexeme.first_of_target hname hl]
    show _ :: lineWords number _ _ (('#' :: name ++ l).drop ('#' :: name).length) = _
    rw [List.drop_left]
    rfl

theorem lineWords_arrow (number : Int) (b : Bool) (column : Nat) (l : Text) :
    lineWords number b column ('-' :: '>' :: l) =
      ⟨.arrow, number, column, none⟩ :: lineWords number true (column + 2) l := by
  rw [lineWords_cons (by decide)]
  rfl

theorem lineWords_label {c : Char} {kind : TokenKind} (hc : Lexeme.labelKind? c = some kind) {w l : Text}
    (hw : IsName w) (hl : EndsName l) (number : Int) (b : Bool) (column : Nat) :
    lineWords number b column (c :: ' ' :: (w ++ l)) =
      ⟨kind, number, column, some w⟩ :: lineWords number (kind == .arrow) (column + (w.length + 2)) l := by
  have hblank : isBlank c = false := by rcases Lexeme.eq_of_labelKind hc with rfl | rfl <;> rfl
  rw [lineWords_cons hblank, Lexeme.first_of_label hc hw hl]
  show _ :: lineWords number _ _ ((c :: ' ' :: w ++ l).drop (c :: ' ' :: w).length) = _
  rw [List.drop_left]
  rfl

/-- A marker that is there or not. -/
theorem lineWords_marker {c : Char} {kind : TokenKind} (hc : Lexeme.marker? c = some kind) (p : Prop) [Decidable p]
    (number : Int) (b : Bool) (column : Nat) (l : Text) :
    ∃ m : Option Token, (∀ t ∈ m, t.kind = kind) ∧ m.isSome = decide p ∧ ∃ b' column',
      lineWords number b column ((if p then [c] else []) ++ l) = m.toList ++ lineWords number b' column' l := by
  by_cases hp : p
  · have hblank : isBlank c = false := by
      cases hb : isBlank c with
      | false => rfl
      | true =>
        rcases (by simpa [isBlank] using hb : (c = ' ' ∨ c = '\t') ∨ c = '\r') with (rfl | rfl) | rfl <;> cases hc
    have hfirst : Lexeme.first b c l = ⟨kind, none, 1⟩ := by
      unfold Lexeme.first
      rw [if_neg, if_neg, hc]
      · rintro rfl
        cases hc
      · rintro rfl
        cases hc
    rw [if_pos hp, List.singleton_append, lineWords_cons hblank, hfirst]
    exact ⟨some ⟨kind, number, column, none⟩, by simp, by simp [hp], kind == .arrow, column + 1, rfl⟩
  · rw [if_neg hp, List.nil_append]
    exact ⟨none, by simp, by simp [hp], b, column, rfl⟩

theorem endsName_markers (kind : StateKind) (isInitial : Option Bool) : EndsName (Print.markers kind isInitial) := by
  unfold Print.markers
  cases kind <;> rcases isInitial with _ | _ | _ <;>
    first
      | exact endsName_nil
      | exact endsName_cons (by decide) _

namespace Grammar

/-- **A printed heading is lexed as a heading.** -/
theorem lineWords_heading {id : Text} (hid : IsName id) (kind : StateKind) (isInitial : Option Bool) (number : Int)
    (b : Bool) (column : Nat) :
    ∃ h : HeadingTree, h.Valid ∧ lineWords number b column (id ++ Print.markers kind isInitial) = h.tokens ∧
      h.name.word = id ∧ h.parallel.isSome = decide (kind = .parallel) ∧ h.final.isSome = decide (kind = .final) ∧
      h.initial.isSome = decide (isInitial = some true) := by
  rw [lineWords_name hid (endsName_markers kind isInitial)]
  unfold Print.markers
  rw [List.append_assoc]
  obtain ⟨parallel, hpk, hp, b₁, c₁, h₁⟩ := lineWords_marker (c := '&') rfl (kind = .parallel) number false
    (column + id.length) ((if kind = .final then ['$'] else []) ++ (if isInitial = some true then ['*'] else []))
  obtain ⟨final, hfk, hf, b₂, c₂, h₂⟩ := lineWords_marker (c := '$') rfl (kind = .final) number b₁ c₁
    (if isInitial = some true then ['*'] else [])
  obtain ⟨initial, hik, hi, b₃, c₃, h₃⟩ := lineWords_marker (c := '*') rfl (isInitial = some true) number b₂ c₂ []
  rw [List.append_nil, lineWords_of_blank (l := []) rfl, List.append_nil] at h₃
  rw [h₁, h₂, h₃]
  exact ⟨⟨⟨.identifier, number, column, some id⟩, parallel, final, initial⟩, ⟨rfl, hpk, hfk, hik⟩, rfl, rfl, hp, hf, hi⟩

end Grammar

theorem lineWords_event {name : Text} (hname : name = [] ∨ IsName name) (number : Int) (b : Bool) (column : Nat)
    (l : Text) :
    ∃ t : Option Token, (∀ x ∈ t, x.kind = .identifier) ∧ (t.map Token.word).getD [] = name ∧ (t = none → name = []) ∧
      ∃ b' column', lineWords number b column (Print.event name ++ l) = t.toList ++ lineWords number b' column' l := by
  unfold Print.event
  by_cases hne : name = []
  · subst hne
    exact ⟨none, nofun, rfl, fun _ => rfl, b, column, rfl⟩
  · have hn : IsName name := hname.resolve_left hne
    have hl : EndsName (' ' :: l) := endsName_cons (by decide) l
    rw [if_neg hne, List.append_assoc, List.singleton_append, lineWords_name hn hl, lineWords_blank rfl]
    refine ⟨some ⟨.identifier, number, column, some name⟩, ?_, rfl, nofun, false, column + name.length + 1, rfl⟩
    intro x hx
    cases hx
    rfl

theorem lineWords_guard {cond : Option Text} (hcond : ∀ c ∈ cond, IsName c) {l : Text} (hl : EndsName l) (number : Int)
    (b : Bool) (column : Nat) :
    ∃ t : Option Token, (∀ x ∈ t, x.kind = .condition) ∧ t.map Token.word = cond ∧
      ∃ b' column', lineWords number b column (Print.guard cond ++ l) = t.toList ++ lineWords number b' column' l := by
  cases cond with
  | none => exact ⟨none, nofun, rfl, b, column, rfl⟩
  | some c =>
    refine ⟨some ⟨.condition, number, column, some c⟩, ?_, rfl, false, column + (c.length + 2), ?_⟩
    · intro x hx
      cases hx
      rfl
    · show lineWords number b column (';' :: ' ' :: (c ++ l)) = _
      rw [lineWords_label rfl (hcond c rfl) hl]
      rfl

theorem endsName_actions (names : List Text) : EndsName (Print.actions names) := by
  cases names with
  | nil => exact endsName_nil
  | cons a names => exact endsName_cons (by decide) _

theorem endsName_guard {l : Text} (hl : EndsName l) (cond : Option Text) : EndsName (Print.guard cond ++ l) := by
  cases cond with
  | none => exact hl
  | some c => exact endsName_cons (by decide) _

theorem lineWords_actions (number : Int) : ∀ {names : List Text}, (∀ a ∈ names, IsName a) → ∀ (b : Bool) (column : Nat),
    ∃ ts : List Token, (∀ t ∈ ts, t.kind = .action) ∧ ts.map Token.word = names ∧
      lineWords number b column (Print.actions names) = ts
  | [], _, b, column => ⟨[], nofun, rfl, lineWords_of_blank rfl _ _ _⟩
  | a :: names, hnames, b, column => by
    have ha : IsName a := hnames a List.mem_cons_self
    obtain ⟨ts, hkind, hword, hts⟩ := lineWords_actions number (fun x hx => hnames x (List.mem_cons_of_mem a hx))
      (TokenKind.action == .arrow) (column + 1 + (a.length + 2))
    refine ⟨⟨.action, number, ↑(column + 1), some a⟩ :: ts, ?_, ?_, ?_⟩
    · intro t ht
      rcases List.mem_cons.mp ht with rfl | ht
      · rfl
      · exact hkind t ht
    · rw [List.map_cons, hword]
      rfl
    · show lineWords number b column (' ' :: '>' :: ' ' :: (a ++ Print.actions names)) = _
      rw [lineWords_blank rfl, lineWords_label rfl ha (endsName_actions names), hts]

namespace Grammar

/-- **A printed transition is lexed as a transition.** -/
theorem lineWords_entry {e : Entry} (he : e.Printable) (number : Int) (b : Bool) (column : Nat) :
    ∃ l : TransitionTree, l.Valid ∧ lineWords number b column (Print.entry e) = l.tokens ∧ l.value = e := by
  obtain ⟨name, target, cond, actions⟩ := e
  obtain ⟨hevent, ⟨htarget, hcond, hactions⟩, hguarded⟩ := he
  have hnames : ∀ a ∈ actions.getD [], IsName a := by
    cases actions with
    | none => exact nofun
    | some names => exact (hactions names rfl).2
  obtain ⟨event, hek, hew, hen, b₁, c₁, h₁⟩ := lineWords_event hevent number b column
    ('-' :: '>' :: ' ' :: (target ++ (Print.guard cond ++ Print.actions (actions.getD []))))
  obtain ⟨guard, hgk, hgw, b₂, c₂, h₂⟩ := lineWords_guard hcond (endsName_actions (actions.getD [])) number false
    (c₁ + 2 + 1 + target.length)
  obtain ⟨ts, hak, haw, h₃⟩ := lineWords_actions number hnames b₂ c₂
  have htokens : lineWords number b column (Print.entry ⟨name, target, cond, actions⟩) =
      (⟨event, ⟨.arrow, number, c₁, none⟩, ⟨.identifier, number, ↑(c₁ + 2 + 1), some target⟩, guard, ts⟩ :
        TransitionTree).tokens := by
    show lineWords number b column (Print.event name ++ _) = _
    rw [h₁, lineWords_arrow, lineWords_blank rfl,
      lineWords_target htarget (endsName_guard (endsName_actions _) cond), h₂, h₃]
    rfl
  refine ⟨_, ?_, htokens, ?_⟩
  · refine ⟨hek, rfl, rfl, hgk, hak, ?_, ?_⟩
    · intro t ht
      rw [← htokens] at ht
      exact line_of_mem_lineWords ht
    · intro he hg
      have hg : guard = none := hg
      rw [hg] at hgw
      exact hguarded (hen he) hgw.symm
  · show Entry.mk ((event.map Token.word).getD []) ⟨target, guard.map Token.word, _⟩ = _
    rw [hew, hgw, haw]
    cases actions with
    | none =>
      have hts : ts = [] := List.map_eq_nil_iff.mp haw
      rw [hts]
      rfl
    | some names =>
      have hts : ts.isEmpty = false := by
        rw [List.isEmpty_eq_false_iff]
        rintro rfl
        exact (hactions names rfl).1 haw.symm
      rw [hts]
      rfl

end Grammar

end Statechart
