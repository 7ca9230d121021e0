import Statechart.Text.Basic
/-!
# Lines — a text that stops, or breaks, behind a line

A run of characters that a line feed ends does not see what comes after the line: it is the same in the line alone and
in the line with anything that breaks behind it.
-/
namespace Statechart

theorem takeWhile_append_of_head {α : Type} {p : α → Bool} {t : List α} (ht : ∀ x ∈ t.head?, p x = false) :
    ∀ l : List α, (l ++ t).takeWhile p = l.takeWhile p
  | [] => by
    cases t with
    | nil => rfl
    | cons x t =>
      have hx := ht x rfl
      rw [List.nil_append, List.takeWhile_cons, hx]
      rfl
  | x :: l => by
    rw [List.cons_append, List.takeWhile_cons, List.takeWhile_cons, takeWhile_append_of_head ht l]

theorem dropWhile_append_of_head {α : Type} {p : α → Bool} {t : List α} (ht : ∀ x ∈ t.head?, p x = false) :
    ∀ l : List α, (l ++ t).dropWhile p = l.dropWhile p ++ t
  | [] => by
    cases t with
    | nil => rfl
    | cons x t =>
      have hx := ht x rfl
      rw [List.nil_append, List.dropWhile_cons, hx]
      rfl
  | x :: l => by
    rw [List.cons_append, List.dropWhile_cons, List.dropWhile_cons, dropWhile_append_of_head ht l]
    split <;> rfl

theorem takeWhile_eq_of_all {α : Type} {p : α → Bool} {t : List α} (ht : ∀ x ∈ t.head?, p x = false) {w : List α}
    (hw : ∀ x ∈ w, p x = true) : (w ++ t).takeWhile p = w := by
  have h : (w ++ []).takeWhile p = w ++ [].takeWhile p := List.takeWhile_append_of_pos hw
  rw [List.append_nil, List.takeWhile_nil, List.append_nil] at h
  rw [takeWhile_append_of_head ht, h]

theorem dropWhile_eq_of_all {α : Type} {p : α → Bool} {t : List α} (ht : ∀ x ∈ t.head?, p x = false) {w : List α}
    (hw : ∀ x ∈ w, p x = true) : (w ++ t).dropWhile p = t := by
  rw [List.dropWhile_append_of_pos hw]
  exact dropWhile_append_of_head ht []

/-- What a run stopped at does not belong to it. -/
theorem not_of_dropWhile_eq_cons {α : Type} {p : α → Bool} {x : α} {rest : List α} :
    ∀ {l : List α}, l.dropWhile p = x :: rest → p x = false
  | [], h => by cases h
  | y :: l, h => by
    rw [List.dropWhile_cons] at h
    split at h
    · exact not_of_dropWhile_eq_cons h
    · next hy =>
      cases h
      simpa using hy

theorem mem_of_mem_dropWhile {α : Type} {p : α → Bool} {x : α} {l : List α} (h : x ∈ l.dropWhile p) : x ∈ l :=
  (List.dropWhile_suffix p).mem h

theorem length_takeWhile_add_length_dropWhile {α : Type} (p : α → Bool) (l : List α) :
    (l.takeWhile p).length + (l.dropWhile p).length = l.length := by
  rw [← List.length_append, List.takeWhile_append_dropWhile]

theorem length_takeWhile_le {α : Type} (p : α → Bool) (l : List α) : (l.takeWhile p).length ≤ l.length := by
  have h := length_takeWhile_add_length_dropWhile p l
  omega

theorem length_dropWhile_le {α : Type} (p : α → Bool) (l : List α) : (l.dropWhile p).length ≤ l.length := by
  have h := length_takeWhile_add_length_dropWhile p l
  omega

/-- A longer run begins with the shorter one. -/
theorem dropWhile_dropWhile_of_imp {α : Type} {p q : α → Bool} (hpq : ∀ x, p x = true → q x = true) :
    ∀ l : List α, (l.dropWhile p).dropWhile q = l.dropWhile q
  | [] => rfl
  | x :: l => by
    rw [List.dropWhile_cons]
    split
    · next hx =>
      rw [dropWhile_dropWhile_of_imp hpq l, List.dropWhile_cons, if_pos (hpq x hx)]
    · rfl

theorem length_takeWhile_of_imp {α : Type} {p q : α → Bool} (hpq : ∀ x, p x = true → q x = true) (l : List α) :
    (l.takeWhile p).length + ((l.dropWhile p).takeWhile q).length = (l.takeWhile q).length := by
  have hp := length_takeWhile_add_length_dropWhile p l
  have hq := length_takeWhile_add_length_dropWhile q l
  have hpq' := length_takeWhile_add_length_dropWhile q (l.dropWhile p)
  rw [dropWhile_dropWhile_of_imp hpq] at hpq'
  omega

namespace Text

/-- The text is at its end or at a line feed. -/
def Breaks (t : Text) : Prop := ∀ c ∈ t.head?, c = '\n'

theorem breaks_nil : Breaks [] := by
  intro c hc
  cases hc

theorem breaks_cons (t : Text) : Breaks ('\n' :: t) := by
  intro c hc
  cases hc
  rfl

theorem Breaks.stops {t : Text} (h : Breaks t) {p : Char → Bool} (hp : p '\n' = false) :
    ∀ c ∈ t.head?, p c = false := by
  intro c hc
  rw [h c hc]
  exact hp

theorem Breaks.takeWhile {t : Text} (h : Breaks t) {p : Char → Bool} (hp : p '\n' = false) (l : Text) :
    (l ++ t).takeWhile p = l.takeWhile p :=
  takeWhile_append_of_head (h.stops hp) l

theorem Breaks.dropWhile {t : Text} (h : Breaks t) {p : Char → Bool} (hp : p '\n' = false) (l : Text) :
    (l ++ t).dropWhile p = l.dropWhile p ++ t :=
  dropWhile_append_of_head (h.stops hp) l

/-- No piece holds the separator it was cut at. -/
theorem not_mem_of_mem_splitAt (sep : Char) : ∀ (t : Text) {l : Text}, l ∈ splitAt sep t → sep ∉ l
  | [], l, h => by
    rw [splitAt, List.mem_singleton] at h
    subst h
    exact List.not_mem_nil
  | c :: cs, l, h => by
    have ih := @not_mem_of_mem_splitAt sep cs
    rw [splitAt] at h
    split at h
    · rcases List.mem_cons.mp h with rfl | h
      · exact List.not_mem_nil
      · exact ih h
    · next hc =>
      split at h
      · rw [List.mem_singleton] at h
        subst h
        intro hm
        exact hc (List.mem_singleton.mp hm).symm
      · next piece rest hs =>
        rcases List.mem_cons.mp h with rfl | h
        · intro hm
          rcases List.mem_cons.mp hm with rfl | hm
          · exact hc rfl
          · exact ih (hs ▸ List.mem_cons_self) hm
        · exact ih (hs ▸ List.mem_cons_of_mem _ h)

theorem mem_of_mem_splitAt {sep c : Char} : ∀ {t l : Text}, l ∈ splitAt sep t → c ∈ l → c ∈ t
  | [], l, h, hc => by
    rw [splitAt, List.mem_singleton] at h
    rwa [h] at hc
  | x :: t, l, h, hc => by
    rw [splitAt] at h
    split at h
    · rcases List.mem_cons.1 h with rfl | h
      · cases hc
      · exact List.mem_cons_of_mem x (mem_of_mem_splitAt h hc)
    · split at h
      · rw [List.mem_singleton.1 h] at hc
        exact List.mem_cons.2 (.inl (List.mem_singleton.1 hc))
      · rename_i piece rest hs
        rcases List.mem_cons.1 h with rfl | h
        · rcases List.mem_cons.1 hc with rfl | hc
          · exact List.mem_cons_self
          · exact List.mem_cons_of_mem x (mem_of_mem_splitAt (hs ▸ List.mem_cons_self) hc)
        · exact List.mem_cons_of_mem x (mem_of_mem_splitAt (hs ▸ List.mem_cons_of_mem piece h) hc)

theorem inline_of_mem_lines {t l : Text} (h : l ∈ lines t) : '\n' ∉ l := not_mem_of_mem_splitAt '\n' t h

@[simp] theorem join_singleton (sep p : Text) : join sep [p] = p := by simp [join, List.intercalate]

theorem join_cons_cons (sep : Char) (p p' : Text) (pieces : List Text) :
    join [sep] (p :: p' :: pieces) = p ++ sep :: join [sep] (p' :: pieces) := by
  simp [join, List.intercalate, List.intersperse]

@[simp] theorem unlines_singleton (l : Text) : unlines [l] = l := join_singleton _ l

theorem unlines_cons_cons (l l' : Text) (ls : List Text) :
    unlines (l :: l' :: ls) = l ++ '\n' :: unlines (l' :: ls) :=
  join_cons_cons '\n' l l' ls

theorem splitAt_of_inline {sep : Char} : ∀ {l : Text}, sep ∉ l → splitAt sep l = [l]
  | [], _ => rfl
  | c :: l, h => by
    have hc : c ≠ sep := fun hc => h (hc ▸ List.mem_cons_self)
    rw [splitAt, if_neg hc, splitAt_of_inline (fun hm => h (List.mem_cons_of_mem c hm))]

theorem splitAt_append {sep : Char} (t : Text) :
    ∀ {l : Text}, sep ∉ l → splitAt sep (l ++ sep :: t) = l :: splitAt sep t
  | [], _ => by rw [List.nil_append, splitAt, if_pos rfl]
  | c :: l, h => by
    have hc : c ≠ sep := fun hc => h (hc ▸ List.mem_cons_self)
    rw [List.cons_append, splitAt, if_neg hc, splitAt_append t (fun hm => h (List.mem_cons_of_mem c hm))]

/-- A separator cuts a text in two, whatever is in front of it. -/
theorem splitAt_append_cons (sep : Char) (q : Text) :
    ∀ p : Text, splitAt sep (p ++ sep :: q) = splitAt sep p ++ splitAt sep q
  | [] => splitAt_append (l := []) q List.not_mem_nil
  | c :: p => by
    have ih := splitAt_append_cons sep q p
    rw [List.cons_append, splitAt, splitAt, ih]
    split
    · rfl
    · cases hs : splitAt sep p with
      | nil => exact absurd hs (splitAt_ne_nil sep p)
      | cons piece rest => rfl

/-- **Pieces are found again.** -/
theorem splitAt_join {sep : Char} : ∀ {pieces : List Text}, pieces ≠ [] → (∀ p ∈ pieces, sep ∉ p) →
    splitAt sep (join [sep] pieces) = pieces
  | [], hne, _ => absurd rfl hne
  | [p], _, h => by
    rw [join_singleton]
    exact splitAt_of_inline (h p List.mem_cons_self)
  | p :: p' :: pieces, _, h => by
    have ih := splitAt_join (List.cons_ne_nil p' pieces) (fun k hk => h k (List.mem_cons_of_mem p hk))
    rw [join_cons_cons, splitAt_append _ (h p List.mem_cons_self), ih]

/-- **Lines are found again.** -/
theorem lines_unlines {ls : List Text} (hne : ls ≠ []) (h : ∀ l ∈ ls, '\n' ∉ l) : lines (unlines ls) = ls :=
  splitAt_join hne h

theorem unlines_concat_nil : ∀ {ls : List Text}, ls ≠ [] → unlines (ls ++ [[]]) = unlines ls ++ ['\n']
  | [], hne => absurd rfl hne
  | [l], _ => by
    show unlines (l :: [[]]) = _
    rw [unlines_cons_cons, unlines_singleton, unlines_singleton]
  | l :: l' :: ls, _ => by
    have ih := unlines_concat_nil (List.cons_ne_nil l' ls)
    show unlines (l :: l' :: (ls ++ [[]])) = _
    rw [unlines_cons_cons, unlines_cons_cons, List.append_assoc, List.cons_append, ← ih]
    rfl

end Text
end Statechart
