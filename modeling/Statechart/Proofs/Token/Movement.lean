import Statechart.Token.Cursor
/-!
# Movement — what moving does to the place of a cursor

Inside a line only the column moves.  Wherever a cursor goes, its line and its column count what is behind it
(`Placed`).
-/
namespace Statechart
namespace Cursor

theorem advanceBy_add : ∀ (m n : Nat) (c : Cursor), c.advanceBy (m + n) = (c.advanceBy m).advanceBy n
  | 0, n, c => by rw [Nat.zero_add, advanceBy]
  | m + 1, n, c => by rw [Nat.succ_add, advanceBy, advanceBy, advanceBy_add m n]

theorem advance_of_inline {c : Cursor} {x : Char} {t : Text} (h : c.ahead = x :: t) (hx : x ≠ '\n') :
    c.advance = ⟨x :: c.behind, t, c.line, c.column + 1⟩ := by
  unfold advance
  rw [h]
  exact if_neg hx

/-- **Inside a line** a cursor keeps its line, and its column counts the characters. -/
theorem advanceBy_of_inline : ∀ {l t : Text} {c : Cursor}, c.ahead = l ++ t → '\n' ∉ l →
    c.advanceBy l.length = ⟨l.reverse ++ c.behind, t, c.line, c.column + l.length⟩
  | [], t, c, h, _ => by
    subst h
    rfl
  | x :: l, t, c, h, hl => by
    have hx : x ≠ '\n' := fun hx => hl (hx ▸ List.mem_cons_self)
    have hl' : '\n' ∉ l := fun hm => hl (List.mem_cons_of_mem _ hm)
    rw [List.length_cons, advanceBy, advance_of_inline h hx, advanceBy_of_inline rfl hl']
    simp only [List.reverse_cons, List.append_assoc, List.singleton_append]
    rw [Nat.add_assoc, Nat.add_comm 1]

/-- Skipping within a line stays in it. -/
theorem skip_of_inline (c : Cursor) {p : Char → Bool} (hp : p '\n' = false) :
    c.skip p = ⟨(c.ahead.takeWhile p).reverse ++ c.behind, c.ahead.dropWhile p, c.line,
      c.column + (c.ahead.takeWhile p).length⟩ := by
  have hn : '\n' ∉ c.ahead.takeWhile p := by
    intro hm
    have h := List.all_eq_true.mp List.all_takeWhile _ hm
    rw [hp] at h
    cases h
  exact advanceBy_of_inline List.takeWhile_append_dropWhile.symm hn

/-- There is nothing to skip. -/
theorem skip_of_stops {c : Cursor} {p : Char → Bool} (h : ∀ x ∈ c.ahead.head?, p x = false) : c.skip p = c := by
  have ht : c.ahead.takeWhile p = [] := by
    cases ha : c.ahead with
    | nil => rfl
    | cons x t =>
      rw [ha] at h
      rw [List.takeWhile_cons, h x rfl]
      rfl
  unfold skip run
  rw [ht]
  rfl

theorem advance_of_break {c : Cursor} {t : Text} (h : c.ahead = '\n' :: t) :
    c.advance = ⟨'\n' :: c.behind, t, c.line + 1, 1⟩ := by
  unfold advance
  rw [h]
  rfl

/-- The line counts the line feeds behind the cursor, the column the characters behind it on the line. -/
structure Placed (c : Cursor) : Prop where
  line : c.line = 1 + c.behind.count '\n'
  column : c.column = 1 + (c.behind.takeWhile (· != '\n')).length

theorem placed_start (t : Text) : (start t).Placed := ⟨rfl, rfl⟩

theorem Placed.advance {c : Cursor} (h : c.Placed) : c.advance.Placed := by
  cases ha : c.ahead with
  | nil =>
    have hc : c.advance = c := by
      unfold Cursor.advance
      rw [ha]
    rw [hc]
    exact h
  | cons x t =>
    by_cases hx : x = '\n'
    · subst hx
      rw [advance_of_break ha]
      refine ⟨?_, rfl⟩
      show c.line + 1 = 1 + ('\n' :: c.behind).count '\n'
      rw [List.count_cons_self, h.line, Nat.add_assoc]
    · rw [advance_of_inline ha hx]
      refine ⟨?_, ?_⟩
      · show c.line = 1 + (x :: c.behind).count '\n'
        rw [List.count_cons_of_ne hx, h.line]
      · show c.column + 1 = 1 + ((x :: c.behind).takeWhile (· != '\n')).length
        rw [List.takeWhile_cons, if_pos (bne_iff_ne.mpr hx), List.length_cons, h.column, Nat.add_assoc]

theorem Placed.advanceBy : ∀ (n : Nat) {c : Cursor}, c.Placed → (c.advanceBy n).Placed
  | 0, _, h => h
  | n + 1, _, h => Placed.advanceBy n h.advance

end Cursor
end Statechart
