import Statechart.Token.Basic
/-!
# Spans — the tokens between two positions

A list of tokens spans the positions `i` and `j` of an array when its tokens are those from `i` up to, but not with,
`j`.  Spans join where one ends and the next begins (`spans_append`), and the span of the whole array is its list of
tokens (`spans_all_iff`).
-/
namespace Statechart

variable {tokens : Array Token} {i j k : Nat} {ts us : List Token}

/-- The tokens from `i` up to `j` are `ts`. -/
def Spans (tokens : Array Token) : Nat → List Token → Nat → Prop
  | i, [], j => i = j
  | i, t :: ts, j => tokens[i]? = some t ∧ Spans tokens (i + 1) ts j

@[simp] theorem spans_nil : Spans tokens i [] j ↔ i = j := Iff.rfl

@[simp] theorem spans_cons {t : Token} : Spans tokens i (t :: ts) j ↔ tokens[i]? = some t ∧ Spans tokens (i + 1) ts j :=
  Iff.rfl

/-- **Spans join.** -/
theorem spans_append : Spans tokens i (ts ++ us) k ↔ ∃ j, Spans tokens i ts j ∧ Spans tokens j us k := by
  induction ts generalizing i with
  | nil => simp
  | cons t ts ih => simp only [List.cons_append, spans_cons, ih, and_assoc, exists_and_left]

theorem Spans.append (h : Spans tokens i ts j) (h' : Spans tokens j us k) : Spans tokens i (ts ++ us) k :=
  spans_append.2 ⟨j, h, h'⟩

theorem Spans.length : ∀ {ts : List Token} {i : Nat}, Spans tokens i ts j → i + ts.length = j
  | [], _, h => h
  | t :: ts, i, ⟨_, h⟩ => by
    rw [List.length_cons, ← Spans.length h]
    omega

theorem Spans.mem : ∀ {ts : List Token} {i : Nat}, Spans tokens i ts j → ∀ t ∈ ts, t ∈ tokens
  | t :: ts, i, ⟨ht, h⟩, u, hu => by
    rcases List.mem_cons.1 hu with rfl | hu
    · exact Array.mem_of_getElem? ht
    · exact Spans.mem h u hu

theorem Spans.le (h : Spans tokens i ts j) : i ≤ j := by
  have := h.length
  omega

theorem Spans.lt (h : Spans tokens i ts j) (hne : ts ≠ []) : i < tokens.size ∧ i < j := by
  cases ts with
  | nil => exact absurd rfl hne
  | cons t ts => exact ⟨(Array.getElem?_eq_some_iff.1 h.1).1, h.2.le⟩

/-- The tokens up to the end of a span. -/
theorem Spans.take : ∀ {ts : List Token} {i : Nat}, Spans tokens i ts j →
    tokens.toList.take j = tokens.toList.take i ++ ts
  | [], _, h => by rw [spans_nil.1 h, List.append_nil]
  | t :: ts, i, ⟨ht, h⟩ => by
    rw [h.take, List.take_add_one, Array.getElem?_toList, ht, List.append_assoc]
    rfl

/-- **Two positions have one span.** -/
theorem Spans.unique : ∀ {ts us : List Token} {i : Nat}, Spans tokens i ts j → Spans tokens i us j → ts = us
  | [], [], _, _, _ => rfl
  | [], u :: us, i, h, h' => by
    have := h.length
    have := h'.length
    simp at *
    omega
  | t :: ts, [], i, h, h' => by
    have := h.length
    have := h'.length
    simp at *
    omega
  | t :: ts, u :: us, i, ⟨ht, h⟩, ⟨hu, h'⟩ => by
    rw [Spans.unique h h', Option.some.inj (ht.symm.trans hu)]

theorem Spans.le_size : ∀ {ts : List Token} {i : Nat}, Spans tokens i ts j → i ≤ tokens.size → j ≤ tokens.size
  | [], _, h, hi => h ▸ hi
  | _ :: _, _, ⟨ht, h⟩, _ => Spans.le_size h (Array.getElem?_eq_some_iff.1 ht).1

/-- **The span of the whole array.** -/
theorem spans_all_iff : Spans tokens 0 ts tokens.size ↔ ts = tokens.toList := by
  have suffix : ∀ (rest pre : List Token), pre ++ rest = tokens.toList →
      Spans tokens pre.length rest tokens.size := by
    intro rest
    induction rest with
    | nil =>
      intro pre h
      rw [spans_nil, ← Array.length_toList, ← h, List.append_nil]
    | cons t rest ih =>
      intro pre h
      refine ⟨?_, ?_⟩
      · rw [← Array.getElem?_toList, ← h]
        simp
      · have := ih (pre ++ [t]) (by simpa using h)
        simpa using this
  constructor
  · intro h
    exact h.unique (suffix tokens.toList [] rfl)
  · rintro rfl
    exact suffix tokens.toList [] rfl

/-- A span from the start to behind the last token is the whole array. -/
theorem Spans.eq_toList (h : Spans tokens 0 ts j) (hj : tokens[j]? = none) : ts = tokens.toList := by
  have hle := h.le_size (Nat.zero_le _)
  have hge := Array.getElem?_eq_none_iff.1 hj
  obtain rfl : j = tokens.size := by omega
  exact spans_all_iff.1 h

end Statechart
