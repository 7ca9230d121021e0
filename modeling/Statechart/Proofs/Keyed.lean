import Mathlib.Data.List.Induction
import Statechart.Keyed
/-!
# Keyed — what a mapping made of entries holds

Giving a value to a key adds one pair and loses none of the other keys, so what holds of all entries holds of all pairs
of the mapping, its keys are distinct, and it is only empty if there were no entries.  A key stands where it was first
given and holds what it was given last (`keys_ofEntries`, `get?_ofEntries`).  Entries whose keys are distinct are the
mapping themselves (`ofEntries_of_nodup`).
-/
namespace Statechart
namespace Keyed

variable {α : Type}

theorem mem_insert {key : Text} {value : α} {x : Text × α} : ∀ {m : Keyed α}, x ∈ insert m key value →
    x = (key, value) ∨ x ∈ m
  | [], h => .inl (List.mem_singleton.1 h)
  | (k, v) :: rest, h => by
    rw [insert] at h
    split at h
    · exact (List.mem_cons.1 h).imp_right (List.mem_cons_of_mem _)
    · rcases List.mem_cons.1 h with rfl | h
      · exact .inr List.mem_cons_self
      · exact (mem_insert h).imp_right (List.mem_cons_of_mem _)

theorem insert_ne_nil (m : Keyed α) (key : Text) (value : α) : insert m key value ≠ [] := by
  cases m with
  | nil => exact List.cons_ne_nil _ _
  | cons e rest =>
    rw [insert]
    split <;> exact List.cons_ne_nil _ _

theorem nodup_keys_insert {m : Keyed α} (h : (keys m).Nodup) (key : Text) (value : α) :
    (keys (insert m key value)).Nodup := by
  rw [keys_insert]
  by_cases hk : key ∈ keys m
  · rw [if_pos hk]
    exact h
  · rw [if_neg hk, List.nodup_append]
    refine ⟨h, by simp, fun a ha b hb hab => hk ?_⟩
    rw [← List.mem_singleton.1 hb, ← hab]
    exact ha

theorem mem_of_get? {key : Text} {value : α} : ∀ {m : Keyed α}, get? m key = some value → (key, value) ∈ m
  | (k, v) :: rest, h => by
    rw [get?] at h
    split at h
    · rename_i hk
      cases h
      exact hk ▸ List.mem_cons_self
    · exact List.mem_cons_of_mem _ (mem_of_get? h)

/-- Where keys are distinct, the value of a key is the one it stands with. -/
theorem get?_eq_some_iff {key : Text} {value : α} : ∀ {m : Keyed α}, (keys m).Nodup →
    (get? m key = some value ↔ (key, value) ∈ m)
  | [], _ => by simp [get?]
  | (k, v) :: rest, h => by
    obtain ⟨hk, hrest⟩ := List.nodup_cons.1 h
    have ih : get? rest key = some value ↔ (key, value) ∈ rest := get?_eq_some_iff hrest
    by_cases heq : k = key
    · subst heq
      have haway : (k, value) ∉ rest := fun hmem => hk (List.mem_map.2 ⟨_, hmem, rfl⟩)
      simp [get?, haway, eq_comm]
    · simp [get?, heq, Ne.symm heq, ih]

theorem get?_append (m m' : Keyed α) (key : Text) : get? (m ++ m') key = (get? m key).or (get? m' key) := by
  induction m with
  | nil => rfl
  | cons e rest ih =>
    rw [List.cons_append, get?, get?, ih]
    split <;> rfl

/-! ## Mappings made by inserting -/

theorem mem_of_mem_ofEntries {entries : List (Text × α)} : ∀ x ∈ ofEntries entries, x ∈ entries := by
  refine List.foldlRecOn entries _ (motive := fun m : Keyed α => ∀ x ∈ m, x ∈ entries) (by simp) ?_
  intro m hm e he x hx
  rcases mem_insert hx with rfl | hx
  · exact he
  · exact hm x hx

theorem nodup_keys_ofEntries (entries : List (Text × α)) : (keys (ofEntries entries)).Nodup :=
  List.foldlRecOn entries _ (motive := fun m : Keyed α => (keys m).Nodup) List.nodup_nil
    fun _ h _ _ => nodup_keys_insert h _ _

theorem foldl_ne_nil {β γ : Type} {op : List γ → β → List γ} (hop : ∀ m e, op m e ≠ []) :
    ∀ {entries : List β} (m : List γ), entries ≠ [] → entries.foldl op m ≠ []
  | [], _, h => absurd rfl h
  | [e], m, _ => hop m e
  | e :: e' :: entries, m, _ => foldl_ne_nil hop (op m e) (List.cons_ne_nil e' entries)

theorem ofEntries_ne_nil {entries : List (Text × α)} (h : entries ≠ []) : ofEntries entries ≠ [] := by
  have hop : ∀ (m : Keyed α) (e : Text × α), insert m e.1 e.2 ≠ [] := fun m e => insert_ne_nil m e.1 e.2
  exact foldl_ne_nil hop [] h

/-! ## The place and the value of a key -/

theorem ofEntries_concat (entries : List (Text × α)) (e : Text × α) :
    ofEntries (entries ++ [e]) = insert (ofEntries entries) e.1 e.2 := by
  unfold ofEntries
  rw [List.foldl_append, List.foldl_cons, List.foldl_nil]

theorem eraseDups_concat (l : List Text) (a : Text) :
    (l ++ [a]).eraseDups = if a ∈ l then l.eraseDups else l.eraseDups ++ [a] := by
  rw [List.eraseDups_append]
  by_cases ha : a ∈ l <;> simp [List.removeAll, ha, List.eraseDups_cons]

/-- **A key stands where it first appeared.** -/
theorem keys_ofEntries (entries : List (Text × α)) : keys (ofEntries entries) = (entries.map Prod.fst).eraseDups := by
  induction entries using List.reverseRecOn with
  | nil => rfl
  | append_singleton entries e ih =>
    rw [ofEntries_concat, keys_insert, ih, List.map_append, List.map_singleton, eraseDups_concat]
    simp only [List.mem_eraseDups]

/-- **A key has the value it was given last.** -/
theorem get?_ofEntries (entries : List (Text × α)) (key : Text) :
    get? (ofEntries entries) key = (entries.reverse.find? (fun e => e.1 == key)).map Prod.snd := by
  induction entries using List.reverseRecOn with
  | nil => rfl
  | append_singleton entries e ih =>
    rw [ofEntries_concat, get?_insert, ih, List.reverse_append, List.reverse_singleton, List.singleton_append,
      List.find?_cons]
    by_cases he : e.1 = key
    · simp [he]
    · simp [he, beq_eq_false_iff_ne.2 he]

/-- The keys whose value has a property, by looking the keys up. -/
theorem keys_filter (p : α → Bool) : ∀ {m : Keyed α}, (keys m).Nodup →
    keys (m.filter (fun e => p e.2)) = (keys m).filter (fun key => (get? m key).any p)
  | [], _ => rfl
  | (k, v) :: rest, h => by
    obtain ⟨hk, hrest⟩ := List.nodup_cons.1 h
    have htail : (keys rest).filter (fun key => (get? ((k, v) :: rest) key).any p) =
        (keys rest).filter (fun key => (get? rest key).any p) :=
      List.filter_congr fun key hkey => by
        have hne : k ≠ key := fun heq => hk (heq ▸ hkey)
        rw [get?, if_neg hne]
    have hhead : (get? ((k, v) :: rest) k).any p = p v := by
      rw [get?, if_pos rfl, Option.any_some]
    show keys (((k, v) :: rest).filter _) = (k :: keys rest).filter _
    rw [List.filter_cons, List.filter_cons, htail, ← keys_filter p hrest, hhead]
    by_cases hv : p v <;> simp [hv, keys]

/-! ## Merged mappings -/

theorem add_ne_nil (m : Keyed (Slot α)) (e : Text × α) : add m e ≠ [] := by
  unfold add
  split <;> exact insert_ne_nil _ _ _

theorem nodup_keys_merge (items : List (Keyed α)) : (keys (merge items)).Nodup := by
  refine List.foldlRecOn items.flatten _ (motive := fun m : Keyed (Slot α) => (keys m).Nodup) List.nodup_nil ?_
  intro m h e _
  unfold add
  split <;> exact nodup_keys_insert h _ _

theorem merge_ne_nil {items : List (Keyed α)} (h : items.flatten ≠ []) : merge items ≠ [] :=
  foldl_ne_nil add_ne_nil [] h

/-- The collecting key holds some of the values given for it, any other key one of its own. -/
def Holds (entries : List (Text × α)) : Text × Slot α → Prop
  | (key, .one v) => key ≠ collecting ∧ (key, v) ∈ entries
  | (key, .all vs) => key = collecting ∧ vs ≠ [] ∧ ∀ v ∈ vs, (collecting, v) ∈ entries

/-- **What a merged mapping holds was given**: a single value for every key but the collecting one. -/
theorem holds_of_mem_merge {items : List (Keyed α)} : ∀ x ∈ merge items, Holds items.flatten x := by
  refine List.foldlRecOn items.flatten _ (motive := fun m : Keyed (Slot α) => ∀ x ∈ m, Holds items.flatten x)
    (by simp) ?_
  intro m hm e he x hx
  obtain ⟨key, v⟩ := e
  unfold add at hx
  split at hx
  · rename_i hkey
    have hv : (collecting, v) ∈ items.flatten := by
      rw [← show key = collecting from hkey]
      exact he
    rcases mem_insert hx with rfl | hx
    · refine ⟨rfl, by simp, fun u hu => ?_⟩
      rcases List.mem_append.1 hu with hu | hu
      · split at hu
        · rename_i slot hslot
          have hold := hm _ (mem_of_get? hslot)
          cases slot with
          | one w => exact absurd rfl hold.1
          | all ws => exact hold.2.2 u hu
        · cases hu
      · rw [List.mem_singleton.1 hu]
        exact hv
    · exact hm x hx
  · rename_i hkey
    rcases mem_insert hx with rfl | hx
    · exact ⟨hkey, he⟩
    · exact hm x hx

/-! ## Distinct keys -/

theorem insert_of_fresh {key : Text} {value : α} :
    ∀ {m : Keyed α}, key ∉ keys m → insert m key value = m ++ [(key, value)]
  | [], _ => rfl
  | (k, v) :: rest, h => by
    have hk : k ≠ key := fun hk => h (hk ▸ List.mem_cons_self)
    have hrest : key ∉ keys rest := fun hm => h (List.mem_cons_of_mem _ hm)
    rw [insert, if_neg hk, insert_of_fresh hrest, List.cons_append]

theorem insert_of_last {key : Text} {value value' : α} : ∀ {m : Keyed α}, key ∉ keys m →
    insert (m ++ [(key, value)]) key value' = m ++ [(key, value')]
  | [], _ => by rw [List.nil_append, insert, if_pos rfl, List.nil_append]
  | (k, v) :: rest, h => by
    have hk : k ≠ key := fun hk => h (hk ▸ List.mem_cons_self)
    have hrest : key ∉ keys rest := fun hm => h (List.mem_cons_of_mem _ hm)
    rw [List.cons_append, insert, if_neg hk, insert_of_last hrest, List.cons_append]

theorem get?_of_fresh {key : Text} : ∀ {m : Keyed α}, key ∉ keys m → get? m key = none
  | [], _ => rfl
  | (k, v) :: rest, h => by
    have hk : k ≠ key := fun hk => h (hk ▸ List.mem_cons_self)
    rw [get?, if_neg hk, get?_of_fresh (fun hm => h (List.mem_cons_of_mem _ hm))]

theorem get?_of_last {key : Text} {value : α} :
    ∀ {m : Keyed α}, key ∉ keys m → get? (m ++ [(key, value)]) key = some value
  | [], _ => by rw [List.nil_append, get?, if_pos rfl]
  | (k, v) :: rest, h => by
    have hk : k ≠ key := fun hk => h (hk ▸ List.mem_cons_self)
    rw [List.cons_append, get?, if_neg hk, get?_of_last (fun hm => h (List.mem_cons_of_mem _ hm))]

theorem keys_append (m m' : Keyed α) : keys (m ++ m') = keys m ++ keys m' := List.map_append

theorem fresh_of_nodup {m rest : Keyed α} {key : Text} {value : α} (h : (keys (m ++ (key, value) :: rest)).Nodup) :
    key ∉ keys m := by
  rw [keys_append, List.nodup_append] at h
  intro hm
  exact h.2.2 key hm key List.mem_cons_self rfl

theorem foldl_insert_of_nodup : ∀ {entries m : Keyed α}, (keys (m ++ entries)).Nodup →
    entries.foldl (fun m e => insert m e.1 e.2) m = m ++ entries
  | [], m, _ => by rw [List.foldl_nil, List.append_nil]
  | (key, value) :: entries, m, h => by
    have hnext : (keys ((m ++ [(key, value)]) ++ entries)).Nodup := by
      rw [List.append_assoc, List.singleton_append]
      exact h
    rw [List.foldl_cons, insert_of_fresh (fresh_of_nodup h), foldl_insert_of_nodup hnext, List.append_assoc,
      List.singleton_append]

/-- **Distinct keys stay as they are.** -/
theorem ofEntries_of_nodup {m : Keyed α} (h : (keys m).Nodup) : ofEntries m = m := foldl_insert_of_nodup (m := []) h

/-- The empty event goes on collecting where it stands. -/
theorem foldl_add_collecting {m : Keyed (Slot α)} (h : collecting ∉ keys m) : ∀ (values collected : List α),
    (values.map (fun v => (collecting, v))).foldl add (m ++ [(collecting, .all collected)]) =
      m ++ [(collecting, .all (collected ++ values))]
  | [], collected => by rw [List.map_nil, List.foldl_nil, List.append_nil]
  | v :: values, collected => by
    have hadd : add (m ++ [(collecting, .all collected)]) (collecting, v) =
        m ++ [(collecting, .all (collected ++ [v]))] := by
      unfold add
      rw [if_pos rfl, get?_of_last h, insert_of_last h]
      rfl
    rw [List.map_cons, List.foldl_cons, hadd, foldl_add_collecting h values, List.append_assoc, List.singleton_append]

end Keyed
end Statechart
