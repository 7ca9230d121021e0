import Statechart.Chart.Assembly
import Statechart.Proofs.Keyed
/-!
# Merged — what a mapping made of many entries holds

Entries are merged one after the other, and two rules are at work at once: an event has the value it was given last,
and the empty event has all the values it was given.  Neither moves a key.  Keys, last values and collected values
together say what the mapping is (`merge_gathers`), so they also say what the handlers of a state are: no transition that
needs no event is lost, and an event that is declared again stays where it was.
-/
namespace Statechart
namespace Keyed

variable {α : Type} {entries : List (Text × α)}

/-- All values that entries give for a key. -/
def given (entries : List (Text × α)) (key : Text) : List α := (entries.filter (fun e => e.1 == key)).map Prod.snd

theorem given_of_fresh {key : Text} (h : key ∉ keys entries) : given entries key = [] := by
  refine List.map_eq_nil_iff.2 (List.filter_eq_nil_iff.2 fun e he hkey => h ?_)
  exact List.mem_map.2 ⟨e, he, by simpa using hkey⟩

/-- What entries are merged to.  A key stands where it first appeared; the collecting key has all its values, any other
key the one behind which it does not appear again. -/
structure MergeOf (entries : List (Text × α)) (m : Keyed (Slot α)) : Prop where
  order : keys m = (keys entries).eraseDups
  last : ∀ key ≠ collecting, ∀ slot, get? m key = some slot ↔
    ∃ v before after, slot = .one v ∧ entries = before ++ (key, v) :: after ∧ key ∉ keys after
  collected : get? m collecting =
    if collecting ∈ keys entries then some (.all (given entries collecting)) else none

/-! ## One entry more -/

theorem keys_add (m : Keyed (Slot α)) (e : Text × α) :
    keys (add m e) = if e.1 ∈ keys m then keys m else keys m ++ [e.1] := by
  unfold add
  split
  · rename_i he
    rw [keys_insert, he]
  · exact keys_insert e.1 _ m

theorem get?_add_of_ne {m : Keyed (Slot α)} {e : Text × α} {key : Text} (h : e.1 ≠ key) :
    get? (add m e) key = get? m key := by
  unfold add
  split
  · rename_i he
    rw [get?_insert, if_neg (he ▸ h)]
  · rw [get?_insert, if_neg h]

theorem get?_add_self {m : Keyed (Slot α)} {e : Text × α} (h : e.1 ≠ collecting) :
    get? (add m e) e.1 = some (.one e.2) := by
  rw [add, if_neg h, get?_insert, if_pos rfl]

theorem get?_add_collecting {m : Keyed (Slot α)} {values : List α}
    (h : (get? m collecting).elim [] Slot.values = values) (v : α) :
    get? (add m (collecting, v)) collecting = some (.all (values ++ [v])) := by
  rw [add, if_pos rfl, get?_insert, if_pos rfl, ← h]
  cases get? m collecting <;> rfl

/-! ## All entries -/

/-- **No entry moves a key.** -/
theorem keys_foldl_add (entries : List (Text × α)) : keys (entries.foldl add []) = (keys entries).eraseDups := by
  induction entries using List.reverseRecOn with
  | nil => rfl
  | append_singleton entries e ih =>
    have hkeys : keys (entries ++ [e]) = keys entries ++ [e.1] := keys_append entries [e]
    rw [List.foldl_append, List.foldl_cons, List.foldl_nil, keys_add, ih, hkeys, eraseDups_concat]
    simp only [List.mem_eraseDups]

/-- **But for the collecting key**, merging gives values as a plain mapping does. -/
theorem get?_foldl_add {key : Text} (hkey : key ≠ collecting) (entries : List (Text × α)) :
    get? (entries.foldl add []) key = (get? (ofEntries entries) key).map .one := by
  induction entries using List.reverseRecOn with
  | nil => rfl
  | append_singleton entries e ih =>
    rw [List.foldl_append, List.foldl_cons, List.foldl_nil, ofEntries_concat, get?_insert]
    by_cases he : e.1 = key
    · subst he
      rw [get?_add_self hkey, if_pos rfl]
      rfl
    · rw [get?_add_of_ne he, ih, if_neg he]

/-- **The collecting key loses no value.** -/
theorem get?_foldl_add_collecting (entries : List (Text × α)) : get? (entries.foldl add []) collecting =
    if collecting ∈ keys entries then some (.all (given entries collecting)) else none := by
  induction entries using List.reverseRecOn with
  | nil => rfl
  | append_singleton entries e ih =>
    obtain ⟨key, v⟩ := e
    rw [List.foldl_append, List.foldl_cons, List.foldl_nil]
    by_cases hkey : key = collecting
    · subst hkey
      have hvalues : (get? (entries.foldl add []) collecting).elim [] Slot.values = given entries collecting := by
        rw [ih]
        split
        · rfl
        · rename_i hfresh
          exact (given_of_fresh hfresh).symm
      rw [get?_add_collecting hvalues, if_pos (by simp [keys])]
      simp [given]
    · have hgiven : given (entries ++ [(key, v)]) collecting = given entries collecting := by
        simp [given, hkey]
      have hmem : collecting ∈ keys (entries ++ [(key, v)]) ↔ collecting ∈ keys entries := by
        simp [keys, Ne.symm hkey]
      rw [get?_add_of_ne hkey, ih, hgiven]
      simp only [hmem]

/-- The value given last is the one behind which its key does not appear again. -/
theorem get?_ofEntries_eq_some_iff {key : Text} {v : α} : get? (ofEntries entries) key = some v ↔
    ∃ before after, entries = before ++ (key, v) :: after ∧ key ∉ keys after := by
  rw [get?_ofEntries, Option.map_eq_some_iff]
  constructor
  · rintro ⟨⟨key', v⟩, hfind, rfl⟩
    obtain ⟨hkey, after, before, hsplit, hnone⟩ := List.find?_eq_some_iff_append.1 hfind
    obtain rfl : key' = key := by simpa using hkey
    refine ⟨before.reverse, after.reverse, ?_, fun hmem => ?_⟩
    · rw [← List.reverse_reverse entries, hsplit]
      simp
    · obtain ⟨e, he, heq⟩ := List.mem_map.1 hmem
      simpa [heq] using hnone e (List.mem_reverse.1 he)
  · rintro ⟨before, after, rfl, hlast⟩
    refine ⟨(key, v), List.find?_eq_some_iff_append.2 ⟨by simp, after.reverse, before.reverse, by simp, ?_⟩, rfl⟩
    intro e he
    have hne : e.1 ≠ key := fun heq => hlast (heq ▸ List.mem_map.2 ⟨e, List.mem_reverse.1 he, rfl⟩)
    simpa using hne

theorem mergeOf_foldl_add (entries : List (Text × α)) : MergeOf entries (entries.foldl add []) := by
  refine ⟨keys_foldl_add entries, fun key hkey slot => ?_, get?_foldl_add_collecting entries⟩
  rw [get?_foldl_add hkey, Option.map_eq_some_iff]
  constructor
  · rintro ⟨v, hv, rfl⟩
    obtain ⟨before, after, hsplit, hlast⟩ := get?_ofEntries_eq_some_iff.1 hv
    exact ⟨v, before, after, rfl, hsplit, hlast⟩
  · rintro ⟨v, before, after, rfl, hsplit, hlast⟩
    exact ⟨v, get?_ofEntries_eq_some_iff.2 ⟨before, after, hsplit, hlast⟩, rfl⟩

/-! ## Nothing else is merged from the entries -/

/-- Where keys are distinct, a mapping is what its keys and their values are. -/
theorem ext_of_nodup : ∀ {m m' : Keyed α}, (keys m).Nodup → keys m = keys m' → (∀ key, get? m key = get? m' key) →
    m = m'
  | [], [], _, _, _ => rfl
  | (key, v) :: rest, (key', v') :: rest', hnodup, hkeys, hget => by
    obtain ⟨hkey, hrest⟩ := List.nodup_cons.1 hnodup
    obtain ⟨hhead, htail⟩ : key = key' ∧ keys rest = keys rest' := List.cons.inj hkeys
    subst hhead
    have hkey' : key ∉ keys rest' := by
      rw [← htail]
      exact hkey
    have hv : v = v' := by simpa [get?] using hget key
    have hvalues : ∀ other, get? rest other = get? rest' other := by
      intro other
      by_cases hother : key = other
      · subst hother
        rw [get?_of_fresh hkey, get?_of_fresh hkey']
      · simpa [get?, hother] using hget other
    rw [hv, ext_of_nodup hrest htail hvalues]

theorem MergeOf.unique {m m' : Keyed (Slot α)} (h : MergeOf entries m) (h' : MergeOf entries m') : m = m' := by
  have hnodup : (keys m).Nodup := by
    rw [h.order, keys, ← keys_ofEntries]
    exact nodup_keys_ofEntries entries
  refine ext_of_nodup hnodup (h.order.trans h'.order.symm) fun key => ?_
  by_cases hkey : key = collecting
  · rw [hkey, h.collected, h'.collected]
  · exact Option.ext fun slot => (h.last key hkey slot).trans (h'.last key hkey slot).symm

end Keyed

/-! ## Handlers -/

namespace Assembly

open Keyed (keys collecting given merge MergeOf)

/-- A transition under the event that it is written with. -/
def pairs (entries : List Entry) : List (Text × Transition) := entries.map (fun e => (e.event, e.transition))

theorem flatten_singletons (entries : List Entry) :
    (entries.map (fun e => [(e.event, e.transition)])).flatten = pairs entries := by
  rw [← List.flatMap_def, ← List.map_eq_flatMap]
  rfl

theorem handlers_eq_none_iff {entries : List Entry} : handlers entries = none ↔ entries = [] := by
  unfold handlers
  cases entries <;> simp

/-- **Handlers are what the transitions are merged to.** -/
theorem handlers_getD (entries : List Entry) : (handlers entries).getD [] = (pairs entries).foldl Keyed.add [] := by
  unfold handlers
  split
  · rename_i hempty
    rw [List.isEmpty_iff.1 hempty]
    rfl
  · rw [Option.getD_some, merge, flatten_singletons]

/-- The events that a state reacts to, in their order. -/
def events (entries : List Entry) : List Text := keys ((handlers entries).getD [])

theorem events_eq (entries : List Entry) : events entries = (entries.map Entry.event).eraseDups := by
  rw [events, handlers_getD, Keyed.keys_foldl_add, keys, pairs, List.map_map]
  rfl

/-- **An event that is declared again stays where it was.** -/
theorem events_redeclared {before : List Entry} {e : Entry} (h : e.event ∈ before.map Entry.event)
    (after : List Entry) : events (before ++ e :: after) = events (before ++ after) := by
  rw [events_eq, events_eq, List.map_append, List.map_append, List.map_cons, List.eraseDups_append,
    List.eraseDups_append, List.removeAll, List.removeAll, List.filter_cons, if_neg (by simpa using h)]

/-- **No transition that needs no event is lost.** -/
theorem transients_of_handlers {n : Node} {entries : List Entry} (h : n.on = handlers entries) :
    n.transients = (entries.filter (fun e => e.event == collecting)).map Entry.transition := by
  have hgiven : given (pairs entries) collecting =
      (entries.filter (fun e => e.event == collecting)).map Entry.transition := by
    rw [given, pairs, List.filter_map, List.map_map]
    rfl
  unfold Node.transients
  rw [h, handlers_getD, Keyed.get?_foldl_add_collecting, ← hgiven]
  split
  · rename_i hnone
    exact (Keyed.given_of_fresh (by simpa using hnone)).symm
  · rename_i slot hslot
    split at hslot
    · cases hslot
      rfl
    · cases hslot

/-- **What mappings are merged to.**  It is the one mapping in which keys stand where they first appeared, the
collecting key has all its values and any other key its last one.  So the handlers of a state keep every transition
that needs no event, in order, and an event that is declared again does not move. -/
theorem merge_gathers {α : Type} (items : List (Keyed α)) (entries : List Entry) :
    (∀ m, MergeOf items.flatten m ↔ m = merge items) ∧
    (handlers entries = none ↔ entries = []) ∧ (∀ hs ∈ handlers entries, MergeOf (pairs entries) hs) ∧
    (∀ n : Node, n.on = handlers entries →
      n.transients = (entries.filter (fun e => e.event == collecting)).map Entry.transition) ∧
    ∀ before e after, entries = before ++ e :: after → e.event ∈ before.map Entry.event →
      events entries = events (before ++ after) := by
  refine ⟨fun m => ⟨fun h => h.unique (Keyed.mergeOf_foldl_add _), ?_⟩, handlers_eq_none_iff, ?_, ?_, ?_⟩
  · rintro rfl
    exact Keyed.mergeOf_foldl_add items.flatten
  · intro hs hhs
    have hmerged : hs = (pairs entries).foldl Keyed.add [] := by
      rw [← handlers_getD, Option.mem_def.1 hhs, Option.getD_some]
    rw [hmerged]
    exact Keyed.mergeOf_foldl_add (pairs entries)
  · intro n hn
    exact transients_of_handlers hn
  · rintro before e after rfl hevent
    exact events_redeclared hevent after

example : merge [[("GO".toList, 'a')], [([], 'b')], [("GO".toList, 'c'), ([], 'd')]] =
    [("GO".toList, .one 'c'), ([], .all ['b', 'd'])] := by
  decide

end Assembly
end Statechart
