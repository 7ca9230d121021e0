import Mathlib
import Statechart.Proofs.Chart.Shape
/-!
# Declared — the children of a state by the order of their declarations

A child may be declared again.  Then its last declaration is the one that survives, in the place of the first.  So of
the ids whose surviving declaration is marked, the default one is not the id of the marked declaration that comes last,
but the id that is declared for the first time after all the others (`initial_declared`).
-/
namespace Statechart
namespace Assembly

open Keyed (keys)

/-- The ids in the order of their first declarations. -/
def declared (children : List Node) : List Text := (children.map Node.id).eraseDups

/-- The declaration of an id that survives: the last one. -/
def survivor? (children : List Node) (id : Text) : Option Node := children.reverse.find? (fun c => c.id == id)

/-- Whether the surviving declaration of an id is marked. -/
def marks (children : List Node) (id : Text) : Bool := (survivor? children id).any (fun c => c.isInitial == some true)

variable {children : List Node}

theorem mem_declared {id : Text} : id ∈ declared children ↔ ∃ c ∈ children, c.id = id := by
  unfold declared
  rw [List.mem_eraseDups, List.mem_map]

theorem declared_of_marks {id : Text} (h : marks children id) : id ∈ declared children := by
  unfold marks survivor? at h
  cases hfind : children.reverse.find? (fun c => c.id == id) with
  | none => simp [hfind] at h
  | some c =>
    have hid : c.id = id := by simpa using List.find?_some hfind
    exact mem_declared.2 ⟨c, List.mem_reverse.1 (List.mem_of_find?_eq_some hfind), hid⟩

/-! ## The mapping of the children -/

theorem children_eq_ofEntries {n : Node} (h : n.states = childrenByName children) :
    n.children = Keyed.ofEntries (children.map (fun c => (c.id, c))) := by
  unfold Node.children
  rw [h, childrenByName]
  cases children <;> rfl

/-- **An id stands where it was declared first.** -/
theorem keys_children {n : Node} (h : n.states = childrenByName children) : keys n.children = declared children := by
  rw [children_eq_ofEntries h, Keyed.keys_ofEntries, List.map_map]
  rfl

/-- **An id stands for its last declaration.** -/
theorem child?_eq_survivor? {n : Node} (h : n.states = childrenByName children) (id : Text) :
    n.child? id = survivor? children id := by
  unfold Node.child? survivor?
  rw [children_eq_ofEntries h, Keyed.get?_ofEntries, ← List.map_reverse, List.find?_map, Option.map_map]
  exact Option.map_id'

theorem nodup_declared (children : List Node) : (declared children).Nodup := by
  have h := Keyed.nodup_keys_ofEntries (children.map (fun c => (c.id, c)))
  rw [Keyed.keys_ofEntries, List.map_map] at h
  exact h

/-- **The marked children** are the ids that are marked, in the order of their first declarations. -/
theorem marked_eq {n : Node} (h : n.states = childrenByName children) :
    marked n = (declared children).filter (marks children) := by
  have hnodup : (keys n.children).Nodup := by
    rw [keys_children h]
    exact nodup_declared children
  unfold marked
  rw [← keys_children h]
  refine (Keyed.keys_filter (fun c => c.isInitial == some true) hnodup).trans (List.filter_congr fun id _ => ?_)
  unfold marks
  rw [← child?_eq_survivor? h]
  rfl

/-! ## The default child -/

/-- The id of the default child: of all ids that are marked, the one whose first declaration comes last; the id of the
first declaration, where none is marked. -/
inductive DefaultAmong (children : List Node) (name : Text) : Prop where
  | marked {before after : List Node} {c : Node} (split : children = before ++ c :: after) (id : c.id = name)
      (first : ∀ x ∈ before, x.id ≠ name) (mark : marks children name)
      (last : ∀ other, marks children other → other ≠ name → ∃ x ∈ before, x.id = other)
  | first {c : Node} {rest : List Node} (split : children = c :: rest) (id : c.id = name)
      (unmarked : ∀ other, marks children other = false)

theorem declared_append_cons {earlier : List Node} {c : Node} (h : ∀ x ∈ earlier, x.id ≠ c.id) (later : List Node) :
    ∃ after, declared (earlier ++ c :: later) = declared earlier ++ c.id :: after := by
  have hfresh : c.id ∉ earlier.map Node.id := fun hmem => by
    obtain ⟨x, hx, hid⟩ := List.mem_map.1 hmem
    exact h x hx hid
  unfold declared
  rw [List.map_append, List.map_cons, List.eraseDups_append, List.removeAll, List.filter_cons,
    if_pos (by simpa using hfresh), List.eraseDups_cons]
  exact ⟨_, rfl⟩

/-- **Where an id stands** among the ids, it cuts the declarations: those before its first one have the ids before. -/
theorem split_of_declared {before after : List Text} {name : Text} (h : declared children = before ++ name :: after) :
    ∃ earlier c later, children = earlier ++ c :: later ∧ c.id = name ∧ (∀ x ∈ earlier, x.id ≠ name) ∧
      declared earlier = before := by
  have hmem : name ∈ declared children := by simp [h]
  have hname : name ∉ before ∧ name ∉ after := by
    have hnodup := nodup_declared children
    rw [h, List.nodup_append, List.nodup_cons] at hnodup
    exact ⟨fun hb => hnodup.2.2 name hb name List.mem_cons_self rfl, hnodup.2.1.1⟩
  obtain ⟨c, hc, hid⟩ := mem_declared.1 hmem
  have hfound : (children.find? (fun c => c.id == name)).isSome := List.find?_isSome.2 ⟨c, hc, by simpa using hid⟩
  obtain ⟨c, hfind⟩ := Option.isSome_iff_exists.1 hfound
  obtain ⟨hid, earlier, later, rfl, hearlier⟩ := List.find?_eq_some_iff_append.1 hfind
  obtain rfl : c.id = name := by simpa using hid
  have hfresh : ∀ x ∈ earlier, x.id ≠ c.id := fun x hx => by simpa using hearlier x hx
  obtain ⟨rest, hrest⟩ := declared_append_cons hfresh later
  have heq := (List.append_cons_inj_of_notMem hname.1 hname.2).1 (h.symm.trans hrest)
  exact ⟨earlier, c, later, rfl, rfl, hfresh, heq.1.symm⟩

/-- **Finding the default child**, it is the one by the order of the declarations. -/
theorem defaultAmong_getLastD {c : Node} {rest : List Node} (h : children = c :: rest) :
    DefaultAmong children (((declared children).filter (marks children)).getLastD c.id) := by
  rw [List.getLastD_eq_getLast?]
  cases hlast : ((declared children).filter (marks children)).getLast? with
  | none =>
    have hnone := List.getLast?_eq_none_iff.1 hlast
    refine .first h rfl fun other => ?_
    by_contra hmark
    have hother : marks children other := by simpa using hmark
    exact List.filter_eq_nil_iff.1 hnone other (declared_of_marks hother) hother
  | some name =>
    obtain ⟨hmark, before, after, hdeclared, hnone⟩ := split_of_getLast?_filter hlast
    obtain ⟨earlier, c, later, hchildren, hid, hfresh, hearlier⟩ := split_of_declared hdeclared
    refine .marked hchildren hid hfresh hmark fun other hother hne => mem_declared.1 ?_
    have hmem := declared_of_marks hother
    rw [hdeclared, List.mem_append, List.mem_cons] at hmem
    rcases hmem with hb | rfl | ha
    · rwa [hearlier]
    · exact absurd rfl hne
    · exact absurd hother (by simp [hnone other ha])

/-- Of two marked ids each would be declared before the other. -/
theorem DefaultAmong.unique {name name' : Text} (h : DefaultAmong children name) (h' : DefaultAmong children name') :
    name' = name := by
  cases h with
  | first split id unmarked =>
    cases h' with
    | first split' id' _ =>
      cases split.symm.trans split'
      exact id'.symm.trans id
    | marked _ _ _ mark' _ => exact absurd mark' (by simp [unmarked])
  | marked split id first mark last =>
    cases h' with
    | first _ _ unmarked' => exact absurd mark (by simp [unmarked'])
    | @marked before' after' c' split' id' first' mark' last' =>
      by_contra hne
      obtain ⟨x, hx, hxid⟩ := last name' mark' hne
      obtain ⟨y, hy, hyid⟩ := last' name mark (Ne.symm hne)
      rcases List.prefix_or_prefix_of_prefix ⟨_, split.symm⟩ ⟨_, split'.symm⟩ with hp | hp
      · exact first' x (hp.mem hx) hxid
      · exact first y (hp.mem hy) hyid

/-- **The default child is read off the declarations.** -/
theorem withInitial_initial {n : Node} {c : Node} {rest : List Node} (h : n.states = childrenByName (c :: rest)) :
    (withInitial n).initial = some (((declared (c :: rest)).filter (marks (c :: rest))).getLastD c.id) := by
  obtain ⟨after, hafter⟩ : ∃ after, declared (c :: rest) = c.id :: after := ⟨_, List.eraseDups_cons⟩
  have hkeys : keys n.children = c.id :: after := (keys_children h).trans hafter
  rw [← marked_eq h]
  unfold withInitial
  split
  · rename_i hnil
    rw [hnil] at hkeys
    cases hkeys
  · rename_i first _ _ hcons
    rw [hcons] at hkeys
    rw [show first = c.id from (List.cons.inj hkeys).1]

/-- **The default child among declarations** is the only one there is, of the state of a draft and of the state that
holds several outermost states: of the ids whose last declaration is marked the one declared first after all the
others, and the id of the first declaration if there are none. -/
theorem initial_declared {children : List Node} (h : children ≠ []) : ∃ name,
    (∀ other, DefaultAmong children other ↔ other = name) ∧
    (∀ d : Draft, childrenOf d.body = children → (assemble d).initial = some name) ∧
    ∀ rootId, 2 ≤ children.length → (root rootId children).initial = some name := by
  cases children with
  | nil => exact absurd rfl h
  | cons c rest =>
    have hdefault : DefaultAmong (c :: rest) _ := defaultAmong_getLastD rfl
    refine ⟨_, fun other => ⟨hdefault.unique, fun hother => hother ▸ hdefault⟩, fun d hd => ?_, fun rootId hlength => ?_⟩
    · exact withInitial_initial (n := unsettled d) (congrArg childrenByName hd)
    · cases rest with
      | nil => simp at hlength
      | cons c' rest => exact withInitial_initial (n := synthetic rootId (c :: c' :: rest)) rfl

def declaration (name : Text) (isInitial : Option Bool) : Node where
  id := name
  kind := .atomic
  isInitial := isInitial

/-- A child `a` without a mark, a marked child `b`, and `a` again with a mark. -/
def markedAgain : List Node :=
  [declaration "a".toList none, declaration "b".toList (some true), declaration "a".toList (some true)]

/-- What is read of a state `r` with children and no entries. -/
def declaring (children : List Node) : Draft where
  heading := { name := "r".toList, token := { kind := .identifier, line := 1, col := 1, text := some "r".toList } }
  body := children.map .child

theorem initial_declared_markedAgain : markedAgain ≠ [] ∧ 2 ≤ markedAgain.length ∧
    (∀ other, DefaultAmong markedAgain other ↔ other = "b".toList) ∧
    (assemble (declaring markedAgain)).initial = some "b".toList ∧
    (root "m".toList markedAgain).initial = some "b".toList := by
  have hne : markedAgain ≠ [] := List.cons_ne_nil _ _
  have hlength : 2 ≤ markedAgain.length := by decide
  obtain ⟨name, honly, hdraft, hroot⟩ := initial_declared hne
  have hname : some "b".toList = some name := hroot "m".toList hlength
  obtain rfl := Option.some.inj hname
  exact ⟨hne, hlength, honly, hdraft (declaring markedAgain) rfl, hname⟩

/-- **The last declaration that is marked is not the default child**, even if it survives: its id may stand further up. -/
theorem not_last_declaration : ¬ ∀ (d : Draft) (before after : List Node) (c : Node),
    childrenOf d.body = before ++ c :: after → c.isInitial = some true →
    (∀ x ∈ after, x.id ≠ c.id ∧ marks (childrenOf d.body) x.id = false) → (assemble d).initial = some c.id := by
  intro h
  have hlast := h (declaring markedAgain) (markedAgain.take 2) [] (declaration "a".toList (some true)) rfl rfl
    (List.forall_mem_nil _)
  have hfound : (assemble (declaring markedAgain)).initial = some "b".toList := rfl
  rw [hfound] at hlast
  exact absurd hlast (by decide)

end Assembly
end Statechart
