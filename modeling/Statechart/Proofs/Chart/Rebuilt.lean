import Statechart.Proofs.Chart.Shape
import Statechart.Proofs.Doc.JsonRoundTrip
/-!
# Rebuilt — a state from what its document says

The document of a state leaves out what is absent and writes one transition and a sequence of transitions in the same
place.  Neither loses anything: a reader that looks every field up by its key, takes a missing key for an absent field
and tells a mapping from a sequence gets the state back.  With the text of a document read as what it says, two states
have the same text only if they are the same.
-/
namespace Statechart

open Keyed (keys)

/-! ## Fields -/

namespace Json

def text? : Json → Option Text
  | .text t => some t
  | _ => none

def flag? : Json → Option Bool
  | .flag b => some b
  | _ => none

def texts? : Json → Option (List Text)
  | .list items => items.mapM text?
  | _ => none

/-- The value under a key that has to be there. -/
def required? {α : Type} (m : Keyed Json) (key : Text) (read : Json → Option α) : Option α :=
  (Keyed.get? m key).bind read

/-- The value under a key that may be missing. -/
def field? {α : Type} (m : Keyed Json) (key : Text) (read : Json → Option α) : Option (Option α) :=
  match Keyed.get? m key with
  | none => some none
  | some v => (read v).map some

end Json

namespace Doc

theorem get?_optional {α : Type} (key other : Text) (write : α → Doc) (o : Option α) :
    Keyed.get? (optional key write o) other = if key = other then o.map write else none := by
  cases o with
  | none => simp [optional, Keyed.get?]
  | some a => rfl

theorem keys_optional {α : Type} (key : Text) (write : α → Doc) (o : Option α) :
    (keys (optional key write o)).Sublist [key] := by
  cases o with
  | none => exact List.nil_sublist _
  | some a => exact List.Sublist.refl _

theorem mem_optional {α : Type} {key : Text} {write : α → Doc} {o : Option α} {e : Text × Doc}
    (h : e ∈ optional key write o) : ∃ a ∈ o, e.2 = write a := by
  cases o with
  | none => cases h
  | some a => exact ⟨a, rfl, by rw [List.mem_singleton.1 h]⟩

theorem itemValues_eq_map (items : List Doc) : itemValues items = items.map value := by
  induction items with
  | nil => rfl
  | cons d rest ih => rw [itemValues, ih, List.map_cons]

theorem entryValues_eq_map (m : Keyed Doc) : entryValues m = m.map (fun e => (e.1, e.2.value)) := by
  induction m with
  | nil => rfl
  | cons e rest ih => rw [entryValues, ih, List.map_cons]

theorem get?_entryValues (key : Text) (m : Keyed Doc) :
    Keyed.get? (entryValues m) key = (Keyed.get? m key).map value := by
  induction m with
  | nil => rfl
  | cons e rest ih =>
    rw [entryValues, Keyed.get?, Keyed.get?, ih]
    split <;> rfl

theorem keys_entryValues (m : Keyed Doc) : keys (entryValues m) = keys m := by
  rw [entryValues_eq_map, keys, List.map_map]
  rfl

end Doc

namespace Json

variable {α : Type} {m : Keyed Doc} {key : Text} {read : Json → Option α}

theorem required?_entryValues {d : Doc} {a : α} (hget : Keyed.get? m key = some d) (hread : read d.value = some a) :
    required? (Doc.entryValues m) key read = some a := by
  rw [required?, Doc.get?_entryValues, hget]
  exact hread

/-- **A field is absent if and only if its key is missing.** -/
theorem field?_entryValues {write : α → Doc} {o : Option α} (hget : Keyed.get? m key = o.map write)
    (hread : ∀ a ∈ o, read (write a).value = some a) : field? (Doc.entryValues m) key read = some o := by
  rw [field?, Doc.get?_entryValues, hget]
  cases o with
  | none => rfl
  | some a =>
    show (read (write a).value).map some = _
    rw [hread a rfl]
    rfl

/-- What is written item by item is read item by item. -/
theorem mapM_map_of_inverse {α β : Type} {write : α → β} {read : β → Option α} (h : ∀ a, read (write a) = some a) :
    ∀ items : List α, (items.map write).mapM read = some items
  | [] => rfl
  | a :: rest => by
    rw [List.map_cons, List.mapM_cons, h, mapM_map_of_inverse h rest]
    rfl

theorem text?_value (t : Text) : text? (Doc.text t).value = some t := rfl

theorem flag?_value (b : Bool) : flag? (Doc.flag b).value = some b := rfl

theorem texts?_value (names : List Text) : texts? (Doc.list (names.map .text)).value = some names := by
  rw [Doc.value, texts?, Doc.itemValues_eq_map, List.map_map]
  exact mapM_map_of_inverse text?_value names

end Json

/-! ## Transitions -/

namespace Transition

def fields (t : Transition) : Keyed Doc :=
  [("target".toList, .text t.target)] ++ Doc.optional "cond".toList .text t.cond ++
    Doc.optional "actions".toList (fun names => .list (names.map .text)) t.actions

def rebuilt? : Json → Option Transition
  | .map m => do
    let target ← Json.required? m "target".toList Json.text?
    let cond ← Json.field? m "cond".toList Json.text?
    let actions ← Json.field? m "actions".toList Json.texts?
    return ⟨target, cond, actions⟩
  | _ => none

theorem rebuilt?_toDoc (t : Transition) : rebuilt? t.toDoc.value = some t := by
  have htarget : Keyed.get? t.fields "target".toList = some (.text t.target) := rfl
  have hcond : Keyed.get? t.fields "cond".toList = t.cond.map .text := by
    simp [fields, Keyed.get?_append, Keyed.get?, Doc.get?_optional]
  have hactions : Keyed.get? t.fields "actions".toList = t.actions.map (fun names => .list (names.map .text)) := by
    simp [fields, Keyed.get?_append, Keyed.get?, Doc.get?_optional]
  show rebuilt? (.map (Doc.entryValues t.fields)) = some t
  rw [rebuilt?, Json.required?_entryValues htarget (Json.text?_value t.target),
    Json.field?_entryValues hcond (fun cond _ => Json.text?_value cond),
    Json.field?_entryValues hactions (fun names _ => Json.texts?_value names)]
  rfl

end Transition

/-! ## States -/

namespace Node

def fields (n : Node) : Keyed Doc :=
  [("id".toList, .text n.id), ("type".toList, .text n.kind.name)] ++ Doc.optional "initial".toList .text n.initial ++
    Doc.optional "isInitial".toList .flag n.isInitial ++
    Doc.optional "states".toList (fun cs => .map (childDocs cs)) n.states ++
    Doc.optional "on".toList (fun hs => .map (hs.map (fun h => (h.1, handlerDoc h.2)))) n.on

theorem toDoc_eq (n : Node) : n.toDoc = .map n.fields := by
  obtain ⟨id, kind, initial, isInitial, states, on⟩ := n
  cases states <;> rfl

/-- A mapping is one transition, a sequence is all of them. -/
def handler? : Json → Option Handler
  | .list items => (items.mapM Transition.rebuilt?).map .all
  | v => (Transition.rebuilt? v).map .one

def handlers? : Json → Option (List (Text × Handler))
  | .map m => m.mapM (fun e => (handler? e.2).map (fun h => (e.1, h)))
  | _ => none

def kind? (v : Json) : Option StateKind := (Json.text? v).bind StateKind.ofName?

mutual

/-- The state that a value describes. -/
def rebuilt? : Json → Option Node
  | .map m => do
    let id ← Json.required? m "id".toList Json.text?
    let kind ← Json.required? m "type".toList kind?
    let initial ← Json.field? m "initial".toList Json.text?
    let isInitial ← Json.field? m "isInitial".toList Json.flag?
    let states ← states? m
    let on ← Json.field? m "on".toList handlers?
    return ⟨id, kind, initial, isInitial, states, on⟩
  | _ => none

/-- The children under their key, which may be missing. -/
def states? : List (Text × Json) → Option (Option (List (Text × Node)))
  | [] => some none
  | (key, v) :: rest => if key = "states".toList then (children? v).map some else states? rest

def children? : Json → Option (List (Text × Node))
  | .map m => childrenOf? m
  | _ => none

def childrenOf? : List (Text × Json) → Option (List (Text × Node))
  | [] => some []
  | (name, v) :: rest => do
    let n ← rebuilt? v
    let others ← childrenOf? rest
    return (name, n) :: others

end

theorem states?_eq_field? : ∀ m : Keyed Json, states? m = Json.field? m "states".toList children?
  | [] => rfl
  | (key, v) :: rest => by
    rw [states?, states?_eq_field? rest, Json.field?, Json.field?, Keyed.get?]
    split <;> rfl

theorem kind?_name (k : StateKind) : kind? (Doc.text k.name).value = some k := by
  cases k <;> decide

theorem handler?_handlerDoc (h : Handler) : handler? (handlerDoc h).value = some h := by
  cases h with
  | one t =>
    show (Transition.rebuilt? t.toDoc.value).map Keyed.Slot.one = _
    rw [Transition.rebuilt?_toDoc]
    rfl
  | all ts =>
    have hall : (ts.map (Doc.value ∘ Transition.toDoc)).mapM Transition.rebuilt? = some ts :=
      Json.mapM_map_of_inverse Transition.rebuilt?_toDoc ts
    rw [handlerDoc, Doc.value, handler?, Doc.itemValues_eq_map, List.map_map, hall]
    rfl

theorem handlers?_value (hs : List (Text × Handler)) :
    handlers? (Doc.map (hs.map (fun h => (h.1, handlerDoc h.2)))).value = some hs := by
  rw [Doc.value, handlers?, Doc.entryValues_eq_map, List.map_map]
  refine Json.mapM_map_of_inverse (fun h => ?_) hs
  show (handler? (handlerDoc h.2).value).map (fun x => (h.1, x)) = _
  rw [handler?_handlerDoc]
  rfl

/-- The fields of a state are read back, provided its children are. -/
theorem rebuilt?_fields (n : Node) (h : ∀ cs ∈ n.states, children? (Doc.map (childDocs cs)).value = some cs) :
    rebuilt? n.toDoc.value = some n := by
  have hid : Keyed.get? n.fields "id".toList = some (.text n.id) := rfl
  have hkind : Keyed.get? n.fields "type".toList = some (.text n.kind.name) := rfl
  have hinitial : Keyed.get? n.fields "initial".toList = n.initial.map .text := by
    simp [fields, Keyed.get?_append, Keyed.get?, Doc.get?_optional]
  have hmark : Keyed.get? n.fields "isInitial".toList = n.isInitial.map .flag := by
    simp [fields, Keyed.get?_append, Keyed.get?, Doc.get?_optional]
  have hstates : Keyed.get? n.fields "states".toList = n.states.map (fun cs => .map (childDocs cs)) := by
    simp [fields, Keyed.get?_append, Keyed.get?, Doc.get?_optional]
  have hon : Keyed.get? n.fields "on".toList =
      n.on.map (fun hs => .map (hs.map (fun h => (h.1, handlerDoc h.2)))) := by
    simp [fields, Keyed.get?_append, Keyed.get?, Doc.get?_optional]
  rw [toDoc_eq, Doc.value, rebuilt?, states?_eq_field?, Json.required?_entryValues hid (Json.text?_value n.id),
    Json.required?_entryValues hkind (kind?_name n.kind),
    Json.field?_entryValues hinitial (fun name _ => Json.text?_value name),
    Json.field?_entryValues hmark (fun mark _ => Json.flag?_value mark), Json.field?_entryValues hstates h,
    Json.field?_entryValues hon (fun hs _ => handlers?_value hs)]
  cases n
  rfl

mutual

/-- **A state is read back from what its document says.** -/
theorem rebuilt?_toDoc : ∀ n : Node, rebuilt? n.toDoc.value = some n
  | ⟨id, kind, initial, isInitial, none, on⟩ => rebuilt?_fields _ nofun
  | ⟨id, kind, initial, isInitial, some cs, on⟩ => by
    refine rebuilt?_fields _ ?_
    rintro _ ⟨⟩
    exact childrenOf?_childDocs cs

theorem childrenOf?_childDocs : ∀ cs : List (Text × Node), childrenOf? (Doc.entryValues (childDocs cs)) = some cs
  | [] => rfl
  | (name, n) :: rest => by
    rw [childDocs, Doc.entryValues, childrenOf?, rebuilt?_toDoc n, childrenOf?_childDocs rest]
    rfl

end

end Node

/-! ## Distinct keys -/

namespace Json

theorem noRepeats_of_leaf {v : Json} (hentries : v.entries = []) (hparts : v.parts = []) : NoRepeats v := by
  constructor
  · rw [hentries]
    exact List.nodup_nil
  · rw [hparts]
    exact nofun

theorem noRepeats_list {items : List Doc} (h : ∀ d ∈ items, NoRepeats d.value) : NoRepeats (Doc.list items).value := by
  constructor
  · exact List.nodup_nil
  · intro x hx
    rw [Doc.value, parts, Doc.itemValues_eq_map] at hx
    obtain ⟨d, hd, rfl⟩ := List.mem_map.1 hx
    exact h d hd

theorem noRepeats_map {m : Keyed Doc} (hkeys : (keys m).Nodup) (h : ∀ e ∈ m, NoRepeats e.2.value) :
    NoRepeats (Doc.map m).value := by
  constructor
  · rw [Doc.value, entries, Doc.keys_entryValues]
    exact hkeys
  · intro x hx
    rw [Doc.value, parts, Doc.entryValues_eq_map, List.map_map] at hx
    obtain ⟨e, he, rfl⟩ := List.mem_map.1 hx
    exact h e he

end Json

theorem Transition.keys_fields (t : Transition) :
    (keys t.fields).Sublist ["target".toList, "cond".toList, "actions".toList] := by
  simp only [fields, Keyed.keys_append]
  exact ((List.Sublist.refl ["target".toList]).append (Doc.keys_optional _ _ _)).append (Doc.keys_optional _ _ _)

theorem Transition.noRepeats_toDoc (t : Transition) : Json.NoRepeats t.toDoc.value := by
  refine Json.noRepeats_map (m := t.fields) (t.keys_fields.nodup (by decide)) fun e he => ?_
  simp only [fields, List.mem_append, List.mem_singleton] at he
  rcases he with (rfl | he) | he
  · exact Json.noRepeats_of_leaf rfl rfl
  · obtain ⟨cond, -, hd⟩ := Doc.mem_optional he
    rw [hd]
    exact Json.noRepeats_of_leaf rfl rfl
  · obtain ⟨names, -, hd⟩ := Doc.mem_optional he
    rw [hd]
    refine Json.noRepeats_list fun d hd => ?_
    obtain ⟨name, -, rfl⟩ := List.mem_map.1 hd
    exact Json.noRepeats_of_leaf rfl rfl

namespace Node

/-- Children have distinct names and handlers distinct events, at every depth. -/
def Distinct (n : Node) : Prop := n.Everywhere (fun n => (keys n.children).Nodup ∧ (keys (n.on.getD [])).Nodup)

theorem childDocs_eq_map : ∀ cs : List (Text × Node), childDocs cs = cs.map (fun c => (c.1, c.2.toDoc))
  | [] => rfl
  | (name, n) :: rest => by rw [childDocs, childDocs_eq_map rest, List.map_cons]

theorem noRepeats_handlerDoc (h : Handler) : Json.NoRepeats (handlerDoc h).value := by
  cases h with
  | one t => exact t.noRepeats_toDoc
  | all ts =>
    refine Json.noRepeats_list fun d hd => ?_
    obtain ⟨t, -, rfl⟩ := List.mem_map.1 hd
    exact t.noRepeats_toDoc

theorem keys_fields (n : Node) : (keys n.fields).Sublist
    ["id".toList, "type".toList, "initial".toList, "isInitial".toList, "states".toList, "on".toList] := by
  simp only [fields, Keyed.keys_append]
  exact ((((List.Sublist.refl ["id".toList, "type".toList]).append (Doc.keys_optional _ _ _)).append
    (Doc.keys_optional _ _ _)).append (Doc.keys_optional _ _ _)).append (Doc.keys_optional _ _ _)

theorem nodup_keys_fields (n : Node) : (keys n.fields).Nodup := n.keys_fields.nodup (by decide)

/-- **The document of a state names no key twice**, if the state names no child and no event twice. -/
theorem noRepeats_toDoc {n : Node} (h : n.Distinct) : Json.NoRepeats n.toDoc.value := by
  induction h with
  | @intro n here below ih =>
    rw [toDoc_eq]
    refine Json.noRepeats_map n.nodup_keys_fields fun e he => ?_
    simp only [fields, List.mem_append] at he
    rcases he with (((he | he) | he) | he) | he
    · rcases List.mem_cons.1 he with rfl | he
      · exact Json.noRepeats_of_leaf rfl rfl
      · rw [List.mem_singleton.1 he]
        exact Json.noRepeats_of_leaf rfl rfl
    · obtain ⟨name, -, hd⟩ := Doc.mem_optional he
      rw [hd]
      exact Json.noRepeats_of_leaf rfl rfl
    · obtain ⟨mark, -, hd⟩ := Doc.mem_optional he
      rw [hd]
      exact Json.noRepeats_of_leaf rfl rfl
    · obtain ⟨cs, hcs, hd⟩ := Doc.mem_optional he
      have hchildren : n.children = cs := by rw [children, hcs]; rfl
      rw [hchildren] at here ih
      rw [hd, childDocs_eq_map]
      refine Json.noRepeats_map ?_ fun e he => ?_
      · rw [keys, List.map_map]
        exact here.1
      · obtain ⟨c, hc, rfl⟩ := List.mem_map.1 he
        exact ih c hc
    · obtain ⟨hs, hon, hd⟩ := Doc.mem_optional he
      have hhandlers : n.on.getD [] = hs := by rw [hon]; rfl
      rw [hhandlers] at here
      rw [hd]
      refine Json.noRepeats_map ?_ fun e he => ?_
      · rw [keys, List.map_map]
        exact here.2
      · obtain ⟨h, -, rfl⟩ := List.mem_map.1 he
        exact noRepeats_handlerDoc h.2

/-! ## The text of a state -/

/-- **The text of a state loses nothing.**  In every layout it is a JSON text that says what the document of the state
says, keys in their order, with no null in it and, for distinct names, no key twice in a mapping; the state is got back
from that.  So no other state has the text, and the layout does not change what is read. -/
theorem toJson_lossless (n : Node) (indent : Int) :
    Json.read (n.toDoc.toJson indent) = some n.toDoc.value ∧ Json.NullFree n.toDoc.value ∧
    (n.Distinct → Json.NoRepeats n.toDoc.value) ∧ rebuilt? n.toDoc.value = some n ∧
    (∀ (m : Node) (other : Int), m ≠ n → m.toDoc.toJson other ≠ n.toDoc.toJson indent) ∧
    ∀ other : Int, Json.read (n.toDoc.toJson other) = Json.read (n.toDoc.toJson indent) := by
  refine ⟨Json.read_toJson indent n.toDoc, Json.nullFree_value n.toDoc, noRepeats_toDoc, rebuilt?_toDoc n, ?_, ?_⟩
  · intro m other hne htext
    have hread := Json.read_toJson other m.toDoc
    rw [htext, Json.read_toJson indent n.toDoc] at hread
    have hnode := rebuilt?_toDoc m
    rw [← Option.some.inj hread, rebuilt?_toDoc n] at hnode
    exact hne (Option.some.inj hnode).symm
  · intro other
    rw [Json.read_toJson, Json.read_toJson]

end Node
end Statechart
