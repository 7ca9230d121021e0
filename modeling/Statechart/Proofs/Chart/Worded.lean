import Statechart.Doc.Format
import Statechart.Proofs.Chart.Named
import Statechart.Proofs.Chart.Rebuilt
import Statechart.Proofs.Doc.YamlRoundTrip
import Statechart.Proofs.Doc.YamlWriter
/-!
# Worded — the YAML text of a chart is read back

In a chart that was read, every text is a name or a name behind `#`, mappings and sequences are absent or not empty, and
no two children and no two events have one name.  So its document is one of words.  A reader with the common types has
all of it again from its text, no name taken for anything else; one with the standard types has it again unless a name
is one of four letters (`ofText_yaml`), which a writer of the common types leaves without quotes
(`not_standard_of_letter`).
-/
namespace Statechart

open Keyed (keys)
open Yaml (IsWord common keeps_common)

theorem IsName.isWord {w : Text} (h : IsName w) : IsWord w := by
  intro c hc
  rw [Yaml.isWordChar, h.2 c hc]
  rfl

theorem IsTarget.isWord {w : Text} (h : IsTarget w) : IsWord w := by
  rcases h with h | ⟨name, hname, rfl⟩
  · exact h.isWord
  · exact List.forall_mem_cons.2 ⟨rfl, hname.isWord⟩

theorem StateKind.isWord_name (k : StateKind) : IsWord k.name := by
  cases k <;> decide

/-! ## Documents -/

namespace Doc

variable {α : Type}

theorem worded_list {items : List α} {write : α → Doc} (hne : items ≠ []) (h : ∀ a ∈ items, (write a).Worded common) :
    (Doc.list (items.map write)).Worded common := by
  refine .list (fun hnil => hne (List.map_eq_nil_iff.1 hnil)) fun d hd => ?_
  obtain ⟨a, ha, rfl⟩ := List.mem_map.1 hd
  exact h a ha

theorem worded_map {m : Keyed α} {write : α → Doc} (hne : m ≠ []) (hkeys : (keys m).Nodup)
    (hwords : ∀ e ∈ m, IsWord e.1) (h : ∀ e ∈ m, (write e.2).Worded common) :
    (Doc.map (m.map (fun e => (e.1, write e.2)))).Worded common := by
  refine .map (fun hnil => hne (List.map_eq_nil_iff.1 hnil)) ?_ ?_ ?_
  · rw [keys, List.map_map]
    exact hkeys
  · intro e he
    obtain ⟨a, ha, rfl⟩ := List.mem_map.1 he
    exact keeps_common (hwords a ha)
  · intro e he
    obtain ⟨a, ha, rfl⟩ := List.mem_map.1 he
    exact h a ha

mutual

/-- The texts of a document, keys among them. -/
def texts : Doc → List Text
  | .text t => [t]
  | .int _ => []
  | .flag _ => []
  | .list items => itemTexts items
  | .map entries => entryTexts entries

def itemTexts : List Doc → List Text
  | [] => []
  | d :: rest => d.texts ++ itemTexts rest

def entryTexts : List (Text × Doc) → List Text
  | [] => []
  | (key, d) :: rest => key :: (d.texts ++ entryTexts rest)

end

variable {t : Text}

theorem mem_itemTexts {d : Doc} (ht : t ∈ d.texts) : ∀ {items : List Doc}, d ∈ items → t ∈ itemTexts items
  | first :: rest, hd => by
    rw [itemTexts, List.mem_append]
    rcases List.mem_cons.1 hd with rfl | hd
    · exact .inl ht
    · exact .inr (mem_itemTexts ht hd)

theorem mem_entryTexts {e : Text × Doc} (ht : t ∈ e.1 :: e.2.texts) :
    ∀ {entries : List (Text × Doc)}, e ∈ entries → t ∈ entryTexts entries
  | (key, d) :: rest, he => by
    rw [entryTexts, ← List.cons_append, List.mem_append]
    rcases List.mem_cons.1 he with rfl | he
    · exact .inl ht
    · exact .inr (mem_entryTexts ht he)

/-- **Without the four letters a document of words is one for the standard types too.** -/
theorem Worded.standard {d : Doc} (h : d.Worded common) (hletters : ∀ t ∈ d.texts, t ∉ Yaml.letters) :
    d.Worded Yaml.standard := by
  induction h with
  | text ht => exact .text (Yaml.keeps_standard ht.isWord (hletters _ List.mem_cons_self))
  | @flag b hb =>
    have hflag : Yaml.flag b ∉ Statechart.Yaml.letters := by cases b <;> decide
    exact .flag ((Statechart.Yaml.plain_standard hflag).trans hb)
  | list hne _ ih => exact .list hne fun d hd => ih d hd fun t ht => hletters t (mem_itemTexts ht hd)
  | map hne hkeys hwords _ ih =>
    refine .map hne hkeys (fun e he => ?_) fun e he => ih e he fun t ht => ?_
    · exact Yaml.keeps_standard (hwords e he).isWord (hletters e.1 (mem_entryTexts List.mem_cons_self he))
    · exact hletters t (mem_entryTexts (List.mem_cons_of_mem e.1 ht) he)

end Doc

/-! ## Charts -/

theorem Transition.Printable.worded {t : Transition} (h : t.Printable) : t.toDoc.Worded common := by
  have hwords : ∀ key ∈ ["target".toList, "cond".toList, "actions".toList], IsWord key := by decide
  show (Doc.map t.fields).Worded common
  refine .map (List.cons_ne_nil _ _) (t.keys_fields.nodup (by decide)) ?_ ?_
  · exact fun e he => keeps_common (hwords e.1 (t.keys_fields.mem (List.mem_map_of_mem he)))
  · intro e he
    simp only [fields, List.mem_append, List.mem_singleton] at he
    rcases he with (rfl | he) | he
    · exact .text (keeps_common h.target.isWord)
    · obtain ⟨cond, hcond, hd⟩ := Doc.mem_optional he
      rw [hd]
      exact .text (keeps_common (h.cond cond hcond).isWord)
    · obtain ⟨names, hnames, hd⟩ := Doc.mem_optional he
      obtain ⟨hne, hwords⟩ := h.actions names hnames
      rw [hd]
      exact Doc.worded_list hne fun name hname => .text (keeps_common (hwords name hname).isWord)

namespace Node

theorem worded_handlerDoc {h : Text × Handler} (hshaped : HandlerShaped h)
    (hprintable : ∀ t ∈ h.2.values, t.Printable) : (handlerDoc h.2).Worded common := by
  obtain ⟨event, t | ts⟩ := h
  · exact (hprintable t List.mem_cons_self).worded
  · obtain ⟨-, hne, -⟩ := hshaped
    exact Doc.worded_list hne fun t ht => (hprintable t ht).worded

theorem isWord_of_defaultOf {children : Keyed Node} {name : Text} (h : DefaultOf children name)
    (hwords : ∀ c ∈ children, IsWord c.1) : IsWord name := by
  cases h with
  | marked split _ _ =>
    rw [split] at hwords
    exact hwords _ (List.mem_append_right _ List.mem_cons_self)
  | first split _ =>
    rw [split] at hwords
    exact hwords _ List.mem_cons_self

section

variable {n : Node} (settled : n.Settled)
include settled

theorem Settled.isWord_initial (hids : ∀ cs ∈ n.states, ∀ c ∈ cs, IsWord c.1) : ∀ name ∈ n.initial, IsWord name := by
  intro name hname
  have hsome : n.states.isSome = true := by
    rw [← settled.initial_isSome, Option.mem_def.1 hname]
    rfl
  obtain ⟨cs, hcs⟩ := Option.isSome_iff_exists.1 hsome
  exact isWord_of_defaultOf (settled.default cs hcs name hname) (hids cs hcs)

theorem Settled.worded_handlers (named : n.Named) :
    ∀ hs ∈ n.on, (Doc.map (hs.map (fun h => (h.1, handlerDoc h.2)))).Worded common := by
  intro hs hon
  obtain ⟨hne, hkeys, hshaped⟩ := settled.handlers hs hon
  have hwords : ∀ h ∈ hs, IsWord h.1 := by
    intro h hh
    rcases named.events hs hon h hh with hnil | hname
    · rw [hnil]
      exact List.forall_mem_nil _
    · exact hname.isWord
  exact Doc.worded_map hne hkeys hwords fun h hh => worded_handlerDoc (hshaped h hh) (named.transitions hs hon h hh)

end

/-- **The document of a settled state with names is one of words.** -/
theorem worded_toDoc {n : Node} (hnamed : n.Everywhere Named) (hsettled : n.Everywhere Settled) :
    n.toDoc.Worded common := by
  induction hnamed with
  | @intro n named hnamed ih =>
    obtain ⟨settled, hsettled⟩ := hsettled
    have hfields : ∀ key ∈ ["id".toList, "type".toList, "initial".toList, "isInitial".toList, "states".toList,
        "on".toList], IsWord key := by decide
    have hchildren : ∀ cs ∈ n.states, n.children = cs := fun cs hcs => by rw [children, hcs]; rfl
    have hids : ∀ cs ∈ n.states, ∀ c ∈ cs, IsWord c.1 := by
      intro cs hcs c hc
      rw [(settled.states cs hcs).2.2 c hc]
      obtain ⟨here, -⟩ := hnamed c (hchildren cs hcs ▸ hc)
      exact here.id.isWord
    rw [toDoc_eq]
    refine .map (List.cons_ne_nil _ _) n.nodup_keys_fields ?_ ?_
    · exact fun e he => keeps_common (hfields e.1 (n.keys_fields.mem (List.mem_map_of_mem he)))
    · intro e he
      simp only [fields, List.mem_append, List.mem_cons, List.not_mem_nil, or_false] at he
      rcases he with ((((rfl | rfl) | he) | he) | he) | he
      · exact .text (keeps_common named.id.isWord)
      · exact .text (keeps_common n.kind.isWord_name)
      · obtain ⟨name, hname, hd⟩ := Doc.mem_optional he
        rw [hd]
        exact .text (keeps_common (settled.isWord_initial hids name hname))
      · obtain ⟨mark, -, hd⟩ := Doc.mem_optional he
        rw [hd]
        exact .flag (Yaml.plain_flag mark)
      · obtain ⟨cs, hcs, hd⟩ := Doc.mem_optional he
        obtain ⟨hne, hkeys, -⟩ := settled.states cs hcs
        rw [hd, childDocs_eq_map]
        refine Doc.worded_map hne hkeys (hids cs hcs) fun c hc => ?_
        have hc : c ∈ n.children := hchildren cs hcs ▸ hc
        exact ih c hc (hsettled c hc)
      · obtain ⟨hs, hon, hd⟩ := Doc.mem_optional he
        rw [hd]
        exact settled.worded_handlers named hs hon

end Node

/-- The root has names, if its id has to be given and is a name. -/
theorem Grammar.ChartTree.Writes.named {d : ChartTree} {rootId : Text} {root : Node} (h : d.Writes rootId root)
    (hroot : IsName rootId) : root.Everywhere Node.Named := by
  cases h with
  | one s _ named _ => exact named
  | several _ hid hon hchildren =>
    refine .intro ⟨hid ▸ hroot, ?_, ?_⟩ fun c hc => (hchildren c hc).1
    · rw [hon]
      exact nofun
    · rw [hon]
      exact nofun

/-- States, an event, a target, an action and a guard that without quotes would be no texts, or would end a document. -/
def disguised : Text := "on\n  1.5\n  no -> #on.1.5 > 0x1F\n  -> ...; yes".toList

end Statechart
