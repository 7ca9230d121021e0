import Mathlib
import Statechart.Settings
/-!
# Settings — what a configuration file leads to

A file that can be read gives settings unless something in it stands in the way, and all that can do so is listed here
twice.  Of most of it the author of the file is told (`Refused`).  The rest goes untold (`Untold`), and the file is
well-formed in two of three cases: its bytes are no text, a whole number has more digits than are read or written, or
there is a value of another type where a section should be.
-/
namespace Statechart
namespace Settings

def sections : List Text := ["output".toList, "logging".toList, "parser".toList]

/-- The settings whose values are written, by section and key. -/
def writtenKeys : List (Text × Text) :=
  [("output".toList, "format".toList), ("output".toList, "indent".toList), ("logging".toList, "level".toList)]

/-- A section of the tables states a value under a key. -/
def Sets (t : Toml.Table) (name key : Text) (v : Toml.Value) : Prop :=
  ∃ entries, Keyed.get? t name = some (.table entries) ∧ Keyed.get? entries key = some v

/-- What the tables of a file hold that is refused. -/
inductive RefusedIn (t : Toml.Table) : Problem → Prop where
  | format {v : Toml.Value} {name : Text} (set : Sets t "output".toList "format".toList v)
      (shown : v.plain = some name) (other : ∀ f : Format, f.name ≠ Text.lower name) :
      RefusedIn t (.unknownFormat (Text.lower name))
  | indent {v : Toml.Value} {stated : Text} (set : Sets t "output".toList "indent".toList v)
      (shown : v.stated = some stated) (other : ∀ n : Nat, v ≠ .int n) : RefusedIn t (.badIndent stated)
  | level {v : Toml.Value} {name : Text} (set : Sets t "logging".toList "level".toList v)
      (shown : v.plain = some name) (other : ∀ l : Level, l.name ≠ Text.upper name) :
      RefusedIn t (.unknownLevel (Text.upper name))
  | rootId {v : Toml.Value} (set : Sets t "parser".toList "root_id".toList v)
      (other : ∀ id, v = .text id → id = []) : RefusedIn t .badRootId

/-- What the tables of a file hold that ends the reading of settings without a message. -/
inductive UntoldIn (t : Toml.Table) : Problem → Prop where
  | noSection {name : Text} {v : Toml.Value} (known : name ∈ sections) (found : Keyed.get? t name = some v)
      (other : ∀ entries, v ≠ .table entries) : UntoldIn t (.noSection v.typeName)
  | unwritten {name key : Text} {v : Toml.Value} (known : (name, key) ∈ writtenKeys) (set : Sets t name key v)
      (long : v.stated = none) (unfit : key = "indent".toList → ∀ n : Nat, v ≠ .int n) : UntoldIn t (.tooLong none)

/-- What a file holds that is refused. -/
inductive Refused (bytes : ByteArray) : Problem → Prop where
  | malformed (h : Toml.ofBytes bytes = .error (.refused .malformed)) : Refused bytes .malformed
  | inside {t : Toml.Table} {problem : Problem} (tables : Toml.ofBytes bytes = .ok t) (h : RefusedIn t problem) :
      Refused bytes problem

/-- What a file holds that ends the reading of settings without a message. -/
inductive Untold (bytes : ByteArray) : Problem → Prop where
  | notText (h : Text.decode? bytes = none) : Untold bytes .notText
  | unread {digits : Option Nat} (h : Toml.ofBytes bytes = .error (.refused (.tooLong digits))) :
      Untold bytes (.tooLong digits)
  | inside {t : Toml.Table} {problem : Problem} (tables : Toml.ofBytes bytes = .ok t) (h : UntoldIn t problem) :
      Untold bytes problem

theorem Refused.isReported {bytes : ByteArray} {problem : Problem} (h : Refused bytes problem) :
    problem.isReported = true := by
  obtain _ | ⟨-, _ | _ | _ | _⟩ := h <;> rfl

theorem Untold.not_isReported {bytes : ByteArray} {problem : Problem} (h : Untold bytes problem) :
    problem.isReported = false := by
  obtain _ | _ | ⟨-, _ | _⟩ := h <;> rfl

/-! ## Sections and values -/

theorem bind_eq_ok {α β : Type} {r : Except Problem α} {f : α → Except Problem β} {b : β} (h : r >>= f = .ok b) :
    ∃ a, r = .ok a ∧ f a = .ok b := by
  cases r with
  | error problem => cases h
  | ok a => exact ⟨a, rfl, h⟩

/-- A section that is read is there, or nothing is. -/
theorem get?_of_section? {t entries : Toml.Table} {name : Text} (h : section? t name = .ok entries) :
    (Keyed.get? t name = none ∧ entries = []) ∨ Keyed.get? t name = some (.table entries) := by
  unfold section? at h
  split at h
  · rename_i hnone
    exact .inl ⟨hnone, (Except.ok.inj h).symm⟩
  · rename_i hsome
    rw [← Except.ok.inj h]
    exact .inr hsome
  · cases h

theorem sets_iff {t entries : Toml.Table} {name key : Text} {v : Toml.Value} (h : section? t name = .ok entries) :
    Sets t name key v ↔ Keyed.get? entries key = some v := by
  unfold Sets
  rcases get?_of_section? h with ⟨hnone, rfl⟩ | htable
  · simp [hnone, Keyed.get?]
  · simp [htable]

theorem written_eq_ok {o : Option Text} {t : Text} (h : written o = .ok t) : o = some t := by
  cases o with
  | none => cases h
  | some _ => rw [Except.ok.inj h]

theorem plain_eq_none_iff {v : Toml.Value} : v.plain = none ↔ v.stated = none := by
  cases v <;> simp [Toml.Value.plain, Toml.Value.stated]

/-! ## Settings that are read -/

theorem nameOf_ok {α : Type} {casing : Text → Text} {ofName? : Text → Option α} {unknown : Text → Problem}
    {default a : α} {key : Text} {entries : Toml.Table} {v : Toml.Value}
    (h : nameOf casing ofName? unknown default key entries = .ok a) (hv : Keyed.get? entries key = some v) :
    ∃ name, v.plain = some name ∧ ofName? (casing name) = some a := by
  unfold nameOf at h
  rw [hv] at h
  obtain ⟨name, hname, h⟩ := bind_eq_ok h
  refine ⟨name, written_eq_ok hname, ?_⟩
  dsimp only at h
  split at h
  · rename_i ha
    rw [ha, Except.ok.inj h]
  · cases h

theorem indentOf_ok {output : Toml.Table} {n : Nat} {v : Toml.Value} (h : indentOf output = .ok n)
    (hv : Keyed.get? output "indent".toList = some v) : v = .int n := by
  unfold indentOf at h
  rw [hv] at h
  split at h
  · rename_i hnone
    cases hnone
  · rename_i hint
    rw [Option.some.inj hint, Except.ok.inj h]
    rfl
  · obtain ⟨_, -, h⟩ := bind_eq_ok h
    cases h

theorem rootIdOf_ok {parser : Toml.Table} {id : Text} (h : rootIdOf parser = .ok id) :
    id ≠ [] ∧ ∀ v, Keyed.get? parser "root_id".toList = some v → v = .text id := by
  unfold rootIdOf at h
  split at h
  · rename_i hnone
    rw [← Except.ok.inj h, hnone]
    exact ⟨by decide, nofun⟩
  · rename_i c cs htext
    rw [← Except.ok.inj h, htext]
    exact ⟨List.cons_ne_nil c cs, fun v hv => (Option.some.inj hv).symm⟩
  · cases h

/-- Settings that are read, unpacked: every section and every setting was. -/
theorem ofTable_ok {t : Toml.Table} {s : Settings} (h : ofTable t = .ok s) :
    ∃ output logging parser,
      (section? t "output".toList = .ok output ∧ formatOf output = .ok s.format ∧ indentOf output = .ok s.indent) ∧
      (section? t "logging".toList = .ok logging ∧ levelOf logging = .ok s.level) ∧
      (section? t "parser".toList = .ok parser ∧ rootIdOf parser = .ok s.rootId) := by
  obtain ⟨output, houtput, h⟩ := bind_eq_ok h
  obtain ⟨format, hformat, h⟩ := bind_eq_ok h
  obtain ⟨indent, hindent, h⟩ := bind_eq_ok h
  obtain ⟨logging, hlogging, h⟩ := bind_eq_ok h
  obtain ⟨level, hlevel, h⟩ := bind_eq_ok h
  obtain ⟨parser, hparser, h⟩ := bind_eq_ok h
  obtain ⟨rootId, hrootId, h⟩ := bind_eq_ok h
  obtain rfl := Except.ok.inj h
  exact ⟨output, logging, parser, ⟨houtput, hformat, hindent⟩, ⟨hlogging, hlevel⟩, hparser, hrootId⟩

theorem not_refusedIn {t : Toml.Table} {s : Settings} (h : ofTable t = .ok s) (problem : Problem) :
    ¬ RefusedIn t problem := by
  obtain ⟨output, logging, parser, ⟨houtput, hformat, hindent⟩, ⟨hlogging, hlevel⟩, hparser, hrootId⟩ := ofTable_ok h
  rintro (⟨set, shown, other⟩ | ⟨set, shown, other⟩ | ⟨set, shown, other⟩ | ⟨set, other⟩)
  · obtain ⟨name, hname, hf⟩ := nameOf_ok hformat ((sets_iff houtput).1 set)
    obtain rfl := Option.some.inj (shown.symm.trans hname)
    exact other _ (Format.ofName?_eq_some_iff.1 hf)
  · exact other _ (indentOf_ok hindent ((sets_iff houtput).1 set))
  · obtain ⟨name, hname, hl⟩ := nameOf_ok hlevel ((sets_iff hlogging).1 set)
    obtain rfl := Option.some.inj (shown.symm.trans hname)
    exact other _ (Level.ofName?_eq_some_iff.1 hl)
  · obtain ⟨hne, htext⟩ := rootIdOf_ok hrootId
    exact hne (other _ (htext _ ((sets_iff hparser).1 set)))

theorem not_untoldIn {t : Toml.Table} {s : Settings} (h : ofTable t = .ok s) (problem : Problem) :
    ¬ UntoldIn t problem := by
  obtain ⟨output, logging, parser, ⟨houtput, hformat, hindent⟩, ⟨hlogging, hlevel⟩, hparser, -⟩ := ofTable_ok h
  rintro (⟨known, found, other⟩ | ⟨known, set, long, unfit⟩)
  · rename_i name v
    obtain ⟨entries, hentries⟩ : ∃ entries, section? t name = .ok entries := by
      simp only [sections, List.mem_cons, List.not_mem_nil, or_false] at known
      obtain rfl | rfl | rfl := known
      · exact ⟨output, houtput⟩
      · exact ⟨logging, hlogging⟩
      · exact ⟨parser, hparser⟩
    rcases get?_of_section? hentries with ⟨hnone, -⟩ | htable
    · rw [hnone] at found
      cases found
    · exact other entries (Option.some.inj (found.symm.trans htable))
  · rename_i name key v
    have hlong : v.plain = none := plain_eq_none_iff.2 long
    simp only [writtenKeys, List.mem_cons, Prod.mk.injEq, List.not_mem_nil, or_false] at known
    obtain ⟨rfl, rfl⟩ | ⟨rfl, rfl⟩ | ⟨rfl, rfl⟩ := known
    · obtain ⟨_, hname, -⟩ := nameOf_ok hformat ((sets_iff houtput).1 set)
      cases hlong.symm.trans hname
    · exact unfit rfl _ (indentOf_ok hindent ((sets_iff houtput).1 set))
    · obtain ⟨_, hname, -⟩ := nameOf_ok hlevel ((sets_iff hlogging).1 set)
      cases hlong.symm.trans hname

/-! ## Settings that are not read -/

/-- A reader of settings only fails for what the tables hold. -/
def Accounted (t : Toml.Table) {α : Type} (r : Except Problem α) : Prop :=
  ∀ problem, r = .error problem → RefusedIn t problem ∨ UntoldIn t problem

variable {t : Toml.Table} {α β : Type}

theorem accounted_ok (a : α) : Accounted t (.ok a) := nofun

theorem accounted_refused {problem : Problem} (h : RefusedIn t problem) :
    Accounted t (.error problem : Except Problem α) := by
  rintro _ ⟨⟩
  exact .inl h

theorem Accounted.bind {r : Except Problem α} {f : α → Except Problem β} (hr : Accounted t r)
    (hf : ∀ a, r = .ok a → Accounted t (f a)) : Accounted t (r >>= f) := by
  intro problem h
  cases r with
  | error _ => exact hr problem (by rw [Except.error.inj h])
  | ok a => exact hf a rfl problem h

theorem section?_accounted {name : Text} (known : name ∈ sections) : Accounted t (section? t name) := by
  intro problem h
  unfold section? at h
  split at h
  · cases h
  · cases h
  · rename_i v hother hv
    rw [← Except.error.inj h]
    exact .inr (.noSection known hv hother)

theorem written_accounted {name key : Text} {v : Toml.Value} {o : Option Text} (known : (name, key) ∈ writtenKeys)
    (set : Sets t name key v) (long : o = none → v.stated = none)
    (unfit : key = "indent".toList → ∀ n : Nat, v ≠ .int n) : Accounted t (written o) := by
  intro problem h
  cases o with
  | some _ => cases h
  | none =>
    rw [← Except.error.inj h]
    exact .inr (.unwritten known set (long rfl) unfit)

theorem nameOf_accounted {casing : Text → Text} {ofName? : Text → Option α} {unknown : Text → Problem} {default : α}
    {entries : Toml.Table} {name key : Text} (known : (name, key) ∈ writtenKeys) (hkey : key ≠ "indent".toList)
    (hentries : section? t name = .ok entries)
    (hunknown : ∀ v shown, Sets t name key v → v.plain = some shown → ofName? (casing shown) = none →
      RefusedIn t (unknown (casing shown))) :
    Accounted t (nameOf casing ofName? unknown default key entries) := by
  unfold nameOf
  split
  · exact accounted_ok default
  · rename_i v hv
    have set : Sets t name key v := (sets_iff hentries).2 hv
    refine (written_accounted known set plain_eq_none_iff.1 (absurd · hkey)).bind fun shown hshown => ?_
    dsimp only
    split
    · exact accounted_ok _
    · rename_i hnone
      exact accounted_refused (hunknown v shown set (written_eq_ok hshown) hnone)

theorem formatOf_accounted {output : Toml.Table} (houtput : section? t "output".toList = .ok output) :
    Accounted t (formatOf output) := by
  have known : ("output".toList, "format".toList) ∈ writtenKeys := by simp [writtenKeys]
  refine nameOf_accounted known (by decide) houtput fun v name set shown hnone => .format set shown fun f hf => ?_
  rw [Format.ofName?_eq_some_iff.2 hf] at hnone
  cases hnone

theorem levelOf_accounted {logging : Toml.Table} (hlogging : section? t "logging".toList = .ok logging) :
    Accounted t (levelOf logging) := by
  have known : ("logging".toList, "level".toList) ∈ writtenKeys := by simp [writtenKeys]
  refine nameOf_accounted known (by decide) hlogging fun v name set shown hnone => .level set shown fun l hl => ?_
  rw [Level.ofName?_eq_some_iff.2 hl] at hnone
  cases hnone

theorem indentOf_accounted {output : Toml.Table} (houtput : section? t "output".toList = .ok output) :
    Accounted t (indentOf output) := by
  unfold indentOf
  split
  · exact accounted_ok 2
  · exact accounted_ok _
  · rename_i v hother hv
    have known : ("output".toList, "indent".toList) ∈ writtenKeys := by simp [writtenKeys]
    have set := (sets_iff houtput).2 hv
    refine (written_accounted known set id fun _ => hother).bind fun stated hstated => ?_
    exact accounted_refused (.indent set (written_eq_ok hstated) hother)

theorem rootIdOf_accounted {parser : Toml.Table} (hparser : section? t "parser".toList = .ok parser) :
    Accounted t (rootIdOf parser) := by
  unfold rootIdOf
  split
  · exact accounted_ok defaultRootId
  · exact accounted_ok _
  · rename_i v hother hv
    refine accounted_refused (.rootId ((sets_iff hparser).2 hv) fun id hid => ?_)
    cases id with
    | nil => rfl
    | cons c cs => exact absurd hid (hother c cs)

theorem ofTable_accounted (t : Toml.Table) : Accounted t (ofTable t) := by
  refine (section?_accounted (by simp [sections])).bind fun output houtput => ?_
  refine (formatOf_accounted houtput).bind fun format _ => ?_
  refine (indentOf_accounted houtput).bind fun indent _ => ?_
  refine (section?_accounted (by simp [sections])).bind fun logging hlogging => ?_
  refine (levelOf_accounted hlogging).bind fun level _ => ?_
  refine (section?_accounted (by simp [sections])).bind fun parser hparser => ?_
  exact (rootIdOf_accounted hparser).bind fun rootId _ => accounted_ok _

/-! ## The settings of a file -/

/-- The id of the root is not empty, and the format and the level are among those that have names. -/
structure Usable (s : Settings) : Prop where
  rootId : s.rootId ≠ []
  format : s.format.name ∈ ["json".toList, "yaml".toList]
  level : s.level.name ∈ ["DEBUG".toList, "INFO".toList, "WARNING".toList, "ERROR".toList, "CRITICAL".toList]

theorem ofTable_usable {t : Toml.Table} {s : Settings} (h : ofTable t = .ok s) : s.Usable := by
  obtain ⟨_, _, _, -, -, -, hrootId⟩ := ofTable_ok h
  constructor
  · exact (rootIdOf_ok hrootId).1
  · cases s.format <;> decide
  · cases s.level <;> decide

theorem ofBytes_eq_notText_iff {bytes : ByteArray} :
    Toml.ofBytes bytes = .error .notText ↔ Text.decode? bytes = none := by
  unfold Toml.ofBytes
  cases Text.decode? bytes with
  | none => simp
  | some t => cases ht : Toml.ofText t <;> simp [Except.mapError, ht]

theorem not_refused {bytes : ByteArray} {t : Toml.Table} {s : Settings} (htables : Toml.ofBytes bytes = .ok t)
    (hs : ofTable t = .ok s) (problem : Problem) : ¬ Refused bytes problem := by
  rintro (hmalformed | ⟨htables', hinside⟩)
  · rw [hmalformed] at htables
    cases htables
  · obtain rfl := Except.ok.inj (htables.symm.trans htables')
    exact not_refusedIn hs problem hinside

theorem not_untold {bytes : ByteArray} {t : Toml.Table} {s : Settings} (htables : Toml.ofBytes bytes = .ok t)
    (hs : ofTable t = .ok s) (problem : Problem) : ¬ Untold bytes problem := by
  rintro (hnotText | hunread | ⟨htables', hinside⟩)
  · rw [ofBytes_eq_notText_iff.2 hnotText] at htables
    cases htables
  · rw [hunread] at htables
    cases htables
  · obtain rfl := Except.ok.inj (htables.symm.trans htables')
    exact not_untoldIn hs problem hinside

theorem ofBytes_error {bytes : ByteArray} {problem : Problem} (h : ofBytes bytes = .error problem) :
    Refused bytes problem ∨ Untold bytes problem := by
  unfold ofBytes at h
  cases htables : Toml.ofBytes bytes with
  | error why =>
    rw [htables] at h
    match why, htables, h with
    | .notText, htables, rfl => exact .inr (.notText (ofBytes_eq_notText_iff.1 htables))
    | .refused .malformed, htables, rfl => exact .inl (.malformed htables)
    | .refused (.tooLong _), htables, rfl => exact .inr (.unread htables)
  | ok t =>
    rw [htables] at h
    exact (ofTable_accounted t problem h).imp (.inside htables) (.inside htables)

theorem ofBytes_ok {bytes : ByteArray} {s : Settings} (h : ofBytes bytes = .ok s) :
    ∃ t, Toml.ofBytes bytes = .ok t ∧ ofTable t = .ok s := by
  unfold ofBytes at h
  split at h
  · cases h
  · cases h
  · cases h
  · rename_i t ht
    exact ⟨t, ht, h⟩

/-- **A file that can be read gives settings that can be used** exactly if nothing in it stands in the way.  Otherwise
its author is told what is refused, unless it is one of the things that go untold. -/
theorem load_of_read {d : Disk} {p : Path} {bytes : ByteArray} (h : d.read p = .ok bytes) :
    (∃ s, load d (some p) = .ok s ∧ s.Usable ∧ ∀ problem, ¬ Refused bytes problem ∧ ¬ Untold bytes problem) ∨
      ∃ problem, load d (some p) = .error problem ∧
        (problem.isReported = true ∧ Refused bytes problem ∨ problem.isReported = false ∧ Untold bytes problem) := by
  have hload : load d (some p) = ofBytes bytes := by simp only [load, h]
  rw [hload]
  cases hread : ofBytes bytes with
  | error problem =>
    have hcause := ofBytes_error hread
    exact .inr ⟨problem, rfl, hcause.imp (fun h => ⟨h.isReported, h⟩) fun h => ⟨h.not_isReported, h⟩⟩
  | ok s =>
    obtain ⟨t, htables, hs⟩ := ofBytes_ok hread
    refine .inl ⟨s, rfl, ofTable_usable hs, fun problem => ⟨?_, ?_⟩⟩
    · exact not_refused htables hs problem
    · exact not_untold htables hs problem

/-- A disk with a configuration file and nothing else. -/
def soleFile (bytes : ByteArray) : Disk where
  here := []
  look place := if place = [] then some .folder else if place = [fileName] then some (.file bytes) else none

def solePath : Path := ⟨0, [fileName]⟩

theorem read_soleFile (bytes : ByteArray) : (soleFile bytes).read solePath = .ok bytes := rfl

theorem load_soleFile {text : Text} {t : Toml.Table} (h : Toml.ofText text = .ok t) :
    load (soleFile (Text.encode text)) (some solePath) = ofTable t := by
  simp only [load, read_soleFile, ofBytes, Toml.ofBytes, Text.decode?_encode, h, Except.mapError]

theorem load_of_read_indented :
    ∃ s, load (soleFile (Text.encode "[output]\nindent = 4\n".toList)) (some solePath) = .ok s ∧ s.indent = 4 ∧
      s.Usable := by
  have htables : Toml.ofText "[output]\nindent = 4\n".toList =
      .ok [("output".toList, .table [("indent".toList, .int 4)])] := by
    cbv
  have hsettings : ofTable [("output".toList, .table [("indent".toList, .int 4)])] = .ok { indent := 4 } := rfl
  have hload := (load_soleFile htables).trans hsettings
  obtain ⟨s, hs, husable, -⟩ | ⟨problem, hproblem, -⟩ :=
    load_of_read (read_soleFile (Text.encode "[output]\nindent = 4\n".toList))
  · obtain rfl := Except.ok.inj (hload.symm.trans hs)
    exact ⟨_, hload, rfl, husable⟩
  · cases hload.symm.trans hproblem

/-- A number where a section should be, and bytes that are no text. -/
theorem not_refused_section :
    load (soleFile (Text.encode "output = 1\n".toList)) (some solePath) = .error (.noSection "int".toList) ∧
      (Problem.noSection "int".toList).isReported = false ∧
      load (soleFile ⟨#[0xff]⟩) (some solePath) = .error .notText ∧ Problem.notText.isReported = false := by
  have htables : Toml.ofText "output = 1\n".toList = .ok [("output".toList, .int 1)] := by cbv
  have hsettings : ofTable [("output".toList, .int 1)] = .error (.noSection "int".toList) := rfl
  have hnotText : Text.decode? ⟨#[0xff]⟩ = none := by decide +kernel
  have hload : load (soleFile ⟨#[0xff]⟩) (some solePath) = .error .notText := by
    simp only [load, read_soleFile, ofBytes, ofBytes_eq_notText_iff.2 hnotText]
  exact ⟨(load_soleFile htables).trans hsettings, rfl, hload, rfl⟩

end Settings
end Statechart
