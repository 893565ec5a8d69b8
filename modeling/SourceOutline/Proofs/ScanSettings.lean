/-
**Settings in a file.**

The file with the settings of a repository holds octets of any kind, and a loader of documents makes
values of them or raises an error.  Nothing is assumed of the loader.  If its error is none of those
that are expected, there are no settings.  Otherwise each of the two settings is the list of texts
that the document holds under its name, and the default if it holds none; whether it does depends
neither on the other setting nor on anything else in the document.

Main definitions:

* `Yaml.Document.IsText`, `Yaml.Document.Holds`, `Yaml.Document.Lists` — a text, a value that a
  mapping holds, and a list of texts;
* `ScanConfig.Fails` — an error of the loader that is not expected;
* `ScanConfig.Sets` — the list of texts that a file gives for a setting.

Main results:

* `Yaml.Document.field?_eq_some_iff`, `Yaml.Document.strings?_eq_some_iff` — looking values up;
* `ScanConfig.ofDocument_eq` — the two settings are decided independently;
* `FileSystem.scanConfig_settled` — **what the settings of a repository are**.
-/

import SourceOutline.Proofs.Locating
import Mathlib.Data.List.Forall2

set_option autoImplicit false

namespace SourceOutline

open Text

/-! ### Looking values up -/

namespace Yaml.Document

variable (d : Document)

/-- A value is a given text. -/
def IsText (id : Nat) (text : List CodePoint) : Prop :=
  d.value id = .text text

/-- A value is a mapping that holds another one under a name. -/
def Holds (id : Nat) (name : String) (value : Nat) : Prop :=
  ∃ entries, d.value id = .mapping entries ∧
    entries.lookup (CodePoint.ofText name.toList) = some value

/-- A value is a list of given texts. -/
def Lists (id : Nat) (texts : List (List CodePoint)) : Prop :=
  ∃ items, d.value id = .list items ∧ List.Forall₂ d.IsText items texts

variable {d} {id : Nat}

theorem field?_eq_some_iff {name : String} {value : Nat} :
    d.field? id name = some value ↔ d.Holds id name value := by
  rw [field?, Holds]
  split
  · next entries hid => simp [hid]
  · next hid =>
      refine ⟨fun h => absurd h (by simp), ?_⟩
      rintro ⟨entries, hmapping, -⟩
      exact absurd hmapping (hid entries)

theorem isMapping_of_holds {name : String} {value : Nat} (h : d.Holds id name value) :
    d.isMapping id = true := by
  obtain ⟨entries, hid, -⟩ := h
  rw [isMapping, hid]

theorem text?_eq_some_iff {text : List CodePoint} : d.text? id = some text ↔ d.IsText id text := by
  rw [text?, IsText]
  split
  · next found hid => simp [hid]
  · next hid => exact ⟨fun h => absurd h (by simp), fun h => absurd h (hid text)⟩

theorem mapM_text?_eq_some_iff {items : List Nat} {texts : List (List CodePoint)} :
    items.mapM d.text? = some texts ↔ List.Forall₂ d.IsText items texts := by
  induction items generalizing texts with
  | nil => simp [eq_comm]
  | cons item items ih =>
      rw [List.mapM_cons, List.forall₂_cons_left_iff]
      simp only [Option.bind_eq_bind, Option.bind_eq_some_iff, Option.pure_def, Option.some.injEq,
        ih, text?_eq_some_iff]
      constructor
      · rintro ⟨text, htext, rest, hrest, rfl⟩
        exact ⟨text, rest, htext, hrest, rfl⟩
      · rintro ⟨text, rest, htext, hrest, rfl⟩
        exact ⟨text, htext, rest, hrest, rfl⟩

theorem strings?_eq_some_iff {texts : List (List CodePoint)} :
    d.strings? id = some texts ↔ d.Lists id texts := by
  rw [strings?, Lists]
  split
  · next items hid => simp [hid, mapM_text?_eq_some_iff]
  · next hid =>
      refine ⟨fun h => absurd h (by simp), ?_⟩
      rintro ⟨items, hlist, -⟩
      exact absurd hlist (hid items)

end Yaml.Document

/-! ### The two settings -/

namespace ScanConfig

/-- The list of texts that a document holds for a setting. -/
def userList? (document : Yaml.Document) (field : String) : Option (List (List CodePoint)) :=
  if document.isMapping document.root then do
    let scan ← document.field? document.root "scan"
    if document.isMapping scan then setting? document scan field else none
  else
    none

/-- The suffixes of source files have their dots. -/
theorem map_withDot_default : default.extensions.map withDot = default.extensions := by
  decide

theorem head?_of_mem_map_withDot {extensions : List (List CodePoint)} {extension : List CodePoint}
    (h : extension ∈ extensions.map withDot) : extension.head? = some (.char '.') := by
  obtain ⟨given, -, rfl⟩ := List.mem_map.1 h
  exact withDot_head given

/-- **The two settings are decided independently.** -/
theorem ofDocument_eq (document : Yaml.Document) :
    ofDocument document =
      ⟨((userList? document "extensions").getD default.extensions).map withDot,
        (userList? document "exclude_dirs").getD default.excludedDirectories⟩ := by
  have hdefault : default = ⟨default.extensions.map withDot, default.excludedDirectories⟩ := by
    rw [map_withDot_default]
  rw [ofDocument, userList?, userList?]
  split
  · split
    · next hscan =>
        rw [hscan]
        exact hdefault
    · next scan hscan =>
        rw [hscan]
        simp only [Option.bind_eq_bind, Option.bind_some]
        split
        · rfl
        · exact hdefault
  · exact hdefault

theorem userList?_eq_some_iff {document : Yaml.Document} {field : String}
    {texts : List (List CodePoint)} :
    userList? document field = some texts ↔
      ∃ scan value, document.Holds document.root "scan" scan ∧ document.Holds scan field value ∧
        document.Lists value texts := by
  rw [userList?]
  constructor
  · intro h
    split at h
    · obtain ⟨scan, hscan, h⟩ := Option.bind_eq_some_iff.1 h
      split at h
      · obtain ⟨value, hvalue, hlists⟩ := Option.bind_eq_some_iff.1 h
        exact ⟨scan, value, Yaml.Document.field?_eq_some_iff.1 hscan,
          Yaml.Document.field?_eq_some_iff.1 hvalue, Yaml.Document.strings?_eq_some_iff.1 hlists⟩
      · exact absurd h (by simp)
    · exact absurd h (by simp)
  · rintro ⟨scan, value, hscan, hvalue, hlists⟩
    rw [if_pos (Yaml.Document.isMapping_of_holds hscan),
      Yaml.Document.field?_eq_some_iff.2 hscan]
    simp only [Option.bind_eq_bind, Option.bind_some,
      if_pos (Yaml.Document.isMapping_of_holds hvalue), setting?,
      Yaml.Document.field?_eq_some_iff.2 hvalue]
    exact Yaml.Document.strings?_eq_some_iff.2 hlists

/-! ### Any octets -/

section
variable (load : Yaml.Loader) (octets : List UInt8)

/-- The loader raises an error that is not expected. -/
def Fails (e : Yaml.Error) : Prop :=
  load octets = .error e ∧ e.kind.isHandled = false

/-- A file's octets give a list of texts for a setting: the loader makes a document of them whose
value is a mapping, which holds a mapping under `scan`, which holds the list under the setting's
name. -/
def Sets (field : String) (texts : List (List CodePoint)) : Prop :=
  ∃ document scan value, load octets = .ok document ∧
    document.Holds document.root "scan" scan ∧ document.Holds scan field value ∧
    document.Lists value texts

variable {load octets}

theorem ofOctets_eq_error_iff {e : Yaml.Error} :
    ofOctets load octets = .error e ↔ Fails load octets e := by
  rw [ofOctets, Fails]
  cases hload : load octets with
  | ok document => simp
  | error other =>
      simp only [Except.error.injEq]
      constructor
      · intro h
        split at h
        · exact absurd h (by simp)
        · next hkind =>
            obtain rfl := Except.error.inj h
            exact ⟨rfl, by simpa using hkind⟩
      · rintro ⟨rfl, hkind⟩
        rw [if_neg (by simp [hkind])]

/-- Each setting is what the file sets, and the default otherwise. -/
theorem ofOctets_eq_ok {config : ScanConfig} (h : ofOctets load octets = .ok config) :
    (∃ own, (∀ texts, own = some texts ↔ Sets load octets "extensions" texts) ∧
      config.extensions = (own.getD default.extensions).map withDot) ∧
      ∃ own, (∀ texts, own = some texts ↔ Sets load octets "exclude_dirs" texts) ∧
        config.excludedDirectories = own.getD default.excludedDirectories := by
  rw [ofOctets] at h
  cases hload : load octets with
  | ok document =>
      rw [hload] at h
      obtain rfl := Except.ok.inj h
      have hsets (field : String) (texts : List (List CodePoint)) :
          userList? document field = some texts ↔ Sets load octets field texts := by
        rw [userList?_eq_some_iff]
        constructor
        · rintro ⟨scan, value, hset⟩
          exact ⟨document, scan, value, hload, hset⟩
        · rintro ⟨other, scan, value, hother, hset⟩
          obtain rfl := Except.ok.inj (hload.symm.trans hother)
          exact ⟨scan, value, hset⟩
      rw [ofDocument_eq]
      exact ⟨⟨_, hsets "extensions", rfl⟩, _, hsets "exclude_dirs", rfl⟩
  | error e =>
      rw [hload] at h
      dsimp only at h
      split at h
      · obtain rfl := Except.ok.inj h
        have hsets (field : String) (texts : List (List CodePoint)) :
            none = some texts ↔ Sets load octets field texts := by
          refine ⟨fun h => absurd h (by simp), ?_⟩
          rintro ⟨document, -, -, hother, -⟩
          exact absurd (hload.symm.trans hother) (by simp)
        exact ⟨⟨none, hsets "extensions", map_withDot_default.symm⟩, none, hsets "exclude_dirs",
          rfl⟩
      · exact absurd h (by simp)

end

end ScanConfig

namespace FileSystem

section
variable {fs : FileSystem} (htree : fs.tree.wellFormed = true) {root : Path} {octets : List UInt8}
  (hread : fs.read (root.child configFileName) = .ok octets)

include htree hread

theorem scanConfig_of_read (load : Yaml.Loader) :
    fs.scanConfig load root = (ScanConfig.ofOctets load octets).mapError .settings := by
  simp only [scanConfig, exists?_of_stat htree (stat_of_read hread), hread, Except.mapError, bind,
    Except.bind]
  rfl

/-- **The settings of a repository with a file for them**, whatever the loader of documents makes of
it.  There are none if the loader raises an error that is not expected.  Otherwise every suffix
begins with a dot, and each of the two settings is what the file sets, and the default if it does
not set it. -/
theorem scanConfig_settled (load : Yaml.Loader) :
    (∀ failure, fs.scanConfig load root = .error failure ↔
      ∃ e, ScanConfig.Fails load octets e ∧ failure = .settings e) ∧
    ((∀ e, ¬ ScanConfig.Fails load octets e) → ∃ config, fs.scanConfig load root = .ok config ∧
      (∀ extension ∈ config.extensions, extension.head? = some (.char '.')) ∧
      (∀ texts, ScanConfig.Sets load octets "extensions" texts →
        config.extensions = texts.map ScanConfig.withDot) ∧
      ((∀ texts, ¬ ScanConfig.Sets load octets "extensions" texts) →
        config.extensions = ScanConfig.default.extensions) ∧
      (∀ texts, ScanConfig.Sets load octets "exclude_dirs" texts →
        config.excludedDirectories = texts) ∧
      ((∀ texts, ¬ ScanConfig.Sets load octets "exclude_dirs" texts) →
        config.excludedDirectories = ScanConfig.default.excludedDirectories)) := by
  rw [scanConfig_of_read htree hread]
  cases hvalue : ScanConfig.ofOctets load octets with
  | error e =>
      have hfails := ScanConfig.ofOctets_eq_error_iff.1 hvalue
      refine ⟨fun failure => ⟨fun h => ⟨e, hfails, (Except.error.inj h).symm⟩, ?_⟩,
        fun hnone => absurd hfails (hnone e)⟩
      rintro ⟨other, hother, rfl⟩
      obtain rfl := Except.error.inj (hfails.1.symm.trans hother.1)
      rfl
  | ok config =>
      refine ⟨fun failure => ⟨fun h => absurd h (by simp [Except.mapError]), ?_⟩, fun _ => ?_⟩
      · rintro ⟨e, hfails, -⟩
        exact absurd (hvalue.symm.trans (ScanConfig.ofOctets_eq_error_iff.2 hfails)) (by simp)
      · obtain ⟨⟨extensions, hextensions, hconfig⟩, ⟨excluded, hexcluded, hconfig'⟩⟩ :=
          ScanConfig.ofOctets_eq_ok hvalue
        refine ⟨config, rfl, ?_, fun texts h => ?_, fun h => ?_, fun texts h => ?_, fun h => ?_⟩
        · rw [hconfig]
          exact fun extension h => ScanConfig.head?_of_mem_map_withDot h
        · rw [hconfig, (hextensions texts).2 h, Option.getD_some]
        · have hown : extensions = none :=
            Option.eq_none_iff_forall_ne_some.2 fun texts h' => h texts ((hextensions texts).1 h')
          rw [hconfig, hown]
          exact ScanConfig.map_withDot_default
        · rw [hconfig', (hexcluded texts).2 h, Option.getD_some]
        · have hown : excluded = none :=
            Option.eq_none_iff_forall_ne_some.2 fun texts h' => h texts ((hexcluded texts).1 h')
          rw [hconfig', hown, Option.getD_none]

end

/-- A file that sets the suffixes, one of them without its dot, and nothing else. -/
theorem scanConfig_settled_suffixes :
    let octets := "scan: \x7bextensions: [ts, .tsx]\x7d".toList.map fun c => UInt8.ofNat c.toNat
    let points (text : String) : List CodePoint := CodePoint.ofText text.toList
    let load : Yaml.Loader := fun content =>
      if content = octets then
        .ok ⟨[.mapping [(points "scan", 1)], .mapping [(points "extensions", 2)], .list [3, 4],
          .text (points "ts"), .text (points ".tsx")], 0⟩
      else
        .error ⟨.yaml, "malformed document"⟩
    let fs : FileSystem := ⟨.directory [("r", .directory [(".jsoutline", .file octets)])], [], .free⟩
    ∃ config, fs.scanConfig load ⟨.root, ["r"]⟩ = .ok config ∧
      config.extensions = [points ".ts", points ".tsx"] := by
  intro octets points load fs
  have hread : fs.read (Path.child ⟨.root, ["r"]⟩ configFileName) = .ok octets := rfl
  have hload : ∃ document, load octets = .ok document ∧
      ScanConfig.userList? document "extensions" = some [points "ts", points ".tsx"] :=
    ⟨_, if_pos rfl, by decide +kernel⟩
  obtain ⟨document, hload, hlist⟩ := hload
  have hnone (e : Yaml.Error) : ¬ ScanConfig.Fails load octets e := by
    rintro ⟨herror, -⟩
    exact absurd (hload.symm.trans herror) (by simp)
  have hsets : ScanConfig.Sets load octets "extensions" [points "ts", points ".tsx"] := by
    obtain ⟨scan, value, hset⟩ := ScanConfig.userList?_eq_some_iff.1 hlist
    exact ⟨document, scan, value, hload, hset⟩
  obtain ⟨config, hconfig, -, hextensions, -⟩ :=
    (scanConfig_settled (by decide) hread load).2 hnone
  exact ⟨config, hconfig, hextensions _ hsets⟩

/-- **A word that is marked as a truth value and is none.**  A loader raises an error for the missing
key `x` there, and it is not expected. -/
theorem scanConfig_fails :
    let octets := "!!bool x".toList.map fun c => UInt8.ofNat c.toNat
    let load : Yaml.Loader := fun content =>
      if content = octets then .error ⟨.key, "'x'"⟩ else .error ⟨.yaml, "malformed document"⟩
    let fs : FileSystem := ⟨.directory [("r", .directory [(".jsoutline", .file octets)])], [], .free⟩
    fs.tree.wellFormed = true ∧
      fs.read (Path.child ⟨.root, ["r"]⟩ configFileName) = .ok octets ∧
      fs.scanConfig load ⟨.root, ["r"]⟩ = .error (.settings ⟨.key, "'x'"⟩) := by
  intro octets load fs
  exact ⟨by decide, rfl, by decide +kernel⟩

end FileSystem

end SourceOutline
