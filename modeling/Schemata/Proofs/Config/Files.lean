import Schemata.Cli.Run
import Schemata.Proofs.Config.Decoding

/-!
# Configuration files

A configuration that is saved comes back from its file as it was, unless its pool cannot be kept:
then the file is refused. What a file or the command line gives is therefore usable, and stays so
when another URL takes the place of its own, because the check looks at the pool alone.
-/
namespace Schemata

open Json

/-- A pool holds a connection at least, and keeps no more of them than it may open. -/
def Pooling.Usable : Pooling → Prop
  | .disabled => True
  | .enabled bounds => 1 ≤ bounds.max ∧ bounds.min ≤ bounds.max

instance : DecidablePred Pooling.Usable
  | .disabled => inferInstanceAs (Decidable True)
  | .enabled _ => inferInstanceAs (Decidable (_ ∧ _))

namespace Config

theorem validate_eq_ok_iff {c : Config} : c.validate = .ok () ↔ c.pooling.Usable := by
  obtain ⟨connection, pooling, debug⟩ := c
  cases pooling with
  | disabled => simp [validate, Pooling.Usable]
  | enabled bounds =>
    have hmax : 1 ≤ bounds.max ↔ ¬ bounds.max = 0 := by
      rw [UInt32.le_iff_toNat_le, ← UInt32.toNat_inj]
      exact Nat.one_le_iff_ne_zero
    have hmin : bounds.min ≤ bounds.max ↔ ¬ bounds.max < bounds.min := UInt32.not_lt.symm
    simp only [validate, Pooling.Usable, hmax, hmin]
    split
    · simp_all
    · split <;> simp_all

/-- Only the pool is checked. -/
theorem validate_congr {c d : Config} (h : c.pooling = d.pooling) : c.validate = d.validate := by
  rw [validate, validate, h]

theorem ofFile_text {s : String} {c : Config} (h : ofDocument (.ofText s) = .ok c) :
    ofFile (.text s) = (c.validate.mapError ConfigFileError.invalid).map fun _ => c := by
  rw [ofFile, h]
  show (c.validate.mapError ConfigFileError.invalid >>= fun _ => pure c) = _
  cases c.validate <;> rfl

theorem ofFile_usable {s : String} {c : Config} (h : ofDocument (.ofText s) = .ok c)
    (hc : c.pooling.Usable) : ofFile (.text s) = .ok c := by
  rw [ofFile_text h, validate_eq_ok_iff.mpr hc]
  rfl

theorem ofFile_unusable {s : String} {c : Config} (h : ofDocument (.ofText s) = .ok c)
    (hc : ¬ c.pooling.Usable) : ∃ e, ofFile (.text s) = .error (.invalid e) := by
  rw [ofFile_text h]
  cases hvalid : c.validate with
  | error e => exact ⟨e, rfl⟩
  | ok => exact absurd (validate_eq_ok_iff.mp hvalid) hc

theorem validate_of_ofFile {content : FileContent} {c : Config} (h : ofFile content = .ok c) :
    c.validate = .ok () := by
  cases content with
  | unreadable => cases h
  | text s =>
    cases hdoc : ofDocument (.ofText s) with
    | error fault =>
      rw [ofFile, hdoc] at h
      cases h
    | ok d =>
      rw [ofFile_text hdoc] at h
      cases hvalid : d.validate with
      | error e => rw [hvalid] at h; cases h
      | ok =>
        rw [hvalid] at h
        cases h
        exact hvalid

end Config

namespace Cli

variable {files : Files} {config : Config}

/-- A configuration that a command works with has been checked. -/
theorem validate_of_loadConfig {configPath url : Option String}
    (h : loadConfig files configPath url = .ok config) : config.validate = .ok () := by
  cases configPath with
  | none =>
    cases url <;>
      · cases h
        rfl
  | some path =>
    rw [loadConfig] at h
    cases hfile : Config.ofFile (files path) with
    | error reason => simp only [hfile] at h; cases h
    | ok c =>
      have hvalid : c.validate = .ok () := Config.validate_of_ofFile hfile
      simp only [hfile] at h
      cases url <;>
        · cases h
          exact hvalid

end Cli

/-- What is asked for can then still lack an address, and nothing else. -/
theorem Database.target_error {c : Config} (hc : c.validate = .ok ()) {e : ConfigError}
    (h : Database.target c = .error e) : e = .noConnection ∨ ∃ url, e = .unknownScheme url := by
  rw [Database.target, hc] at h
  cases hconn : c.connection with
  | none =>
    simp only [hconn] at h
    cases h
    exact .inl rfl
  | some settings =>
    simp only [hconn] at h
    cases hd : settings.dialect? with
    | some d =>
      have hdialect : settings.dialect = .ok d := by rw [ConnectionSettings.dialect, hd]
      simp only [hdialect] at h
      cases h
    | none =>
      have hdialect : settings.dialect = .error (.unknownScheme settings.url) := by
        rw [ConnectionSettings.dialect, hd]
      simp only [hdialect] at h
      cases h
      exact .inr ⟨_, rfl⟩

namespace Config

/-- **A configuration survives its file, and only usable ones get through.** What is saved is
told from its document, and from every text that holds it, such as the one that is written; a
file with such a text gives the configuration back if its pool is usable and is refused
otherwise. What any file gives has passed the check and passes it again with any URL in the place
of its own, pool and debug switch and an explicit dialect staying as they are; so the check that
comes before a connection is opened finds nothing wrong with what the command line gives, which
may only lack an address. -/
theorem file_gives_back_usable_config :
    (∀ c : Config,
      ofDocument (.ofJson c.toJson) = .ok c ∧ Document.ofText (render c.toJson) = .ofJson c.toJson ∧
      ∀ text, Document.ofText text = .ofJson c.toJson →
        (c.pooling.Usable → ofFile (.text text) = .ok c) ∧
        (¬ c.pooling.Usable → ∃ e, ofFile (.text text) = .error (.invalid e))) ∧
    (∀ content d, ofFile content = .ok d →
      d.validate = .ok () ∧
      ∀ url, (d.withUrl url).validate = .ok () ∧ (d.withUrl url).pooling = d.pooling ∧
        (d.withUrl url).debug = d.debug ∧
        (d.withUrl url).connection = some ⟨url, d.connection.bind (·.explicitDialect)⟩) ∧
    ∀ files path url d, Cli.loadConfig files path url = .ok d →
      d.validate = .ok () ∧
      ∀ e, Database.target d = .error e → e = .noConnection ∨ ∃ u, e = .unknownScheme u := by
  refine ⟨fun c => ⟨c.ofDocument_ofJson, ofText_render c.faithful_toJson, fun text htext => ?_⟩,
    fun content d hd => ?_, fun files path url d hd => ?_⟩
  · have hdoc : ofDocument (.ofText text) = .ok c := by
      rw [htext]
      exact c.ofDocument_ofJson
    exact ⟨ofFile_usable hdoc, ofFile_unusable hdoc⟩
  · have hvalid : d.validate = .ok () := validate_of_ofFile hd
    have hurl : ∀ url, (d.withUrl url).validate = .ok () := fun url =>
      (validate_congr rfl).trans hvalid
    exact ⟨hvalid, fun url => ⟨hurl url, rfl, rfl, rfl⟩⟩
  · have hvalid : d.validate = .ok () := Cli.validate_of_loadConfig hd
    exact ⟨hvalid, fun e => Database.target_error hvalid⟩

/-- The largest numbers come back, a pool that keeps more than it may open is refused, and another
URL changes nothing but the address. -/
theorem largest_pool_comes_back_from_file :
    let c : Config :=
      { connection := some ⟨"mysql://db/\"shop\"", some .postgres⟩
        pooling := .enabled ⟨4294967295, 4294967295, 18446744073709551615, some 18446744073709551615⟩
        debug := true }
    let crowded : Config := { pooling := .enabled { max := 1 } }
    let files : Cli.Files := fun _ => .text (render c.toJson)
    ofFile (.text (render c.toJson)) = .ok c ∧
      (∃ e, ofFile (.text (render crowded.toJson)) = .error (.invalid e)) ∧
      (c.withUrl "x:").connection = some ⟨"x:", some .postgres⟩ ∧
      Cli.loadConfig files (some "keel.json") (some "x:") = .ok (c.withUrl "x:") ∧
      (c.withUrl "x:").validate = .ok () := by
  intro c crowded files
  obtain ⟨hsaved, hgot, hloaded⟩ := file_gives_back_usable_config
  obtain ⟨-, htext, hfile⟩ := hsaved c
  obtain ⟨-, htext', hfile'⟩ := hsaved crowded
  have hc : ofFile (.text (render c.toJson)) = .ok c := (hfile _ htext).1 (by decide)
  have hload : Cli.loadConfig files (some "keel.json") (some "x:") = .ok (c.withUrl "x:") := by
    simp only [Cli.loadConfig, files, hc]
    rfl
  exact ⟨hc, (hfile' _ htext').2 (by decide), ((hgot _ c hc).2 "x:").2.2.2, hload,
    (hloaded files _ _ _ hload).1⟩

end Config

end Schemata
