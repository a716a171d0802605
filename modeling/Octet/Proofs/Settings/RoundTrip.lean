import Octet.Proofs.Settings.Library

/-!
# Settings come back from their file

Settings are written as a document of two sections, and reading it makes the same settings again,
by any library that keeps to what settings rely on. Only sizes beyond the integers of a settings
file cannot be written.

## Main definitions

* `Settings.document`: what settings are written as.
* `Settings.IsStorable`: all sizes are integers of a settings file.
* `File.IsWritable`: a file that takes new contents.

## Main statements

* `Library.Lawful.write_settings`, `Library.Lawful.read_settings`: settings as a document.
* `Library.Lawful.survives_file`: so it goes for files.
-/

namespace Octet

open Toml

/-! ## Documents -/

def BufferSettings.section (buffers : BufferSettings) : Section := [
  ("initial_send_capacity", .number buffers.sendCapacity),
  ("initial_receive_capacity", .number buffers.receiveCapacity),
  ("max_send_buffer", .number buffers.sendLimit)]

def LogSettings.section (logging : LogSettings) : Section := [
  ("app_name", .string logging.appName),
  ("log_level", .string logging.level.name),
  ("log_to_console", .boolean logging.toConsole),
  ("json_format", .boolean logging.asJson)]

namespace Settings

/-- What settings are written as. -/
def document (settings : Settings) : Document := [
  ("connection", settings.buffers.section),
  ("logging", settings.logging.section)]

theorem distinct_document (settings : Settings) : settings.document.Distinct where
  headers := by simp [document]
  keys := by simp [document, BufferSettings.section, LogSettings.section]

/-- All sizes are integers of a settings file: they have 64 bits, one of which is for the sign. -/
def IsStorable (settings : Settings) : Prop :=
  settings.buffers.sendCapacity < 1 <<< 63 ∧ settings.buffers.receiveCapacity < 1 <<< 63 ∧
    settings.buffers.sendLimit < 1 <<< 63

instance (settings : Settings) : Decidable settings.IsStorable :=
  inferInstanceAs (Decidable (_ ∧ _ ∧ _))

@[simp] theorem fits_document (settings : Settings) :
    settings.document.fits = true ↔ settings.IsStorable := by
  simp [document, Document.fits, BufferSettings.section, LogSettings.section, Atom.fits, IsStorable]

/-- Settings with which nothing is wrong have sizes far below the largest integers. -/
theorem isStorable_of_problems_eq_nil {settings : Settings} (h : settings.problems = []) :
    settings.IsStorable := by
  have hwhen {p : Prop} [Decidable p] {problem : Problem} (h : Problem.when p problem = []) :
      ¬ p := by
    intro hp
    rw [Problem.when, if_pos hp] at h
    cases h
  simp only [problems, BufferSettings.problems, List.append_eq_nil_iff] at h
  obtain ⟨⟨⟨⟨-, hlimit⟩, hsend⟩, hreceive⟩, -⟩ := h
  have hlimit := hwhen hlimit
  have hsend := hwhen hsend
  have hreceive := hwhen hreceive
  unfold IsStorable
  omega

end Settings

/-! ## Libraries -/

namespace Library.Lawful

variable {ε : Type} {lib : Library ε} (h : lib.Lawful)
include h

theorem follows_level : lib.level.Follows fun level => .string level.name where
  write level := h.text.write level.name
  read {level} hfits := by
    simp only [Library.level, h.text.read hfits, h.level_name, bind, Except.bind]

/-- A record is read as it was written if its fields are, and there are no others. -/
theorem read_write {δ α : Type} {s : Schema ε δ α} {form : δ → Value} {a : α}
    {changes : List (α → α)} (hfields : (s.fields.map Field.key).Nodup)
    (hread : List.Forall₂ (fun field change => field.read (form (field.write a)) = .ok change)
      s.fields changes)
    (ha : changes.foldl (fun b change => change b) s.base = a) :
    (lib.record s).read (tableOf form (s.write a)) = .ok a := by
  have hfill : s.fill (fun _ => lib.custom "")
      ((s.write a).map fun entry => (entry.1, form entry.2)) = .ok a := by
    rw [Schema.fill_write hfields hread, ha]
  exact h.read_record hfields (by simpa [Schema.write, Function.comp_def] using hfields) hfill

theorem write_bufferSchema (buffers : BufferSettings) :
    lib.bufferSchema.write buffers = buffers.section := by
  simp [Schema.write, bufferSchema, Codec.field, h.size.write, BufferSettings.section]

theorem write_logSchema (logging : LogSettings) :
    lib.logSchema.write logging = logging.section := by
  simp [Schema.write, logSchema, Codec.field, h.text.write, h.follows_level.write, h.truth.write,
    LogSettings.section]

theorem read_buffers {buffers : BufferSettings}
    (hfits : ∀ entry ∈ buffers.section, entry.2.fits = true) :
    lib.buffers.read (Section.value buffers.section) = .ok buffers := by
  simp only [BufferSettings.section, List.forall_mem_cons] at hfits
  obtain ⟨hsend, hreceive, hlimit, -⟩ := hfits
  rw [← h.write_bufferSchema]
  exact h.read_write (by simp [bufferSchema, Codec.field])
    (.cons (h.size.read_field hsend) <| .cons (h.size.read_field hreceive) <|
      .cons (h.size.read_field hlimit) .nil) rfl

theorem read_logging (logging : LogSettings) :
    lib.logging.read (Section.value logging.section) = .ok logging := by
  rw [← h.write_logSchema]
  exact h.read_write (by simp [logSchema, Codec.field])
    (.cons (h.text.read_field rfl) <| .cons (h.follows_level.read_field rfl) <|
      .cons (h.truth.read_field rfl) <| .cons (h.truth.read_field rfl) .nil) rfl

theorem write_buffers (buffers : BufferSettings) : lib.buffers.write buffers = buffers.section := by
  rw [Library.buffers, h.write_record, h.write_bufferSchema]

theorem write_logging (logging : LogSettings) : lib.logging.write logging = logging.section := by
  rw [Library.logging, h.write_record, h.write_logSchema]

theorem write_schema (settings : Settings) : lib.schema.write settings = settings.document := by
  simp [Schema.write, schema, Codec.field, Field.orDefault, h.write_buffers, h.write_logging,
    Settings.document]

theorem write_settings (settings : Settings) :
    lib.settings.write settings = settings.document := by
  rw [Library.settings, h.write_record, h.write_schema]

theorem read_settings {settings : Settings} (hfits : settings.document.fits = true) :
    lib.settings.read settings.document.value = .ok settings := by
  simp only [Settings.document, Document.fits, List.all_cons, Bool.and_eq_true,
    List.all_eq_true] at hfits
  have hbuffers : lib.buffers.read (Section.value (lib.buffers.write settings.buffers)) =
      .ok settings.buffers := by
    rw [h.write_buffers, h.read_buffers hfits.1]
  have hlogging : lib.logging.read (Section.value (lib.logging.write settings.logging)) =
      .ok settings.logging := by
    rw [h.write_logging, h.read_logging]
  rw [← h.write_schema]
  exact h.read_write (by simp [schema, Codec.field, Field.orDefault])
    (.cons (Codec.read_field "connection" hbuffers) <|
      .cons (Codec.read_field "logging" hlogging) .nil) rfl

/-- Settings that fit have a text, and come back from it. -/
theorem exists_text {settings : Settings} (hstorable : settings.IsStorable) :
    ∃ text, lib.toText settings = .ok text ∧ lib.ofText text = .ok settings := by
  have hfits := settings.fits_document.mpr hstorable
  obtain ⟨text, hprint, hparse⟩ := h.print_of_fits settings.distinct_document hfits
  refine ⟨text, ?_, ?_⟩
  · rw [toText, h.write_settings, hprint]
  · simp only [ofText, hparse, bind, Except.bind, h.read_settings hfits]

/-- Other settings have none. -/
theorem exists_toText_eq_error {settings : Settings} (hstorable : ¬ settings.IsStorable) :
    ∃ reason, lib.toText settings = .error (.printing reason) := by
  have hfits : settings.document.fits = false :=
    Bool.eq_false_iff.mpr (mt settings.fits_document.mp hstorable)
  obtain ⟨fault, hprint⟩ := h.print_of_not_fits hfits
  exact ⟨lib.message fault, by rw [toText, h.write_settings, hprint]⟩

end Library.Lawful

/-! ## Files -/

namespace File

/-- A file that takes new contents. -/
def IsWritable : File → Prop
  | absent | holding _ => True
  | directory | unreachable _ => False

variable {file : File}

@[simp] theorem write?_of_isWritable (h : file.IsWritable) (data : Bytes) :
    file.write? data = .ok (.holding data) := by
  cases file with
  | absent | holding => rfl
  | directory | unreachable => cases h

theorem write?_of_not_isWritable (h : ¬ file.IsWritable) (data : Bytes) :
    ∃ reason, file.write? data = .error reason := by
  cases file with
  | absent | holding => exact absurd trivial h
  | directory | unreachable => exact ⟨_, rfl⟩

end File

namespace Library

variable {ε : Type} {lib : Library ε}

@[simp] theorem ofBytes_toUTF8 (text : String) :
    lib.ofBytes text.toUTF8.data.toList = lib.ofText text := by
  have hdecode : String.fromUTF8? text.toUTF8 = some text := by
    rw [String.fromUTF8?, String.toUTF8_eq_toByteArray, dif_pos text.isValidUTF8]
    rfl
  simp only [ofBytes, Array.toArray_toList, hdecode]

/-- What comes of saving settings that have a text. -/
structure Survives (lib : Library ε) (settings : Settings) (file : File) : Prop where
  /-- A file that takes new contents is written, and the same settings are loaded from it. -/
  returns : file.IsWritable → ∃ next loaded, lib.save settings file = .ok () next ∧
    lib.load next = .ok loaded ∧ loaded = settings ∧ loaded.problems = settings.problems
  /-- Anything else is left as it was. -/
  refused : ¬ file.IsWritable → ∃ reason, lib.save settings file = .error (.writing reason) file

theorem survives_of_text {settings : Settings} {text : String}
    (htext : lib.toText settings = .ok text) (hread : lib.ofText text = .ok settings)
    (file : File) : lib.Survives settings file where
  returns hwritable := by
    have hwrite := File.write?_of_isWritable hwritable text.toUTF8.data.toList
    have hsave : lib.save settings file = .ok () (.holding text.toUTF8.data.toList) := by
      simp only [save, htext, hwrite]
    have hload : lib.load (.holding text.toUTF8.data.toList) = .ok settings := by
      rw [load, ofBytes_toUTF8, hread]
    exact ⟨_, settings, hsave, hload, rfl, rfl⟩
  refused hwritable := by
    obtain ⟨reason, hwrite⟩ := File.write?_of_not_isWritable hwritable text.toUTF8.data.toList
    exact ⟨reason, by simp only [save, htext, hwrite]⟩

theorem Lawful.survives (h : lib.Lawful) {settings : Settings} (hstorable : settings.IsStorable)
    (file : File) : lib.Survives settings file := by
  obtain ⟨text, htext, hread⟩ := h.exists_text hstorable
  exact survives_of_text htext hread file

/-- By any lawful library, settings come back from every file that takes new contents, whatever
the name is, as long as their sizes are integers of a settings file, as they are where nothing is
wrong. Otherwise saving is refused and leaves the file alone. -/
theorem Lawful.survives_file (h : lib.Lawful) (settings : Settings) (file : File) :
    (settings.IsStorable → lib.Survives settings file) ∧
      (¬ settings.IsStorable →
        ∃ reason, lib.save settings file = .error (.printing reason) file) ∧
      (settings.problems = [] → lib.Survives settings file) := by
  refine ⟨fun hstorable => h.survives hstorable file, fun hstorable => ?_, fun hproblems =>
    h.survives (Settings.isStorable_of_problems_eq_nil hproblems) file⟩
  obtain ⟨reason, htext⟩ := h.exists_toText_eq_error hstorable
  exact ⟨reason, by simp only [save, htext]⟩

/-- Names that take three quotes of either kind, or that take escapes, with the largest sizes; a
size that is one too large; and the defaults: by the library at work. -/
theorem survives_file_at_the_edges :
    let largest : BufferSettings := ⟨(1 <<< 63) - 1, (1 <<< 63) - 1, (1 <<< 63) - 1⟩
    let single : Settings := { buffers := largest, logging := { appName := "\"\\\n\"\"\"é" } }
    let double : Settings := { buffers := largest, logging := { appName := "'\"\n'\"" } }
    let escaped : Settings :=
      { buffers := largest, logging := { appName := "\x00\"\"\"\r\n", level := .trace } }
    let larger : Settings := { buffers := { largest with sendLimit := 1 <<< 63 } }
    let file : File := .holding [1]
    toml.Lawful ∧
      (∀ settings ∈ [single, double, escaped], settings.IsStorable ∧
        ∃ next, toml.save settings file = .ok () next ∧ toml.load next = .ok settings) ∧
      (¬ larger.IsStorable ∧
        ∃ reason, toml.save larger file = .error (.printing reason) file) ∧
      (({} : Settings).problems = [] ∧
        ∃ next, toml.save {} file = .ok () next ∧ toml.load next = .ok {}) := by
  intro largest single double escaped larger file
  have hsurvives (settings : Settings) := lawful_toml.survives_file settings file
  have hreturns {settings : Settings} (h : toml.Survives settings file) :
      ∃ next, toml.save settings file = .ok () next ∧ toml.load next = .ok settings := by
    obtain ⟨next, loaded, hsave, hload, rfl, -⟩ := h.returns trivial
    exact ⟨next, hsave, hload⟩
  have hall : ∀ settings ∈ [single, double, escaped], settings.IsStorable := by decide
  have hlarger : ¬ larger.IsStorable := by decide
  have hdefault : ({} : Settings).problems = [] := by decide
  exact ⟨lawful_toml, fun settings hmem =>
      ⟨hall settings hmem, hreturns ((hsurvives settings).1 (hall settings hmem))⟩,
    ⟨hlarger, (hsurvives larger).2.1 hlarger⟩, hdefault, hreturns ((hsurvives {}).2.2 hdefault)⟩

end Library

end Octet
