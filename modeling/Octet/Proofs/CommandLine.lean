import Octet.CommandLine
import Octet.Proofs.Source.Stream
import Octet.Proofs.Texture.Alike
import Octet.Proofs.Texture.Description
import Octet.Proofs.Texture.Usage

/-!
# What the command line says of a file

The inspector says of a file what a codec says of its bytes, and says nothing where it fails.

## Main definitions

* `Texture.ofFile`: the header that loading finds at the start of a file.
* `Answers`: what is said of a file goes by that header.
* `Reports`: what is said of a file goes by payloads.

## Main statements

* `readHeader_holding`: the inspector finds that header, or is refused for the same reason.
* `inspect_follows_load`: so it goes for every file and every level, and for files that were saved.
-/

namespace Octet

open Texture

namespace Texture

/-- The header that loading finds at the start of a file, or what it is refused for. -/
def ofFile (data : Bytes) : Except Error Header :=
  (load.outcome (⟨{ data }, false⟩ : Reader Cursor)).1

variable {header : Header} {payloads : List Bytes}

/-- A file of a known version holds the header that was saved. -/
theorem ofFile_encodeTexture (hversion : header.version = Version.v1_0.raw) :
    ofFile (encodeTexture 0 header payloads) = .ok (header.describing 0 payloads) := by
  have hfile : encodeTexture 0 header payloads =
      (header.describing 0 payloads).encode ++ payloads.flatten := rfl
  rw [← header.describing_version 0 payloads] at hversion
  obtain ⟨next, hload⟩ := exists_load_of_eq hfile hversion
  rw [ofFile, Action.outcome, hload]

/-- The slot of a level that was saved says where its payload lies in the file. -/
theorem Fits.slice_eq (hfits : Fits 0 payloads) {level : Nat} {extent : Extent}
    (hlevel : (header.describing 0 payloads).level? level = some extent) :
    ∃ payload, payloads[level]? = some payload ∧ payload ≠ [] ∧
      extent.length.toNat = payload.length ∧
      ((encodeTexture 0 header payloads).drop extent.offset.toNat).take extent.length.toNat =
        payload := by
  have hslot := hfits.level?_describing header level
  have hpayloadIn :=
    (show Fits ([] : Bytes).length payloads from hfits).payloadIn_eq header level
  simp only [hlevel] at hslot
  obtain ⟨payload, hpayload, hne, -, hlength⟩ := hslot
  refine ⟨payload, hpayload, hne, hlength, ?_⟩
  simp only [List.length_nil, List.nil_append, Header.payloadIn, hlevel, levelOf, hpayload,
    Option.getD_some, if_neg hne] at hpayloadIn
  split at hpayloadIn
  · exact Except.ok.inj hpayloadIn
  · cases hpayloadIn

end Texture

namespace CommandLine

variable {files : String → File} {path number : String} {level : Nat}

/-! ## Finding the header -/

theorem readHeader_of_open {file : File} {stream : Stream} {source : StreamSource}
    (hfile : file.open? = .ok stream) (hopen : StreamSource.ofStream stream = .ok source) :
    readHeader file = (load.outcome (⟨source, false⟩ : Reader StreamSource)).1 := by
  simp only [readHeader, hfile, bind, Except.bind, hopen, Action.outcome]
  cases load (⟨source, false⟩ : Reader StreamSource) <;> rfl

/-- A file is read through a stream, with the same result as from its bytes in memory. -/
@[simp] theorem readHeader_holding (data : Bytes) : readHeader (.holding data) = ofFile data := by
  obtain ⟨stream, hseek, hcontent, hcursor, hfaults⟩ :=
    Stream.exists_seek_here_eq (s := { content := data }) Faults.harmless_default
      (show 0 < UInt64.size by decide)
  have hopen : StreamSource.ofStream { content := data } = .ok ⟨stream, 0, none⟩ := by
    simp only [StreamSource.ofStream, hseek]
  have halike : Reader.Alike (fun source : StreamSource => source.stream.faults.Harmless)
      StreamSource.ahead (fun _ : Cursor => True) Cursor.remaining ⟨⟨stream, 0, none⟩, false⟩
      ⟨{ data }, false⟩ := by
    refine ⟨rfl, hfaults ▸ Faults.harmless_default, trivial, ?_, rfl⟩
    simp only [StreamSource.ahead, hcontent, hcursor, Cursor.remaining]
  rw [readHeader_of_open rfl hopen]
  exact (load_agree StreamSource.yields Cursor.yields _ _ halike).1

/-! ## Outcomes -/

@[simp] theorem code_report_eq_zero {outcome : Except Error String} :
    (report outcome).code = 0 ↔ ∃ text, outcome = .ok text := by
  cases outcome <;> simp [report]

/-- What fails prints nothing but a complaint. -/
theorem out_of_code_ne_zero {args : List String} (h : (inspect files args).code ≠ 0) :
    (inspect files args).out = "" := by
  have hreport (outcome : Except Error String) (h : (report outcome).code ≠ 0) :
      (report outcome).out = "" := by
    cases outcome with
    | ok text => exact absurd rfl h
    | error e => rfl
  unfold inspect at h ⊢
  split at h
  · rfl
  · rfl
  · exact hreport _ h
  · exact hreport _ h

/-- The arguments ask for help, for a description or for a level. -/
def Understood (args : List String) : Prop :=
  (∃ flag, args = [flag] ∧ (flag = "-h" ∨ flag = "--help")) ∨
    (∃ flag path, args = [flag, path] ∧ (flag = "-i" ∨ flag = "--info")) ∨
    ∃ flag number path, args = [flag, number, path] ∧ (flag = "-m" ∨ flag = "--mip") ∧
      (Text.size? number).isSome

theorem understood_of_ofArgs? {args : List String} {command : Command}
    (h : Command.ofArgs? args = some command) : Understood args := by
  unfold Command.ofArgs? at h
  split at h
  next flag =>
    split at h
    next hflag => exact .inl ⟨flag, rfl, hflag⟩
    next => cases h
  next flag path =>
    split at h
    next hflag => exact .inr (.inl ⟨flag, path, rfl, hflag⟩)
    next => cases h
  next flag number path =>
    split at h
    next hflag =>
      obtain ⟨level, hlevel, -⟩ := Option.map_eq_some_iff.mp h
      exact .inr (.inr ⟨flag, number, path, rfl, hflag, Option.isSome_of_eq_some hlevel⟩)
    next => cases h
  next => cases h

theorem understood_of_code_eq_zero {args : List String} (h : (inspect files args).code = 0) :
    Understood args := by
  unfold inspect at h
  cases hargs : Command.ofArgs? args with
  | none =>
    rw [hargs] at h
    cases h
  | some command => exact understood_of_ofArgs? hargs

theorem describeLevel_of_lt {header : Header} (hlevel : level < levelLimit)
    (hlength : header.levels[level].length ≠ 0) :
    describeLevel header level = .ok (describeExtent level header.levels[level]) := by
  rw [describeLevel, Header.level?_eq_some.mpr ⟨hlevel, rfl, hlength⟩]
  rfl

theorem exists_of_describeLevel {header : Header} {text : String}
    (h : describeLevel header level = .ok text) :
    ∃ _ : level < levelLimit, header.levels[level].length ≠ 0 := by
  unfold describeLevel at h
  split at h
  next extent hextent =>
    obtain ⟨hlevel, rfl, hlength⟩ := Header.level?_eq_some.mp hextent
    exact ⟨hlevel, hlength⟩
  next => cases h

/-- The inspector says of a file what there is to say of the header that was found in it: success
where there is one and, if a level was asked for, where that is a number of a slot in use. -/
structure Answers (files : String → File) (path : String) (found : Except Error Header) : Prop where
  code_info : ∀ flag, flag = "-i" ∨ flag = "--info" →
    ((inspect files [flag, path]).code = 0 ↔ ∃ header, found = .ok header)
  out_info : ∀ flag header, flag = "-i" ∨ flag = "--info" → found = .ok header →
    (inspect files [flag, path]).out = header.describe
  code_level : ∀ flag number, flag = "-m" ∨ flag = "--mip" →
    ((inspect files [flag, number, path]).code = 0 ↔
      ∃ level header, Text.size? number = some level ∧ found = .ok header ∧
        ∃ _ : level < levelLimit, header.levels[level].length ≠ 0)
  out_level : ∀ flag number level header (_ : level < levelLimit), flag = "-m" ∨ flag = "--mip" →
    Text.size? number = some level → found = .ok header → header.levels[level].length ≠ 0 →
    (inspect files [flag, number, path]).out = describeExtent level header.levels[level]

section

variable {flag : String} {found : Except Error Header} (hfound : readHeader (files path) = found)
include hfound

theorem inspect_info (hflag : flag = "-i" ∨ flag = "--info") :
    inspect files [flag, path] = report (found.map Header.describe) := by
  have hargs : Command.ofArgs? [flag, path] = some (.info path) := if_pos hflag
  simp only [inspect, hargs, hfound]
  cases found <;> rfl

theorem inspect_level (hflag : flag = "-m" ∨ flag = "--mip")
    (hnumber : Text.size? number = some level) :
    inspect files [flag, number, path] = report (found >>= (describeLevel · level)) := by
  have hargs : Command.ofArgs? [flag, number, path] = some (.level level path) := by
    rw [Command.ofArgs?, if_pos hflag, hnumber, Option.map_some]
  simp only [inspect, hargs, hfound]

omit hfound in
/-- A level that is not a number is refused before the file is looked at. -/
theorem inspect_not_number (hflag : flag = "-m" ∨ flag = "--mip")
    (hnumber : Text.size? number = none) :
    inspect files [flag, number, path] = { code := 1, err := usage } := by
  have hargs : Command.ofArgs? [flag, number, path] = none := by
    rw [Command.ofArgs?, if_pos hflag, hnumber, Option.map_none]
  simp only [inspect, hargs]

theorem inspect_used_level {header : Header} (hflag : flag = "-m" ∨ flag = "--mip")
    (hnumber : Text.size? number = some level) (hheader : found = .ok header)
    (hlevel : level < levelLimit) (hlength : header.levels[level].length ≠ 0) :
    inspect files [flag, number, path] = { out := describeExtent level header.levels[level] } := by
  rw [inspect_level hfound hflag hnumber, hheader]
  change report (describeLevel header level) = _
  rw [describeLevel_of_lt hlevel hlength]
  rfl

theorem answers_of_readHeader : Answers files path found where
  code_info flag hflag := by
    rw [inspect_info hfound hflag, code_report_eq_zero]
    cases found <;> simp [Except.map]
  out_info flag header hflag hheader := by
    rw [inspect_info hfound hflag, hheader]
    rfl
  code_level flag number hflag := by
    constructor
    · intro h
      cases hnumber : Text.size? number with
      | none =>
        rw [inspect_not_number hflag hnumber] at h
        cases h
      | some level =>
        rw [inspect_level hfound hflag hnumber, code_report_eq_zero] at h
        obtain ⟨text, htext⟩ := h
        cases hheader : found with
        | error e =>
          rw [hheader] at htext
          cases htext
        | ok header =>
          rw [hheader] at htext
          exact ⟨level, header, rfl, rfl, exists_of_describeLevel htext⟩
    · rintro ⟨level, header, hnumber, hheader, hlevel, hlength⟩
      rw [inspect_used_level hfound hflag hnumber hheader hlevel hlength]
  out_level flag number level header hlevel hflag hnumber hheader hlength := by
    rw [inspect_used_level hfound hflag hnumber hheader hlevel hlength]

end

/-! ## Files that were saved -/

/-- Of a file just those levels are reported whose payloads are not empty, and where in the file the
payloads lie. -/
structure Reports (files : String → File) (path : String) (file : Bytes) (payloads : List Bytes) :
    Prop where
  code_eq_zero : ∀ flag number, flag = "-m" ∨ flag = "--mip" →
    ((inspect files [flag, number, path]).code = 0 ↔ ∃ level payload,
      Text.size? number = some level ∧ payloads[level]? = some payload ∧ payload ≠ [])
  out_eq : ∀ flag number level payload, flag = "-m" ∨ flag = "--mip" →
    Text.size? number = some level → payloads[level]? = some payload → payload ≠ [] →
    ∃ extent, (inspect files [flag, number, path]).out = describeExtent level extent ∧
      extent.length.toNat = payload.length ∧
      (file.drop extent.offset.toNat).take extent.length.toNat = payload

variable {header : Header} {payloads : List Bytes}

theorem Answers.reports (hversion : header.version = Version.v1_0.raw) (hfits : Fits 0 payloads)
    (hanswers : Answers files path (ofFile (encodeTexture 0 header payloads))) :
    Reports files path (encodeTexture 0 header payloads) payloads := by
  rw [ofFile_encodeTexture hversion] at hanswers
  have hused (level : Nat) : (∃ _ : level < levelLimit,
      (header.describing 0 payloads).levels[level].length ≠ 0) ↔
        ∃ payload, payloads[level]? = some payload ∧ payload ≠ [] := by
    rw [← Header.isSome_level?_iff, hfits.isSome_level?_describing]
    cases payloads[level]? <;> simp
  constructor
  · intro flag number hflag
    rw [hanswers.code_level flag number hflag]
    constructor
    · rintro ⟨level, _, hnumber, ⟨⟩, hslot⟩
      obtain ⟨payload, hpayload⟩ := (hused level).mp hslot
      exact ⟨level, payload, hnumber, hpayload⟩
    · rintro ⟨level, payload, hnumber, hpayload⟩
      exact ⟨level, _, hnumber, rfl, (hused level).mpr ⟨payload, hpayload⟩⟩
  · intro flag number level payload hflag hnumber hpayload hne
    obtain ⟨hlevel, hlength⟩ := (hused level).mpr ⟨payload, hpayload, hne⟩
    obtain ⟨found, hsaved, -, hcount, hslice⟩ :=
      hfits.slice_eq (Header.level?_eq_some.mpr ⟨hlevel, rfl, hlength⟩)
    obtain rfl := Option.some.inj (hpayload.symm.trans hsaved)
    exact ⟨_, hanswers.out_level flag number level _ hlevel hflag hnumber rfl hlength, hcount,
      hslice⟩

/-- Only what is understood can succeed, and whatever fails prints nothing. Of every file the
inspector says what there is to say of the header that loading finds in it; the description gives
away all of the header but the version, and the line of a level all that its slot says. So of a file
of the known version that a save made alone, through any honest sink, the levels are reported whose
payloads are not empty, and there the payloads are. -/
theorem inspect_follows_load (files : String → File) :
    (∀ args, (inspect files args).code = 0 → Understood args) ∧
    (∀ args, (inspect files args).code ≠ 0 → (inspect files args).out = "") ∧
    (∀ path data, files path = .holding data → Answers files path (ofFile data)) ∧
    (∀ header header' : Header,
      header.describe = header'.describe ↔ { header with version := header'.version } = header') ∧
    (∀ level level' extent extent', describeExtent level extent = describeExtent level' extent' ↔
      level = level' ∧ extent = extent') ∧
    ∀ {σ : Type} [Sink σ] {holds : σ → Bytes → Prop} {sink sink' : σ} {first header : Header}
      {payloads : List Bytes}, Sink.Honest holds → holds sink [] →
      first.version = Version.v1_0.raw → save payloads (first, sink) = .ok () (header, sink') →
      let file := encodeTexture 0 first payloads
      (∃ full, holds full file ∧ Sink.flush full = .ok () sink') ∧
        ∀ path, files path = .holding file → Reports files path file payloads := by
  have hanswers (path : String) (data : Bytes) (hfile : files path = .holding data) :
      Answers files path (ofFile data) :=
    answers_of_readHeader (by simp [hfile])
  refine ⟨fun args => understood_of_code_eq_zero, fun args => out_of_code_ne_zero, hanswers,
    fun _ _ => Header.describe_inj, fun _ _ _ _ => describeExtent_inj, ?_⟩
  intro σ _ holds sink sink' first header payloads hsink h hversion hsave file
  obtain ⟨hfits, -, hfull⟩ := (save_ends hsink.tracked h first payloads).of_ok hsave
  exact ⟨hfull, fun path hfile => (hanswers path file hfile).reports hversion hfits⟩

/-- A file with an empty payload between two others, and a level with a sign in front. -/
theorem inspect_follows_load_three_levels :
    let payloads : List Bytes := [[1, 2, 3], [], [9]]
    let files : String → File := fun _ => .holding (encodeTexture 0 {} payloads)
    (inspect files ["-i", "a"]).code = 0 ∧
      (inspect files ["--mip", "+2", "a"]).code = 0 ∧
      (inspect files ["--mip", "+2", "a"]).out = "Mip #2: 1 bytes at offset 145\n" ∧
      (inspect files ["--mip", "1", "a"]).code ≠ 0 ∧
      (inspect files ["--mip", "1", "a"]).out = "" := by
  intro payloads files
  obtain ⟨-, hfail, hanswers, -, -, hsaved⟩ := inspect_follows_load files
  have hsave := (show Fits ([] : Bytes).length payloads by decide +kernel).save_buffer {}
  obtain ⟨-, hreports⟩ :=
    hsaved Buffer.tracked.honest (show Buffer.Holds ⟨[]⟩ [] from rfl) rfl hsave
  have hcode := (hreports "a" rfl).code_eq_zero "--mip"
  have hanswers := hanswers "a" _ rfl
  have hfound : ofFile (encodeTexture 0 {} payloads) = .ok (({} : Header).describing 0 payloads) :=
    ofFile_encodeTexture rfl
  have hone : Text.size? "1" = some 1 := by decide +kernel
  have htwo : Text.size? "+2" = some 2 := by decide +kernel
  have hempty : (inspect files ["--mip", "1", "a"]).code ≠ 0 := by
    rw [Ne, hcode "1" (.inr rfl)]
    rintro ⟨level, payload, hnumber, hpayload, hne⟩
    obtain rfl := Option.some.inj (hone.symm.trans hnumber)
    exact hne (Option.some.inj hpayload).symm
  refine ⟨(hanswers.code_info "-i" (.inl rfl)).mpr ⟨_, hfound⟩, ?_, ?_, hempty, hfail _ hempty⟩
  · exact (hcode "+2" (.inr rfl)).mpr ⟨2, [9], htwo, rfl, by decide⟩
  · exact (hanswers.out_level "--mip" "+2" 2 _ (by decide) (.inr rfl) htwo hfound
      (by decide +kernel)).trans (by decide +kernel)

end CommandLine

end Octet
