import Octet.Proofs.Reader.Truncation
import Octet.Proofs.Texture.Load
import Octet.Proofs.Texture.Save

/-!
# What is said of any bytes

Whatever bytes lie ahead, loading a header either finds the header that they spell, each field at
its own place, or says what is wrong with them first. The version is the one thing that a save
writes as it was given and that is looked at again when the file is loaded.

## Main definitions

* `Header.ofBytes`: the header that bytes spell.
* `judge`: what there is to be said of bytes, and where the reader stops to say it.

## Main statements

* `load_judges`: loading says just that.
* `load_of_save`: a file that was saved loads as it was saved, or is refused for its version.
-/

namespace Octet.Texture

/-! ## What bytes spell -/

namespace Compression

variable {code : UInt8}

/-- The compression that a byte stands for. -/
def ofByte (code : UInt8) : Compression := (ofCode? code).getD .uncompressed

theorem ofCode?_of_lt (h : 3 < code) : ofCode? code = none := by
  rw [ofCode?, List.find?_eq_none]
  rintro c - hc
  obtain rfl : c.code = code := by simpa using hc
  cases c <;> exact absurd h (by decide)

theorem ofCode?_of_not_lt (h : ¬ 3 < code) :
    ofCode? code = some (ofByte code) ∧ (ofByte code).code = code := by
  have hcases : code = 0 ∨ code = 1 ∨ code = 2 ∨ code = 3 := by
    simp only [← UInt8.toNat_inj]
    rw [UInt8.lt_iff_toNat_lt] at h
    simp at h ⊢
    omega
  rcases hcases with rfl | rfl | rfl | rfl <;> decide

end Compression

/-- The header that the bytes behind a preamble spell. A flag is set by any byte but zero. -/
def Header.ofFields (version : UInt32) (bytes : Bytes) : Header where
  version
  compression := .ofByte (Scalar.u8.decodeAt 0 bytes)
  hasMips := Scalar.u8.decodeAt 1 bytes != 0
  width := Scalar.u16.decodeAt 2 bytes
  height := Scalar.u16.decodeAt 4 bytes
  levels := Vector.ofFn fun level =>
    ⟨Scalar.u32.decodeAt (6 + level * 4) bytes, Scalar.u32.decodeAt (70 + level * 4) bytes⟩

/-- The header that the first bytes of a file spell. A flag is set by any byte but zero. -/
def Header.ofBytes (bytes : Bytes) : Header where
  version := Scalar.u32.decodeAt 4 bytes
  compression := .ofByte (Scalar.u8.decodeAt 8 bytes)
  hasMips := Scalar.u8.decodeAt 9 bytes != 0
  width := Scalar.u16.decodeAt 10 bytes
  height := Scalar.u16.decodeAt 12 bytes
  levels := Vector.ofFn fun level =>
    ⟨Scalar.u32.decodeAt (14 + level * 4) bytes, Scalar.u32.decodeAt (78 + level * 4) bytes⟩

/-- The same, as the fields are read one after another. -/
theorem Header.ofFields_eq {version : UInt32} {bytes : Bytes}
    {offsets lengths : Vector UInt32 levelLimit}
    (hoffsets : offsets.toList = Scalar.u32.decodeList levelLimit ((bytes.drop 6).take 64))
    (hlengths : lengths.toList = Scalar.u32.decodeList levelLimit ((bytes.drop 70).take 64)) :
    Header.ofFields version bytes = {
      version
      compression := .ofByte (Scalar.u8.decodeAt 0 bytes)
      hasMips := Scalar.bool.decodeAt 1 bytes
      width := Scalar.u16.decodeAt 2 bytes
      height := Scalar.u16.decodeAt 4 bytes
      levels := Vector.zipWith Extent.mk offsets lengths } := by
  have hlevels : (Header.ofFields version bytes).levels =
      Vector.zipWith Extent.mk offsets lengths := by
    apply Vector.ext
    intro level hlevel
    have hoffset : offsets[level] = Scalar.u32.decodeAt (6 + level * 4) bytes :=
      Scalar.getElem_eq_decodeAt (t := .u32) hoffsets hlevel
    have hlength : lengths[level] = Scalar.u32.decodeAt (70 + level * 4) bytes :=
      Scalar.getElem_eq_decodeAt (t := .u32) hlengths hlevel
    rw [Vector.getElem_zipWith, hoffset, hlength]
    simp only [ofFields, Vector.getElem_ofFn]
  simp only [← hlevels, Scalar.decodeAt_bool, ofFields]

theorem Header.ofBytes_eq_ofFields (bytes : Bytes) :
    Header.ofBytes bytes = Header.ofFields (Scalar.u32.decodeAt 4 bytes) (bytes.drop 8) := by
  simp only [ofBytes, ofFields, Scalar.decodeAt_drop, ← Nat.add_assoc]

theorem Header.ofBytes_drop {data : Bytes} {p : Nat} {offsets lengths : Vector UInt32 levelLimit}
    (hoffsets : offsets.toList = Scalar.u32.decodeList levelLimit ((data.drop (p + 14)).take 64))
    (hlengths : lengths.toList = Scalar.u32.decodeList levelLimit ((data.drop (p + 78)).take 64)) :
    Header.ofBytes (data.drop p) = {
      version := Scalar.u32.decodeAt (p + 4) data
      compression := .ofByte (Scalar.u8.decodeAt (p + 8) data)
      hasMips := Scalar.bool.decodeAt (p + 9) data
      width := Scalar.u16.decodeAt (p + 10) data
      height := Scalar.u16.decodeAt (p + 12) data
      levels := Vector.zipWith Extent.mk offsets lengths } := by
  have hfields (start : Nat) : (data.drop (p + 8)).drop start = data.drop (p + (8 + start)) := by
    rw [List.drop_drop, Nat.add_assoc]
  rw [← hfields 6] at hoffsets
  rw [← hfields 70] at hlengths
  rw [ofBytes_eq_ofFields, List.drop_drop, ofFields_eq hoffsets hlengths]
  simp [Nat.add_assoc]

/-- Only the bytes of a header are looked at. -/
theorem Header.ofBytes_take (bytes : Bytes) :
    Header.ofBytes (bytes.take headerSize) = Header.ofBytes bytes := by
  have hslot (level : Fin levelLimit) {start : Nat} (hstart : start ≤ 78) :
      Scalar.u32.decodeAt (start + level * 4) (bytes.take headerSize) =
        Scalar.u32.decodeAt (start + level * 4) bytes := by
    have hlevel : level.val < 16 := level.isLt
    apply Scalar.decodeAt_take
    simp only [Scalar.width, headerSize]
    omega
  simp (disch := decide) only [ofBytes, hslot, Scalar.decodeAt_take]

/-- What loading a header says, and where the reader stops. -/
structure Verdict where
  outcome : Except Error Header
  stop : Nat

/-- What there is to be said of the bytes from a position on. Of several defects it is the first. -/
def judge (data : Bytes) (p : Nat) : Verdict :=
  let rest := data.drop p
  let exhausted : Verdict := ⟨.error (.readChain data.length), data.length⟩
  let word := Scalar.u32.decodeAt 0 rest
  let version := Scalar.u32.decodeAt 4 rest
  let code := Scalar.u8.decodeAt 8 rest
  if rest.length < 4 then exhausted
  else if word ≠ signature then ⟨.error (.signature signature word), p + 4⟩
  else if rest.length < 8 then exhausted
  else if version ≠ Version.v1_0.raw then ⟨.error (.version version), p + 8⟩
  else if rest.length < headerSize then exhausted
  else if 3 < code then ⟨.error (.header (.unknownCompression code)), p + headerSize⟩
  else ⟨.ok (.ofBytes rest), p + headerSize⟩

variable {σ : Type} {data : Bytes} {stands : σ → Nat → Prop} {next : Reader σ} {p q : Nat}

/-- The same, in terms of places in all of the data. -/
theorem judge_eq (hp : p ≤ data.length) : judge data p =
    if data.length < p + 4 then ⟨.error (.readChain data.length), data.length⟩
    else if Scalar.u32.decodeAt p data ≠ signature then
      ⟨.error (.signature signature (Scalar.u32.decodeAt p data)), p + 4⟩
    else if data.length < p + 8 then ⟨.error (.readChain data.length), data.length⟩
    else if Scalar.u32.decodeAt (p + 4) data ≠ Version.v1_0.raw then
      ⟨.error (.version (Scalar.u32.decodeAt (p + 4) data)), p + 8⟩
    else if data.length < p + headerSize then ⟨.error (.readChain data.length), data.length⟩
    else if 3 < Scalar.u8.decodeAt (p + 8) data then
      ⟨.error (.header (.unknownCompression (Scalar.u8.decodeAt (p + 8) data))), p + headerSize⟩
    else ⟨.ok (.ofBytes (data.drop p)), p + headerSize⟩ := by
  have hrest (count : Nat) : (data.drop p).length < count ↔ data.length < p + count := by grind
  simp only [judge, hrest, Scalar.decodeAt_drop, Nat.add_zero]

/-- Behind a signature that is the right one. -/
theorem judge_of_signature (hle : p + 8 ≤ data.length)
    (hsignature : Scalar.u32.decodeAt p data = signature) : judge data p =
    if Scalar.u32.decodeAt (p + 4) data ≠ Version.v1_0.raw then
      ⟨.error (.version (Scalar.u32.decodeAt (p + 4) data)), p + 8⟩
    else if data.length < p + headerSize then ⟨.error (.readChain data.length), data.length⟩
    else if 3 < Scalar.u8.decodeAt (p + 8) data then
      ⟨.error (.header (.unknownCompression (Scalar.u8.decodeAt (p + 8) data))), p + headerSize⟩
    else ⟨.ok (.ofBytes (data.drop p)), p + headerSize⟩ := by
  rw [judge_eq (Nat.le_trans (Nat.le_add_right p 8) hle), if_neg (by omega),
    if_neg (not_not_intro hsignature), if_neg (by omega)]

/-- Where there are bytes enough for a header, all depends on what they spell. -/
theorem judge_of_le (h : headerSize ≤ (data.drop p).length) : judge data p =
    let rest := data.drop p
    let word := Scalar.u32.decodeAt 0 rest
    let version := Scalar.u32.decodeAt 4 rest
    let code := Scalar.u8.decodeAt 8 rest
    if word ≠ signature then ⟨.error (.signature signature word), p + 4⟩
    else if version ≠ Version.v1_0.raw then ⟨.error (.version version), p + 8⟩
    else if 3 < code then ⟨.error (.header (.unknownCompression code)), p + headerSize⟩
    else ⟨.ok (.ofBytes rest), p + headerSize⟩ := by
  have hmany {count : Nat} (hcount : count ≤ headerSize) : ¬ (data.drop p).length < count := by
    omega
  have h4 := hmany (show 4 ≤ headerSize by decide)
  have h8 := hmany (show 8 ≤ headerSize by decide)
  simp only [judge, h4, h8, hmany (Nat.le_refl _), if_false]

/-- A header is only found if every check of its bytes has passed. -/
theorem checks_of_judge {header : Header} (h : (judge data p).outcome = .ok header) :
    headerSize ≤ (data.drop p).length ∧
      Scalar.u32.decodeAt 0 (data.drop p) = signature ∧
      Scalar.u32.decodeAt 4 (data.drop p) = Version.v1_0.raw ∧
      ¬ 3 < Scalar.u8.decodeAt 8 (data.drop p) ∧ header = .ofBytes (data.drop p) := by
  simp only [judge, ne_eq, ite_not] at h
  grind

/-- No byte behind the header matters. -/
theorem judge_take : judge (data.take (p + headerSize)) p = judge data p := by
  rcases Nat.lt_or_ge data.length (p + headerSize) with hlt | hge
  · rw [List.take_of_length_le (Nat.le_of_lt hlt)]
  · have hrest : (data.take (p + headerSize)).drop p = (data.drop p).take headerSize := by grind
    have hle : headerSize ≤ (data.drop p).length := by grind
    have hlen : ((data.drop p).take headerSize).length = headerSize := List.length_take_of_le hle
    rw [judge_of_le hle, judge_of_le (Nat.le_of_eq (by rw [hrest, hlen]))]
    simp (disch := decide) only [hrest, Header.ofBytes_take, Scalar.decodeAt_take]

/-! ## What loading says -/

/-- With this outcome the reader stops where it is due to. It has failed just if it ran out of
bytes. -/
def Concludes (data : Bytes) (stands : σ → Nat → Prop) (p : Nat) (outcome : Except Error Header)
    (next : Reader σ) : Prop :=
  outcome = (judge data p).outcome ∧ stands next.source (judge data p).stop ∧
    (next.failed = true ↔ ∃ position, outcome = .error (.readChain position))

theorem concludes_of_exhausted
    (hjudge : judge data p = ⟨.error (.readChain data.length), data.length⟩)
    (h : next.Asked data stands q) (hlt : data.length < q) :
    Concludes data stands p (.error (.readChain data.length)) next := by
  obtain ⟨hfailed, hstands⟩ := h.exhausted hlt
  rw [Concludes, hjudge]
  exact ⟨rfl, hstands, fun _ => ⟨_, rfl⟩, fun _ => hfailed⟩

theorem concludes_of_stands {outcome : Except Error Header} (hjudge : judge data p = ⟨outcome, q⟩)
    (h : next.Stands stands q) (hne : ∀ position, outcome ≠ .error (.readChain position)) :
    Concludes data stands p outcome next := by
  rw [Concludes, hjudge]
  refine ⟨rfl, h.2, fun hfailed => ?_, fun ⟨position, hposition⟩ => absurd hposition (hne position)⟩
  rw [h.1] at hfailed
  cases hfailed

variable [Source σ] {r : Reader σ}

theorem Preamble.read_judged (hsource : Source.Walks data stands) (h : r.Stands stands p)
    (current : Preamble) :
    (Preamble.read current).Ends r
      (fun found next => next.Stands stands (p + 8) ∧
        Scalar.u32.decodeAt p data = Texture.signature ∧
        found = ⟨Texture.signature, Scalar.u32.decodeAt (p + 4) data⟩)
      (fun e next => Concludes data stands p (.error e) next) := by
  have hjudge := judge_eq (hsource.le h.2)
  have hasked : (r.read .u32 0).2.Asked data stands (p + 4) := (h.asked hsource).read hsource .u32 0
  rw [Preamble.read, Action.ends_bind, Action.ends_modifyGet, Action.ends_bind,
    hasked.finish_ends hsource]
  split
  next hword =>
    obtain ⟨hfound, -⟩ := h.read hsource .u32 0 hword
    have hnext := hasked.unbroken hword
    rw [if_neg (Nat.not_lt.mpr hword)] at hjudge
    rw [hfound]
    split
    next hsignature =>
      rw [if_neg (not_not_intro hsignature)] at hjudge
      have hasked : ((r.read .u32 0).2.read .u32 current.version).2.Asked data stands (p + 8) :=
        hasked.read hsource .u32 current.version
      simp only [Action.ends_bind, Action.ends_modifyGet, hasked.finish_ends hsource]
      split
      next hversion =>
        obtain ⟨hfound, -⟩ := hnext.read hsource .u32 current.version hversion
        rw [hfound]
        exact ⟨hasked.unbroken hversion, hsignature, congrArg (Preamble.mk · _) hsignature⟩
      next hshort =>
        rw [if_pos (Nat.not_le.mp hshort)] at hjudge
        exact concludes_of_exhausted hjudge hasked (Nat.not_le.mp hshort)
    next hsignature =>
      rw [if_pos hsignature] at hjudge
      exact concludes_of_stands hjudge hnext (by simp)
  next hshort =>
    rw [if_pos (Nat.not_le.mp hshort)] at hjudge
    exact concludes_of_exhausted hjudge hasked (Nat.not_le.mp hshort)

theorem Header.read_judged (hsource : Source.Walks data stands) (h : r.Stands stands (p + 8))
    (hsignature : Scalar.u32.decodeAt p data = signature)
    (hversion : Scalar.u32.decodeAt (p + 4) data = Version.v1_0.raw) {current : Header}
    (hcurrent : current.version = Version.v1_0.raw) :
    (Header.read current).Ends r (fun found next => Concludes data stands p (.ok found) next)
      (fun e next => Concludes data stands p (.error e) next) := by
  have hjudge := judge_of_signature (hsource.le h.2) hsignature
  rw [if_neg (not_not_intro hversion)] at hjudge
  -- All six reads are one chain, of which only the end is looked at.
  have hasked : Reader.Asked data stands (p + headerSize) _ :=
    (h.asked hsource).read hsource .u8 0 |>.read hsource .bool false
      |>.read hsource .u16 0 |>.read hsource .u16 0
      |>.readArray hsource .u32 (Vector.replicate levelLimit 0)
      |>.readArray hsource .u32 (Vector.replicate levelLimit 0)
  simp only [Header.read, Action.ends_bind, Action.ends_modifyGet, hasked.finish_ends hsource]
  split
  next hall =>
    have hnext := hasked.unbroken hall
    have hroom : p + 8 + Scalar.u8.width + Scalar.bool.width + Scalar.u16.width +
        Scalar.u16.width + levelLimit * Scalar.u32.width + levelLimit * Scalar.u32.width ≤
        data.length := hall
    obtain ⟨hcode, h⟩ := h.read hsource .u8 0 (by omega)
    obtain ⟨hflag, h⟩ := h.read hsource .bool false (by omega)
    obtain ⟨hwidth, h⟩ := h.read hsource .u16 0 (by omega)
    obtain ⟨hheight, h⟩ := h.read hsource .u16 0 (by omega)
    obtain ⟨hoffsets, h⟩ :=
      h.readArray hsource .u32 (Vector.replicate levelLimit 0) (by omega)
    obtain ⟨hlengths, -⟩ :=
      h.readArray hsource .u32 (Vector.replicate levelLimit 0) (by omega)
    rw [if_neg (Nat.not_lt.mpr hall), Header.ofBytes_drop hoffsets hlengths] at hjudge
    rw [hcode, hflag, hwidth, hheight, hcurrent]
    by_cases hlt : 3 < Scalar.u8.decodeAt (p + 8) data
    · rw [if_pos hlt] at hjudge
      rw [Compression.ofCode?_of_lt hlt]
      exact concludes_of_stands hjudge hnext (by simp)
    · rw [if_neg hlt, hversion] at hjudge
      rw [(Compression.ofCode?_of_not_lt hlt).1]
      exact concludes_of_stands hjudge hnext (by simp)
  next hshort =>
    rw [if_pos (Nat.not_le.mp hshort)] at hjudge
    exact concludes_of_exhausted hjudge hasked (Nat.not_le.mp hshort)

theorem load_concludes (hsource : Source.Walks data stands) (h : r.Stands stands p) :
    load.attempt.Ends r (fun outcome next => Concludes data stands p outcome next)
      (fun _ _ => False) := by
  rw [Action.ends_attempt, load]
  refine (Preamble.read_judged hsource h {}).bind ?_ fun _ _ h => h
  rintro _ next ⟨hnext, hsignature, rfl⟩
  rw [Action.ends_bind, Action.ends_conclude, Preamble.layout]
  have hjudge := judge_of_signature (hsource.le hnext.2) hsignature
  by_cases hversion : Scalar.u32.decodeAt (p + 4) data = Version.v1_0.raw
  · simp only [Version.ofRaw?, hversion, if_true]
    exact Header.read_judged hsource hnext hsignature hversion rfl
  · simp only [Version.ofRaw?, hversion, if_false]
    rw [if_pos hversion] at hjudge
    exact concludes_of_stands hjudge hnext (by simp)

/-- From wherever a cursor stands, a fresh reader loads the header that the bytes there spell, or
says of their defects the first. It stops where that is known and has failed just if it ran out of
bytes; then it is at their end. A header that is found has the compression that its byte stands for.
No byte behind the header has any effect. -/
theorem load_judges (cursor : Cursor) :
    let verdict := judge cursor.data cursor.position
    (∃ next, load.attempt (⟨cursor, false⟩ : Reader Cursor) = .ok verdict.outcome next ∧
      next.source.data = cursor.data ∧ next.position = verdict.stop ∧
      (next.failed = true ↔ ∃ position, verdict.outcome = .error (.readChain position))) ∧
    (∀ header, verdict.outcome = .ok header →
      header.compression.code = Scalar.u8.decodeAt 8 cursor.remaining) ∧
    judge (cursor.data.take (cursor.position + headerSize)) cursor.position = verdict := by
  intro verdict
  refine ⟨?_, ?_, judge_take⟩
  · have hstart : (⟨cursor, false⟩ : Reader Cursor).Stands (Cursor.Stands cursor.data)
        cursor.position := ⟨rfl, rfl, rfl⟩
    obtain ⟨outcome, next, hload, rfl, ⟨hdata, hstop⟩, hfailed⟩ :=
      (load_concludes (Cursor.walks cursor.data) hstart).exists_ok (fun _ _ h => h)
    exact ⟨next, hload, hdata, hstop, hfailed⟩
  · intro header hheader
    obtain ⟨-, -, -, hcode, rfl⟩ := checks_of_judge hheader
    exact (Compression.ofCode?_of_not_lt hcode).2

/-! ## Files that were saved -/

variable {rest : Bytes} {header header' : Header} {payloads : List Bytes} {buffer : Buffer}

/-- An encoded header of an unknown version is refused for that, and only its preamble is read. -/
theorem load_ends_of_version_ne (hsource : Source.Walks data stands)
    (h : r.Ahead data stands p (header.encode ++ rest))
    (hversion : header.version ≠ Version.v1_0.raw) :
    load.Ends r (fun _ _ => False)
      (fun e next => e = .version header.version ∧ next.Stands stands (p + 8)) := by
  simp only [Header.encode_eq, List.append_assoc] at h
  rw [load]
  apply (Preamble.read_ends hsource h {}).bind
  · rintro _ next ⟨rfl, hnext⟩
    rw [Action.ends_bind, Action.ends_conclude, Preamble.layout]
    simp only [Version.ofRaw?, hversion, if_false]
    exact ⟨trivial, hnext.1⟩
  · exact fun _ _ h => h.elim

/-- What fits behind the contents of a buffer is saved there. -/
theorem Fits.save_buffer {front : Bytes} (hfits : Fits front.length payloads) (header : Header) :
    save payloads (header, (⟨front⟩ : Buffer)) =
      .ok () (header.describing front.length payloads,
        ⟨front ++ encodeTexture front.length header payloads⟩) := by
  obtain ⟨⟨_⟩, hsave, rfl⟩ := exists_save_eq_encodeTexture Buffer.tracked
    (show Buffer.Holds ⟨front⟩ front from rfl) header hfits (fun _ _ h => h.elim) (by
      rintro _ _ _ h ⟨⟩
      exact h)
  exact hsave

/-- What was saved to an empty buffer lies ahead of whoever starts to read there. -/
theorem ahead_of_save
    (hsave : save payloads (header, (⟨[]⟩ : Buffer)) = .ok () (header', buffer)) :
    header'.version = header.version ∧ (⟨{ data := buffer.content }, false⟩ : Reader Cursor).Ahead
      buffer.content (Cursor.Stands buffer.content) 0 (header'.encode ++ payloads.flatten) := by
  obtain ⟨-, rfl, full, hfull, hflush⟩ :=
    (save_ends Buffer.tracked (show Buffer.Holds ⟨[]⟩ [] from rfl) header payloads).of_ok hsave
  cases hflush
  refine ⟨Header.describing_version .., ⟨rfl, rfl, rfl⟩, ?_⟩
  rw [List.drop_zero]
  exact hfull

/-- A texture that was saved to an empty buffer can be loaded from there if its version is the known
one, and is as saving left it. If it is any other, that is what the file is refused for; there is no
other reason. Either way the reader can be used further. -/
theorem load_of_save
    (hsave : save payloads (header, (⟨[]⟩ : Buffer)) = .ok () (header', buffer)) :
    let start : Reader Cursor := ⟨{ data := buffer.content }, false⟩
    (header.version = Version.v1_0.raw → ∃ next, load start = .ok header' next ∧ next.isOk) ∧
      (header.version ≠ Version.v1_0.raw →
        ∃ next, load start = .error (.version header.version) next ∧ next.isOk) := by
  intro start
  obtain ⟨hversion, hahead⟩ := ahead_of_save hsave
  have hwalks := Cursor.walks buffer.content
  rw [← hversion]
  constructor
  · intro hknown
    obtain ⟨_, next, hload, rfl, hnext⟩ :=
      (load_ends hwalks header' hahead).exists_ok fun _ _ hno => hno hknown
    exact ⟨next, hload, by simp [Reader.isOk, hnext.1.1]⟩
  · intro hunknown
    have hends := load_ends_of_version_ne hwalks hahead hunknown
    cases hload : load start with
    | ok _ _ => exact (hends.of_ok hload).elim
    | error e next =>
      obtain ⟨rfl, hnext⟩ := hends.of_error hload
      exact ⟨next, rfl, by simp [Reader.isOk, hnext.1]⟩

/-- An empty payload between two others, and slots that were not empty before. -/
theorem load_of_save_three_levels :
    let header : Header :=
      { compression := .dxt5, hasMips := true, levels := Vector.replicate levelLimit ⟨5, 6⟩ }
    ∃ header' buffer next,
      save [[1, 2, 3], [], [9]] (header, (⟨[]⟩ : Buffer)) = .ok () (header', buffer) ∧
        load (⟨{ data := buffer.content }, false⟩ : Reader Cursor) = .ok header' next := by
  intro header
  obtain ⟨⟨header', buffer⟩, hsave⟩ := exists_save_eq_ok Buffer.tracked
    (show Buffer.Holds ⟨[]⟩ [] from rfl) header
    (show Fits 0 [[1, 2, 3], [], [9]] by decide) (fun _ _ h => h.elim)
  obtain ⟨next, hload, -⟩ := (load_of_save hsave).1 rfl
  exact ⟨header', buffer, next, hsave, hload⟩

/-- A header of an unknown version is saved as it is, and nothing is loaded from the file. -/
theorem not_load_of_save_unknown_version :
    ∃ header' buffer,
      save [] (({ version := 0x0300 } : Header), (⟨[]⟩ : Buffer)) = .ok () (header', buffer) ∧
        ¬ ∃ found next,
          load (⟨{ data := buffer.content }, false⟩ : Reader Cursor) = .ok found next := by
  obtain ⟨⟨header', buffer⟩, hsave⟩ := exists_save_eq_ok Buffer.tracked
    (show Buffer.Holds ⟨[]⟩ [] from rfl) { version := 0x0300 } (fits_nil 0) (fun _ _ h => h.elim)
  obtain ⟨hversion, hahead⟩ := ahead_of_save hsave
  have hunknown : header'.version ≠ Version.v1_0.raw := by
    rw [hversion]
    decide
  refine ⟨header', buffer, hsave, ?_⟩
  rintro ⟨found, next, hload⟩
  exact (load_ends_of_version_ne (Cursor.walks buffer.content) hahead hunknown).of_ok hload

end Octet.Texture
