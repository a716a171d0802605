import Octet.Proofs.Source.Contract
import Octet.Proofs.Texture.Layout
import Octet.Texture.Load

/-!
# What loading a texture finds

## Main definitions

* `Header.payloadIn`: the payload of a level where the slots of a header place it.
* `readLevels`: any levels one after another.

## Main statements

* `load_ends`: where a header lies ahead it is loaded, unless its version is unknown.
* `load_ends_inside`, `load_ends_of_stands`: nothing shorter than a header is loaded, whatever the
  bytes are.
* `readLevels_ends`: every level is found where its slot places it, whatever was read before.
-/

namespace Octet.Texture

variable {σ : Type} [Source σ] {data rest : Bytes} {stands : σ → Nat → Prop} {r : Reader σ}
  {p : Nat}

/-! ## The header -/

theorem Header.encode_eq (header : Header) : header.encode =
    Scalar.u32.encode signature ++ (Scalar.u32.encode header.version ++
      (Scalar.u8.encode header.compression.code ++ (Scalar.bool.encode header.hasMips ++
        (Scalar.u16.encode header.width ++ (Scalar.u16.encode header.height ++
          (Scalar.u32.encodeList header.offsets.toList ++
            Scalar.u32.encodeList header.lengths.toList)))))) := by
  simp only [encode, encodeFields_eq, encodeSlots_eq, List.append_assoc]

@[simp] theorem Header.zipWith_offsets_lengths (header : Header) :
    Vector.zipWith Extent.mk header.offsets header.lengths = header.levels := by
  ext i hi
  simp [offsets, lengths]

theorem Preamble.read_ends (hsource : Source.Walks data stands) {version : UInt32}
    (h : r.Ahead data stands p
      (Scalar.u32.encode Texture.signature ++ (Scalar.u32.encode version ++ rest)))
    (current : Preamble) :
    (Preamble.read current).Ends r
      (fun found next => found = ⟨Texture.signature, version⟩ ∧ next.Ahead data stands (p + 8) rest)
      (fun _ _ => False) := by
  obtain ⟨hsignature, h⟩ := h.read hsource 0
  obtain ⟨hversion, hnext⟩ := h.read hsource current.version
  simp only [Preamble.read, Action.ends_bind, Action.ends_modifyGet, Reader.finish_ends, h.1.1,
    hsignature, if_true, Action.ends_pure, hversion, hnext.1.1]
  exact ⟨trivial, hnext⟩

theorem Header.read_ends (hsource : Source.Walks data stands) (header : Header)
    (h : r.Ahead data stands p
      (Scalar.u8.encode header.compression.code ++ (Scalar.bool.encode header.hasMips ++
        (Scalar.u16.encode header.width ++ (Scalar.u16.encode header.height ++
          (Scalar.u32.encodeList header.offsets.toList ++
            (Scalar.u32.encodeList header.lengths.toList ++ rest)))))))
    {current : Header} (hcurrent : current.version = header.version) :
    (Header.read current).Ends r
      (fun found next => found = header ∧ next.Ahead data stands (p + 134) rest)
      (fun _ _ => False) := by
  obtain ⟨hcode, h⟩ := h.read hsource 0
  obtain ⟨hflag, h⟩ := h.read hsource false
  obtain ⟨hwidth, h⟩ := h.read hsource 0
  obtain ⟨hheight, h⟩ := h.read hsource 0
  obtain ⟨hoffsets, h⟩ := h.readArray hsource (Vector.replicate levelLimit 0)
  obtain ⟨hlengths, hnext⟩ := h.readArray hsource (Vector.replicate levelLimit 0)
  simp only [Header.read, Action.ends_bind, Action.ends_modifyGet, Reader.finish_ends, hnext.1.1,
    hcode, hflag, hwidth, hheight, hoffsets, hlengths, Compression.ofCode?_code,
    Action.ends_pure, hcurrent, Header.zipWith_offsets_lengths]
  exact ⟨trivial, hnext⟩

/-- The header is loaded as it was encoded, whatever its slots say. -/
theorem load_ends (hsource : Source.Walks data stands) (header : Header)
    (h : r.Ahead data stands p (header.encode ++ rest)) :
    load.Ends r
      (fun found next => found = header ∧ next.Ahead data stands (p + headerSize) rest)
      (fun _ _ => header.version ≠ Version.v1_0.raw) := by
  simp only [Header.encode_eq, List.append_assoc] at h
  rw [load]
  apply (Preamble.read_ends hsource h {}).bind
  · rintro _ next ⟨rfl, h⟩
    rw [Action.ends_bind, Action.ends_conclude, Preamble.layout]
    by_cases hversion : header.version = Version.v1_0.raw
    · simp only [Version.ofRaw?, hversion, if_true]
      apply (Header.read_ends hsource header h hversion.symm).mono
      · exact fun _ _ h => h
      · exact fun _ _ h => h.elim
    · simp only [Version.ofRaw?, hversion, if_false]
      exact hversion
  · exact fun _ _ h => h.elim

/-- A header in front of the data is loaded from there. -/
theorem exists_load_of_eq {header : Header} (hdata : data = header.encode ++ rest)
    (hversion : header.version = Version.v1_0.raw) :
    ∃ next, load (⟨{ data }, false⟩ : Reader Cursor) = .ok header next := by
  have hahead : (⟨{ data }, false⟩ : Reader Cursor).Ahead data (Cursor.Stands data) 0
      (header.encode ++ rest) := ⟨⟨rfl, rfl, rfl⟩, hdata⟩
  obtain ⟨_, next, hload, rfl, -⟩ :=
    (load_ends (Cursor.walks data) header hahead).exists_ok fun _ _ hne => hne hversion
  exact ⟨next, hload⟩

theorem Preamble.read_ends_of_stands (hsource : Source.Walks data stands) (h : r.Stands stands p)
    (current : Preamble) :
    (Preamble.read current).Ends r (fun _ next => next.Stands stands (p + 8))
      (fun _ next => next.Inside stands) := by
  simp only [Preamble.read, Action.ends_bind, Action.ends_modifyGet, Reader.finish_ends]
  have hsignature : (r.read .u32 0).2.Reached stands (p + 4) :=
    Reader.Reached.fill hsource (fun _ => h.2) 4
  have hinside : (r.read .u32 0).2.Inside stands := h.inside.fill hsource 4
  generalize r.read .u32 0 = found at hsignature hinside
  obtain ⟨found, next⟩ := found
  split
  · exact hinside
  · split
    · have hversion : (next.read .u32 current.version).2.Reached stands (p + 8) :=
        hsignature.fill hsource 4
      simp only [Action.ends_bind, Action.ends_modifyGet, Reader.finish_ends]
      split
      · exact hinside.fill hsource 4
      next hok => exact ⟨eq_false_of_ne_true hok, hversion (eq_false_of_ne_true hok)⟩
    · exact hinside

theorem Header.read_ends_of_stands (hsource : Source.Walks data stands) (h : r.Stands stands p)
    (current : Header) :
    (Header.read current).Ends r (fun _ next => next.Stands stands (p + 134))
      (fun _ next => next.Inside stands) := by
  have hcode := Reader.Reached.fill hsource (fun _ => h.2) 1
  have hflag := hcode.fill hsource 1
  have hwidth := hflag.fill hsource 2
  have hheight := hwidth.fill hsource 2
  have hoffsets := hheight.fill hsource 64
  have hlengths := hoffsets.fill hsource 64
  have hinside := h.inside.fill hsource 1 |>.fill hsource 1 |>.fill hsource 2
    |>.fill hsource 2 |>.fill hsource 64 |>.fill hsource 64
  simp only [Header.read, Action.ends_bind, Action.ends_modifyGet, Reader.finish_ends]
  split
  · exact hinside
  next hok =>
    split
    · exact hinside
    · exact ⟨eq_false_of_ne_true hok, hlengths (eq_false_of_ne_true hok)⟩

/-- A header is loaded by reading all of its bytes. -/
theorem load_ends_inside (hsource : Source.Walks data stands) (h : r.Stands stands p) :
    load.Ends r (fun _ next => next.Stands stands (p + headerSize))
      (fun _ next => next.Inside stands) := by
  rw [load]
  refine (Preamble.read_ends_of_stands hsource h {}).bind ?_ fun _ _ h => h
  intro preamble next hnext
  rw [Action.ends_bind, Action.ends_conclude]
  split
  · exact Header.read_ends_of_stands hsource hnext _
  · exact hnext.inside

/-- A header is only loaded if all of its bytes are there. -/
theorem load_ends_of_stands (hsource : Source.Walks data stands) (h : r.Stands stands p) :
    load.Ends r (fun _ _ => p + headerSize ≤ data.length) (fun _ _ => True) :=
  (load_ends_inside hsource h).mono (fun _ _ hnext => hsource.le hnext.2) fun _ _ _ => trivial

/-! ## The levels -/

/-- The payload of a level as the slots of a header place it in a file, or why there is none. -/
def Header.payloadIn (header : Header) (file : Bytes) (level : Nat) : Except Error Bytes :=
  match header.level? level with
  | none => .error (.header (.emptyLevel level))
  | some extent =>
    if extent.stop ≤ file.length then
      .ok ((file.drop extent.offset.toNat).take extent.length.toNat)
    else
      .error (.header
        (.levelPastEnd level extent.offset.toNat extent.stop file.length))

/-- What the first part of a file has of a level, the whole file has. -/
theorem Header.payloadIn_of_part {header : Header} {part whole payload : Bytes} {level : Nat}
    (h : part <+: whole) (hpart : header.payloadIn part level = .ok payload) :
    header.payloadIn whole level = .ok payload := by
  obtain ⟨rest, rfl⟩ := h
  rw [payloadIn] at hpart ⊢
  split at hpart
  next => cases hpart
  next extent _ =>
    split at hpart
    next hstop =>
      obtain rfl := Except.ok.inj hpart
      have hle : extent.stop ≤ (part ++ rest).length := by grind
      unfold Extent.stop at hstop
      rw [if_pos hle, List.drop_append_of_le_length (by omega),
        List.take_append_of_le_length (by grind)]
    next => cases hpart

/-- Reads levels one after another, whatever becomes of each. -/
def readLevels (header : Header) : List Nat → Action (Reader σ) (List (Except Error Bytes))
  | [] => pure []
  | level :: rest => do
    let outcome ← (readLevel header level).attempt
    let outcomes ← readLevels header rest
    return outcome :: outcomes

/-- Refused or not, the reader can be used for the next level. After a level it stands where the
payload ends; where it stood before does not matter, not even past the end. -/
theorem readLevel_ends_of_locates {anywhere inside : σ → Nat → Prop}
    (hsource : Source.Locates data anywhere inside) (h : r.Stands anywhere p) (header : Header)
    (level : Nat) :
    (readLevel header level).Ends r
      (fun payload next => header.payloadIn data level = .ok payload ∧
        ∃ extent, header.level? level = some extent ∧ next.Stands anywhere extent.stop)
      (fun e next => header.payloadIn data level = .error e ∧ next.Stands anywhere p) := by
  rw [readLevel, Header.payloadIn]
  cases header.level? level with
  | none => exact ⟨rfl, h⟩
  | some extent =>
    obtain ⟨hsize, hsized⟩ := hsource.size h.2
    simp only [Action.ends_bind, Reader.onSource, Action.ends_on, Action.ends_modifyGet, hsize]
    split
    next hlt =>
      rw [if_neg (Nat.not_le.mpr hlt)]
      exact ⟨rfl, h.1, hsized⟩
    next hge =>
      have hstop : extent.stop ≤ data.length := Nat.not_lt.mp hge
      obtain ⟨sought, hseek, hinside⟩ :=
        hsource.seek hsized (Nat.le_trans (Nat.le_add_right ..) hstop)
      rw [if_pos hstop, Action.ends_bind, Action.ends_on]
      apply Action.ends_of_ok hseek
      have hsought : (⟨sought, r.failed⟩ : Reader σ).Stands inside extent.offset.toNat :=
        ⟨h.1, hinside⟩
      obtain ⟨-, hbytes, hnext⟩ := Reader.fill_of_locates hsource hsought hstop
      simpa [hnext.1, hbytes, Extent.stop] using hnext

theorem readLevel_ends (hsource : Source.Walks data stands) (h : r.Stands stands p)
    (header : Header) (level : Nat) :
    (readLevel header level).Ends r
      (fun payload next => header.payloadIn data level = .ok payload ∧
        ∃ extent, header.level? level = some extent ∧ next.Stands stands extent.stop)
      (fun e next => header.payloadIn data level = .error e ∧ next.Stands stands p) :=
  readLevel_ends_of_locates hsource.locates h header level

/-- In whatever order and however often levels are read, what is found depends on the level alone
and the reader is never spoiled. -/
theorem readLevels_ends (hsource : Source.Walks data stands) (h : r.Stands stands p)
    (header : Header) (levels : List Nat) :
    (readLevels header levels).Ends r
      (fun outcomes next => outcomes = levels.map (header.payloadIn data) ∧
        ∃ q, next.Stands stands q)
      (fun _ _ => False) := by
  induction levels generalizing r p with
  | nil => exact ⟨rfl, p, h⟩
  | cons level rest ih =>
    have hrest {outcome : Except Error Bytes} {next : Reader σ} {q : Nat}
        (houtcome : header.payloadIn data level = outcome) (hnext : next.Stands stands q) :
        (readLevels header rest).Ends next
          (fun outcomes last => outcome :: outcomes =
            (level :: rest).map (header.payloadIn data) ∧ ∃ q, last.Stands stands q)
          (fun _ _ => False) := by
      apply (ih hnext).imp
      rintro _ _ ⟨rfl, hlast⟩
      exact ⟨by simp [houtcome], hlast⟩
    simp only [readLevels, Action.ends_bind, Action.ends_attempt, Action.ends_pure]
    apply (readLevel_ends hsource h header level).mono
    · rintro payload next ⟨hpayload, extent, -, hnext⟩
      exact hrest hpayload hnext
    · rintro e next ⟨he, hnext⟩
      exact hrest he hnext

end Octet.Texture
