import Octet.Proofs.Texture.Verdict

/-!
# Headers that are written again

A header that was loaded can be written again, with its slots open at first and committed then. The
bytes are those that it was loaded from, except that a flag which is set is one: what is written is
a normal form of what was read.

## Main definitions

* `normalize`: the normal form of the bytes of a header.
* `Header.store`: writes a header and commits its slots.

## Main statements

* `Header.encode_ofBytes`: what bytes spell is encoded as their normal form.
* `Header.store_ends`: storing a header writes its encoding.
* `store_of_load`: what is loaded is stored in normal form, for good.
-/

namespace Octet.Texture

/-- The bytes of a header as they are written again: a flag that is set is one. -/
def normalize (image : Bytes) : Bytes := image.modify 9 fun flag => if flag = 0 then 0 else 1

/-- The slots from an offset on are written again as the bytes that they were read from. -/
theorem Header.encodeList_slots {image : Bytes} {part : Extent → UInt32} {start : Nat}
    (hinside : start + 64 ≤ image.length)
    (hpart : ∀ level (hlevel : level < levelLimit), part (ofBytes image).levels[level] =
      Scalar.u32.decodeAt (start + level * Scalar.u32.width) image) :
    Scalar.u32.encodeList ((ofBytes image).levels.map part).toList =
      (image.drop start).take 64 := by
  have hslots : (ofBytes image).levels.map part = Vector.ofFn fun level : Fin levelLimit =>
      Scalar.u32.decodeAt (start + level * Scalar.u32.width) image := by
    ext level hlevel
    simp [hpart level hlevel]
  have hvalues : ((ofBytes image).levels.map part).toList =
      Scalar.u32.decodeList levelLimit ((image.drop start).take 64) := by
    rw [hslots]
    exact Scalar.toList_ofFn_decodeAt .u32 start levelLimit image
  rw [hvalues]
  apply Scalar.encodeList_decodeList .u32
  rw [List.length_take, List.length_drop, Nat.min_eq_left (by omega)]
  rfl

/-- The normal form, field by field. -/
theorem normalize_eq {image : Bytes} (hlen : image.length = headerSize) : normalize image =
    image.take 4 ++ ((image.drop 4).take 4 ++ ((image.drop 8).take 1 ++
      (Scalar.bool.canonical ((image.drop 9).take 1) ++ ((image.drop 10).take 2 ++
        ((image.drop 12).take 2 ++ ((image.drop 14).take 64 ++ (image.drop 78).take 64)))))) := by
  have hjoin (start width : Nat) :
      (image.drop start).take width ++ image.drop (start + width) = image.drop start := by
    rw [← List.drop_drop, List.take_append_drop]
  have hfront : image.take 9 =
      image.take 4 ++ ((image.drop 4).take 4 ++ (image.drop 8).take 1) := by
    rw [show 9 = 4 + (4 + 1) from rfl, List.take_add, List.take_add, List.drop_drop]
  have hlast : (image.drop 78).take 64 = image.drop 78 :=
    List.take_of_length_le (by rw [List.length_drop, hlen]; decide)
  have hlt : 9 < image.length := by
    rw [hlen]
    decide
  calc normalize image
    _ = image.take 9 ++ (Scalar.bool.canonical ((image.drop 9).take 1) ++ image.drop 10) := by
      rw [normalize, List.modify_eq_take_cons_drop hlt, List.drop_eq_getElem_cons hlt]
      rfl
    _ = _ := by
      rw [hlast, hjoin 14 64, hjoin 12 2, hjoin 10 2, hfront, List.append_assoc, List.append_assoc]

/-- What is written of a header are the bytes that spell it, up to the flag. -/
theorem Header.encode_ofBytes {image : Bytes} (hlen : image.length = headerSize)
    (hsignature : Scalar.u32.decodeAt 0 image = signature)
    (hcode : ¬ 3 < Scalar.u8.decodeAt 8 image) : (ofBytes image).encode = normalize image := by
  have hfield (t : Scalar) (offset : Nat) (h : offset + t.width ≤ headerSize) :
      t.encode (t.decodeAt offset image) = t.canonical ((image.drop offset).take t.width) :=
    t.encode_decodeAt (hlen ▸ h)
  have hoffsets : Scalar.u32.encodeList (ofBytes image).offsets.toList =
      (image.drop 14).take 64 :=
    encodeList_slots (hlen ▸ by decide) (by simp [ofBytes, Scalar.width])
  have hlengths : Scalar.u32.encodeList (ofBytes image).lengths.toList =
      (image.drop 78).take 64 :=
    encodeList_slots (hlen ▸ by decide) (by simp [ofBytes, Scalar.width])
  have hflag : (ofBytes image).hasMips = Scalar.bool.decodeAt 9 image := Scalar.decodeAt_bool.symm
  rw [normalize_eq hlen, encode_eq, hoffsets, hlengths, ← hsignature, hflag]
  simp only [ofBytes, (Compression.ofCode?_of_not_lt hcode).2]
  rw [hfield .u32 0 (by decide), hfield .u32 4 (by decide), hfield .u8 8 (by decide),
    hfield .bool 9 (by decide), hfield .u16 10 (by decide), hfield .u16 12 (by decide)]
  rfl

/-! ## Storing -/

/-- Writes a preamble and a header with open slots, and commits the slots. -/
def Header.store {σ : Type} [Sink σ] (header : Header) : Action (Writer σ) Unit := do
  let draft ← Draft.start header
  draft.finish header

theorem Header.store_ends {σ : Type} [Sink σ] {holds torn : σ → Bytes → Prop}
    (hsink : Sink.Tracked holds torn) {w : Writer σ} {front : Bytes} (h : w.Holds holds front)
    (header : Header) :
    header.store.Ends w (fun _ next => next.Holds holds (front ++ header.encode))
      (fun _ next => ∃ content, torn next.sink content) := by
  rw [store]
  apply (Draft.start_ends hsink.toUnflushed h header).bind
  · rintro _ opened ⟨hopened, rfl⟩
    apply (Draft.finish_ends hsink.toUnflushed hopened (by simp) header).mono
    · intro _ next hnext
      have hslots := overlay_all_slots front header []
      rw [List.append_nil, List.append_nil] at hslots
      rwa [hslots] at hnext
    · exact fun _ next ⟨_, htorn⟩ => ⟨_, htorn⟩
  · rintro _ next ⟨hfailed, hstreamed⟩
    obtain ⟨_, htorn⟩ := hstreamed.torn_of_failed hfailed
    exact ⟨_, htorn⟩

/-- A buffer that is empty holds the encoding in the end. -/
@[simp] theorem Header.store_buffer (header : Header) :
    header.store (⟨⟨[]⟩, false⟩ : Writer Buffer) = .ok () ⟨⟨header.encode⟩, false⟩ := by
  have hstart : (⟨⟨[]⟩, false⟩ : Writer Buffer).Holds Buffer.Holds [] := ⟨rfl, rfl⟩
  obtain ⟨⟨⟩, ⟨⟨content⟩, failed⟩, hstore, hfailed, hholds⟩ :=
    (store_ends Buffer.tracked hstart header).exists_ok fun _ _ ⟨_, h⟩ => h
  obtain rfl : failed = false := hfailed
  obtain rfl : content = _ := hholds
  exact hstore

/-- A header is loaded just if that is the verdict on the bytes. -/
theorem exists_load_iff {data : Bytes} {header : Header} :
    (∃ next, load (⟨{ data }, false⟩ : Reader Cursor) = .ok header next) ↔
      (judge data 0).outcome = .ok header := by
  have hstart : (⟨{ data }, false⟩ : Reader Cursor).Stands (Cursor.Stands data) 0 := ⟨rfl, rfl, rfl⟩
  have hends := Action.ends_attempt.mp (load_concludes (Cursor.walks data) hstart)
  constructor
  · rintro ⟨next, hload⟩
    exact (hends.of_ok hload).1.symm
  · intro hjudge
    cases hload : load (⟨{ data }, false⟩ : Reader Cursor) with
    | ok found next =>
      have hfound := (hends.of_ok hload).1.trans hjudge
      obtain rfl := Except.ok.inj hfound
      exact ⟨next, rfl⟩
    | error e next => cases (hends.of_error hload).1.trans hjudge

/-- If a header is loaded from 142 bytes, it is stored in an empty buffer as their normal form. The
same header is loaded from that, and stored the same way again. -/
theorem store_of_load {image : Bytes} {header : Header} {next : Reader Cursor}
    (hlen : image.length = headerSize)
    (hload : load (⟨{ data := image }, false⟩ : Reader Cursor) = .ok header next) :
    header.store (⟨⟨[]⟩, false⟩ : Writer Buffer) = .ok () ⟨⟨normalize image⟩, false⟩ ∧
      ∃ header' last,
        load (⟨{ data := normalize image }, false⟩ : Reader Cursor) = .ok header' last ∧
        header' = header ∧
        header'.store (⟨⟨[]⟩, false⟩ : Writer Buffer) = .ok () ⟨⟨normalize image⟩, false⟩ := by
  obtain ⟨-, hsignature, hversion, hcode, rfl⟩ := checks_of_judge (exists_load_iff.mp ⟨next, hload⟩)
  rw [List.drop_zero] at *
  have hencode := Header.encode_ofBytes hlen hsignature hcode
  have hstore := (Header.ofBytes image).store_buffer
  rw [hencode] at hstore
  have hahead : (⟨{ data := normalize image }, false⟩ : Reader Cursor).Ahead (normalize image)
      (Cursor.Stands (normalize image)) 0 ((Header.ofBytes image).encode ++ []) := by
    refine ⟨⟨rfl, rfl, rfl⟩, ?_⟩
    simp [hencode]
  obtain ⟨header', last, hagain, rfl, -⟩ :=
    (load_ends (Cursor.walks (normalize image)) _ hahead).exists_ok fun _ _ hno => hno hversion
  exact ⟨hstore, _, last, hagain, rfl, hstore⟩

/-- A flag that is seven, and all slots different from one another. -/
theorem store_of_load_seven :
    let slots : Bytes := (List.range 128).map UInt8.ofNat
    let image : Bytes := [0x48, 0x54, 0x45, 0x58, 0, 1, 0, 0, 2, 7, 64, 0, 16, 0] ++ slots
    ∃ header next, load (⟨{ data := image }, false⟩ : Reader Cursor) = .ok header next ∧
      header.store (⟨⟨[]⟩, false⟩ : Writer Buffer) = .ok ()
        ⟨⟨[0x48, 0x54, 0x45, 0x58, 0, 1, 0, 0, 2, 1, 64, 0, 16, 0] ++ slots⟩, false⟩ := by
  intro slots image
  have hjudge : (judge image 0).outcome = .ok (.ofBytes image) := by
    rw [judge_of_le (by decide +kernel)]
    dsimp only
    rw [if_neg (by decide +kernel), if_neg (by decide +kernel), if_neg (by decide +kernel)]
    rfl
  obtain ⟨next, hload⟩ := exists_load_iff.mpr hjudge
  exact ⟨_, next, hload, (store_of_load (by decide +kernel) hload).1⟩

end Octet.Texture
