import Octet.Proofs.Texture.RoundTrip
import Octet.Proofs.Texture.Verdict

/-!
# Slots in use

The count of levels stops at the first slot that is not in use. Slots behind it may be in use all
the same: their payloads can be read, and are not counted.

## Main definitions

* `Header.used`: the levels whose slots are in use.
* `Header.IsPacked`: no slot in use stands behind one that is not.

## Main statements

* `Header.used_eq`: the levels that are counted are the first of those in use.
* `levelCount_eq_length_used_iff`: all of them are counted just if the header is packed, which after
  a save it is if no empty payload stands before another one.
* `levelCount_lt_length_used`: a level that can be read and is not counted.
-/

namespace Octet.Texture

namespace Header

variable {header : Header} {level : Nat}

/-- The levels whose slots are in use. -/
def used (header : Header) : List Nat :=
  (List.range levelLimit).filter fun level => (header.level? level).isSome

/-- No slot in use stands behind one that is not. -/
def IsPacked (header : Header) : Prop :=
  ∀ i j, i < j → (header.level? j).isSome → (header.level? i).isSome

theorem isSome_level?_iff :
    (header.level? level).isSome ↔ ∃ h : level < levelLimit, header.levels[level].length ≠ 0 := by
  simp [Option.isSome_iff_exists, level?_eq_some]

@[simp] theorem mem_used : level ∈ header.used ↔ (header.level? level).isSome := by
  rw [used, List.mem_filter, List.mem_range, and_iff_right_iff_imp]
  exact fun h => (isSome_level?_iff.mp h).1

/-! ## The count -/

theorem findIdx_lengths_le (header : Header) :
    header.lengths.toList.findIdx (· = 0) ≤ levelLimit := by
  have hle : header.lengths.toList.findIdx (· = 0) ≤ header.lengths.toList.length :=
    List.findIdx_le_length
  simpa using hle

/-- The count is the place of the first slot that is not in use. -/
theorem levelCount_eq_findIdx (header : Header) :
    header.levelCount = header.lengths.toList.findIdx (· = 0) := by
  rw [levelCount, List.takeWhile_eq_take_findIdx_not, List.length_take]
  simpa using Nat.min_eq_left header.findIdx_lengths_le

theorem levelCount_le (header : Header) : header.levelCount ≤ levelLimit := by
  rw [levelCount_eq_findIdx]
  exact header.findIdx_lengths_le

theorem isSome_level?_of_lt (h : level < header.levelCount) : (header.level? level).isSome := by
  have hlevel := Nat.lt_of_lt_of_le h header.levelCount_le
  rw [levelCount_eq_findIdx] at h
  have hlength := List.not_of_lt_findIdx h
  exact isSome_level?_iff.mpr ⟨hlevel, by simpa [lengths] using hlength⟩

/-- The count stops at a slot that is not in use, or behind the last slot. -/
@[simp] theorem level?_levelCount (header : Header) : header.level? header.levelCount = none := by
  rw [← Option.not_isSome_iff_eq_none, isSome_level?_iff, levelCount_eq_findIdx]
  rintro ⟨hlevel, hlength⟩
  have hfound : header.lengths.toList.findIdx (· = 0) < header.lengths.toList.length := by
    rwa [header.lengths.length_toList]
  have hzero := List.findIdx_getElem (w := hfound)
  exact hlength (by simpa [lengths] using hzero)

/-- The levels that are counted are the first of those in use. -/
theorem used_eq (header : Header) : header.used =
    List.range header.levelCount ++
      ((List.range (levelLimit - header.levelCount)).map (header.levelCount + ·)).filter
        fun level => (header.level? level).isSome := by
  have hcounted :
      (List.range header.levelCount).filter (fun level => (header.level? level).isSome) =
        List.range header.levelCount :=
    List.filter_eq_self.mpr fun level h => isSome_level?_of_lt (List.mem_range.mp h)
  rw [used, ← Nat.add_sub_of_le header.levelCount_le, List.range_add, List.filter_append, hcounted,
    Nat.add_sub_cancel_left]

/-- A header is packed just if no slot in use lies behind the count. -/
theorem isPacked_iff : header.IsPacked ↔
    ∀ level, header.levelCount ≤ level → header.level? level = none := by
  constructor
  · intro hpacked level hle
    rcases Nat.eq_or_lt_of_le hle with rfl | hlt
    · exact header.level?_levelCount
    · rw [← Option.not_isSome_iff_eq_none]
      intro hsome
      have := hpacked _ _ hlt hsome
      rw [header.level?_levelCount] at this
      cases this
  · intro hbehind i j hij hsome
    refine isSome_level?_of_lt (Nat.lt_of_not_le fun hle => ?_)
    rw [hbehind j (by omega)] at hsome
    cases hsome

theorem levelCount_le_length_used (header : Header) : header.levelCount ≤ header.used.length := by
  rw [used_eq, List.length_append, List.length_range]
  exact Nat.le_add_right ..

theorem levelCount_eq_length_used : header.levelCount = header.used.length ↔ header.IsPacked := by
  rw [isPacked_iff, used_eq, List.length_append, List.length_range, Nat.left_eq_add,
    List.length_eq_zero_iff, List.filter_eq_nil_iff]
  constructor
  · intro hnone level hle
    rcases Nat.lt_or_ge level levelLimit with hlt | hge
    · rw [← Option.not_isSome_iff_eq_none]
      apply hnone
      exact List.mem_map.mpr ⟨level - header.levelCount, List.mem_range.mpr (by omega), by omega⟩
    · rw [← Option.not_isSome_iff_eq_none, isSome_level?_iff]
      rintro ⟨hlt, -⟩
      omega
  · intro hbehind level hlevel
    obtain ⟨i, -, rfl⟩ := List.mem_map.mp hlevel
    simp [hbehind _ (Nat.le_add_right ..)]

end Header

/-! ## After a save -/

variable {front : Bytes} {payloads : List Bytes}

/-- The slots in use are those of the payloads that are not empty. -/
theorem Fits.isSome_level?_describing {front level : Nat} (h : Fits front payloads)
    (header : Header) :
    ((header.describing front payloads).level? level).isSome ↔ payloads[level]?.getD [] ≠ [] := by
  have hslot := h.level?_describing header level
  cases hlevel : (header.describing front payloads).level? level with
  | none =>
    simp only [hlevel] at hslot
    simp [hslot]
  | some extent =>
    simp only [hlevel] at hslot
    obtain ⟨payload, hpayload, hne, -⟩ := hslot
    simp [hpayload, hne]

/-- From a whole file the levels are read as they were saved. -/
theorem Fits.readLevel_ends {ρ : Type} [Source ρ] {stands : ρ → Nat → Prop} {r : Reader ρ}
    {p : Nat} (hfits : Fits front.length payloads) (header : Header)
    (hsource : Source.Walks (front ++ encodeTexture front.length header payloads) stands)
    (h : r.Stands stands p) (level : Nat) :
    (readLevel (header.describing front.length payloads) level).Ends r
      (fun payload _ => levelOf payloads level = .ok payload)
      (fun e _ => levelOf payloads level = .error e) := by
  rw [← hfits.payloadIn_eq header level]
  exact (Texture.readLevel_ends hsource h _ level).mono (fun _ _ h => h.1) fun _ _ h => h.1

/-- A payload that is not empty is read from the file that holds it. -/
theorem Fits.exists_readLevel {file payload : Bytes} {level : Nat}
    (hfits : Fits front.length payloads) (header : Header)
    (hfile : file = front ++ encodeTexture front.length header payloads)
    (hpayload : payloads[level]? = some payload) (hne : payload ≠ []) :
    ∃ next, readLevel (header.describing front.length payloads) level
      (⟨{ data := file }, false⟩ : Reader Cursor) = .ok payload next := by
  have hlevel : levelOf payloads level = .ok payload := by simp [levelOf, hpayload, hne]
  have hstands : (⟨{ data := file }, false⟩ : Reader Cursor).Stands (Cursor.Stands file) 0 :=
    ⟨rfl, rfl, rfl⟩
  have hread := hfits.readLevel_ends header (hfile ▸ Cursor.walks file) hstands level
  simp only [hlevel] at hread
  obtain ⟨_, next, hnext, hfound⟩ := hread.exists_ok (by simp)
  exact ⟨next, (Except.ok.inj hfound) ▸ hnext⟩

/-- The levels in use are those that can be read. -/
theorem Fits.mem_used_describing {ρ : Type} [Source ρ] {stands : ρ → Nat → Prop} {r : Reader ρ}
    {p : Nat} (hfits : Fits front.length payloads) (header : Header)
    (hsource : Source.Walks (front ++ encodeTexture front.length header payloads) stands)
    (h : r.Stands stands p) (level : Nat) :
    level ∈ (header.describing front.length payloads).used ↔ ∃ payload next,
      readLevel (header.describing front.length payloads) level r = .ok payload next := by
  have hread := hfits.readLevel_ends header hsource h level
  rw [Header.mem_used, hfits.isSome_level?_describing]
  cases hact : readLevel (header.describing front.length payloads) level r with
  | ok payload next =>
    have hpayload := hread.of_ok hact
    rw [levelOf] at hpayload
    split at hpayload
    next => cases hpayload
    next hne => simpa using hne
  | error e next =>
    have hrefused := hread.of_error hact
    rw [levelOf] at hrefused
    split at hrefused
    next hnil => simpa using hnil
    next => cases hrefused

/-- The count is never above the number of slots in use, and just that number if no slot in use
stands behind one that is not. After a save that is so just if no empty payload stands before
another one that is not; and whether the count has them all or not, the levels in use are those that
can be read from the file. -/
theorem levelCount_eq_length_used_iff (header : Header) :
    header.levelCount ≤ header.used.length ∧
      (header.levelCount = header.used.length ↔ header.IsPacked) ∧
      ∀ {σ : Type} [Sink σ] {holds : σ → Bytes → Prop} {sink sink' : σ} {first : Header}
        {front : Bytes} {payloads : List Bytes}, Sink.Honest holds → holds sink front →
        save payloads (first, sink) = .ok () (header, sink') →
        (header.IsPacked ↔
          ∀ i j : Nat, i < j → payloads[j]?.getD [] ≠ [] → payloads[i]?.getD [] ≠ []) ∧
        ∀ {ρ : Type} [Source ρ] {stands : ρ → Nat → Prop} {r : Reader ρ} {p : Nat},
          Source.Walks (front ++ encodeTexture front.length first payloads) stands →
          r.Stands stands p → ∀ level,
          level ∈ header.used ↔ ∃ payload next, readLevel header level r = .ok payload next := by
  refine ⟨header.levelCount_le_length_used, Header.levelCount_eq_length_used, ?_⟩
  intro σ _ holds sink sink' first front payloads hsink h hsave
  obtain ⟨hfits, rfl, -⟩ := (save_ends hsink.tracked h first payloads).of_ok hsave
  refine ⟨?_, fun hsource hr level => hfits.mem_used_describing first hsource hr level⟩
  simp only [Header.IsPacked, hfits.isSome_level?_describing]

/-- An empty payload behind another one is not in the way. -/
theorem levelCount_of_empty_last :
    let payloads : List Bytes := [[1, 2, 3], []]
    ∃ saved file, save payloads (({} : Header), (⟨[7]⟩ : Buffer)) = .ok () (saved, ⟨file⟩) ∧
      saved.IsPacked ∧ saved.levelCount = saved.used.length ∧
      ∀ level, level ∈ saved.used ↔ ∃ payload next,
        readLevel saved level (⟨{ data := file }, false⟩ : Reader Cursor) = .ok payload next := by
  intro payloads
  have hsave := (show Fits ([7] : Bytes).length payloads by decide +kernel).save_buffer {}
  obtain ⟨-, hcount, hsaved⟩ :=
    levelCount_eq_length_used_iff (({} : Header).describing ([7] : Bytes).length payloads)
  obtain ⟨hpacked, hread⟩ := hsaved Buffer.tracked.honest rfl hsave
  have hfull : ∀ i j : Nat, i < j → payloads[j]?.getD [] ≠ [] → payloads[i]?.getD [] ≠ [] := by
    intro i j hij hj
    cases i with
    | zero => simp [payloads]
    | succ i =>
      obtain ⟨k, rfl⟩ := Nat.exists_eq_add_of_le' (show 2 ≤ j by omega)
      exact absurd rfl hj
  exact ⟨_, _, hsave, hpacked.mpr hfull, hcount.mpr (hpacked.mpr hfull),
    hread (Cursor.walks _) ⟨rfl, rfl, rfl⟩⟩

/-- The count of a saved texture may leave out a level that can be read from its file. -/
theorem levelCount_lt_length_used :
    ∃ saved file, save [[], [1, 2, 3]] (({} : Header), (⟨[]⟩ : Buffer)) = .ok () (saved, ⟨file⟩) ∧
      (∃ next, load (⟨{ data := file }, false⟩ : Reader Cursor) = .ok saved next) ∧
      saved.levelCount = 0 ∧ saved.used = [1] ∧
      ∃ next, readLevel saved 1 (⟨{ data := file }, false⟩ : Reader Cursor) =
        .ok [1, 2, 3] next := by
  have hfits : Fits ([] : Bytes).length [[], [1, 2, 3]] := by decide +kernel
  have hsave := hfits.save_buffer {}
  obtain ⟨next, hload⟩ := exists_load_of_eq (ahead_of_save hsave).2.2 rfl
  obtain ⟨last, hread⟩ := hfits.exists_readLevel {} rfl
    (show [[], [1, 2, 3]][1]? = some ([1, 2, 3] : Bytes) from rfl) (by decide)
  exact ⟨_, _, hsave, ⟨next, hload⟩, by decide +kernel, by decide +kernel, last, hread⟩

end Octet.Texture
