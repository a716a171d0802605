import Octet.Proofs.Checked.Source
import Octet.Proofs.Sink.Exact
import Octet.Texture.Save

/-!
# Nothing breaks

Corrections, slots, saves and the extents of levels with operations that may break, as those of
reading are. None of them does, whatever it is given.

## Main definitions

* `Checked.checkPatch`, `Checked.overwrite`: corrections in memory.
* `Checked.slotAt`: the places in an array.
* `Checked.save`: a save that fills the slots of the header one by one.
* `Checked.levelRange`: where a level begins and ends.

## Main statements

* `nothing_breaks`: all of them are safe.
-/

namespace Octet

namespace Checked

variable {σ : Type}

/-! ## Corrections -/

/-- A sum, if a number can hold it. -/
def sum? (m n : Nat) : Option Nat := if m + n < UInt64.size then some (m + n) else none

/-- Refuses a correction that reaches past `stop`, or past all numbers. -/
def checkPatch (offset width stop : Nat) : Except Error Unit :=
  match sum? offset width with
  | some last => if last ≤ stop then .ok () else .error (.patchOutOfRange offset width stop)
  | none => .error (.patchOutOfRange offset width stop)

/-- Corrects bytes in memory. -/
def overwrite (offset : Nat) (data : Bytes) : Checked Bytes Nat := do
  let content ← get
  ofAction (Action.conclude (checkPatch offset data.length content.length))
  let stop ← sum offset data.length
  set (← copy content offset stop data)
  return data.length

variable {offset width stop : Nat} {data content : Bytes}

/-- What is past all numbers is past the end. -/
theorem checkPatch_eq (hstop : stop < UInt64.size) :
    checkPatch offset width stop = Octet.checkPatch offset width stop := by
  unfold checkPatch sum? Octet.checkPatch
  by_cases hsum : offset + width < UInt64.size
  · simp only [hsum, if_true]
  · simp only [hsum, if_false]
    rw [if_neg (by omega)]

theorem overwrite_eq (offset : Nat) (data : Bytes) (hlen : content.length < UInt64.size) :
    overwrite offset data content =
      if offset + data.length ≤ content.length then .ok data.length (content.overlay offset data)
      else .error (.refused (.patchOutOfRange offset data.length content.length)) content := by
  have hget : (get : Checked Bytes Bytes) content = .ok content content := rfl
  simp only [overwrite, bind, EStateM.bind, hget, checkPatch_eq hlen, Octet.checkPatch]
  by_cases hle : offset + data.length ≤ content.length
  · simp only [if_pos hle]
    rw [sum_eq (by omega)]
    simp only [pure, EStateM.pure]
    rw [copy_eq (Nat.le_add_right ..) hle (by omega)]
    rfl
  · simp only [if_neg hle]
    rfl

theorem overwrite_buffer (offset : Nat) (data : Bytes) {buffer : Buffer}
    (hlen : buffer.content.length < UInt64.size) :
    on Buffer.content (fun content _ => ⟨content⟩) (overwrite offset data) buffer =
      ofAction (Sink.overwrite offset data) buffer := by
  have hget : (get : Action Buffer Buffer) buffer = .ok buffer buffer := rfl
  rw [on, overwrite_eq offset data hlen, ofAction]
  by_cases hle : offset + data.length ≤ buffer.content.length
  · simp only [Sink.overwrite, bind, EStateM.bind, hget, Octet.checkPatch, if_pos hle]
    rfl
  · simp only [Sink.overwrite, bind, EStateM.bind, hget, Octet.checkPatch, if_neg hle]
    rfl

theorem overwrite_outgoing {τ : Type} [Transport τ] (offset : Nat) (data : Bytes)
    {message : Outgoing τ} (hlen : message.staged.length < UInt64.size) :
    on Outgoing.staged (fun staged message => { message with staged }) (overwrite offset data)
        message =
      ofAction (Sink.overwrite offset data) message := by
  rw [on, overwrite_eq offset data hlen, ofAction, Outgoing.overwrite_eq]
  by_cases hle : offset + data.length ≤ message.staged.length
  · simp only [if_pos hle]
  · simp only [if_neg hle]

/-! ## Slots -/

/-- The place of one value of an array. -/
def slotAt {t : Scalar} {n : Nat} (slots : SlotArray t n) (index : Nat) :
    Checked σ (Option (Slot t)) :=
  if index < n then do
    let distance ← product index t.width
    let offset ← sum slots.offset distance
    return some ⟨offset⟩
  else return none

/-- Whatever the index, as long as the array itself ends at an offset. -/
theorem slotAt_eq {t : Scalar} {n : Nat} {slots : SlotArray t n}
    (hstop : slots.offset + n * t.width < UInt64.size) (index : Nat) :
    (slotAt slots index : Checked σ (Option (Slot t))) = pure (slots.slot? index) := by
  unfold slotAt SlotArray.slot?
  split
  next hindex =>
    have hle : index * t.width ≤ n * t.width := Nat.mul_le_mul_right _ (Nat.le_of_lt hindex)
    rw [product_eq (by omega), pure_bind, sum_eq (by omega), pure_bind]
  next => rfl

/-! ## Textures -/

open Texture

variable [Sink σ]

/-- Writes the payload of a mip level and fills its slot. -/
def appendLevel (level : Nat) (payload : Bytes) : Checked (Header × Writer σ) Unit := do
  let (header, w) ← get
  unless w.position < UInt32.size do throw (.refused (.header .offsetTooLarge))
  unless payload.length < UInt32.size do throw (.refused (.header .lengthTooLarge))
  let extent : Extent := ⟨UInt32.ofNat w.position, UInt32.ofNat payload.length⟩
  let levels ← store header.levels level extent
  set ({ header with levels }, w.append payload)

def appendLevels : Nat → List Bytes → Checked (Header × Writer σ) Unit
  | _, [] => pure ()
  | level, payload :: rest => do
    appendLevel level payload
    appendLevels (level + 1) rest

/-- Writes a whole texture through a writer. -/
def saveThrough (payloads : List Bytes) : Checked (Header × Writer σ) Unit := do
  if levelLimit < payloads.length then
    throw (.refused (.header (.tooManyLevels payloads.length)))
  let draft ← ofAction (Action.onSnd (Draft.start (← get).1))
  modify fun (header, w) => ({ header with levels := Vector.replicate levelLimit {} }, w)
  appendLevels 0 payloads
  ofAction (Action.onSnd Writer.finish)
  ofAction (Action.onSnd (draft.finish (← get).1))
  ofAction (Action.onSnd Writer.flush)

/-- Writes a whole texture to a sink. -/
def save (payloads : List Bytes) : Checked (Header × σ) Unit :=
  on (fun (header, sink) => (header, Writer.mk sink false)) (fun (header, w) _ => (header, w.sink))
    (saveThrough payloads)

/-- Where a level begins and where it ends, if its slot is in use. -/
def levelRange {σ : Type} (header : Header) (level : Nat) : Checked σ (Option (Nat × Nat)) :=
  match header.levels[level]? with
  | none => return none
  | some extent =>
    if extent.length ≠ 0 then do
      let stop ← sum extent.offset.toNat extent.length.toNat
      return some (extent.offset.toNat, stop)
    else return none

theorem appendLevel_eq {level : Nat} (hlevel : level < levelLimit) (payload : Bytes) :
    (appendLevel level payload : Checked (Header × Writer σ) Unit) =
      ofAction (Texture.appendLevel level payload) := by
  simp only [appendLevel, Texture.appendLevel, ofAction_bind, store_eq hlevel, pure_bind]
  refine congrArg (get >>= ·) (funext fun s => ?_)
  by_cases hposition : s.2.position < UInt32.size
  · by_cases hpayload : payload.length < UInt32.size
    · simp only [hposition, hpayload, if_true]
      rfl
    · simp only [hposition, hpayload, if_true, if_false]
      rfl
  · simp only [hposition, if_false]
    rfl

theorem appendLevels_eq {level : Nat} (payloads : List Bytes)
    (hle : level + payloads.length ≤ levelLimit) :
    (appendLevels level payloads : Checked (Header × Writer σ) Unit) =
      ofAction (Texture.appendLevels level payloads) := by
  induction payloads generalizing level with
  | nil => rfl
  | cons payload rest ih =>
    rw [List.length_cons] at hle
    rw [appendLevels, Texture.appendLevels, ofAction_bind, appendLevel_eq (by omega),
      ih (by omega)]

/-- No list of payloads has too many levels for the slots: where it does, it is refused first. -/
theorem saveThrough_eq (payloads : List Bytes) :
    (saveThrough payloads : Checked (Header × Writer σ) Unit) =
      ofAction (Texture.saveThrough payloads) := by
  unfold saveThrough Texture.saveThrough
  by_cases hcount : levelLimit < payloads.length
  · simp only [hcount, if_true]
    rfl
  · simp only [hcount, if_false, ofAction_bind]
    rw [appendLevels_eq payloads (by omega)]
    rfl

theorem save_eq (payloads : List Bytes) :
    (save payloads : Checked (Header × σ) Unit) = ofAction (Texture.save payloads) := by
  simp [save, saveThrough_eq, Texture.save]

/-- A sum of two numbers of 32 bits is far from what 64 bits can hold. -/
theorem stop_lt (extent : Extent) : extent.stop < UInt64.size := by
  have hoffset := extent.offset.toNat_lt
  have hlength := extent.length.toNat_lt
  simp only [Extent.stop, UInt64.size]
  omega

theorem levelRange_eq {σ : Type} (header : Header) (level : Nat) :
    (levelRange header level : Checked σ (Option (Nat × Nat))) =
      pure ((header.level? level).map fun extent => (extent.offset.toNat, extent.stop)) := by
  unfold levelRange Header.level?
  cases header.levels[level]? with
  | none => rfl
  | some extent =>
    have hsum : extent.offset.toNat + extent.length.toNat < UInt64.size := stop_lt extent
    by_cases hlength : extent.length = 0
    · simp [hlength, Option.filter]
    · simp [hlength, sum_eq hsum, Extent.stop, Option.filter]

end Checked

variable {τ : Type} [Transport τ]

/-- Bytes in memory are no more than a number can count. Then, whatever is asked for and with
whatever numbers: no client breaks a cursor or a session on received bytes, in any state of the
connection, and either ends at a position inside its bytes, so that the release breaks nothing; no
correction breaks a buffer or a message, and where the end is tested without the bytes at hand, the
test is the same; no index breaks a slot of an array that itself ends at an offset; no list of
payloads breaks a save, on any sink; and no level breaks the extents of a header. All of these do
just what they do without a test of each operation. -/
theorem nothing_breaks :
    (∀ {α : Type} (client : Client Source.Call Source.Reply Bare α) (c : Cursor),
      c.data.length < UInt64.size →
      let answer := (client.through Cursor.bare).run Source.step c
      client.runChecked (Bare.perform Bare.skip) c.bare = .ok answer.outcome answer.state.bare ∧
        answer.state.bare.Sound) ∧
    (∀ {α : Type} (client : Client Source.Call Source.Reply Bare α) (c : Connection τ),
      c.received.length < UInt64.size →
      let answer := (client.through Incoming.bare).run Source.step c.incoming
      client.runChecked (Bare.perform Bare.skipRemaining) ⟨c.received, 0⟩ =
          .ok answer.outcome answer.state.bare ∧
        answer.state.bare.Sound) ∧
    (∀ (client : Client Source.Call Source.Reply Bare Bool) (c : Connection τ),
      c.received.length < UInt64.size →
      let answer := Connection.deal (.read (client.through Incoming.bare)) c
      ∃ count, answer.outcome = .ok count ∧
        Connection.readChecked client c = .ok count answer.state) ∧
    (∀ (offset : Nat) (data : Bytes),
      (∀ buffer : Buffer, buffer.content.length < UInt64.size →
        Checked.on Buffer.content (fun content _ => ⟨content⟩) (Checked.overwrite offset data)
            buffer =
          Checked.ofAction (Sink.overwrite offset data) buffer) ∧
      (∀ message : Outgoing τ, message.staged.length < UInt64.size →
        Checked.on Outgoing.staged (fun staged message => { message with staged })
            (Checked.overwrite offset data) message =
          Checked.ofAction (Sink.overwrite offset data) message) ∧
      ∀ stop < UInt64.size, Checked.checkPatch offset data.length stop =
        checkPatch offset data.length stop) ∧
    (∀ {t : Scalar} {n : Nat} (slots : SlotArray t n) (index : Nat),
      slots.offset + n * t.width < UInt64.size →
      (Checked.slotAt slots index : Checked Unit _) = pure (slots.slot? index)) ∧
    (∀ {σ : Type} [Sink σ] (payloads : List Bytes),
      (Checked.save payloads : Checked (Texture.Header × σ) Unit) =
        Checked.ofAction (Texture.save payloads)) ∧
    ∀ (header : Texture.Header) (level : Nat),
      (Checked.levelRange header level : Checked Unit _) =
        pure ((header.level? level).map fun extent => (extent.offset.toNat, extent.stop)) := by
  exact ⟨fun client c hlen => c.runChecked_eq client hlen,
    fun client c hlen => c.incoming.runChecked_eq client hlen,
    fun client c hlen => Connection.readChecked_eq client c hlen,
    fun offset data => ⟨fun buffer hlen => Checked.overwrite_buffer offset data hlen,
      fun message hlen => Checked.overwrite_outgoing offset data hlen,
      fun stop hstop => Checked.checkPatch_eq hstop⟩,
    fun slots index hstop => Checked.slotAt_eq hstop index,
    fun payloads => Checked.save_eq payloads,
    fun header level => Checked.levelRange_eq header level⟩

/-- A client that asks for the largest numbers that there are. -/
def greedy : Client Source.Call Source.Reply Bare Bool :=
  .call (.seek (UInt64.size - 1)) fun _ _ => .call (.skip (UInt64.size - 1)) fun _ _ =>
    .call (.read (UInt64.size - 1)) fun _ _ => .done true

/-- A connection that has received three bytes. -/
def threeReceived : Connection Connection.Scripted where
  transport := {}
  limit := 3
  received := [1, 2, 3]

/-- The largest numbers, on three bytes. -/
theorem nothing_breaks_at_the_largest :
    greedy.runChecked (Bare.perform Bare.skip) ⟨[1, 2, 3], 0⟩ = .ok true ⟨[1, 2, 3], 3⟩ ∧
      (∃ rest, Connection.readChecked greedy threeReceived = .ok 3 rest ∧ rest.received = []) ∧
      Checked.on Buffer.content (fun content _ => ⟨content⟩)
          (Checked.overwrite (UInt64.size - 1) [4, 5]) ⟨[1, 2, 3]⟩ =
        .error (.refused (.patchOutOfRange (UInt64.size - 1) 2 3)) ⟨[1, 2, 3]⟩ ∧
      (Checked.slotAt (⟨8⟩ : SlotArray .u64 4) (UInt64.size - 1) : Checked Unit _) = pure none := by
  obtain ⟨hcursor, -, hsession, hpatch, hslot, -⟩ := nothing_breaks (τ := Connection.Scripted)
  have hlen : ([1, 2, 3] : Bytes).length < UInt64.size := by decide +kernel
  refine ⟨?_, ?_, ?_, ?_⟩
  · obtain ⟨hrun, -⟩ := hcursor greedy { data := [1, 2, 3] } hlen
    exact hrun.trans (congrArg₂ EStateM.Result.ok (by decide +kernel) (by decide +kernel))
  · obtain ⟨count, hcount, hread⟩ := hsession greedy threeReceived hlen
    have hthree : count = 3 := Except.ok.inj (hcount.symm.trans rfl)
    subst hthree
    exact ⟨_, hread, rfl⟩
  · exact ((hpatch _ _).1 ⟨[1, 2, 3]⟩ hlen).trans rfl
  · exact (hslot _ _ (by decide +kernel)).trans rfl

end Octet
