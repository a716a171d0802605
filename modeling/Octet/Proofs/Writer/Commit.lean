import Octet.Proofs.Sink.Correction
import Octet.Proofs.Writer.Failure

/-!
# What a commit changes

A commit puts the encoding of its value where the slot says, or is refused. Either way no byte
outside the slot changes, and neither does the position. Only a stream that fails can spoil the
writer; a slot that lies outside the written bytes does no harm.

An array is committed slot by slot, and the slots before one that is refused keep their values.

## Main definitions

* `Writer.Spares`: nothing has changed but some bytes in a row.
* `Writer.Redeems`: what a commit does to a writer.
* `Writer.Placed`: values stand in slots that follow one another.
* `Writer.Fills`: what committing an array does to a writer.

## Main statements

* `Writer.sound_run`: as long as the chain of a writer is unbroken, its sink is sound.
* `Writer.commit_redeems`: what a commit does after any use of a writer on any sink.
* `Writer.commitArray_fills`: what committing an array does to any writer in memory.
* `Writer.not_commitArray_atomic`: an array that is refused may have changed the contents.
-/

namespace Octet

namespace Writer

variable {σ α : Type} [Sink σ] {content : σ → Bytes} {sound : σ → Prop}
  {fault : σ → Error → Prop} {w next last : Writer σ} {t : Scalar}

/-! ## What is left alone -/

/-- `next` is `w` with at most `width` bytes from `offset` on changed. -/
structure Spares (content : σ → Bytes) (offset width : Nat) (w next : Writer σ) : Prop where
  position : next.position = w.position
  length : (content next.sink).length = (content w.sink).length
  outside : ∀ i, i < offset ∨ offset + width ≤ i →
    (content next.sink)[i]? = (content w.sink)[i]?

variable {offset width : Nat}

theorem spares_of_sink_eq (offset width : Nat) (h : next.sink = w.sink) :
    Spares content offset width w next where
  position := congrArg Sink.position h
  length := by rw [h]
  outside _ _ := by rw [h]

theorem spares_of_overlay {data : Bytes} (hle : offset + width ≤ (content w.sink).length)
    (hwidth : data.length ≤ width) (hposition : next.position = w.position)
    (hcontent : content next.sink = (content w.sink).overlay offset data) :
    Spares content offset width w next where
  position := hposition
  length := by rw [hcontent, Bytes.length_overlay_of_le (by omega)]
  outside i hi := by rw [hcontent, Bytes.getElem?_overlay (by omega) (by omega)]

/-! ## The sink of an unbroken chain -/

theorem commit_eq_of_lt (h : Sink.Corrects content sound fault) (hw : w.failed = false)
    (slot : Slot t) (value : t.Value) (hlt : w.position < slot.offset + t.width) :
    commit slot value w = .error (.patchOutOfRange slot.offset t.width w.position) w := by
  have hrefuse := h.refuse (s := w.sink) (t.encode value) ((t.length_encode value).symm ▸ hlt)
  obtain ⟨sink, failed⟩ := w
  cases hw
  simp only [commit, hrefuse, t.length_encode]
  rfl

/-- A slot inside the written bytes takes its value, or the sink has a fault. -/
theorem commit_ends_of_le (h : Sink.Corrects content sound fault) (hw : w.failed = false)
    (hsound : sound w.sink) (slot : Slot t) (value : t.Value)
    (hle : slot.offset + t.width ≤ w.position) :
    (commit slot value).Ends w
      (fun _ next => next.failed = false ∧ sound next.sink ∧ next.position = w.position ∧
        content next.sink = (content w.sink).overlay slot.offset (t.encode value))
      (fun e next => next.failed = true ∧ fault w.sink e ∧ next.position = w.position ∧
        ∃ k, content next.sink =
          (content w.sink).overlay slot.offset ((t.encode value).take k)) := by
  have hends := h.overwrite (t.encode value) hsound ((t.length_encode value).symm ▸ hle)
  simp only [Action.Ends, commit, hw]
  cases hact : Sink.overwrite slot.offset (t.encode value) w.sink with
  | ok count sink =>
    obtain ⟨hcount, hrest⟩ := hends.of_ok hact
    rw [t.length_encode] at hcount
    simp only [hcount, if_true]
    exact ⟨rfl, hrest⟩
  | error e sink =>
    obtain ⟨hfault, hrange, hrest⟩ := hends.of_error hact
    simp only [hrange]
    exact ⟨rfl, hfault, hrest⟩

/-- An unbroken chain has a sound sink. -/
theorem sound_linked (h : Sink.Corrects content sound fault) :
    Linked fun (w : Writer σ) _ next =>
      (w.failed = false → sound w.sink) → next.failed = false → sound next.sink where
  nil _ := id
  trans hfirst hsecond := hsecond ∘ hfirst
  append data w hw := by
    unfold append
    cases hfailed : w.failed with
    | true => simp [hfailed]
    | false =>
      have hends := h.write data (hw hfailed)
      cases hact : Sink.write data w.sink with
      | ok count sink => exact fun _ => hends.of_ok hact
      | error e sink => exact nofun
  commit {t} slot value w := by
    cases hfailed : w.failed with
    | true =>
      apply Action.ends_of_error (commit_of_failed hfailed slot value)
      simp [hfailed]
    | false =>
      by_cases hle : slot.offset + t.width ≤ w.position
      · unfold Action.Ends
        cases hact : commit slot value w with
        | ok _ next =>
          intro hw _
          exact ((commit_ends_of_le h hfailed (hw rfl) slot value hle).of_ok hact).2.1
        | error e next =>
          intro hw hnext
          have hspoilt := (commit_ends_of_le h hfailed (hw rfl) slot value hle).of_error hact
          exact absurd hnext (by simp [hspoilt.1])
      · apply Action.ends_of_error (commit_eq_of_lt h hfailed slot value (Nat.not_le.mp hle))
        exact fun hw _ => hw rfl
  flush w := by
    unfold Action.Ends flush
    cases hfailed : w.failed with
    | true => simp [hfailed]
    | false =>
      rw [if_neg Bool.false_ne_true]
      cases hact : (Sink.flush : Action σ Unit) w.sink with
      | ok _ sink => exact fun hw _ => (h.flush (hw rfl)).of_ok hact
      | error e sink => exact fun _ => nofun

/-- As long as the chain of a writer is unbroken, its sink is sound. -/
theorem sound_run (h : Sink.Corrects content sound fault)
    (client : Client Call (Except Error Unit) (Writer σ) α) (hw : w.failed = false → sound w.sink) :
    let last := (client.run step w).state
    last.failed = false → sound last.sink :=
  client.run_invariant step (fun _ next => next.failed = false → sound next.sink)
    (fun call _ next => (sound_linked h).step call next) [] hw

/-! ## One slot -/

/-- What a commit does to a writer. On a failed writer it does nothing, and outside the written
bytes it does no harm; inside, the slot takes the value or a fault fails the writer. Whatever
happens, the rest is spared. -/
structure Redeems (content : σ → Bytes) (fault : σ → Error → Prop) (slot : Slot t)
    (value : t.Value) (w : Writer σ) : Prop where
  of_failed : w.failed = true → commit slot value w = .error .writerFailed w
  of_lt : w.failed = false → w.position < slot.offset + t.width →
    commit slot value w = .error (.patchOutOfRange slot.offset t.width w.position) w
  of_le : w.failed = false → slot.offset + t.width ≤ w.position →
    (commit slot value).Ends w
      (fun _ next => next.failed = false ∧
        ((content next.sink).drop slot.offset).take t.width = t.encode value)
      (fun e next => next.failed = true ∧ fault w.sink e)
  spares : (commit slot value).Ends w
    (fun _ next => Spares content slot.offset t.width w next)
    (fun _ next => Spares content slot.offset t.width w next)

theorem redeems_of_sound (h : Sink.Corrects content sound fault)
    (hsound : w.failed = false → sound w.sink) (slot : Slot t) (value : t.Value) :
    Redeems content fault slot value w where
  of_failed hw := commit_of_failed hw slot value
  of_lt hw hlt := commit_eq_of_lt h hw slot value hlt
  of_le hw hle := by
    apply (commit_ends_of_le h hw (hsound hw) slot value hle).mono
    · intro _ next ⟨hnext, _, _, hcontent⟩
      have hslot := Bytes.take_drop_overlay (content w.sink) slot.offset (t.encode value)
      rw [t.length_encode] at hslot
      exact ⟨hnext, hcontent ▸ hslot⟩
    · exact fun _ _ ⟨hnext, hfault, _⟩ => ⟨hnext, hfault⟩
  spares := by
    cases hw : w.failed with
    | true =>
      exact Action.ends_of_error (commit_of_failed hw slot value) (spares_of_sink_eq _ _ rfl)
    | false =>
      by_cases hle : slot.offset + t.width ≤ w.position
      · have hin := Nat.le_trans hle (h.position_le (hsound hw))
        apply (commit_ends_of_le h hw (hsound hw) slot value hle).mono
        · intro _ next ⟨_, _, hposition, hcontent⟩
          exact spares_of_overlay hin (Nat.le_of_eq (t.length_encode value)) hposition hcontent
        · intro _ next ⟨_, _, hposition, k, hcontent⟩
          refine spares_of_overlay hin ?_ hposition hcontent
          grind
      · exact Action.ends_of_error (commit_eq_of_lt h hw slot value (Nat.not_le.mp hle))
          (spares_of_sink_eq _ _ rfl)

/-- Whatever a client has done with a writer on a buffer, on a message or on a stream whose cursor
was not past the end, however the stream fails: a commit does what it should and nothing else. In
memory no commit inside the written bytes is refused, and on a stream only a fault refuses one. -/
theorem commit_redeems (slot : Slot t) (value : t.Value) :
    (∀ (front : Bytes) (client : Client Call (Except Error Unit) (Writer Buffer) α),
      Redeems Buffer.content (fun _ _ => False) slot value
        (client.run step { sink := ⟨front⟩ }).state) ∧
    (∀ {τ : Type} [Transport τ] (c : Connection τ)
      (client : Client Call (Except Error Unit) (Writer (Outgoing τ)) α),
      Redeems Outgoing.staged (fun _ _ => False) slot value (client.run step c.writer).state) ∧
    ∀ {stream : Stream} {sink : StreamSink}, StreamSink.ofStream stream = .ok sink →
      stream.cursor ≤ stream.content.length →
      ∀ client : Client Call (Except Error Unit) (Writer StreamSink) α,
        Redeems (fun sink => sink.stream.content) (StreamSink.Fault stream.faults) slot value
          (client.run step { sink }).state := by
  refine ⟨fun front client => ?_, fun c client => ?_, fun hopen hcursor client => ?_⟩
  · exact redeems_of_sound Buffer.corrects (fun _ => trivial) slot value
  · exact redeems_of_sound Outgoing.corrects (fun _ => trivial) slot value
  · have hsink := StreamSink.corrects
    apply redeems_of_sound (hsink _)
    exact sound_run (hsink _) client fun _ => StreamSink.sound_of_ofStream hopen hcursor

/-- Transfers move one byte each, and the fourth is refused. -/
def unplugged : Stream :=
  { content := [9, 9, 9], faults := .scheduled [] [3] "unplugged" (some 1) }

/-- Half of a reserved slot takes its value before the writer fails. -/
theorem commit_redeems_unplugged :
    ∃ sink, StreamSink.ofStream unplugged = .ok sink ∧
      let client : Client Call (Except Error Unit) (Writer StreamSink) Unit :=
        .call (.reserve .u16) fun _ _ => .done ()
      let w := (client.run step { sink }).state
      w.sink.stream.content = [0, 0, 9] ∧ w.position = 2 ∧
        Redeems (t := .u16) (fun sink => sink.stream.content) (StreamSink.Fault unplugged.faults)
          ⟨0⟩ 513 w ∧
        let next := (step (.commit (t := .u16) ⟨0⟩ 513) w).state
        next.failed = true ∧ next.sink.stream.content = [1, 0, 9] ∧ next.position = 2 := by
  have hopen : StreamSink.ofStream unplugged = .ok ⟨{ unplugged with seeks := 1 }, 0⟩ := rfl
  refine ⟨_, hopen, by decide +kernel, by decide +kernel, ?_, ?_, ?_, ?_⟩
  · exact (commit_redeems (t := .u16) ⟨0⟩ 513).2.2 hopen (Nat.zero_le _) _
  all_goals decide +kernel

/-! ## Slots in a row -/

/-- Bytes before those that changed are read as they were. -/
theorem Spares.take_drop (h : Spares content offset width w next) {start count : Nat}
    (hle : start + count ≤ offset) :
    ((content next.sink).drop start).take count = ((content w.sink).drop start).take count := by
  apply List.ext_getElem?
  intro i
  by_cases hi : i < count
  · rw [List.getElem?_take_of_lt hi, List.getElem?_take_of_lt hi, List.getElem?_drop,
      List.getElem?_drop, h.outside _ (.inl (by omega))]
  · have hle := Nat.not_lt.mp hi
    grind

theorem Spares.content_eq (h : Spares content offset 0 w next) :
    content next.sink = content w.sink :=
  List.ext_getElem? fun i => h.outside i (by omega)

theorem Spares.trans {more : Nat} (h : Spares content offset width w next)
    (h' : Spares content (offset + width) more next last) :
    Spares content offset (width + more) w last where
  position := h'.position.trans h.position
  length := h'.length.trans h.length
  outside i hi := by rw [h'.outside i (by omega), h.outside i (by omega)]

/-- The values stand in slots that follow one another from `offset` on, all of them inside the
written bytes, and nothing else has changed. -/
structure Placed (content : σ → Bytes) (t : Scalar) (offset : Nat) (values : List t.Value)
    (w next : Writer σ) : Prop where
  failed : next.failed = false
  inside : ∀ i < values.length, offset + i * t.width + t.width ≤ w.position
  value : ∀ i (hi : i < values.length),
    ((content next.sink).drop (offset + i * t.width)).take t.width = t.encode values[i]
  spares : Spares content offset (values.length * t.width) w next

theorem placed_nil (hw : w.failed = false) (offset : Nat) : Placed content t offset [] w w where
  failed := hw
  inside _ hi := absurd hi (Nat.not_lt_zero _)
  value _ hi := absurd hi (Nat.not_lt_zero _)
  spares := spares_of_sink_eq _ _ rfl

/-- One slot more, in front of the others. -/
theorem Placed.cons {value : t.Value} {rest : List t.Value}
    (hle : offset + t.width ≤ w.position)
    (hvalue : ((content next.sink).drop offset).take t.width = t.encode value)
    (hspares : Spares content offset t.width w next)
    (h : Placed content t (offset + t.width) rest next last) :
    Placed content t offset (value :: rest) w last where
  failed := h.failed
  inside i hi := by
    cases i with
    | zero => simpa using hle
    | succ i =>
      have hrest := h.inside i (by simpa using hi)
      rw [hspares.position] at hrest
      grind
  value i hi := by
    cases i with
    | zero => simpa [h.spares.take_drop (Nat.le_refl _)] using hvalue
    | succ i =>
      have hrest := h.value i (by simpa using hi)
      rw [Nat.succ_mul, Nat.add_comm (i * t.width), ← Nat.add_assoc]
      simpa using hrest
  spares := by
    rw [List.length_cons, Nat.succ_mul, Nat.add_comm]
    exact hspares.trans h.spares

/-- A row of corrections goes on up to the first slot outside the written bytes. -/
theorem commitFrom_places (h : Sink.Corrects content (fun _ => True) fun _ _ => False)
    (hw : w.failed = false) (offset : Nat) (values : List t.Value) :
    (commitFrom t offset values).Ends w
      (fun _ next => Placed content t offset values w next)
      (fun e next => ∃ k < values.length, w.position < offset + k * t.width + t.width ∧
        e = .patchOutOfRange (offset + k * t.width) t.width w.position ∧
        Placed content t offset (values.take k) w next) := by
  induction values generalizing offset w with
  | nil => exact Action.ends_pure.mpr (placed_nil hw offset)
  | cons value rest ih =>
    have hredeems := redeems_of_sound h (fun _ => trivial) (⟨offset⟩ : Slot t) value (w := w)
    rw [commitFrom, Action.ends_bind]
    by_cases hle : offset + t.width ≤ w.position
    · cases hact : commit (t := t) ⟨offset⟩ value w with
      | error e next => exact ((hredeems.of_le hw hle).of_error hact).2.elim
      | ok _ next =>
        obtain ⟨hnext, hvalue⟩ := (hredeems.of_le hw hle).of_ok hact
        have hspares := hredeems.spares.of_ok hact
        apply Action.ends_of_ok hact
        apply (ih hnext (offset + t.width)).mono
        · exact fun _ last hplaced => hplaced.cons hle hvalue hspares
        · rintro e last ⟨k, hk, hlt, he, hplaced⟩
          have hslot : offset + (k + 1) * t.width = offset + t.width + k * t.width := by grind
          rw [hspares.position] at hlt he
          refine ⟨k + 1, Nat.succ_lt_succ hk, hslot ▸ hlt, hslot ▸ he, ?_⟩
          exact hplaced.cons hle hvalue hspares
    · have hlt := Nat.not_le.mp hle
      apply Action.ends_of_error (hredeems.of_lt hw hlt)
      exact ⟨0, by simp, by simpa using hlt, by simp, by simpa using placed_nil hw offset⟩

/-- What committing an array does to an unbroken writer. Either every slot takes its value, or the
first slots do, up to one that lies outside the written bytes, and that one is refused. If it is the
first of all, the contents are what they were. -/
def Fills {n : Nat} (content : σ → Bytes) (slots : SlotArray t n) (values : Vector t.Value n)
    (w : Writer σ) : Prop :=
  (commitArray slots values).Ends w
    (fun _ next => Placed content t slots.offset values.toList w next)
    (fun e next => ∃ k < n, w.position < slots.offset + k * t.width + t.width ∧
      e = .patchOutOfRange (slots.offset + k * t.width) t.width w.position ∧
      Placed content t slots.offset (values.toList.take k) w next ∧
      (k = 0 → content next.sink = content w.sink))

theorem fills_of_corrects {n : Nat}
    (h : Sink.Corrects content (fun _ => True) fun _ _ => False) (hw : w.failed = false)
    (slots : SlotArray t n) (values : Vector t.Value n) : Fills content slots values w := by
  have hends := commitFrom_places h hw slots.offset values.toList
  rw [values.length_toList] at hends
  apply hends.mono
  · exact fun _ _ hplaced => hplaced
  · rintro e next ⟨k, hk, hlt, he, hplaced⟩
    refine ⟨k, hk, hlt, he, hplaced, ?_⟩
    rintro rfl
    have hspares := hplaced.spares
    rw [List.take_zero, List.length_nil, Nat.zero_mul] at hspares
    exact hspares.content_eq

/-- An array on a failed writer is refused, unless it has no slots. On an unbroken one, over a
buffer or a message in any state, it is filled up to the first slot outside the written bytes. -/
theorem commitArray_fills {n : Nat} (slots : SlotArray t n) (values : Vector t.Value n) :
    (∀ w : Writer σ, w.failed = true →
      commitArray slots values w = if n = 0 then .ok () w else .error .writerFailed w) ∧
    (∀ w : Writer Buffer, w.failed = false → Fills Buffer.content slots values w) ∧
    ∀ {τ : Type} [Transport τ] (w : Writer (Outgoing τ)), w.failed = false →
      Fills Outgoing.staged slots values w := by
  refine ⟨fun w hw => ?_, fun w hw => fills_of_corrects Buffer.corrects hw slots values,
    fun w hw => fills_of_corrects Outgoing.corrects hw slots values⟩
  rw [commitArray, commitFrom_of_failed hw, values.length_toList]
  by_cases hn : n = 0 <;> simp [hn]

/-- A place for three bytes in a message that is sent, and one byte of the next message. -/
def restarted : Writer (Outgoing Connection.Scripted) :=
  let message : Outgoing Connection.Scripted := ⟨{ transport := ⟨[]⟩, limit := 8 }, []⟩
  chain.after [.reserveArray .u8 3, .flush, .append [9]] { sink := message }

/-- The same, spoiled by bytes past the limit. -/
def spoiled : Writer (Outgoing Connection.Scripted) := restarted.append (List.replicate 8 0)

theorem commitArray_fills_restarted :
    commitArray (t := .u8) ⟨0⟩ #v[1, 2, 3] spoiled = .error .writerFailed spoiled ∧
      Fills (t := .u8) Buffer.content ⟨1⟩ #v[1, 2] { sink := ⟨[7, 7, 7]⟩ } ∧
      Fills (t := .u8) Outgoing.staged ⟨0⟩ #v[1, 2, 3] restarted :=
  ⟨(commitArray_fills (t := .u8) ⟨0⟩ #v[1, 2, 3]).1 spoiled (by decide),
    (commitArray_fills (σ := Buffer) (t := .u8) ⟨1⟩ #v[1, 2]).2.1 { sink := ⟨[7, 7, 7]⟩ } rfl,
    (commitArray_fills (σ := Buffer) (t := .u8) ⟨0⟩ #v[1, 2, 3]).2.2 restarted (by decide)⟩

/-- The slots reserved in the first message fit the second in part: the commit is refused, but the
byte that was there is gone. Nothing is refused where there is no slot, not even by a failed
writer. -/
theorem not_commitArray_atomic :
    restarted.isOk = true ∧ restarted.sink.staged = [9] ∧
      (∃ next, commitArray (t := .u8) (n := 3) ⟨0⟩ #v[1, 2, 3] restarted =
        .error (.patchOutOfRange 1 1 1) next ∧ next.sink.staged = [1]) ∧
      spoiled.isOk = false ∧ commitArray (t := .u8) (n := 0) ⟨0⟩ #v[] spoiled = .ok () spoiled :=
  ⟨rfl, rfl, ⟨(step (.commitArray (t := .u8) (n := 3) ⟨0⟩ #v[1, 2, 3]) restarted).state, rfl, rfl⟩,
    rfl, rfl⟩

end Writer

end Octet
