import Octet.Proofs.Texture.Send
import Octet.Proofs.Sink.Contract
import Octet.Proofs.Source.Stream

/-!
# Several values in one call

Writing or reading several values takes one call of the sink or source, which may do it all or
nothing; taken one by one, the values that fit or have arrived go through before the chain breaks.
Apart from these, the two ways end alike.

## Main definitions

* `Writer.writeEach`, `Reader.readEach`: values written and read one after another.
* `Sink.AllOrNone`: what is asked of a sink.
* `Writer.WritesAlike`, `Reader.ReadsAlike`: how the two ways compare.

## Main statements

* `Sink.AllOrNone.writesAlike`, `Source.Yields.readsAlike`: they compare so by the contracts.
* `bulk_as_one_by_one`: and so on buffers and messages, and on every kind of source.
-/

namespace Octet

/-! ## Writing -/

namespace Sink

variable {σ : Type} [Sink σ]

/-- A write stores all of its bytes where so many more fit, and nothing where they do not. `extend`
says what a sink is with more bytes. -/
structure AllOrNone (extend : Bytes → σ → σ) (fits : σ → Nat → Prop) : Prop where
  write : ∀ data s, (Sink.write data).Ends s
    (fun count t => count = data.length ∧ fits s data.length ∧ t = extend data s)
    (fun _ t => ¬ fits s data.length ∧ t = s)
  extend_nil : ∀ s, extend [] s = s
  extend_append : ∀ data more s, extend more (extend data s) = extend (data ++ more) s
  fits_extend : ∀ data s n, fits (extend data s) n ↔ fits s (data.length + n)
  fits_mono : ∀ {s m n}, fits s n → m ≤ n → fits s m

end Sink

namespace Writer

variable {σ : Type} [Sink σ] {extend : Bytes → σ → σ} {fits : σ → Nat → Prop} {t : Scalar}
  {values : List t.Value} {w : Writer σ} {s : σ}

/-- Writes values one after another, each in a call of its own. -/
def writeEach (t : Scalar) (values : List t.Value) (w : Writer σ) : Writer σ :=
  values.foldl (fun w value => w.write t value) w

@[simp] theorem writeEach_cons (value : t.Value) (rest : List t.Value) (w : Writer σ) :
    w.writeEach t (value :: rest) = (w.write t value).writeEach t rest := rfl

@[simp] theorem writeEach_of_failed (hw : w.failed = true) (values : List t.Value) :
    w.writeEach t values = w := by
  induction values with
  | nil => rfl
  | cons value rest ih => rwa [writeEach_cons, write, append_of_failed hw]

/-- Values written in one call and one by one. Either both ways succeed and come to the same, or
both fail: then the one has left the sink alone, and the other has written the values that fit. -/
structure WritesAlike (extend : Bytes → σ → σ) (fits : σ → Nat → Prop) (t : Scalar)
    (values : List t.Value) (w : Writer σ) : Prop where
  isOk_eq : (w.writeList t values).isOk = (w.writeEach t values).isOk
  isOk_iff : (w.writeList t values).isOk ↔ w.isOk ∧ fits w.sink (values.length * t.width)
  of_isOk : (w.writeList t values).isOk → w.writeEach t values = w.writeList t values ∧
    (w.writeList t values).sink = extend (t.encodeList values) w.sink
  of_not_isOk : ¬ (w.writeList t values).isOk → (w.writeList t values).sink = w.sink
  fitting_of_not_isOk : ¬ (w.writeList t values).isOk → w.isOk → ∃ k < values.length,
    (∀ j, fits w.sink (j * t.width) ↔ j ≤ k) ∧
      (w.writeEach t values).sink = extend (t.encodeList (values.take k)) w.sink
  of_failed : ¬ w.isOk → w.writeList t values = w ∧ w.writeEach t values = w

variable (hsink : Sink.AllOrNone extend fits)
include hsink

theorem append_of_fits {data : Bytes} (hfits : fits s data.length) :
    append data ⟨s, false⟩ = ⟨extend data s, false⟩ := by
  have hwrite := hsink.write data s
  unfold append
  cases hact : Sink.write data s with
  | ok count next =>
    obtain ⟨rfl, -, rfl⟩ := hwrite.of_ok hact
    simp
  | error e next => exact absurd hfits (hwrite.of_error hact).1

theorem append_of_not_fits {data : Bytes} (hfits : ¬ fits s data.length) :
    append data ⟨s, false⟩ = ⟨s, true⟩ := by
  have hwrite := hsink.write data s
  unfold append
  cases hact : Sink.write data s with
  | ok count next => exact absurd (hwrite.of_ok hact).2.1 hfits
  | error e next =>
    obtain ⟨-, rfl⟩ := hwrite.of_error hact
    rfl

theorem writeEach_of_fits (hfits : fits s (values.length * t.width)) :
    writeEach t values ⟨s, false⟩ = ⟨extend (t.encodeList values) s, false⟩ := by
  induction values generalizing s with
  | nil => exact congrArg (Writer.mk · false) (hsink.extend_nil s).symm
  | cons value rest ih =>
    rw [List.length_cons, Nat.succ_mul, Nat.add_comm, ← t.length_encode value] at hfits
    have hfirst := hsink.fits_mono hfits (Nat.le_add_right ..)
    rw [writeEach_cons, write, append_of_fits hsink hfirst,
      ih ((hsink.fits_extend ..).mpr (by rwa [t.length_encode] at hfits ⊢)), hsink.extend_append]
    rfl

/-- Of too many values the first ones are written, as long as they fit. -/
theorem writeEach_of_not_fits (hnone : fits s 0) (hfits : ¬ fits s (values.length * t.width)) :
    ∃ k < values.length, (∀ j, fits s (j * t.width) ↔ j ≤ k) ∧
      writeEach t values ⟨s, false⟩ = ⟨extend (t.encodeList (values.take k)) s, true⟩ := by
  induction values generalizing s with
  | nil => exact absurd (by rwa [List.length_nil, Nat.zero_mul]) hfits
  | cons value rest ih =>
    by_cases hfirst : fits s (t.encode value).length
    · -- The first value fits; how many more do, the sink says that holds it already.
      have hshift (n : Nat) : fits (extend (t.encode value) s) n ↔ fits s (t.width + n) := by
        simp [hsink.fits_extend]
      obtain ⟨k, hk, hmost, hwritten⟩ := ih ((hshift 0).mpr (by simpa using hfirst)) (by
        rwa [hshift, Nat.add_comm, ← Nat.succ_mul])
      refine ⟨k + 1, Nat.succ_lt_succ hk, fun j => ?_, ?_⟩
      · cases j with
        | zero => simpa using hnone
        | succ j => rw [Nat.succ_mul, Nat.add_comm, ← hshift, hmost, Nat.add_le_add_iff_right]
      · rw [writeEach_cons, write, append_of_fits hsink hfirst, hwritten, hsink.extend_append]
        rfl
    · refine ⟨0, Nat.succ_pos _, fun j => ?_, ?_⟩
      · cases j with
        | zero => simpa using hnone
        | succ j =>
          rw [t.length_encode] at hfirst
          refine ⟨fun hmore => absurd (hsink.fits_mono hmore ?_) hfirst, by simp⟩
          grind
      · rw [writeEach_cons, write, append_of_not_fits hsink hfirst, writeEach_of_failed rfl]
        exact congrArg (Writer.mk · true) (hsink.extend_nil s).symm

end Writer

/-- There has to be room for an empty write, as there is in every message within its limit. -/
theorem Sink.AllOrNone.writesAlike {σ : Type} [Sink σ] {extend : Bytes → σ → σ}
    {fits : σ → Nat → Prop} (h : Sink.AllOrNone extend fits) (t : Scalar) (values : List t.Value)
    {w : Writer σ} (hnone : fits w.sink 0) : w.WritesAlike extend fits t values := by
  obtain ⟨s, failed⟩ := w
  cases failed with
  | true =>
    have hlist : Writer.writeList t values ⟨s, true⟩ = ⟨s, true⟩ := Writer.append_of_failed rfl
    constructor <;> simp [hlist, Writer.isOk]
  | false =>
    have hlength := t.length_encodeList values
    by_cases hfits : fits s (values.length * t.width)
    · have hlist : Writer.writeList t values ⟨s, false⟩ = _ :=
        Writer.append_of_fits h (by rwa [hlength])
      have heach := Writer.writeEach_of_fits h hfits
      constructor <;> simp [hlist, heach, Writer.isOk, hfits]
    · have hlist : Writer.writeList t values ⟨s, false⟩ = _ :=
        Writer.append_of_not_fits h (by rwa [hlength])
      obtain ⟨k, hk, hmost, heach⟩ := Writer.writeEach_of_not_fits h hnone hfits
      constructor <;> simp [hlist, heach, Writer.isOk, hfits]
      exact ⟨k, hk, hmost, rfl⟩

/-- A buffer with more bytes. -/
def Buffer.extend (data : Bytes) (buffer : Buffer) : Buffer := ⟨buffer.content ++ data⟩

/-- There is always room in a buffer. -/
theorem Buffer.allOrNone : Sink.AllOrNone Buffer.extend fun _ _ => True where
  write _ _ := Action.ends_of_ok rfl ⟨rfl, trivial, rfl⟩
  extend_nil _ := congrArg Buffer.mk (List.append_nil _)
  extend_append _ _ _ := congrArg Buffer.mk (List.append_assoc ..)
  fits_extend _ _ _ := Iff.rfl
  fits_mono _ _ := trivial

namespace Outgoing

variable {τ α : Type}

/-- A message with more bytes staged. -/
def extend (data : Bytes) (message : Outgoing τ) : Outgoing τ :=
  { message with staged := message.staged ++ data }

/-- So many more bytes do not pass the limit. -/
def HasRoom (message : Outgoing τ) (count : Nat) : Prop :=
  message.staged.length + count ≤ message.connection.limit

instance (message : Outgoing τ) (count : Nat) : Decidable (message.HasRoom count) :=
  inferInstanceAs (Decidable (_ ≤ _))

variable [Transport τ]

theorem allOrNone : Sink.AllOrNone (extend (τ := τ)) HasRoom where
  write data message := by
    apply (message.write_ends data).mono
    · rintro _ _ ⟨rfl, hlimit, rfl⟩
      exact ⟨rfl, hlimit, rfl⟩
    · rintro _ _ ⟨-, hlimit, rfl⟩
      exact ⟨Nat.not_le.mpr hlimit, rfl⟩
  extend_nil message := congrArg (Outgoing.mk message.connection) (List.append_nil _)
  extend_append _ _ message := congrArg (Outgoing.mk message.connection) (List.append_assoc ..)
  fits_extend _ _ _ := by
    unfold HasRoom extend
    grind
  fits_mono h hle := Nat.le_trans (Nat.add_le_add_left hle _) h

/-- No call takes a message past the limit. -/
theorem hasRoom_step {message : Outgoing τ} (h : message.HasRoom 0) (call : Sink.Call) :
    (Sink.step call message).state.HasRoom 0 := by
  apply Sink.step_of_ends fun _ next => HasRoom next 0
  cases call with
  | write data =>
    apply (message.write_ends data).mono
    · rintro _ _ ⟨-, hlimit, rfl⟩
      rwa [HasRoom, Nat.add_zero, List.length_append]
    · rintro _ _ ⟨-, -, rfl⟩
      exact h
  | overwrite offset data =>
    apply (message.overwrite_ends offset data).mono
    · rintro _ _ ⟨-, hle, rfl⟩
      rwa [HasRoom, Bytes.length_overlay_of_le hle]
    · rintro _ _ ⟨-, -, rfl⟩
      exact h
  | flush =>
    rw [Sink.perform, Action.ends_bind, ends_flush]
    split
    next => exact h
    next =>
      dsimp only
      cases Transport.send message.staged message.connection.transport with
      | ok _ transport => exact Nat.zero_le _
      | error e transport => exact h

theorem hasRoom_run {message : Outgoing τ} (h : message.HasRoom 0)
    (session : Client Sink.Call (Except Error Nat) (Outgoing τ) α) :
    (session.run Sink.step message).state.HasRoom 0 :=
  session.run_invariant Sink.step (fun _ message => HasRoom message 0)
    (fun call _ _ h => hasRoom_step h call) [] h

end Outgoing

/-! ## Reading -/

namespace Reader

variable {σ : Type} [Source σ] {sound : σ → Prop} {ahead : σ → Bytes} {t : Scalar} {n : Nat}
  {r : Reader σ} {want : Nat}

/-- Reads into slots one after another, each in a call of its own. -/
def readEach (t : Scalar) : List t.Value → Reader σ → List t.Value × Reader σ
  | [], r => ([], r)
  | current :: rest, r =>
    let (value, r) := r.read t current
    let (values, r) := r.readEach t rest
    (value :: values, r)

@[simp] theorem readEach_cons (current : t.Value) (rest : List t.Value) (r : Reader σ) :
    r.readEach t (current :: rest) =
      ((r.read t current).1 :: ((r.read t current).2.readEach t rest).1,
        ((r.read t current).2.readEach t rest).2) := rfl

/-- A chain that has failed fills no slot and stays as it is. -/
@[simp] theorem readEach_of_failed (hr : r.failed = true) (current : List t.Value) :
    r.readEach t current = (current, r) := by
  induction current with
  | nil => rfl
  | cons value rest ih =>
    have hread : r.read t value = (value, r) := by simp [read, fill, hr]
    simp [hread, ih]

/-- Values read in one call and one by one. Either both ways succeed and bring the same, or both
fail: then the one has left the slots alone, and the other has filled those for which all bytes were
there. They stop at the same place in either case. -/
structure ReadsAlike (ahead : σ → Bytes) (t : Scalar) {n : Nat} (current : Vector t.Value n)
    (r : Reader σ) : Prop where
  isOk_eq : (r.readArray t current).2.isOk = (r.readEach t current.toList).2.isOk
  position_eq : (r.readArray t current).2.position = (r.readEach t current.toList).2.position
  isOk_iff : (r.readArray t current).2.isOk ↔ r.isOk ∧ n * t.width ≤ (ahead r.source).length
  of_isOk : (r.readArray t current).2.isOk →
    (r.readArray t current).1.toList = (r.readEach t current.toList).1 ∧
      (r.readEach t current.toList).1 = t.decodeList n (ahead r.source)
  of_not_isOk : ¬ (r.readArray t current).2.isOk → (r.readArray t current).1 = current
  complete_of_not_isOk : ¬ (r.readArray t current).2.isOk → r.isOk →
    let complete := (ahead r.source).length / t.width
    complete < n ∧ (r.readEach t current.toList).1 =
      t.decodeList complete (ahead r.source) ++ current.toList.drop complete
  of_failed : ¬ r.isOk →
    r.readArray t current = (current, r) ∧ r.readEach t current.toList = (current.toList, r)

variable (hsource : Source.Yields sound ahead) {s : σ} (hs : sound s)
include hsource hs

/-- Where enough bytes lie ahead a read brings just these, and the chain goes on behind them. -/
theorem fill_of_le (hle : want ≤ (ahead s).length) :
    (fill want ⟨s, false⟩).1.isComplete = true ∧
      (fill want ⟨s, false⟩).1.bytes = (ahead s).take want ∧
      ∃ next, (fill want ⟨s, false⟩).2 = ⟨next, false⟩ ∧ sound next ∧
        ahead next = (ahead s).drop want ∧
        Source.position next = Source.position s + want := by
  obtain ⟨hread, hsound, hahead, hposition⟩ := hsource.read want hs
  rw [Nat.min_eq_left hle] at hposition
  obtain ⟨hcomplete, hbytes, hnext⟩ :=
    fill_of_read (show (⟨s, false⟩ : Reader σ).failed = false from rfl)
      (List.length_take_of_le hle) hread
  exact ⟨hcomplete, hbytes, _, hnext, hsound, hahead, hposition⟩

/-- Where too few bytes lie ahead the chain breaks at their end. -/
theorem fill_of_lt (hlt : (ahead s).length < want) :
    (fill want ⟨s, false⟩).1.isComplete = false ∧
      ∃ next, (fill want ⟨s, false⟩).2 = ⟨next, true⟩ ∧
        Source.position next = Source.position s + (ahead s).length := by
  obtain ⟨hread, -, -, hposition⟩ := hsource.read want hs
  rw [Nat.min_eq_right (Nat.le_of_lt hlt)] at hposition
  have hshort : ((Source.read want s).1.isComplete want) = false := by
    rw [hread, List.take_of_length_le (Nat.le_of_lt hlt)]
    simpa [Delivery.isComplete, Delivery.ofBytes] using Nat.ne_of_lt hlt
  exact ⟨hshort, _, congrArg (Reader.mk _) (congrArg Bool.not hshort), hposition⟩

theorem readArray_of_le (current : Vector t.Value n) (hle : n * t.width ≤ (ahead s).length) :
    (readArray t current ⟨s, false⟩).1.toList = t.decodeList n (ahead s) ∧
      ∃ next, (readArray t current ⟨s, false⟩).2 = ⟨next, false⟩ ∧
        Source.position next = Source.position s + n * t.width := by
  obtain ⟨hcomplete, hbytes, next, hnext, -, -, hposition⟩ := fill_of_le hsource hs hle
  refine ⟨?_, next, hnext, hposition⟩
  simp only [readArray, hcomplete, hbytes, if_true, t.decodeList_take]
  rfl

theorem readArray_of_lt (current : Vector t.Value n) (hlt : (ahead s).length < n * t.width) :
    ∃ next, readArray t current ⟨s, false⟩ = (current, ⟨next, true⟩) ∧
      Source.position next = Source.position s + (ahead s).length := by
  obtain ⟨hcomplete, next, hnext, hposition⟩ := fill_of_lt hsource hs hlt
  refine ⟨next, ?_, hposition⟩
  simp [readArray, hcomplete, hnext]

theorem readEach_of_le (current : List t.Value)
    (hle : current.length * t.width ≤ (ahead s).length) :
    ∃ next, readEach t current ⟨s, false⟩ =
        (t.decodeList current.length (ahead s), ⟨next, false⟩) ∧
      Source.position next = Source.position s + current.length * t.width := by
  induction current generalizing s with
  | nil => exact ⟨s, rfl, by simp⟩
  | cons value rest ih =>
    rw [List.length_cons, Nat.succ_mul] at hle
    obtain ⟨hcomplete, hbytes, first, hfirst, hsound, hahead, hposition⟩ :=
      fill_of_le hsource hs (show t.width ≤ (ahead s).length by omega)
    obtain ⟨next, hnext, hlast⟩ := ih hsound (by grind)
    refine ⟨next, ?_, by grind⟩
    simp only [readEach_cons, read, hcomplete, hbytes, hfirst, hnext, hahead, if_true]
    rfl

/-- Of too many slots the first ones are filled, as long as all bytes of a value are there. -/
theorem readEach_of_lt (current : List t.Value)
    (hlt : (ahead s).length < current.length * t.width) :
    let complete := (ahead s).length / t.width
    ∃ next, readEach t current ⟨s, false⟩ =
        (t.decodeList complete (ahead s) ++ current.drop complete, ⟨next, true⟩) ∧
      Source.position next = Source.position s + (ahead s).length := by
  induction current generalizing s with
  | nil => simp at hlt
  | cons value rest ih =>
    have hwidth := t.width_pos
    rw [List.length_cons, Nat.succ_mul] at hlt
    rcases Nat.lt_or_ge (ahead s).length t.width with hshort | hle
    · -- Already the first value is incomplete, and with it ends the chain.
      obtain ⟨hcomplete, next, hnext, hposition⟩ := fill_of_lt hsource hs hshort
      refine ⟨next, ?_, hposition⟩
      rw [readEach_cons, read, hnext, readEach_of_failed rfl, Nat.div_eq_of_lt hshort]
      simp [hcomplete, Scalar.decodeList]
    · obtain ⟨hcomplete, hbytes, first, hfirst, hsound, hahead, hposition⟩ :=
        fill_of_le hsource hs hle
      have hleft : (ahead first).length = (ahead s).length - t.width := by
        simp [hahead]
      obtain ⟨next, hnext, hlast⟩ := ih hsound (by omega)
      refine ⟨next, ?_, by omega⟩
      rw [Nat.div_eq_sub_div hwidth hle, ← hleft]
      simp only [readEach_cons, read, hcomplete, hbytes, hfirst, hnext, if_true]
      rw [Scalar.decodeList, ← hahead]
      rfl

end Reader

/-- The comparison holds wherever such a source stands, and of a chain that has failed, too. -/
theorem Source.Yields.readsAlike {σ : Type} [Source σ] {sound : σ → Prop} {ahead : σ → Bytes}
    (h : Source.Yields sound ahead) (t : Scalar) {n : Nat} (current : Vector t.Value n)
    {r : Reader σ} (hs : sound r.source) : r.ReadsAlike ahead t current := by
  obtain ⟨s, failed⟩ := r
  have hlength := current.length_toList
  cases failed with
  | true =>
    have hlist : Reader.readArray t current ⟨s, true⟩ = (current, ⟨s, true⟩) := by
      simp [Reader.readArray, Reader.fill]
    constructor <;> simp [hlist, Reader.isOk]
  | false =>
    rcases Nat.lt_or_ge (ahead s).length (n * t.width) with hlt | hle
    · obtain ⟨_, hlist, hposition⟩ := Reader.readArray_of_lt h hs current hlt
      obtain ⟨_, heach, hposition'⟩ :=
        Reader.readEach_of_lt h hs current.toList (by rwa [hlength])
      have hcomplete : (ahead s).length / t.width < n :=
        Nat.div_lt_of_lt_mul (by rwa [Nat.mul_comm])
      constructor <;> simp [hlist, heach, Reader.isOk, Reader.position, hposition, hposition',
        hlt, hcomplete]
    · obtain ⟨hvalues, _, hlist, hposition⟩ := Reader.readArray_of_le h hs current hle
      obtain ⟨_, heach, hposition'⟩ :=
        Reader.readEach_of_le h hs current.toList (by rwa [hlength])
      rw [hlength] at heach hposition'
      constructor <;> simp [hlist, heach, Reader.isOk, Reader.position, hposition, hposition',
        hle, hvalues]

/-! ## Both directions -/

/-- On every buffer, and on every message within its limit, which any client of any connection keeps
a message: values of any kind are written at once as one by one. From every cursor, from all that a
connection has received, and from a harmless stream, wherever the source stands, they are read at
once as one by one. -/
theorem bulk_as_one_by_one (t : Scalar) :
    (∀ (values : List t.Value) (w : Writer Buffer),
      w.WritesAlike Buffer.extend (fun _ _ => True) t values) ∧
    (∀ {τ : Type} [Transport τ] (values : List t.Value) (w : Writer (Outgoing τ)),
      w.sink.HasRoom 0 → w.WritesAlike Outgoing.extend Outgoing.HasRoom t values) ∧
    (∀ {τ α β : Type} [Transport τ] (transport : τ) (limit : Nat)
      (client : Client (Dealing τ) (Except Error Nat) (Connection τ) α)
      (session : Client Sink.Call (Except Error Nat) (Outgoing τ) β),
      let c := (client.run Connection.deal { transport, limit }).state
      (session.run Sink.step c.outgoing).state.HasRoom 0) ∧
    ∀ {n : Nat} (current : Vector t.Value n),
      (∀ r : Reader Cursor, r.ReadsAlike Cursor.remaining t current) ∧
      (∀ {τ : Type} (r : Reader (Incoming τ)), r.ReadsAlike Incoming.remaining t current) ∧
      ∀ r : Reader StreamSource, r.source.stream.faults.Harmless →
        r.ReadsAlike StreamSource.ahead t current := by
  refine ⟨fun values w => Buffer.allOrNone.writesAlike t values trivial,
    fun values w hroom => Outgoing.allOrNone.writesAlike t values hroom, ?_,
    fun current => ⟨fun r => Cursor.yields.readsAlike t current trivial,
      fun r => Incoming.yields.readsAlike t current trivial,
      fun r hf => StreamSource.yields.readsAlike t current hf⟩⟩
  intro τ α β _ transport limit client session c
  apply Outgoing.hasRoom_run
  have hstaged : c.staged = [] :=
    client.run_invariant Connection.deal (fun _ c => c.staged = [])
      (fun dealing _ _ h => Connection.staged_deal h dealing) [] rfl
  rw [Outgoing.HasRoom, Connection.outgoing, hstaged]
  exact Nat.zero_le _

/-- A stream with two and a half numbers of two bytes ahead, which it hands out byte by byte. -/
def dripping : Stream where
  content := [9, 1, 0, 2, 0, 3]
  cursor := 1
  faults := .scheduled [0, 2] [] "" (some 1)

/-- Three numbers of two bytes where there is room for two and a half, and where only as many have
arrived. -/
theorem bulk_as_one_by_one_cut :
    let message : Outgoing Connection.Scripted := ⟨{ transport := {}, limit := 6 }, [9]⟩
    let w : Writer (Outgoing Connection.Scripted) := ⟨message, false⟩
    let r : Reader StreamSource := ⟨⟨dripping, 1, none⟩, false⟩
    let current : Vector UInt16 3 := #v[7, 7, 7]
    message.HasRoom 0 ∧ dripping.faults.Harmless ∧
      (w.writeList .u16 [1, 2, 3]).sink = message ∧
      (w.writeEach .u16 [1, 2, 3]).sink.staged = [9, 1, 0, 2, 0] ∧
      (r.readArray .u16 current).1 = current ∧
      (r.readEach .u16 current.toList).1 = [1, 2, 7] ∧
      (r.readArray .u16 current).2.position = (r.readEach .u16 current.toList).2.position := by
  intro message w r current
  obtain ⟨-, hmessages, -, hsources⟩ := bulk_as_one_by_one .u16
  have hroom : message.HasRoom 0 := by decide +kernel
  have hf : dripping.faults.Harmless := Faults.harmless_scheduled [0, 2] "" (by decide)
  have hwrites := hmessages [1, 2, 3] w hroom
  have hreads := (hsources current).2.2 r hf
  have hfull : ¬ (w.writeList .u16 [1, 2, 3]).isOk := fun hok =>
    absurd (hwrites.isOk_iff.mp hok).2 (by decide +kernel)
  have hshort : ¬ (r.readArray .u16 current).2.isOk := fun hok =>
    absurd (hreads.isOk_iff.mp hok).2 (by decide +kernel)
  obtain ⟨k, -, hmost, hwritten⟩ := hwrites.fitting_of_not_isOk hfull rfl
  have hk : k = 2 := by
    have htwo := (hmost 2).mp (by decide +kernel)
    have hthree := mt (hmost 3).mpr (by decide +kernel)
    omega
  subst hk
  exact ⟨hroom, hf, hwrites.of_not_isOk hfull, congrArg Outgoing.staged hwritten,
    hreads.of_not_isOk hshort, (hreads.complete_of_not_isOk hshort rfl).2.trans (by decide +kernel),
    hreads.position_eq⟩

end Octet
