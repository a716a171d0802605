import Octet.Proofs.Chain
import Octet.Proofs.Reader.Call
import Octet.Proofs.Source.Call

/-!
# The chain of a reader

A reader fails at the first read or skip that does not bring just what was asked for. Up to there
every call is one call of the source; from there on none is, and every output is left alone.

## Main definitions

* `Reader.Request`: the calls of a reader, with buffers that are not cleared.
* `Source.spoils`: what a source may bring for a reader to fail.
* `Reader.chain`: the chain of a reader.

## Main statements

* `Reader.perform_eq`: a call on an unbroken chain is one call of the source.
* `Reader.perform_of_failed`: what is called on a failed reader.
* `Reader.untouched_once_failed`: both, at every moment of a chain.
-/

namespace Octet

/-- Whether what a call brings fails the reader that made it: an error, or any count but the one
asked for. -/
def Source.spoils : Source.Call × Source.Reply → Bool
  | (.read want, .delivered ⟨_, .ok count⟩) => count != want
  | (.skip want, .passed (.ok count)) => count != want
  | (.read _, .delivered ⟨_, .error _⟩) | (.skip _, .passed (.error _)) => true
  | _ => false

namespace Reader

/-- A call of the chain, or a read into a buffer with contents of its own. -/
inductive Request
  | ofCall (call : Call)
  | readInto (buffer : Bytes)

namespace Request

/-- The call of the source that a call comes to. -/
def asks : Request → Source.Call
  | .ofCall (.skip t) => .skip t.width
  | .ofCall (.skipBytes count) => .skip count
  | .ofCall call => .read call.width
  | .readInto buffer => .read buffer.length

/-- What a call brings if its output is left alone. -/
def untouched : Request → Reply
  | .ofCall (.read t current) => .value t current
  | .ofCall (.read? t) => .value? t none
  | .ofCall (.readArray t current) => .values t current.toList
  | .ofCall (.readBytes want) => .bytes (List.replicate want 0)
  | .ofCall (.skip _) | .ofCall (.skipBytes _) => .passed
  | .readInto buffer => .bytes buffer

/-- Whether the bytes that do arrive are handed out even if they are too few. -/
def isRaw : Request → Bool
  | .ofCall (.readBytes _) | .readInto _ => true
  | _ => false

end Request

variable {σ : Type} [Source σ] {r : Reader σ}

namespace Request

/-- Makes a call. -/
def perform : Request → Reader σ → Reply × Reader σ
  | .ofCall call, r => Reader.perform call r
  | .readInto buffer, r =>
    let (data, r) := r.readInto buffer
    (.bytes data, r)

end Request

/-! ## On an unbroken chain -/

/-- A cleared buffer is one that holds zeros. -/
theorem readBytes_eq_readInto (want : Nat) (r : Reader σ) :
    r.readBytes want = r.readInto (List.replicate want 0) := by
  simp only [readBytes, readInto, List.length_replicate, Filled.bytes]
  have hwant : (r.fill want).1.want = want := by
    rw [fill]
    split <;> rfl
  rw [hwant]
  simp only [Delivery.stored, Delivery.storedIn, List.drop_replicate, List.length_replicate]

theorem spoils_read (want : Nat) (delivery : Delivery) :
    Source.spoils (.read want, .delivered delivery) = !delivery.isComplete want := by
  rcases delivery with ⟨bytes, count⟩
  cases count <;> rfl

theorem fill_snd (hr : r.failed = false) (want : Nat) :
    (r.fill want).2 =
      let (reply, source) := Source.perform (.read want) r.source
      ⟨source, Source.spoils (.read want, reply)⟩ := by
  simp only [fill, hr, Source.perform, spoils_read]
  rfl

theorem skipBytes_eq (hr : r.failed = false) (count : Nat) :
    r.skipBytes count =
      let (reply, source) := Source.perform (.skip count) r.source
      ⟨source, Source.spoils (.skip count, reply)⟩ := by
  simp only [skipBytes, hr, Source.perform]
  cases Source.skip count r.source <;> rfl

/-- On an unbroken chain a call is one call of the source, and fails by what that brings. -/
theorem perform_eq (hr : r.failed = false) (request : Request) :
    (request.perform r).2 =
      let (reply, source) := Source.perform request.asks r.source
      ⟨source, Source.spoils (request.asks, reply)⟩ := by
  cases request with
  | ofCall call =>
    cases call with
    | skip t => exact skipBytes_eq hr _
    | skipBytes count => exact skipBytes_eq hr _
    | _ => exact fill_snd hr _
  | readInto buffer => exact fill_snd hr _

/-! ## Once it is broken -/

theorem isComplete_fill (want : Nat) (r : Reader σ) :
    (r.fill want).1.isComplete = !(r.fill want).2.failed := by
  cases hr : r.failed with
  | true => simp only [fill, hr, if_true, Bool.not_true]
  | false => simp [fill, hr]

/-- Whatever fails, or comes after that, hands out nothing but raw bytes. -/
theorem perform_fst (request : Request) (h : (request.perform r).2.failed = true)
    (hraw : request.isRaw = false) : (request.perform r).1 = request.untouched := by
  -- Nothing is decoded from a read that fails, even where bytes have arrived.
  have hfill {want : Nat} (h : (r.fill want).2.failed = true) :
      (r.fill want).1.isComplete = false := by
    rw [isComplete_fill, h]
    rfl
  cases request with
  | ofCall call =>
    cases call with
    | read t current =>
      simp [Request.perform, Reader.perform, Reader.read, hfill h, Request.untouched]
    | read? t =>
      simp [Request.perform, Reader.perform, Reader.read?, hfill h, Request.untouched]
    | readArray t current =>
      simp [Request.perform, Reader.perform, Reader.readArray, hfill h, Request.untouched]
    | readBytes want => exact Bool.noConfusion hraw
    | skip t => rfl
    | skipBytes count => rfl
  | readInto buffer => exact Bool.noConfusion hraw

/-- A failed reader takes nothing and hands out nothing. -/
@[simp] theorem perform_of_failed (hr : r.failed = true) (request : Request) :
    request.perform r = (request.untouched, r) := by
  have hfill (want : Nat) : r.fill want = (⟨want, .ofBytes [], false⟩, r) := if_pos hr
  have hinto (buffer : Bytes) : r.readInto buffer = (buffer, r) := by
    simp [readInto, hfill, Delivery.storedIn, Delivery.ofBytes]
  cases request with
  | ofCall call =>
    cases call with
    | read t current | read? t | readArray t current =>
      simp only [Request.perform, Reader.perform, Reader.read, Reader.read?, Reader.readArray,
        hfill]
      rfl
    | readBytes want =>
      simp only [Request.perform, Reader.perform, readBytes_eq_readInto, hinto]
      rfl
    | skip t => exact congrArg _ (skipBytes_of_failed hr)
    | skipBytes count => exact congrArg _ (skipBytes_of_failed hr)
  | readInto buffer =>
    simp only [Request.perform, hinto]
    rfl

/-! ## Chains -/

/-- The chain of a reader, call by call. -/
def chain : Chain Request (Reader σ) where
  next request r := (request.perform r).2
  failed := failed
  next_of_failed hr := by rw [perform_of_failed hr]

theorem trace_perform {r : Reader (Source.Traced σ)} (hr : r.failed = false) (request : Request) :
    ∃ reply, (request.perform r).2.source.trace = r.source.trace ++ [(request.asks, reply)] ∧
      (request.perform r).2.failed = Source.spoils (request.asks, reply) := by
  rw [perform_eq hr, Source.perform_traced]
  exact ⟨_, rfl, rfl⟩

/-- At every moment of a chain on a source that keeps a record of its calls, the record has one read
or skip, of the right width, for each call heard. While nothing has failed, a call fails the reader
just if what it adds to the record does, and no value that it was to read changes then. Once
something has, a call adds nothing and changes no output at all, and the outcome of the chain says
where the source is. -/
theorem untouched_once_failed (source : σ) (requests : List Request) (request : Request) :
    let start : Reader (Source.Traced σ) := { source := { inner := source } }
    let r := chain.after requests start
    let answer := request.perform r
    r.source.trace.map Prod.fst = (chain.heard requests start).map Request.asks ∧
      (r.failed = false → ∃ reply,
        answer.2.source.trace = r.source.trace ++ [(request.asks, reply)] ∧
          (answer.2.isOk = false ↔ Source.spoils (request.asks, reply)) ∧
          (answer.2.isOk = false → request.isRaw = false → answer.1 = request.untouched)) ∧
      (r.failed = true → answer = (request.untouched, r) ∧
        finish r = .error (.readChain r.position) r) := by
  intro start r answer
  refine ⟨?_, fun hr => ?_, fun hr => ⟨perform_of_failed hr request, if_pos hr⟩⟩
  · rw [List.map_eq_flatMap (f := Request.asks)]
    apply chain.record_after (fun r : Reader (Source.Traced σ) => r.source.trace.map Prod.fst)
    intro request r hr
    obtain ⟨reply, htrace, -⟩ := trace_perform hr request
    rw [chain, htrace, List.map_append]
    rfl
  · obtain ⟨reply, htrace, hfailed⟩ := trace_perform hr request
    rw [Reader.isOk, Bool.not_eq_false']
    exact ⟨reply, htrace, by rw [hfailed], fun h hraw => perform_fst request h hraw⟩

/-- Two bytes are left for the second value. What comes after it takes nothing and leaves its buffer
alone. -/
theorem untouched_once_failed_short :
    let cursor : Cursor := { data := [1, 0, 0, 0, 2, 0] }
    let start : Reader (Source.Traced Cursor) := { source := { inner := cursor } }
    let requests : List Request :=
      [.ofCall (.read .u32 0), .ofCall (.read .u32 77), .ofCall (.skip .u8), .readInto [5, 6]]
    let r := chain.after requests start
    r.source.trace.map Prod.fst = [.read 4, .read 4] ∧
      (Request.readInto [9]).perform r = (.bytes [9], r) ∧
      finish r = .error (.readChain 6) r := by
  intro cursor start requests r
  obtain ⟨hasked, -, hfailed⟩ := untouched_once_failed cursor requests (.readInto [9])
  obtain ⟨hanswer, hfinish⟩ := hfailed rfl
  exact ⟨hasked, hanswer, hfinish⟩

end Reader

end Octet
