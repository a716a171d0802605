import Octet.Sink.Basic
import Octet.Stream

/-!
# Sinks on streams

A sink that writes through to a stream at once. It tracks its position on its own and sends the
stream's cursor back there after every correction.

## Main definitions

* `Stream.writeAll`: writes until every byte is accepted.
* `StreamSink`: the sink.
-/

namespace Octet

namespace Stream

theorem put_faults {data : Bytes} {s next : Stream} {answer : Transfer Nat}
    (h : s.put data = (answer, next)) : next.faults = s.faults := by
  simp only [put] at h
  repeat' split at h
  all_goals cases h; rfl

theorem put_transfers {data : Bytes} {s next : Stream} {answer : Transfer Nat}
    (h : s.put data = (answer, next)) : next.transfers = s.transfers + 1 := by
  simp only [put] at h
  repeat' split at h
  all_goals cases h; rfl

/-- Only an interrupted transfer is to be tried again. -/
theorem put_interrupted {data : Bytes} {s next : Stream} {answer : Transfer Nat}
    (h : s.put data = (answer, next)) :
    s.faults.transfer s.transfers = .interrupted ↔ answer = .interrupted := by
  simp only [put] at h
  split at h <;> cases h <;> simp [*]

/-- Writes until every byte is accepted. An interrupted transfer is tried again; one that fails
or accepts nothing ends the attempt. No bytes take no transfer. -/
def writeAll (data : Bytes) (s : Stream) : EStateM.Result Error Stream Unit :=
  if data = [] then .ok () (if s.eager then s.fillGap else s)
  else
    match h : s.put data with
    | (.done 0, next) => .error (.stream .stalled) next
    | (.done (count + 1), next) => writeAll (data.drop (count + 1)) next
    | (.interrupted, next) => writeAll data next
    | (.failed fault, next) => .error (.stream fault) next
termination_by s.faults.attempts s.transfers data.length
decreasing_by
  · have hpos := List.length_pos_iff.mpr ‹data ≠ []›
    rw [put_faults h, put_transfers h]
    exact Faults.attempts_lt_of_not_interrupted (mt (put_interrupted h).mp nofun) (by grind)
  · have hpos := List.length_pos_iff.mpr ‹data ≠ []›
    rw [put_faults h, put_transfers h,
      Faults.attempts_of_interrupted ((put_interrupted h).mpr rfl) hpos]
    exact Nat.lt_succ_self _

end Stream

/-- A sink that writes through to a stream. `position` is where the next byte lands as long as
every seek succeeds. -/
structure StreamSink where
  stream : Stream
  position : Nat

namespace StreamSink

/-- A sink on a stream, starting at the stream's cursor. -/
def ofStream (stream : Stream) : Except Error StreamSink :=
  match stream.seek (.here 0) with
  | .ok position stream => .ok ⟨stream, position⟩
  | .error e _ => .error e

/-- Runs an action of the stream. -/
def onStream {α : Type} : Action Stream α → Action StreamSink α :=
  Action.on stream fun stream sink => { sink with stream }

def write (data : Bytes) : Action StreamSink Nat := do
  onStream (Stream.writeAll data)
  modify fun sink => { sink with position := sink.position + data.length }
  return data.length

/-- Corrects the bytes in the stream and returns the cursor, which also happens if the
correction itself fails. -/
def overwrite (offset : Nat) (data : Bytes) : Action StreamSink Nat := do
  let position := (← get).position
  Action.conclude (checkPatch offset data.length position)
  let _ ← onStream (Stream.seek (.start offset))
  let written ← Action.attempt (onStream (Stream.writeAll data))
  let _ ← onStream (Stream.seek (.start position))
  Action.conclude written
  return data.length

end StreamSink

instance : Sink StreamSink where
  write := StreamSink.write
  overwrite := StreamSink.overwrite
  position := StreamSink.position
  flush := StreamSink.onStream Stream.flush

end Octet
