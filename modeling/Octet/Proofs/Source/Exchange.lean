import Octet.Proofs.Source.Incoming
import Octet.Proofs.Source.Stream

/-!
# Sources in place of one another

Whatever walks over the same data answers the same way. A client that goes by what its calls bring,
and by the position after each of them, cannot tell one such source from another, nor from the bare
data with a position in them.

## Main definitions

* `Source.observe`: a call made on a source, with a look at the position afterwards.
* `Source.walk`: the same call made on nothing but data and a position.

## Main statements

* `Source.Walks.seen_run`: every source that walks over data is seen to do so.
* `Source.run_eq_walk`: a cursor, received bytes and a harmless stream with the same data are.
-/

namespace Octet

namespace Source

section

variable {σ : Type} [Source σ]

/-- Makes a call and looks at the position. -/
def observe (call : Call) (s : σ) : Answer (Reply × Nat) (Call × Reply × Nat) σ :=
  let (reply, t) := perform call s
  ⟨(reply, position t), [(call, reply, position t)], t⟩

/-- What a call brings at a position of data, and the position that it leaves. -/
def answerAt (data : Bytes) (p : Nat) : Call → Reply × Nat
  | .read want =>
    (.delivered (.ofBytes ((data.drop p).take want)), p + min want (data.length - p))
  | .skip count =>
    (.passed (.ok (min count (data.length - p))), p + min count (data.length - p))
  | .size => (.size (some data.length), p)
  | .seek target =>
    if target ≤ data.length then (.sought (.ok ()), target)
    else (.sought (.error (.seekOutOfRange target data.length)), p)

/-- Makes a call on data and a position in them. -/
def walk (data : Bytes) (call : Call) (p : Nat) : Answer (Reply × Nat) (Call × Reply × Nat) Nat :=
  let (reply, q) := answerAt data p call
  ⟨(reply, q), [(call, reply, q)], q⟩

variable {data : Bytes} {stands : σ → Nat → Prop} {s : σ} {p : Nat}

theorem Walks.perform_eq (h : Walks data stands) (hs : stands s p) (call : Call) :
    (perform call s).1 = (answerAt data p call).1 ∧
      stands (perform call s).2 (answerAt data p call).2 := by
  cases call with
  | read want =>
    obtain ⟨hread, hnext⟩ := h.read want hs
    exact ⟨congrArg Reply.delivered hread, hnext⟩
  | skip count =>
    obtain ⟨passed, t, hskip, rfl, ht⟩ := (h.skip count hs).exists_ok (by simp)
    simp only [perform, answerAt, hskip]
    exact ⟨trivial, ht⟩
  | size =>
    obtain ⟨hsize, hnext⟩ := h.size hs
    exact ⟨congrArg Reply.size hsize, hnext⟩
  | seek target =>
    have hseek := h.seek target hs
    cases hact : Source.seek target s with
    | ok _ t =>
      obtain ⟨hle, ht⟩ := hseek.of_ok hact
      simp only [perform, answerAt, hact, if_pos hle]
      exact ⟨trivial, ht⟩
    | error e t =>
      obtain ⟨rfl, hlt, ht⟩ := hseek.of_error hact
      simp only [perform, answerAt, hact, if_neg (Nat.not_le.mpr hlt)]
      exact ⟨trivial, ht⟩

theorem Walks.observe_eq (h : Walks data stands) (hs : stands s p) (call : Call) :
    (observe call s).seen = (walk data call p).seen ∧
      stands (observe call s).state (walk data call p).state := by
  obtain ⟨hreply, hnext⟩ := h.perform_eq hs call
  have hposition := h.position hnext
  refine ⟨?_, hnext⟩
  simp only [observe, walk, Answer.seen, hreply, hposition]

theorem Walks.seen_run {α : Type} (h : Walks data stands) (hs : stands s p)
    (client : Client Call (Reply × Nat) Unit α) :
    (client.blind.run observe s).seen = (client.blind.run (walk data) p).seen :=
  (Client.seen_run_blind (fun p s => stands s p) (fun _ => True)
    (fun _ _ _ => trivial) (fun call _ _ hs _ => h.observe_eq hs call) client hs trivial).1

end

/-- However a client makes its calls, with whatever arguments, a cursor that was sent to `start`,
the received bytes of a connection, sent there too, and a stream with its cursor there answer it
alike: as a walk over the data does. Transfers of the stream may be cut short and interrupted.
Positions within the data are sent to a stream as signed numbers of 64 bits. -/
theorem run_eq_walk {τ α : Type} {data : Bytes} {start : Nat} (hstart : start ≤ data.length)
    (hdata : data.length < UInt64.size / 2) {c : Connection τ} (hreceived : c.received = data)
    {stream : Stream} (hcontent : stream.content = data) (hcursor : stream.cursor = start)
    (hf : stream.faults.Harmless) (client : Client Call (Reply × Nat) Unit α) :
    ∃ (cursor : Cursor) (session : Incoming τ) (source : StreamSource),
      Source.seek start ({ data } : Cursor) = .ok () cursor ∧
        Source.seek start c.incoming = .ok () session ∧
        StreamSource.ofStream stream = .ok source ∧
        (client.blind.run observe cursor).seen = (client.blind.run (walk data) start).seen ∧
        (client.blind.run observe session).seen = (client.blind.run (walk data) start).seen ∧
        (client.blind.run observe source).seen = (client.blind.run (walk data) start).seen := by
  subst hreceived hcursor
  obtain ⟨cursor, hcursor, hcursorAt⟩ :=
    (Cursor.walks c.received).exists_seek (s := { data := c.received }) ⟨rfl, rfl⟩ hstart
  obtain ⟨session, hsession, hsessionAt⟩ :=
    (Incoming.walks c).exists_seek (Incoming.stands_incoming c) hstart
  rw [← hcontent] at hstart hdata
  obtain ⟨source, hsource, hsourceAt⟩ := StreamSource.exists_ofStream hf hstart hdata
  refine ⟨cursor, session, source, hcursor, hsession, hsource, ?_, ?_, ?_⟩
  · exact (Cursor.walks c.received).seen_run hcursorAt client
  · exact (Incoming.walks c).seen_run hsessionAt client
  · rw [← hcontent]
    exact (StreamSource.walks hf hdata).seen_run hsourceAt client

/-- The stream brings two bytes at a time, or is interrupted. The client seeks past the size that it
is told, and skips past the end. -/
theorem run_eq_walk_two_by_two :
    let stream : Stream :=
      { content := [1, 2, 3, 4, 5], cursor := 1, faults := .scheduled [0, 2] [] "" (some 2) }
    let client : Client Call (Reply × Nat) Unit Unit :=
      .call (.read 3) fun _ _ => .call .size fun outcome _ =>
        match outcome with
        | (.size (some size), position) =>
          .call (.seek (size + position)) fun _ _ => .call (.skip 7) fun _ _ => .done ()
        | _ => .done ()
    ∃ source : StreamSource, StreamSource.ofStream stream = .ok source ∧
      (client.blind.run observe source).events =
        [(.read 3, .delivered (.ofBytes [2, 3, 4]), 4), (.size, .size (some 5), 4),
          (.seek 9, .sought (.error (.seekOutOfRange 9 5)), 4), (.skip 7, .passed (.ok 1), 5)] := by
  intro stream client
  have hf : stream.faults.Harmless := Faults.harmless_scheduled [0, 2] "" (by decide)
  let c : Connection Unit := { transport := (), limit := 0, received := [1, 2, 3, 4, 5] }
  have hreceived : c.received = [1, 2, 3, 4, 5] := rfl
  have hcontent : stream.content = [1, 2, 3, 4, 5] := rfl
  have hcursor : stream.cursor = 1 := rfl
  obtain ⟨_, _, source, -, -, hopen, -, -, hseen⟩ :=
    run_eq_walk (by decide) (by decide) hreceived hcontent hcursor hf client
  exact ⟨source, hopen, congrArg Prod.snd hseen⟩

end Source

end Octet
