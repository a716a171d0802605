import Octet.Proofs.Reader.Failure
import Octet.Proofs.Source.Exchange

/-!
# Chains that run out of bytes

On a source without faults a row of calls is answered from the bytes that lie ahead, one piece after
another. The first call that asks for more than is left takes what there is and fails the reader,
which stays at the end of the data from then on.

## Main definitions

* `Reader.Request.decode`, `Reader.Request.cutShort`: what a call brings for which all bytes are
  there, or too few.
* `Reader.observeAll`: a row of calls, with a look at the reader after each of them.
* `Reader.transcript`: the same calls made on nothing but data and a position.
* `Reader.Asked`: where a chain stands that was asked for all bytes up to a position.

## Main statements

* `Reader.Stands.observeAll`: on whatever walks over data, a row of calls is seen to do what the
  transcript says.
* `Reader.exhausts_from_anywhere`: so it is on a cursor, on received bytes and on a harmless stream.
-/

namespace Octet

namespace Reader

namespace Request

/-- The count of bytes that a call asks for. -/
def width : Request → Nat
  | .ofCall call => call.width
  | .readInto buffer => buffer.length

/-- What a call brings if `data` is all that it asked for. -/
def decode : Request → Bytes → Reply
  | .ofCall call, data => call.decode data
  | .readInto _, data => .bytes data

/-- What a call brings if it asked for more than `rest`, which is all that is left. Raw bytes are
handed out as far as they go; nothing is decoded from them. -/
def cutShort : Request → Bytes → Reply
  | .ofCall (.readBytes want), rest => .bytes (rest ++ List.replicate (want - rest.length) 0)
  | .readInto buffer, rest => .bytes (rest ++ buffer.drop rest.length)
  | request, _ => request.untouched

theorem asks_eq (request : Request) :
    request.asks = .read request.width ∨ request.asks = .skip request.width := by
  cases request with
  | ofCall call =>
    cases call with
    | skip t | skipBytes count => exact .inr rfl
    | _ => exact .inl rfl
  | readInto buffer => exact .inl rfl

end Request

/-- The count of bytes that a row of calls asks for. -/
def demand (requests : List Request) : Nat := (requests.map Request.width).sum

@[simp, grind =] theorem demand_cons (request : Request) (requests : List Request) :
    demand (request :: requests) = request.width + demand requests := by
  simp [demand]

/-- What a call brings, and what the reader says of itself afterwards. -/
structure View where
  reply : Reply
  isOk : Bool
  position : Nat

/-- What there is to be seen of a row of calls over data from a position on. Each call before the
first that asks for more than is left brings what its own bytes say; that one is cut short, and no
later call has any effect. -/
def transcript (data : Bytes) : Nat → List Request → List View
  | _, [] => []
  | p, request :: rest =>
    if p + request.width ≤ data.length then
      ⟨request.decode ((data.drop p).take request.width), true, p + request.width⟩ ::
        transcript data (p + request.width) rest
    else
      ⟨request.cutShort (data.drop p), false, data.length⟩ ::
        rest.map fun later => ⟨later.untouched, false, data.length⟩

/-! ## Where a chain stands -/

section

variable {σ : Type} {data : Bytes} {stands : σ → Nat → Prop} {r : Reader σ} {p : Nat}

/-- The chain was asked for all bytes up to a position. It stands there, or the data ends before and
the chain has failed at the end. -/
def Asked (data : Bytes) (stands : σ → Nat → Prop) (p : Nat) (r : Reader σ) : Prop :=
  if p ≤ data.length then r.Stands stands p else r.failed = true ∧ stands r.source data.length

theorem Asked.unbroken (h : r.Asked data stands p) (hle : p ≤ data.length) :
    r.Stands stands p := by
  rwa [Asked, if_pos hle] at h

theorem Asked.exhausted (h : r.Asked data stands p) (hlt : data.length < p) :
    r.failed = true ∧ stands r.source data.length := by
  rwa [Asked, if_neg (Nat.not_le.mpr hlt)] at h

variable [Source σ]

/-- Makes a row of calls and looks at the reader after each of them. -/
def observeAll : List Request → Reader σ → List View × Reader σ
  | [], r => ([], r)
  | request :: rest, r =>
    let (reply, next) := request.perform r
    let (views, last) := observeAll rest next
    (⟨reply, next.isOk, next.position⟩ :: views, last)

theorem Stands.asked (hsource : Source.Walks data stands) (h : r.Stands stands p) :
    r.Asked data stands p := by
  rwa [Asked, if_pos (hsource.le h.2)]

theorem Stands.asked_perform (hsource : Source.Walks data stands) (h : r.Stands stands p)
    (request : Request) : (request.perform r).2.Asked data stands (p + request.width) := by
  have hle := hsource.le h.2
  obtain ⟨hreply, hnext⟩ := hsource.perform_eq h.2 request.asks
  rw [perform_eq h.1, Asked]
  -- A read and a skip move as far as there are bytes, and fail by the count of those.
  have hmoved : (Source.answerAt data p request.asks).2 =
      p + min request.width (data.length - p) ∧
      Source.spoils (request.asks, (Source.answerAt data p request.asks).1) =
        (min request.width (data.length - p) != request.width) := by
    rcases request.asks_eq with hasks | hasks <;>
      simp [hasks, Source.answerAt, Source.spoils, Delivery.ofBytes]
  rw [hmoved.1] at hnext
  dsimp only
  rw [hreply, hmoved.2]
  split
  next hinside =>
    have hall : min request.width (data.length - p) = request.width := by omega
    rw [hall] at hnext ⊢
    exact ⟨bne_self_eq_false .., hnext⟩
  next houtside =>
    have hrest : min request.width (data.length - p) = data.length - p := by omega
    have hend : p + (data.length - p) = data.length := by omega
    rw [hrest, hend] at hnext
    rw [hrest]
    exact ⟨bne_iff_ne.mpr (by omega), hnext⟩

theorem Asked.perform (hsource : Source.Walks data stands) (h : r.Asked data stands p)
    (request : Request) : (request.perform r).2.Asked data stands (p + request.width) := by
  rcases Nat.lt_or_ge data.length p with hlt | hle
  · obtain ⟨hr, hs⟩ := h.exhausted hlt
    rw [perform_of_failed hr, Asked, if_neg (by omega)]
    exact ⟨hr, hs⟩
  · exact (h.unbroken hle).asked_perform hsource request

theorem Asked.read (hsource : Source.Walks data stands) (h : r.Asked data stands p) (t : Scalar)
    (current : t.Value) : (r.read t current).2.Asked data stands (p + t.width) :=
  h.perform hsource (.ofCall (.read t current))

theorem Asked.readArray (hsource : Source.Walks data stands) (h : r.Asked data stands p)
    (t : Scalar) {n : Nat} (current : Vector t.Value n) :
    (r.readArray t current).2.Asked data stands (p + n * t.width) :=
  h.perform hsource (.ofCall (.readArray t current))

theorem Asked.observeAll (hsource : Source.Walks data stands) (h : r.Asked data stands p)
    (requests : List Request) :
    (Reader.observeAll requests r).2.Asked data stands (p + demand requests) := by
  induction requests generalizing r p with
  | nil => exact h
  | cons request rest ih =>
    rw [demand_cons, ← Nat.add_assoc]
    exact ih (h.perform hsource request)

/-- The chain says how far it got: to the bytes that it was asked for, or to the end of the data. -/
theorem Asked.outcome (hsource : Source.Walks data stands) (h : r.Asked data stands p) :
    if p ≤ data.length then r.isOk = true ∧ r.position = p ∧ finish r = .ok () r
    else r.isOk = false ∧ r.position = data.length ∧
      finish r = .error (.readChain data.length) r := by
  split
  next hle =>
    obtain ⟨hr, hs⟩ := h.unbroken hle
    simp only [isOk, finish, hr]
    exact ⟨rfl, hsource.position hs, rfl⟩
  next hlt =>
    obtain ⟨hr, hs⟩ := h.exhausted (Nat.not_le.mp hlt)
    have hposition : r.position = data.length := hsource.position hs
    simp only [isOk, finish, hr, hposition, if_true]
    exact ⟨rfl, trivial, trivial⟩

theorem Asked.finish_ends (hsource : Source.Walks data stands) (h : r.Asked data stands p)
    {post : Unit → Reader σ → Prop} {fail : Error → Reader σ → Prop} :
    finish.Ends r post fail ↔
      if p ≤ data.length then post () r else fail (.readChain data.length) r := by
  have houtcome := h.outcome hsource
  split at houtcome
  next hle => rw [Action.Ends, houtcome.2.2, if_pos hle]
  next hlt => rw [Action.Ends, houtcome.2.2, if_neg hlt]

/-! ## What the calls bring -/

theorem Stands.readInto (hsource : Source.Walks data stands) (h : r.Stands stands p)
    (buffer : Bytes) :
    (r.readInto buffer).1 = (data.drop p).take buffer.length ++
      buffer.drop ((data.drop p).take buffer.length).length := by
  have hdelivery : (r.fill buffer.length).1.delivery =
      .ofBytes ((data.drop p).take buffer.length) := by
    simp only [Reader.fill, h.1]
    exact (hsource.read buffer.length h.2).1
  simp only [Reader.readInto, hdelivery, Delivery.storedIn, Delivery.ofBytes]
  apply List.take_of_length_le
  grind

theorem Stands.readInto_of_le (hsource : Source.Walks data stands) (h : r.Stands stands p)
    {buffer : Bytes} (hle : p + buffer.length ≤ data.length) :
    (r.readInto buffer).1 = (data.drop p).take buffer.length := by
  have hlen : ((data.drop p).take buffer.length).length = buffer.length := by grind
  rw [h.readInto hsource buffer, hlen, List.drop_length, List.append_nil]

theorem Stands.perform_of_le (hsource : Source.Walks data stands) (h : r.Stands stands p)
    (request : Request) (hle : p + request.width ≤ data.length) :
    (request.perform r).1 = request.decode ((data.drop p).take request.width) := by
  cases request with
  | ofCall call => exact (h.perform hsource call hle).1
  | readInto buffer => exact congrArg Reply.bytes (h.readInto_of_le hsource hle)

theorem Stands.perform_of_lt (hsource : Source.Walks data stands) (h : r.Stands stands p)
    (request : Request) (hlt : data.length < p + request.width) :
    (request.perform r).1 = request.cutShort (data.drop p) := by
  have hfailed := ((h.asked_perform hsource request).exhausted hlt).1
  -- A buffer that is too long for what is left gets all of it.
  have hbytes (buffer : Bytes) (hbuffer : data.length < p + buffer.length) :
      (r.readInto buffer).1 = data.drop p ++ buffer.drop (data.drop p).length := by
    have hrest : (data.drop p).take buffer.length = data.drop p := by
      apply List.take_of_length_le
      grind
    rw [h.readInto hsource buffer, hrest]
  cases request with
  | ofCall call =>
    cases call with
    | readBytes want =>
      have hzeros := hbytes (List.replicate want 0) (by rwa [List.length_replicate])
      rw [List.drop_replicate, ← readBytes_eq_readInto] at hzeros
      exact congrArg Reply.bytes hzeros
    | _ => exact perform_fst _ hfailed rfl
  | readInto buffer => exact congrArg Reply.bytes (hbytes buffer hlt)

@[simp] theorem observeAll_of_failed (hr : r.failed = true) (requests : List Request) :
    observeAll requests r =
      (requests.map fun request => ⟨request.untouched, false, r.position⟩, r) := by
  induction requests with
  | nil => rfl
  | cons request rest ih =>
    simp [observeAll, ih, isOk, hr]

/-- An unbroken chain on a source that walks over data is seen to do what the data alone say. -/
theorem Stands.observeAll (hsource : Source.Walks data stands) (h : r.Stands stands p)
    (requests : List Request) : (observeAll requests r).1 = transcript data p requests := by
  induction requests generalizing r p with
  | nil => rfl
  | cons request rest ih =>
    have hasked := h.asked_perform hsource request
    have houtcome := hasked.outcome hsource
    rw [Reader.observeAll, transcript]
    split at houtcome
    next hle =>
      obtain ⟨hok, hposition, -⟩ := houtcome
      rw [if_pos hle]
      simp only [ih (hasked.unbroken hle), h.perform_of_le hsource request hle, hposition, hok]
    next hlt =>
      obtain ⟨hok, hposition, -⟩ := houtcome
      obtain ⟨hfailed, -⟩ := hasked.exhausted (Nat.not_le.mp hlt)
      rw [if_neg hlt]
      simp only [observeAll_of_failed hfailed, hposition, hok,
        h.perform_of_lt hsource request (Nat.not_le.mp hlt)]

/-- Whatever row of calls is made, it is answered from the data from `p` on as far as they go. After
it the chain stands behind the bytes that it was asked for, or has failed at the end of the data. -/
def Exhausts (data : Bytes) (p : Nat) (r : Reader σ) : Prop :=
  ∀ requests,
    let (views, last) := Reader.observeAll requests r
    views = transcript data p requests ∧
      if p + demand requests ≤ data.length then
        last.isOk = true ∧ last.position = p + demand requests ∧ finish last = .ok () last
      else
        last.isOk = false ∧ last.position = data.length ∧
          finish last = .error (.readChain data.length) last

theorem Stands.exhausts (hsource : Source.Walks data stands) (h : r.Stands stands p) :
    r.Exhausts data p := by
  intro requests
  exact ⟨h.observeAll hsource requests,
    ((h.asked hsource).observeAll hsource requests).outcome hsource⟩

end

/-- From wherever a cursor, a session on received bytes or a harmless stream stands, up to the end
of its data, a reader answers from the bytes that lie ahead until they run out, and says so from
then on. Transfers of the stream may be cut short and interrupted. Distances are sent to a stream as
signed numbers of 64 bits, and no contents are longer than those can say. -/
theorem exhausts_from_anywhere {τ : Type} :
    (∀ cursor : Cursor,
      (⟨cursor, false⟩ : Reader Cursor).Exhausts cursor.data cursor.position) ∧
    (∀ session : Incoming τ,
      (⟨session, false⟩ : Reader (Incoming τ)).Exhausts session.connection.received
        session.cursor) ∧
    ∀ stream : Stream, stream.faults.Harmless → stream.cursor ≤ stream.content.length →
      stream.content.length < UInt64.size / 2 →
      ∃ source, StreamSource.ofStream stream = .ok source ∧
        (⟨source, false⟩ : Reader StreamSource).Exhausts stream.content stream.cursor := by
  refine ⟨fun cursor => ?_, fun session => ?_, fun stream hf hle hcontent => ?_⟩
  · exact Stands.exhausts (Cursor.walks cursor.data) ⟨rfl, rfl, rfl⟩
  · exact Stands.exhausts (Incoming.walks session.connection) ⟨rfl, rfl, rfl⟩
  · obtain ⟨source, hopen, hstands⟩ := StreamSource.exists_ofStream hf hle hcontent
    exact ⟨source, hopen, Stands.exhausts (StreamSource.walks hf hcontent) ⟨rfl, hstands⟩⟩

/-- The stream brings two bytes at a time, or is interrupted. Three bytes are left for a buffer of
five, and what comes after it takes nothing. -/
theorem exhausts_from_anywhere_two_by_two :
    let stream : Stream :=
      { content := [6, 1, 0, 0, 0, 2, 0, 9], cursor := 1
        faults := .scheduled [0, 2] [] "" (some 2) }
    let requests : List Request :=
      [.ofCall (.read .u32 0), .readInto [7, 7, 7, 7, 7], .ofCall (.read? .u8),
        .ofCall (.skip .u16)]
    ∃ source last, StreamSource.ofStream stream = .ok source ∧
      observeAll requests (⟨source, false⟩ : Reader StreamSource) =
        ([⟨.value .u32 1, true, 5⟩, ⟨.bytes [2, 0, 9, 7, 7], false, 8⟩,
          ⟨.value? .u8 none, false, 8⟩, ⟨.passed, false, 8⟩], last) ∧
      finish last = .error (.readChain 8) last := by
  intro stream requests
  have hf : stream.faults.Harmless := Faults.harmless_scheduled [0, 2] "" (by decide)
  obtain ⟨-, -, hstream⟩ := @exhausts_from_anywhere Unit
  obtain ⟨source, hopen, hexhausts⟩ := hstream stream hf (by decide) (by decide)
  obtain ⟨hviews, -, -, hfinish⟩ := hexhausts requests
  exact ⟨source, _, hopen, Prod.ext hviews rfl, hfinish⟩

end Reader

end Octet
