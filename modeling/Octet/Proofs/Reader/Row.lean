import Octet.Proofs.Reader.Failure

/-!
# Rows of reads on any source

A source may stop short or fail at any read, and may report what it likes. A row of reads brings
just what the buffers hold in the end, if the source reports every one of them as full.

## Main definitions

* `Source.readRow`: fills cleared buffers one after another.
* `Reader.Gathers`, `Reader.Breaks`: what becomes of a chain that asks for them.

## Main statements

* `Reader.performAll_readRow`: a row of reads decodes these buffers, and fails if one is not full.
* `Reader.Gathers.append`, `Reader.Gathers.breaks`: what follows a row that was full.
-/

namespace Octet

variable {σ : Type} [Source σ]

namespace Source

/-- Fills cleared buffers one after another. They are joined if the source reports each of them as
full; the first of which it does not is the last that it is asked to fill. -/
def readRow : List Nat → σ → Option Bytes × σ
  | [], s => (some [], s)
  | want :: rest, s =>
    let (delivery, next) := Source.read want s
    if delivery.isComplete want then
      let (bytes, last) := readRow rest next
      (bytes.map (delivery.stored want ++ ·), last)
    else (none, next)

theorem length_readRow {wants : List Nat} {s : σ} {image : Bytes}
    (h : (readRow wants s).1 = some image) : image.length = wants.sum := by
  induction wants generalizing s image with
  | nil =>
    obtain rfl := Option.some.inj h
    rfl
  | cons want rest ih =>
    rw [readRow] at h
    dsimp only at h
    split at h
    next =>
      obtain ⟨bytes, hbytes, rfl⟩ := Option.map_eq_some_iff.mp h
      simp [ih hbytes]
    next => cases h

theorem readRow_append (wants more : List Nat) (s : σ) :
    readRow (wants ++ more) s =
      match readRow wants s with
      | (some image, next) => ((readRow more next).1.map (image ++ ·), (readRow more next).2)
      | (none, next) => (none, next) := by
  induction wants generalizing s with
  | nil => simp [readRow]
  | cons want rest ih =>
    simp only [List.cons_append, readRow]
    split
    next =>
      rw [ih]
      rcases readRow rest (Source.read want s).2 with ⟨_ | image, next⟩ <;>
        simp [Function.comp_def]
    next => rfl

end Source

namespace Reader

/-- An unbroken chain has filled a row of buffers with these bytes, and goes on. -/
def Gathers (wants : List Nat) (image : Bytes) (r next : Reader σ) : Prop :=
  r.failed = false ∧ next.failed = false ∧
    Source.readRow wants r.source = (some image, next.source)

/-- A chain breaks off at one of a row of buffers, unless it was broken before, and says where. -/
def Breaks (wants : List Nat) (e : Error) (r next : Reader σ) : Prop :=
  next.failed = true ∧ e = .readChain next.position ∧
    if r.failed then next = r else Source.readRow wants r.source = (none, next.source)

variable {r mid next : Reader σ} {calls : List Call} {wants more : List Nat} {image rest : Bytes}
  {e : Error}

theorem Gathers.length_eq (h : r.Gathers wants image next) : image.length = wants.sum :=
  Source.length_readRow (congrArg Prod.fst h.2.2)

theorem Gathers.append (h : r.Gathers wants image mid) (hmore : mid.Gathers more rest next) :
    r.Gathers (wants ++ more) (image ++ rest) next := by
  refine ⟨h.1, hmore.2.1, ?_⟩
  simp only [Source.readRow_append, h.2.2, hmore.2.2, Option.map_some]

theorem Gathers.breaks (h : r.Gathers wants image mid) (hmore : mid.Breaks more e next) :
    r.Breaks (wants ++ more) e next := by
  grind [Gathers, Breaks, Source.readRow_append]

theorem Breaks.append (h : r.Breaks wants e next) (more : List Nat) :
    r.Breaks (wants ++ more) e next := by
  grind [Breaks, Source.readRow_append]

/-- Whatever gathers bytes or breaks off does nothing on a chain that is broken already. -/
theorem eq_error_of_failed {α : Type} {act : Action (Reader σ) α} (hr : r.failed = true)
    (h : act.Ends r (fun _ next => ∃ wants image, r.Gathers wants image next)
      (fun e next => ∃ wants, r.Breaks wants e next ∨ ∃ image, r.Gathers wants image next)) :
    act r = .error (.readChain r.position) r := by
  apply Action.Ends.eq_error
  apply h.mono
  · intro _ next hnext
    grind [Gathers]
  · intro e next hnext
    grind [Gathers, Breaks]

/-- Whatever comes after a failure makes no difference. -/
@[simp] theorem performAll_of_failed (hr : r.failed = true) (calls : List Call) :
    (performAll calls r).2 = r := by
  induction calls with
  | nil => rfl
  | cons call rest ih =>
    have hcall : perform call r = (Request.untouched (.ofCall call), r) :=
      perform_of_failed hr (.ofCall call)
    rw [performAll, hcall]
    exact ih

/-- On an unbroken chain the buffers of a row of reads are filled one after another. If all are full
they say what is read; if one is not, that fails the reader. -/
theorem performAll_readRow (hr : r.failed = false)
    (hcalls : ∀ call ∈ calls, call.isRead = true) :
    let row := Source.readRow (calls.map Call.width) r.source
    (performAll calls r).2 = ⟨row.2, row.1.isNone⟩ ∧
      ∀ image, row.1 = some image → (performAll calls r).1 = decodeAll calls image := by
  induction calls generalizing r with
  | nil => exact ⟨congrArg (Reader.mk r.source) hr, fun _ _ => rfl⟩
  | cons call rest ih =>
    obtain ⟨hcall, hrest⟩ := List.forall_mem_cons.mp hcalls
    obtain ⟨hnext, hreply⟩ := perform_of_isRead hcall r
    have hfill : r.fill call.width =
        let read := Source.read call.width r.source
        (⟨call.width, read.1, read.1.isComplete call.width⟩,
          ⟨read.2, !read.1.isComplete call.width⟩) := by
      simp [fill, hr]
    rw [hfill] at hnext hreply
    dsimp only at hnext hreply
    simp only [performAll, List.map_cons, Source.readRow, hnext]
    generalize Source.read call.width r.source = read at hreply ⊢
    obtain ⟨delivery, next⟩ := read
    dsimp only at hreply ⊢
    -- The first buffer that is not full fails the reader, and no later call reaches the source.
    cases hcomplete : delivery.isComplete call.width with
    | false => exact ⟨performAll_of_failed rfl rest, by simp⟩
    | true =>
      obtain ⟨hlast, hreplies⟩ := ih (r := ⟨next, false⟩) rfl hrest
      refine ⟨?_, fun image himage => ?_⟩
      · simpa using hlast
      · obtain ⟨bytes, hbytes, rfl⟩ := Option.map_eq_some_iff.mp himage
        have hlen : (delivery.stored call.width).length = call.width := delivery.length_stored _
        rw [decodeAll, List.take_left' hlen, List.drop_left' hlen, ← hreplies bytes hbytes,
          hreply hcomplete]
        rfl

/-- A row of reads has the bytes that it asks for, or has broken off. -/
theorem performAll_gathers_or_breaks (calls : List Call) (r : Reader σ)
    (hcalls : ∀ call ∈ calls, call.isRead = true) :
    let (replies, next) := performAll calls r
    if next.failed then r.Breaks (calls.map Call.width) (.readChain next.position) next
    else ∃ image, r.Gathers (calls.map Call.width) image next ∧
      replies = decodeAll calls image := by
  dsimp only
  cases hr : r.failed with
  | true =>
    have hlast := performAll_of_failed hr calls
    rw [hlast, if_pos hr]
    exact ⟨hr, rfl, by rw [if_pos hr]⟩
  | false =>
    obtain ⟨hstate, hreplies⟩ := performAll_readRow hr hcalls
    rw [hstate]
    rcases hrow : Source.readRow (calls.map Call.width) r.source with ⟨_ | image, next⟩
    · exact ⟨rfl, rfl, by rw [hr, if_neg Bool.false_ne_true, hrow]⟩
    · exact ⟨image, ⟨hr, rfl, hrow⟩, hreplies image (congrArg Prod.fst hrow)⟩

/-- One value has the bytes that it asks for, or is where the chain breaks off. -/
theorem read_gathers_or_breaks (t : Scalar) (current : t.Value) (r : Reader σ) :
    let (value, next) := r.read t current
    if next.failed then r.Breaks [t.width] (.readChain next.position) next
    else ∃ image, r.Gathers [t.width] image next ∧ value = t.decodeAt 0 image := by
  have hrow := performAll_gathers_or_breaks [.read t current] r (by simp [Call.isRead])
  simp only [performAll, perform, decodeAll, List.map_cons, List.map_nil, Call.width,
    Call.decode] at hrow
  dsimp only
  split at hrow
  next hfailed => rwa [if_pos hfailed]
  next hok =>
    obtain ⟨image, himage, hreplies⟩ := hrow
    rw [if_neg hok]
    exact ⟨image, himage, by simpa [Scalar.decodeAt] using hreplies⟩

end Reader

end Octet
