import Octet.Proofs.Action
import Octet.Proofs.Scalar
import Octet.Reader

/-!
# What sources promise

A source walks over a byte string if at every position it hands out the bytes from there on, knows
the size, and can be sought anywhere up to the end. A reader on such a source is described by the
bytes that lie ahead of it.

## Main definitions

* `Source.Walks`: the contract.
* `Source.Locates`: a weaker one, for sources that may be past the end of the data.
* `Source.Yields`: another one, for reads alone.
* `Reader.Stands`, `Reader.Ahead`: where an unbroken chain of reads stands, and what it will read.
* `Reader.Reached`, `Reader.Inside`: what is left of that when the chain may have failed.

## Main statements

* `Cursor.walks`: a cursor walks over its data.
* `Reader.Ahead.read`, `Reader.Ahead.readArray`: values are read where their encodings lie ahead.
* `Reader.Reached.fill`: a chain that has not failed has read all that was asked for.
-/

namespace Octet

variable {σ : Type}

namespace Source

/-- The source walks over `data`; `stands` relates its states to positions up to the end. -/
structure Walks [Source σ] (data : Bytes) (stands : σ → Nat → Prop) : Prop where
  position : ∀ {s p}, stands s p → Source.position s = p
  le : ∀ {s p}, stands s p → p ≤ data.length
  read : ∀ {s p} (want : Nat), stands s p →
    (Source.read want s).1 = .ofBytes ((data.drop p).take want) ∧
      stands (Source.read want s).2 (p + min want (data.length - p))
  skip : ∀ {s p} (count : Nat), stands s p →
    (Source.skip count).Ends s
      (fun passed t => passed = min count (data.length - p) ∧ stands t (p + passed))
      fun _ _ => False
  size : ∀ {s p}, stands s p →
    (Source.size s).1 = some data.length ∧ stands (Source.size s).2 p
  seek : ∀ {s p} (target : Nat), stands s p →
    (Source.seek target).Ends s (fun _ t => target ≤ data.length ∧ stands t target)
      fun e t => e = .seekOutOfRange target data.length ∧ data.length < target ∧ stands t p

/-- The source gives access to any part of `data`: it knows the size, can be sought anywhere inside,
and reads from there. `anywhere` relates its states to positions, which may lie past the end;
`inside` does so where a seek has led. -/
structure Locates [Source σ] (data : Bytes) (anywhere inside : σ → Nat → Prop) : Prop where
  position : ∀ {s p}, anywhere s p → Source.position s = p
  weaken : ∀ {s p}, inside s p → anywhere s p
  size : ∀ {s p}, anywhere s p →
    (Source.size s).1 = some data.length ∧ anywhere (Source.size s).2 p
  seek : ∀ {s p} {target : Nat}, anywhere s p → target ≤ data.length →
    ∃ t, Source.seek target s = .ok () t ∧ inside t target
  read : ∀ {s p} {want : Nat}, inside s p → p + want ≤ data.length →
    (Source.read want s).1 = .ofBytes ((data.drop p).take want) ∧
      anywhere (Source.read want s).2 (p + want)

/-- A read brings the bytes that lie ahead, as many as there are, and moves behind them. Nothing is
said of the other calls, nor of what the position means. -/
structure Yields [Source σ] (sound : σ → Prop) (ahead : σ → Bytes) : Prop where
  read : ∀ {s} (want : Nat), sound s →
    (Source.read want s).1 = .ofBytes ((ahead s).take want) ∧ sound (Source.read want s).2 ∧
      ahead (Source.read want s).2 = (ahead s).drop want ∧
      Source.position (Source.read want s).2 = Source.position s + min want (ahead s).length

variable [Source σ] {data : Bytes} {stands : σ → Nat → Prop} {s : σ} {p : Nat}

theorem Walks.exists_seek (h : Walks data stands) (hs : stands s p) {target : Nat}
    (hle : target ≤ data.length) : ∃ t, Source.seek target s = .ok () t ∧ stands t target := by
  obtain ⟨⟨⟩, t, hseek, -, ht⟩ := (h.seek target hs).exists_ok
    fun _ _ ⟨_, hlt, _⟩ => absurd hle (Nat.not_le.mpr hlt)
  exact ⟨t, hseek, ht⟩

theorem Walks.locates (h : Walks data stands) : Locates data stands stands where
  position := h.position
  weaken := id
  size := h.size
  seek hs hle := h.exists_seek hs hle
  read {s p want} hs hle := by
    obtain ⟨hread, hnext⟩ := h.read want hs
    have hwant : min want (data.length - p) = want := by omega
    rw [hwant] at hnext
    exact ⟨hread, hnext⟩

end Source

/-- The cursor over `data` at a position. -/
def Cursor.Stands (data : Bytes) (c : Cursor) (p : Nat) : Prop := c.data = data ∧ c.position = p

theorem Cursor.walks (data : Bytes) : Source.Walks data (Cursor.Stands data) where
  position h := h.2
  le := by
    rintro c _ ⟨rfl, rfl⟩
    exact c.position_le
  read want := by
    rintro ⟨rfl, rfl⟩
    exact ⟨rfl, rfl, by simp [Source.read, Cursor.advance, Cursor.remaining]⟩
  skip count := by
    rintro ⟨rfl, rfl⟩
    exact Action.ends_of_ok rfl ⟨by simp [Cursor.remaining], rfl, rfl⟩
  size := by
    rintro c _ ⟨rfl, rfl⟩
    exact ⟨rfl, rfl, rfl⟩
  seek {c _} target := by
    rintro ⟨rfl, rfl⟩
    by_cases h : target ≤ c.data.length
    · exact Action.ends_of_ok (dif_pos h) ⟨h, rfl, rfl⟩
    · exact Action.ends_of_error (dif_neg h) ⟨rfl, Nat.not_le.mp h, rfl, rfl⟩

theorem Cursor.yields : Source.Yields (fun _ => True) Cursor.remaining where
  read {c} want _ := by
    refine ⟨rfl, trivial, ?_, rfl⟩
    change c.data.drop (c.position + min want c.remaining.length) = c.remaining.drop want
    rw [← List.drop_drop, List.drop_eq_drop_min (i := want)]
    rfl

namespace Reader

/-- The chain is unbroken and its source stands at a position. -/
def Stands (stands : σ → Nat → Prop) (r : Reader σ) (p : Nat) : Prop :=
  r.failed = false ∧ stands r.source p

/-- The chain is unbroken and `rest` lies ahead. -/
def Ahead (data : Bytes) (stands : σ → Nat → Prop) (p : Nat) (rest : Bytes) (r : Reader σ) : Prop :=
  r.Stands stands p ∧ data.drop p = rest

/-- The chain has read all bytes up to a position, unless it has failed. -/
def Reached (stands : σ → Nat → Prop) (p : Nat) (r : Reader σ) : Prop :=
  r.failed = false → stands r.source p

/-- Failed or not, the chain has not led its source off the data. -/
def Inside (stands : σ → Nat → Prop) (r : Reader σ) : Prop := ∃ p, stands r.source p

theorem Stands.inside {r : Reader σ} {stands : σ → Nat → Prop} {p : Nat} (h : r.Stands stands p) :
    r.Inside stands :=
  ⟨p, h.2⟩

variable [Source σ] {data rest : Bytes} {stands : σ → Nat → Prop} {r : Reader σ} {p want : Nat}

@[simp] theorem fill_of_failed (hr : r.failed = true) : (r.fill want).2 = r := by
  simp [fill, hr]

/-- A chain goes on where a read brings all that was asked for. -/
theorem fill_of_read (hr : r.failed = false) {bytes : Bytes} (hlen : bytes.length = want)
    (hread : (Source.read want r.source).1 = .ofBytes bytes) :
    (r.fill want).1.isComplete = true ∧ (r.fill want).1.bytes = bytes ∧
      (r.fill want).2 = ⟨(Source.read want r.source).2, false⟩ := by
  rw [Reader.fill, if_neg (by simp [hr])]
  generalize Source.read want r.source = read at hread
  obtain ⟨delivery, source⟩ := read
  obtain rfl : delivery = _ := hread
  have hcomplete : (Delivery.ofBytes bytes).isComplete want = true := by
    simp [Delivery.isComplete, Delivery.ofBytes, hlen]
  refine ⟨hcomplete, ?_, by simp [hcomplete]⟩
  simp only [Filled.bytes, Delivery.stored, Delivery.ofBytes, hlen, Nat.sub_self,
    List.replicate_zero, List.append_nil]
  grind

/-- A read that stays inside the data brings just the bytes that lie there. -/
theorem fill_of_locates {anywhere inside : σ → Nat → Prop}
    (hsource : Source.Locates data anywhere inside) (h : r.Stands inside p)
    (hle : p + want ≤ data.length) :
    (r.fill want).1.isComplete = true ∧ (r.fill want).1.bytes = (data.drop p).take want ∧
      (r.fill want).2.Stands anywhere (p + want) := by
  obtain ⟨hr, hs⟩ := h
  obtain ⟨hread, hnext⟩ := hsource.read hs hle
  have hlen : ((data.drop p).take want).length = want := by grind
  obtain ⟨hcomplete, hbytes, hfill⟩ := fill_of_read hr hlen hread
  exact ⟨hcomplete, hbytes, hfill ▸ ⟨rfl, hnext⟩⟩

theorem Stands.fill (hsource : Source.Walks data stands) (h : r.Stands stands p) (want : Nat)
    (hle : p + want ≤ data.length) :
    (r.fill want).1.isComplete = true ∧ (r.fill want).1.bytes = (data.drop p).take want ∧
      (r.fill want).2.Stands stands (p + want) :=
  fill_of_locates hsource.locates h hle

/-- A read past the end breaks the chain. -/
theorem Stands.fill_short (hsource : Source.Walks data stands) (h : r.Stands stands p) (want : Nat)
    (hlt : data.length < p + want) : (r.fill want).2.failed = true := by
  obtain ⟨hr, hs⟩ := h
  obtain ⟨hread, -⟩ := hsource.read want hs
  have hle := hsource.le hs
  rw [Reader.fill, if_neg (by simp [hr])]
  generalize Source.read want r.source = read at hread
  obtain ⟨delivery, source⟩ := read
  obtain rfl : delivery = _ := hread
  simp only [Delivery.isComplete, Delivery.ofBytes, List.length_take, List.length_drop]
  have : min want (data.length - p) ≠ want := by omega
  simpa using this

theorem Stands.skipBytes (hsource : Source.Walks data stands) (h : r.Stands stands p) (count : Nat)
    (hle : p + count ≤ data.length) : (r.skipBytes count).Stands stands (p + count) := by
  obtain ⟨hr, hs⟩ := h
  obtain ⟨passed, source, hskip, rfl, hnext⟩ := (hsource.skip count hs).exists_ok (by simp)
  have hcount : min count (data.length - p) = count := by omega
  rw [hcount] at hskip hnext
  simp only [Reader.skipBytes, hr, hskip]
  exact ⟨by simp, hnext⟩

theorem Reached.fill (hsource : Source.Walks data stands) (h : r.Reached stands p) (want : Nat) :
    (r.fill want).2.Reached stands (p + want) := by
  intro hnext
  cases hr : r.failed with
  | true =>
    rw [fill_of_failed hr, hr] at hnext
    exact Bool.noConfusion hnext
  | false =>
    rcases Nat.lt_or_ge data.length (p + want) with hlt | hge
    · rw [Stands.fill_short hsource ⟨hr, h hr⟩ want hlt] at hnext
      exact Bool.noConfusion hnext
    · exact (Stands.fill hsource ⟨hr, h hr⟩ want hge).2.2.2

@[simp] theorem skipBytes_of_failed (hr : r.failed = true) : r.skipBytes want = r := by
  simp [skipBytes, hr]

theorem Reached.skipBytes (hsource : Source.Walks data stands) (h : r.Reached stands p)
    (count : Nat) : (r.skipBytes count).Reached stands (p + count) := by
  intro hnext
  cases hr : r.failed with
  | true =>
    rw [skipBytes_of_failed hr, hr] at hnext
    exact Bool.noConfusion hnext
  | false =>
    obtain ⟨passed, source, hskip, rfl, hs⟩ := (hsource.skip count (h hr)).exists_ok (by simp)
    simp only [Reader.skipBytes, hr, hskip] at hnext ⊢
    have hcount : min count (data.length - p) = count := by simpa using hnext
    exact hcount ▸ hs

theorem Inside.fill (hsource : Source.Walks data stands) (h : r.Inside stands) (want : Nat) :
    (r.fill want).2.Inside stands := by
  obtain ⟨p, hs⟩ := h
  rw [Reader.fill]
  split
  · exact ⟨p, hs⟩
  · exact ⟨_, (hsource.read want hs).2⟩

theorem Inside.skipBytes (hsource : Source.Walks data stands) (h : r.Inside stands) (count : Nat) :
    (r.skipBytes count).Inside stands := by
  obtain ⟨p, hs⟩ := h
  obtain ⟨passed, source, hskip, -, hnext⟩ := (hsource.skip count hs).exists_ok (by simp)
  rw [Reader.skipBytes]
  split
  · exact ⟨p, hs⟩
  · rw [hskip]
    exact ⟨_, hnext⟩

@[simp] theorem finish_ends {post : Unit → Reader σ → Prop} {fail : Error → Reader σ → Prop} :
    finish.Ends r post fail ↔
      if r.failed then fail (.readChain r.position) r else post () r := by
  simp only [Action.Ends, finish]
  cases r.failed <;> simp

/-! ## Values -/

theorem Stands.read (hsource : Source.Walks data stands) (h : r.Stands stands p) (t : Scalar)
    (current : t.Value) (hle : p + t.width ≤ data.length) :
    (r.read t current).1 = t.decodeAt p data ∧
      (r.read t current).2.Stands stands (p + t.width) := by
  obtain ⟨hcomplete, hbytes, hnext⟩ := h.fill hsource t.width hle
  simp only [Reader.read, hcomplete, hbytes, if_true]
  exact ⟨rfl, hnext⟩

theorem Stands.readArray (hsource : Source.Walks data stands) (h : r.Stands stands p) (t : Scalar)
    {n : Nat} (current : Vector t.Value n) (hle : p + n * t.width ≤ data.length) :
    (r.readArray t current).1.toList = t.decodeList n ((data.drop p).take (n * t.width)) ∧
      (r.readArray t current).2.Stands stands (p + n * t.width) := by
  obtain ⟨hcomplete, hbytes, hnext⟩ := h.fill hsource (n * t.width) hle
  simp only [Reader.readArray, hcomplete, hbytes, if_true]
  exact ⟨rfl, hnext⟩

theorem Ahead.fill (hsource : Source.Walks data stands) {bytes : Bytes}
    (h : r.Ahead data stands p (bytes ++ rest)) :
    (r.fill bytes.length).1.isComplete = true ∧ (r.fill bytes.length).1.bytes = bytes ∧
      (r.fill bytes.length).2.Ahead data stands (p + bytes.length) rest := by
  obtain ⟨hr, hdrop⟩ := h
  have hlen : data.length - p = bytes.length + rest.length := by
    rw [← List.length_drop, hdrop, List.length_append]
  have hle := hsource.le hr.2
  obtain ⟨hcomplete, hbytes, hnext⟩ := hr.fill hsource bytes.length (by omega)
  refine ⟨hcomplete, by simp [hbytes, hdrop], hnext, ?_⟩
  rw [← List.drop_drop, hdrop, List.drop_left]

theorem Ahead.read (hsource : Source.Walks data stands) {t : Scalar} {value : t.Value}
    (h : r.Ahead data stands p (t.encode value ++ rest)) (current : t.Value) :
    (r.read t current).1 = value ∧
      (r.read t current).2.Ahead data stands (p + t.width) rest := by
  obtain ⟨hcomplete, hbytes, hnext⟩ := h.fill hsource
  rw [Scalar.length_encode] at hcomplete hbytes hnext
  simp only [Reader.read, hcomplete, hbytes, Scalar.decode_encode, if_true]
  exact ⟨trivial, hnext⟩

theorem Ahead.readArray (hsource : Source.Walks data stands) {t : Scalar} {n : Nat}
    {values : Vector t.Value n} (h : r.Ahead data stands p (t.encodeList values.toList ++ rest))
    (current : Vector t.Value n) :
    (r.readArray t current).1 = values ∧
      (r.readArray t current).2.Ahead data stands (p + n * t.width) rest := by
  obtain ⟨hcomplete, hbytes, hnext⟩ := h.fill hsource
  rw [Scalar.length_encodeList, Vector.length_toList] at hcomplete hbytes hnext
  have hdecode := t.decodeList_encodeList values.toList
  rw [Vector.length_toList] at hdecode
  refine ⟨?_, hnext⟩
  apply Vector.toArray_inj.mp
  simp only [Reader.readArray, hcomplete, hbytes, if_true]
  exact (congrArg List.toArray hdecode).trans values.toArray_toList

end Reader

end Octet
